import Recheck.Proofs.Preparation.Stages
/-!
# Source lists of a build

How many script inputs there are is read twice: to choose between them and the settings, and to collect them.  A build
that has come so far is chosen for its script inputs exactly when collecting them finds a number above zero
(`hasScriptInputs_iff`, `ofScriptInputs_of_announced`), so neither a number that makes no sense nor another target ends
it (`source_list_of_build`).  Collecting goes up to the first input that is unset, or takes them all; but room for as
many paths as announced is made beforehand, and where there are too many for that it ends before the first is looked at
(`script_inputs_answer`, `no_room_for_announced`).
-/
namespace Recheck

/-! ## Files with an extension -/

theorem Path.stem?_of_hasExtension {p : Path} {ext : String} (h : p.hasExtension ext = true) :
    ∃ stem, p.stem? = some stem ∧ stem ≠ [] := by
  unfold hasExtension extension? at h
  rw [beq_iff_eq, Option.bind_eq_some_iff] at h
  obtain ⟨name, hname, hext⟩ := h
  refine ⟨_, by rw [stem?, hname, Option.map_some], ?_⟩
  unfold splitExtension at hext ⊢
  split at hext
  · cases hext
  · cases hext
  · rename_i dot before hne _
    simpa using hne

namespace SourceList

/-! ## Collecting -/

/-- Of the first `count` script inputs, the one at `index` is the first that is not set. -/
structure FirstUnset (env : BuildEnv) (count index : Nat) : Prop where
  lt : index < count
  unset : env.get? (inputName index) = none
  before : ∀ i < index, env.get? (inputName i) ≠ none

/-- Those of the first `count` script inputs that are set. -/
def inputs (env : BuildEnv) (count : Nat) : List Path :=
  (List.range count).filterMap fun i => (env.get? (inputName i)).map Path.mk

def unset? (env : BuildEnv) (indices : List Nat) : Option Nat := indices.find? fun i => (env.get? (inputName i)).isNone

section
variable {env : BuildEnv} {count index : Nat}

theorem unset?_eq_some_iff : unset? env (List.range count) = some index ↔ FirstUnset env count index := by
  rw [unset?, List.find?_range_eq_some]
  constructor
  · rintro ⟨hunset, hmem, hbefore⟩
    exact ⟨List.mem_range.1 hmem, Option.isNone_iff_eq_none.1 hunset, fun i hi => by
      simpa [Option.isSome_iff_ne_none] using hbefore i hi⟩
  · rintro ⟨hlt, hunset, hbefore⟩
    exact ⟨by rw [hunset]; rfl, List.mem_range.2 hlt, fun i hi => by
      simpa [Option.isSome_iff_ne_none] using hbefore i hi⟩

theorem unset?_eq_none_iff : unset? env (List.range count) = none ↔ ∀ i < count, env.get? (inputName i) ≠ none := by
  simp [unset?]

theorem FirstUnset.unique {index' : Nat} (h : FirstUnset env count index) (h' : FirstUnset env count index') :
    index = index' :=
  Option.some.inj ((unset?_eq_some_iff.2 h).symm.trans (unset?_eq_some_iff.2 h'))

/-- More inputs are announced than are set exactly if one of them is the first that is not. -/
theorem length_inputs_lt_iff : (inputs env count).length < count ↔ ∃ i, FirstUnset env count i := by
  have hset : (inputs env count).length = count ↔ ∀ i < count, env.get? (inputName i) ≠ none := by
    have hall := List.filterMap_length_eq_length (f := fun i => (env.get? (inputName i)).map Path.mk)
      (l := List.range count)
    rw [List.length_range] at hall
    exact hall.trans (by simp [Option.isSome_iff_ne_none])
  have hle : (inputs env count).length ≤ count :=
    Nat.le_trans (List.length_filterMap_le _ _) (Nat.le_of_eq List.length_range)
  rw [Nat.lt_iff_le_and_ne, and_iff_right hle, ne_eq, hset, ← unset?_eq_none_iff, ← ne_eq, Option.ne_none_iff_exists']
  simp only [unset?_eq_some_iff]

/-- **Collecting stops at the first input that is unset**, and otherwise takes the sources among all of them. -/
theorem collectInputs_eq (env : BuildEnv) : ∀ count index, collectInputs env count index =
    match unset? env (List.range' index count) with
    | some i => .error (.missingInput (inputName i))
    | none   =>
      .ok (((List.range' index count).filterMap fun i => (env.get? (inputName i)).map Path.mk).filter isSource)
  | 0, _ => rfl
  | count + 1, index => by
    rw [collectInputs, List.range'_succ, unset?, List.find?_cons, List.filterMap_cons]
    cases hset : env.get? (inputName index) with
    | none => rfl
    | some value =>
      have ih := collectInputs_eq env count (index + 1)
      rw [unset?] at ih
      simp only [ih, Option.isNone_some, Option.map_some, List.filter_cons]
      cases List.find? (fun i => (env.get? (inputName i)).isNone) (List.range' (index + 1) count) <;> rfl

theorem hasScriptInputs_iff : hasScriptInputs env = true ↔ ∃ n, announced? env = some n ∧ 1 ≤ n := by
  unfold hasScriptInputs
  cases announced? env <;> simp [Nat.one_le_iff_ne_zero, Nat.pos_iff_ne_zero]

/-- The script inputs of the target of the running phase, where their number can be read. -/
theorem ofScriptInputs_of_announced {target : String} (project : Path)
    (htarget : env.get? "TARGETNAME" = some target) (hn : announced? env = some count) :
    ofScriptInputs env project target =
      if allocationLimit < count * pathBytes then .outOfMemory
      else match unset? env (List.range count) with
        | some i => .failed (.missingInput (inputName i))
        | none   => .listed ((inputs env count).filter isSource) := by
  obtain ⟨text, htext, hparse⟩ := Option.bind_eq_some_iff.1 hn
  unfold ofScriptInputs
  rw [if_neg (fun h => h htarget), htext]
  simp only [Option.getD_some, hparse]
  split
  · rfl
  · rw [collectInputs_eq, ← List.range_eq_range']
    cases unset? env (List.range count) <;> rfl

theorem ofScriptInputs_of_firstUnset {target : String} (project : Path) (htarget : env.get? "TARGETNAME" = some target)
    (hn : announced? env = some count) (hroom : count * pathBytes ≤ allocationLimit) (h : FirstUnset env count index) :
    ofScriptInputs env project target = .failed (.missingInput (inputName index)) := by
  rw [ofScriptInputs_of_announced project htarget hn, if_neg (Nat.not_lt.2 hroom), unset?_eq_some_iff.2 h]

theorem ofScriptInputs_of_set {target : String} (project : Path) (htarget : env.get? "TARGETNAME" = some target)
    (hn : announced? env = some count) (hroom : count * pathBytes ≤ allocationLimit)
    (h : ∀ i < count, env.get? (inputName i) ≠ none) :
    ofScriptInputs env project target = .listed ((inputs env count).filter isSource) := by
  rw [ofScriptInputs_of_announced project htarget hn, if_neg (Nat.not_lt.2 hroom), unset?_eq_none_iff.2 h]

/-- Room is wanting exactly for a number that can be read and is too large. -/
theorem ofScriptInputs_eq_outOfMemory_iff {project : Path} {target : String} :
    ofScriptInputs env project target = .outOfMemory ↔
      env.get? "TARGETNAME" = some target ∧ ∃ n, announced? env = some n ∧ allocationLimit < n * pathBytes := by
  by_cases htarget : env.get? "TARGETNAME" = some target
  · cases hn : announced? env with
    | some n =>
      rw [ofScriptInputs_of_announced project htarget hn]
      simp only [htarget, Option.some.injEq, exists_eq_left', true_and]
      split
      · simp [*]
      · cases unset? env (List.range n) <;> simp [*]
    | none =>
      simp only [reduceCtorEq, false_and, exists_false, and_false, iff_false]
      unfold ofScriptInputs
      rw [if_neg (fun h => h htarget)]
      cases htext : env.get? "SCRIPT_INPUT_FILE_COUNT" with
      | none => exact nofun
      | some text =>
        have hparse : Count.parse? (trimBlank text.toList) = none := by
          rw [announced?, htext] at hn
          exact hn
        simp [hparse]
  · simp [ofScriptInputs, htarget]

end

/-! ## The answer of a build -/

/-- The sources that a build's settings list are as the settings say, or the target is not among them. -/
theorem ofSettings_eq (s : Settings) (project : Path) (target : String) :
    (ofSettings s project target = .failed (.targetNotFound target project) ↔ s.targets.lookup target = none) ∧
    ∀ sources, s.targets.lookup target = some sources →
      ofSettings s project target = .listed ((sources.map project.directory.join).filter isSource) := by
  unfold ofSettings
  cases s.targets.lookup target <;> simp

theorem exists_stem_of_mem {l : List Path} {p : Path} (h : p ∈ l.filter isSource) :
    ∃ stem, p.stem? = some stem ∧ stem ≠ [] :=
  Path.stem?_of_hasExtension (List.mem_filter.1 h).2

end SourceList

open SourceList

/-- **The source list of a build that names its project and its target**, if it can be had.  With a number of script
inputs above zero it is the first of them that is missing, or the sources among them in order; and else the settings say
which they are.  No count is refused, no build with script inputs is taken for another target, and each source has a
stem. -/
theorem source_list_of_build {env : BuildEnv} {project target : String}
    (hproject : env.nonempty? "PROJECT_FILE_PATH" = some project) (htarget : env.nonempty? "TARGETNAME" = some target)
    (s : Settings) (hroom : SourceList.ofTarget env s ⟨project⟩ target ≠ .outOfMemory) :
    XcodeTarget.ofEnv env = .ok ⟨env, ⟨project⟩, target⟩ ∧
    (∀ n, announced? env = some n → 1 ≤ n →
      (∀ i, FirstUnset env n i → SourceList.ofTarget env s ⟨project⟩ target = .failed (.missingInput (inputName i))) ∧
      ((∀ i < n, env.get? (inputName i) ≠ none) →
        SourceList.ofTarget env s ⟨project⟩ target = .listed ((inputs env n).filter (·.hasExtension "m"))) ∧
      ∀ t p, SourceList.ofTarget env s ⟨project⟩ target ≠ .failed (.targetNotFound t p)) ∧
    ((∀ n, announced? env = some n → n = 0) →
      (SourceList.ofTarget env s ⟨project⟩ target = .failed (.targetNotFound target ⟨project⟩) ↔
        s.targets.lookup target = none) ∧
      ∀ sources, s.targets.lookup target = some sources → SourceList.ofTarget env s ⟨project⟩ target =
        .listed ((sources.map (Path.directory ⟨project⟩).join).filter (·.hasExtension "m"))) ∧
    (∀ text, SourceList.ofTarget env s ⟨project⟩ target ≠ .failed (.invalidCount text)) ∧
    ∀ sources, SourceList.ofTarget env s ⟨project⟩ target = .listed sources →
      ∀ p ∈ sources, ∃ stem, p.stem? = some stem ∧ stem ≠ [] := by
  have hrequired := BuildEnv.require_eq_ok_iff.2 htarget
  have hname : env.get? "TARGETNAME" = some target := BuildEnv.get?_of_require hrequired
  refine ⟨?_, ?_⟩
  · rw [XcodeTarget.ofEnv, BuildEnv.require_eq_ok_iff.2 hproject]
    simp only [hrequired]
  by_cases hhas : hasScriptInputs env = true
  · have hchosen : SourceList.ofTarget env s ⟨project⟩ target = ofScriptInputs env ⟨project⟩ target := if_pos hhas
    obtain ⟨n, hn, hpos⟩ := hasScriptInputs_iff.1 hhas
    rw [hchosen] at hroom ⊢
    have hfits : n * pathBytes ≤ allocationLimit := Nat.not_lt.1 fun hlt =>
      hroom (ofScriptInputs_eq_outOfMemory_iff.2 ⟨hname, n, hn, hlt⟩)
    refine ⟨fun m hm _ => ?_, fun hzero => absurd (hzero n hn) (Nat.ne_of_gt hpos), ?_⟩
    · obtain rfl : n = m := Option.some.inj (hn.symm.trans hm)
      refine ⟨fun i => ofScriptInputs_of_firstUnset _ hname hn hfits, ofScriptInputs_of_set _ hname hn hfits, ?_⟩
      intro t p
      rw [ofScriptInputs_of_announced _ hname hn, if_neg (Nat.not_lt.2 hfits)]
      cases unset? env (List.range n) <;> simp
    · rw [ofScriptInputs_of_announced _ hname hn, if_neg (Nat.not_lt.2 hfits)]
      cases unset? env (List.range n) with
      | some i => exact ⟨nofun, nofun⟩
      | none =>
        refine ⟨nofun, fun sources hsources p hp => ?_⟩
        cases hsources
        exact exists_stem_of_mem hp
  · have hchosen : SourceList.ofTarget env s ⟨project⟩ target = ofSettings s ⟨project⟩ target := if_neg hhas
    rw [hchosen]
    refine ⟨fun n hn hpos => absurd (hasScriptInputs_iff.2 ⟨n, hn, hpos⟩) hhas, fun _ => ofSettings_eq s _ target, ?_⟩
    unfold ofSettings
    cases s.targets.lookup target with
    | none => exact ⟨nofun, nofun⟩
    | some listed =>
      refine ⟨nofun, fun sources hsources p hp => ?_⟩
      cases hsources
      exact exists_stem_of_mem hp

namespace Sample

/-- A build that announces as many script inputs as `count` says and has four, of which two are one source. -/
def fourInputs (count : String) : BuildEnv :=
  (((((build "/objs" "arm64").insert "SCRIPT_INPUT_FILE_COUNT" count).insert "SCRIPT_INPUT_FILE_1" "b.h").insert
    "SCRIPT_INPUT_FILE_2" "src/c.m").insert "SCRIPT_INPUT_FILE_3" "b.m")

def listing : Settings := { Settings.default with targets := [("App", [⟨"a.m"⟩, ⟨"a.swift"⟩, ⟨"/abs/.m"⟩, ⟨"a.m"⟩])] }

end Sample

section
open Sample

theorem source_list_of_build_four :
    SourceList.ofTarget (fourInputs " +4\n") listing ⟨"/App.xcodeproj"⟩ "App" =
      .listed [⟨"b.m"⟩, ⟨"src/c.m"⟩, ⟨"b.m"⟩] ∧
    SourceList.ofTarget (fourInputs "6") listing ⟨"/App.xcodeproj"⟩ "App" =
      .failed (.missingInput "SCRIPT_INPUT_FILE_4") ∧
    SourceList.ofTarget (fourInputs "-4") listing ⟨"/App.xcodeproj"⟩ "App" = .listed [⟨"/a.m"⟩, ⟨"/a.m"⟩] := by
  obtain ⟨-, hfour, -⟩ := @source_list_of_build (fourInputs " +4\n") "/App.xcodeproj" "App" rfl rfl listing (by decide)
  obtain ⟨-, hsix, -⟩ := @source_list_of_build (fourInputs "6") "/App.xcodeproj" "App" rfl rfl listing (by decide)
  obtain ⟨-, -, hnone, -⟩ := @source_list_of_build (fourInputs "-4") "/App.xcodeproj" "App" rfl rfl listing (by decide)
  refine ⟨(hfour 4 rfl (by decide)).2.1 (by decide), (hsix 6 rfl (by decide)).1 4 ⟨by decide, rfl, by decide⟩, ?_⟩
  exact (hnone fun n hn => by cases hn).2 _ rfl

end

/-! ## Numbers of script inputs -/

/-- **How script inputs are answered for, whatever number is announced.**  There is no answer exactly where the number
is so large that no room can be made for as many paths.  Up to there, if more are announced than are set, the first that
is missing is reported. -/
theorem script_inputs_answer (env : BuildEnv) (project : Path) (target : String) :
    (ofScriptInputs env project target = .outOfMemory ↔
      env.get? "TARGETNAME" = some target ∧ ∃ n, announced? env = some n ∧ allocationLimit < n * pathBytes) ∧
    ∀ n, env.get? "TARGETNAME" = some target → announced? env = some n → n * pathBytes ≤ allocationLimit →
      (inputs env n).length < n → ∃ i, FirstUnset env n i ∧
        ofScriptInputs env project target = .failed (.missingInput (inputName i)) := by
  refine ⟨ofScriptInputs_eq_outOfMemory_iff, fun n htarget hn hroom hfewer => ?_⟩
  obtain ⟨i, hi⟩ := length_inputs_lt_iff.1 hfewer
  exact ⟨i, hi, ofScriptInputs_of_firstUnset project htarget hn hroom hi⟩

section
open Sample

theorem script_inputs_answer_most :
    ofScriptInputs (fourInputs "384307168202282325") ⟨"/App.xcodeproj"⟩ "App" =
      .failed (.missingInput "SCRIPT_INPUT_FILE_4") ∧
    ofScriptInputs (fourInputs "384307168202282326") ⟨"/App.xcodeproj"⟩ "App" = .outOfMemory := by
  obtain ⟨-, hmost⟩ := script_inputs_answer (fourInputs "384307168202282325") ⟨"/App.xcodeproj"⟩ "App"
  obtain ⟨hmore, -⟩ := script_inputs_answer (fourInputs "384307168202282326") ⟨"/App.xcodeproj"⟩ "App"
  have hfourth : FirstUnset (fourInputs "384307168202282325") 384307168202282325 4 := ⟨by decide, rfl, by decide⟩
  obtain ⟨i, hi, hanswer⟩ := hmost 384307168202282325 rfl rfl (by decide) (length_inputs_lt_iff.2 ⟨4, hfourth⟩)
  rw [← hfourth.unique hi] at hanswer
  exact ⟨hanswer, hmore.2 ⟨rfl, 384307168202282326, rfl, by decide⟩⟩

/-- **A number of script inputs can be too large for an answer.**  The fifth of them is missing and could be reported,
but no room can be made for so many. -/
theorem no_room_for_announced :
    (fourInputs "18446744073709551615").get? "TARGETNAME" = some "App" ∧
    announced? (fourInputs "18446744073709551615") = some 18446744073709551615 ∧
    FirstUnset (fourInputs "18446744073709551615") 18446744073709551615 4 ∧
    ofScriptInputs (fourInputs "18446744073709551615") ⟨"/App.xcodeproj"⟩ "App" = .outOfMemory := by
  refine ⟨rfl, rfl, ⟨by decide, rfl, by decide⟩, ?_⟩
  exact ofScriptInputs_eq_outOfMemory_iff.2 ⟨rfl, 18446744073709551615, rfl, by decide⟩

end
end Recheck
