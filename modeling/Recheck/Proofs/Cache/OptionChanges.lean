import Recheck.Proofs.Cache.Fingerprint
import Recheck.Proofs.Cache.Record
import Recheck.Proofs.Dispatch.Jobs
/-!
# Changes of one option

After the `--` a command line has ten places in a fixed order, one for each option (`Slot`, `flatten_options`), and a
change concerns one of them only (`args_apply_of_ne`).  What stands at the other places is the same before and after it,
so the whole differs exactly where that one place does, whatever the texts beside it look like
(`fingerprint_apply_iff`).  There it differs exactly if the option gets another value (`tokens_apply_iff`).
-/
namespace Recheck

/-- The places of the options in a command line. -/
inductive Slot where
  | tools
  | sysroot
  | arc
  | modules
  | assertionsBlocked
  | debug
  | filters
  | headers
  | arch
  | otherFlags
  deriving DecidableEq

/-- The places in their order. -/
def Slot.all : List Slot :=
  [tools, sysroot, arc, modules, assertionsBlocked, debug, filters, headers, arch, otherFlags]

/-- Lists put together over places of which one is other than before are other exactly if that one is. -/
theorem flatMap_eq_iff_of_agree {α β : Type} {f g : α → List β} {a : α} {l : List α} (hl : l.Nodup) (ha : a ∈ l)
    (h : ∀ b, b ≠ a → f b = g b) : l.flatMap f = l.flatMap g ↔ f a = g a := by
  obtain ⟨before, after, rfl⟩ := List.append_of_mem ha
  have hbefore : ∀ b ∈ before, f b = g b := by
    rintro b hb
    exact h b fun he => (List.nodup_append.1 hl).2.2 b hb a List.mem_cons_self he
  have hafter : ∀ b ∈ after, f b = g b := by
    rintro b hb
    exact h b fun he => (List.nodup_cons.1 (List.nodup_append.1 hl).2.1).1 (he ▸ hb)
  have hb : before.flatMap f = before.flatMap g := congrArg List.flatten (List.map_congr_left hbefore)
  have ha : after.flatMap f = after.flatMap g := congrArg List.flatten (List.map_congr_left hafter)
  rw [List.flatMap_append, List.flatMap_append, List.flatMap_cons, List.flatMap_cons, hb, ha,
    List.append_cancel_left_eq, List.append_cancel_right_eq]

/-- The place that a change concerns. -/
def Change.slot : Change → Slot
  | .sysroot _           => .sysroot
  | .arc _               => .arc
  | .modules _           => .modules
  | .assertionsBlocked _ => .assertionsBlocked
  | .debug _             => .debug
  | .arch _              => .arch
  | .addFilter _         => .filters
  | .addHeader _ _       => .headers
  | .addFlag _           => .otherFlags
  | .addGroup _          => .otherFlags

namespace Configuration

/-- The pieces of a configuration at a place. -/
def args (c : Configuration) : Slot → List Arg
  | .tools             => [pair "-resource-dir" c.resourceDir.text, pair "-x" "objective-c"]
  | .sysroot           => (c.sysroot.map fun p => pair "-isysroot" p.text).toList
  | .arc               => [.token (if c.arc then "-fobjc-arc" else "-fno-objc-arc")]
  | .modules           => [.token (if c.modules then "-fmodules" else "-fno-modules")]
  | .assertionsBlocked => switch c.assertionsBlocked "-DNS_BLOCK_ASSERTIONS=1"
  | .debug             => switch c.debug "-debug"
  | .filters           => c.filters.map (pair "-filter")
  | .headers           => c.headers.map fun h => pair h.kind.flag h.path.text
  | .arch              => (c.arch.map (pair "-arch")).toList
  | .otherFlags        => c.otherFlags

/-- A change gives an option of the configuration another value, or adds something. -/
def Alters (c : Configuration) : Change → Prop
  | .sysroot path         => path.map Path.text ≠ c.sysroot.map Path.text
  | .arc on               => on ≠ c.arc
  | .modules on           => on ≠ c.modules
  | .assertionsBlocked on => on ≠ c.assertionsBlocked
  | .debug on             => on ≠ c.debug
  | .arch name            => name ≠ c.arch
  | .addFilter _          => True
  | .addHeader _ _        => True
  | .addFlag _            => True
  | .addGroup flags       => flags ≠ []

section
variable (c : Configuration) (x : Change)

theorem flatten_options : flatten c.options = Slot.all.flatMap fun s => flatten (c.args s) := by
  rw [options, Slot.all]
  simp [flatten, args]

/-! ## One place changed -/

theorem args_apply_of_ne {s : Slot} (h : s ≠ x.slot) : (c.apply x).args s = c.args s := by
  cases x <;> cases s <;> first | rfl | exact absurd rfl h

theorem flatten_groupArgs (flags : List String) : flatten (groupArgs flags) = flags := by
  rcases flags with _ | ⟨first, _ | ⟨second, rest⟩⟩ <;> simp [groupArgs, flatten, Arg.tokens]

/-- What is added shows, unless it is nothing. -/
theorem flatten_append_iff (l l' : List Arg) : flatten (l ++ l') = flatten l ↔ flatten l' = [] := by
  simp [flatten]

theorem flatten_switch_iff (on on' : Bool) (flag : String) :
    flatten (switch on flag) = flatten (switch on' flag) ↔ on = on' := by
  cases on <;> cases on' <;> simp [switch, flatten, Arg.tokens]

theorem flatten_choice_iff (on on' : Bool) {yes no : String} (h : yes ≠ no) :
    flatten [.token (if on then yes else no)] = flatten [.token (if on' then yes else no)] ↔ on = on' := by
  cases on <;> cases on' <;> simp [flatten, Arg.tokens, h, h.symm]

theorem flatten_option_iff (value value' : Option String) (flag : String) :
    flatten (value.map (pair flag)).toList = flatten (value'.map (pair flag)).toList ↔ value = value' := by
  cases value <;> cases value' <;> simp [flatten, pair, Arg.tokens]

/-- **At its place a change is seen exactly if it alters the configuration.** -/
theorem tokens_apply_iff : flatten ((c.apply x).args x.slot) = flatten (c.args x.slot) ↔ ¬c.Alters x := by
  cases x with
  | sysroot path =>
    have hargs : ∀ c : Configuration, c.args .sysroot = ((c.sysroot.map Path.text).map (pair "-isysroot")).toList :=
      fun c => by rw [Option.map_map]; rfl
    rw [Change.slot, hargs, hargs]
    exact (flatten_option_iff _ _ _).trans Classical.not_not.symm
  | arc on => exact (flatten_choice_iff on c.arc (by decide)).trans Classical.not_not.symm
  | modules on => exact (flatten_choice_iff on c.modules (by decide)).trans Classical.not_not.symm
  | assertionsBlocked on => exact (flatten_switch_iff on c.assertionsBlocked _).trans Classical.not_not.symm
  | debug on => exact (flatten_switch_iff on c.debug _).trans Classical.not_not.symm
  | arch name => exact (flatten_option_iff name c.arch _).trans Classical.not_not.symm
  | addFilter name =>
    simp only [apply, Change.slot, args, Alters, List.map_append, flatten_append_iff]
    simp [flatten, pair, Arg.tokens]
  | addHeader kind path =>
    simp only [apply, Change.slot, args, Alters, List.map_append, flatten_append_iff]
    simp [flatten, pair, Arg.tokens]
  | addFlag flag =>
    simp only [apply, Change.slot, args, Alters, flatten_append_iff]
    simp [flatten, Arg.tokens]
  | addGroup flags =>
    simp only [apply, Change.slot, args, Alters, flatten_append_iff, flatten_groupArgs]
    exact Classical.not_not.symm

theorem apply_of_not_alters (h : ¬c.Alters x) : c.apply x = c := by
  cases x with
  | sysroot path =>
    have htext : path.map Path.text = c.sysroot.map Path.text := Classical.not_not.1 h
    have hpath : path = c.sysroot := Option.map_injective (fun p q hpq => congrArg Path.mk hpq) htext
    rw [apply, hpath]
  | arc on => rw [apply, show on = c.arc from Classical.not_not.1 h]
  | modules on => rw [apply, show on = c.modules from Classical.not_not.1 h]
  | assertionsBlocked on => rw [apply, show on = c.assertionsBlocked from Classical.not_not.1 h]
  | debug on => rw [apply, show on = c.debug from Classical.not_not.1 h]
  | arch name => rw [apply, show name = c.arch from Classical.not_not.1 h]
  | addFilter name => exact absurd trivial h
  | addHeader kind path => exact absurd trivial h
  | addFlag flag => exact absurd trivial h
  | addGroup flags =>
    rw [show flags = [] from Classical.not_not.1 h, apply, groupArgs, List.append_nil]

/-- **A change is seen in the fingerprint exactly if it alters the configuration**, whatever stands around it. -/
theorem fingerprint_apply_iff : (c.apply x).fingerprint = c.fingerprint ↔ ¬c.Alters x := by
  have hanalyzer : (c.apply x).analyzer = c.analyzer := by cases x <;> rfl
  have hslot : x.slot ∈ Slot.all := by cases x.slot <;> decide
  have hall : Slot.all.Nodup := by decide
  rw [fingerprint_eq_iff, commandLine_eq, commandLine_eq, hanalyzer, List.cons.injEq, List.append_cancel_left_eq,
    List.cons.injEq, flatten_options, flatten_options, ← tokens_apply_iff]
  simp only [true_and]
  exact flatMap_eq_iff_of_agree hall hslot fun s hs => by rw [args_apply_of_ne c x hs]

end
end Configuration

/-! ## The record left behind -/

namespace Record
open FileSystem CacheLayout

/-- **What a record step has recorded is read back**, if it has replaced a record or no link stood in its place. -/
theorem read_of_update {fs S : FileSystem} {l : CacheLayout} {c : Configuration} {force : Bool}
    (h : update fs l.recordPath c = (.ok force, S))
    (hplace : (∃ content, fs.read l.recordPath = .ok content) ∨
      ∀ fs' d, Grows fs fs' → DirectoryAt fs' l.objectsDir d → fs.Unlinked (d ++ [recordName])) :
    S.read l.recordPath = .ok (Utf8.encode c.fingerprint) := by
  rcases hplace with ⟨content, hread⟩ | hunlinked
  · obtain ⟨_, fs', -, hgrows, hwrite, -⟩ := update_ok h
    exact read_of_write_of_read isName_recordName (hgrows.read hread) hwrite
  · obtain ⟨fs', d, executable, hgrows, hd, hfits, hstorable, rfl⟩ := update_stores h hunlinked
    have hd' := hd.of_keepsWays (hstorable.keepsWays (Utf8.encode c.fingerprint) executable)
    have hunlinked' := hstorable.unlinked.store fs' (a := d ++ [recordName]) (Utf8.encode c.fingerprint) executable
    refine (read_join_iff hd' isName_recordName hunlinked' _).2 ⟨hfits, ?_⟩
    exact content?_eq_some_iff.2 ⟨_, _, node?_store_self fs' _ _ hstorable.ne_nil⟩

/-- The record of a configuration is another one for a changed configuration exactly if the change alters it. -/
theorem update_of_apply {fs : FileSystem} {l : CacheLayout} {c : Configuration}
    (h : fs.read l.recordPath = .ok (Utf8.encode c.fingerprint)) (x : Change) :
    ∃ force S, update fs l.recordPath (c.apply x) = (.ok force, S) ∧ (force = true ↔ c.Alters x) := by
  obtain ⟨S, hS, -⟩ := update_of_text h (c.apply x)
  refine ⟨_, S, hS, ?_⟩
  rw [bne_iff_ne, ne_eq, eq_comm, Configuration.fingerprint_apply_iff, Classical.not_not]

end Record

open FileSystem CacheLayout

/-- **Every change of one option is noticed**, whatever configuration it is made to.  Where it alters the configuration
no command line stays what it was, the fingerprint is another one, and the record step says so that finds the record of
the configuration as it was before; and where it does not, all of these stay. -/
theorem option_change_noticed (c : Configuration) (x : Change) :
    (c.Alters x → (c.apply x).fingerprint ≠ c.fingerprint ∧
      ∀ files, (c.apply x).commandLine files ≠ c.commandLine files) ∧
    (¬c.Alters x → (c.apply x).fingerprint = c.fingerprint ∧
      ∀ files, (c.apply x).commandLine files = c.commandLine files) ∧
    (∀ (fs : FileSystem) (l : CacheLayout), fs.read l.recordPath = .ok (Utf8.encode c.fingerprint) →
      ∃ force S, Record.update fs l.recordPath (c.apply x) = (.ok force, S) ∧ (force = true ↔ c.Alters x)) ∧
    ∀ (fs : FileSystem) (l : CacheLayout) before S, Record.update fs l.recordPath c = (.ok before, S) →
      ((∃ content, fs.read l.recordPath = .ok content) ∨
        ∀ fs' d, Grows fs fs' → DirectoryAt fs' l.objectsDir d → fs.Unlinked (d ++ [recordName])) →
      ∃ force S', Record.update S l.recordPath (c.apply x) = (.ok force, S') ∧ (force = true ↔ c.Alters x) := by
  have hsame := c.fingerprint_apply_iff x
  have hlines : ∀ files, (c.apply x).commandLine files = c.commandLine files ↔ ¬c.Alters x :=
    fun files => (Configuration.commandLine_eq_iff _ _ files).trans hsame
  refine ⟨fun h => ⟨fun he => hsame.1 he h, fun files he => (hlines files).1 he h⟩,
    fun h => ⟨hsame.2 h, fun files => (hlines files).2 h⟩, fun fs l h => Record.update_of_apply h x, ?_⟩
  intro fs l before S hstep hplace
  exact Record.update_of_apply (Record.read_of_update hstep hplace) x

section
open Sample

theorem option_change_noticed_debug :
    debugging.fingerprint ≠ plain.fingerprint ∧
    (plain.apply (.addGroup [])).commandLine [source] = plain.commandLine [source] ∧
    ∃ S S', Record.update files layout.recordPath plain = (.ok true, S) ∧
      Record.update S layout.recordPath debugging = (.ok true, S') := by
  obtain ⟨haltered, -, -, hleft⟩ := option_change_noticed plain (.debug true)
  obtain ⟨-, hsame, -⟩ := option_change_noticed plain (.addGroup [])
  have halters : plain.Alters (.debug true) := fun h => absurd h (by decide)
  have hstep := Record.update_of_absent (l := layout) (c := plain) directoryAt_files fits_record rfl
  rw [bne_iff_ne.2 plain.fingerprint_ne_absent.symm] at hstep
  have hunlinked : ∀ fs' d, Grows files fs' → DirectoryAt fs' layout.objectsDir d →
      files.Unlinked (d ++ [recordName]) := by
    intro fs' d hgrows hd
    rw [← (directoryAt_files.of_keepsWays hgrows.keepsWays).unique hd]
    exact Storable.unlinked (.inl rfl)
  obtain ⟨force, S', hS', hforce⟩ := hleft files layout true _ hstep (.inr hunlinked)
  rw [hforce.2 halters] at hS'
  exact ⟨(haltered halters).1, (hsame (fun h => h rfl)).2 [source], _, S', hstep, hS'⟩

end

end Recheck
