import Recheck.Proofs.Cache.OptionChanges
import Recheck.Proofs.Preparation.Stages
/-!
# Sequences of changes

A configuration is changed by one call after the other, in any number and order.  What it comes to can be read off the
calls: an option that is set has the value set last (`applyAll_set`), and what is added stands in the order in which it
was added (`applyAll_added`).  So the command line is the fixed layout filled in from the calls
(`commandLine_applyAll`), and calls that concern different options may change places.
-/
namespace Recheck

/-! ## What a change sets and what it adds -/

namespace Change

def sysroot? : Change → Option (Option Path)
  | sysroot path => some path
  | _            => none

def arc? : Change → Option Bool
  | arc on => some on
  | _      => none

def modules? : Change → Option Bool
  | modules on => some on
  | _          => none

def assertionsBlocked? : Change → Option Bool
  | assertionsBlocked on => some on
  | _                    => none

def debug? : Change → Option Bool
  | debug on => some on
  | _        => none

def arch? : Change → Option (Option String)
  | arch name => some name
  | _         => none

def filters : Change → List String
  | addFilter name => [name]
  | _              => []

def headers : Change → List HeaderSearch
  | addHeader kind path => [⟨kind, path⟩]
  | _                   => []

/-- The tokens that a change adds at the end of the command line; a group stays together. -/
def tokens : Change → List String
  | addFlag flag   => [flag]
  | addGroup flags => flags
  | _              => []

end Change

/-- The value that the last of the changes to set it has set, or the one there was before. -/
def lastSet {α : Type} (set? : Change → Option α) (before : α) (changes : List Change) : α :=
  (changes.filterMap set?).getLast?.getD before

theorem lastSet_cons {α : Type} (set? : Change → Option α) (before : α) (x : Change) (changes : List Change) :
    lastSet set? before (x :: changes) = lastSet set? ((set? x).getD before) changes := by
  rw [lastSet, lastSet]
  cases h : set? x with
  | none => rw [List.filterMap_cons_none h, Option.getD_none]
  | some value => rw [List.filterMap_cons_some h, List.getLast?_cons, Option.getD_some, Option.getD_some]

/-- The layout of a command line: what stands in it for given options, and in which order. -/
def layout (analyzer resourceDir : Path) (sysroot : Option Path) (arc modules assertionsBlocked debug : Bool)
    (filters : List String) (headers : List HeaderSearch) (arch : Option String) (otherTokens : List String)
    (files : List Path) : List String :=
  [analyzer.text] ++ files.map Path.text ++ ["--", "-resource-dir", resourceDir.text, "-x", "objective-c"] ++
  (sysroot.elim [] fun path => ["-isysroot", path.text]) ++
  [if arc then "-fobjc-arc" else "-fno-objc-arc"] ++
  [if modules then "-fmodules" else "-fno-modules"] ++
  (if assertionsBlocked then ["-DNS_BLOCK_ASSERTIONS=1"] else []) ++
  (if debug then ["-debug"] else []) ++
  (filters.flatMap fun name => ["-filter", name]) ++
  (headers.flatMap fun h => [h.kind.flag, h.path.text]) ++
  (arch.elim [] fun name => ["-arch", name]) ++
  otherTokens

/-- The layout filled in from a sequence of changes to the default options. -/
def lineFor (analyzer resourceDir : Path) (changes : List Change) (files : List Path) : List String :=
  layout analyzer resourceDir (lastSet Change.sysroot? none changes) (lastSet Change.arc? true changes)
    (lastSet Change.modules? true changes) (lastSet Change.assertionsBlocked? true changes)
    (lastSet Change.debug? false changes) (changes.flatMap Change.filters) (changes.flatMap Change.headers)
    (lastSet Change.arch? none changes) (changes.flatMap Change.tokens) files

/-- Two sequences of changes set every option to the same value at last, and add the same in the same order to each of
the three lists, however the calls for different options are mixed. -/
structure SameSettings (changes changes' : List Change) : Prop where
  sysroot : lastSet Change.sysroot? none changes = lastSet Change.sysroot? none changes'
  arc : lastSet Change.arc? true changes = lastSet Change.arc? true changes'
  modules : lastSet Change.modules? true changes = lastSet Change.modules? true changes'
  assertionsBlocked :
    lastSet Change.assertionsBlocked? true changes = lastSet Change.assertionsBlocked? true changes'
  debug : lastSet Change.debug? false changes = lastSet Change.debug? false changes'
  arch : lastSet Change.arch? none changes = lastSet Change.arch? none changes'
  filters : changes.flatMap Change.filters = changes'.flatMap Change.filters
  headers : changes.flatMap Change.headers = changes'.flatMap Change.headers
  tokens : changes.flatMap Change.tokens = changes'.flatMap Change.tokens

theorem SameSettings.lineFor_eq {changes changes' : List Change} (h : SameSettings changes changes')
    (analyzer resourceDir : Path) (files : List Path) :
    lineFor analyzer resourceDir changes files = lineFor analyzer resourceDir changes' files := by
  rw [lineFor, h.sysroot, h.arc, h.modules, h.assertionsBlocked, h.debug, h.filters, h.headers, h.arch, h.tokens,
    ← lineFor]

namespace Configuration

/-! ## Runs of changes

A step lemma for each option says what one change does to it; these two carry it to whole sequences. -/

/-- **An option has the value set last**, if a change sets it or leaves it. -/
theorem applyAll_set {α : Type} {option : Configuration → α} {set? : Change → Option α}
    (hstep : ∀ c x, option (c.apply x) = (set? x).getD (option c)) :
    ∀ (changes : List Change) (c : Configuration), option (c.applyAll changes) = lastSet set? (option c) changes
  | [], _ => rfl
  | x :: changes, c => by
    have ih := applyAll_set hstep changes (c.apply x)
    rw [lastSet_cons, ← hstep]
    exact ih

/-- **What is added stands in the order of the changes**, if a change adds at the end or leaves what there is. -/
theorem applyAll_added {β : Type} {list : Configuration → List β} {added : Change → List β}
    (hstep : ∀ c x, list (c.apply x) = list c ++ added x) :
    ∀ (changes : List Change) (c : Configuration), list (c.applyAll changes) = list c ++ changes.flatMap added
  | [], c => (List.append_nil (list c)).symm
  | x :: changes, c => by
    have ih := applyAll_added hstep changes (c.apply x)
    rw [hstep, List.append_assoc] at ih
    rw [List.flatMap_cons]
    exact ih

theorem tools_applyAll : ∀ (changes : List Change) (c : Configuration),
    (c.applyAll changes).analyzer = c.analyzer ∧ (c.applyAll changes).resourceDir = c.resourceDir
  | [], _ => ⟨rfl, rfl⟩
  | x :: changes, c => by
    have hx : (c.apply x).analyzer = c.analyzer ∧ (c.apply x).resourceDir = c.resourceDir := by
      cases x <;> exact ⟨rfl, rfl⟩
    have ih := tools_applyAll changes (c.apply x)
    exact ⟨ih.1.trans hx.1, ih.2.trans hx.2⟩

section
variable (c : Configuration)

theorem sysroot_apply (x : Change) : (c.apply x).sysroot = x.sysroot?.getD c.sysroot := by cases x <;> rfl

theorem arc_apply (x : Change) : (c.apply x).arc = x.arc?.getD c.arc := by cases x <;> rfl

theorem modules_apply (x : Change) : (c.apply x).modules = x.modules?.getD c.modules := by cases x <;> rfl

theorem assertionsBlocked_apply (x : Change) :
    (c.apply x).assertionsBlocked = x.assertionsBlocked?.getD c.assertionsBlocked := by cases x <;> rfl

theorem debug_apply (x : Change) : (c.apply x).debug = x.debug?.getD c.debug := by cases x <;> rfl

theorem arch_apply (x : Change) : (c.apply x).arch = x.arch?.getD c.arch := by cases x <;> rfl

theorem filters_apply (x : Change) : (c.apply x).filters = c.filters ++ x.filters := by
  cases x with
  | addFilter name => rfl
  | _ => exact (List.append_nil c.filters).symm

theorem headers_apply (x : Change) : (c.apply x).headers = c.headers ++ x.headers := by
  cases x with
  | addHeader kind path => rfl
  | _ => exact (List.append_nil c.headers).symm

/-- Flags added show as the tokens they were given as, in groups of whatever size. -/
theorem otherFlags_apply (x : Change) : flatten (c.apply x).otherFlags = flatten c.otherFlags ++ x.tokens := by
  cases x with
  | addFlag flag => exact List.flatMap_append
  | addGroup flags => exact List.flatMap_append.trans (congrArg _ (flatten_groupArgs flags))
  | _ => exact (List.append_nil (flatten c.otherFlags)).symm

end

theorem make_eq_ok_iff {fs : FileSystem} {analyzer resourceDir : Path} {c : Configuration} :
    make fs analyzer resourceDir = .ok c ↔
      ∃ a r, fs.canonical analyzer = .ok a ∧ fs.canonical resourceDir = .ok r ∧ c = ofTools a r := by
  rw [make, resolve, resolve]
  cases fs.canonical analyzer with
  | error e => simp
  | ok a =>
    cases fs.canonical resourceDir with
    | error e => simp
    | ok r => simp [eq_comm]

theorem flatten_pairs {α : Type} (flag value : α → String) (l : List α) :
    flatten (l.map fun a => pair (flag a) (value a)) = l.flatMap fun a => [flag a, value a] := by
  rw [flatten, List.flatMap_map]
  rfl

theorem flatten_switch (on : Bool) (flag : String) : flatten (switch on flag) = if on then [flag] else [] := by
  cases on <;> rfl

/-- The places of the options, each with its tokens, make up the layout. -/
theorem commandLine_eq_layout (c : Configuration) (files : List Path) :
    c.commandLine files = layout c.analyzer c.resourceDir c.sysroot c.arc c.modules c.assertionsBlocked c.debug
      c.filters c.headers c.arch (flatten c.otherFlags) files := by
  have hsysroot : flatten (c.args .sysroot) = c.sysroot.elim [] fun path => ["-isysroot", path.text] := by
    rw [args]
    cases c.sysroot <;> rfl
  have harch : flatten (c.args .arch) = c.arch.elim [] fun name => ["-arch", name] := by
    rw [args]
    cases c.arch <;> rfl
  have hfilters : flatten (c.args .filters) = c.filters.flatMap fun name => ["-filter", name] :=
    flatten_pairs _ _ c.filters
  have hheaders : flatten (c.args .headers) = c.headers.flatMap fun h => [h.kind.flag, h.path.text] :=
    flatten_pairs _ _ c.headers
  have hassertions : flatten (c.args .assertionsBlocked) = _ := flatten_switch c.assertionsBlocked _
  have hdebug : flatten (c.args .debug) = _ := flatten_switch c.debug _
  have htools : flatten (c.args .tools) = ["-resource-dir", c.resourceDir.text, "-x", "objective-c"] := rfl
  have harc : flatten (c.args .arc) = [if c.arc then "-fobjc-arc" else "-fno-objc-arc"] := rfl
  have hmodules : flatten (c.args .modules) = [if c.modules then "-fmodules" else "-fno-modules"] := rfl
  have hflags : flatten (c.args .otherFlags) = flatten c.otherFlags := rfl
  rw [commandLine_eq, flatten_options, Slot.all, layout]
  simp only [List.flatMap_cons, List.flatMap_nil, htools, hsysroot, harc, hmodules, hassertions, hdebug, hfilters,
    hheaders, harch, hflags, List.append_assoc, List.cons_append, List.nil_append, List.append_nil]

/-- **The command line is the layout filled in from the changes**, from the default options on. -/
theorem commandLine_applyAll (analyzer resourceDir : Path) (changes : List Change) (files : List Path) :
    ((ofTools analyzer resourceDir).applyAll changes).commandLine files =
      lineFor analyzer resourceDir changes files := by
  have hflags : flatten ((ofTools analyzer resourceDir).applyAll changes).otherFlags =
      flatten (ofTools analyzer resourceDir).otherFlags ++ changes.flatMap Change.tokens :=
    @applyAll_added _ (fun c => flatten c.otherFlags) Change.tokens otherFlags_apply changes _
  rw [commandLine_eq_layout, (tools_applyAll _ _).1, (tools_applyAll _ _).2, applyAll_set sysroot_apply,
    applyAll_set arc_apply, applyAll_set modules_apply, applyAll_set assertionsBlocked_apply,
    applyAll_set debug_apply, applyAll_added filters_apply, applyAll_added headers_apply, applyAll_set arch_apply,
    hflags]
  rfl

end Configuration

/-- **What a sequence of calls comes to.**  From a new configuration on, whatever is called how often and in which
order, the command line for any files is the fixed layout with the value set last for every option and with all that
was added, in the order in which it was added.  So calls that agree in these have the same command lines and
fingerprints, however they are mixed. -/
theorem command_line_of_changes {fs : FileSystem} {analyzer resourceDir : Path} {c : Configuration}
    (h : Configuration.make fs analyzer resourceDir = .ok c) :
    fs.canonical analyzer = .ok c.analyzer ∧ fs.canonical resourceDir = .ok c.resourceDir ∧
    (∀ changes files, (c.applyAll changes).commandLine files = lineFor c.analyzer c.resourceDir changes files) ∧
    ∀ changes changes', SameSettings changes changes' →
      (∀ files, (c.applyAll changes).commandLine files = (c.applyAll changes').commandLine files) ∧
      (c.applyAll changes).fingerprint = (c.applyAll changes').fingerprint := by
  obtain ⟨a, r, ha, hr, rfl⟩ := Configuration.make_eq_ok_iff.1 h
  have hline := Configuration.commandLine_applyAll a r
  refine ⟨ha, hr, hline, fun changes changes' hsame => ?_⟩
  have hlines : ∀ files, ((Configuration.ofTools a r).applyAll changes).commandLine files =
      ((Configuration.ofTools a r).applyAll changes').commandLine files := by
    intro files
    rw [hline, hline, hsame.lineFor_eq]
  exact ⟨hlines, (Configuration.fingerprint_eq_iff _ _).2 (hlines [])⟩

section
open Sample

/-- Two ways to say the same: the calls are mixed differently, some values are set more than once, and the flags are
grouped differently. -/
theorem command_line_of_changes_mixed :
    let changes := [Change.addGroup ["-Wall"], .debug true, .arch none, .addFilter "A", .addGroup [],
      .addGroup ["-include", "App.pch"], .arch (some "arm64"), .addFilter "B", .debug false]
    let changes' := [Change.addFilter "A", .arch (some "arm64"), .addFilter "B", .addFlag "-Wall",
      .addFlag "-include", .addFlag "App.pch"]
    let c := Configuration.ofTools ⟨"/clang"⟩ ⟨"/res"⟩
    Configuration.make bench ⟨"/clang"⟩ ⟨"/res"⟩ = .ok c ∧ SameSettings changes changes' ∧
      (c.applyAll changes).commandLine [source] = ["/clang", "b.m", "--", "-resource-dir", "/res", "-x", "objective-c",
        "-fobjc-arc", "-fmodules", "-DNS_BLOCK_ASSERTIONS=1", "-filter", "A", "-filter", "B", "-arch", "arm64",
        "-Wall", "-include", "App.pch"] ∧
      (c.applyAll changes).fingerprint = (c.applyAll changes').fingerprint := by
  intro changes changes' c
  have hsame : SameSettings changes changes' := by
    constructor <;> rfl
  obtain ⟨-, -, hline, hagree⟩ := command_line_of_changes make_bench
  exact ⟨make_bench, hsame, hline changes [source], (hagree changes changes' hsame).2⟩

end
end Recheck
