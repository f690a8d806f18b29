import Recheck.Proofs.Cache.Fingerprint
import Recheck.Proofs.Dispatch.Runs
/-!
# Histories of an objects directory

Runs on one objects directory, and what happens between them (`History`).  As long as nobody else writes results, every
result file holds the answer of the latest analysis whose result belongs there, and the record holds the fingerprint of
the latest run (`Kept`).  That is what a record step (`Kept.recordStep`) and every job (`Kept.job`) preserve.
-/
namespace Recheck
open FileSystem CacheLayout

/-- One run of a history: what it was given, and the files it found. -/
structure PastRun where
  configuration : Configuration
  layout : CacheLayout
  analyzer : Analyzer
  options : DispatchOptions
  sources : List Path
  sink : Sink
  before : FileSystem

namespace PastRun

def report (r : PastRun) : RunReport :=
  Dispatch.run r.configuration r.layout r.analyzer r.options r.sources r.sink r.before

def recordStep (r : PastRun) : Except IoError Bool × FileSystem :=
  Record.update r.before r.layout.recordPath r.configuration

/-- The run got past its record step. -/
def passed (r : PastRun) : Bool := r.recordStep.1.toBool

def Forced (r : PastRun) : Prop := r.recordStep.1 = .ok true

def job (r : PastRun) (force : Bool) : Job := Dispatch.job r.configuration r.layout r.analyzer r.options force

def handled (r : PastRun) : List Handled :=
  match r.recordStep with
  | (.error _, _)   => []
  | (.ok force, fs) =>
    if Dispatch.queueTooLarge (Dispatch.workers r.options) then []
    else Dispatch.started (r.job force) (Dispatch.workers r.options) r.sources fs

end PastRun

/-- The files after the runs of a history, the latest run first, with steps of other kinds between them. -/
inductive History (objects : Path) (between : FileSystem → FileSystem → Prop) (fs₀ : FileSystem) :
    List PastRun → FileSystem → Prop
  | start : History objects between fs₀ [] fs₀
  | between {runs fs fs'} :
      History objects between fs₀ runs fs → between fs fs' → History objects between fs₀ runs fs'
  | run {runs r} :
      History objects between fs₀ runs r.before → r.layout.objectsDir = objects →
      History objects between fs₀ (r :: runs) r.report.fs

def jobLog (runs : List PastRun) : List Handled := runs.flatMap fun r => r.handled.reverse

/-- The configuration of the latest run that got past its record step. -/
def lastFingerprint (runs : List PastRun) : Option String :=
  (runs.find? PastRun.passed).map fun r => r.configuration.fingerprint

/-- The latest analysis whose result belongs at a path. -/
def latestAnalysis (result : Path) (log : List Handled) : Option Handled :=
  log.find? fun y => y.isStale && y.path == result

/-! ## Runs -/

namespace PastRun

theorem report_fs (r : PastRun) : r.report.fs =
    match r.recordStep with
    | (.error _, fs)  => fs
    | (.ok force, fs) =>
      if Dispatch.queueTooLarge (Dispatch.workers r.options) then fs
      else (Dispatch.work (r.job force) (Dispatch.workers r.options) r.sources fs).fs := by
  rw [report, recordStep]
  cases hu : Record.update r.before r.layout.recordPath r.configuration with
  | mk outcome fs =>
    cases outcome with
    | error e => rw [Dispatch.run_of_error hu]
    | ok force =>
      cases hq : Dispatch.queueTooLarge (Dispatch.workers r.options) with
      | true => rw [Dispatch.run_of_queueTooLarge hu hq]; rfl
      | false => rw [Dispatch.run_of_ok hu hq]; rfl

theorem of_mem_handled {r : PastRun} {x : Handled} (h : x ∈ r.handled) :
    ∃ force, r.recordStep.1 = .ok force ∧ x.job = r.job force ∧ x.source ∈ r.sources := by
  rw [handled] at h
  split at h
  · cases h
  · rename_i force fs hs
    split at h
    · cases h
    · exact ⟨force, by rw [hs], Dispatch.job_of_mem_started h, Dispatch.source_of_mem_started h⟩

theorem fingerprint_of_mem_handled {r : PastRun} {x : Handled} (h : x ∈ r.handled) :
    x.fingerprint = r.configuration.fingerprint := by
  obtain ⟨force, -, hj, -⟩ := of_mem_handled h
  rw [Handled.fingerprint, hj]
  rfl

theorem path_of_mem_handled {r : PastRun} {x : Handled} (h : x ∈ r.handled) : x.path = r.layout.resultPath x.source := by
  obtain ⟨force, -, hj, -⟩ := of_mem_handled h
  rw [Handled.path, hj]
  rfl

/-- A forced run takes no result for fresh. -/
theorem isStale_of_forced {r : PastRun} {x : Handled} (hf : r.Forced) (h : x ∈ r.handled) : x.isStale = true := by
  obtain ⟨force, hs, hj, -⟩ := of_mem_handled h
  rw [Forced, hs] at hf
  cases hf
  rw [Handled.isStale, hj]
  rfl

end PastRun

theorem mem_jobLog {runs : List PastRun} {x : Handled} (h : x ∈ jobLog runs) : ∃ r ∈ runs, x ∈ r.handled := by
  obtain ⟨r, hr, hx⟩ := List.mem_flatMap.1 h
  exact ⟨r, hr, List.mem_reverse.1 hx⟩

theorem latestAnalysis_some {result : Path} {log : List Handled} {y : Handled}
    (h : latestAnalysis result log = some y) : y ∈ log ∧ y.isStale = true ∧ y.path = result := by
  have hp := List.find?_some h
  rw [Bool.and_eq_true, beq_iff_eq] at hp
  exact ⟨List.mem_of_find?_eq_some h, hp.1, hp.2⟩

section
variable {result : Path} {x : Handled} {log : List Handled}

theorem latestAnalysis_cons (hs : x.isStale = true) : latestAnalysis x.path (x :: log) = some x := by
  rw [latestAnalysis, List.find?_cons_of_pos]
  simp [hs]

theorem latestAnalysis_cons_of_fresh (hs : x.isStale = false) :
    latestAnalysis result (x :: log) = latestAnalysis result log := by
  rw [latestAnalysis, List.find?_cons_of_neg]
  · rfl
  · simp [hs]

theorem latestAnalysis_cons_of_ne (hp : x.path ≠ result) :
    latestAnalysis result (x :: log) = latestAnalysis result log := by
  rw [latestAnalysis, List.find?_cons_of_neg]
  · rfl
  · simp [hp]

end

theorem latestAnalysis_append (result : Path) (newer older : List Handled) :
    latestAnalysis result (newer ++ older) = (latestAnalysis result newer).or (latestAnalysis result older) := by
  rw [latestAnalysis, List.find?_append]
  rfl

/-! ## What leaves the cache alone -/

namespace FileSystem

/-- There are more directories and other files, perhaps, but no directory or link less, and no link more. -/
structure Extends (fs fs' : FileSystem) : Prop extends KeepsWays fs fs' where
  noLink : ∀ a target, fs'.node? a = some (.link target) → fs.node? a = some (.link target)

theorem Extends.refl (fs : FileSystem) : Extends fs fs := ⟨.refl fs, fun _ _ h => h⟩

theorem Extends.trans {fs fs' fs'' : FileSystem} (h : Extends fs fs') (h' : Extends fs' fs'') : Extends fs fs'' :=
  ⟨h.toKeepsWays.trans h'.toKeepsWays, fun a t ha => h.noLink a t (h'.noLink a t ha)⟩

/-- However missing directories come to be made, the path leads to no directory with a file or a link of that name. -/
def Lacks (fs : FileSystem) (p : Path) (name : Name) : Prop :=
  ∀ fs' d, Extends fs fs' → DirectoryAt fs' p d →
    fs.node? (d ++ [name]) = none ∨ fs.node? (d ++ [name]) = some .directory

/-- However missing directories come to be made, there is no link in the directory that the path leads to. -/
def Linkless (fs : FileSystem) (p : Path) : Prop :=
  ∀ fs' d name, Extends fs fs' → DirectoryAt fs' p d → fs.Unlinked (d ++ [name])

/-- The name of a record or a result. -/
def IsCacheName (name : Name) : Prop := name = recordName ∨ ∃ key source, name = resultName key source

/-- Nothing happens to the entries of the cache, unless directories are made, and no way is lost. -/
structure LeavesCache (fs fs' : FileSystem) : Prop extends Extends fs fs' where
  entry : ∀ a name, IsCacheName name → fs'.node? (a ++ [name]) = fs.node? (a ++ [name]) ∨
    (fs.node? (a ++ [name]) = none ∧ fs'.node? (a ++ [name]) = some .directory)

theorem Grows.leavesCache {fs fs' : FileSystem} (h : Grows fs fs') : LeavesCache fs fs' := by
  refine ⟨⟨h.keepsWays, fun a target ha => ?_⟩, fun a name _ => h.node _⟩
  rcases h.node a with hs | ⟨-, hd⟩
  · rw [← hs, ha]
  · rw [hd] at ha; cases ha

/-- Object files are made, touched or removed, and directories made. -/
structure BuildStep (fs fs' : FileSystem) : Prop where
  workDir : fs'.workDir = fs.workDir
  node : ∀ a, fs'.node? a = fs.node? a ∨ (fs.node? a = none ∧ fs'.node? a = some .directory) ∨
    ((∃ b source, a = b ++ [objectName source]) ∧ fs.Storable a ∧ fs'.Storable a)

theorem IsCacheName.ne_objectName {name : Name} (h : IsCacheName name) (source : Path) : name ≠ objectName source := by
  rcases h with rfl | ⟨key, s, rfl⟩
  · exact (objectName_ne_recordName source).symm
  · exact resultName_ne_objectName key s source

theorem BuildStep.leavesCache {fs fs' : FileSystem} (h : BuildStep fs fs') : LeavesCache fs fs' := by
  refine ⟨⟨⟨h.workDir, fun a ha => ?_, fun a target ha => ?_⟩, fun a target ha => ?_⟩, fun a name hn => ?_⟩
  · rcases h.node a with hs | ⟨-, hd⟩ | ⟨-, hs, -⟩
    · rw [hs, ha]
    · exact hd
    · rcases hs with hs | ⟨_, _, _, hs⟩ <;> rw [hs] at ha <;> cases ha
  · rcases h.node a with hs | ⟨hs, -⟩ | ⟨-, hs, -⟩
    · rw [hs, ha]
    · rw [hs] at ha; cases ha
    · exact absurd ha (hs.unlinked target)
  · rcases h.node a with hs | ⟨-, hd⟩ | ⟨-, -, hs⟩
    · rw [← hs, ha]
    · rw [hd] at ha; cases ha
    · exact absurd ha (hs.unlinked target)
  · rcases h.node (a ++ [name]) with hs | hs | ⟨⟨b, source, hb⟩, -⟩
    · exact .inl hs
    · exact .inr hs
    · have hname : name = objectName source := by simpa using (List.append_inj' hb rfl).2
      exact absurd hname (hn.ne_objectName source)

section
variable {fs fs' : FileSystem} {p : Path} {name : Name} {d : Address}

theorem Lacks.of_leavesCache (h : fs.Lacks p name) (hs : LeavesCache fs fs') (hn : IsCacheName name) :
    fs'.Lacks p name := by
  intro fs'' d hx hd
  rcases hs.entry d name hn with he | ⟨-, he⟩
  · rw [he]; exact h fs'' d (hs.toExtends.trans hx) hd
  · exact .inr he

theorem lacks_of_directoryAt (hd : DirectoryAt fs p d) (hn : fs.node? (d ++ [name]) = none) : fs.Lacks p name := by
  intro fs' d' hx hd'
  rw [← (hd.of_keepsWays hx.toKeepsWays).unique hd']
  exact .inl hn

theorem LeavesCache.unlinked (hs : LeavesCache fs fs') {a : Address} (hl : fs.Unlinked a) : fs'.Unlinked a :=
  fun target ht => hl target (hs.noLink a target ht)

theorem LeavesCache.file_iff (hs : LeavesCache fs fs') (hn : IsCacheName name) (a : Address) (content : ByteArray)
    (modified : Timestamp) (executable : Bool) :
    fs'.node? (a ++ [name]) = some (.file content modified executable) ↔
      fs.node? (a ++ [name]) = some (.file content modified executable) := by
  rcases hs.entry a name hn with he | ⟨he, he'⟩
  · rw [he]
  · rw [he, he']; simp

end
end FileSystem

/-! ## What is kept -/

/-- The state of an objects directory after some jobs: the record is the fingerprint `last`, and every result file holds
the answer of the latest analysis whose result belongs there. -/
structure Kept (objects : Path) (log : List Handled) (last : String) (d : Address) (fs : FileSystem) : Prop where
  directory : DirectoryAt fs objects d
  fits : Fits objects recordName
  unlinked : ∀ name, IsCacheName name → fs.Unlinked (d ++ [name])
  record : ∃ modified executable, fs.node? (d ++ [recordName]) = some (.file (Utf8.encode last) modified executable)
  result : ∀ key source content modified executable, Fits objects (resultName key source) →
    fs.node? (d ++ [resultName key source]) = some (.file content modified executable) →
    ∃ y o, latestAnalysis (objects.join ⟨resultName key source⟩) log = some y ∧
      (y.job.call y.source y.fs).1 = .finished o ∧ content = Utf8.encode o.text

namespace Kept
variable {objects : Path} {log : List Handled} {last : String} {d : Address} {fs fs' : FileSystem}

theorem leavesCache (h : Kept objects log last d fs) (hs : LeavesCache fs fs') : Kept objects log last d fs' where
  directory := h.directory.of_keepsWays hs.toKeepsWays
  fits := h.fits
  unlinked name hn := hs.unlinked (h.unlinked name hn)
  record := by
    obtain ⟨modified, executable, hr⟩ := h.record
    exact ⟨modified, executable, (hs.file_iff (.inl rfl) d _ _ _).2 hr⟩
  result key source content modified executable hf hn :=
    h.result key source content modified executable hf ((hs.file_iff (.inr ⟨key, source, rfl⟩) d _ _ _).1 hn)

/-- The record step of a run replaces the record, and says whether it was another. -/
theorem recordStep (h : Kept objects log last d fs) {l : CacheLayout} (ho : l.objectsDir = objects)
    (c : Configuration) :
    ∃ S, Record.update fs l.recordPath c = (.ok (last != c.fingerprint), S) ∧
      Kept objects log c.fingerprint d S := by
  subst ho
  obtain ⟨modified, executable, hr⟩ := h.record
  have hst : fs.Storable (d ++ [recordName]) := .inr ⟨_, _, _, hr⟩
  have hk := hst.keepsWays (Utf8.encode c.fingerprint) executable
  have hne : ∀ key source, d ++ [resultName key source] ≠ d ++ [recordName] := by
    intro key source he
    exact resultName_ne_recordName key source (by simpa using he)
  refine ⟨_, Record.update_of_file h.directory h.fits hr (Utf8.decode?_encode last), ?_⟩
  refine ⟨h.directory.of_keepsWays hk, h.fits, fun name hn => ?_, ⟨_, _, node?_store_self _ _ _ hst.ne_nil⟩, ?_⟩
  · rcases hn with rfl | ⟨key, source, rfl⟩
    · intro target ht
      rw [node?_store_self _ _ _ hst.ne_nil] at ht
      cases ht
    · intro target ht
      rw [node?_store_of_ne _ _ _ (hne key source)] at ht
      exact h.unlinked _ (.inr ⟨key, source, rfl⟩) target ht
  · intro key source content modified executable hf hn
    rw [node?_store_of_ne _ _ _ (hne key source)] at hn
    exact h.result key source content modified executable hf hn

/-- **A job whose answer may be kept leaves its result file with the latest answer**, and the others as they were. -/
theorem job (h : Kept objects log last d fs) {j : Job} (ho : j.layout.objectsDir = objects)
    (hs : j.analyzer.Spares objects) (hp : j.failurePolicy = .cacheAlways) {source : Path}
    (ha : ∃ o, (j.call source fs).1 = .finished o ∧ o.timedOut = false) :
    Kept objects (⟨j, source, fs⟩ :: log) last d (j.process source fs).fs := by
  subst ho
  have hname : IsCacheName (j.entry source) := .inr ⟨_, _, rfl⟩
  have hl := h.unlinked _ hname
  obtain ⟨hd, hsame, hresult⟩ := Job.process_frame hs h.directory hl
  refine ⟨hd, h.fits, fun name hn => ?_, ?_, ?_⟩
  · by_cases hne : name = j.entry source
    · subst hne
      exact Job.process_unlinked hs h.directory hl
    · intro target ht
      rw [hsame name hne] at ht
      exact h.unlinked name hn target ht
  · obtain ⟨modified, executable, hr⟩ := h.record
    exact ⟨modified, executable, by rw [hsame _ (resultName_ne_recordName _ _).symm, hr]⟩
  · have hpath : j.layout.objectsDir.join ⟨j.entry source⟩ = Handled.path ⟨j, source, fs⟩ := rfl
    intro key source' content modified executable hf hn
    by_cases hne : resultName key source' = j.entry source
    · rw [hne] at hf hn ⊢
      cases hst : j.layout.isStale fs source j.force with
      | true =>
        obtain ⟨o, ho, ht⟩ := ha
        have haccepts : Job.accepts j.failurePolicy o = true := by rw [hp, Job.accepts, ht]; rfl
        rw [hpath]
        exact ⟨⟨j, source, fs⟩, o, latestAnalysis_cons hst, ho,
          Job.process_result hs h.directory hl hf hst ho haccepts hn⟩
      | false =>
        obtain ⟨-, _, _, _, -, hfresh⟩ := Job.process_of_fresh h.directory hl hst
        rw [hfresh] at hn
        rw [latestAnalysis_cons_of_fresh (x := ⟨j, source, fs⟩) hst]
        exact h.result _ _ content modified executable hf hn
    · rw [hsame _ hne] at hn
      have hother : Handled.path ⟨j, source, fs⟩ ≠ j.layout.objectsDir.join ⟨resultName key source'⟩ := by
        intro he
        rw [← hpath] at he
        exact hne (join_inj (isName_resultName _ _) (isName_resultName _ _) he).symm
      rw [latestAnalysis_cons_of_ne hother]
      exact h.result key source' content modified executable hf hn

end Kept

end Recheck
