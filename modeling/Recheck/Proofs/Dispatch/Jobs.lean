import Recheck.Dispatch.Job
import Recheck.Proofs.Cache.Names
/-!
# What a job does

A job calls the analyzer exactly when its result is stale (`process_of_stale`, `process_of_fresh`), and of the entries of
the objects directory it changes its own result at most (`process_frame`).  A result that it changes holds the whole
answer of its call (`process_result`).
-/
namespace Recheck
open FileSystem CacheLayout

/-- An analyzer that leaves the entries of a directory alone. -/
def Analyzer.Spares (analyzer : Analyzer) (p : Path) : Prop :=
  ∀ argv fs d, DirectoryAt fs p d → DirectoryAt (analyzer argv fs).2 p d ∧
    ∀ name, (analyzer argv fs).2.node? (d ++ [name]) = fs.node? (d ++ [name])

theorem Analyzer.spares_ofFunction (answer : List String → Attempt) (p : Path) : (ofFunction answer).Spares p :=
  fun _ _ _ hd => ⟨hd, fun _ => rfl⟩

/-- A result is fresh when it and the object file are there, and the object file is not the younger of the two. -/
theorem isStale_eq_false_iff {fs : FileSystem} {object result : Path} {force : Bool} :
    isStale fs object result force = false ↔
      force = false ∧ ∃ o r, fs.modified? object = some o ∧ fs.modified? result = some r ∧ o ≤ r := by
  rw [isStale]
  cases force <;> cases fs.modified? object <;> cases fs.modified? result <;> simp

namespace Job

/-- The name of the entry that a job keeps its result under. -/
def entry (j : Job) (source : Path) : Name := resultName j.layout.key source

theorem isName_entry (j : Job) (source : Path) : IsName (j.entry source) := isName_resultName _ _

/-- What a job's call of the analyzer comes to, and the files afterwards. -/
def call (j : Job) (source : Path) (fs : FileSystem) : Attempt × FileSystem := j.analyzer (j.commandLine source) fs

section
variable {j : Job} {source : Path} {fs : FileSystem}

theorem process_of_stale (h : j.layout.isStale fs source j.force = true) :
    j.process source fs = j.analyze source fs := by
  rw [process, if_pos h]

theorem analyze_calls : (j.analyze source fs).calls = [j.commandLine source] := by
  rw [analyze]
  cases (j.analyzer (j.commandLine source) fs) with
  | mk attempt fs' => cases attempt <;> rfl

theorem analyze_outcome {o : JobOutput} (h : (j.analyze source fs).output = some o) :
    o.source = source ∧ o.outcome ≠ .cached ∧ o.outcome ≠ .skipped := by
  rw [analyze] at h
  cases hc : j.analyzer (j.commandLine source) fs with
  | mk attempt fs' =>
    rw [hc] at h
    cases attempt <;> simp only [Option.some.injEq, reduceCtorEq] at h <;> subst h <;> simp [output]

/-- **A fresh result is a file, and is not made anew**: what is shown is that it is there, or its text. -/
theorem process_of_not_stale (h : j.layout.isStale fs source j.force = false) :
    ∃ a content modified executable,
      fs.stat (j.layout.resultPath source) = .ok (a, .file content modified executable) ∧
      j.process source fs =
        ⟨if j.onlyLatest then some (j.output source .skipped (skippedNotice ++ "\n"))
          else (cachedText? ⟨Utf8.decodeLossy content, modified⟩).map (j.output source .cached), [], fs⟩ := by
  obtain ⟨-, -, t, -, ht, -⟩ := isStale_eq_false_iff.1 h
  obtain ⟨a, content, executable, hs⟩ := modified?_eq_some_iff.1 ht
  refine ⟨a, content, t, executable, hs, ?_⟩
  rw [process, if_neg (by rw [h]; decide)]
  cases j.onlyLatest with
  | true => rfl
  | false =>
    simp only [Bool.false_eq_true, if_false]
    rw [replay, CacheLayout.read, CachedResult.read, hs]

theorem cachedText?_some {r : CachedResult} {text : String} (h : cachedText? r = some text) :
    ∃ date, r.modified.civilText? = some date ∧ text = "Read from cache created at " ++ date ++ "...\n" ++ r.text := by
  obtain ⟨date, hd, rfl⟩ := Option.map_eq_some_iff.1 h
  exact ⟨date, hd, rfl⟩

/-- The block of a source whose result is shown. -/
def cachedBlock (j : Job) (source : Path) (date text : String) : String :=
  j.commandText source ++ ("Read from cache created at " ++ date ++ "...\n" ++ text)

/-- **A block of a source reported as cached** says when the result was written, and then shows what is in it. -/
theorem block_of_cached {o : JobOutput} (ho : (j.process source fs).output = some o) (hc : o.outcome = .cached) :
    (j.process source fs).fs = fs ∧ ∃ content date, fs.read (j.layout.resultPath source) = .ok content ∧
      o.block = j.cachedBlock source date (Utf8.decodeLossy content) := by
  cases hst : j.layout.isStale fs source j.force with
  | true =>
    rw [process_of_stale hst] at ho
    exact absurd hc (analyze_outcome ho).2.1
  | false =>
    obtain ⟨a, content, modified, executable, hs, hp⟩ := process_of_not_stale hst
    refine ⟨by rw [hp], ?_⟩
    rw [hp] at ho
    cases hlatest : j.onlyLatest with
    | true =>
      simp only [hlatest, if_true, Option.some.injEq] at ho
      subst ho
      cases hc
    | false =>
      simp only [hlatest, Bool.false_eq_true, if_false, Option.map_eq_some_iff] at ho
      obtain ⟨text, htext, rfl⟩ := ho
      obtain ⟨date, -, rfl⟩ := cachedText?_some htext
      refine ⟨content, date, ?_, rfl⟩
      rw [FileSystem.read, hs]

variable {d : Address}

theorem read_of_file (hd : DirectoryAt fs j.layout.objectsDir d) (hf : Fits j.layout.objectsDir (j.entry source))
    {content : ByteArray} {modified : Timestamp} {executable : Bool}
    (hn : fs.node? (d ++ [j.entry source]) = some (.file content modified executable)) :
    j.layout.read fs source = .ok (some ⟨Utf8.decodeLossy content, modified⟩) := by
  have hl : fs.Unlinked (d ++ [j.entry source]) := fun t ht => by rw [hn] at ht; cases ht
  rw [CacheLayout.read, CachedResult.read, resultPath, ← entry, stat_join hd (j.isName_entry source) hf hl, hn]

/-- A fresh result is the file in its place in the objects directory. -/
theorem process_of_fresh (hd : DirectoryAt fs j.layout.objectsDir d) (hl : fs.Unlinked (d ++ [j.entry source]))
    (h : j.layout.isStale fs source j.force = false) :
    Fits j.layout.objectsDir (j.entry source) ∧
    ∃ content modified executable, fs.node? (d ++ [j.entry source]) = some (.file content modified executable) ∧
      j.process source fs =
        ⟨if j.onlyLatest then some (j.output source .skipped (skippedNotice ++ "\n"))
          else (cachedText? ⟨Utf8.decodeLossy content, modified⟩).map (j.output source .cached), [], fs⟩ := by
  obtain ⟨a, content, modified, executable, hs, hp⟩ := process_of_not_stale h
  obtain ⟨hf, content', executable', hnode⟩ := (modified?_join hd (j.isName_entry source) hl modified).1
    (modified?_eq_some_iff.2 ⟨a, content, executable, hs⟩)
  rw [resultPath, ← entry, stat_join hd (j.isName_entry source) hf hl, hnode] at hs
  cases hs
  exact ⟨hf, content, modified, executable, hnode, hp⟩

theorem process_outcome (hd : DirectoryAt fs j.layout.objectsDir d) (hl : fs.Unlinked (d ++ [j.entry source]))
    {o : JobOutput} (h : (j.process source fs).output = some o) :
    o.source = source ∧
      ((o.outcome = .cached ∨ o.outcome = .skipped) ↔ j.layout.isStale fs source j.force = false) := by
  cases hs : j.layout.isStale fs source j.force with
  | true =>
    rw [process_of_stale hs] at h
    obtain ⟨ho, hc, hk⟩ := analyze_outcome h
    simp [ho, hc, hk]
  | false =>
    obtain ⟨-, content, modified, executable, -, hp⟩ := process_of_fresh hd hl hs
    rw [hp] at h
    cases hlatest : j.onlyLatest with
    | true =>
      simp only [hlatest, if_true, Option.some.injEq] at h
      subst h
      simp [output]
    | false =>
      simp only [hlatest, Bool.false_eq_true, if_false, Option.map_eq_some_iff] at h
      obtain ⟨_, -, rfl⟩ := h
      simp [output]

theorem process_calls (hd : DirectoryAt fs j.layout.objectsDir d) (hl : fs.Unlinked (d ++ [j.entry source])) :
    (j.process source fs).calls =
      if j.layout.isStale fs source j.force then [j.commandLine source] else [] := by
  cases hs : j.layout.isStale fs source j.force with
  | true => rw [process_of_stale hs, analyze_calls]; rfl
  | false =>
    obtain ⟨-, _, _, _, -, hp⟩ := process_of_fresh hd hl hs
    rw [hp]
    rfl

/-! ## Keeping an answer -/

theorem accepts_iff {policy : FailurePolicy} {o : AnalyzerOutput} :
    accepts policy o = true ↔ o.timedOut = false ∧ (policy = .skipFailures → o.exitCode = some 0) := by
  cases policy <;> simp [accepts, AnalyzerOutput.isSuccess]

/-- An answer is stored whole, or nothing is changed: because it may not be kept, its path does not fit, or there is a
directory in its place. -/
theorem keep_eq (hd : DirectoryAt fs j.layout.objectsDir d) (hl : fs.Unlinked (d ++ [j.entry source]))
    (o : AnalyzerOutput) :
    (∃ executable, accepts j.failurePolicy o = true ∧ fs.Storable (d ++ [j.entry source]) ∧
      j.keep source o fs = fs.store (d ++ [j.entry source]) (Utf8.encode o.text) executable) ∨
    (j.keep source o fs = fs ∧ (accepts j.failurePolicy o = false ∨ ¬Fits j.layout.objectsDir (j.entry source) ∨
      fs.node? (d ++ [j.entry source]) = some .directory)) := by
  have hn := j.isName_entry source
  rw [keep]
  cases ha : accepts j.failurePolicy o with
  | false => exact .inr ⟨rfl, .inl rfl⟩
  | true =>
    simp only [if_true, CacheLayout.write, resultPath]
    rw [← entry]
    by_cases hf : Fits j.layout.objectsDir (j.entry source)
    · have hw := write_join hd hn hf hl (Utf8.encode o.text)
      cases hnode : fs.node? (d ++ [j.entry source]) with
      | none =>
        rw [hnode] at hw
        exact .inl ⟨false, trivial, .inl hnode, by rw [hw]⟩
      | some node =>
        cases node with
        | file content modified executable =>
          rw [hnode] at hw
          exact .inl ⟨executable, trivial, .inr ⟨_, _, _, hnode⟩, by rw [hw]⟩
        | directory =>
          rw [hnode] at hw
          exact .inr ⟨by rw [hw], .inr (.inr rfl)⟩
        | link target => exact absurd hnode (hl target)
    · obtain ⟨e, he⟩ := write_join_of_not_fits hd hn hf (Utf8.encode o.text)
      exact .inr ⟨by rw [he], .inr (.inl hf)⟩

theorem analyze_fs : (j.analyze source fs).fs =
    match j.call source fs with
    | (.finished o, fs')   => j.keep source o fs'
    | (.notStarted _, fs') => fs'
    | (.crashed, fs')      => fs' := by
  rw [analyze, call]
  cases j.analyzer (j.commandLine source) fs with
  | mk attempt fs' => cases attempt <;> rfl

/-- Nothing but the result of a job is another entry after it, and that only if the job has stored its answer there. -/
theorem analyze_frame (hs : j.analyzer.Spares j.layout.objectsDir) (hd : DirectoryAt fs j.layout.objectsDir d)
    (hl : fs.Unlinked (d ++ [j.entry source])) :
    DirectoryAt (j.analyze source fs).fs j.layout.objectsDir d ∧
    (∀ name, name ≠ j.entry source → (j.analyze source fs).fs.node? (d ++ [name]) = fs.node? (d ++ [name])) ∧
    ((j.analyze source fs).fs.node? (d ++ [j.entry source]) = fs.node? (d ++ [j.entry source]) ∨
      ∃ o modified executable, (j.call source fs).1 = .finished o ∧ accepts j.failurePolicy o = true ∧
        (j.analyze source fs).fs.node? (d ++ [j.entry source]) =
          some (.file (Utf8.encode o.text) modified executable)) := by
  obtain ⟨hd', hsame⟩ := hs (j.commandLine source) fs d hd
  rw [analyze_fs]
  rw [← call] at hd' hsame
  cases hc : j.call source fs with
  | mk attempt fs' =>
    rw [hc] at hd' hsame
    cases attempt with
    | notStarted e => exact ⟨hd', fun name _ => hsame name, .inl (hsame _)⟩
    | crashed => exact ⟨hd', fun name _ => hsame name, .inl (hsame _)⟩
    | finished o =>
      have hl' : fs'.Unlinked (d ++ [j.entry source]) := fun t => by rw [hsame]; exact hl t
      rcases keep_eq hd' hl' o with ⟨executable, ha, hst, hk⟩ | ⟨hk, -⟩
      · simp only [hk]
        refine ⟨hd'.of_keepsWays (hst.keepsWays _ _), fun name hne => ?_, .inr ⟨o, fs'.clock, executable, rfl, ha, ?_⟩⟩
        · rw [node?_store_of_ne _ _ _ (by simpa using hne), hsame]
        · exact node?_store_self _ _ _ hst.ne_nil
      · simp only [hk]
        exact ⟨hd', fun name _ => hsame name, .inl (hsame _)⟩

/-- **A job changes no entry of the objects directory but its own result.** -/
theorem process_frame (hs : j.analyzer.Spares j.layout.objectsDir) (hd : DirectoryAt fs j.layout.objectsDir d)
    (hl : fs.Unlinked (d ++ [j.entry source])) :
    DirectoryAt (j.process source fs).fs j.layout.objectsDir d ∧
    (∀ name, name ≠ j.entry source → (j.process source fs).fs.node? (d ++ [name]) = fs.node? (d ++ [name])) ∧
    ((j.process source fs).fs.node? (d ++ [j.entry source]) = fs.node? (d ++ [j.entry source]) ∨
      j.layout.isStale fs source j.force = true ∧ ∃ o modified executable, (j.call source fs).1 = .finished o ∧
        accepts j.failurePolicy o = true ∧
        (j.process source fs).fs.node? (d ++ [j.entry source]) =
          some (.file (Utf8.encode o.text) modified executable)) := by
  cases hst : j.layout.isStale fs source j.force with
  | true =>
    rw [process_of_stale hst]
    obtain ⟨hd', hsame, hr⟩ := analyze_frame hs hd hl
    exact ⟨hd', hsame, hr.imp_right fun h => ⟨rfl, h⟩⟩
  | false =>
    obtain ⟨-, _, _, _, -, hp⟩ := process_of_fresh hd hl hst
    rw [hp]
    exact ⟨hd, fun _ _ => rfl, .inl rfl⟩

theorem process_unlinked (hs : j.analyzer.Spares j.layout.objectsDir) (hd : DirectoryAt fs j.layout.objectsDir d)
    (hl : fs.Unlinked (d ++ [j.entry source])) : (j.process source fs).fs.Unlinked (d ++ [j.entry source]) := by
  intro target ht
  obtain ⟨-, -, hr | ⟨-, _, _, _, -, -, hr⟩⟩ := process_frame hs hd hl
  · exact hl target (hr ▸ ht)
  · rw [hr] at ht; cases ht

/-- **A result file after an analysis whose answer may be kept holds that answer.** -/
theorem process_result (hs : j.analyzer.Spares j.layout.objectsDir) (hd : DirectoryAt fs j.layout.objectsDir d)
    (hl : fs.Unlinked (d ++ [j.entry source])) (hf : Fits j.layout.objectsDir (j.entry source))
    (hstale : j.layout.isStale fs source j.force = true) {o : AnalyzerOutput} (ho : (j.call source fs).1 = .finished o)
    (ha : accepts j.failurePolicy o = true) {content : ByteArray} {modified : Timestamp} {executable : Bool}
    (h : (j.process source fs).fs.node? (d ++ [j.entry source]) = some (.file content modified executable)) :
    content = Utf8.encode o.text := by
  obtain ⟨hd', hsame⟩ := hs (j.commandLine source) fs d hd
  rw [process_of_stale hstale, analyze_fs] at h
  rw [← call] at hd' hsame
  cases hc : j.call source fs with
  | mk attempt fs' =>
    rw [hc] at hd' hsame h ho
    cases ho
    have hl' : fs'.Unlinked (d ++ [j.entry source]) := fun t => by rw [hsame]; exact hl t
    rcases keep_eq hd' hl' o with ⟨executable', -, hst, hk⟩ | ⟨hk, hno⟩
    · simp only [hk] at h
      rw [node?_store_self _ _ _ hst.ne_nil] at h
      cases h
      rfl
    · simp only [hk] at h
      rcases hno with hno | hno | hno
      · rw [ha] at hno; cases hno
      · exact absurd hf hno
      · rw [hno] at h; cases h

theorem process_content (hs : j.analyzer.Spares j.layout.objectsDir) (hd : DirectoryAt fs j.layout.objectsDir d)
    (hf : Fits j.layout.objectsDir (j.entry source)) (hst : fs.Storable (d ++ [j.entry source]))
    (hstale : j.layout.isStale fs source j.force = true) {o : AnalyzerOutput} (ho : (j.call source fs).1 = .finished o)
    (ha : accepts j.failurePolicy o = true) :
    (j.process source fs).fs.content? (d ++ [j.entry source]) = some (Utf8.encode o.text) := by
  obtain ⟨hd', hsame⟩ := hs (j.commandLine source) fs d hd
  rw [process_of_stale hstale, analyze_fs]
  rw [← call] at hd' hsame
  cases hc : j.call source fs with
  | mk attempt fs' =>
    rw [hc] at hd' hsame ho
    cases ho
    have hst' : fs'.Storable (d ++ [j.entry source]) := hst.congr (hsame _)
    rcases keep_eq hd' hst'.unlinked o with ⟨executable, -, -, hk⟩ | ⟨-, hno⟩
    · simp only [hk]
      rw [content?, node?_store_self _ _ _ hst.ne_nil]
    · rcases hno with hno | hno | hno
      · rw [ha] at hno; cases hno
      · exact absurd hf hno
      · rcases hst' with hn | ⟨_, _, _, hn⟩ <;> rw [hn] at hno <;> cases hno

/-- The answer that a job leaves in its result: the analyzer was called for it, it may be kept, and it could be
written. -/
def kept? (j : Job) (source : Path) (fs : FileSystem) : Option AnalyzerOutput :=
  if j.layout.isStale fs source j.force then
    match j.call source fs with
    | (.finished o, fs') =>
      if accepts j.failurePolicy o then
        match j.layout.write fs' source o.text with
        | .ok _    => some o
        | .error _ => none
      else none
    | _ => none
  else none

theorem kept?_eq_some_iff {o : AnalyzerOutput} :
    j.kept? source fs = some o ↔ j.layout.isStale fs source j.force = true ∧ ∃ fs' fs'',
      j.call source fs = (.finished o, fs') ∧ accepts j.failurePolicy o = true ∧
        j.layout.write fs' source o.text = .ok fs'' := by
  rw [kept?]
  cases j.layout.isStale fs source j.force with
  | false => simp
  | true =>
    cases j.call source fs with
    | mk attempt fs' =>
      cases attempt with
      | notStarted e => simp
      | crashed => simp
      | finished o' =>
        by_cases ha : accepts j.failurePolicy o' = true
        · cases hw : j.layout.write fs' source o'.text with
          | error e =>
            simp only [ha, hw, if_true]
            constructor
            · rintro ⟨⟩
            · rintro ⟨-, _, _, hc, -, hw'⟩
              cases hc
              rw [hw] at hw'; cases hw'
          | ok fs'' =>
            simp only [ha, hw, if_true]
            constructor
            · rintro ⟨⟩
              exact ⟨trivial, fs', fs'', rfl, ha, hw⟩
            · rintro ⟨-, _, _, hc, -⟩
              cases hc
              rfl
        · simp only [ha, if_true, Bool.false_eq_true, if_false]
          constructor
          · rintro ⟨⟩
          · rintro ⟨-, _, _, hc, ha', -⟩
            cases hc
            exact absurd ha' ha

/-- **What a job leaves of the files**: those it found, those of its call, or those with its answer written. -/
theorem process_fs (j : Job) (source : Path) (fs : FileSystem) :
    (j.layout.isStale fs source j.force = false ∧ (j.process source fs).fs = fs) ∨
    (j.layout.isStale fs source j.force = true ∧ j.kept? source fs = none ∧
      (j.process source fs).fs = (j.call source fs).2) ∨
    ∃ o, j.kept? source fs = some o ∧ j.layout.write (j.call source fs).2 source o.text = .ok (j.process source fs).fs := by
  cases hst : j.layout.isStale fs source j.force with
  | false =>
    obtain ⟨_, _, _, _, -, hp⟩ := process_of_not_stale hst
    exact .inl ⟨rfl, by rw [hp]⟩
  | true =>
    rw [process_of_stale hst, analyze_fs, kept?, hst]
    cases hc : j.call source fs with
    | mk attempt fs' =>
      cases attempt with
      | notStarted e => exact .inr (.inl ⟨rfl, rfl, rfl⟩)
      | crashed => exact .inr (.inl ⟨rfl, rfl, rfl⟩)
      | finished o =>
        by_cases ha : accepts j.failurePolicy o = true
        · cases hw : j.layout.write fs' source o.text with
          | error e => exact .inr (.inl ⟨rfl, by simp [ha, hw], by simp [keep, ha, hw]⟩)
          | ok fs'' => exact .inr (.inr ⟨o, by simp [ha, hw], by simp [keep, ha, hw]⟩)
        · exact .inr (.inl ⟨rfl, by simp [ha], by simp [keep, ha]⟩)

/-- The job replaces the result: it has an answer that may be kept, and can write it. -/
def Replaces (j : Job) (source : Path) (fs : FileSystem) : Prop :=
  j.layout.isStale fs source j.force = true ∧ ∃ o fs' fs'', j.call source fs = (.finished o, fs') ∧
    accepts j.failurePolicy o = true ∧ j.layout.write fs' source o.text = .ok fs''

/-- **A job that does not replace its result changes no entry of the objects directory.** -/
theorem process_unchanged (hs : j.analyzer.Spares j.layout.objectsDir) (hd : DirectoryAt fs j.layout.objectsDir d)
    (hl : fs.Unlinked (d ++ [j.entry source])) (h : ¬j.Replaces source fs) (name : Name) :
    (j.process source fs).fs.node? (d ++ [name]) = fs.node? (d ++ [name]) := by
  have hcall : (j.call source fs).2.node? (d ++ [name]) = fs.node? (d ++ [name]) := (hs _ fs d hd).2 name
  cases hst : j.layout.isStale fs source j.force with
  | false =>
    obtain ⟨-, _, _, _, -, hp⟩ := process_of_fresh hd hl hst
    rw [hp]
  | true =>
    rw [process_of_stale hst, analyze_fs]
    cases hc : j.call source fs with
    | mk attempt fs' =>
      rw [hc] at hcall
      cases attempt with
      | notStarted e => exact hcall
      | crashed => exact hcall
      | finished o =>
        simp only [keep]
        cases ha : accepts j.failurePolicy o with
        | false => exact hcall
        | true =>
          cases hw : j.layout.write fs' source o.text with
          | error e => exact hcall
          | ok fs'' => exact absurd ⟨hst, o, fs', fs'', hc, ha, hw⟩ h

end
end Job

/-! ## One objects directory -/

namespace Sample

/-- An objects directory with the object file of one source, older than what is written now. -/
def files : FileSystem := ⟨[(["o"], .directory), (["o", "b.o"], .file .empty 0 false)], [], 1, []⟩

def layout : CacheLayout := ⟨⟨"/o"⟩, .basename⟩

def source : Path := ⟨"b.m"⟩

def plain : Configuration := ⟨⟨"clang"⟩, ⟨"res"⟩, none, true, true, false, false, none, [], [], []⟩

def debugging : Configuration := { plain with debug := true }

theorem directoryAt_files : DirectoryAt files layout.objectsDir ["o"] :=
  ⟨linkLimit, .skip (.inl rfl) (.down ⟨by decide, by decide, by decide⟩ rfl .here)⟩

theorem fits_record : Fits layout.objectsDir recordName := ⟨by decide, by decide, by decide⟩

theorem fits_result : Fits layout.objectsDir (resultName layout.key source) := ⟨by decide, by decide, by decide⟩

theorem fits_object : Fits layout.objectsDir (objectName source) := ⟨by decide, by decide, by decide⟩

end Sample
end Recheck
