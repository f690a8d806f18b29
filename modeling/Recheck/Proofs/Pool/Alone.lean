import Recheck.Proofs.Cache.Record
import Recheck.Proofs.Pool.FileSteps
/-!
# What a job sees and does by itself

A job depends on the entries of its object file and its result, and on nothing else that is shared (`View`).  Whatever
state the others have brought about: where it sees what it would see if it were alone on the files that the record step
left (`Alone`), it does so again after its next step (`Sheltered.stands_own`).
-/
namespace Recheck
open FileSystem CacheLayout

/-- What the job of a source depends on: the entries of its object file and its result, and the calls made for it. -/
structure View where
  object : Option Node
  result : Option Node
  calls : List (List String)

def View.content? (v : View) : Option ByteArray :=
  match v.result with
  | some (.file content _ _) => some content
  | _                        => none

def Shared.view (w : Shared) (j : Job) (d : Address) (s : Path) : View :=
  ⟨w.fs.node? (d ++ [objectName s]), w.fs.node? (d ++ [j.entry s]), w.callsFor s⟩

namespace Job

/-- The analyzer must be called for a source. -/
def MustCall (j : Job) (s : Path) (fs : FileSystem) : Prop :=
  j.force = true ∨ fs.isFile (j.layout.objectPath s) = false ∨ fs.isFile (j.layout.resultPath s) = false ∨
    ∃ o r, fs.modified? (j.layout.objectPath s) = some o ∧ fs.modified? (j.layout.resultPath s) = some r ∧ r < o

theorem isFile_eq (fs : FileSystem) (p : Path) : fs.isFile p = (fs.modified? p).isSome := by
  rw [isFile, modified?]
  cases fs.stat p with
  | error e => rfl
  | ok place =>
    obtain ⟨a, node⟩ := place
    cases node <;> rfl

theorem mustCall_iff {j : Job} {s : Path} {fs : FileSystem} :
    j.MustCall s fs ↔ j.layout.isStale fs s j.force = true := by
  rw [MustCall, CacheLayout.isStale, Recheck.isStale, isFile_eq, isFile_eq]
  cases j.force <;> cases fs.modified? (j.layout.objectPath s) <;> cases fs.modified? (j.layout.resultPath s) <;> simp

/-- The files `S` that a run finds after its record step, and its analyzer. -/
structure Sheltered (j : Job) (S : FileSystem) (d : Address) : Prop where
  directory : DirectoryAt S j.layout.objectsDir d
  unlinked : ∀ name, S.Unlinked (d ++ [name])
  spares : j.analyzer.Spares j.layout.objectsDir
  answers : ∀ argv fs fs', (j.analyzer argv fs).1 = (j.analyzer argv fs').1

/-- What a job finds for its source in `S`. -/
def found (j : Job) (S : FileSystem) (d : Address) (s : Path) : View :=
  ⟨S.node? (d ++ [objectName s]), S.node? (d ++ [j.entry s]), []⟩

/-- What a job alone on `S` has seen and done at its phases. -/
inductive Alone (j : Job) (S : FileSystem) (d : Address) (s : Path) (v : View) : Phase (Path × JobStage) → Prop
  | waiting : v = j.found S d s → Alone j S d s v .waiting
  | object : v = j.found S d s → j.force = false → Alone j S d s v (.running (s, .object))
  | result : v = j.found S d s → j.force = false →
      Alone j S d s v (.running (s, .result (S.modified? (j.layout.objectPath s))))
  | reading : v = j.found S d s → j.layout.isStale S s j.force = false → j.onlyLatest = false →
      Alone j S d s v (.running (s, .reading))
  | dating {content} : v = j.found S d s → j.layout.isStale S s j.force = false → j.onlyLatest = false →
      v.content? = some content → Alone j S d s v (.running (s, .dating content))
  | calling : v = j.found S d s → j.layout.isStale S s j.force = true → Alone j S d s v (.running (s, .calling))
  | creating {o} : v = { j.found S d s with calls := [j.commandLine s] } → j.layout.isStale S s j.force = true →
      (j.call s S).1 = .finished o → accepts j.failurePolicy o = true → Alone j S d s v (.running (s, .creating o))
  | filling {o written} : v.content? = some ((Utf8.encode o.text).extract 0 written) → v.calls = [j.commandLine s] →
      Fits j.layout.objectsDir (j.entry s) → S.Storable (d ++ [j.entry s]) →
      j.layout.isStale S s j.force = true → (j.call s S).1 = .finished o → accepts j.failurePolicy o = true →
      written ≤ (Utf8.encode o.text).size → Alone j S d s v (.running (s, .filling o written))
  | ended : (∀ t, v.result ≠ some (.link t)) → v.content? = (j.process s S).fs.content? (d ++ [j.entry s]) →
      v.calls = (j.process s S).calls → Alone j S d s v (.ended (j.process s S).output)

/-- The objects directory is there, and the job of a source is as far as it would be alone. -/
structure Stands (j : Job) (S : FileSystem) (d : Address) (s : Path) (phase : Phase (Path × JobStage)) (w : Shared) :
    Prop where
  directory : DirectoryAt w.fs j.layout.objectsDir d
  alone : Alone j S d s (w.view j d s) phase

def Lands (j : Job) (S : FileSystem) (d : Address) (s : Path) (n : Next Shared JobStage) : Prop :=
  Stands j S d s (n.map (s, ·)).phase n.world

section
variable {j : Job} {S : FileSystem} {d : Address} {s : Path} {w : Shared}

theorem content?_eq : (w.view j d s).content? = w.fs.content? (d ++ [j.entry s]) := rfl

/-! ## A job alone on the files -/

theorem Sheltered.process_calls (h : j.Sheltered S d) (hstale : j.layout.isStale S s j.force = true) :
    (j.process s S).calls = [j.commandLine s] := by
  rw [Job.process_calls h.directory (h.unlinked _), if_pos hstale]

theorem Sheltered.content?_of_not_replaces (h : j.Sheltered S d) (hno : ¬j.Replaces s S) :
    (j.process s S).fs.content? (d ++ [j.entry s]) = S.content? (d ++ [j.entry s]) := by
  rw [content?, process_unchanged h.spares h.directory (h.unlinked _) hno, content?]

/-- A job that does not crash has an output, if its result was not written in a year without dates. -/
theorem Sheltered.output_ne_none (h : j.Sheltered S d) (hcrash : (j.call s S).1 ≠ .crashed)
    (hdate : ∀ t, S.modified? (j.layout.resultPath s) = some t → t.civilText? ≠ none) :
    (j.process s S).output ≠ none := by
  cases hst : j.layout.isStale S s j.force with
  | true =>
    rw [process_of_stale hst, analyze_output]
    cases hc : (j.call s S).1 with
    | crashed => exact absurd hc hcrash
    | finished o => simp [reply]
    | notStarted e => simp [reply]
  | false =>
    obtain ⟨hf, content, modified, executable, hnode, hp⟩ := process_of_fresh h.directory (h.unlinked _) hst
    have hm := (modified?_join h.directory (j.isName_entry s) (h.unlinked _) modified).2
      ⟨hf, content, executable, hnode⟩
    have hd := hdate modified hm
    rw [hp]
    cases j.onlyLatest <;> simp [cachedText?, hd]

end

section
variable {j : Job} {S : FileSystem} {d : Address} {s : Path} {w : Shared} (h : j.Sheltered S d)
include h

/-! ## What a job sees -/

theorem Sheltered.modified? (hd : DirectoryAt w.fs j.layout.objectsDir d) (hv : w.view j d s = j.found S d s) :
    w.fs.modified? (j.layout.objectPath s) = S.modified? (j.layout.objectPath s) ∧
      w.fs.modified? (j.layout.resultPath s) = S.modified? (j.layout.resultPath s) :=
  ⟨modified?_eq_of_node?_eq h.directory hd (isName_objectName s) (h.unlinked _) (congrArg View.object hv),
    modified?_eq_of_node?_eq h.directory hd (j.isName_entry s) (h.unlinked _) (congrArg View.result hv)⟩

theorem Sheltered.call_eq (fs : FileSystem) : (j.call s fs).1 = (j.call s S).1 := h.answers _ _ _

theorem Sheltered.view_called (hd : DirectoryAt w.fs j.layout.objectsDir d) (hv : w.view j d s = j.found S d s) :
    (j.called s w).view j d s = { j.found S d s with calls := [j.commandLine s] } := by
  have hnode := (h.spares (j.commandLine s) w.fs d hd).2
  have hcalls : w.callsFor s = [] := congrArg View.calls hv
  rw [Shared.view, callsFor_called, hcalls, called, call, hnode, hnode]
  rw [← hv]
  rfl

theorem Sheltered.ended_of_not_replaces (hd : DirectoryAt w.fs j.layout.objectsDir d)
    (hv : w.view j d s = { j.found S d s with calls := [j.commandLine s] })
    (hstale : j.layout.isStale S s j.force = true) (hno : ¬j.Replaces s S) :
    Stands j S d s (.ended (j.reply s (j.call s S).1)) w := by
  rw [← analyze_output, ← process_of_stale hstale]
  refine ⟨hd, .ended (hv ▸ h.unlinked _) ?_ ?_⟩
  · rw [h.content?_of_not_replaces hno, hv]
    rfl
  · rw [h.process_calls hstale, hv]

theorem Sheltered.ended_of_fresh (hd : DirectoryAt w.fs j.layout.objectsDir d) (hv : w.view j d s = j.found S d s)
    (hfresh : j.layout.isStale S s j.force = false) : Stands j S d s (.ended (j.process s S).output) w := by
  obtain ⟨-, _, _, _, -, hp⟩ := process_of_fresh h.directory (h.unlinked _) hfresh
  refine ⟨hd, .ended (hv ▸ h.unlinked _) ?_ ?_⟩
  · rw [hp, hv]
    rfl
  · rw [hp, hv]
    rfl

/-! ## One step of a job -/

theorem Sheltered.lands_compareTimes (hd : DirectoryAt w.fs j.layout.objectsDir d) (hv : w.view j d s = j.found S d s)
    (hforce : j.force = false) : Lands j S d s (j.compareTimes s w (S.modified? (j.layout.objectPath s))) := by
  unfold compareTimes
  rw [(h.modified? hd hv).2]
  cases ho : S.modified? (j.layout.objectPath s) with
  | none => exact ⟨hd, .calling hv (mustCall_iff.1 (.inr (.inl (by rw [isFile_eq, ho]; rfl))))⟩
  | some o =>
    cases hr : S.modified? (j.layout.resultPath s) with
    | none => exact ⟨hd, .calling hv (mustCall_iff.1 (.inr (.inr (.inl (by rw [isFile_eq, hr]; rfl)))))⟩
    | some r =>
      simp only
      by_cases hlt : r < o
      · rw [if_pos hlt]
        exact ⟨hd, .calling hv (mustCall_iff.1 (.inr (.inr (.inr ⟨o, r, ho, hr, hlt⟩))))⟩
      · have hfresh : j.layout.isStale S s j.force = false :=
          isStale_eq_false_iff.2 ⟨hforce, o, r, ho, hr, Int.not_lt.1 hlt⟩
        rw [if_neg hlt]
        cases hlatest : j.onlyLatest with
        | false => exact ⟨hd, .reading hv hfresh hlatest⟩
        | true =>
          obtain ⟨-, _, _, _, -, hp⟩ := process_of_fresh h.directory (h.unlinked _) hfresh
          have hended := h.ended_of_fresh hd hv hfresh
          rw [hp, hlatest] at hended
          exact hended

/-- The result that makes a source fresh on `S` is the file that the job finds. -/
theorem Sheltered.node?_of_fresh (hv : w.view j d s = j.found S d s) (hfresh : j.layout.isStale S s j.force = false) :
    Fits j.layout.objectsDir (j.entry s) ∧ ∃ content modified executable,
      w.fs.node? (d ++ [j.entry s]) = some (.file content modified executable) ∧
        w.fs.Unlinked (d ++ [j.entry s]) ∧
        j.process s S =
          ⟨if j.onlyLatest then some (j.output s .skipped (skippedNotice ++ "\n"))
            else (cachedText? ⟨Utf8.decodeLossy content, modified⟩).map (j.output s .cached), [], S⟩ := by
  obtain ⟨hf, content, modified, executable, hnode, hp⟩ := process_of_fresh h.directory (h.unlinked _) hfresh
  have hnode' : w.fs.node? (d ++ [j.entry s]) = some (.file content modified executable) :=
    (congrArg View.result hv).trans hnode
  exact ⟨hf, content, modified, executable, hnode', Storable.unlinked (.inr ⟨_, _, _, hnode'⟩), hp⟩

theorem Sheltered.lands_readResult (hd : DirectoryAt w.fs j.layout.objectsDir d) (hv : w.view j d s = j.found S d s)
    (hfresh : j.layout.isStale S s j.force = false) (hlatest : j.onlyLatest = false) :
    Lands j S d s (j.readResult s w) := by
  obtain ⟨hf, content, modified, executable, hnode, hl, -⟩ := h.node?_of_fresh hv hfresh
  have hcontent : w.fs.content? (d ++ [j.entry s]) = some content := by rw [content?, hnode]
  have hread : w.fs.read (j.layout.resultPath s) = .ok content :=
    (read_join_iff hd (j.isName_entry s) hl content).2 ⟨hf, hcontent⟩
  unfold readResult
  rw [hread]
  exact ⟨hd, .dating hv hfresh hlatest hcontent⟩

theorem Sheltered.lands_dateResult {content : ByteArray} (hd : DirectoryAt w.fs j.layout.objectsDir d)
    (hv : w.view j d s = j.found S d s) (hfresh : j.layout.isStale S s j.force = false) (hlatest : j.onlyLatest = false)
    (hc : (w.view j d s).content? = some content) : Lands j S d s (j.dateResult s w content) := by
  obtain ⟨hf, content', modified, executable, hnode, hl, hp⟩ := h.node?_of_fresh hv hfresh
  have hstat : w.fs.stat (j.layout.resultPath s) = .ok (d ++ [j.entry s], .file content' modified executable) := by
    rw [resultPath, ← entry, stat_join hd (j.isName_entry s) hf hl, hnode]
  have hsame : content' = content := by
    rw [content?_eq, content?, hnode] at hc
    exact Option.some.inj hc
  have hended := h.ended_of_fresh hd hv hfresh
  rw [hp, hlatest, hsame] at hended
  unfold dateResult
  rw [hstat]
  exact hended

theorem Sheltered.lands_callAnalyzer (hd : DirectoryAt w.fs j.layout.objectsDir d) (hv : w.view j d s = j.found S d s)
    (hstale : j.layout.isStale S s j.force = true) : Lands j S d s (j.callAnalyzer s w) := by
  have hd' : DirectoryAt (j.called s w).fs j.layout.objectsDir d := (h.spares (j.commandLine s) w.fs d hd).1
  have hv' := h.view_called hd hv
  have hended (hno : ¬j.Replaces s S) := h.ended_of_not_replaces hd' hv' hstale hno
  unfold callAnalyzer
  rw [h.call_eq]
  cases hc : (j.call s S).1 with
  | finished o =>
    rw [hc] at hended
    cases ha : accepts j.failurePolicy o with
    | true =>
      simp only [ha, if_true]
      exact ⟨hd', .creating hv' hstale hc ha⟩
    | false =>
      simp only [ha, Bool.false_eq_true, if_false]
      refine hended ?_
      rintro ⟨-, o', _, _, hc', ha', -⟩
      rw [hc'] at hc
      cases hc
      rw [ha] at ha'; cases ha'
  | notStarted e =>
    rw [hc] at hended
    refine hended ?_
    rintro ⟨-, _, _, _, hc', -⟩
    rw [hc'] at hc; cases hc
  | crashed =>
    rw [hc] at hended
    refine hended ?_
    rintro ⟨-, _, _, _, hc', -⟩
    rw [hc'] at hc; cases hc

theorem Sheltered.lands_createResult {o : AnalyzerOutput} (hd : DirectoryAt w.fs j.layout.objectsDir d)
    (hv : w.view j d s = { j.found S d s with calls := [j.commandLine s] })
    (hstale : j.layout.isStale S s j.force = true) (hc : (j.call s S).1 = .finished o)
    (ha : accepts j.failurePolicy o = true) (now : Timestamp) : Lands j S d s (j.createResult s w now o) := by
  have hnode : w.fs.node? (d ++ [j.entry s]) = S.node? (d ++ [j.entry s]) := congrArg View.result hv
  have hl : w.fs.Unlinked (d ++ [j.entry s]) := fun t => by rw [hnode]; exact h.unlinked _ t
  unfold createResult
  cases hw : w.fs.writeAt now (j.layout.resultPath s) .empty with
  | ok fs' =>
    obtain ⟨hf, hst, hd', -, modified, executable, hnode'⟩ := of_writeAt hd hl hw
    have hcontent : fs'.content? (d ++ [j.entry s]) = some ((Utf8.encode o.text).extract 0 0) := by
      rw [content?, hnode', ByteArray.extract_same]
    exact ⟨hd', .filling hcontent (congrArg View.calls hv) hf (hst.congr hnode.symm) hstale hc ha (Nat.zero_le _)⟩
  | error e =>
    have hended := h.ended_of_not_replaces hd hv hstale ?_
    · rw [hc] at hended
      exact hended
    -- what cannot be written here, cannot be written on `S` either
    rintro ⟨-, o', fs', fs'', hcall, -, hwrite⟩
    obtain ⟨hd', hsame⟩ := h.spares (j.commandLine s) S d h.directory
    rw [← call, hcall] at hd' hsame
    have hl' : fs'.Unlinked (d ++ [j.entry s]) := fun t => by rw [hsame]; exact h.unlinked _ t
    obtain ⟨hf, hst, -⟩ := store_of_write hd' (j.isName_entry s) hl' hwrite
    obtain ⟨_, hw'⟩ := exists_writeAt now .empty hd hf (hst.congr (hnode.trans (hsame _).symm))
    rw [hw] at hw'; cases hw'

theorem Sheltered.lands_fillResult {o : AnalyzerOutput} {written : Nat} (hd : DirectoryAt w.fs j.layout.objectsDir d)
    (hv : (w.view j d s).content? = some ((Utf8.encode o.text).extract 0 written))
    (hcalls : (w.view j d s).calls = [j.commandLine s]) (hf : Fits j.layout.objectsDir (j.entry s))
    (hst : S.Storable (d ++ [j.entry s])) (hstale : j.layout.isStale S s j.force = true)
    (hc : (j.call s S).1 = .finished o) (ha : accepts j.failurePolicy o = true)
    (hle : written ≤ (Utf8.encode o.text).size) (now : Timestamp) (chunk : Nat) :
    Lands j S d s (j.fillResult s w now chunk o written) := by
  have hst' : w.fs.Storable (d ++ [j.entry s]) := by
    rw [content?_eq, content?] at hv
    split at hv
    · rename_i c m x hnode
      exact .inr ⟨c, m, x, hnode⟩
    · cases hv
  unfold fillResult
  by_cases hlt : written < (Utf8.encode o.text).size
  · obtain ⟨fs', hw⟩ := exists_writeAt now ((Utf8.encode o.text).extract 0 (further o written chunk)) hd hf hst'
    obtain ⟨-, -, hd', -, modified, executable, hnode'⟩ := of_writeAt hd hst'.unlinked hw
    rw [if_pos hlt, hw]
    have hcontent : fs'.content? (d ++ [j.entry s]) = some ((Utf8.encode o.text).extract 0 (further o written chunk)) := by
      rw [content?, hnode']
    exact ⟨hd', .filling hcontent hcalls hf hst hstale hc ha (Nat.min_le_left _ _)⟩
  · have hall : written = (Utf8.encode o.text).size := Nat.le_antisymm hle (Nat.le_of_not_lt hlt)
    have hended : Stands j S d s (.ended (j.process s S).output) w := by
      refine ⟨hd, .ended hst'.unlinked ?_ ?_⟩
      · rw [hv, hall, ByteArray.extract_zero_size, process_content h.spares h.directory hf hst hstale hc ha]
      · rw [hcalls, h.process_calls hstale]
    rw [process_of_stale hstale, analyze_output, hc] at hended
    rw [if_neg hlt]
    exact hended

theorem Sheltered.lands_act {stage : JobStage} (hst : Stands j S d s (.running (s, stage)) w) (now : Timestamp)
    (chunk : Nat) : Lands j S d s (j.act s now chunk w stage) := by
  obtain ⟨hd, halone⟩ := hst
  cases halone with
  | object hv hforce =>
    rw [act, (h.modified? hd hv).1]
    exact ⟨hd, .result hv hforce⟩
  | result hv hforce =>
    rw [act]
    exact h.lands_compareTimes hd hv hforce
  | reading hv hfresh hlatest =>
    rw [act]
    exact h.lands_readResult hd hv hfresh hlatest
  | dating hv hfresh hlatest hc =>
    rw [act]
    exact h.lands_dateResult hd hv hfresh hlatest hc
  | calling hv hstale =>
    rw [act]
    exact h.lands_callAnalyzer hd hv hstale
  | creating hv hstale hc ha =>
    rw [act]
    exact h.lands_createResult hd hv hstale hc ha now
  | filling hv hcalls hf hst hstale hc ha hle =>
    rw [act]
    exact h.lands_fillResult hd hv hcalls hf hst hstale hc ha hle now chunk

theorem Sheltered.unlinked_of_stands {stage : Path × JobStage} (hst : Stands j S d s (.running stage) w) :
    stage.1 = s ∧ w.fs.Unlinked (d ++ [j.entry s]) := by
  have hfound {calls : List (List String)} (hv : w.view j d s = { j.found S d s with calls := calls }) :
      w.fs.Unlinked (d ++ [j.entry s]) := by
    intro t ht
    rw [show w.fs.node? (d ++ [j.entry s]) = S.node? (d ++ [j.entry s]) from congrArg View.result hv] at ht
    exact h.unlinked _ t ht
  cases hst.alone with
  | filling hv =>
    refine ⟨rfl, fun t ht => ?_⟩
    rw [content?_eq, content?, ht] at hv
    cases hv
  | creating hv => exact ⟨rfl, hfound hv⟩
  | object hv | result hv | reading hv | dating hv | calling hv => exact ⟨rfl, hfound hv⟩

/-- **A step of a job that stands where it would alone brings it to where it would be alone.** -/
theorem Sheltered.stands_own {stage : Path × JobStage} (hst : Stands j S d s (.running stage) w)
    {n : Next Shared (Path × JobStage)} (hn : j.machine.next stage w n) : Stands j S d s n.phase n.world := by
  obtain ⟨now, chunk, rfl⟩ := hn
  obtain ⟨rfl, -⟩ := h.unlinked_of_stands hst
  rw [Next.world_map]
  exact h.lands_act hst now chunk

end
end Job
end Recheck
