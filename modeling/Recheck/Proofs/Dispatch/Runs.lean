import Recheck.Dispatch.Run
import Recheck.Proofs.Cache.Record
import Recheck.Proofs.Dispatch.Jobs
/-!
# What a run does

A run past its record step is a chain of jobs, each on the files that those before it have left (`started`).  What holds
before the first job and is kept by each holds at every job and after the last (`started_induct`).
-/
namespace Recheck
open FileSystem CacheLayout

/-- A source that was started: the job, and the files it found. -/
structure Handled where
  job : Job
  source : Path
  fs : FileSystem

namespace Handled

def result (x : Handled) : JobRun := x.job.process x.source x.fs

def isStale (x : Handled) : Bool := x.job.layout.isStale x.fs x.source x.job.force

def path (x : Handled) : Path := x.job.layout.resultPath x.source

def commandLine (x : Handled) : List String := x.job.commandLine x.source

def fingerprint (x : Handled) : String := x.job.configuration.fingerprint

/-- The kept result was shown, or said to be there. -/
def Spared (x : Handled) : Prop :=
  ∃ o, x.result.output = some o ∧ (o.outcome = .cached ∨ o.outcome = .skipped)

end Handled

namespace Dispatch

/-- The sources that are started by `alive` workers, in order. -/
def started (j : Job) : Nat → List Path → FileSystem → List Handled
  | 0, _, _                     => []
  | _, [], _                    => []
  | alive + 1, s :: sources, fs =>
    ⟨j, s, fs⟩ :: started j (if (j.process s fs).output.isSome then alive + 1 else alive) sources (j.process s fs).fs

theorem work_cons (j : Job) (alive : Nat) (s : Path) (sources : List Path) (fs : FileSystem) :
    work j (alive + 1) (s :: sources) fs =
      let r := j.process s fs
      let w := work j (if r.output.isSome then alive + 1 else alive) sources r.fs
      ⟨r.output.toList ++ w.outputs, r.calls ++ w.calls, r.output.isNone || w.crashed, w.fs⟩ := by
  rw [work]
  cases h : (j.process s fs).output <;> simp [h]

theorem started_nil (j : Job) (alive : Nat) (fs : FileSystem) : started j alive [] fs = [] := by
  cases alive <;> rfl

theorem started_singleton (j : Job) (alive : Nat) (s : Path) (fs : FileSystem) :
    started j (alive + 1) [s] fs = [⟨j, s, fs⟩] := by
  rw [started, started_nil]

theorem work_nil (j : Job) (alive : Nat) (fs : FileSystem) : work j alive [] fs = ⟨[], [], false, fs⟩ := by
  cases alive <;> rfl

theorem work_singleton_fs (j : Job) (alive : Nat) (s : Path) (fs : FileSystem) :
    (work j (alive + 1) [s] fs).fs = (j.process s fs).fs := by
  simp only [work_cons, work_nil]

theorem work_outputs (j : Job) : ∀ (alive : Nat) (sources : List Path) (fs : FileSystem),
    (work j alive sources fs).outputs = (started j alive sources fs).filterMap (·.result.output)
  | 0, _, _ => by simp [work, started]
  | alive + 1, [], _ => by simp [work, started]
  | alive + 1, s :: sources, fs => by
    rw [work_cons, started]
    have ih := work_outputs j (if (j.process s fs).output.isSome then alive + 1 else alive) sources (j.process s fs).fs
    rw [List.filterMap_cons]
    cases h : (j.process s fs).output <;> simp_all [Handled.result]

theorem work_calls (j : Job) : ∀ (alive : Nat) (sources : List Path) (fs : FileSystem),
    (work j alive sources fs).calls = (started j alive sources fs).flatMap (·.result.calls)
  | 0, _, _ => by simp [work, started]
  | alive + 1, [], _ => by simp [work, started]
  | alive + 1, s :: sources, fs => by
    rw [work_cons, started, List.flatMap_cons, ← work_calls]
    rfl

theorem work_crashed (j : Job) : ∀ (alive : Nat) (sources : List Path) (fs : FileSystem),
    (work j alive sources fs).crashed = (started j alive sources fs).any (·.result.output.isNone)
  | 0, _, _ => by simp [work, started]
  | alive + 1, [], _ => by simp [work, started]
  | alive + 1, s :: sources, fs => by
    rw [work_cons, started, List.any_cons, ← work_crashed]
    rfl

/-- A run without crashes starts all its sources. -/
theorem map_source_started_of_outputs (j : Job) : ∀ (alive : Nat) (sources : List Path) (fs : FileSystem),
    (∀ x ∈ started j (alive + 1) sources fs, x.result.output ≠ none) →
    (started j (alive + 1) sources fs).map Handled.source = sources
  | alive, [], _, _ => by simp [started]
  | alive, s :: sources, fs, h => by
    rw [started] at h ⊢
    have hs : (j.process s fs).output.isSome = true :=
      Option.isSome_iff_ne_none.2 (h ⟨j, s, fs⟩ List.mem_cons_self)
    rw [hs] at h ⊢
    rw [List.map_cons, if_pos rfl,
      map_source_started_of_outputs j alive sources _ fun x hx => h x (List.mem_cons_of_mem _ hx)]

theorem map_source_started (j : Job) : ∀ (alive : Nat) (sources : List Path) (fs : FileSystem),
    (started j alive sources fs).map Handled.source <+: sources
  | 0, _, _ => by simp [started]
  | alive + 1, [], _ => by simp [started]
  | alive + 1, s :: sources, fs => by
    rw [started, List.map_cons]
    exact (List.prefix_append_right_inj [s]).2 (map_source_started j _ sources _)

theorem job_of_mem_started {j : Job} : ∀ {alive : Nat} {sources : List Path} {fs : FileSystem} {x : Handled},
    x ∈ started j alive sources fs → x.job = j
  | 0, _, _, _, h => by simp [started] at h
  | alive + 1, [], _, _, h => by simp [started] at h
  | alive + 1, s :: sources, fs, x, h => by
    rw [started] at h
    rcases List.mem_cons.1 h with rfl | h
    · rfl
    · exact job_of_mem_started h

theorem source_of_mem_started {j : Job} {alive : Nat} {sources : List Path} {fs : FileSystem} {x : Handled}
    (h : x ∈ started j alive sources fs) : x.source ∈ sources :=
  (map_source_started j alive sources fs).subset (List.mem_map_of_mem h)

/-- **What every job keeps holds at every job and after the last.**  What is kept may depend on the jobs that have been
done, of which the latest stands first. -/
theorem started_induct {j : Job} {P : List Handled → FileSystem → Prop} :
    ∀ {sources : List Path} (alive : Nat) {fs : FileSystem} {log : List Handled},
      (∀ log s fs, s ∈ sources → P log fs → P (⟨j, s, fs⟩ :: log) (j.process s fs).fs) → P log fs →
      P ((started j alive sources fs).reverse ++ log) (work j alive sources fs).fs ∧
        ∀ pre x post, started j alive sources fs = pre ++ x :: post → P (pre.reverse ++ log) x.fs
  | _, 0, fs, log, _, h => by
    refine ⟨by simpa [started, work] using h, fun pre x post hx => ?_⟩
    simp [started] at hx
  | [], alive + 1, fs, log, _, h => by
    refine ⟨by simpa [started, work] using h, fun pre x post hx => ?_⟩
    simp [started] at hx
  | s :: sources, alive + 1, fs, log, step, h => by
    have step' : ∀ log t fs, t ∈ sources → P log fs → P (⟨j, t, fs⟩ :: log) (j.process t fs).fs :=
      fun log t fs ht => step log t fs (List.mem_cons_of_mem _ ht)
    obtain ⟨hend, hat⟩ := started_induct (if (j.process s fs).output.isSome then alive + 1 else alive) step'
      (step log s fs List.mem_cons_self h)
    rw [work_cons, started]
    refine ⟨by simpa using hend, fun pre x post hx => ?_⟩
    cases pre with
    | nil =>
      simp only [List.nil_append, List.cons.injEq] at hx
      rw [← hx.1]
      exact h
    | cons y pre =>
      simp only [List.cons_append, List.cons.injEq] at hx
      obtain ⟨rfl, hx⟩ := hx
      simpa using hat pre x post hx

/-! ## The record step and the jobs -/

section
variable {c : Configuration} {l : CacheLayout} {analyzer : Analyzer} {o : DispatchOptions} {sources : List Path}
  {sink : Sink} {fs S : FileSystem}

theorem run_of_error {e : IoError} (h : Record.update fs l.recordPath c = (.error e, S)) :
    run c l analyzer o sources sink fs = ⟨.failed (.record l.recordPath e), [], sink, S⟩ := by
  rw [run, h]

theorem run_of_ok {force : Bool} (h : Record.update fs l.recordPath c = (.ok force, S))
    (hq : queueTooLarge (workers o) = false) :
    run c l analyzer o sources sink fs =
      let w := work (job c l analyzer o force) (workers o) sources S
      let a := Aggregator.drain sink w.outputs
      ⟨ending force w.crashed a.result, w.calls, a.sink, w.fs⟩ := by
  rw [run, h]
  simp [hq]

/-- A run comes to a summary when no job has crashed and all was written. -/
theorem ending_eq_finished {force crashed : Bool} {written : Except IoError Summary} {summary : Summary}
    (h : ending force crashed written = .finished summary) :
    crashed = false ∧ ∃ counts, written = .ok counts ∧ summary = { counts with forced := force } := by
  unfold ending at h
  split at h
  · cases h
  · rename_i hcrashed
    split at h <;> cases h
    exact ⟨Bool.eq_false_iff.2 hcrashed, _, rfl, rfl⟩

theorem run_of_queueTooLarge {force : Bool} (h : Record.update fs l.recordPath c = (.ok force, S))
    (hq : queueTooLarge (workers o) = true) :
    run c l analyzer o sources sink fs = ⟨.outOfMemory, [], sink, S⟩ := by
  rw [run, h]
  simp [hq]

end
end Dispatch
end Recheck
