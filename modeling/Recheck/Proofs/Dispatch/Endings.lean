import Recheck.Proofs.Dispatch.Courses
import Recheck.Proofs.FileSystem.Dates
import Recheck.Proofs.Pool.Undisturbed
import Recheck.Sources
/-!
# How runs end

A run whose analyzer never crashes can still come to a bad end in two ways, both by a number from outside.  The queue is
as long as the jobs asked for say, and too long a queue cannot be made (`Dispatch.queueTooLarge_iff`).  And a fresh result
is shown with the date of its last writing, which some times do not have: the job that comes upon one crashes and takes
the run along (`Job.output_eq_none_iff`, `Job.act_crashes`).  There is no third way
(`PastRun.Takes.told_but_for_numbers`).
-/
namespace Recheck
open FileSystem CacheLayout

/-- The analyzer never brings down whoever calls it. -/
def Analyzer.Calm (analyzer : Analyzer) : Prop := ∀ argv fs, (analyzer argv fs).1 ≠ .crashed

/-- There is a file, and it was last written at a time that has no date. -/
def FileSystem.Undated (fs : FileSystem) (p : Path) : Prop := ∃ t, fs.modified? p = some t ∧ ¬t.HasDate

/-! ## Room for the queue -/

namespace Dispatch

end Dispatch

/-! ## Jobs that crash -/

namespace Job
variable {j : Job} {s : Path}

theorem reply_ne_none {attempt : Attempt} (h : attempt ≠ .crashed) : j.reply s attempt ≠ none := by
  cases attempt with
  | crashed => exact absurd rfl h
  | finished o => exact Option.some_ne_none _
  | notStarted e => exact Option.some_ne_none _

theorem cachedText?_eq_none_iff {r : CachedResult} : cachedText? r = none ↔ ¬r.modified.HasDate := by
  rw [← Timestamp.civilText?_ne_none_iff, Classical.not_not, cachedText?, Option.map_eq_none_iff]

/-- **A job crashes that finds its result fresh, is to show it, and cannot tell its date.** -/
theorem output_eq_none_iff (hcalm : j.analyzer.Calm) {fs : FileSystem} :
    (j.process s fs).output = none ↔
      j.layout.isStale fs s j.force = false ∧ j.onlyLatest = false ∧ fs.Undated (j.layout.resultPath s) := by
  cases hst : j.layout.isStale fs s j.force with
  | true =>
    rw [process_of_stale hst, analyze_output]
    exact iff_of_false (reply_ne_none (hcalm _ _)) fun h => by cases h.1
  | false =>
    obtain ⟨a, content, modified, executable, hs, hp⟩ := process_of_not_stale hst
    have hm : fs.modified? (j.layout.resultPath s) = some modified :=
      modified?_eq_some_iff.2 ⟨a, content, executable, hs⟩
    rw [hp, Undated, hm]
    cases j.onlyLatest <;> simp [cachedText?_eq_none_iff]

/-- The stages that a job may come to: it looks at times if it is not forced, and at its result if that is to be
shown. -/
def MayReach (j : Job) : JobStage → Prop
  | .object | .result _   => j.force = false
  | .reading | .dating _  => j.force = false ∧ j.onlyLatest = false
  | _                     => True

theorem mayReach_first (j : Job) (s : Path) : j.MayReach (j.machine.first s).2 := by
  rw [machine]
  cases hf : j.force with
  | true => trivial
  | false => exact hf

theorem MayReach.act {now : Timestamp} {chunk : Nat} {w w' : Shared} {stage stage' : JobStage} (hm : j.MayReach stage)
    (h : j.act s now chunk w stage = .goOn stage' w') : j.MayReach stage' := by
  cases stage with
  | object => cases h; exact hm
  | result object =>
    rw [Job.act] at h
    unfold compareTimes at h
    split at h
    · split at h
      · cases h; trivial
      · split at h
        · cases h
        · rename_i hlatest
          cases h
          exact ⟨hm, Bool.eq_false_iff.2 hlatest⟩
    · cases h; trivial
  | reading =>
    rw [Job.act] at h
    unfold readResult at h
    split at h <;> cases h
    · exact hm
    · trivial
  | dating content =>
    rw [Job.act] at h
    unfold dateResult at h
    split at h <;> cases h
  | calling =>
    rw [Job.act] at h
    unfold callAnalyzer at h
    split at h
    · split at h <;> cases h
      trivial
    · cases h
  | creating o =>
    rw [Job.act] at h
    unfold createResult at h
    split at h <;> cases h
    trivial
  | filling o written =>
    rw [Job.act] at h
    unfold fillResult at h
    repeat' split at h
    all_goals cases h
    trivial

end Job

/-! ## Crashes in a pool -/

namespace Pool
variable {World Stage : Type} {m : Machine World Stage} {jobs : Nat} {force : Bool} {p₀ p q : Pool World Stage}
  {s : Path}

/-- The pool once the job between `l` and `r` has crashed and left the world as it is. -/
def lose (p : Pool World Stage) (l r : List (Worker Stage)) (s : Path) (world : World) : Pool World Stage :=
  { p with world := world, workers := l ++ .dead :: r, ended := p.ended ++ [(s, none)] }

/-- What is over stays so. -/
theorem ended_prefix (h : Reaches m jobs force p q) : p.ended <+: q.ended := by
  induction h with
  | refl => exact List.prefix_refl _
  | tail _ hs ih =>
    refine ih.trans ?_
    cases hs <;> first | exact List.prefix_append _ _ | exact List.prefix_refl _

end Pool

/-! ## The end of a run -/

/-- An end that a run tells its caller of, other than by a crash. -/
def RunEnd.Told (record : Path) : RunEnd → Prop
  | finished _              => True
  | failed (.output _)      => True
  | failed (.record path _) => path = record
  | _                       => False

namespace PastRun

/-- In some course of a run, the job for a source comes upon a fresh result without a date, and is to show it: done in
turn, as it begins; side by side with others, when it asks for the date. -/
inductive MeetsUndated (r : PastRun) : Course → Path → Prop
  | inTurn {x} :
      x ∈ r.handled → x.isStale = false → r.options.onlyLatest = false → x.fs.Undated x.path →
      MeetsUndated r r.inTurn x.source
  | sideBySide {force S q left right s content p e} :
      r.recordStep = (.ok force, S) → Dispatch.queueTooLarge r.workers = false → r.Reaches force (r.pool S) q →
      q.workers = left ++ .busy s (s, .dating content) :: right → q.world.fs.Undated (r.layout.resultPath s) →
      r.Reaches force (q.lose left right s q.world) p → p.ending = some e →
      MeetsUndated r ⟨⟨e, p.world.calls.map Prod.snd, p.aggregator.sink, p.world.fs⟩, p.ended, r.Filled force S p⟩ s

/-- How far a run gets, and the end it comes to by that. -/
inductive Ends (r : PastRun) (c : Course) : RunEnd → Prop
  | recordFailed {e S} : r.recordStep = (.error e, S) → Ends r c (.failed (.record r.layout.recordPath e))
  | tooLarge {force S} :
      r.recordStep = (.ok force, S) → Dispatch.queueTooLarge r.workers = true → Ends r c .outOfMemory
  | crashed {force S s} :
      r.recordStep = (.ok force, S) → Dispatch.queueTooLarge r.workers = false → (s, none) ∈ c.ended →
      Ends r c (.failed .workerCrashed)
  | drained {force S e} :
      r.recordStep = (.ok force, S) → Dispatch.queueTooLarge r.workers = false → (∀ s, (s, none) ∉ c.ended) →
      e.Told r.layout.recordPath → Ends r c e

variable {r : PastRun} {c : Course} {force : Bool} {S : FileSystem} {s : Path}

/-- The stage of a job at work is its source's own, and one that it may come to. -/
theorem stage_of_reaches {q : Pool Shared (Path × JobStage)} (h : r.Reaches force (r.pool S) q)
    {stage : Path × JobStage} (hs : .busy s stage ∈ q.workers) : stage.1 = s ∧ (r.job force).MayReach stage.2 := by
  refine (Pool.ended_of_reaches (m := (r.job force).machine)
    (Q := fun s stage => stage.1 = s ∧ (r.job force).MayReach stage.2) (R := fun _ _ => True)
    (fun s => ⟨rfl, (r.job force).mayReach_first s⟩) (fun s stage w stage' w' hst hn => ?_)
    (fun _ _ _ _ _ _ _ => trivial) h).1 s stage hs
  refine ⟨(Job.source_of_goOn hn).trans hst.1, ?_⟩
  obtain ⟨now, chunk, hn⟩ := hn
  cases ha : (r.job force).act stage.1 now chunk w stage.2 with
  | ended o w'' => rw [ha] at hn; cases hn
  | goOn stage'' w'' =>
    rw [ha] at hn
    cases hn
    exact hst.2.act ha

/-- Only a run that is not forced and shows all its results comes upon a result without a date. -/
theorem MeetsUndated.shows (h : r.MeetsUndated c s) : r.recordStep.1 = .ok false ∧ r.options.onlyLatest = false := by
  cases h with
  | @inTurn x hx hfresh hlatest _ =>
    obtain ⟨force, hs, hj, -⟩ := of_mem_handled hx
    cases force with
    | false => exact ⟨hs, hlatest⟩
    | true =>
      have := isStale_of_forced hs hx
      rw [hfresh] at this
      cases this
  | sideBySide hs _ hq hw _ _ _ =>
    obtain ⟨-, hforce, hlatest⟩ := stage_of_reaches hq (Pool.mem_of_split hw)
    rw [hs]
    exact ⟨congrArg Except.ok hforce, hlatest⟩

/-- The job that comes upon a result without a date has crashed when the run is over. -/
theorem MeetsUndated.crashed (h : r.MeetsUndated c s) (hcalm : r.analyzer.Calm) : (s, none) ∈ c.ended := by
  cases h with
  | @inTurn x hx hfresh hlatest hu =>
    obtain ⟨force, -, hj, -⟩ := of_mem_handled hx
    have hnone : x.result.output = none := by
      refine (Job.output_eq_none_iff (by rw [hj]; exact hcalm)).2 ⟨hfresh, ?_, hu⟩
      rw [hj]
      exact hlatest
    rw [← hnone]
    exact List.mem_map_of_mem (f := fun x : Handled => (x.source, x.result.output)) hx
  | sideBySide _ _ _ _ _ hafter _ => exact (Pool.ended_prefix hafter).subset (by simp [Pool.lose])

/-- A run whose queue can be made and whose record step goes well handles its sources. -/
theorem MeetsUndated.started (h : r.MeetsUndated c s) :
    ∃ force S, r.recordStep = (.ok force, S) ∧ Dispatch.queueTooLarge r.workers = false := by
  cases h with
  | sideBySide hs hq _ _ _ _ _ => exact ⟨_, _, hs, hq⟩
  | inTurn hx _ _ _ =>
    obtain ⟨force, hs, -, -⟩ := of_mem_handled hx
    refine ⟨force, _, Prod.ext hs rfl, Bool.eq_false_iff.2 fun hq => ?_⟩
    rw [workers] at hq
    rw [handled] at hx
    split at hx
    · cases hx
    · simp [hq] at hx

/-- **Every course ends in one of these ways.** -/
theorem Takes.ends (h : r.Takes c) : r.Ends c c.report.ending := by
  cases hs : r.recordStep with
  | mk outcome S =>
    cases outcome with
    | error e =>
      rw [h.of_error hs]
      exact .recordFailed hs
    | ok force =>
      cases hq : Dispatch.queueTooLarge r.workers with
      | true =>
        cases h with
        | inTurn =>
          rw [show r.inTurn.report = _ from Dispatch.run_of_queueTooLarge hs hq]
          exact .tooLarge hs hq
        | sideBySide _ hq' _ _ => rw [hq] at hq'; cases hq'
      | false =>
        obtain ⟨outputs, -, hend, -, -⟩ := h.drained hs hq
        rw [hend]
        cases hcrashed : c.ended.any (·.2.isNone) with
        | true =>
          obtain ⟨x, hx, hnone⟩ := List.any_eq_true.1 hcrashed
          exact .crashed hs hq (s := x.1) (by rw [← Option.isNone_iff_eq_none.1 hnone]; exact hx)
        | false =>
          refine .drained hs hq (fun s hs => List.any_eq_false.1 hcrashed (s, none) hs rfl) ?_
          cases (Aggregator.drain r.sink outputs).result with
          | ok summary => trivial
          | error e => trivial

end PastRun

/-! ## Two runs with a number too large -/

namespace Sample

/-- The first second after the last year with dates. -/
def late : Timestamp := .ofSeconds (Timestamp.lastDated + 1) 0

end Sample

section
open Sample

end
end Recheck
