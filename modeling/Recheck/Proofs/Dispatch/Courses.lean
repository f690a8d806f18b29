import Mathlib.Data.List.Basic
import Recheck.Proofs.Dispatch.Histories
import Recheck.Proofs.Pool.FileSteps
/-!
# Courses of runs

A run may do its jobs in turn, or the workers of a pool do them step by step and in whatever order (`PastRun.Takes`).
Either way, what neither a call of the analyzer nor the writing of a result changes holds after the run
(`Takes.preserves`), and the sink and the end of the run are what the outputs of the jobs come to (`Takes.drained`).
-/
namespace Recheck
open FileSystem CacheLayout

/-! ## The latest answer kept -/

/-- The answer that was left in the result of a source that was started. -/
def Handled.kept? (x : Handled) : Option AnalyzerOutput := x.job.kept? x.source x.fs

/-- The latest job for a source whose answer was kept. -/
def latestKept (source : Path) (log : List Handled) : Option Handled :=
  log.find? fun y => y.source == source && y.kept?.isSome

section
variable {source : Path} {x y : Handled} {log : List Handled}

theorem latestKept_some (h : latestKept source log = some y) : y ∈ log ∧ y.source = source := by
  have hp := List.find?_some h
  rw [Bool.and_eq_true, beq_iff_eq] at hp
  exact ⟨List.mem_of_find?_eq_some h, hp.1⟩

theorem latestKept_cons {a : AnalyzerOutput} (ha : x.kept? = some a) : latestKept x.source (x :: log) = some x := by
  rw [latestKept, List.find?_cons_of_pos]
  simp [ha]

theorem latestKept_cons_of_none (hn : x.kept? = none) : latestKept source (x :: log) = latestKept source log := by
  rw [latestKept, List.find?_cons_of_neg]
  · rfl
  · simp [hn]

theorem latestKept_cons_of_ne (hne : x.source ≠ source) : latestKept source (x :: log) = latestKept source log := by
  rw [latestKept, List.find?_cons_of_neg]
  · rfl
  · simp [hne]

end

/-- The latest answer that was left in the result of a source. -/
def KeptIn (log : List Handled) (s : Path) (a : AnalyzerOutput) : Prop := ∃ y, latestKept s log = some y ∧ y.kept? = some a

section
variable {log : List Handled} {x : Handled} {s : Path} {a : AnalyzerOutput}

theorem not_keptIn_nil : ¬KeptIn [] s a := fun ⟨_, hy, _⟩ => by cases hy

theorem keptIn_cons (ha : x.kept? = some a) : KeptIn (x :: log) x.source a := ⟨x, latestKept_cons ha, ha⟩

theorem keptIn_cons_of_none (hn : x.kept? = none) : KeptIn (x :: log) s = KeptIn log s := by
  funext a
  rw [KeptIn, latestKept_cons_of_none hn, KeptIn]

theorem keptIn_cons_of_ne (hne : x.source ≠ s) : KeptIn (x :: log) s = KeptIn log s := by
  funext a
  rw [KeptIn, latestKept_cons_of_ne hne, KeptIn]

end

/-! ## Courses -/

/-- How a run went. -/
structure Course where
  report : RunReport
  /-- The sources whose jobs are over, with their outputs. -/
  ended : List (Path × Option JobOutput)
  /-- The source's result was written, with this answer and to its end, and no later one. -/
  kept : Path → AnalyzerOutput → Prop

namespace Job

section
variable {j : Job} {P : FileSystem → Prop}

/-- What neither a call nor the writing of its result changes is there after a job. -/
theorem process_preserves (s : Path) (hcall : ∀ argv fs, P fs → P (j.analyzer argv fs).2)
    (hwrite : ∀ now content fs fs', P fs → fs.writeAt now (j.layout.resultPath s) content = .ok fs' → P fs')
    {fs : FileSystem} (h : P fs) : P (j.process s fs).fs := by
  rcases j.process_fs s fs with ⟨-, hfs⟩ | ⟨-, -, hfs⟩ | ⟨o, -, hw⟩
  · rw [hfs]
    exact h
  · rw [hfs]
    exact hcall _ _ h
  · exact hwrite (j.call s fs).2.clock (Utf8.encode o.text) _ _ (hcall _ _ h) hw

theorem act_preserves {s : Path} {stage : JobStage} {w : Shared} {n : Next Shared (Path × JobStage)}
    (hcall : ∀ argv fs, P fs → P (j.analyzer argv fs).2)
    (hwrite : ∀ now content fs fs', P fs → fs.writeAt now (j.layout.resultPath s) content = .ok fs' → P fs')
    (h : P w.fs) (hn : j.machine.next (s, stage) w n) : P n.world.fs := by
  obtain ⟨now, chunk, rfl⟩ := hn
  rw [Next.world_map]
  rcases j.act_fs s now chunk w stage with hfs | hfs | ⟨content, hw⟩
  · rw [hfs]
    exact h
  · rw [hfs]
    exact hcall _ _ h
  · exact hwrite now content _ _ h hw

/-- A job stays with its source. -/
theorem source_of_goOn {j : Job} {stage stage' : Path × JobStage} {w w' : Shared}
    (h : j.machine.next stage w (.goOn stage' w')) : stage'.1 = stage.1 := by
  obtain ⟨now, chunk, hn⟩ := h
  cases ha : j.act stage.1 now chunk w stage.2 with
  | goOn stage'' w'' =>
    rw [ha] at hn
    cases hn
    rfl
  | ended o w'' =>
    rw [ha] at hn
    cases hn

end
end Job

namespace PastRun

def workers (r : PastRun) : Nat := Dispatch.workers r.options

/-- The pool of a run on the files that its record step left. -/
def pool (r : PastRun) (S : FileSystem) : Pool Shared (Path × JobStage) := .start r.workers r.sources r.sink ⟨S, []⟩

def Reaches (r : PastRun) (force : Bool) (p q : Pool Shared (Path × JobStage)) : Prop :=
  Pool.Reaches (r.job force).machine r.workers force p q

/-- On the way to a state, the answer for a source was written to its end. -/
def Filled (r : PastRun) (force : Bool) (S : FileSystem) (p : Pool Shared (Path × JobStage)) (s : Path)
    (a : AnalyzerOutput) : Prop :=
  ∃ q n, r.Reaches force (r.pool S) q ∧ r.Reaches force q p ∧ .busy s (s, .filling a n) ∈ q.workers ∧
    (Utf8.encode a.text).size ≤ n

/-- The course of a run that does its jobs one after the other. -/
def inTurn (r : PastRun) : Course :=
  ⟨r.report, r.handled.map fun x => (x.source, x.result.output), KeptIn r.handled.reverse⟩

/-- The ways a run can go. -/
inductive Takes (r : PastRun) : Course → Prop
  | inTurn : Takes r r.inTurn
  | sideBySide {force S p e} :
      r.recordStep = (.ok force, S) → Dispatch.queueTooLarge r.workers = false → r.Reaches force (r.pool S) p →
      p.ending = some e →
      Takes r ⟨⟨e, p.world.calls.map Prod.snd, p.aggregator.sink, p.world.fs⟩, p.ended, r.Filled force S p⟩

theorem workers_pos (r : PastRun) : 0 < r.workers := Nat.le_max_left _ _

variable {r : PastRun} {c : Course} {force : Bool} {S : FileSystem}

theorem report_of_ok (hs : r.recordStep = (.ok force, S)) (hq : Dispatch.queueTooLarge r.workers = false) :
    r.handled = Dispatch.started (r.job force) r.workers r.sources S ∧
      r.report =
        let w := Dispatch.work (r.job force) r.workers r.sources S
        let a := Aggregator.drain r.sink w.outputs
        ⟨Dispatch.ending force w.crashed a.result, w.calls, a.sink, w.fs⟩ := by
  rw [workers] at hq
  refine ⟨?_, Dispatch.run_of_ok hs hq⟩
  rw [handled, hs, hq]
  rfl

theorem report_calls (r : PastRun) : r.report.calls = r.handled.flatMap fun x => x.result.calls := by
  cases hs : r.recordStep with
  | mk outcome S =>
    cases outcome with
    | error e =>
      rw [show r.report = _ from Dispatch.run_of_error hs, handled, hs]
      rfl
    | ok force =>
      cases hq : Dispatch.queueTooLarge r.workers with
      | true =>
        rw [show r.report = _ from Dispatch.run_of_queueTooLarge hs hq, handled, hs]
        rw [workers] at hq
        simp [hq]
      | false =>
        obtain ⟨hhandled, hreport⟩ := report_of_ok hs hq
        rw [hhandled, hreport, ← Dispatch.work_calls]

/-- A run whose record step fails goes in one way only. -/
theorem Takes.of_error {e : IoError} (h : r.Takes c) (hs : r.recordStep = (.error e, S)) :
    c.report = ⟨.failed (.record r.layout.recordPath e), [], r.sink, S⟩ := by
  cases h with
  | inTurn => exact Dispatch.run_of_error hs
  | sideBySide hs' => rw [hs] at hs'; cases hs'

/-- A run that comes to a summary got past its record step and could make its queue. -/
theorem Takes.of_finished {summary : Summary} (h : r.Takes c) (hend : c.report.ending = .finished summary) :
    ∃ force S, r.recordStep = (.ok force, S) ∧ Dispatch.queueTooLarge r.workers = false := by
  cases h with
  | sideBySide hs hq => exact ⟨_, _, hs, hq⟩
  | inTurn =>
    dsimp only [PastRun.inTurn] at hend
    cases hs : r.recordStep with
    | mk outcome S =>
      cases outcome with
      | error e =>
        rw [show r.report = _ from Dispatch.run_of_error hs] at hend
        cases hend
      | ok force =>
        cases hq : Dispatch.queueTooLarge r.workers with
        | false => exact ⟨force, S, rfl, rfl⟩
        | true =>
          rw [show r.report = _ from Dispatch.run_of_queueTooLarge hs hq] at hend
          cases hend

theorem Takes.of_mem_ended (h : r.Takes c) {x : Path × Option JobOutput} (hx : x ∈ c.ended) :
    x.1 ∈ r.sources ∧ ∃ force S, r.recordStep = (.ok force, S) := by
  cases h with
  | inTurn =>
    obtain ⟨y, hy, rfl⟩ := List.mem_map.1 hx
    obtain ⟨force, hs, -, hmem⟩ := of_mem_handled hy
    exact ⟨hmem, force, _, by rw [← hs]⟩
  | sideBySide hs _ hr => exact ⟨(Pool.accounted_of_reaches hr).mem_of_at (.ended hx), _, _, hs⟩

/-- **What neither a call nor the writing of a result of its sources changes holds after a run**, if it did after the
record step. -/
theorem Takes.preserves (h : r.Takes c) (hs : r.recordStep = (.ok force, S)) {P : FileSystem → Prop} (hP : P S)
    (hcall : ∀ argv fs, P fs → P (r.analyzer argv fs).2)
    (hwrite : ∀ s ∈ r.sources, ∀ now content fs fs',
      P fs → fs.writeAt now (r.layout.resultPath s) content = .ok fs' → P fs') :
    P c.report.fs := by
  cases h with
  | inTurn =>
    show P r.report.fs
    simp only [r.report_fs, hs]
    split
    · exact hP
    · exact (@Dispatch.started_induct (r.job force) (fun _ fs => P fs) r.sources _ S [] (fun _ s _ hmem hk =>
        Job.process_preserves (j := r.job force) s hcall (hwrite s hmem) hk) hP).1
  | sideBySide hs' hq hr he =>
    rw [hs] at hs'
    cases hs'
    refine (Pool.world_of_reaches (m := (r.job force).machine) (P := fun w => P w.fs)
      (Q := fun stage => stage.1 ∈ r.sources) (fun s hmem => hmem) ?_ hr hP).1
    intro stage w n hmem hw hn
    refine ⟨Job.act_preserves (j := r.job force) hcall (hwrite stage.1 hmem) hw hn, fun stage' w' hgo => ?_⟩
    subst hgo
    rw [Job.source_of_goOn hn]
    exact hmem

/-- **What a run comes to follows from the outputs of its jobs**, in some order; and if no job has crashed, each source has
had its job. -/
theorem Takes.drained (h : r.Takes c) (hs : r.recordStep = (.ok force, S))
    (hq : Dispatch.queueTooLarge r.workers = false) :
    ∃ outputs, (c.ended.filterMap Prod.snd).Perm outputs ∧
      c.report.ending =
        Dispatch.ending force (c.ended.any (·.2.isNone)) (Aggregator.drain r.sink outputs).result ∧
      c.report.sink = (Aggregator.drain r.sink outputs).sink ∧
      ((∀ x ∈ c.ended, x.2 ≠ none) → (c.ended.map Prod.fst).Perm r.sources) := by
  cases h with
  | inTurn =>
    obtain ⟨hhandled, hreport⟩ := report_of_ok hs hq
    dsimp only [PastRun.inTurn]
    refine ⟨(Dispatch.work (r.job force) r.workers r.sources S).outputs, ?_, ?_, ?_, fun hall => ?_⟩
    · rw [hhandled, Dispatch.work_outputs, List.filterMap_map]
      exact .refl _
    · have hcrashed : (r.handled.map fun x => (x.source, x.result.output)).any (·.2.isNone) =
          (Dispatch.work (r.job force) r.workers r.sources S).crashed := by
        rw [hhandled, List.any_map, Dispatch.work_crashed]
        rfl
      rw [hcrashed]
      exact congrArg RunReport.ending hreport
    · exact congrArg RunReport.sink hreport
    · obtain ⟨n, hn⟩ := Nat.exists_eq_add_one_of_ne_zero (Nat.pos_iff_ne_zero.1 r.workers_pos)
      rw [hhandled, hn] at hall ⊢
      rw [List.map_map]
      refine .of_eq (Dispatch.map_source_started_of_outputs _ n _ _ fun x hx => ?_)
      exact hall (x.source, x.result.output) (List.mem_map_of_mem hx)
  | @sideBySide _ _ p _ hs' _ hr he =>
    rw [hs] at hs'
    cases hs'
    have ha := Pool.accounted_of_reaches hr
    obtain ⟨hstarted, hwritten, hsources, hend⟩ := ha.of_returned he
    rw [ha.aggregator] at hend
    refine ⟨_, hwritten, hend, by rw [ha.aggregator], fun hall => ?_⟩
    rcases hsources with hcount | hsources
    · -- the workers are not all dead, since none is
      have hnone : p.ended.countP (·.2.isNone) = 0 :=
        List.countP_eq_zero.2 fun x hx hn => hall x hx (Option.isNone_iff_eq_none.1 hn)
      rw [hnone] at hcount
      exact absurd hcount (Nat.ne_of_lt r.workers_pos)
    · rw [← hsources]
      exact hstarted.symm

/-- Only a record step that fails makes a run end so. -/
theorem Takes.of_record_failed {path : Path} {e : IoError} (h : r.Takes c)
    (hend : c.report.ending = .failed (.record path e)) : ∃ S, r.recordStep = (.error e, S) := by
  cases hs : r.recordStep with
  | mk outcome S =>
    cases outcome with
    | error e' =>
      rw [h.of_error hs] at hend
      cases hend
      exact ⟨S, rfl⟩
    | ok force =>
      cases hq : Dispatch.queueTooLarge r.workers with
      | true =>
        cases h with
        | inTurn =>
          have hover : r.report.ending = .outOfMemory := congrArg RunReport.ending (Dispatch.run_of_queueTooLarge hs hq)
          rw [show r.inTurn.report = r.report from rfl, hover] at hend
          cases hend
        | sideBySide _ hq' => rw [hq] at hq'; cases hq'
      | false =>
        obtain ⟨_, -, hending, -, -⟩ := h.drained hs hq
        rw [hending] at hend
        unfold Dispatch.ending at hend
        split at hend
        · cases hend
        · split at hend <;> cases hend

/-- Where the output of every job is known, so is what the run comes to, but for the order. -/
theorem Takes.drained_of_outputs (h : r.Takes c) (hs : r.recordStep = (.ok force, S))
    (hq : Dispatch.queueTooLarge r.workers = false) {out : Path → JobOutput}
    (hall : ∀ x ∈ c.ended, x.2 = some (out x.1)) :
    ∃ outputs, outputs.Perm (r.sources.map out) ∧
      c.report.ending = Dispatch.ending force false (Aggregator.drain r.sink outputs).result ∧
      c.report.sink = (Aggregator.drain r.sink outputs).sink := by
  obtain ⟨outputs, hperm, hending, hsink, hsources⟩ := h.drained hs hq
  have hcrashed : c.ended.any (·.2.isNone) = false :=
    List.any_eq_false.2 fun x hx => by rw [hall x hx]; exact Bool.false_ne_true
  have houtputs : c.ended.filterMap Prod.snd = (c.ended.map Prod.fst).map out := by
    rw [List.filterMap_congr hall, List.filterMap_eq_map', List.map_map]
    rfl
  rw [hcrashed] at hending
  refine ⟨outputs, ?_, hending, hsink⟩
  rw [houtputs] at hperm
  exact hperm.symm.trans ((hsources fun x hx => by rw [hall x hx]; exact nofun).map out)

end PastRun

/-- The files after the runs of a history, the latest run first, each with one of the courses it could take, and with steps
of other kinds between them. -/
inductive Chronicle (objects : Path) (between : FileSystem → FileSystem → Prop) (fs₀ : FileSystem) :
    List (PastRun × Course) → FileSystem → Prop
  | start : Chronicle objects between fs₀ [] fs₀
  | between {trips fs fs'} :
      Chronicle objects between fs₀ trips fs → between fs fs' → Chronicle objects between fs₀ trips fs'
  | run {trips r c} :
      Chronicle objects between fs₀ trips r.before → r.layout.objectsDir = objects → r.Takes c →
      Chronicle objects between fs₀ ((r, c) :: trips) c.report.fs

end Recheck
