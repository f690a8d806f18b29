import Recheck.Proofs.Dispatch.Draining
import Recheck.Proofs.Pool.Schedules
/-!
# Sinks that fail

A sink receives blocks up to its first failure, and nothing is written after that (`Aggregator.drain_eq_writeBlocks`).
Two runs that differ in their sinks and keep to one schedule call the analyzer alike and leave the same files
(`diverted_by_sink`): a sink that fails costs the blocks from the first failure on, and decides how the run ends unless a
job has crashed.
-/
namespace Recheck

/-! ## Blocks up to the first failure -/

namespace Sink

/-- Blocks one after the other, up to the first failure. -/
def writeBlocks : Sink → List String → Except IoError Unit × Sink
  | s, []          => (.ok (), s)
  | s, b :: blocks =>
    match s.writeBlock b with
    | (.ok _, s')    => s'.writeBlocks blocks
    | (.error e, s') => (.error e, s')

theorem flushed_of_writeBlock_error {s s' : Sink} {block : String} {e : IoError}
    (h : s.writeBlock block = (.error e, s')) : s'.flushed = s.flushed := by
  have hflush {s s' : Sink} (h : s.flush = (.error e, s')) : s'.flushed = s.flushed := by
    rw [flush] at h
    split at h <;> cases h
    rfl
  rw [writeBlock, write] at h
  by_cases he : block.isEmpty = true
  · simp only [he, if_true] at h
    exact hflush h
  · simp only [he] at h
    cases hw : s.writeFault s.writes with
    | some e' =>
      simp only [hw, Bool.false_eq_true, if_false] at h
      cases h
      rfl
    | none =>
      simp only [hw, Bool.false_eq_true, if_false] at h
      rw [hflush h]

theorem flushed_of_writeBlocks : ∀ {blocks : List String} {s s' : Sink}, s.pending = "" →
    s.writeBlocks blocks = (.ok (), s') → s'.flushed = s.flushed ++ blocks
  | [], s, s', _, h => by
    cases h
    rw [List.append_nil]
  | b :: blocks, s, s', hp, h => by
    rw [writeBlocks] at h
    cases hw : s.writeBlock b with
    | mk outcome s₁ =>
      rw [hw] at h
      cases outcome with
      | error e => cases h
      | ok _ =>
        obtain ⟨hp₁, hflushed⟩ := of_writeBlock hp hw
        rw [flushed_of_writeBlocks hp₁ h, hflushed, List.append_assoc, List.singleton_append]

/-- **The first block that fails**: those before it are written, and those after it not tried. -/
theorem writeBlocks_error {e : IoError} : ∀ {blocks : List String} {s s' : Sink},
    s.writeBlocks blocks = (.error e, s') → ∃ before block after s₁, blocks = before ++ block :: after ∧
      s.writeBlocks before = (.ok (), s₁) ∧ s₁.writeBlock block = (.error e, s')
  | [], s, s', h => by cases h
  | b :: blocks, s, s', h => by
    rw [writeBlocks] at h
    cases hw : s.writeBlock b with
    | mk outcome s₁ =>
      rw [hw] at h
      cases outcome with
      | error e' =>
        cases h
        exact ⟨[], b, blocks, s, rfl, rfl, hw⟩
      | ok _ =>
        obtain ⟨before, block, after, s₂, rfl, hbefore, hblock⟩ := writeBlocks_error h
        exact ⟨b :: before, block, after, s₂, rfl, by rw [writeBlocks, hw]; exact hbefore, hblock⟩

theorem Clear.writeBlocks : ∀ {s : Sink}, s.Clear → ∀ blocks : List String, ∃ s', s.writeBlocks blocks = (.ok (), s')
  | s, _, [] => ⟨s, rfl⟩
  | s, h, b :: blocks => by
    obtain ⟨s₁, hw, h₁⟩ := h.writeBlock b
    obtain ⟨s', hs'⟩ := h₁.writeBlocks blocks
    exact ⟨s', by rw [Sink.writeBlocks, hw]; exact hs'⟩

end Sink

namespace Aggregator

theorem foldl_push_of_fault {e : IoError} : ∀ (outputs : List JobOutput) {a : Aggregator}, a.fault = some e →
    (outputs.foldl push a).fault = some e ∧ (outputs.foldl push a).sink = a.sink
  | [], a, h => ⟨h, rfl⟩
  | o :: outputs, a, h => by
    have hpush : (a.push o).fault = some e ∧ (a.push o).sink = a.sink := by
      rw [push, h]
      exact ⟨rfl, rfl⟩
    obtain ⟨hfault, hsink⟩ := foldl_push_of_fault outputs hpush.1
    exact ⟨hfault, hsink.trans hpush.2⟩

theorem foldl_push_eq_writeBlocks : ∀ (outputs : List JobOutput) {a : Aggregator}, a.fault = none →
    (outputs.foldl push a).sink = (a.sink.writeBlocks (outputs.map JobOutput.block)).2 ∧
      (outputs.foldl push a).fault = match (a.sink.writeBlocks (outputs.map JobOutput.block)).1 with
        | .ok _    => none
        | .error e => some e
  | [], a, h => ⟨rfl, h⟩
  | o :: outputs, a, h => by
    rw [List.foldl_cons, List.map_cons, Sink.writeBlocks]
    cases hw : a.sink.writeBlock o.block with
    | mk outcome s' =>
      cases outcome with
      | ok _ =>
        have hpush : a.push o = ⟨a.summary.record o.outcome, none, s'⟩ := by rw [push, h, hw]
        rw [hpush]
        exact foldl_push_eq_writeBlocks outputs rfl
      | error e =>
        have hpush : a.push o = ⟨a.summary.record o.outcome, some e, s'⟩ := by rw [push, h, hw]
        rw [hpush]
        exact (foldl_push_of_fault outputs rfl).symm

/-- **What is written of some outputs is their blocks up to the first failure**, and all are counted. -/
theorem drain_eq_writeBlocks (sink : Sink) (outputs : List JobOutput) :
    (drain sink outputs).sink = (sink.writeBlocks (outputs.map JobOutput.block)).2 ∧
      (drain sink outputs).result = match (sink.writeBlocks (outputs.map JobOutput.block)).1 with
        | .ok _    => .ok ((outputs.map JobOutput.outcome).foldl Summary.record .empty)
        | .error e => .error e := by
  obtain ⟨hsink, hfault⟩ := foldl_push_eq_writeBlocks outputs (a := start sink) rfl
  refine ⟨hsink, ?_⟩
  have hsummary : (drain sink outputs).summary = (outputs.map JobOutput.outcome).foldl Summary.record .empty :=
    summary_foldl_push outputs (start sink)
  have hfault : (drain sink outputs).fault = _ := hfault
  rw [result, hsummary, hfault, start]
  cases (sink.writeBlocks (outputs.map JobOutput.block)).1 <;> rfl

end Aggregator

/-! ## Two sinks -/

/-- What another sink changes about the course `c` of a run into a sink that never fails: where a block fails, the blocks
before it are what the sink has received, no later one was tried, and the run fails. -/
structure Diverted (sink : Sink) (c c' : Course) : Prop where
  calls : c'.report.calls = c.report.calls
  fs : c'.report.fs = c.report.fs
  ended : c'.ended = c.ended
  sink :
    (sink.writeBlocks c.report.sink.flushed = (.ok (), c'.report.sink) ∧
      c'.report.sink.flushed = c.report.sink.flushed ∧ c'.report.ending = c.report.ending) ∨
    ∃ before block after e s, c.report.sink.flushed = before ++ block :: after ∧
      sink.writeBlocks before = (.ok (), s) ∧ s.writeBlock block = (.error e, c'.report.sink) ∧
      c'.report.sink.flushed = before ∧
      c'.report.ending = .failed (if c.ended.any (·.2.isNone) then .workerCrashed else .output e)

namespace PastRun

/-- The same run into another sink. -/
def into (r : PastRun) (sink : Sink) : PastRun := { r with sink }

section
variable {c c' : Course} {sink : Sink}

/-- What a sink makes of the same outputs. -/
theorem diverted_of_outputs (outputs : List JobOutput) (force : Bool) (hsink : sink.flushed = [] ∧ sink.pending = "")
    (hcalls : c'.report.calls = c.report.calls) (hfs : c'.report.fs = c.report.fs) (hended : c'.ended = c.ended)
    (hgood : c.report.sink = (Aggregator.drain .good outputs).sink)
    (hbad : c'.report.sink = (Aggregator.drain sink outputs).sink)
    (hgoodEnding : c.report.ending =
      Dispatch.ending force (c.ended.any (·.2.isNone)) (Aggregator.drain .good outputs).result)
    (hbadEnding : c'.report.ending =
      Dispatch.ending force (c.ended.any (·.2.isNone)) (Aggregator.drain sink outputs).result) :
    Diverted sink c c' := by
  have hblocks : c.report.sink.flushed = outputs.map JobOutput.block := by
    rw [hgood, (Aggregator.drain_clear Sink.clear_good outputs).2.2]
    rfl
  obtain ⟨hs, hr⟩ := Aggregator.drain_eq_writeBlocks sink outputs
  refine ⟨hcalls, hfs, hended, ?_⟩
  rw [hblocks]
  rw [hs] at hbad
  rw [hr] at hbadEnding
  cases hw : sink.writeBlocks (outputs.map JobOutput.block) with
  | mk outcome s' =>
    rw [hw] at hbad hbadEnding
    cases outcome with
    | ok _ =>
      refine .inl ⟨by rw [hbad], ?_, ?_⟩
      · rw [hbad, Sink.flushed_of_writeBlocks hsink.2 hw, hsink.1, List.nil_append]
      · rw [hbadEnding, hgoodEnding, (Aggregator.drain_eq_writeBlocks .good outputs).2]
        obtain ⟨s₀, hs₀⟩ := Sink.clear_good.writeBlocks (outputs.map JobOutput.block)
        rw [hs₀]
    | error e =>
      obtain ⟨before, block, after, s₁, hsplit, hbefore, hblock⟩ := Sink.writeBlocks_error hw
      refine .inr ⟨before, block, after, e, s₁, hsplit, hbefore, by rw [hblock, hbad], ?_, ?_⟩
      · rw [hbad, Sink.flushed_of_writeBlock_error hblock, Sink.flushed_of_writeBlocks hsink.2 hbefore, hsink.1,
          List.nil_append]
      · rw [hbadEnding, Dispatch.ending]
        cases c.ended.any (·.2.isNone) <;> rfl

/-- A run that comes to no job has written nothing. -/
theorem diverted_of_none {ending : RunEnd} {calls : List (List String)} {fs : FileSystem} (hsink : sink.flushed = [])
    (hended : c'.ended = c.ended) (hgood : c.report = ⟨ending, calls, .good, fs⟩)
    (hbad : c'.report = ⟨ending, calls, sink, fs⟩) : Diverted sink c c' := by
  refine ⟨?_, ?_, hended, .inl ⟨?_, ?_, ?_⟩⟩ <;> rw [hgood, hbad]
  · rfl
  · exact hsink

end

section
variable (r : PastRun) (writeFault flushFault : Nat → Option IoError)

theorem diverted_inTurn :
    Diverted (.fresh writeFault flushFault) (r.into .good).inTurn (r.into (.fresh writeFault flushFault)).inTurn := by
  cases hs : r.recordStep with
  | mk outcome S =>
    cases outcome with
    | error e =>
      have hreport (sink : Sink) : (r.into sink).report = _ := Dispatch.run_of_error hs
      exact diverted_of_none rfl rfl (hreport _) (hreport _)
    | ok force =>
      cases hq : Dispatch.queueTooLarge r.workers with
      | true =>
        have hreport (sink : Sink) : (r.into sink).report = _ := Dispatch.run_of_queueTooLarge hs hq
        exact diverted_of_none rfl rfl (hreport _) (hreport _)
      | false =>
        have hrun (sink : Sink) := report_of_ok (r := r.into sink) hs hq
        have hcrashed : (r.into .good).inTurn.ended.any (·.2.isNone) =
            (Dispatch.work (r.job force) r.workers r.sources S).crashed := by
          rw [inTurn, (hrun .good).1, Dispatch.work_crashed, List.any_map]
          rfl
        have hreport (sink : Sink) : (r.into sink).inTurn.report = _ := (hrun sink).2
        refine diverted_of_outputs (Dispatch.work (r.job force) r.workers r.sources S).outputs force ⟨rfl, rfl⟩ ?_ ?_ rfl
          ?_ ?_ ?_ ?_
        all_goals simp only [hcrashed, hreport]
        all_goals rfl

/-- By the same turns, two runs into different sinks come to states that differ in what was written alone. -/
theorem diverted_sideBySide (force : Bool) (S : FileSystem) (turns : List Turn) :
    Option.Rel (Diverted (.fresh writeFault flushFault))
      (((r.job force).play r.workers force turns ((r.into .good).pool S)).bind ((r.into .good).courseAt force S))
      (((r.job force).play r.workers force turns ((r.into (.fresh writeFault flushFault)).pool S)).bind
        ((r.into (.fresh writeFault flushFault)).courseAt force S)) := by
  have hplay : (r.job force).play r.workers force turns ((r.into (.fresh writeFault flushFault)).pool S) =
      ((r.job force).play r.workers force turns ((r.into .good).pool S)).map
        (Pool.redirect force (.fresh writeFault flushFault)) :=
    Job.play_redirect (Pool.accounted_start (⟨S, []⟩ : Shared)) turns _
  cases hp : (r.job force).play r.workers force turns ((r.into .good).pool S) with
  | none =>
    rw [hp] at hplay
    rw [hplay]
    exact .none
  | some p =>
    rw [hp, Option.map_some] at hplay
    have ha := Pool.accounted_of_reaches (Job.reaches_iff.2 ⟨turns, hp⟩)
    have hb := Pool.accounted_of_reaches (Job.reaches_iff.2 ⟨turns, hplay⟩)
    rw [hplay, Option.bind_some, Option.bind_some, courseAt, courseAt]
    cases he : p.ending with
    | none =>
      rw [show (p.redirect force (.fresh writeFault flushFault)).ending = none from by rw [Pool.redirect, he]; rfl]
      exact .none
    | some e =>
      obtain ⟨e', he'⟩ : ∃ e', (p.redirect force (.fresh writeFault flushFault)).ending = some e' :=
        ⟨_, by rw [Pool.redirect, he]; rfl⟩
      have hending := (ha.of_returned he).2.2.2
      rw [ha.aggregator] at hending
      rw [he']
      refine .some (diverted_of_outputs p.written force ⟨rfl, rfl⟩ rfl rfl rfl ?_ rfl hending
        (hb.of_returned he').2.2.2)
      show p.aggregator.sink = _
      rw [ha.aggregator]
      rfl

/-- **A sink that fails changes nothing but what is written and how the run ends.**  By every schedule that a run can keep
to, into a sink that never fails or one that fails in whatever way, it makes the same calls, leaves the same files and
ends the same jobs.  The other sink receives the same blocks up to the first that fails, and nothing is tried after that;
the run then fails with this failure, or with the crash of a worker if a job has crashed. -/
theorem diverted_by_sink (σ : Schedule) :
    Option.Rel (Diverted (.fresh writeFault flushFault)) ((r.into .good).courseBy σ)
      ((r.into (.fresh writeFault flushFault)).courseBy σ) := by
  cases σ with
  | inTurn => exact .some (r.diverted_inTurn writeFault flushFault)
  | sideBySide turns =>
    cases hs : r.recordStep with
    | mk outcome S =>
      cases outcome with
      | error e =>
        rw [courseBy_of_error (r := r.into .good) hs, courseBy_of_error (r := r.into (.fresh writeFault flushFault)) hs]
        exact .some (r.diverted_inTurn writeFault flushFault)
      | ok force =>
        cases hq : Dispatch.queueTooLarge r.workers with
        | true =>
          rw [courseBy_of_queueTooLarge (r := r.into .good) hs hq,
            courseBy_of_queueTooLarge (r := r.into (.fresh writeFault flushFault)) hs hq]
          exact .some (r.diverted_inTurn writeFault flushFault)
        | false =>
          rw [courseBy_sideBySide (r := r.into .good) hs hq,
            courseBy_sideBySide (r := r.into (.fresh writeFault flushFault)) hs hq]
          exact diverted_sideBySide r writeFault flushFault force S turns

end
end PastRun
end Recheck
