import Recheck.Dispatch.Summary
/-!
# What the aggregator does with outputs

All outputs are counted by their outcomes, whatever the sink does (`drain_summary`).  Where no write fails, the sink
receives every block whole, each flushed by itself, in the order of the outputs (`drain_written`); and so does a sink
that never fails (`drain_clear`).
-/
namespace Recheck

/-- A sink that never fails, with nothing left to flush. -/
structure Sink.Clear (s : Sink) : Prop where
  write : ∀ n, s.writeFault n = none
  flush : ∀ n, s.flushFault n = none
  pending : s.pending = ""

theorem Sink.clear_good : good.Clear := ⟨fun _ => rfl, fun _ => rfl, rfl⟩

theorem Sink.Clear.writeBlock {s : Sink} (h : s.Clear) (block : String) :
    ∃ s', s.writeBlock block = (.ok (), s') ∧ s'.Clear := by
  obtain ⟨hw, hf, hp⟩ := h
  rw [Sink.writeBlock, Sink.write]
  by_cases he : block = ""
  · subst he
    exact ⟨{ s with flushes := s.flushes + 1, flushed := s.flushed ++ [""] },
      by simp [Sink.flush, hf, hp], hw, hf, hp⟩
  · have hne : block.isEmpty = false := by rwa [Bool.eq_false_iff, ne_eq, String.isEmpty_iff]
    exact ⟨⟨s.writeFault, s.flushFault, s.writes + 1, s.flushes + 1, s.flushed ++ [block], ""⟩,
      by simp [Sink.flush, hne, hw, hf, hp], hw, hf, rfl⟩

/-- A block that is written is all that is flushed. -/
theorem Sink.of_writeBlock {s s' : Sink} {block : String} (hp : s.pending = "") (h : s.writeBlock block = (.ok (), s')) :
    s'.pending = "" ∧ s'.flushed = s.flushed ++ [block] := by
  have hflush {s s' : Sink} (h : s.flush = (.ok (), s')) : s'.pending = "" ∧ s'.flushed = s.flushed ++ [s.pending] := by
    rw [flush] at h
    split at h <;> cases h
    exact ⟨rfl, rfl⟩
  rw [writeBlock, write] at h
  by_cases he : block.isEmpty = true
  · simp only [he, if_true] at h
    obtain ⟨hp', hflushed⟩ := hflush h
    exact ⟨hp', by rw [hflushed, hp, String.isEmpty_iff.1 he]⟩
  · simp only [he] at h
    cases hw : s.writeFault s.writes with
    | some e => rw [hw] at h; cases h
    | none =>
      simp only [hw, Bool.false_eq_true, if_false, hp, String.empty_append] at h
      exact hflush h

/-! ## Counting outcomes -/

namespace Outcome

def isAnalyzed : Outcome → Bool
  | analyzed _ => true
  | _          => false

/-- The analyzer ran and did not end with zero. -/
def isAnalyzerFailure : Outcome → Bool
  | analyzed exitCode => exitCode ≠ some 0
  | _                 => false

end Outcome

namespace Summary

theorem total_record (s : Summary) (o : Outcome) : (s.record o).total = s.total + 1 := by
  cases o <;> simp [record, total] <;> omega

/-- The summary of some outcomes: how many there are of each kind. -/
def ofOutcomes (outcomes : List Outcome) : Summary where
  forced := false
  analyzed := outcomes.countP Outcome.isAnalyzed
  analyzerFailures := outcomes.countP Outcome.isAnalyzerFailure
  cached := outcomes.count .cached
  skipped := outcomes.count .skipped
  errors := outcomes.count .failed

/-- One more outcome is counted once more, under its kind. -/
theorem ofOutcomes_concat (outcomes : List Outcome) (o : Outcome) :
    ofOutcomes (outcomes ++ [o]) = (ofOutcomes outcomes).record o := by
  cases o with
  | analyzed exitCode =>
    by_cases h : exitCode = some 0 <;>
      simp [ofOutcomes, record, h, List.countP_cons, Outcome.isAnalyzed, Outcome.isAnalyzerFailure]
  | cached => simp [ofOutcomes, record, Outcome.isAnalyzed, Outcome.isAnalyzerFailure]
  | skipped => simp [ofOutcomes, record, Outcome.isAnalyzed, Outcome.isAnalyzerFailure]
  | failed => simp [ofOutcomes, record, Outcome.isAnalyzed, Outcome.isAnalyzerFailure]

/-- **Outcomes recorded one by one are counted by their kinds.** -/
theorem foldl_record_ofOutcomes : ∀ outcomes before : List Outcome,
    outcomes.foldl record (ofOutcomes before) = ofOutcomes (before ++ outcomes)
  | [], before => by rw [List.foldl_nil, List.append_nil]
  | o :: outcomes, before => by
    rw [List.foldl_cons, ← ofOutcomes_concat, foldl_record_ofOutcomes outcomes, List.append_assoc,
      List.singleton_append]

end Summary

/-! ## Outputs one after the other -/

namespace Aggregator

theorem push_summary (a : Aggregator) (o : JobOutput) : (a.push o).summary = a.summary.record o.outcome := by
  rw [push]
  cases a.fault with
  | some e => rfl
  | none =>
    simp only
    split <;> rfl

theorem summary_foldl_push : ∀ (outputs : List JobOutput) (a : Aggregator),
    (outputs.foldl push a).summary = (outputs.map JobOutput.outcome).foldl Summary.record a.summary
  | [], _ => rfl
  | o :: outputs, a => by rw [List.foldl_cons, summary_foldl_push outputs, push_summary, List.map_cons, List.foldl_cons]

/-- **Whatever the sink does, the summary counts the outputs** by their outcomes. -/
theorem drain_summary (sink : Sink) (outputs : List JobOutput) :
    (drain sink outputs).summary = .ofOutcomes (outputs.map JobOutput.outcome) := by
  rw [drain, summary_foldl_push]
  exact Summary.foldl_record_ofOutcomes _ []

/-- The errors counted are the outputs of jobs that failed. -/
theorem drain_errors (sink : Sink) (outputs : List JobOutput) :
    (drain sink outputs).summary.errors = (outputs.map JobOutput.outcome).count .failed := by
  rw [drain_summary]
  rfl

theorem drain_result {sink : Sink} {outputs : List JobOutput} {summary : Summary}
    (h : (drain sink outputs).result = .ok summary) : summary = (drain sink outputs).summary := by
  rw [result] at h
  split at h <;> cases h
  rfl

/-- What the outputs of fresh results come to: all are counted under the one name. -/
theorem drain_fresh (sink : Sink) {outputs : List JobOutput} {onlyLatest : Bool}
    (h : ∀ o ∈ outputs, o.outcome = if onlyLatest then .skipped else .cached) :
    (drain sink outputs).summary =
      ⟨false, 0, 0, if onlyLatest then 0 else outputs.length, if onlyLatest then outputs.length else 0, 0⟩ := by
  have hall : outputs.map JobOutput.outcome =
      List.replicate outputs.length (if onlyLatest then .skipped else .cached) := by
    refine List.eq_replicate_iff.2 ⟨List.length_map _, fun outcome ho => ?_⟩
    obtain ⟨o, hmem, rfl⟩ := List.mem_map.1 ho
    exact h o hmem
  rw [drain_summary, hall]
  cases onlyLatest <;>
    simp [Summary.ofOutcomes, Outcome.isAnalyzed, Outcome.isAnalyzerFailure, List.countP_replicate,
      List.count_replicate]

theorem total_foldl_push : ∀ (outputs : List JobOutput) (a : Aggregator),
    (outputs.foldl push a).summary.total = a.summary.total + outputs.length
  | [], _ => rfl
  | o :: outputs, a => by
    rw [List.foldl_cons, total_foldl_push outputs, push_summary, Summary.total_record, List.length_cons]
    omega

theorem drain_total (sink : Sink) (outputs : List JobOutput) :
    (drain sink outputs).summary.total = outputs.length := by
  rw [drain, total_foldl_push]
  simp [start, Summary.empty, Summary.total]

/-- The first failure stays. -/
theorem fault_of_foldl_push : ∀ {outputs : List JobOutput} {a : Aggregator}, (outputs.foldl push a).fault = none →
    a.fault = none
  | [], _, h => h
  | o :: outputs, a, h => by
    have h : (a.push o).fault = none := fault_of_foldl_push (show (outputs.foldl push (a.push o)).fault = none from h)
    cases ha : a.fault with
    | none => rfl
    | some e =>
      rw [push, ha] at h
      cases h

theorem push_written {a : Aggregator} {o : JobOutput} (hf : (a.push o).fault = none) (hp : a.sink.pending = "") :
    (a.push o).sink.pending = "" ∧ (a.push o).sink.flushed = a.sink.flushed ++ [o.block] := by
  cases ha : a.fault with
  | some e =>
    rw [push, ha] at hf
    cases hf
  | none =>
    cases hw : a.sink.writeBlock o.block with
    | mk outcome s' =>
      rw [push, ha, hw] at hf ⊢
      cases outcome with
      | error e => cases hf
      | ok _ => exact Sink.of_writeBlock hp hw

theorem foldl_push_written : ∀ (outputs : List JobOutput) (a : Aggregator), (outputs.foldl push a).fault = none →
    a.sink.pending = "" → (outputs.foldl push a).sink.flushed = a.sink.flushed ++ outputs.map JobOutput.block
  | [], a, _, _ => by simp
  | o :: outputs, a, hf, hp => by
    rw [List.foldl_cons] at hf ⊢
    obtain ⟨hp', hflushed⟩ := push_written (fault_of_foldl_push hf) hp
    rw [foldl_push_written outputs (a.push o) hf hp', hflushed, List.map_cons, List.append_assoc, List.singleton_append]

/-- **What was written without failure is every block**, whole and in order, and nothing else. -/
theorem drain_written {sink : Sink} {outputs : List JobOutput} {summary : Summary}
    (h : (drain sink outputs).result = .ok summary) (hp : sink.pending = "") :
    (drain sink outputs).sink.flushed = sink.flushed ++ outputs.map JobOutput.block := by
  rw [result] at h
  split at h
  · cases h
  · rename_i hf
    exact foldl_push_written outputs (start sink) hf hp

theorem foldl_push_clear : ∀ (outputs : List JobOutput) (a : Aggregator), a.fault = none → a.sink.Clear →
    (outputs.foldl push a).fault = none ∧ (outputs.foldl push a).sink.Clear
  | [], _, hf, hs => ⟨hf, hs⟩
  | o :: outputs, a, hf, hs => by
    obtain ⟨s', hw, hs'⟩ := hs.writeBlock o.block
    have hpush : a.push o = ⟨a.summary.record o.outcome, none, s'⟩ := by rw [push, hf, hw]
    exact foldl_push_clear outputs (a.push o) (by rw [hpush]) (by rw [hpush]; exact hs')

/-- **A sink that never fails receives every block whole and in order, and nothing else.** -/
theorem drain_clear {sink : Sink} (h : sink.Clear) (outputs : List JobOutput) :
    (drain sink outputs).fault = none ∧ (drain sink outputs).sink.Clear ∧
      (drain sink outputs).sink.flushed = sink.flushed ++ outputs.map JobOutput.block := by
  obtain ⟨hf, hc⟩ := foldl_push_clear outputs (start sink) rfl h
  exact ⟨hf, hc, foldl_push_written outputs (start sink) hf h.pending⟩

theorem result_of_clear {sink : Sink} (h : sink.Clear) (outputs : List JobOutput) :
    (drain sink outputs).result = .ok (drain sink outputs).summary := by
  rw [result, (drain_clear h outputs).1]

end Aggregator
end Recheck
