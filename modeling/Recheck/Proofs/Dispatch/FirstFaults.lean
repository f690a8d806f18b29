import Recheck.Proofs.Dispatch.FailingSinks
/-!
# The first failure of a sink

A sink is given by which of its writes and which of its flushes fail.  Blocks come to one write each, unless they are
empty, and to one flush each; so which operation is the first to fail can be read off the pattern (`FirstFault`), and
nothing else decides what the aggregator leaves: the whole sink, down to the number of operations tried, and the result
(`drain_with_faults`).  The outputs are counted one by one in any case.
-/
namespace Recheck

namespace Sink

/-- The writes that some blocks come to; an empty block is not written. -/
def writesOf (blocks : List String) : Nat := blocks.countP (· ≠ "")

variable (writeFault flushFault : Nat → Option IoError)

/-- A sink that has received some blocks, each flushed by itself, and nothing else. -/
def holding (blocks : List String) : Sink :=
  ⟨writeFault, flushFault, writesOf blocks, blocks.length, blocks, ""⟩

/-- None of the operations that some blocks come to fails. -/
structure Receives (blocks : List String) : Prop where
  writes : ∀ n < writesOf blocks, writeFault n = none
  flushes : ∀ n < blocks.length, flushFault n = none

/-- The operation on a block that fails, after the blocks `before` it: writing it, or flushing it once it is written.
What is left is the sink with nothing tried after that. -/
inductive FirstFault (before : List String) (block : String) (e : IoError) : Sink → Prop
  | write : block ≠ "" → writeFault (writesOf before) = some e →
      FirstFault before block e
        ⟨writeFault, flushFault, writesOf before + 1, before.length, before, ""⟩
  | flush : (block ≠ "" → writeFault (writesOf before) = none) → flushFault before.length = some e →
      FirstFault before block e
        ⟨writeFault, flushFault, writesOf (before ++ [block]), before.length + 1, before, block⟩

variable {writeFault flushFault} {before blocks : List String} {block : String} {e : IoError} {s : Sink}

theorem writesOf_concat (blocks : List String) (block : String) :
    writesOf (blocks ++ [block]) = writesOf blocks + if block = "" then 0 else 1 := by
  by_cases h : block = "" <;> simp [writesOf, List.countP_append, h]

theorem writesOf_le_append (blocks blocks' : List String) : writesOf blocks ≤ writesOf (blocks ++ blocks') := by
  rw [writesOf, writesOf, List.countP_append]
  omega

/-- What fails at one block is not received, whatever comes after it. -/
theorem FirstFault.not_receives (h : FirstFault writeFault flushFault before block e s) (after : List String) :
    ¬Receives writeFault flushFault (before ++ block :: after) := by
  rintro ⟨hwrites, hflushes⟩
  cases h with
  | write hne hw =>
    have hlt : writesOf before < writesOf (before ++ block :: after) := by
      have := writesOf_concat before block
      have := writesOf_le_append (before ++ [block]) after
      rw [List.append_assoc, List.singleton_append] at this
      simp only [hne, if_false] at *
      omega
    rw [hwrites _ hlt] at hw
    cases hw
  | flush _ hf =>
    rw [hflushes _ (by simp)] at hf
    cases hf

theorem Receives.concat (h : Receives writeFault flushFault before)
    (hwrite : block ≠ "" → writeFault (writesOf before) = none) (hflush : flushFault before.length = none) :
    Receives writeFault flushFault (before ++ [block]) := by
  refine ⟨fun n hn => ?_, fun n hn => ?_⟩
  · by_cases hlt : n < writesOf before
    · exact h.writes n hlt
    · rw [writesOf_concat] at hn
      split at hn
      · omega
      · rename_i hne
        obtain rfl : n = writesOf before := by omega
        exact hwrite hne
  · by_cases hlt : n < before.length
    · exact h.flushes n hlt
    · rw [List.length_append, List.length_singleton] at hn
      obtain rfl : n = before.length := by omega
      exact hflush

/-- A block whose writing does not fail waits to be flushed. -/
theorem write_holding (hwrite : block ≠ "" → writeFault (writesOf before) = none) :
    (holding writeFault flushFault before).write block =
      (.ok (), ⟨writeFault, flushFault, writesOf (before ++ [block]), before.length, before, block⟩) := by
  rw [writesOf_concat, write, holding]
  by_cases hne : block = ""
  · subst hne
    rfl
  · have hempty : block.isEmpty = false := by rwa [Bool.eq_false_iff, ne_eq, String.isEmpty_iff]
    simp [hempty, hwrite hne, hne]

/-- **One block**: the sink holds it as well, or an operation on it is the first to fail. -/
theorem writeBlock_holding (h : Receives writeFault flushFault before) (block : String) :
    (Receives writeFault flushFault (before ++ [block]) ∧
      (holding writeFault flushFault before).writeBlock block =
        (.ok (), holding writeFault flushFault (before ++ [block]))) ∨
    ∃ e s, FirstFault writeFault flushFault before block e s ∧
      (holding writeFault flushFault before).writeBlock block = (.error e, s) := by
  by_cases hwrite : block ≠ "" → writeFault (writesOf before) = none
  · rw [writeBlock, write_holding hwrite]
    cases hflush : flushFault before.length with
    | none => exact .inl ⟨h.concat hwrite hflush, by simp [flush, hflush, holding]⟩
    | some e => exact .inr ⟨e, _, .flush hwrite hflush, by simp [flush, hflush]⟩
  · obtain ⟨hne, hfault⟩ := Classical.not_imp.1 hwrite
    obtain ⟨e, he⟩ := Option.ne_none_iff_exists'.1 hfault
    have hempty : block.isEmpty = false := by rwa [Bool.eq_false_iff, ne_eq, String.isEmpty_iff]
    exact .inr ⟨e, _, .write hne he, by simp [writeBlock, write, holding, hempty, he]⟩

/-- **Blocks one after the other**: all are received, or there is a first failure and nothing is tried after it. -/
theorem writeBlocks_holding : ∀ (blocks : List String) {before : List String},
    Receives writeFault flushFault before →
    (Receives writeFault flushFault (before ++ blocks) ∧
      (holding writeFault flushFault before).writeBlocks blocks =
        (.ok (), holding writeFault flushFault (before ++ blocks))) ∨
    ∃ first block rest e s, blocks = first ++ block :: rest ∧
      Receives writeFault flushFault (before ++ first) ∧
      FirstFault writeFault flushFault (before ++ first) block e s ∧
      (holding writeFault flushFault before).writeBlocks blocks = (.error e, s)
  | [], before, h => .inl (by rw [List.append_nil]; exact ⟨h, rfl⟩)
  | block :: blocks, before, h => by
    rw [writeBlocks]
    obtain ⟨hblock, hw⟩ | ⟨e, s, hfault, hw⟩ := writeBlock_holding h block
    · rw [hw]
      have ih := writeBlocks_holding blocks hblock
      rw [List.append_assoc, List.singleton_append] at ih
      obtain hall | ⟨first, failing, rest, e, s, rfl, hfirst, hfault, hw'⟩ := ih
      · exact .inl hall
      · rw [List.append_assoc, List.singleton_append] at hfirst hfault
        exact .inr ⟨block :: first, failing, rest, e, s, rfl, hfirst, hfault, hw'⟩
    · rw [hw]
      refine .inr ⟨[], block, blocks, e, s, rfl, ?_, ?_, rfl⟩
      · rw [List.append_nil]
        exact h
      · rw [List.append_nil]
        exact hfault

theorem text_holding (writeFault flushFault : Nat → Option IoError) (blocks : List String) :
    (holding writeFault flushFault blocks).text = String.join blocks := by
  simp [text, pieces, holding]

end Sink

/-- **What the aggregator leaves, for every pattern of failures.**  All outputs are counted, whatever the sink does.  If
no operation that their blocks come to fails, the sink has received every block, in order and each flushed by itself,
and the result is the counts.  Otherwise the result is the first failure, the sink has received the blocks before the
one it failed at, and nothing was tried after that. -/
theorem drain_with_faults (writeFault flushFault : Nat → Option IoError) (outputs : List JobOutput) :
    let d := Aggregator.drain (.fresh writeFault flushFault) outputs
    let blocks := outputs.map JobOutput.block
    let counts := Summary.ofOutcomes (outputs.map JobOutput.outcome)
    d.summary = counts ∧ counts.total = outputs.length ∧
    (Sink.Receives writeFault flushFault blocks →
      d.result = .ok counts ∧ d.sink = .holding writeFault flushFault blocks ∧ d.sink.text = String.join blocks) ∧
    (¬Sink.Receives writeFault flushFault blocks →
      ∃ before o after e, outputs = before ++ o :: after ∧
        Sink.Receives writeFault flushFault (before.map JobOutput.block) ∧
        Sink.FirstFault writeFault flushFault (before.map JobOutput.block) o.block e d.sink ∧
        d.result = .error e) := by
  intro d blocks counts
  have hcounts : (outputs.map JobOutput.outcome).foldl Summary.record .empty = counts :=
    Summary.foldl_record_ofOutcomes (outputs.map JobOutput.outcome) []
  have hsummary : d.summary = counts := Aggregator.drain_summary _ outputs
  -- a sink that has received nothing holds no blocks
  obtain ⟨hsink, hresult⟩ := Aggregator.drain_eq_writeBlocks (.holding writeFault flushFault []) outputs
  rw [hcounts] at hresult
  have hnone : Sink.Receives writeFault flushFault [] :=
    ⟨fun n hn => absurd hn (Nat.not_lt_zero n), fun n hn => absurd hn (Nat.not_lt_zero n)⟩
  have hwritten := Sink.writeBlocks_holding blocks hnone
  simp only [List.nil_append] at hwritten
  refine ⟨hsummary, hsummary ▸ Aggregator.drain_total _ outputs, fun hall => ?_, fun hfails => ?_⟩
  · obtain ⟨-, hw⟩ | ⟨first, block, rest, e, s, hsplit, -, hfault, -⟩ := hwritten
    · rw [hw] at hsink hresult
      have htext := Sink.text_holding writeFault flushFault blocks
      exact ⟨hresult, hsink, (congrArg Sink.text hsink).trans htext⟩
    · exact absurd (hsplit ▸ hall) (hfault.not_receives rest)
  · obtain ⟨hall, -⟩ | ⟨first, block, rest, e, s, hsplit, hfirst, hfault, hw⟩ := hwritten
    · exact absurd hall hfails
    · rw [hw] at hsink hresult
      have hfault : Sink.FirstFault writeFault flushFault first block e d.sink := hsink ▸ hfault
      obtain ⟨before, others, rfl, rfl, hothers⟩ := List.map_eq_append_iff.1 hsplit
      obtain ⟨o, after, rfl, rfl, rfl⟩ := List.map_eq_cons_iff.1 hothers
      exact ⟨before, o, after, e, rfl, hfirst, hfault, hresult⟩

section

/-- Three outputs, the first of them with an empty block. -/
def Sample.threeOutputs : List JobOutput :=
  [⟨⟨"a.m"⟩, .skipped, ""⟩, ⟨⟨"b.m"⟩, .analyzed (some 1), "b\n"⟩, ⟨⟨"c.m"⟩, .cached, "c\n"⟩]

/-- The third flush is the last that three outputs come to, and they come to two writes only, since one block is empty;
a sink that fails at the second write fails at the third output. -/
theorem drain_with_faults_three :
    let third : Nat → Option IoError := fun n => if n = 3 then some (.other "full") else none
    let second : Nat → Option IoError := fun n => if n = 1 then some (.brokenPipe "closed") else none
    let outputs := Sample.threeOutputs
    Sink.Receives third third (outputs.map JobOutput.block) ∧
    (Aggregator.drain (.fresh third third) outputs).result = .ok ⟨false, 1, 1, 1, 1, 0⟩ ∧
    ¬Sink.Receives second third (outputs.map JobOutput.block) ∧
    ∃ before o after e, outputs = before ++ o :: after ∧
      Sink.Receives second third (before.map JobOutput.block) ∧
      Sink.FirstFault second third (before.map JobOutput.block) o.block e
        (Aggregator.drain (.fresh second third) outputs).sink ∧
      (Aggregator.drain (.fresh second third) outputs).result = .error e := by
  intro third second outputs
  have hreceives : Sink.Receives third third (outputs.map JobOutput.block) :=
    ⟨by decide, by decide⟩
  have hfails : ¬Sink.Receives second third (outputs.map JobOutput.block) :=
    fun h => absurd (h.writes 1 (by decide)) (by decide)
  obtain ⟨-, -, hall, -⟩ := drain_with_faults third third outputs
  obtain ⟨-, -, -, hfirst⟩ := drain_with_faults second third outputs
  exact ⟨hreceives, (hall hreceives).1, hfails, hfirst hfails⟩

end
end Recheck
