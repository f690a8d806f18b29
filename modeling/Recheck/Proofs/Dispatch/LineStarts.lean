import Mathlib.Data.List.Chain
import Recheck.Proofs.Dispatch.FailingSinks
import Recheck.Proofs.Dispatch.Origins
/-!
# Where lines begin

What a run writes is put together from lines of its own, each with its newline, and from texts that it prints as they
are: answers of the analyzer and kept results (`Passage`).  A printed text always follows a line of the run's own, and
is followed by a command line or the line about a timeout (`Job.Composed.chain`), with nothing put between.  So a line
of the run's own begins where a line begins unless it follows a printed text that has not ended its last line
(`Passage.Ordered.endsLine_iff`), and that is so in all that the sink receives, whichever way the run goes
(`lines_begin`).
-/
namespace Recheck
open FileSystem CacheLayout

/-! ## Lines and printed texts -/

/-- Nothing, or a text that ends in a newline: what follows it begins a line. -/
def EndsLine (t : String) : Prop := t = "" ∨ t.toList.getLast? = some '\n'

instance (t : String) : Decidable (EndsLine t) := inferInstanceAs (Decidable (_ ∨ _))

theorem endsLine_newline (t : String) : EndsLine (t ++ "\n") := .inr (by simp)

theorem endsLine_append {t u : String} (h : u ≠ "") : EndsLine (t ++ u) ↔ EndsLine u := by
  obtain ⟨c, hc⟩ : ∃ c, u.toList.getLast? = some c :=
    Option.isSome_iff_exists.1 (List.getLast?_isSome.2 fun hn => h (String.toList_eq_nil_iff.1 hn))
  have hjoined : t ++ u ≠ "" := fun he => h (String.append_eq_empty_iff.1 he).2
  rw [EndsLine, EndsLine, String.toList_append, List.getLast?_append, hc, Option.some_or, or_iff_right hjoined,
    or_iff_right h]

/-- A line of a run's own, or a text that it prints as it is. -/
inductive Passage where
  | own (line : String)
  | printed (text : String)

namespace Passage

def text : Passage → String
  | own line     => line ++ "\n"
  | printed text => text

def textOf (passages : List Passage) : String := String.join (passages.map text)

/-- What may come directly after what: after a printed text only a line of the run's own, and one of those in `late`. -/
def Follows (late : String → Prop) : Passage → Passage → Prop
  | own _, _             => True
  | printed _, own line  => late line
  | printed _, printed _ => False

/-- Passages of which each may come after the one before, and a printed text not first. -/
structure Ordered (late : String → Prop) (passages : List Passage) : Prop where
  first : ∀ text rest, passages ≠ printed text :: rest
  chain : passages.IsChain (Follows late)

/-- The last passage is a printed text that has not ended its last line. -/
def Unfinished (passages : List Passage) : Prop := ∃ before text, passages = before ++ [printed text] ∧ ¬EndsLine text

theorem textOf_append (passages passages' : List Passage) :
    textOf (passages ++ passages') = textOf passages ++ textOf passages' := by
  rw [textOf, List.map_append, String.join_append, textOf, textOf]

theorem textOf_flatMap {α : Type} (f : α → List Passage) (l : List α) :
    textOf (l.flatMap f) = String.join (l.map fun a => textOf (f a)) := by
  induction l with
  | nil => rfl
  | cons a l ih => rw [List.flatMap_cons, textOf_append, ih, List.map_cons, String.join_cons]

theorem endsLine_textOf_own (before : List Passage) (line : String) : EndsLine (textOf (before ++ [own line])) := by
  rw [textOf_append, show textOf [own line] = line ++ "\n" by simp [textOf, text], ← String.append_assoc]
  exact endsLine_newline (textOf before ++ line)

section
variable {late : String → Prop} {passages passages' : List Passage}

theorem Ordered.of_append (h : Ordered late (passages ++ passages')) : Ordered late passages := by
  refine ⟨?_, h.chain.left_of_append⟩
  rintro text rest rfl
  exact h.first text (rest ++ passages') rfl

/-- **Blocks that begin with a line that may come late can be put one after the other.** -/
theorem ordered_flatMap {α : Type} {f : α → List Passage} : ∀ {l : List α},
    (∀ a ∈ l, (f a).IsChain (Follows late) ∧ ∃ line rest, f a = own line :: rest ∧ late line) →
      Ordered late (l.flatMap f)
  | [], _ => ⟨nofun, .nil⟩
  | a :: l, h => by
    have ih : Ordered late (l.flatMap f) := ordered_flatMap fun b hb => h b (List.mem_cons_of_mem a hb)
    obtain ⟨hchain, line, rest, hblock, -⟩ := h a List.mem_cons_self
    rw [List.flatMap_cons]
    refine ⟨by rw [hblock]; exact nofun, hchain.append ih.chain fun passage _ passage' hnext => ?_⟩
    -- the next block begins with a line
    cases l with
    | nil => cases hnext
    | cons b l =>
      obtain ⟨-, line', rest', hblock', hlate⟩ := h b (by simp)
      rw [List.flatMap_cons, hblock'] at hnext
      cases hnext
      cases passage with
      | own _ => exact trivial
      | printed _ => exact hlate

theorem not_unfinished_own (before : List Passage) (line : String) : ¬Unfinished (before ++ [own line]) := by
  rintro ⟨earlier, text, he, -⟩
  simpa using (List.append_inj' he rfl).2

theorem unfinished_printed_iff (before : List Passage) (text : String) :
    Unfinished (before ++ [printed text]) ↔ ¬EndsLine text := by
  constructor
  · rintro ⟨earlier, text', he, hn⟩
    obtain rfl : text = text' := by simpa using (List.append_inj' he rfl).2
    exact hn
  · exact fun hn => ⟨before, text, rfl, hn⟩

/-- **A printed text begins a line**, since a line of the run's own stands before it. -/
theorem Ordered.endsLine_before {before : List Passage} {text : String} (h : Ordered late (before ++ [printed text])) :
    EndsLine (textOf before) := by
  rcases List.eq_nil_or_concat' before with rfl | ⟨earlier, passage, rfl⟩
  · exact absurd rfl (h.first text [])
  · cases passage with
    | own line => exact endsLine_textOf_own earlier line
    | printed text' =>
      rw [List.append_assoc, List.singleton_append] at h
      exact absurd (List.isChain_append_cons_cons.1 h.chain).2.1 id

/-- **What comes after passages begins a line unless a printed text stands last that has not ended its own.** -/
theorem Ordered.endsLine_iff (h : Ordered late passages) : EndsLine (textOf passages) ↔ ¬Unfinished passages := by
  rcases List.eq_nil_or_concat' passages with rfl | ⟨before, passage, rfl⟩
  · refine iff_of_true (by simp [EndsLine, textOf]) ?_
    rintro ⟨before, text, hn, -⟩
    cases before <;> cases hn
  · cases passage with
    | own line => exact iff_of_true (endsLine_textOf_own before line) (not_unfinished_own before line)
    | printed text =>
      rw [unfinished_printed_iff, Classical.not_not, textOf_append]
      have htext : textOf [printed text] = text := by simp [textOf, Passage.text]
      rw [htext]
      by_cases hempty : text = ""
      · rw [hempty, String.append_empty]
        exact iff_of_true h.endsLine_before (by decide)
      · exact endsLine_append hempty

/-- Only a line that may come late comes after an unfinished text. -/
theorem Ordered.late_of_unfinished {before after : List Passage} {line : String}
    (h : Ordered late (before ++ own line :: after)) (hu : Unfinished before) : late line := by
  obtain ⟨earlier, text, rfl, -⟩ := hu
  rw [List.append_assoc, List.singleton_append] at h
  exact (List.isChain_append_cons_cons.1 h.chain).2.1

end
end Passage

/-! ## What blocks are put together from -/

namespace Job

/-- The command line of a source, as its block begins. -/
def title (j : Job) (s : Path) : Passage := .own (joinTexts " " (j.commandLine s))

def timeoutLine : String := "error: analyzer timed out"

/-- An output for a source, and the passages of its block. -/
inductive Composed (j : Job) (s : Path) : JobOutput → List Passage → Prop
  | answered {fs : FileSystem} {a : AnalyzerOutput} : (j.call s fs).1 = .finished a →
      Composed j s (j.output s (.analyzed a.exitCode) (answerText a))
        ([j.title s, .printed a.text] ++ if a.timedOut then [.own timeoutLine] else [])
  | notStarted {fs : FileSystem} {e : IoError} : (j.call s fs).1 = .notStarted e →
      Composed j s
        (j.output s .failed
          ("error: failed to run analyzer " ++ j.configuration.analyzer.text ++ ": " ++ e.message ++ "\n"))
        [j.title s, .own ("error: failed to run analyzer " ++ j.configuration.analyzer.text ++ ": " ++ e.message)]
  | cached {fs : FileSystem} {content : ByteArray} {date : String} : fs.read (j.layout.resultPath s) = .ok content →
      Composed j s
        (j.output s .cached ("Read from cache created at " ++ date ++ "...\n" ++ Utf8.decodeLossy content))
        [j.title s, .own ("Read from cache created at " ++ date ++ "..."), .printed (Utf8.decodeLossy content)]
  | skipped : j.onlyLatest = true →
      Composed j s (j.output s .skipped (skippedNotice ++ "\n")) [j.title s, .own skippedNotice]
  | unreadable {e : IoError} :
      Composed j s (j.unreadable s e) [j.title s,
        .own ("error: failed to read cached result " ++ (j.layout.resultPath s).text ++ ": " ++ e.message)]

section
variable {j : Job} {s : Path} {o : JobOutput} {passages : List Passage}

theorem Composed.block (h : j.Composed s o passages) : o.block = Passage.textOf passages := by
  cases h with
  | @answered fs a _ =>
    cases ht : a.timedOut <;>
      simp [output, commandText, answerText, title, timeoutLine, Passage.textOf, Passage.text, ht, String.append_assoc]
  | _ => simp [Job.unreadable, output, commandText, title, Passage.textOf, Passage.text, String.append_assoc]

theorem Composed.source_eq (h : j.Composed s o passages) : o.source = s := by
  cases h <;> rfl

theorem Composed.begins (h : j.Composed s o passages) : ∃ rest, passages = j.title s :: rest := by
  cases h <;> exact ⟨_, rfl⟩

/-- **In a block only the line about a timeout comes after a printed text.** -/
theorem Composed.chain (h : j.Composed s o passages) {late : String → Prop} (hlate : late timeoutLine) :
    passages.IsChain (Passage.Follows late) := by
  cases h with
  | @answered fs a _ => cases a.timedOut <;> simp [title, Passage.Follows, hlate]
  | _ => simp [title, Passage.Follows]

/-! ## Every output is put together so -/

theorem composed_reply {fs : FileSystem} (h : j.reply s (j.call s fs).1 = some o) :
    ∃ passages, j.Composed s o passages := by
  cases ha : (j.call s fs).1 with
  | finished a =>
    rw [ha] at h
    cases h
    exact ⟨_, .answered ha⟩
  | notStarted e =>
    rw [ha] at h
    cases h
    exact ⟨_, .notStarted ha⟩
  | crashed =>
    rw [ha] at h
    cases h

theorem composed_cached {fs : FileSystem} {content : ByteArray} {modified : Timestamp}
    (hr : fs.read (j.layout.resultPath s) = .ok content)
    (h : (cachedText? ⟨Utf8.decodeLossy content, modified⟩).map (j.output s .cached) = some o) :
    ∃ passages, j.Composed s o passages := by
  obtain ⟨text, htext, rfl⟩ := Option.map_eq_some_iff.1 h
  obtain ⟨date, -, rfl⟩ := cachedText?_some htext
  exact ⟨_, .cached hr⟩

theorem composed_process {fs : FileSystem} (h : (j.process s fs).output = some o) :
    ∃ passages, j.Composed s o passages := by
  cases hstale : j.layout.isStale fs s j.force with
  | true =>
    rw [process_of_stale hstale, analyze_output] at h
    exact composed_reply h
  | false =>
    obtain ⟨a, content, modified, executable, hstat, hp⟩ := process_of_not_stale hstale
    rw [hp] at h
    cases hlatest : j.onlyLatest with
    | true =>
      simp only [hlatest, if_true, Option.some.injEq] at h
      subst h
      exact ⟨_, .skipped hlatest⟩
    | false =>
      simp only [hlatest, Bool.false_eq_true, if_false] at h
      exact composed_cached (by rw [FileSystem.read, hstat]) h

/-- What a job has in hand was read from its result, or answered to its call, at some time. -/
def Informed (j : Job) (s : Path) : JobStage → Prop
  | .dating content => ∃ fs : FileSystem, fs.read (j.layout.resultPath s) = .ok content
  | .creating a     => ∃ fs, (j.call s fs).1 = .finished a
  | .filling a _    => ∃ fs, (j.call s fs).1 = .finished a
  | _               => True

/-- A job goes on informed, or ends with an output that is put together from passages, if it has any. -/
def Proceeds (j : Job) (s : Path) : Next Shared JobStage → Prop
  | .goOn stage _     => j.Informed s stage
  | .ended none _     => True
  | .ended (some o) _ => ∃ passages, j.Composed s o passages

theorem proceeds_ended {output : Option JobOutput} {w : Shared}
    (h : ∀ o, output = some o → ∃ passages, j.Composed s o passages) : j.Proceeds s (.ended output w) := by
  cases output with
  | none => exact trivial
  | some o => exact h o rfl

theorem proceeds_answered {fs : FileSystem} {a : AnalyzerOutput} {w : Shared} (h : (j.call s fs).1 = .finished a) :
    j.Proceeds s (.ended (j.reply s (.finished a)) w) :=
  ⟨_, .answered h⟩

/-- **Every step of a job proceeds so**, at whatever time it is taken and whatever has been done to the files before. -/
theorem proceeds_act {stage : JobStage} (h : j.Informed s stage) (now : Timestamp) (chunk : Nat) (w : Shared) :
    j.Proceeds s (j.act s now chunk w stage) := by
  cases stage with
  | object => exact trivial
  | result object =>
    rw [act]
    unfold compareTimes
    split
    · split
      · exact trivial
      · split
        · rename_i hlatest
          exact ⟨_, .skipped hlatest⟩
        · exact trivial
    · exact trivial
  | reading =>
    rw [act]
    unfold readResult
    split
    · rename_i hread
      exact ⟨_, hread⟩
    · exact trivial
    · exact ⟨_, .unreadable⟩
  | dating content =>
    obtain ⟨fs, hread⟩ := h
    rw [act]
    unfold dateResult
    split
    · exact proceeds_ended fun o ho => composed_cached hread ho
    · exact ⟨_, .unreadable⟩
    · exact ⟨_, .unreadable⟩
  | calling =>
    rw [act]
    unfold callAnalyzer
    split
    · rename_i a hanswer
      split
      · exact ⟨_, hanswer⟩
      · exact proceeds_answered hanswer
    · exact proceeds_ended fun o ho => composed_reply ho
  | creating a =>
    obtain ⟨fs, hanswer⟩ := h
    rw [act]
    unfold createResult
    split
    · exact ⟨fs, hanswer⟩
    · exact proceeds_answered hanswer
  | filling a written =>
    obtain ⟨fs, hanswer⟩ := h
    rw [act]
    unfold fillResult
    split
    · split
      · exact ⟨fs, hanswer⟩
      · exact proceeds_answered hanswer
    · exact proceeds_answered hanswer

/-- A job on its way for a source, informed. -/
def Underway (j : Job) (s : Path) (stage : Path × JobStage) : Prop := stage.1 = s ∧ j.Informed s stage.2

theorem underway_first (j : Job) (s : Path) : j.Underway s (j.machine.first s) := by
  refine ⟨rfl, ?_⟩
  show j.Informed s (if j.force then .calling else .object)
  split <;> exact trivial

theorem Underway.goOn {stage stage' : Path × JobStage} {w w' : Shared} (h : j.Underway s stage)
    (hn : j.machine.next stage w (.goOn stage' w')) : j.Underway s stage' := by
  obtain ⟨rfl, hinformed⟩ := h
  obtain ⟨now, chunk, hn⟩ := hn
  have hact := proceeds_act hinformed now chunk w
  cases ha : j.act stage.1 now chunk w stage.2 with
  | goOn next w'' =>
    rw [ha] at hact hn
    cases hn
    exact ⟨rfl, hact⟩
  | ended output w'' =>
    rw [ha] at hn
    cases hn

theorem Underway.ended {stage : Path × JobStage} {w w' : Shared} (h : j.Underway s stage)
    (hn : j.machine.next stage w (.ended (some o) w')) : ∃ passages, j.Composed s o passages := by
  obtain ⟨rfl, hinformed⟩ := h
  obtain ⟨now, chunk, hn⟩ := hn
  have hact := proceeds_act hinformed now chunk w
  cases ha : j.act stage.1 now chunk w stage.2 with
  | goOn next w'' =>
    rw [ha] at hn
    cases hn
  | ended output w'' =>
    rw [ha] at hact hn
    cases hn
    exact hact

end
end Job

/-! ## What a sink receives -/

namespace Sink

theorem text_eq (s : Sink) : s.text = String.join s.flushed ++ s.pending := by
  rw [text, Sink.pieces]
  by_cases h : s.pending = ""
  · simp [h]
  · simp [h, String.join_append]

theorem text_flush (s : Sink) : s.flush.2.text = s.text := by
  rw [flush]
  split
  · rfl
  · rw [text_eq, text_eq]
    simp [String.join_append]

/-- Of a block that is not written, the sink has received all or nothing. -/
theorem text_writeBlock (s : Sink) (block : String) :
    (s.writeBlock block).2.text = s.text ++ block ∨
      (s.writeBlock block).2.text = s.text ∧ ∃ e, (s.writeBlock block).1 = .error e := by
  rw [writeBlock, write]
  by_cases hempty : block.isEmpty = true
  · simp only [hempty, if_true]
    refine .inl ?_
    rw [text_flush, String.isEmpty_iff.1 hempty, String.append_empty]
  · simp only [hempty]
    cases s.writeFault s.writes with
    | some e => exact .inr ⟨rfl, e, rfl⟩
    | none =>
      refine .inl ((text_flush _).trans ?_)
      rw [text_eq, text_eq, String.append_assoc]

/-- **A sink has received whole blocks**, and all of them if none has failed. -/
theorem text_writeBlocks (blocks : List String) (s : Sink) : ∃ received lost, blocks = received ++ lost ∧
    (s.writeBlocks blocks).2.text = s.text ++ String.join received ∧
      ((s.writeBlocks blocks).1 = .ok () → lost = []) := by
  induction blocks generalizing s with
  | nil => exact ⟨[], [], rfl, by simp [writeBlocks], fun _ => rfl⟩
  | cons block blocks ih =>
    have htext := s.text_writeBlock block
    rw [writeBlocks]
    cases hw : s.writeBlock block with
    | mk outcome s' =>
      rw [hw] at htext
      cases outcome with
      | ok _ =>
        obtain htext | ⟨-, e, he⟩ := htext
        · obtain ⟨received, lost, rfl, hs', hall⟩ := ih s'
          refine ⟨block :: received, lost, rfl, ?_, hall⟩
          rw [hs', htext, String.join_cons, String.append_assoc]
        · cases he
      | error e =>
        obtain htext | ⟨htext, -⟩ := htext
        · exact ⟨[block], blocks, rfl, by rw [htext]; simp, fun h => by cases h⟩
        · exact ⟨[], block :: blocks, rfl, by rw [htext]; simp, fun h => by cases h⟩

end Sink

/-- A sink receives the blocks of the first outputs, whole and in their order, and of all if no write fails. -/
theorem Aggregator.text_drain (sink : Sink) (outputs : List JobOutput) :
    ∃ received lost, outputs = received ++ lost ∧
      (drain sink outputs).sink.text = sink.text ++ String.join (received.map JobOutput.block) ∧
      ((drain sink outputs).fault = none → lost = []) := by
  obtain ⟨hsink, hresult⟩ := drain_eq_writeBlocks sink outputs
  obtain ⟨received, lost, hsplit, htext, hall⟩ := sink.text_writeBlocks (outputs.map JobOutput.block)
  obtain ⟨first, rest, rfl, rfl, rfl⟩ := List.map_eq_append_iff.1 hsplit
  refine ⟨first, rest, rfl, by rw [hsink, htext], fun hf => ?_⟩
  refine List.map_eq_nil_iff.1 (hall ?_)
  rw [result, hf] at hresult
  cases hw : (sink.writeBlocks ((first ++ rest).map JobOutput.block)).1 with
  | ok _ => rfl
  | error e => rw [hw] at hresult; cases hresult

/-! ## What a run writes -/

/-- What is there for each of a list can be put beside it. -/
theorem exists_pairing {α β : Type} {P : α → β → Prop} : ∀ {l : List α}, (∀ a ∈ l, ∃ b, P a b) →
    ∃ pairs : List (α × β), l = pairs.map Prod.fst ∧ ∀ x ∈ pairs, P x.1 x.2
  | [], _ => ⟨[], rfl, nofun⟩
  | a :: l, h => by
    obtain ⟨b, hb⟩ := h a List.mem_cons_self
    obtain ⟨pairs, rfl, hpairs⟩ := exists_pairing fun a' ha' => h a' (List.mem_cons_of_mem a ha')
    exact ⟨(a, b) :: pairs, rfl, List.forall_mem_cons.2 ⟨hb, hpairs⟩⟩

namespace PastRun
variable {r : PastRun} {c : Course} {force : Bool} {S : FileSystem}

/-- **The outputs of a run are put together from passages**, whichever way it goes. -/
theorem Takes.composed (h : r.Takes c) {s : Path} {o : JobOutput} (hx : (s, some o) ∈ c.ended) :
    ∃ force passages, (r.job force).Composed s o passages := by
  cases h with
  | inTurn =>
    obtain ⟨x, hmem, he⟩ := List.mem_map.1 hx
    obtain ⟨force, -, hjob, -⟩ := of_mem_handled hmem
    simp only [Prod.mk.injEq] at he
    obtain ⟨rfl, ho⟩ := he
    rw [Handled.result, hjob] at ho
    obtain ⟨passages, hpassages⟩ := Job.composed_process ho
    exact ⟨force, passages, hpassages⟩
  | @sideBySide force S p e _ _ hr _ =>
    have hended := (Pool.ended_of_reaches (m := (r.job force).machine) (Q := (r.job force).Underway)
      (R := fun s output => ∀ o, output = some o → ∃ passages, (r.job force).Composed s o passages)
      (r.job force).underway_first (fun _ _ _ _ _ h hn => h.goOn hn)
      (fun _ _ _ _ _ h hn o ho => h.ended (ho ▸ hn)) hr).2
    obtain ⟨passages, hpassages⟩ := hended _ hx o rfl
    exact ⟨force, passages, hpassages⟩

/-- A run that comes to no job has written nothing. -/
theorem Takes.of_idle (h : r.Takes c)
    (hidle : ∀ force S, r.recordStep = (.ok force, S) → Dispatch.queueTooLarge r.workers = true) :
    c.ended = [] ∧ c.report.sink = r.sink := by
  cases h with
  | sideBySide hs hq =>
    rw [hidle _ _ hs] at hq
    cases hq
  | inTurn =>
    cases hs : r.recordStep with
    | mk outcome S =>
      cases outcome with
      | error e =>
        refine ⟨?_, congrArg RunReport.sink (Dispatch.run_of_error hs)⟩
        rw [PastRun.inTurn, handled, hs]
        rfl
      | ok force =>
        have hq : Dispatch.queueTooLarge (Dispatch.workers r.options) = true := hidle force S hs
        refine ⟨?_, congrArg RunReport.sink (Dispatch.run_of_queueTooLarge hs hq)⟩
        rw [PastRun.inTurn, handled, hs]
        simp [hq]

/-- What a run has written comes from the outputs of its jobs in some order. -/
theorem Takes.exists_outputs (h : r.Takes c) :
    ∃ outputs, (c.ended.filterMap Prod.snd).Perm outputs ∧ c.report.sink = (Aggregator.drain r.sink outputs).sink ∧
      ∀ summary, c.report.ending = .finished summary → (Aggregator.drain r.sink outputs).fault = none := by
  by_cases hruns : ∃ force S, r.recordStep = (.ok force, S) ∧ Dispatch.queueTooLarge r.workers = false
  · obtain ⟨force, S, hs, hq⟩ := hruns
    obtain ⟨outputs, hperm, hending, hsink, -⟩ := h.drained hs hq
    refine ⟨outputs, hperm, hsink, fun summary hend => ?_⟩
    obtain ⟨-, counts, hresult, -⟩ := Dispatch.ending_eq_finished (hending.symm.trans hend)
    rw [Aggregator.result] at hresult
    split at hresult
    · cases hresult
    · assumption
  · obtain ⟨hended, hsink⟩ := h.of_idle fun force S hs =>
      Bool.of_not_eq_false fun hq => hruns ⟨force, S, hs, hq⟩
    exact ⟨[], by rw [hended]; exact .refl _, hsink, fun _ _ => rfl⟩

/-- A line that a run may begin in the middle of another: a command line, or that about a timeout. -/
def MayBeLate (r : PastRun) (line : String) : Prop :=
  line = Job.timeoutLine ∨ ∃ source, line = joinTexts " " (r.configuration.commandLine [source])

/-- **Where lines begin in what a run writes.**  Whatever the analyzer answers, whatever is kept and in whatever order
jobs come to their ends, the sink receives blocks of these jobs, whole and one after the other, and all of them if no
write fails.  Each is put together from passages of which the command line is the first.  Among all these passages a
line of the run's own begins where a line begins, unless a printed text stands before it that has not ended its last
line; and this can only happen to a command line and to the line about a timeout. -/
theorem lines_begin (h : r.Takes c) (hsink : r.sink.text = "") :
    ∃ (laid : List (JobOutput × List Passage)) (lost : List JobOutput),
      (c.ended.filterMap Prod.snd).Perm (laid.map Prod.fst ++ lost) ∧
      (∀ summary, c.report.ending = .finished summary → lost = []) ∧
      (∀ x ∈ laid, x.1.block = Passage.textOf x.2 ∧ ∃ force rest, (r.job force).Composed x.1.source x.1 x.2 ∧
        x.2 = (r.job force).title x.1.source :: rest) ∧
      c.report.sink.text = Passage.textOf (laid.flatMap Prod.snd) ∧
      ∀ before line after, laid.flatMap Prod.snd = before ++ .own line :: after →
        (EndsLine (Passage.textOf before) ↔ ¬Passage.Unfinished before) ∧
        (¬EndsLine (Passage.textOf before) → r.MayBeLate line) := by
  obtain ⟨outputs, hperm, hdrain, hfault⟩ := h.exists_outputs
  obtain ⟨received, lost, rfl, htext, hall⟩ := Aggregator.text_drain r.sink outputs
  have hcomposed : ∀ o ∈ received, ∃ passages, ∃ force, (r.job force).Composed o.source o passages := by
    intro o ho
    obtain ⟨x, hx, hxo⟩ := List.mem_filterMap.1 (hperm.mem_iff.2 (List.mem_append_left lost ho))
    obtain ⟨force, passages, hpassages⟩ := h.composed (s := x.1) (o := o) (by rw [← hxo]; exact hx)
    exact ⟨passages, force, hpassages.source_eq ▸ hpassages⟩
  obtain ⟨laid, rfl, hlaid⟩ := exists_pairing hcomposed
  have hblock : ∀ x ∈ laid, x.1.block = Passage.textOf x.2 := by
    intro x hx
    obtain ⟨force, hpassages⟩ := hlaid x hx
    exact hpassages.block
  have hordered : Passage.Ordered r.MayBeLate (laid.flatMap Prod.snd) := by
    refine Passage.ordered_flatMap fun x hx => ?_
    obtain ⟨force, hpassages⟩ := hlaid x hx
    obtain ⟨rest, hrest⟩ := hpassages.begins
    exact ⟨hpassages.chain (.inl rfl), _, rest, hrest, .inr ⟨x.1.source, rfl⟩⟩
  refine ⟨laid, lost, hperm, fun summary hend => hall (hfault summary hend), fun x hx => ⟨hblock x hx, ?_⟩, ?_, ?_⟩
  · obtain ⟨force, hpassages⟩ := hlaid x hx
    obtain ⟨rest, hrest⟩ := hpassages.begins
    exact ⟨force, rest, hpassages, hrest⟩
  · rw [hdrain, htext, hsink, String.empty_append, Passage.textOf_flatMap, List.map_map]
    exact congrArg String.join (List.map_congr_left hblock)
  · intro before line after hsplit
    rw [hsplit] at hordered
    have hiff := hordered.of_append.endsLine_iff
    refine ⟨hiff, fun hn => hordered.late_of_unfinished ?_⟩
    exact Classical.byContradiction fun hu => hn (hiff.2 hu)

end PastRun

/-! ## An analyzer that does not end its lines -/

namespace Sample

def halving : Analyzer := .ofFunction fun argv =>
  .finished (if argv.contains "a.m" then ⟨"half", none, true⟩ else ⟨"half", some 0, false⟩)

/-- A run over two sources whose analyzer prints half a line on each, and is killed over the second one. -/
def halves : PastRun := { run plain [source, ⟨"a.m"⟩] files with analyzer := halving }

/-- What is printed for a source before anything is said of a timeout. -/
def half (name : String) : String :=
  "clang " ++ name ++ " -- -resource-dir res -x objective-c -fobjc-arc -fmodules\n" ++ "half"

theorem not_endsLine_half (t name : String) : ¬EndsLine (t ++ half name) := by
  rw [half, ← String.append_assoc, endsLine_append (by decide)]
  decide

theorem halves_process (fs : FileSystem) :
    ((halves.job true).process source fs).output = some ⟨source, .analyzed (some 0), half "b.m"⟩ ∧
    ((halves.job true).process ⟨"a.m"⟩ fs).output =
      some ⟨⟨"a.m"⟩, .analyzed none, half "a.m" ++ "error: analyzer timed out\n"⟩ := by
  rw [Job.process_of_stale rfl, Job.process_of_stale rfl, Job.analyze_output, Job.analyze_output]
  exact ⟨rfl, rfl⟩

/-- The outputs of the two jobs. -/
def halvesOutputs : List JobOutput :=
  [⟨source, .analyzed (some 0), half "b.m"⟩, ⟨⟨"a.m"⟩, .analyzed none, half "a.m" ++ "error: analyzer timed out\n"⟩]

theorem halves_work :
    (Dispatch.work (halves.job true) halves.workers halves.sources (recorded plain)).outputs = halvesOutputs ∧
    (Dispatch.work (halves.job true) halves.workers halves.sources (recorded plain)).crashed = false := by
  rw [show halves.workers = 0 + 1 from rfl, show halves.sources = [source, ⟨"a.m"⟩] from rfl]
  simp only [Dispatch.work_cons, (halves_process _).1]
  exact ⟨rfl, rfl⟩

theorem halves_report :
    halves.report.sink.text = half "b.m" ++ half "a.m" ++ "error: analyzer timed out\n" ∧
    halves.report.sink.flushed = halvesOutputs.map JobOutput.block ∧
    (∃ summary, halves.report.ending = .finished summary) ∧
    halves.inTurn.ended.filterMap Prod.snd = halvesOutputs := by
  obtain ⟨houtputs, hcrashed⟩ := halves_work
  obtain ⟨hhandled, hreport⟩ := PastRun.report_of_ok (r := halves) (update_files plain) rfl
  obtain ⟨-, hclear, hflushed⟩ := Aggregator.drain_clear Sink.clear_good halvesOutputs
  simp only [houtputs, hcrashed] at hreport
  refine ⟨?_, ?_, ?_, ?_⟩
  · rw [hreport, Sink.text_eq, show halves.sink = .good from rfl, hclear.pending, hflushed]
    rfl
  · rw [hreport]
    exact hflushed
  · rw [hreport, show halves.sink = .good from rfl, Aggregator.result_of_clear Sink.clear_good]
    exact ⟨_, rfl⟩
  · rw [PastRun.inTurn, hhandled, List.filterMap_map]
    exact (Dispatch.work_outputs ..).symm.trans houtputs

end Sample

section
open Sample

theorem lines_begin_halves :
    ∃ before line after, halves.report.sink.text = Passage.textOf (before ++ .own line :: after) ∧
      Passage.textOf before = half "b.m" ∧ Passage.Unfinished before ∧ halves.MayBeLate line := by
  obtain ⟨hreceived, -, ⟨summary, hend⟩, hended⟩ := halves_report
  obtain ⟨laid, lost, hperm, hall, hblocks, htext, hlines⟩ := PastRun.lines_begin (r := halves) .inTurn rfl
  obtain rfl : lost = [] := hall summary hend
  rw [hended, List.append_nil] at hperm
  have hlength : laid.length = 2 := by simpa [halvesOutputs] using hperm.length_eq.symm
  obtain ⟨x, y, rfl⟩ := List.length_eq_two.1 hlength
  obtain ⟨hx, -⟩ := hblocks x (by simp)
  obtain ⟨hy, force, rest, -, hrest⟩ := hblocks y (by simp)
  -- the output of the first source does not come last, since the text ends its last line
  have hfirst : Passage.textOf x.2 = half "b.m" := by
    have hmem : (⟨source, .analyzed (some 0), half "b.m"⟩ : JobOutput) ∈ [x, y].map Prod.fst :=
      hperm.mem_iff.1 List.mem_cons_self
    rcases List.mem_pair.1 hmem with he | he
    · rw [← hx, ← he]
    · have hjoined : halves.report.sink.text = x.1.block ++ half "b.m" := by
        rw [show halves.report.sink.text = _ from htext, hx, show half "b.m" = Passage.textOf y.2 by rw [← hy, ← he],
          ← Passage.textOf_append]
        simp
      have hends : EndsLine halves.report.sink.text := by
        rw [hreceived, endsLine_append (by decide)]
        decide
      exact absurd (hjoined ▸ hends) (not_endsLine_half x.1.block "b.m")
  have hsplit : [x, y].flatMap Prod.snd = x.2 ++ (halves.job force).title y.1.source :: rest := by simp [hrest]
  obtain ⟨hiff, hlate⟩ := hlines _ _ _ hsplit
  have hbroken : ¬EndsLine (Passage.textOf x.2) := by
    rw [hfirst, ← String.empty_append (s := half "b.m")]
    exact not_endsLine_half "" "b.m"
  refine ⟨_, _, _, hsplit ▸ htext, hfirst, ?_, hlate hbroken⟩
  exact Classical.byContradiction fun hn => hbroken (hiff.2 hn)

/-- **Lines are begun within others where the analyzer does not end its last line.**  The block of the second source
begins where the first one's answer broke off, and what is said of the timeout where the second one's did. -/
theorem begun_within_lines :
    halves.report.sink.text = half "b.m" ++ half "a.m" ++ "error: analyzer timed out\n" ∧
    halves.report.sink.flushed = [half "b.m", half "a.m" ++ "error: analyzer timed out\n"] ∧
    ¬EndsLine (half "b.m") ∧ ¬EndsLine (half "b.m" ++ half "a.m") := by
  obtain ⟨htext, hflushed, -⟩ := halves_report
  refine ⟨htext, hflushed, ?_, not_endsLine_half _ _⟩
  rw [← String.empty_append (s := half "b.m")]
  exact not_endsLine_half "" "b.m"

end
end Recheck
