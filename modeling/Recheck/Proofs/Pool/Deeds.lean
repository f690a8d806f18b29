import Recheck.Proofs.Dispatch.Answers
/-!
# What the steps of a run do

Each operation of a job is one of six deeds (`Job.Does`), and each step of a pool is one operation of one worker's job, or
leaves what the jobs share as it is and all jobs where they are, but for one that is taken (`Pool.Step.works`).  In
particular it is known what a worker that writes has in hand, whether or not others write the same file.
-/
namespace Recheck
open FileSystem

namespace Job

/-- What an operation of a job does, by its stage before and where it leads. -/
inductive Does (j : Job) (s : Path) (w : Shared) : JobStage → Next Shared JobStage → Prop
  /-- It looks at files, with no answer in hand before or after. -/
  | looks {stage stage'} :
      inHand? (.running (s, stage)) = none → inHand? (.running (s, stage')) = none → Does j s w stage (.goOn stage' w)
  | shows {stage output} : inHand? (.running (s, stage)) = none → Does j s w stage (.ended output w)
  /-- It calls the analyzer, and does not keep what that answers. -/
  | rejects {output} : Does j s w .calling (.ended output (j.called s w))
  | accepts {a} :
      (j.call s w.fs).1 = .finished a → Job.accepts j.failurePolicy a = true →
      Does j s w .calling (.goOn (.creating a) (j.called s w))
  /-- It writes the answer in hand as far as `n` bytes. -/
  | writes {stage a n now fs} :
      inHand? (.running (s, stage)) = some a →
      w.fs.writeAt now (j.layout.resultPath s) ((Utf8.encode a.text).extract 0 n) = .ok fs →
      Does j s w stage (.goOn (.filling a n) { w with fs := fs })
  /-- It is through with writing: all is written, or nothing could be. -/
  | stops {stage a output} :
      inHand? (.running (s, stage)) = some a →
      (∀ n, stage = .filling a n → (Utf8.encode a.text).size ≤ n ∨
        ∃ now content e, w.fs.writeAt now (j.layout.resultPath s) content = .error e) →
      Does j s w stage (.ended output w)

/-- **Each operation is one of the deeds.** -/
theorem does_act (j : Job) (s : Path) (now : Timestamp) (chunk : Nat) (w : Shared) (stage : JobStage) :
    j.Does s w stage (j.act s now chunk w stage) := by
  cases stage with
  | object => exact .looks rfl rfl
  | result object =>
    rw [act]
    unfold compareTimes
    split
    · split
      · exact .looks rfl rfl
      · split
        · exact .shows rfl
        · exact .looks rfl rfl
    · exact .looks rfl rfl
  | reading =>
    rw [act]
    unfold readResult
    split
    · exact .looks rfl rfl
    · exact .looks rfl rfl
    · exact .shows rfl
  | dating content =>
    rw [act]
    unfold dateResult
    split <;> exact .shows rfl
  | calling =>
    rw [act]
    unfold callAnalyzer
    split
    · rename_i a hanswer
      split
      · rename_i haccepts
        exact .accepts hanswer haccepts
      · exact .rejects
    · exact .rejects
  | creating a =>
    rw [act]
    unfold createResult
    split
    · rename_i hw
      exact .writes (n := 0) rfl (by rw [ByteArray.extract_same]; exact hw)
    · exact .stops rfl fun n hn => by cases hn
  | filling a n =>
    rw [act]
    unfold fillResult
    split
    · split
      · rename_i hw
        exact .writes rfl hw
      · rename_i e hw
        refine .stops rfl fun n' hn => .inr ⟨_, _, e, hw⟩
    · rename_i hn
      refine .stops rfl fun n' hn' => .inl ?_
      cases hn'
      exact Nat.le_of_not_lt hn

end Job

variable {World Stage : Type}

/-- What becomes of a worker by a step of its job. -/
def Next.worker (s : Path) : Next World Stage → Worker Stage
  | goOn stage _      => .busy s stage
  | ended (some o) _  => .sending o
  | ended none _      => .dead

namespace Pool
variable {m : Machine World Stage} {jobs : Nat} {force : Bool} {p q : Pool World Stage}

/-- **What a step does to the world and to the jobs at work**: nothing, unless a job is taken; or it is the next step of
one of them. -/
theorem Step.works (hs : Step m jobs force p q) :
    (q.world = p.world ∧
      (∀ s stage, .busy s stage ∈ q.workers → .busy s stage ∈ p.workers ∨ (s ∈ p.queue ∧ stage = m.first s)) ∧
      ∀ s stage, .busy s stage ∈ p.workers → .busy s stage ∈ q.workers) ∨
    ∃ l r s stage n, p.workers = l ++ .busy s stage :: r ∧ m.next stage p.world n ∧ q.world = n.world ∧
      q.workers = l ++ n.worker s :: r := by
  -- a worker that is not at work gives way to another
  have kept {l r : List (Worker Stage)} {w w' : Worker Stage} (hw : p.workers = l ++ w :: r)
      (hidle : w.source? = none) (s : Path) (stage : Stage) (h : .busy s stage ∈ p.workers) :
      .busy s stage ∈ l ++ w' :: r := by
    rw [hw, List.mem_append, List.mem_cons] at h
    rcases h with h | h | h
    · exact List.mem_append_left _ h
    · rw [← h] at hidle
      cases hidle
    · exact List.mem_append_right _ (List.mem_cons_of_mem _ h)
  cases hs with
  | @take l r s rest hw hq =>
    refine .inl ⟨rfl, fun t stage ht => ?_, kept hw rfl⟩
    rcases mem_of_replaced hw ht with ht | ht
    · exact .inl ht
    · cases ht
      exact .inr ⟨by rw [hq]; exact List.mem_cons_self, rfl⟩
  | goOn hw hn => exact .inr ⟨_, _, _, _, _, hw, hn, rfl, rfl⟩
  | finish hw hn => exact .inr ⟨_, _, _, _, _, hw, hn, rfl, rfl⟩
  | crash hw hn => exact .inr ⟨_, _, _, _, _, hw, hn, rfl, rfl⟩
  | send hw | leave hw =>
    exact .inl ⟨rfl, fun t stage ht => .inl ((mem_of_replaced hw ht).resolve_right nofun), kept hw rfl⟩
  | _ => exact .inl ⟨rfl, fun _ _ h => .inl h, fun _ _ h => h⟩

end Pool
end Recheck
