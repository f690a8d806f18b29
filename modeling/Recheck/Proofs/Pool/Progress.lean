import Mathlib.Algebra.GroupWithZero.Nat
import Recheck.Proofs.Pool.Steps
/-!
# Every run comes to its end

A pool whose run has not returned can always take a step (`exists_step`), and where every step of a job brings it nearer
to its end, no run goes on for ever (`wellFounded_step`): however its parts get on, it returns.
-/
namespace Recheck

/-- With every step a job is at a stage of a lower rank, or at one of the same rank with less to do. -/
structure Machine.Ranked {World Stage : Type} (m : Machine World Stage) (rank todo : Stage → Nat) : Prop where
  next : ∀ stage world, ∃ n, m.next stage world n
  goOn : ∀ stage world stage' world', m.next stage world (.goOn stage' world') →
    rank stage' < rank stage ∨ rank stage' = rank stage ∧ todo stage' < todo stage

theorem Machine.ranked_ofResults (result : Path → Option JobOutput) :
    (Machine.ofResults result).Ranked (fun _ => 0) (fun _ => 0) := by
  refine ⟨fun s _ => ⟨.ended (result s) (), rfl⟩, fun s _ s' _ h => ?_⟩
  cases h

/-- The steps that a worker has before it, at most, if its job stays at no rank. -/
def Worker.ahead {Stage : Type} (rank : Stage → Nat) : Worker Stage → Nat
  | idle         => 1
  | busy _ stage => rank stage + 4
  | sending _    => 3
  | left         => 0
  | dead         => 0

def Worker.remaining {Stage : Type} (todo : Stage → Nat) : Worker Stage → Nat
  | busy _ stage => todo stage
  | _            => 0

namespace Pool
variable {World Stage : Type} {m : Machine World Stage} {rank todo : Stage → Nat} {jobs : Nat} {force : Bool}
  {p q : Pool World Stage}

/-- **A run that has not returned gets on.** -/
theorem exists_step (hj : 0 < jobs) (hm : ∀ stage world, ∃ n, m.next stage world n) (he : p.ending = none) :
    ∃ q, Step m jobs force p q := by
  by_cases hgone : p.Deserted
  · -- nobody takes or sends anything any more
    cases hf : p.feeding with
    | true =>
      cases hp : p.pending with
      | nil => exact ⟨_, .close hf hp⟩
      | cons s rest => exact ⟨_, .giveUp hf hp hgone⟩
    | false =>
      cases hd : p.draining with
      | true =>
        cases hb : p.blocks with
        | nil => exact ⟨_, .drained hd hb hgone⟩
        | cons o rest => exact ⟨_, .write hd hb⟩
      | false => exact ⟨_, .back he hf hgone hd⟩
  · obtain ⟨w, hw, hg⟩ := Worker.exists_of_not_all_gone hgone
    obtain ⟨l, r, hlr⟩ := List.append_of_mem hw
    cases w with
    | left => cases hg
    | dead => cases hg
    | sending o => exact ⟨_, .send hlr⟩
    | busy s stage =>
      obtain ⟨n, hn⟩ := hm stage p.world
      cases n with
      | goOn stage' world => exact ⟨_, .goOn hlr hn⟩
      | ended o world =>
        cases o with
        | some o => exact ⟨_, .finish hlr hn⟩
        | none => exact ⟨_, .crash hlr hn⟩
    | idle =>
      cases hq : p.queue with
      | cons s rest => exact ⟨_, .take hlr hq⟩
      | nil =>
        cases hf : p.feeding with
        | false => exact ⟨_, .leave hlr hf hq⟩
        | true =>
          cases hp : p.pending with
          | nil => exact ⟨_, .close hf hp⟩
          | cons s rest =>
            refine ⟨_, .feed hf hp ?_ hgone⟩
            rw [hq, Dispatch.queueCapacity, List.length_nil]
            omega

/-- The steps that a pool has before it, at most, if jobs stay at no rank. -/
def ahead (m : Machine World Stage) (rank : Stage → Nat) (p : Pool World Stage) : Nat :=
  (p.pending.map fun s => rank (m.first s) + 5).sum + (p.queue.map fun s => rank (m.first s) + 4).sum +
    (p.workers.map (Worker.ahead rank)).sum + p.blocks.length + p.feeding.toNat + p.draining.toNat + p.ending.isNone.toNat

def remaining (todo : Stage → Nat) (p : Pool World Stage) : Nat := (p.workers.map (Worker.remaining todo)).sum

/-- **Every step leaves fewer ahead**, or as many with less to do. -/
theorem Step.ahead_lt (hm : m.Ranked rank todo) (hs : Step m jobs force p q) :
    q.ahead m rank < p.ahead m rank ∨ q.ahead m rank = p.ahead m rank ∧ q.remaining todo < p.remaining todo := by
  cases hs with
  | feed hf hp hroom halive =>
    refine .inl ?_
    simp [Pool.ahead, hp]
    omega
  | giveUp hf hp hg => exact .inl (by simp [Pool.ahead, hf])
  | close hf hp => exact .inl (by simp [Pool.ahead, hf])
  | take hw hq =>
    refine .inl ?_
    simp [Pool.ahead, hw, hq, Worker.ahead]
    omega
  | goOn hw hn =>
    rcases hm.goOn _ _ _ _ hn with hlt | ⟨heq, hlt⟩
    · refine .inl ?_
      simp [Pool.ahead, hw, Worker.ahead]
      omega
    · refine .inr ⟨?_, ?_⟩
      · simp [Pool.ahead, hw, Worker.ahead, heq]
      · simp [Pool.remaining, hw, Worker.remaining]
        omega
  | finish hw hn | crash hw hn | send hw | leave hw =>
    refine .inl ?_
    simp [Pool.ahead, hw, Worker.ahead]
    try omega
  | write hd hb => exact .inl (by simp [Pool.ahead, hb])
  | drained hd hb hg => exact .inl (by simp [Pool.ahead, hd])
  | back he hf hg hd => exact .inl (by simp [Pool.ahead, he])

/-- **No run goes on for ever.** -/
theorem wellFounded_step (hm : m.Ranked rank todo) : WellFounded fun q p => Step m jobs force p q := by
  refine Subrelation.wf (fun {q p} hs => ?_)
    (InvImage.wf (fun p : Pool World Stage => (p.ahead m rank, p.remaining todo)) (Prod.lex Nat.lt_wfRel Nat.lt_wfRel).wf)
  rcases hs.ahead_lt hm with hlt | ⟨heq, hlt⟩
  · exact .left _ _ hlt
  · show Prod.Lex _ _ (q.ahead m rank, q.remaining todo) (p.ahead m rank, p.remaining todo)
    rw [heq]
    exact .right _ hlt

theorem exists_returned (hj : 0 < jobs) (hm : m.Ranked rank todo) (p : Pool World Stage) :
    ∃ q, Reaches m jobs force p q ∧ ∃ e, q.ending = some e := by
  have hwf : WellFounded fun q p => Step m jobs force p q := wellFounded_step hm
  induction p using hwf.induction with
  | _ p ih =>
    cases he : p.ending with
    | some e => exact ⟨p, .refl, e, he⟩
    | none =>
      obtain ⟨q, hs⟩ := exists_step hj hm.next he
      exact hs.exists_reaches (ih q hs)

end Pool
end Recheck
