import Mathlib.Data.Prod.Lex
import Mathlib.Order.OrderIsoNat
import Recheck.Proofs.Pool.Progress
import Recheck.Proofs.Pool.Threads
/-!
# No thread waits for ever

Unless the run has returned, some thread can move, whatever became of the workers and of the sink
(`Crew.exists_move`).  A full queue holds up the main thread as long as a worker is left, and it is this worker that can
move then; with the last worker goes the last receiver, and the main thread finds out.  If jobs end, as those of a run do
(`Job.ranked_machine`), every move leaves less to be done (`Crew.Move.weight_lt`), and each run comes to its end
(`Crew.comes_to_return`).
-/
namespace Recheck

namespace Crew
variable {World Stage : Type} {m : Machine World Stage} {rank todo : Stage → Nat} {jobs : Nat} {force : Bool}
  {part : Part} {t u : Crew World Stage}

/-- A worker that is left waits for a source only: while the queue is empty, and another source may come. -/
theorem worker_moves (hm : ∀ stage world, ∃ n, m.next stage world n) {w : Worker Stage} (hw : w ∈ t.workers)
    (hg : w.isGone = false) (hq : t.queue ≠ [] ∨ t.main.hasSender = false) :
    ∃ part u, Move m jobs force part t u := by
  obtain ⟨l, r, hlr⟩ := List.append_of_mem hw
  cases w with
  | left => cases hg
  | dead => cases hg
  | sending o =>
    cases hd : t.draining with
    | true => exact ⟨_, _, .send hlr hd⟩
    | false => exact ⟨_, _, .unheard hlr hd⟩
  | busy s stage =>
    obtain ⟨n, hn⟩ := hm stage t.world
    cases n with
    | goOn stage' world => exact ⟨_, _, .goOn hlr hn⟩
    | ended o world =>
      cases o with
      | some o => exact ⟨_, _, .finish hlr hn⟩
      | none => exact ⟨_, _, .crash hlr hn⟩
  | idle =>
    cases hqueue : t.queue with
    | cons s rest => exact ⟨_, _, .take hlr hqueue⟩
    | nil => exact ⟨_, _, .leave hlr hqueue (hq.resolve_left fun hne => hne hqueue)⟩

/-- **Unless the run has returned, some thread can move.** -/
theorem exists_move (hj : 0 < jobs) (hm : ∀ stage world, ∃ n, m.next stage world n) (h : t.Orderly jobs) :
    (∃ e, t.main = .returned e) ∨ ∃ part u, Move m jobs force part t u := by
  have hwaited := h.waited
  cases hmain : t.main with
  | returned e => exact .inl ⟨e, rfl⟩
  | droppingReceiver => exact .inr ⟨_, _, .dropReceiver hmain⟩
  | droppingSender => exact .inr ⟨_, _, .dropSender hmain⟩
  | starting n =>
    cases n with
    | zero => exact .inr ⟨_, _, .allStarted hmain⟩
    | succ n => exact .inr ⟨_, _, .startWorker hmain⟩
  | feeding =>
    refine .inr ?_
    cases hp : t.pending with
    | nil => exact ⟨_, _, .close hmain hp⟩
    | cons s rest =>
      by_cases hgone : t.Deserted
      · exact ⟨_, _, .giveUp hmain hp (by simp [HasReceiver, hmain, hgone])⟩
      · by_cases hroom : t.queue.length < Dispatch.queueCapacity jobs
        · exact ⟨_, _, .feed hmain hp hroom (.inr hgone)⟩
        · -- the queue is full, so that whoever is left has something to take from it
          obtain ⟨w, hw, hg⟩ := Worker.exists_of_not_all_gone hgone
          refine worker_moves hm hw hg (.inl fun hq => hroom ?_)
          rw [hq, Dispatch.queueCapacity, List.length_nil]
          omega
  | joining k crashed =>
    refine .inr ?_
    rw [hmain] at hwaited
    obtain ⟨hle, -, -⟩ := hwaited
    rcases Nat.lt_or_eq_of_le hle with hlt | rfl
    · have hk : t.workers[k]? = some t.workers[k] := List.getElem?_eq_getElem hlt
      cases hg : t.workers[k].isGone with
      | true => exact ⟨_, _, .join hmain hk hg⟩
      | false => exact worker_moves hm (List.getElem_mem hlt) hg (.inr (by rw [hmain]; rfl))
    · exact ⟨_, _, .allJoined hmain⟩
  | joiningAggregator crashed =>
    refine .inr ?_
    rw [hmain] at hwaited
    cases hd : t.draining with
    | false => exact ⟨_, _, .back hmain hd⟩
    | true =>
      cases hb : t.blocks with
      | cons o rest => exact ⟨_, _, .write hd hb⟩
      | nil =>
        have hgone : t.Deserted := hwaited.1
        exact ⟨_, _, .drained hd hb (by simp [HasOutputSender, hmain, hgone])⟩

/-- **Once the run has returned, no thread can move.** -/
theorem not_move_of_returned (h : t.Orderly jobs) {e : RunEnd} (he : t.main = .returned e) :
    ¬Move m jobs force part t u := by
  have hwaited := h.waited
  rw [he] at hwaited
  obtain ⟨hgone, hd⟩ := hwaited
  intro hs
  cases hs with
  | startWorker hm | allStarted hm | dropReceiver hm | dropSender hm | feed hm _ _ _ | giveUp hm _ _ | close hm _
  | join hm _ _ | allJoined hm | back hm _ =>
    rw [he] at hm
    cases hm
  | take hw _ | leave hw _ _ | goOn hw _ | finish hw _ | crash hw _ | send hw _ | unheard hw _ =>
    rw [hw] at hgone
    have := hgone _ (List.mem_append_right _ List.mem_cons_self)
    cases this
  | write hd' _ | drained hd' _ _ =>
    rw [hd] at hd'
    cases hd'

/-- **A full queue holds up the main thread for just as long as a worker is left.** -/
theorem main_moves_iff {s : Path} {rest : List Path} (hmain : t.main = .feeding) (hp : t.pending = s :: rest)
    (hq : t.queue.length = Dispatch.queueCapacity jobs) : (∃ u, Move m jobs force .main t u) ↔ t.Deserted := by
  refine ⟨fun ⟨u, hs⟩ => ?_, fun hgone => ⟨_, .giveUp hmain hp (by simp [HasReceiver, hmain, hgone])⟩⟩
  cases hs with
  | giveUp _ _ hr => simpa [HasReceiver, hmain] using hr
  | feed _ _ hroom _ => exact absurd hroom (by rw [hq]; exact Nat.lt_irrefl _)
  | close _ hnil =>
    rw [hp] at hnil
    cases hnil
  | startWorker hm | allStarted hm | dropReceiver hm | dropSender hm | join hm _ _ | allJoined hm | back hm _ =>
    rw [hmain] at hm
    cases hm

/-! ## How much is left to be done -/

/-- What is left to be done: by the pool, within stages of the same rank, and by the main thread by itself. -/
def weight (m : Machine World Stage) (rank todo : Stage → Nat) (t : Crew World Stage) : Nat ×ₗ Nat ×ₗ Nat :=
  toLex (t.toPool.ahead m rank, toLex (t.toPool.remaining todo, t.main.rest t.workers.length))

/-- **Every move leaves less to be done.** -/
theorem Move.weight_lt (hm : m.Ranked rank todo) (h : t.Orderly jobs) (hs : Move m jobs force part t u) :
    u.weight m rank todo < t.weight m rank todo := by
  simp only [weight, Prod.Lex.toLex_lt_toLex]
  rcases hs.toPool h with hstep | ⟨heq, hlt⟩
  · rcases hstep.ahead_lt hm with hlt | ⟨heq, hlt⟩
    · exact .inl hlt
    · exact .inr ⟨heq, .inl hlt⟩
  · rw [heq]
    exact .inr ⟨rfl, .inr ⟨rfl, hlt⟩⟩

theorem exists_returned (hj : 0 < jobs) (hm : m.Ranked rank todo) (h : t.Orderly jobs) :
    ∃ u, Reaches m jobs force t u ∧ ∃ e, u.main = .returned e := by
  have hwf : WellFounded fun u t : Crew World Stage => u.weight m rank todo < t.weight m rank todo :=
    InvImage.wf (weight m rank todo) wellFounded_lt
  induction t using hwf.induction with
  | _ t ih =>
    have hmove : (∃ e, t.main = .returned e) ∨ ∃ part u, Move m jobs force part t u := exists_move hj hm.next h
    rcases hmove with he | ⟨part, u, hs⟩
    · exact ⟨t, .refl, he⟩
    · obtain ⟨v, hr, he⟩ := ih u (hs.weight_lt hm h) (h.move hs)
      exact ⟨v, .head ⟨part, hs⟩ hr, he⟩

theorem not_forall_moves (hm : m.Ranked rank todo) {run : Nat → Crew World Stage} (h : (run 0).Orderly jobs) :
    ¬∀ i, Moves m jobs force (run i) (run (i + 1)) := by
  intro hrun
  have horderly : ∀ i, (run i).Orderly jobs := fun i => by
    induction i with
    | zero => exact h
    | succ i ih =>
      obtain ⟨part, hs⟩ := hrun i
      exact ih.move hs
  refine not_strictAnti_of_wellFoundedLT (fun i => (run i).weight m rank todo) (strictAnti_nat_of_succ_lt fun i => ?_)
  obtain ⟨part, hs⟩ := hrun i
  exact hs.weight_lt hm (horderly i)

/-- **However its threads get on, a run returns.**  In whatever state a run is, whichever of its jobs have crashed and
whatever has failed in the sink, it has returned or some thread can move; the queue holds no more sources than it has
room for; and every move leaves less to be done, so that no run goes on for ever, and the state where no thread can move
is that in which it has returned.  In particular a main thread before a full queue can move as soon as the last worker is
gone. -/
theorem comes_to_return (hj : 0 < jobs) (hm : m.Ranked rank todo) {sources : List Path} {sink : Sink} {world : World}
    (h : Reaches m jobs force (start jobs sources sink world) t) :
    ((∃ e, t.main = .returned e) ∨ ∃ part u, Move m jobs force part t u) ∧
    t.queue.length ≤ 2 * jobs ∧
    (∀ part u, Move m jobs force part t u → u.weight m rank todo < t.weight m rank todo) ∧
    (∃ u, Reaches m jobs force t u ∧ ∃ e, u.main = .returned e) ∧
    (∀ run : Nat → Crew World Stage, run 0 = t → ¬∀ i, Moves m jobs force (run i) (run (i + 1))) ∧
    (t.main = .feeding → ∀ s rest, t.pending = s :: rest → t.queue.length = 2 * jobs →
      ((∃ u, Move m jobs force .main t u) ↔ ∀ w ∈ t.workers, w.isGone = true)) := by
  have ho := orderly_of_reaches h
  refine ⟨exists_move hj hm.next ho, ho.room, fun part u hs => hs.weight_lt hm ho, exists_returned hj hm ho, ?_, ?_⟩
  · rintro run rfl
    exact not_forall_moves hm ho
  · intro hmain s rest hp hq
    exact main_moves_iff hmain hp hq

end Crew

namespace Sample
open Crew

def manySources : List Path := [⟨"a.m"⟩, ⟨"b.m"⟩, ⟨"c.m"⟩, ⟨"d.m"⟩]

/-- The only worker has taken the first source, the queue has been filled behind it, and then the job has crashed. -/
def stranded : Crew Unit Path :=
  ⟨(), .feeding, [⟨"d.m"⟩], [⟨"b.m"⟩, ⟨"c.m"⟩], [.dead], [], .start .good, true, [⟨"a.m"⟩], [(⟨"a.m"⟩, none)], []⟩

theorem reaches_stranded :
    Reaches (.ofResults fun _ => none) 1 false (start 1 manySources .good ()) stranded :=
  .head ⟨_, .startWorker rfl⟩ <| .head ⟨_, .allStarted rfl⟩ <| .head ⟨_, .dropReceiver rfl⟩ <|
  .head ⟨_, .dropSender rfl⟩ <|
  .head ⟨_, .feed rfl rfl (by decide) (.inr (Worker.not_all_gone List.mem_cons_self rfl))⟩ <|
  .head ⟨_, .take (l := []) rfl rfl⟩ <|
  .head ⟨_, .feed rfl rfl (by decide) (.inr (Worker.not_all_gone List.mem_cons_self rfl))⟩ <|
  .head ⟨_, .feed rfl rfl (by decide) (.inr (Worker.not_all_gone List.mem_cons_self rfl))⟩ <|
  .single ⟨_, .crash (l := []) rfl rfl⟩

/-- The main thread is before a full queue that nobody takes anything from; it can move, and the run returns. -/
theorem comes_to_return_stranded :
    stranded.main = .feeding ∧ stranded.queue.length = 2 ∧
    (∃ u, Move (.ofResults fun _ => none) 1 false .main stranded u) ∧
    ∃ u, Reaches (.ofResults fun _ => none) 1 false stranded u ∧ ∃ e, u.main = .returned e := by
  obtain ⟨-, -, -, hreturned, -, hreleased⟩ :=
    comes_to_return Nat.one_pos (Machine.ranked_ofResults fun _ => none) reaches_stranded
  exact ⟨rfl, rfl, (hreleased rfl _ _ rfl rfl).2 (by decide), hreturned⟩

end Sample
end Recheck
