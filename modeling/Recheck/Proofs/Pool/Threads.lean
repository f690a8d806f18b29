import Recheck.Proofs.Pool.Steps
/-!
# The threads of a run

The main thread of a run starts the workers one after the other, feeds them, and waits for them and for the aggregator
(`MainStage`).  What tells a thread that there is nothing more to come is that all other ends of a queue are given up:
a sender finds no receiver, or a receiver of an empty queue no sender.  So each thread holds its ends for as long as it
is at work, and the main thread gives up its own copies before it feeds (`Crew.Move`).

A crew is a pool whose main thread is looked at more closely: by each of its moves the pool takes a step, or the main
thread alone gets on (`Crew.Move.toPool`).  So a crew comes to no state that a pool does not come to
(`Crew.reaches_toPool`).
-/
namespace Recheck

/-- Where the main thread of a run is. -/
inductive MainStage where
  /-- So many workers are to be started yet. -/
  | starting (unstarted : Nat)
  /-- All are started; it has its own receiver of sources still. -/
  | droppingReceiver
  /-- It has its own sender of outputs still. -/
  | droppingSender
  | feeding
  /-- It has given up its sender of sources, and waits for the workers from the given one on. -/
  | joining (next : Nat) (crashed : Bool)
  | joiningAggregator (crashed : Bool)
  | returned (ending : RunEnd)

namespace MainStage

@[simp] def unstarted : MainStage → Nat
  | starting n => n
  | _          => 0

/-- The main thread can receive sources. -/
@[simp] def hasReceiver : MainStage → Bool
  | starting _       => true
  | droppingReceiver => true
  | _                => false

/-- The main thread can send outputs. -/
@[simp] def hasOutputSender : MainStage → Bool
  | starting _       => true
  | droppingReceiver => true
  | droppingSender   => true
  | _                => false

/-- The main thread can send sources. -/
@[simp] def hasSender : MainStage → Bool
  | starting _       => true
  | droppingReceiver => true
  | droppingSender   => true
  | feeding          => true
  | _                => false

@[simp] def ending? : MainStage → Option RunEnd
  | returned e => some e
  | _          => none

/-- How far the main thread can get on by itself, with so many workers. -/
@[simp] def rest (workers : Nat) : MainStage → Nat
  | starting n       => n + 3
  | droppingReceiver => 2
  | droppingSender   => 1
  | joining k _      => workers - k + 1
  | _                => 0

end MainStage

/-- The threads of a run, and what is in its queues. -/
structure Crew (World Stage : Type) where
  world : World
  main : MainStage
  /-- The sources not yet put into the queue. -/
  pending : List Path
  queue : List Path
  /-- The workers that were started. -/
  workers : List (Worker Stage)
  /-- The outputs sent and not received yet. -/
  blocks : List JobOutput
  aggregator : Aggregator
  /-- The aggregator has its receiver of outputs. -/
  draining : Bool
  started : List Path
  ended : List (Path × Option JobOutput)
  written : List JobOutput

/-- Who moves. -/
inductive Part where
  | main
  | worker (index : Nat)
  | aggregator

namespace Crew
variable {World Stage : Type}

/-- All workers are gone, and with them their ends of the queues. -/
def Deserted (t : Crew World Stage) : Prop := ∀ w ∈ t.workers, w.isGone = true

/-- Somebody has a receiver of sources. -/
def HasReceiver (t : Crew World Stage) : Prop := t.main.hasReceiver = true ∨ ¬t.Deserted

/-- Somebody has a sender of outputs. -/
def HasOutputSender (t : Crew World Stage) : Prop := t.main.hasOutputSender = true ∨ ¬t.Deserted

def start (jobs : Nat) (sources : List Path) (sink : Sink) (world : World) : Crew World Stage :=
  ⟨world, .starting jobs, sources, [], [], [], .start sink, true, [], [], []⟩

/-- One move of one thread. -/
inductive Move (m : Machine World Stage) (jobs : Nat) (force : Bool) :
    Part → Crew World Stage → Crew World Stage → Prop
  | startWorker {t n} :
      t.main = .starting (n + 1) →
      Move m jobs force .main t { t with main := .starting n, workers := t.workers ++ [.idle] }
  | allStarted {t} : t.main = .starting 0 → Move m jobs force .main t { t with main := .droppingReceiver }
  | dropReceiver {t} : t.main = .droppingReceiver → Move m jobs force .main t { t with main := .droppingSender }
  | dropSender {t} : t.main = .droppingSender → Move m jobs force .main t { t with main := .feeding }
  /-- The main thread sends a source: the queue has room, and somebody can receive it. -/
  | feed {t s rest} :
      t.main = .feeding → t.pending = s :: rest → t.queue.length < Dispatch.queueCapacity jobs → t.HasReceiver →
      Move m jobs force .main t { t with pending := rest, queue := t.queue ++ [s] }
  /-- The main thread finds that nobody can receive a source, and gives up its sender. -/
  | giveUp {t s rest} :
      t.main = .feeding → t.pending = s :: rest → ¬t.HasReceiver →
      Move m jobs force .main t { t with main := .joining 0 false }
  | close {t} : t.main = .feeding → t.pending = [] → Move m jobs force .main t { t with main := .joining 0 false }
  | join {t k crashed w} :
      t.main = .joining k crashed → t.workers[k]? = some w → w.isGone = true →
      Move m jobs force .main t { t with main := .joining (k + 1) (crashed || w.isDead) }
  | allJoined {t crashed} :
      t.main = .joining t.workers.length crashed →
      Move m jobs force .main t { t with main := .joiningAggregator crashed }
  | back {t crashed} :
      t.main = .joiningAggregator crashed → t.draining = false →
      Move m jobs force .main t { t with main := .returned (Dispatch.ending force crashed t.aggregator.result) }
  | take {t l r s rest} :
      t.workers = l ++ .idle :: r → t.queue = s :: rest →
      Move m jobs force (.worker l.length) t
        { t with queue := rest, workers := l ++ .busy s (m.first s) :: r, started := t.started ++ [s] }
  /-- The worker finds the queue empty, and nobody who can send another source. -/
  | leave {t l r} :
      t.workers = l ++ .idle :: r → t.queue = [] → t.main.hasSender = false →
      Move m jobs force (.worker l.length) t { t with workers := l ++ .left :: r }
  | goOn {t l r s stage stage' world} :
      t.workers = l ++ .busy s stage :: r → m.next stage t.world (.goOn stage' world) →
      Move m jobs force (.worker l.length) t { t with world := world, workers := l ++ .busy s stage' :: r }
  | finish {t l r s stage o world} :
      t.workers = l ++ .busy s stage :: r → m.next stage t.world (.ended (some o) world) →
      Move m jobs force (.worker l.length) t
        { t with world := world, workers := l ++ .sending o :: r, ended := t.ended ++ [(s, some o)] }
  /-- A job crashes and takes its worker along, with both its ends. -/
  | crash {t l r s stage world} :
      t.workers = l ++ .busy s stage :: r → m.next stage t.world (.ended none world) →
      Move m jobs force (.worker l.length) t
        { t with world := world, workers := l ++ .dead :: r, ended := t.ended ++ [(s, none)] }
  | send {t l r o} :
      t.workers = l ++ .sending o :: r → t.draining = true →
      Move m jobs force (.worker l.length) t { t with workers := l ++ .idle :: r, blocks := t.blocks ++ [o] }
  /-- The worker finds that nobody can receive its output. -/
  | unheard {t l r o} :
      t.workers = l ++ .sending o :: r → t.draining = false →
      Move m jobs force (.worker l.length) t { t with workers := l ++ .left :: r }
  | write {t o rest} :
      t.draining = true → t.blocks = o :: rest →
      Move m jobs force .aggregator t
        { t with blocks := rest, aggregator := t.aggregator.push o, written := t.written ++ [o] }
  /-- The aggregator finds no output left, and nobody who can send another. -/
  | drained {t} :
      t.draining = true → t.blocks = [] → ¬t.HasOutputSender →
      Move m jobs force .aggregator t { t with draining := false }

def Moves (m : Machine World Stage) (jobs : Nat) (force : Bool) (t u : Crew World Stage) : Prop :=
  ∃ part, Move m jobs force part t u

def Reaches (m : Machine World Stage) (jobs : Nat) (force : Bool) : Crew World Stage → Crew World Stage → Prop :=
  Relation.ReflTransGen (Moves m jobs force)

/-! ## What holds of a crew -/

/-- What the main thread has waited for. -/
def Waited (workers : List (Worker Stage)) (draining : Bool) : MainStage → Prop
  | .joining k crashed         => k ≤ workers.length ∧ (∀ w ∈ workers.take k, w.isGone = true) ∧
    crashed = (workers.take k).any Worker.isDead
  | .joiningAggregator crashed => (∀ w ∈ workers, w.isGone = true) ∧ crashed = workers.any Worker.isDead
  | .returned _                => (∀ w ∈ workers, w.isGone = true) ∧ draining = false
  | _                          => True

/-- The main thread goes by what has happened, and the aggregator ends after all who could send to it. -/
structure Orderly (jobs : Nat) (t : Crew World Stage) : Prop where
  counted : t.workers.length + t.main.unstarted = jobs
  room : t.queue.length ≤ Dispatch.queueCapacity jobs
  waited : Waited t.workers t.draining t.main
  drained : t.draining = false → t.main.hasOutputSender = false ∧ t.Deserted

variable {m : Machine World Stage} {jobs : Nat} {force : Bool} {part : Part} {t u : Crew World Stage}

theorem orderly_start (jobs : Nat) (sources : List Path) (sink : Sink) (world : World) :
    (start jobs sources sink world : Crew World Stage).Orderly jobs where
  counted := Nat.zero_add jobs
  room := Nat.zero_le _
  waited := trivial
  drained h := by cases h

/-- A list whose first entries are all of a kind keeps them when an entry of another kind is replaced. -/
theorem take_replace {α : Type} {p : α → Bool} {l r : List α} {x : α} (y : α) {k : Nat}
    (h : ∀ z ∈ (l ++ x :: r).take k, p z = true) (hx : p x = false) :
    (l ++ y :: r).take k = (l ++ x :: r).take k := by
  have hk : k ≤ l.length := by
    refine Nat.le_of_not_lt fun hlt => ?_
    obtain ⟨n, rfl⟩ := Nat.exists_eq_add_of_lt hlt
    rw [Nat.add_assoc, List.take_length_add_append] at h
    have := h x (List.mem_append_right l List.mem_cons_self)
    rw [hx] at this
    cases this
  rw [List.take_append_of_le_length hk, List.take_append_of_le_length hk]

theorem Orderly.awake (h : t.Orderly jobs) {w : Worker Stage} (hw : w ∈ t.workers) (hg : w.isGone = false) :
    t.draining = true := by
  cases hd : t.draining with
  | true => rfl
  | false => exact absurd (h.drained hd).2 (Worker.not_all_gone hw hg)

/-- As long as a worker is at work, the main thread waits for it, if it does not wait for another before it. -/
theorem Waited.replace {l r : List (Worker Stage)} {w : Worker Stage} (w' : Worker Stage) {draining : Bool}
    {stage : MainStage} (hg : w.isGone = false) (h : Waited (l ++ w :: r) draining stage) :
    Waited (l ++ w' :: r) draining stage := by
  have halive : ¬∀ x ∈ l ++ w :: r, x.isGone = true := Worker.not_all_gone (by simp) hg
  cases stage with
  | joining k crashed =>
    obtain ⟨hle, hgone, hdead⟩ := h
    rw [Waited, take_replace w' hgone hg]
    exact ⟨by simpa using hle, hgone, hdead⟩
  | joiningAggregator crashed => exact absurd h.1 halive
  | returned e => exact absurd h.1 halive
  | starting n | droppingReceiver | droppingSender | feeding => trivial

/-- What a worker at work does leaves a crew in order. -/
theorem Orderly.replace (h : t.Orderly jobs) {l r : List (Worker Stage)} {w : Worker Stage} (w' : Worker Stage)
    (hw : t.workers = l ++ w :: r) (hg : w.isGone = false) {queue : List Path} (hq : queue.length ≤ t.queue.length)
    (world : World) (blocks : List JobOutput) (started : List Path) (ended : List (Path × Option JobOutput)) :
    Orderly jobs { t with
      world := world, queue := queue, workers := l ++ w' :: r, blocks := blocks, started := started, ended := ended } := by
  refine ⟨?_, Nat.le_trans hq h.room, ?_, fun hf => ?_⟩
  · have hcount := h.counted
    rw [hw] at hcount
    simpa using hcount
  · have hwaited := h.waited
    rw [hw] at hwaited
    exact hwaited.replace w' hg
  · have := h.awake (w := w) (by rw [hw]; simp) hg
    rw [show t.draining = false from hf] at this
    cases this

/-- The main thread gets on to a stage where as many workers are to be started and it has no other sender of outputs. -/
theorem Orderly.advance (h : t.Orderly jobs) {stage : MainStage} (hn : t.main.unstarted = stage.unstarted)
    (hw : Waited t.workers t.draining stage)
    (hs : stage.hasOutputSender = true → t.main.hasOutputSender = true) : Orderly jobs { t with main := stage } := by
  refine ⟨hn ▸ h.counted, h.room, hw, fun hf => ⟨?_, (h.drained hf).2⟩⟩
  refine Bool.eq_false_iff.2 fun hc => ?_
  have := (h.drained hf).1
  rw [hs hc] at this
  cases this

/-- **Every move keeps a crew in order.** -/
theorem Orderly.move (h : t.Orderly jobs) (hs : Move m jobs force part t u) : u.Orderly jobs := by
  cases hs with
  | @startWorker t n hm =>
    refine ⟨?_, h.room, trivial, fun hf => ?_⟩
    · have hcount := h.counted
      rw [hm] at hcount
      simp only [MainStage.unstarted, List.length_append, List.length_singleton] at hcount ⊢
      omega
    · have := (h.drained hf).1
      rw [hm] at this
      cases this
  | allStarted hm | dropReceiver hm | dropSender hm => exact h.advance (by rw [hm]; rfl) trivial (by rw [hm]; simp)
  | giveUp hm _ _ | close hm _ =>
    exact h.advance (by rw [hm]; rfl) ⟨Nat.zero_le _, fun w hw => by simp at hw, rfl⟩ (by simp)
  | feed hm hp hroom hr => exact { h with room := by rw [List.length_append]; exact hroom }
  | @join t k crashed w hm hk hg =>
    have hwaited := h.waited
    rw [hm] at hwaited
    obtain ⟨-, hgone, hdead⟩ := hwaited
    refine h.advance (by rw [hm]; rfl) ⟨?_, fun x hx => ?_, ?_⟩ (by simp)
    · exact (List.getElem?_eq_some_iff.1 hk).1
    · rw [List.take_add_one, hk, List.mem_append] at hx
      rcases hx with hx | hx
      · exact hgone x hx
      · simp only [Option.toList_some, List.mem_singleton] at hx
        exact hx ▸ hg
    · rw [List.take_add_one, hk, hdead]
      simp
  | @allJoined t crashed hm =>
    have hwaited := h.waited
    rw [hm, Waited, List.take_length] at hwaited
    exact h.advance (by rw [hm]; rfl) hwaited.2 (by simp)
  | @back t crashed hm hd =>
    have hwaited := h.waited
    rw [hm] at hwaited
    exact h.advance (by rw [hm]; rfl) ⟨hwaited.1, hd⟩ (by simp)
  | take hw hq => exact h.replace _ hw rfl (by rw [hq]; simp) _ _ _ _
  | leave hw hq hm => exact h.replace _ hw rfl (Nat.le_refl _) _ _ _ _
  | goOn hw _ | finish hw _ | crash hw _ | send hw _ | unheard hw _ => exact h.replace _ hw rfl (Nat.le_refl _) _ _ _ _
  | @write t o rest hd hb =>
    exact { h with drained := fun hf => by rw [show t.draining = false from hf] at hd; cases hd }
  | @drained t hd hb hn =>
    simp only [HasOutputSender, not_or, Bool.not_eq_true, Classical.not_not] at hn
    refine { h with waited := ?_, drained := fun _ => hn }
    have hwaited := h.waited
    cases hm : t.main with
    | returned e =>
      rw [hm] at hwaited
      exact ⟨hwaited.1, rfl⟩
    | _ => rw [hm] at hwaited; exact hwaited

theorem orderly_of_reaches {sources : List Path} {sink : Sink} {world : World}
    (h : Reaches m jobs force (start jobs sources sink world) t) : t.Orderly jobs := by
  induction h with
  | refl => exact orderly_start jobs sources sink world
  | tail _ hs ih =>
    obtain ⟨part, hs⟩ := hs
    exact ih.move hs

/-! ## A crew as a pool -/

/-- The pool that a crew is, if the workers that are to be started are idle in it. -/
def toPool (t : Crew World Stage) : Pool World Stage where
  world := t.world
  pending := t.pending
  feeding := t.main.hasSender
  queue := t.queue
  workers := t.workers ++ List.replicate t.main.unstarted .idle
  blocks := t.blocks
  aggregator := t.aggregator
  draining := t.draining
  ending := t.main.ending?
  started := t.started
  ended := t.ended
  written := t.written

theorem toPool_of_main {stage : MainStage} (hn : stage.unstarted = t.main.unstarted)
    (hs : stage.hasSender = t.main.hasSender) (he : stage.ending? = t.main.ending?) :
    ({ t with main := stage } : Crew World Stage).toPool = t.toPool := by
  simp only [toPool, hn, hs, he]

theorem workers_toPool {l r : List (Worker Stage)} {w : Worker Stage} (hw : t.workers = l ++ w :: r) :
    t.toPool.workers = l ++ w :: (r ++ List.replicate t.main.unstarted .idle) := by
  simp [toPool, hw]

theorem deserted_toPool (hn : t.main.unstarted = 0) : t.toPool.Deserted ↔ t.Deserted := by
  simp only [Pool.Deserted, Deserted, toPool, hn, List.replicate_zero, List.append_nil]

/-- **By a move of a crew the pool takes a step, or the main thread gets on by itself.** -/
theorem Move.toPool (h : t.Orderly jobs) (hs : Move m jobs force part t u) :
    Pool.Step m jobs force t.toPool u.toPool ∨
      u.toPool = t.toPool ∧ u.main.rest u.workers.length < t.main.rest t.workers.length := by
  cases hs with
  | @startWorker t n hm =>
    refine .inr ⟨?_, by rw [hm]; simp⟩
    simp only [Crew.toPool, hm, MainStage.unstarted, MainStage.hasSender, MainStage.ending?, List.append_assoc,
      List.singleton_append, List.replicate_succ]
  | allStarted hm | dropReceiver hm | dropSender hm =>
    exact .inr ⟨toPool_of_main (by rw [hm]; rfl) (by rw [hm]; rfl) (by rw [hm]; rfl), by rw [hm]; simp⟩
  | @feed t s rest hm hp hroom hr =>
    refine .inl (.feed (p := t.toPool) (by simp [Crew.toPool, hm]) hp hroom ?_)
    rw [deserted_toPool (by rw [hm]; rfl)]
    simpa [HasReceiver, hm] using hr
  | @giveUp t s rest hm hp hr =>
    have hgone : t.Deserted := by simpa [HasReceiver, hm] using hr
    have hstep : Pool.Step m jobs force t.toPool _ :=
      .giveUp (by simp [Crew.toPool, hm]) hp ((deserted_toPool (by rw [hm]; rfl)).2 hgone)
    exact .inl (by simpa [Crew.toPool, hm] using hstep)
  | @close t hm hp =>
    have hstep : Pool.Step m jobs force t.toPool _ := .close (by simp [Crew.toPool, hm]) hp
    exact .inl (by simpa [Crew.toPool, hm] using hstep)
  | @join t k crashed w hm hk hg =>
    refine .inr ⟨toPool_of_main (by rw [hm]; rfl) (by rw [hm]; rfl) (by rw [hm]; rfl), ?_⟩
    have hlt := (List.getElem?_eq_some_iff.1 hk).1
    simp only [hm, MainStage.rest]
    omega
  | @allJoined t crashed hm =>
    exact .inr ⟨toPool_of_main (by rw [hm]; rfl) (by rw [hm]; rfl) (by rw [hm]; rfl), by rw [hm]; simp⟩
  | @back t crashed hm hd =>
    have hwaited := h.waited
    rw [hm] at hwaited
    have hstep : Pool.Step m jobs force t.toPool _ :=
      .back (by simp [Crew.toPool, hm]) (by simp [Crew.toPool, hm]) ((deserted_toPool (by rw [hm]; rfl)).2 hwaited.1) hd
    exact .inl (by simpa [Crew.toPool, hm, hwaited.2] using hstep)
  | @take t l r s rest hw hq =>
    have hstep : Pool.Step m jobs force t.toPool _ := .take (workers_toPool hw) hq
    exact .inl (by simpa [Crew.toPool] using hstep)
  | @leave t l r hw hq hm =>
    have hstep : Pool.Step m jobs force t.toPool _ := .leave (workers_toPool hw) hm hq
    exact .inl (by simpa [Crew.toPool] using hstep)
  | @goOn t l r s stage stage' world hw hn =>
    have hstep : Pool.Step m jobs force t.toPool _ := .goOn (workers_toPool hw) hn
    exact .inl (by simpa [Crew.toPool] using hstep)
  | @finish t l r s stage o world hw hn =>
    have hstep : Pool.Step m jobs force t.toPool _ := .finish (workers_toPool hw) hn
    exact .inl (by simpa [Crew.toPool] using hstep)
  | @crash t l r s stage world hw hn =>
    have hstep : Pool.Step m jobs force t.toPool _ := .crash (workers_toPool hw) hn
    exact .inl (by simpa [Crew.toPool] using hstep)
  | @send t l r o hw hd =>
    have hstep : Pool.Step m jobs force t.toPool _ := .send (workers_toPool hw)
    exact .inl (by simpa [Crew.toPool] using hstep)
  | @unheard t l r o hw hd =>
    -- the aggregator does not end before the workers
    have := h.awake (w := .sending o) (by rw [hw]; simp) rfl
    rw [hd] at this
    cases this
  | @write t o rest hd hb => exact .inl (.write (p := t.toPool) hd hb)
  | @drained t hd hb hn =>
    simp only [HasOutputSender, not_or, Bool.not_eq_true, Classical.not_not] at hn
    refine .inl (.drained (p := t.toPool) hd hb ((deserted_toPool ?_).2 hn.2))
    cases hm : t.main with
    | starting n =>
      rw [hm] at hn
      cases hn.1
    | _ => rfl

theorem reaches_toPool {sources : List Path} {sink : Sink} {world : World}
    (h : Reaches m jobs force (start jobs sources sink world) t) :
    Pool.Reaches m jobs force (.start jobs sources sink world) t.toPool := by
  induction h with
  | refl => exact .refl
  | tail hr hs ih =>
    obtain ⟨part, hs⟩ := hs
    rcases hs.toPool (orderly_of_reaches hr) with hstep | ⟨heq, -⟩
    · exact ih.tail hstep
    · rwa [heq]

end Crew
end Recheck
