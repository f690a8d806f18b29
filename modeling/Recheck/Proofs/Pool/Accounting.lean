import Recheck.Proofs.Pool.Steps
/-!
# Where sources and outputs are

Whatever jobs do and in whatever order steps are taken, every source is at one place: with the feeder, in the queue, with
a worker or done; and so is every output: with a worker, on its way or written (`Accounted`).  In particular nothing is
left behind when the run returns (`Accounted.of_returned`).
-/
namespace Recheck

section
variable {α : Type} {a : α} {X A B : List α}

theorem perm_append_singleton_insert (h : X.Perm (A ++ B)) : (X ++ [a]).Perm (A ++ a :: B) :=
  (List.perm_append_singleton a X).trans ((h.cons a).trans List.perm_middle.symm)

theorem perm_insert_move {C : List α} (h : X.Perm (A ++ (B ++ a :: C))) : X.Perm (A ++ [a] ++ (B ++ C)) := by
  rw [List.append_assoc, List.singleton_append]
  exact h.trans (List.perm_middle.append_left A)

end

theorem eq_map_fst {α β : Type} (f : α → β) : ∀ {l : List (α × β)}, (∀ x ∈ l, x.2 = f x.1) →
    l = (l.map Prod.fst).map fun a => (a, f a)
  | [], _ => rfl
  | x :: l, h => by
    have hx := h x List.mem_cons_self
    rw [List.map_cons, List.map_cons, ← eq_map_fst f fun y hy => h y (List.mem_cons_of_mem x hy), ← hx]

namespace Pool
variable {World Stage : Type} {m : Machine World Stage} {jobs : Nat} {force : Bool} {sources : List Path} {sink : Sink}
  {p q : Pool World Stage}

/-- The books of a pool. -/
structure Accounted (jobs : Nat) (force : Bool) (sources : List Path) (sink : Sink) (p : Pool World Stage) : Prop where
  order : p.started ++ (p.queue ++ p.pending) = sources
  inHand : p.started.Perm (p.ended.map Prod.fst ++ p.workers.filterMap Worker.source?)
  outputs : (p.ended.filterMap Prod.snd).Perm (p.written ++ p.blocks ++ p.workers.filterMap Worker.output?)
  dead : p.workers.countP Worker.isDead = p.ended.countP (·.2.isNone)
  length : p.workers.length = jobs
  left : Worker.left ∈ p.workers → p.feeding = false ∧ p.queue = [] ∧ p.pending = []
  fed : p.feeding = false → p.pending = [] ∨ ∀ w ∈ p.workers, w.isDead = true
  aggregator : p.aggregator = .drain sink p.written
  drained : p.draining = false → p.blocks = [] ∧ p.Deserted
  ending : ∀ e, p.ending = some e → p.feeding = false ∧ p.draining = false ∧
    e = Dispatch.ending force (p.workers.any Worker.isDead) p.aggregator.result

theorem accounted_start (world : World) :
    Accounted jobs force sources sink (start jobs sources sink world : Pool World Stage) where
  order := rfl
  inHand := by simp [start, Worker.source?]
  outputs := by simp [start, Worker.output?]
  dead := by simp [start, Worker.isDead, List.countP_replicate]
  length := by simp [start]
  left h := by simp [start] at h
  fed h := by cases h
  aggregator := rfl
  drained h := by cases h
  ending e h := by cases h

theorem Accounted.awake (h : Accounted jobs force sources sink p) {w : Worker Stage} (hw : w ∈ p.workers)
    (hg : w.isGone = false) : p.draining = true ∧ p.ending = none := by
  have hd : p.draining = true := by
    cases hd : p.draining with
    | true => rfl
    | false => exact absurd (h.drained hd).2 (Worker.not_all_gone hw hg)
  refine ⟨hd, ?_⟩
  cases he : p.ending with
  | none => rfl
  | some e =>
    have := (h.ending e he).2.1
    rw [hd] at this; cases this

theorem Accounted.of_workers (h : Accounted jobs force sources sink p) {l r : List (Worker Stage)} {w : Worker Stage}
    (hp : p.workers = l ++ w :: r) :
    p.started.Perm (p.ended.map Prod.fst ++ (l ++ w :: r).filterMap Worker.source?) ∧
      (p.ended.filterMap Prod.snd).Perm (p.written ++ p.blocks ++ (l ++ w :: r).filterMap Worker.output?) ∧
      (l ++ w :: r).countP Worker.isDead = p.ended.countP (·.2.isNone) :=
  hp ▸ ⟨h.inHand, h.outputs, h.dead⟩

theorem mem_of_split {l r : List (Worker Stage)} {w : Worker Stage} (hp : p.workers = l ++ w :: r) : w ∈ p.workers := by
  rw [hp]
  simp

theorem mem_of_replaced {l r : List (Worker Stage)} {w w' x : Worker Stage} (hp : p.workers = l ++ w :: r)
    (hx : x ∈ l ++ w' :: r) : x ∈ p.workers ∨ x = w' := by
  rw [hp]
  simp only [List.mem_append, List.mem_cons] at hx ⊢
  rcases hx with hx | hx | hx <;> simp [hx]

/-- What a step of one worker must account for: that worker's source and output, and whether it is dead or has left. -/
theorem Accounted.replace (h : Accounted jobs force sources sink p) {l r : List (Worker Stage)} {w w' : Worker Stage}
    (hp : p.workers = l ++ w :: r) (hw : w.isGone = false) {world : World} {queue started : List Path}
    {ended : List (Path × Option JobOutput)} {blocks : List JobOutput}
    (order : started ++ (queue ++ p.pending) = sources)
    (inHand : started.Perm (ended.map Prod.fst ++ (l ++ w' :: r).filterMap Worker.source?))
    (outputs : (ended.filterMap Prod.snd).Perm (p.written ++ blocks ++ (l ++ w' :: r).filterMap Worker.output?))
    (dead : (l ++ w' :: r).countP Worker.isDead = ended.countP (·.2.isNone))
    (left : Worker.left ∈ l ++ w' :: r → p.feeding = false ∧ queue = [] ∧ p.pending = []) :
    Accounted jobs force sources sink { p with
      world := world, queue := queue, workers := l ++ w' :: r, blocks := blocks, started := started, ended := ended } := by
  have hmem := mem_of_split hp
  obtain ⟨hd, he⟩ := h.awake hmem hw
  refine ⟨order, inHand, outputs, dead, ?_, left, fun hf => ?_, h.aggregator, fun hf => ?_, fun e hf => ?_⟩
  · rw [← h.length, hp]; simp
  · rcases h.fed hf with hn | hall
    · exact .inl hn
    · have := Worker.isGone_of_isDead (hall w hmem)
      rw [hw] at this; cases this
  · rw [show p.draining = false from hf] at hd; cases hd
  · rw [show p.ending = some e from hf] at he; cases he

/-- **Every step keeps the books.** -/
theorem Accounted.step (h : Accounted jobs force sources sink p) (hs : Step m jobs force p q) :
    Accounted jobs force sources sink q := by
  cases hs with
  | @feed s rest hf hp hroom halive =>
    refine { h with order := ?_, left := fun hm => ?_, fed := fun hf' => ?_ }
    · rw [← h.order, hp]; simp
    · rw [(h.left hm).1] at hf; cases hf
    · rw [show p.feeding = false from hf'] at hf; cases hf
  | @giveUp s rest hf hp hd =>
    -- nobody has left a queue that is still open
    have hdead : ∀ w ∈ p.workers, w.isDead = true := by
      intro w hw
      cases hcase : w with
      | dead => rfl
      | left =>
        rw [hcase] at hw
        rw [(h.left hw).1] at hf; cases hf
      | _ =>
        have := hd w hw
        rw [hcase] at this; cases this
    refine { h with left := fun hm => ?_, fed := fun _ => .inr hdead, ending := fun e he => ?_ }
    · have := hdead _ hm; cases this
    · rw [(h.ending e he).1] at hf; cases hf
  | close hf hp =>
    refine { h with left := fun hm => ?_, fed := fun _ => .inl hp, ending := fun e he => ?_ }
    · rw [(h.left hm).1] at hf; cases hf
    · rw [(h.ending e he).1] at hf; cases hf
  | @take l r s rest hw hq =>
    obtain ⟨hin, hout, hdead⟩ := h.of_workers hw
    refine h.replace hw rfl ?_ ?_ ?_ ?_ fun hm => ?_
    · rw [← h.order, hq]; simp
    · simp only [List.filterMap_append, List.filterMap_cons, Worker.source?] at hin ⊢
      rw [← List.append_assoc] at hin ⊢
      exact perm_append_singleton_insert hin
    · simpa [List.filterMap_cons] using hout
    · simpa [List.countP_cons] using hdead
    · have : Worker.left ∈ p.workers := by rw [hw]; simpa using hm
      rw [(h.left this).2.1] at hq; cases hq
  | @goOn l r s stage stage' world hw hn =>
    obtain ⟨hin, hout, hdead⟩ := h.of_workers hw
    refine h.replace hw rfl h.order ?_ ?_ ?_ fun hm => h.left (by rw [hw]; simpa using hm)
    · simpa [List.filterMap_cons] using hin
    · simpa [List.filterMap_cons] using hout
    · simpa [List.countP_cons] using hdead
  | @finish l r s stage o world hw hn =>
    obtain ⟨hin, hout, hdead⟩ := h.of_workers hw
    refine h.replace hw rfl h.order ?_ ?_ ?_ fun hm => h.left (by rw [hw]; simpa using hm)
    · simp only [List.filterMap_append, List.filterMap_cons, Worker.source?, List.map_append] at hin ⊢
      exact perm_insert_move hin
    · simp only [List.filterMap_append, List.filterMap_cons, Worker.output?, List.filterMap_nil] at hout ⊢
      rw [← List.append_assoc] at hout ⊢
      exact perm_append_singleton_insert hout
    · simpa [List.countP_cons] using hdead
  | @crash l r s stage world hw hn =>
    obtain ⟨hin, hout, hdead⟩ := h.of_workers hw
    refine h.replace hw rfl h.order ?_ ?_ ?_ fun hm => h.left (by rw [hw]; simpa using hm)
    · simp only [List.filterMap_append, List.filterMap_cons, Worker.source?, List.map_append] at hin ⊢
      exact perm_insert_move hin
    · simpa [List.filterMap_cons] using hout
    · simp [List.countP_cons] at hdead ⊢
      omega
  | @send l r o hw =>
    obtain ⟨hin, hout, hdead⟩ := h.of_workers hw
    refine h.replace hw rfl h.order ?_ ?_ ?_ fun hm => h.left (by rw [hw]; simpa using hm)
    · simpa [List.filterMap_cons] using hin
    · simp only [List.filterMap_append, List.filterMap_cons, Worker.output?] at hout ⊢
      rw [← List.append_assoc p.written]
      exact perm_insert_move hout
    · simpa [List.countP_cons] using hdead
  | @leave l r hw hf hq =>
    obtain ⟨hin, hout, hdead⟩ := h.of_workers hw
    have hpending : p.pending = [] := by
      rcases h.fed hf with hn | hall
      · exact hn
      · have := hall .idle (mem_of_split hw)
        cases this
    refine h.replace hw rfl h.order ?_ ?_ ?_ fun _ => ⟨hf, hq, hpending⟩
    · simpa [List.filterMap_cons] using hin
    · simpa [List.filterMap_cons] using hout
    · simpa [List.countP_cons] using hdead
  | @write o rest hd hb =>
    refine { h with outputs := ?_, aggregator := ?_, drained := fun hf => ?_, ending := fun e he => ?_ }
    · have hout := h.outputs
      rw [hb] at hout
      simpa using hout
    · rw [h.aggregator, Aggregator.drain, Aggregator.drain, List.foldl_append]
      rfl
    · rw [show p.draining = false from hf] at hd; cases hd
    · rw [(h.ending e he).2.1] at hd; cases hd
  | drained hd hb hg =>
    refine { h with drained := fun _ => ⟨hb, hg⟩, ending := fun e he => ?_ }
    rw [(h.ending e he).2.1] at hd; cases hd
  | back he hf hg hd =>
    refine { h with ending := fun e h' => ?_ }
    cases h'
    exact ⟨hf, hd, rfl⟩

theorem accounted_of_reaches {world : World} (h : Reaches m jobs force (start jobs sources sink world) p) :
    Accounted jobs force sources sink p := by
  induction h with
  | refl => exact accounted_start world
  | tail _ hs ih => exact ih.step hs

/-- **What every step of a job keeps of the world holds after every run**, with what is known of the stages that jobs of
these sources come to. -/
theorem world_of_reaches {world : World} {P : World → Prop} {Q : Stage → Prop}
    (first : ∀ s ∈ sources, Q (m.first s))
    (step : ∀ stage world n, Q stage → P world → m.next stage world n →
      P n.world ∧ ∀ stage' world', n = .goOn stage' world' → Q stage')
    (h : Reaches m jobs force (start jobs sources sink world) p) (hp : P world) :
    P p.world ∧ ∀ s stage, .busy s stage ∈ p.workers → Q stage := by
  induction h with
  | refl => exact ⟨hp, fun s stage hs => by simp [start] at hs⟩
  | tail hr hs ih =>
    obtain ⟨hworld, hstages⟩ := ih
    cases hs with
    | @take l r s rest hw hq =>
      refine ⟨hworld, fun t stage ht => ?_⟩
      rcases mem_of_replaced hw ht with ht | ht
      · exact hstages t stage ht
      · cases ht
        refine first s ?_
        rw [← (accounted_of_reaches hr).order, hq]
        simp
    | goOn hw hn =>
      obtain ⟨hworld', hgoes⟩ := step _ _ _ (hstages _ _ (mem_of_split hw)) hworld hn
      refine ⟨hworld', fun t stage ht => ?_⟩
      rcases mem_of_replaced hw ht with ht | ht
      · exact hstages t stage ht
      · cases ht
        exact hgoes _ _ rfl
    | finish hw hn | crash hw hn =>
      refine ⟨(step _ _ _ (hstages _ _ (mem_of_split hw)) hworld hn).1, fun t stage ht => ?_⟩
      exact hstages t stage ((mem_of_replaced hw ht).resolve_right nofun)
    | send hw | leave hw =>
      exact ⟨hworld, fun t stage ht => hstages t stage ((mem_of_replaced hw ht).resolve_right nofun)⟩
    | _ => exact ⟨hworld, hstages⟩

/-- **What jobs come to by what is known of their stages**: it holds of every job that is over, whichever of the sources
it was for and whatever the others did. -/
theorem ended_of_reaches {world : World} {Q : Path → Stage → Prop} {R : Path → Option JobOutput → Prop}
    (first : ∀ s, Q s (m.first s))
    (goOn : ∀ s stage world stage' world', Q s stage → m.next stage world (.goOn stage' world') → Q s stage')
    (ended : ∀ s stage world o world', Q s stage → m.next stage world (.ended o world') → R s o)
    (h : Reaches m jobs force (start jobs sources sink world) p) :
    (∀ s stage, .busy s stage ∈ p.workers → Q s stage) ∧ ∀ x ∈ p.ended, R x.1 x.2 := by
  induction h with
  | refl => exact ⟨fun s stage hs => by simp [start] at hs, fun x hx => by simp [start] at hx⟩
  | tail _ hs ih =>
    obtain ⟨hstages, hended⟩ := ih
    cases hs with
    | take hw =>
      refine ⟨fun t stage ht => ?_, hended⟩
      rcases mem_of_replaced hw ht with ht | ht
      · exact hstages t stage ht
      · cases ht
        exact first _
    | goOn hw hn =>
      refine ⟨fun t stage ht => ?_, hended⟩
      rcases mem_of_replaced hw ht with ht | ht
      · exact hstages t stage ht
      · cases ht
        exact goOn _ _ _ _ _ (hstages _ _ (mem_of_split hw)) hn
    | finish hw hn | crash hw hn =>
      refine ⟨fun t stage ht => hstages t stage ((mem_of_replaced hw ht).resolve_right nofun), fun x hx => ?_⟩
      rcases List.mem_append.1 hx with hx | hx
      · exact hended x hx
      · rw [List.mem_singleton.1 hx]
        exact ended _ _ _ _ _ (hstages _ _ (mem_of_split hw)) hn
    | send hw | leave hw =>
      exact ⟨fun t stage ht => hstages t stage ((mem_of_replaced hw ht).resolve_right nofun), hended⟩
    | _ => exact ⟨hstages, hended⟩

/-! ## The end of a run -/

theorem Accounted.quiet (h : Accounted jobs force sources sink p) {e : RunEnd} (he : p.ending = some e) :
    p.workers.filterMap Worker.source? = [] ∧ p.workers.filterMap Worker.output? = [] ∧ p.blocks = [] := by
  obtain ⟨hblocks, hgone⟩ := h.drained (h.ending e he).2.1
  refine ⟨List.filterMap_eq_nil_iff.2 fun w hw => ?_, List.filterMap_eq_nil_iff.2 fun w hw => ?_, hblocks⟩
  · have := hgone w hw
    cases w <;> first | rfl | cases this
  · have := hgone w hw
    cases w <;> first | rfl | cases this

/-- **When the run returns, all that was started is over and written**, and no source is left behind unless every worker
is dead. -/
theorem Accounted.of_returned (h : Accounted jobs force sources sink p) {e : RunEnd} (he : p.ending = some e) :
    p.started.Perm (p.ended.map Prod.fst) ∧ (p.ended.filterMap Prod.snd).Perm p.written ∧
      (p.ended.countP (·.2.isNone) = jobs ∨ p.started = sources) ∧
      e = Dispatch.ending force (p.ended.any (·.2.isNone)) p.aggregator.result := by
  obtain ⟨-, hdraining, hending⟩ := h.ending e he
  obtain ⟨-, hgone⟩ := h.drained hdraining
  obtain ⟨hsource, houtput, hblocks⟩ := h.quiet he
  have hany : p.workers.any Worker.isDead = p.ended.any (·.2.isNone) := by
    rw [Bool.eq_iff_iff, List.any_eq_true, List.any_eq_true, ← List.countP_pos_iff, ← List.countP_pos_iff, h.dead]
  refine ⟨by simpa [hsource] using h.inHand, by simpa [houtput, hblocks] using h.outputs, ?_, hany ▸ hending⟩
  by_cases hdead : ∀ w ∈ p.workers, w.isDead = true
  · refine .inl ?_
    rw [← h.dead, ← h.length]
    exact List.countP_eq_length.2 hdead
  · -- a worker that is gone and not dead has left an empty queue
    refine .inr ?_
    have hleft : Worker.left ∈ p.workers := by
      simp only [Classical.not_forall] at hdead
      obtain ⟨w, hw, hd⟩ := hdead
      have hg := hgone w hw
      cases w with
      | left => exact hw
      | dead => exact absurd rfl hd
      | _ => cases hg
    obtain ⟨-, hq, hp⟩ := h.left hleft
    have horder := h.order
    rw [hq, hp] at horder
    simpa using horder

end Pool
end Recheck
