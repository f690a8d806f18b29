import Recheck.Proofs.Pool.Accounting
/-!
# Jobs that leave each other alone

Where a source is in a run (`Pool.At`), and what holds of it there.  What every step of a source's own job carries on
from stage to stage, and no step of another source's job breaks (`Isolated`), holds of every source in every state of
every run (`Isolated.holds_of_reaches`).
-/
namespace Recheck
variable {World Stage : Type}

/-- How far a source is. -/
inductive Phase (Stage : Type) where
  | waiting
  | running (stage : Stage)
  | ended (output : Option JobOutput)

def Next.phase : Next World Stage → Phase Stage
  | goOn stage _ => .running stage
  | ended o _    => .ended o

/-- What is said of a source at a phase survives its own steps and those of others. -/
structure Isolated (m : Machine World Stage) (sources : List Path) (I : Path → Phase Stage → World → Prop) : Prop where
  first : ∀ s ∈ sources, ∀ world, I s .waiting world → I s (.running (m.first s)) world
  own : ∀ s ∈ sources, ∀ stage world n, I s (.running stage) world → m.next stage world n → I s n.phase n.world
  others : ∀ s ∈ sources, ∀ t ∈ sources, s ≠ t → ∀ phase stage world n,
    I s phase world → I t (.running stage) world → m.next stage world n → I s phase n.world

namespace Pool
variable {m : Machine World Stage} {jobs : Nat} {force : Bool} {sources : List Path} {sink : Sink}
  {I : Path → Phase Stage → World → Prop} {p q : Pool World Stage}

/-- Where a source is in a pool. -/
inductive At (p : Pool World Stage) : Path → Phase Stage → Prop
  | queued {s} : s ∈ p.queue ++ p.pending → At p s .waiting
  | inHand {s stage} : .busy s stage ∈ p.workers → At p s (.running stage)
  | ended {s o} : (s, o) ∈ p.ended → At p s (.ended o)

theorem mem_source {ws : List (Worker Stage)} {s : Path} {stage : Stage} (h : .busy s stage ∈ ws) :
    s ∈ ws.filterMap Worker.source? :=
  List.mem_filterMap.2 ⟨_, h, rfl⟩

theorem Accounted.mem_of_at (h : Accounted jobs force sources sink p) {s : Path} {phase : Phase Stage}
    (ha : p.At s phase) : s ∈ sources := by
  rw [← h.order, List.mem_append, h.inHand.mem_iff, List.mem_append]
  cases ha with
  | queued hs => exact .inr hs
  | inHand hs => exact .inl (.inr (mem_source hs))
  | ended hs => exact .inl (.inl (List.mem_map_of_mem hs))

/-- When the run returns, a source that was not left behind is done. -/
theorem Accounted.at_of_returned (h : Accounted jobs force sources sink p) {e : RunEnd} (he : p.ending = some e) {s : Path}
    (hs : s ∈ sources) : p.At s .waiting ∨ ∃ o, p.At s (.ended o) := by
  rw [← h.order, List.mem_append] at hs
  rcases hs with hs | hs
  · obtain ⟨⟨t, o⟩, ho, rfl⟩ := List.mem_map.1 ((h.of_returned he).1.mem_iff.1 hs)
    exact .inr ⟨o, .ended ho⟩
  · exact .inl (.queued hs)

theorem Accounted.apart (h : Accounted jobs force sources sink p) (hn : sources.Nodup) {l r : List (Worker Stage)}
    {t : Path} {stage : Stage} (hw : p.workers = l ++ .busy t stage :: r) :
    t ∉ p.queue ++ p.pending ∧ (∀ stage', .busy t stage' ∉ l ++ r) ∧ t ∉ p.ended.map Prod.fst := by
  obtain ⟨hin, -, -⟩ := h.of_workers hw
  have hperm : sources.Perm (t :: (p.ended.map Prod.fst ++ (l ++ r).filterMap Worker.source? ++
      (p.queue ++ p.pending))) := by
    rw [← h.order]
    refine (hin.append_right _).trans ?_
    rw [← List.cons_append]
    refine List.Perm.append_right _ ?_
    simp only [List.filterMap_append, List.filterMap_cons, Worker.source?]
    rw [← List.append_assoc, ← List.append_assoc]
    exact List.perm_middle
  have hnot := (List.nodup_cons.1 (hperm.nodup_iff.1 hn)).1
  simp only [List.mem_append, not_or] at hnot
  obtain ⟨⟨hended, hworkers⟩, hqueue, hpending⟩ := hnot
  refine ⟨by simp [hqueue, hpending], fun stage' hm => ?_, hended⟩
  exact hworkers (mem_source hm)

/-- A source in the hands of a worker is nowhere else. -/
theorem Accounted.phase_of_busy (h : Accounted jobs force sources sink p) (hn : sources.Nodup) {s : Path}
    {stage : Stage} (hw : .busy s stage ∈ p.workers) {phase : Phase Stage} (ha : p.At s phase) :
    phase = .running stage := by
  obtain ⟨l, r, hsplit⟩ := List.append_of_mem hw
  obtain ⟨hqueue, hworkers, hended⟩ := h.apart hn hsplit
  cases ha with
  | queued hs => exact absurd hs hqueue
  | ended hs => exact absurd (List.mem_map_of_mem hs) hended
  | inHand hs =>
    rw [hsplit, List.mem_append, List.mem_cons] at hs
    rcases hs with hs | hs | hs
    · exact absurd (List.mem_append_left _ hs) (hworkers _)
    · cases hs
      rfl
    · exact absurd (List.mem_append_right _ hs) (hworkers _)

/-- After a step of its job a source is at the phase that the step leads to, and all others are where they were. -/
theorem Accounted.at_of_moved (h : Accounted jobs force sources sink p) (hn : sources.Nodup)
    {l r : List (Worker Stage)} {t : Path} {stage : Stage} {w : Worker Stage} {x : List (Path × Option JobOutput)}
    {s : Path} {phase phase' : Phase Stage} (hw : p.workers = l ++ .busy t stage :: r) (ha : q.At s phase')
    (hqueue : q.queue ++ q.pending = p.queue ++ p.pending) (hworkers : q.workers = l ++ w :: r)
    (hended : q.ended = p.ended ++ x) (hbusy : ∀ s stage', w = .busy s stage' → s = t ∧ .running stage' = phase)
    (houtput : ∀ s o, (s, o) ∈ x → s = t ∧ .ended o = phase) :
    (s = t ∧ phase' = phase) ∨ (s ≠ t ∧ p.At s phase') := by
  obtain ⟨hnq, hnw, hne⟩ := h.apart hn hw
  cases ha with
  | queued hs =>
    rw [hqueue] at hs
    exact .inr ⟨fun he => hnq (he ▸ hs), .queued hs⟩
  | @inHand stage' hs =>
    rw [hworkers, List.mem_append, List.mem_cons] at hs
    by_cases hold : .busy s stage' ∈ l ++ r
    · refine .inr ⟨fun he => hnw stage' (he ▸ hold), .inHand ?_⟩
      rw [hw]
      rw [List.mem_append] at hold
      rcases hold with hold | hold <;> simp [hold]
    · rcases hs with hs | hs | hs
      · exact absurd (List.mem_append_left _ hs) hold
      · obtain ⟨hst, hphase⟩ := hbusy s stage' hs.symm
        exact .inl ⟨hst, hphase⟩
      · exact absurd (List.mem_append_right _ hs) hold
  | @ended o hs =>
    rw [hended, List.mem_append] at hs
    rcases hs with hs | hs
    · exact .inr ⟨fun he => hne (he ▸ List.mem_map_of_mem hs), .ended hs⟩
    · obtain ⟨hst, hphase⟩ := houtput s o hs
      exact .inl ⟨hst, hphase⟩

/-- **What a step does to the places of sources.**  Either the world is left as it is, and sources stay where they are but
for one that is taken perhaps; or the job of one source takes a step. -/
theorem Step.places (hs : Step m jobs force p q) (h : Accounted jobs force sources sink p) (hn : sources.Nodup) :
    (q.world = p.world ∧ ∀ s phase, q.At s phase →
      p.At s phase ∨ (p.At s .waiting ∧ phase = .running (m.first s))) ∨
    ∃ t stage n, p.At t (.running stage) ∧ m.next stage p.world n ∧ q.world = n.world ∧
      ∀ s phase, q.At s phase → (s = t ∧ phase = n.phase) ∨ (s ≠ t ∧ p.At s phase) := by
  have still {q : Pool World Stage} (hqueue : ∀ s, s ∈ q.queue ++ q.pending → s ∈ p.queue ++ p.pending)
      (hworkers : ∀ s stage, .busy s stage ∈ q.workers → .busy s stage ∈ p.workers) (hended : q.ended = p.ended)
      (s : Path) (phase : Phase Stage) (ha : q.At s phase) :
      p.At s phase ∨ (p.At s .waiting ∧ phase = .running (m.first s)) := by
    cases ha with
    | queued hs => exact .inl (.queued (hqueue s hs))
    | inHand hs => exact .inl (.inHand (hworkers s _ hs))
    | ended hs => exact .inl (.ended (hended ▸ hs))
  cases hs with
  | feed hf hp hroom halive =>
    refine .inl ⟨rfl, still (fun s hs => ?_) (fun _ _ h => h) rfl⟩
    rw [hp]
    simpa using hs
  | @take l r s rest hw hq =>
    refine .inl ⟨rfl, fun t phase ha => ?_⟩
    cases ha with
    | queued hs =>
      refine .inl (.queued ?_)
      rw [hq]
      exact List.mem_cons_of_mem _ hs
    | inHand hs =>
      rcases mem_of_replaced hw hs with hs | hs
      · exact .inl (.inHand hs)
      · cases hs
        exact .inr ⟨.queued (by rw [hq]; exact List.mem_cons_self), rfl⟩
    | ended hs => exact .inl (.ended hs)
  | goOn hw hnext =>
    refine .inr ⟨_, _, _, .inHand (mem_of_split hw), hnext, rfl, fun s phase ha => ?_⟩
    refine h.at_of_moved (x := []) hn hw ha rfl rfl (by simp) (fun s stage' he => ?_) (fun s o hx => ?_)
    · cases he
      exact ⟨rfl, rfl⟩
    · cases hx
  | finish hw hnext | crash hw hnext =>
    refine .inr ⟨_, _, _, .inHand (mem_of_split hw), hnext, rfl, fun s phase ha => ?_⟩
    refine h.at_of_moved hn hw ha rfl rfl rfl (fun s stage' he => ?_) (fun s o hx => ?_)
    · cases he
    · cases List.mem_singleton.1 hx
      exact ⟨rfl, rfl⟩
  | send hw | leave hw =>
    refine .inl ⟨rfl, still (fun _ h => h) (fun s stage hs => ?_) rfl⟩
    exact (mem_of_replaced hw hs).resolve_right (by simp)
  | _ => exact .inl ⟨rfl, still (fun _ h => h) (fun _ _ h => h) rfl⟩

end Pool

namespace Isolated
open Pool
variable {m : Machine World Stage} {jobs : Nat} {force : Bool} {sources : List Path} {sink : Sink} {world : World}
  {I : Path → Phase Stage → World → Prop} {p q : Pool World Stage}

theorem step (hI : Isolated m sources I) (hn : sources.Nodup) (h : Accounted jobs force sources sink p)
    (hp : ∀ s phase, p.At s phase → I s phase p.world) (hs : Step m jobs force p q) :
    ∀ s phase, q.At s phase → I s phase q.world := by
  intro s phase ha
  rcases hs.places h hn with ⟨hworld, hstill⟩ | ⟨t, stage, n, ht, hnext, hworld, hmoved⟩
  · rw [hworld]
    rcases hstill s phase ha with hat | ⟨hat, rfl⟩
    · exact hp s phase hat
    · exact hI.first s (h.mem_of_at hat) _ (hp s .waiting hat)
  · rw [hworld]
    have htI := hp t _ ht
    rcases hmoved s phase ha with ⟨rfl, rfl⟩ | ⟨hne, hat⟩
    · exact hI.own s (h.mem_of_at ht) stage p.world n htI hnext
    · exact hI.others s (h.mem_of_at hat) t (h.mem_of_at ht) hne phase stage p.world n (hp s phase hat) htI hnext

/-- What is said of sources in one state of a run holds in all later ones. -/
theorem holds_later (hI : Isolated m sources I) (hn : sources.Nodup)
    (hp : Reaches m jobs force (start jobs sources sink world) p) (h : ∀ s phase, p.At s phase → I s phase p.world)
    (hq : Reaches m jobs force p q) : ∀ s phase, q.At s phase → I s phase q.world := by
  induction hq with
  | refl => exact h
  | tail hr hs ih => exact hI.step hn (accounted_of_reaches (hp.trans hr)) ih hs

/-- **What is said of sources holds in every state of every run**, if it does before the first step. -/
theorem holds_of_reaches (hI : Isolated m sources I) (hn : sources.Nodup) (h0 : ∀ s ∈ sources, I s .waiting world)
    (h : Reaches m jobs force (start jobs sources sink world) p) :
    ∀ s phase, p.At s phase → I s phase p.world := by
  refine hI.holds_later hn .refl (fun s phase ha => ?_) h
  cases ha with
  | queued hs => exact h0 s (by simpa [start] using hs)
  | inHand hs => simp [start] at hs
  | ended hs => simp [start] at hs

/-- What the jobs keep of the world, as far as they can have come, holds after every run. -/
theorem world_of_reaches (hI : Isolated m sources I) (hn : sources.Nodup) (h0 : ∀ s ∈ sources, I s .waiting world)
    {P : World → Prop}
    (step : ∀ s ∈ sources, ∀ stage w n, P w → I s (.running stage) w → m.next stage w n → P n.world)
    (h : Reaches m jobs force (start jobs sources sink world) p) (hP : P world) : P p.world := by
  induction h with
  | refl => exact hP
  | tail hr hs ih =>
    rcases hs.places (accounted_of_reaches hr) hn with ⟨hworld, -⟩ | ⟨t, stage, n, ht, hnext, hworld, -⟩
    · rw [hworld]
      exact ih
    · rw [hworld]
      exact step t ((accounted_of_reaches hr).mem_of_at ht) stage _ n ih (hI.holds_of_reaches hn h0 hr t _ ht) hnext

/-- **When a run of jobs that do not crash returns, the job of every source is over**, and was done once. -/
theorem ended_of_returned (hI : Isolated m sources I) (hn : sources.Nodup) (h0 : ∀ s ∈ sources, I s .waiting world)
    (hj : 0 < jobs) (hcrash : ∀ s ∈ sources, ∀ world, ¬I s (.ended none) world)
    (h : Reaches m jobs force (start jobs sources sink world) p) {e : RunEnd} (he : p.ending = some e) :
    (p.ended.map Prod.fst).Perm sources ∧ ∀ x ∈ p.ended, I x.1 (.ended x.2) p.world := by
  have hend : ∀ x ∈ p.ended, I x.1 (.ended x.2) p.world :=
    fun x hx => hI.holds_of_reaches hn h0 h x.1 (.ended x.2) (.ended hx)
  obtain ⟨hstarted, -, hall, -⟩ := (accounted_of_reaches h).of_returned he
  have hnone : p.ended.countP (·.2.isNone) = 0 := by
    rw [List.countP_eq_zero]
    intro x hx hc
    have hx' := hend x hx
    rw [Option.isNone_iff_eq_none.1 hc] at hx'
    exact hcrash x.1 ((accounted_of_reaches h).mem_of_at (.ended hx)) _ hx'
  have hsources : p.started = sources := hall.resolve_left (by omega)
  exact ⟨hsources ▸ hstarted.symm, hend⟩

end Isolated
end Recheck
