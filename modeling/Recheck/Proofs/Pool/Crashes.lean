import Recheck.Proofs.Dispatch.Draining
import Recheck.Proofs.Pool.Accounting
import Recheck.Proofs.Pool.Progress
/-!
# Crashes and blocks

Where what comes of a job depends on its source alone, the sources that are started do not depend on the order of steps:
they are all up to the one whose crash takes the last worker (`upToCrash`).  For as long as a worker is free, fewer jobs
have crashed or are about to than there are workers.  Every started source that does not crash has its block written
once, in the order of the sources where there is one worker (`returned_ofResults`).
-/
namespace Recheck

/-- The sources up to the `n`-th of those that crash. -/
def upToCrash (crashes : Path → Bool) : Nat → List Path → List Path
  | 0, _                => []
  | _ + 1, []           => []
  | n + 1, s :: sources => s :: upToCrash crashes (if crashes s then n else n + 1) sources

/-- A first part of the sources, with the `n`-th crash at its end or none left out, is all up to that crash. -/
theorem eq_upToCrash {crashes : Path → Bool} : ∀ {n : Nat} (part : List Path) {rest : List Path},
    part.dropLast.countP crashes < n → (part.countP crashes = n ∨ rest = []) →
    part = upToCrash crashes n (part ++ rest)
  | n, [], rest, hlt, hend => by
    have hrest : rest = [] := by
      rcases hend with he | he
      · simp at hlt he; omega
      · exact he
    rw [hrest]
    cases n <;> rfl
  | 0, s :: part, rest, hlt, _ => absurd hlt (Nat.not_lt_zero _)
  | n + 1, s :: part, rest, hlt, hend => by
    rw [List.cons_append, upToCrash]
    congr 1
    by_cases hp : part = []
    · subst hp
      cases hs : crashes s with
      | true =>
        rcases hend with he | rfl
        · have : n = 0 := by simpa [hs] using he.symm
          subst this
          rw [if_pos rfl, upToCrash]
        · cases n <;> rfl
      | false =>
        rcases hend with he | rfl
        · simp [hs] at he
        · rfl
    · rw [List.dropLast_cons_of_ne_nil hp, List.countP_cons] at hlt
      rw [List.countP_cons] at hend
      cases hs : crashes s with
      | true =>
        simp only [hs, if_true] at hlt hend ⊢
        exact eq_upToCrash part (by omega) (hend.imp_left fun he => by omega)
      | false =>
        simp only [hs, Bool.false_eq_true, if_false] at hlt hend ⊢
        exact eq_upToCrash part (by omega) (hend.imp_left fun he => by omega)

namespace Pool
variable {result : Path → Option JobOutput} {jobs : Nat} {force : Bool} {sources : List Path} {sink : Sink}
  {p q : Pool Unit Path}

def Crashes (result : Path → Option JobOutput) (s : Path) : Bool := (result s).isNone

/-- What holds besides the books where results are laid down. -/
structure Foreseen (result : Path → Option JobOutput) (jobs : Nat) (p : Pool Unit Path) : Prop where
  busy : ∀ s stage, Worker.busy s stage ∈ p.workers → stage = s
  ended : ∀ x ∈ p.ended, x.2 = result x.1
  early : p.started.dropLast.countP (Crashes result) < jobs

/-- Each dead worker and each with a source that crashes is another one. -/
theorem countP_lost_le {Stage : Type} (c : Path → Bool) : ∀ ws : List (Worker Stage),
    ws.countP Worker.isDead + (ws.filterMap Worker.source?).countP c ≤ ws.length
  | [] => by simp
  | w :: ws => by
    have ih := countP_lost_le c ws
    cases w with
    | busy s stage =>
      cases hc : c s <;> simp [hc] <;> omega
    | _ =>
      simp only [List.countP_cons, List.filterMap_cons, List.length_cons, Worker.isDead, Worker.source?, if_true,
        Bool.false_eq_true, if_false]
      omega

theorem Foreseen.countP_ended (h : Foreseen result jobs p) :
    (p.ended.map Prod.fst).countP (Crashes result) = p.ended.countP (·.2.isNone) := by
  rw [List.countP_map]
  refine List.countP_congr fun x hx => ?_
  rw [Function.comp, Crashes, ← h.ended x hx]

/-- **While a worker is free, fewer sources were started that crash than there are workers.** -/
theorem Foreseen.early_of_idle (h : Foreseen result jobs p) (ha : Accounted jobs force sources sink p)
    {l r : List (Worker Path)} (hw : p.workers = l ++ .idle :: r) : p.started.countP (Crashes result) < jobs := by
  obtain ⟨hin, -, hdead⟩ := ha.of_workers hw
  have hl := countP_lost_le (Crashes result) l
  have hr := countP_lost_le (Crashes result) r
  have hlength : l.length + r.length + 1 = jobs := by
    rw [← ha.length, hw]; simp; omega
  rw [hin.countP_eq, List.countP_append, h.countP_ended, ← hdead]
  simp [List.filterMap_cons]
  omega

theorem Foreseen.step (h : Foreseen result jobs p) (ha : Accounted jobs force sources sink p)
    (hs : Step (.ofResults result) jobs force p q) : Foreseen result jobs q := by
  cases hs with
  | @take l r s rest hw hq =>
    refine { h with busy := fun t stage hm => ?_, early := ?_ }
    · rcases mem_of_replaced hw hm with hm | hm
      · exact h.busy t stage hm
      · cases hm; rfl
    · simpa using h.early_of_idle ha hw
  | @goOn l r s stage stage' world hw hn => cases hn
  | @finish l r s stage o world hw hn =>
    have hstage := h.busy s stage (mem_of_split hw)
    refine { h with busy := fun t stage hm => ?_, ended := fun x hx => ?_ }
    · exact h.busy t stage ((mem_of_replaced hw hm).resolve_right (by simp))
    · rcases List.mem_append.1 hx with hx | hx
      · exact h.ended x hx
      · rw [List.mem_singleton.1 hx, ← hstage]
        exact (Next.ended.inj hn).1
  | @crash l r s stage world hw hn =>
    have hstage := h.busy s stage (mem_of_split hw)
    refine { h with busy := fun t stage hm => ?_, ended := fun x hx => ?_ }
    · exact h.busy t stage ((mem_of_replaced hw hm).resolve_right (by simp))
    · rcases List.mem_append.1 hx with hx | hx
      · exact h.ended x hx
      · rw [List.mem_singleton.1 hx, ← hstage]
        exact (Next.ended.inj hn).1
  | @send l r o hw =>
    exact { h with busy := fun t stage hm => h.busy t stage ((mem_of_replaced hw hm).resolve_right (by simp)) }
  | @leave l r hw hf hq =>
    exact { h with busy := fun t stage hm => h.busy t stage ((mem_of_replaced hw hm).resolve_right (by simp)) }
  | _ => exact { h with }

theorem foreseen_of_reaches (hj : 0 < jobs) (h : Reaches (.ofResults result) jobs force (start jobs sources sink ()) p) :
    Foreseen result jobs p := by
  induction h with
  | refl =>
    refine ⟨fun s stage hm => ?_, fun x hx => ?_, by simpa [start] using hj⟩
    · simp [start] at hm
    · simp [start] at hx
  | tail hr hs ih => exact ih.step (accounted_of_reaches hr) hs

/-! ## One worker -/

/-- With one worker, jobs end in the order in which they were started, and their outputs arrive in that order. -/
structure InTurn {World Stage : Type} (p : Pool World Stage) : Prop where
  sources : p.started = p.ended.map Prod.fst ++ p.workers.filterMap Worker.source?
  outputs : p.ended.filterMap Prod.snd = p.written ++ p.blocks ++ p.workers.filterMap Worker.output?

theorem InTurn.step {World Stage : Type} {m : Machine World Stage} {p q : Pool World Stage} (h : InTurn p)
    (ha : Accounted 1 force sources sink p) (hs : Step m 1 force p q) : InTurn q := by
  have alone : ∀ {l r w}, p.workers = l ++ w :: r → l = [] ∧ r = [] := by
    intro l r w hw
    have hlength := ha.length
    rw [hw] at hlength
    simp only [List.length_append, List.length_cons] at hlength
    exact ⟨List.length_eq_zero_iff.1 (by omega), List.length_eq_zero_iff.1 (by omega)⟩
  obtain ⟨hsources, houtputs⟩ := h
  cases hs with
  | finish hw =>
    obtain ⟨rfl, rfl⟩ := alone hw
    rw [hw] at hsources houtputs
    simp only [List.nil_append, List.filterMap_cons, Worker.output?, List.filterMap_nil, List.append_nil] at houtputs
    exact ⟨by simpa [List.filterMap_cons] using hsources, by simp [houtputs]⟩
  | take hw | goOn hw | crash hw | send hw | leave hw =>
    obtain ⟨rfl, rfl⟩ := alone hw
    rw [hw] at hsources houtputs
    constructor
    · simpa [List.filterMap_cons] using hsources
    · simpa [List.filterMap_cons] using houtputs
  | write hd hb =>
    rw [hb] at houtputs
    exact ⟨hsources, by simpa using houtputs⟩
  | _ => exact ⟨hsources, houtputs⟩

theorem inTurn_of_reaches {World Stage : Type} {m : Machine World Stage} {p : Pool World Stage} {world : World}
    (h : Reaches m 1 force (start 1 sources sink world) p) : InTurn p := by
  induction h with
  | refl => exact ⟨by simp [start], by simp [start]⟩
  | tail hr hs ih => exact ih.step (accounted_of_reaches hr) hs

/-! ## A run that has returned -/

theorem Foreseen.filterMap_ended (h : Foreseen result jobs p) :
    p.ended.filterMap Prod.snd = (p.ended.map Prod.fst).filterMap result := by
  have hall := h.ended
  generalize p.ended = ended at hall
  induction ended with
  | nil => rfl
  | cons x ended ih =>
    have hx := hall x List.mem_cons_self
    rw [List.map_cons, List.filterMap_cons, List.filterMap_cons, hx, ih fun y hy => hall y (List.mem_cons_of_mem _ hy)]

theorem Foreseen.any_ended (h : Foreseen result jobs p) :
    p.ended.any (·.2.isNone) = (p.ended.map Prod.fst).any (Crashes result) := by
  rw [Bool.eq_iff_iff, List.any_eq_true, List.any_eq_true, ← List.countP_pos_iff, ← List.countP_pos_iff, h.countP_ended]

section
variable {e : RunEnd} (hj : 0 < jobs) (h : Reaches (.ofResults result) jobs force (start jobs sources sink ()) p)
  (he : p.ending = some e)
include hj h he

/-- The sources that were started are those up to the crash that takes the last worker. -/
theorem started_of_returned : p.started = upToCrash (Crashes result) jobs sources := by
  have ha := accounted_of_reaches h
  have hf := foreseen_of_reaches hj h
  obtain ⟨hstarted, -, hall, -⟩ := ha.of_returned he
  have hend : p.started.countP (Crashes result) = jobs ∨ p.queue ++ p.pending = [] := by
    rw [hstarted.countP_eq, hf.countP_ended]
    refine hall.imp_right fun hs => ?_
    have horder := ha.order
    rw [hs] at horder
    exact List.append_right_eq_self.1 horder
  have := eq_upToCrash p.started hf.early hend
  rwa [ha.order] at this

theorem any_started_of_returned : p.started.any (Crashes result) = sources.any (Crashes result) := by
  have ha := accounted_of_reaches h
  have hf := foreseen_of_reaches hj h
  obtain ⟨hstarted, -, hall, -⟩ := ha.of_returned he
  rcases hall with hcount | hs
  · have hpos : 0 < p.started.countP (Crashes result) := by rw [hstarted.countP_eq, hf.countP_ended, hcount]; exact hj
    obtain ⟨s, hs, hc⟩ := List.countP_pos_iff.1 hpos
    have hs' : s ∈ sources := by
      rw [← ha.order]
      exact List.mem_append_left _ hs
    rw [List.any_eq_true.2 ⟨s, hs, hc⟩, List.any_eq_true.2 ⟨s, hs', hc⟩]
  · rw [hs]

theorem written_of_returned : p.written.Perm (p.started.filterMap result) := by
  have hf := foreseen_of_reaches hj h
  obtain ⟨hstarted, hwritten, -, -⟩ := (accounted_of_reaches h).of_returned he
  rw [hf.filterMap_ended] at hwritten
  exact hwritten.symm.trans (hstarted.filterMap result).symm

end

theorem written_of_one {e : RunEnd} (h : Reaches (.ofResults result) 1 force (start 1 sources sink ()) p)
    (he : p.ending = some e) : p.written = p.started.filterMap result := by
  have hf := foreseen_of_reaches Nat.zero_lt_one h
  obtain ⟨hsource, houtput, hblocks⟩ := (accounted_of_reaches h).quiet he
  obtain ⟨hs, ho⟩ := inTurn_of_reaches h
  rw [hsource, List.append_nil] at hs
  rw [houtput, hblocks, List.append_nil, List.append_nil, hf.filterMap_ended] at ho
  rw [hs, ho]

/-- **What a run comes to, whatever the order of steps.**  The sources that are started are those up to the crash that
takes the last worker; the sink holds the block of each that did not crash once, with one worker in their order; and the
run fails exactly if a source crashes, and else counts them all. -/
theorem returned_ofResults {o : DispatchOptions} (hsink : sink.Clear)
    (h : Reaches (.ofResults result) (Dispatch.workers o) force (start (Dispatch.workers o) sources sink ()) p)
    {e : RunEnd} (he : p.ending = some e) :
    p.started = upToCrash (Crashes result) (Dispatch.workers o) sources ∧
    (∃ outputs, outputs.Perm (p.started.filterMap result) ∧
      p.aggregator.sink.flushed = sink.flushed ++ outputs.map JobOutput.block ∧ p.aggregator.sink.pending = "" ∧
      (Dispatch.workers o = 1 → outputs = p.started.filterMap result)) ∧
    (e = .failed .workerCrashed ↔ ∃ s ∈ sources, result s = none) ∧
    ((∀ s ∈ sources, result s ≠ none) →
      ∃ summary, e = .finished summary ∧ summary.total = sources.length ∧ summary.forced = force) := by
  have hj : 0 < Dispatch.workers o := Nat.lt_of_lt_of_le Nat.zero_lt_one (Nat.le_max_left 1 _)
  have ha := accounted_of_reaches h
  have hf := foreseen_of_reaches hj h
  obtain ⟨hstarted, -, hall, hend⟩ := ha.of_returned he
  have hwritten := written_of_returned hj h he
  obtain ⟨hfault, hclear, hflushed⟩ := Aggregator.drain_clear hsink p.written
  rw [← ha.aggregator] at hfault hclear hflushed
  have hresult : p.aggregator.result = .ok p.aggregator.summary := by rw [Aggregator.result, hfault]
  -- whether a job crashed, is whether a source does
  have hany : p.ended.any (·.2.isNone) = sources.any (Crashes result) := by
    rw [hf.any_ended, ← any_started_of_returned hj h he, Bool.eq_iff_iff, List.any_eq_true, List.any_eq_true]
    simp only [hstarted.mem_iff]
  rw [hany, hresult, Dispatch.ending] at hend
  have hcrash : sources.any (Crashes result) = true ↔ ∃ s ∈ sources, result s = none := by
    simp [List.any_eq_true, Crashes]
  refine ⟨started_of_returned hj h he, ⟨p.written, hwritten, hflushed, hclear.pending, fun h1 => ?_⟩, ?_, fun hno => ?_⟩
  · rw [h1] at h
    exact written_of_one h he
  · rw [← hcrash]
    cases hs : sources.any (Crashes result) <;> simp [hend, hs]
  · have hnone : sources.any (Crashes result) = false := by
      rw [Bool.eq_false_iff, ne_eq, hcrash]
      rintro ⟨s, hs, hr⟩
      exact hno s hs hr
    rw [hnone] at hend
    refine ⟨_, hend, ?_, rfl⟩
    have htotal : p.aggregator.summary.total = p.written.length := by rw [ha.aggregator, Aggregator.drain_total]
    have hsources : p.started = sources := by
      rcases hall with hcount | hs
      · have := any_started_of_returned hj h he
        rw [hnone, List.any_eq_false] at this
        rw [← hf.countP_ended, ← hstarted.countP_eq, List.countP_eq_zero.2 this] at hcount
        omega
      · exact hs
    have hlength : (sources.filterMap result).length = sources.length := by
      rw [List.length_filterMap_eq_countP, List.countP_eq_length]
      intro s hs
      exact Option.isSome_iff_ne_none.2 (hno s hs)
    rw [← hlength, ← hsources, ← hwritten.length_eq, ← htotal]
    rfl

end Pool

namespace Sample
open Pool

def crashing (s : Path) : Option JobOutput := if s = ⟨"b.m"⟩ then none else some ⟨s, .skipped, s.text ++ "\n"⟩

def crashSources : List Path := [⟨"a.m"⟩, ⟨"b.m"⟩, ⟨"c.m"⟩]

/-- The source after the one that crashes is not started, and the block of the one before it is there. -/
theorem returned_ofResults_crashing : ∃ p : Pool Unit Path,
    Reaches (.ofResults crashing) 1 false (start 1 crashSources .good ()) p ∧
    p.ending = some (.failed .workerCrashed) ∧ p.started = [⟨"a.m"⟩, ⟨"b.m"⟩] ∧
    p.aggregator.sink.flushed = ["a.m\n"] := by
  have hreturns : ∃ p, Reaches (.ofResults crashing) 1 false (start 1 crashSources .good ()) p ∧
      ∃ e, p.ending = some e := exists_returned Nat.one_pos (Machine.ranked_ofResults crashing) _
  obtain ⟨p, h, e, he⟩ := hreturns
  obtain ⟨hstarted, ⟨outputs, -, hflushed, -, hone⟩, hfailed, -⟩ :=
    returned_ofResults (o := ⟨none, false, .cacheAlways⟩) Sink.clear_good h he
  have hcrash : e = .failed .workerCrashed := hfailed.2 ⟨⟨"b.m"⟩, by decide, rfl⟩
  refine ⟨p, h, hcrash ▸ he, hstarted, ?_⟩
  rw [hflushed, hone rfl, hstarted]
  rfl

end Sample
end Recheck
