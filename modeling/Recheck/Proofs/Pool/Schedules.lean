import Recheck.Proofs.Dispatch.Courses
import Recheck.Proofs.Pool.Deeds
/-!
# Schedules

Which part of a run gets on next is all that is left to chance, besides the time and how much a write takes at once.  A
list of such turns is a schedule, and what it leads to is computed (`Job.play`): the states that a pool can reach are those
that some schedule plays it to (`Job.reaches_iff`).  A schedule does not depend on the sink: the same turns can be taken
whatever the sink does, and lead to states that differ in what was written alone (`Job.play_redirect`).
-/
namespace Recheck
open FileSystem

/-- Who gets on next. -/
inductive Turn where
  | feeder
  /-- The job of a worker takes its step at the time `now`; if it writes, then `chunk + 1` bytes at most. -/
  | worker (index : Nat) (now : Timestamp) (chunk : Nat)
  | aggregator
  | caller

/-- What a step adds to the jobs that are over. -/
def Next.over {World Stage : Type} (s : Path) : Next World Stage → List (Path × Option JobOutput)
  | .goOn _ _  => []
  | .ended o _ => [(s, o)]

theorem exists_split_of_getElem? {α : Type} {ws : List α} {i : Nat} {w : α} (h : ws[i]? = some w) :
    ∃ l r, l.length = i ∧ ws = l ++ w :: r := by
  obtain ⟨hi, rfl⟩ := List.getElem?_eq_some_iff.1 h
  refine ⟨ws.take i, ws.drop (i + 1), ?_, by simp⟩
  rw [List.length_take]
  omega

theorem set_split {α : Type} (l : List α) (w w' : α) (r : List α) :
    (l ++ w :: r).set l.length w' = l ++ w' :: r := by
  simp

namespace Job
variable (j : Job) (jobs : Nat) (force : Bool)

/-- The feeder's turn. -/
def feedTurn (p : Pool Shared (Path × JobStage)) : Option (Pool Shared (Path × JobStage)) :=
  if p.feeding then
    match p.pending with
    | []        => some { p with feeding := false }
    | s :: rest =>
      if p.workers.all Worker.isGone then some { p with feeding := false }
      else if p.queue.length < Dispatch.queueCapacity jobs then some { p with pending := rest, queue := p.queue ++ [s] }
      else none
  else none

/-- A worker's turn. -/
def workTurn (i : Nat) (now : Timestamp) (chunk : Nat) (p : Pool Shared (Path × JobStage)) :
    Option (Pool Shared (Path × JobStage)) :=
  match p.workers[i]? with
  | some .idle =>
    match p.queue with
    | s :: rest =>
      some { p with queue := rest, workers := p.workers.set i (.busy s (j.machine.first s)), started := p.started ++ [s] }
    | []        => if p.feeding then none else some { p with workers := p.workers.set i .left }
  | some (.busy s stage) =>
    let n := (j.act stage.1 now chunk p.world stage.2).map (stage.1, ·)
    some { p with world := n.world, workers := p.workers.set i (n.worker s), ended := p.ended ++ n.over s }
  | some (.sending o) => some { p with workers := p.workers.set i .idle, blocks := p.blocks ++ [o] }
  | _ => none

/-- The aggregator's turn. -/
def writeTurn (p : Pool Shared (Path × JobStage)) : Option (Pool Shared (Path × JobStage)) :=
  if p.draining then
    match p.blocks with
    | o :: rest => some { p with blocks := rest, aggregator := p.aggregator.push o, written := p.written ++ [o] }
    | []        => if p.workers.all Worker.isGone then some { p with draining := false } else none
  else none

/-- The caller's turn. -/
def returnTurn (p : Pool Shared (Path × JobStage)) : Option (Pool Shared (Path × JobStage)) :=
  if p.ending.isNone && !p.feeding && !p.draining && p.workers.all Worker.isGone then
    some { p with ending := some (Dispatch.ending force (p.workers.any Worker.isDead) p.aggregator.result) }
  else none

/-- What a turn leads to, if it can be taken. -/
def turn : Turn → Pool Shared (Path × JobStage) → Option (Pool Shared (Path × JobStage))
  | .feeder             => feedTurn jobs
  | .worker i now chunk => j.workTurn i now chunk
  | .aggregator         => writeTurn
  | .caller             => returnTurn force

/-- What the turns of a schedule lead to, if all can be taken. -/
def play : List Turn → Pool Shared (Path × JobStage) → Option (Pool Shared (Path × JobStage))
  | [], p         => some p
  | t :: turns, p => (j.turn jobs force t p).bind (play turns)

variable {j jobs force} {p q : Pool Shared (Path × JobStage)}

theorem all_isGone_iff : p.workers.all Worker.isGone = true ↔ p.Deserted := List.all_eq_true

theorem step_of_feedTurn (h : feedTurn jobs p = some q) : Pool.Step j.machine jobs force p q := by
  rw [feedTurn] at h
  split at h
  · rename_i hfeeding
    split at h
    · rename_i hpending
      cases h
      exact .close hfeeding hpending
    · rename_i s rest hpending
      split at h
      · rename_i hgone
        cases h
        exact .giveUp hfeeding hpending (all_isGone_iff.1 hgone)
      · rename_i hgone
        split at h
        · rename_i hroom
          cases h
          exact .feed hfeeding hpending hroom fun hd => hgone (all_isGone_iff.2 hd)
        · cases h
  · cases h

theorem step_of_workTurn {i : Nat} {now : Timestamp} {chunk : Nat} (h : j.workTurn i now chunk p = some q) :
    Pool.Step j.machine jobs force p q := by
  rw [workTurn] at h
  split at h
  · rename_i hi
    obtain ⟨l, r, rfl, hw⟩ := exists_split_of_getElem? hi
    split at h
    · rename_i s rest hq
      rw [hw, set_split] at h
      cases h
      exact .take hw hq
    · rename_i hq
      split at h
      · cases h
      · rename_i hfeeding
        rw [hw, set_split] at h
        cases h
        exact .leave hw (Bool.eq_false_iff.2 hfeeding) hq
  · rename_i s stage hi
    obtain ⟨l, r, rfl, hw⟩ := exists_split_of_getElem? hi
    have hnext : j.machine.next stage p.world ((j.act stage.1 now chunk p.world stage.2).map (stage.1, ·)) :=
      ⟨now, chunk, rfl⟩
    generalize (j.act stage.1 now chunk p.world stage.2).map (stage.1, ·) = n at h hnext
    rw [hw] at h
    simp only [set_split] at h
    cases h
    cases n with
    | goOn stage' world =>
      simp only [Next.over, List.append_nil]
      exact .goOn hw hnext
    | ended o world =>
      cases o with
      | some o => exact .finish hw hnext
      | none => exact .crash hw hnext
  · rename_i o hi
    obtain ⟨l, r, rfl, hw⟩ := exists_split_of_getElem? hi
    rw [hw, set_split] at h
    cases h
    exact .send hw
  · cases h

theorem step_of_writeTurn (h : writeTurn p = some q) : Pool.Step j.machine jobs force p q := by
  rw [writeTurn] at h
  split at h
  · rename_i hdraining
    split at h
    · rename_i hblocks
      cases h
      exact .write hdraining hblocks
    · rename_i hblocks
      split at h
      · rename_i hgone
        cases h
        exact .drained hdraining hblocks (all_isGone_iff.1 hgone)
      · cases h
  · cases h

theorem step_of_returnTurn (h : returnTurn force p = some q) : Pool.Step j.machine jobs force p q := by
  rw [returnTurn] at h
  split at h
  · rename_i hall
    cases h
    simp only [Bool.and_eq_true, Bool.not_eq_true', Option.isNone_iff_eq_none] at hall
    obtain ⟨⟨⟨hending, hfeeding⟩, hdraining⟩, hgone⟩ := hall
    exact .back hending hfeeding (all_isGone_iff.1 hgone) hdraining
  · cases h

theorem exists_turn (hs : Pool.Step j.machine jobs force p q) : ∃ t, j.turn jobs force t p = some q := by
  cases hs with
  | feed hf hp hroom halive =>
    refine ⟨.feeder, ?_⟩
    have halive : p.workers.all Worker.isGone = false := Bool.eq_false_iff.2 fun h => halive (all_isGone_iff.1 h)
    simp [turn, feedTurn, hf, hp, hroom, halive]
  | giveUp hf hp hd =>
    refine ⟨.feeder, ?_⟩
    simp [turn, feedTurn, hf, hp, all_isGone_iff.2 hd]
  | close hf hp =>
    refine ⟨.feeder, ?_⟩
    simp [turn, feedTurn, hf, hp]
  | @take l r s rest hw hq =>
    refine ⟨.worker l.length 0 0, ?_⟩
    simp [turn, workTurn, hw, hq]
  | @goOn l r s stage stage' world hw hn =>
    obtain ⟨now, chunk, hn⟩ := hn
    refine ⟨.worker l.length now chunk, ?_⟩
    simp [turn, workTurn, hw, ← hn, Next.worker, Next.over, Next.world]
  | @finish l r s stage o world hw hn =>
    obtain ⟨now, chunk, hn⟩ := hn
    refine ⟨.worker l.length now chunk, ?_⟩
    simp [turn, workTurn, hw, ← hn, Next.worker, Next.over, Next.world]
  | @crash l r s stage world hw hn =>
    obtain ⟨now, chunk, hn⟩ := hn
    refine ⟨.worker l.length now chunk, ?_⟩
    simp [turn, workTurn, hw, ← hn, Next.worker, Next.over, Next.world]
  | @send l r o hw =>
    refine ⟨.worker l.length 0 0, ?_⟩
    simp [turn, workTurn, hw]
  | @leave l r hw hf hq =>
    refine ⟨.worker l.length 0 0, ?_⟩
    simp [turn, workTurn, hw, hf, hq]
  | write hd hb =>
    refine ⟨.aggregator, ?_⟩
    simp [turn, writeTurn, hd, hb]
  | drained hd hb hg =>
    refine ⟨.aggregator, ?_⟩
    simp [turn, writeTurn, hd, hb, all_isGone_iff.2 hg]
  | back he hf hg hd =>
    refine ⟨.caller, ?_⟩
    simp [turn, returnTurn, he, hf, hd, all_isGone_iff.2 hg]

/-- **The steps of a pool are the turns that can be taken.** -/
theorem step_iff_exists_turn : Pool.Step j.machine jobs force p q ↔ ∃ t, j.turn jobs force t p = some q := by
  refine ⟨exists_turn, fun ⟨t, h⟩ => ?_⟩
  cases t with
  | feeder => exact step_of_feedTurn h
  | worker i now chunk => exact step_of_workTurn h
  | aggregator => exact step_of_writeTurn h
  | caller => exact step_of_returnTurn h

theorem play_append (turns turns' : List Turn) (p : Pool Shared (Path × JobStage)) :
    j.play jobs force (turns ++ turns') p = (j.play jobs force turns p).bind (j.play jobs force turns') := by
  induction turns generalizing p with
  | nil => rfl
  | cons t turns ih =>
    rw [List.cons_append, play, play, Option.bind_assoc]
    exact congrArg _ (funext ih)

/-- **What a pool can reach is what schedules play it to.** -/
theorem reaches_iff : Pool.Reaches j.machine jobs force p q ↔ ∃ turns, j.play jobs force turns p = some q := by
  constructor
  · intro h
    induction h with
    | refl => exact ⟨[], rfl⟩
    | tail _ hs ih =>
      obtain ⟨turns, hturns⟩ := ih
      obtain ⟨t, ht⟩ := exists_turn hs
      refine ⟨turns ++ [t], ?_⟩
      rw [play_append, hturns, Option.bind_some, play, ht]
      rfl
  · rintro ⟨turns, h⟩
    induction turns generalizing p with
    | nil =>
      cases h
      exact .refl
    | cons t turns ih =>
      rw [play, Option.bind_eq_some_iff] at h
      obtain ⟨p', ht, h⟩ := h
      exact .head (step_iff_exists_turn.2 ⟨t, ht⟩) (ih h)

end Job

/-! ## Other sinks -/

/-- The state that a pool would be in if the run wrote into another sink. -/
def Pool.redirect {World Stage : Type} (force : Bool) (sink : Sink) (p : Pool World Stage) : Pool World Stage :=
  { p with
    aggregator := .drain sink p.written
    ending := p.ending.map fun _ =>
      Dispatch.ending force (p.workers.any Worker.isDead) (Aggregator.drain sink p.written).result }

theorem Aggregator.drain_concat (sink : Sink) (outputs : List JobOutput) (o : JobOutput) :
    drain sink (outputs ++ [o]) = (drain sink outputs).push o := by
  rw [drain, drain, List.foldl_append]
  rfl

namespace Job
variable {j : Job} {jobs : Nat} {force : Bool} {sources : List Path} {sink : Sink} {p : Pool Shared (Path × JobStage)}

theorem feedTurn_redirect (sink' : Sink) :
    feedTurn jobs (p.redirect force sink') = (feedTurn jobs p).map (Pool.redirect force sink') := by
  unfold feedTurn Pool.redirect
  cases p.feeding with
  | false => rfl
  | true =>
    cases p.pending with
    | nil => rfl
    | cons s rest =>
      cases hgone : p.workers.all Worker.isGone with
      | true => rfl
      | false => by_cases hroom : p.queue.length < Dispatch.queueCapacity jobs <;> simp [hroom]

theorem workTurn_redirect (h : p.Accounted jobs force sources sink) (i : Nat) (now : Timestamp) (chunk : Nat)
    (sink' : Sink) :
    j.workTurn i now chunk (p.redirect force sink') = (j.workTurn i now chunk p).map (Pool.redirect force sink') := by
  have hawake {w : Worker (Path × JobStage)} (hw : p.workers[i]? = some w) (hg : w.isGone = false) : p.ending = none :=
    (h.awake (List.mem_of_getElem? hw) hg).2
  unfold workTurn Pool.redirect
  cases hw : p.workers[i]? with
  | none => rfl
  | some w =>
    cases w with
    | idle =>
      simp only [hawake hw rfl]
      cases p.queue with
      | nil => cases p.feeding <;> rfl
      | cons s rest => rfl
    | busy s stage => simp only [hawake hw rfl]; rfl
    | sending o => simp only [hawake hw rfl]; rfl
    | left => rfl
    | dead => rfl

theorem writeTurn_redirect (h : p.Accounted jobs force sources sink) (sink' : Sink) :
    writeTurn (p.redirect force sink') = (writeTurn p).map (Pool.redirect force sink') := by
  unfold writeTurn Pool.redirect
  cases hd : p.draining with
  | false => rfl
  | true =>
    have hending : p.ending = none := by
      cases he : p.ending with
      | none => rfl
      | some e =>
        have := (h.ending e he).2.1
        rw [hd] at this
        cases this
    simp only [hending]
    cases p.blocks with
    | nil => cases p.workers.all Worker.isGone <;> rfl
    | cons o rest => simp [Aggregator.drain_concat]

theorem returnTurn_redirect (sink' : Sink) :
    returnTurn force (p.redirect force sink') = (returnTurn force p).map (Pool.redirect force sink') := by
  unfold returnTurn Pool.redirect
  simp only [Option.isNone_map]
  split <;> rfl

/-- **A turn can be taken whatever the sink does**, and leads to the same state but for what was written. -/
theorem turn_redirect (h : p.Accounted jobs force sources sink) (t : Turn) (sink' : Sink) :
    j.turn jobs force t (p.redirect force sink') = (j.turn jobs force t p).map (Pool.redirect force sink') := by
  cases t with
  | feeder => exact feedTurn_redirect sink'
  | worker i now chunk => exact workTurn_redirect h i now chunk sink'
  | aggregator => exact writeTurn_redirect h sink'
  | caller => exact returnTurn_redirect sink'

theorem play_redirect (h : p.Accounted jobs force sources sink) (turns : List Turn) (sink' : Sink) :
    j.play jobs force turns (p.redirect force sink') = (j.play jobs force turns p).map (Pool.redirect force sink') := by
  induction turns generalizing p with
  | nil => rfl
  | cons t turns ih =>
    rw [play, play, turn_redirect h]
    cases ht : j.turn jobs force t p with
    | none => rfl
    | some p' => exact ih (h.step (step_iff_exists_turn.2 ⟨t, ht⟩))

end Job

/-! ## Courses by schedules -/

/-- How a run is to go: job after job, or by turns. -/
inductive Schedule where
  | inTurn
  | sideBySide (turns : List Turn)

namespace PastRun

/-- The course of a run that has come to a state of its pool, if it returns there. -/
def courseAt (r : PastRun) (force : Bool) (S : FileSystem) (p : Pool Shared (Path × JobStage)) : Option Course :=
  p.ending.map fun e => ⟨⟨e, p.world.calls.map Prod.snd, p.aggregator.sink, p.world.fs⟩, p.ended, r.Filled force S p⟩

/-- The course of a run by a schedule, if that can be kept to and leads to the end.  A run that fails before its workers
are started has no turns to take. -/
def courseBy (r : PastRun) : Schedule → Option Course
  | .inTurn           => some r.inTurn
  | .sideBySide turns =>
    match r.recordStep with
    | (.error _, _)   => some r.inTurn
    | (.ok force, S)  =>
      if Dispatch.queueTooLarge r.workers then some r.inTurn
      else ((r.job force).play r.workers force turns (r.pool S)).bind (r.courseAt force S)

variable {r : PastRun} {force : Bool} {S : FileSystem}

theorem courseBy_of_error {e : IoError} (hs : r.recordStep = (.error e, S)) (turns : List Turn) :
    r.courseBy (.sideBySide turns) = some r.inTurn := by
  simp only [courseBy, hs]

theorem courseBy_of_queueTooLarge (hs : r.recordStep = (.ok force, S)) (hq : Dispatch.queueTooLarge r.workers = true)
    (turns : List Turn) : r.courseBy (.sideBySide turns) = some r.inTurn := by
  simp only [courseBy, hs, hq, if_true]

theorem courseBy_sideBySide (hs : r.recordStep = (.ok force, S)) (hq : Dispatch.queueTooLarge r.workers = false)
    (turns : List Turn) :
    r.courseBy (.sideBySide turns) =
      ((r.job force).play r.workers force turns (r.pool S)).bind (r.courseAt force S) := by
  simp only [courseBy, hs, hq, Bool.false_eq_true, if_false]

/-- **The ways a run can go are those of its schedules.** -/
theorem takes_iff {c : Course} : r.Takes c ↔ ∃ σ, r.courseBy σ = some c := by
  constructor
  · rintro (_ | ⟨hs, hq, hr, he⟩)
    · exact ⟨.inTurn, rfl⟩
    · obtain ⟨turns, hturns⟩ := Job.reaches_iff.1 hr
      exact ⟨.sideBySide turns, by rw [courseBy_sideBySide hs hq, hturns, Option.bind_some, courseAt, he]; rfl⟩
  · rintro ⟨σ, h⟩
    have inTurn (h : some r.inTurn = some c) : r.Takes c := by
      cases h
      exact .inTurn
    cases σ with
    | inTurn => exact inTurn h
    | sideBySide turns =>
      cases hs : r.recordStep with
      | mk outcome S =>
        cases outcome with
        | error e => exact inTurn (courseBy_of_error hs turns ▸ h)
        | ok force =>
          cases hq : Dispatch.queueTooLarge r.workers with
          | true => exact inTurn (courseBy_of_queueTooLarge hs hq turns ▸ h)
          | false =>
            rw [courseBy_sideBySide hs hq, Option.bind_eq_some_iff] at h
            obtain ⟨p, hp, h⟩ := h
            obtain ⟨e, he, rfl⟩ := Option.map_eq_some_iff.1 h
            exact .sideBySide hs hq (Job.reaches_iff.2 ⟨turns, hp⟩) he

/-- **Every schedule that can be kept to so far can be completed.** -/
theorem exists_schedule (hs : r.recordStep = (.ok force, S)) (hq : Dispatch.queueTooLarge r.workers = false)
    {turns : List Turn} {p : Pool Shared (Path × JobStage)}
    (hp : (r.job force).play r.workers force turns (r.pool S) = some p) :
    ∃ more c, r.courseBy (.sideBySide (turns ++ more)) = some c := by
  have hreturns : ∃ q, Pool.Reaches (r.job force).machine r.workers force p q ∧ ∃ e, q.ending = some e :=
    Pool.exists_returned r.workers_pos (Job.ranked_machine (r.job force)) p
  obtain ⟨q, hr, e, he⟩ := hreturns
  obtain ⟨more, hmore⟩ := Job.reaches_iff.1 hr
  refine ⟨more, Option.isSome_iff_exists.1 ?_⟩
  rw [courseBy_sideBySide hs hq, Job.play_append, hp, Option.bind_some, hmore, Option.bind_some, courseAt, he]
  rfl

end PastRun
end Recheck
