import Mathlib.Logic.Relation
import Recheck.Dispatch.Run
/-!
# The pool of workers

One run past its record step, as a system whose parts take steps in any order.  A feeder puts the sources in order into a
queue of limited length; workers take them from it, do their jobs step by step and send the outputs; an aggregator
writes the outputs in the order they arrive.  A worker whose job crashes is gone.  When the feeder, all workers and the
aggregator are through, the run returns.

What a job does in one step, and what jobs share, is left open (`Machine`): a job may be one step that only has an
output (`Machine.ofResults`), or a sequence of operations on files.
-/
namespace Recheck

/-- What one step of a job leads to: a further stage, or the end of the job, with an output unless it crashes. -/
inductive Next (World Stage : Type) where
  | goOn (stage : Stage) (world : World)
  | ended (output : Option JobOutput) (world : World)

def Next.world {World Stage : Type} : Next World Stage → World
  | goOn _ w  => w
  | ended _ w => w

/-- What jobs do one step at a time, on a world that they share. -/
structure Machine (World Stage : Type) where
  first : Path → Stage
  next : Stage → World → Next World Stage → Prop

/-- Jobs of one step, whose outputs are laid down beforehand. -/
def Machine.ofResults (result : Path → Option JobOutput) : Machine Unit Path where
  first s := s
  next s _ n := n = .ended (result s) ()

inductive Worker (Stage : Type) where
  | idle
  | busy (source : Path) (stage : Stage)
  | sending (output : JobOutput)
  /-- The queue was empty and closed. -/
  | left
  | dead

namespace Worker
variable {Stage : Type}

@[simp] def source? : Worker Stage → Option Path
  | busy s _ => some s
  | _        => none

@[simp] def output? : Worker Stage → Option JobOutput
  | sending o => some o
  | _         => none

@[simp] def isDead : Worker Stage → Bool
  | dead => true
  | _    => false

@[simp] def isGone : Worker Stage → Bool
  | left => true
  | dead => true
  | _    => false

theorem isGone_of_isDead {w : Worker Stage} (h : w.isDead = true) : w.isGone = true := by
  cases w <;> first | rfl | cases h

theorem not_all_gone {workers : List (Worker Stage)} {w : Worker Stage} (hw : w ∈ workers) (hg : w.isGone = false) :
    ¬∀ x ∈ workers, x.isGone = true := fun hgone => by
  have := hgone w hw
  rw [hg] at this
  cases this

theorem exists_of_not_all_gone {workers : List (Worker Stage)} (h : ¬∀ x ∈ workers, x.isGone = true) :
    ∃ w ∈ workers, w.isGone = false := by
  simpa using h

end Worker

structure Pool (World Stage : Type) where
  world : World
  /-- The sources that the feeder has not put into the queue. -/
  pending : List Path
  /-- The feeder has not closed the queue. -/
  feeding : Bool
  queue : List Path
  workers : List (Worker Stage)
  /-- The outputs sent and not written yet. -/
  blocks : List JobOutput
  aggregator : Aggregator
  /-- The aggregator waits for outputs. -/
  draining : Bool
  ending : Option RunEnd
  /-- The sources whose jobs were started, in order. -/
  started : List Path
  /-- The sources whose jobs are over, with their outputs. -/
  ended : List (Path × Option JobOutput)
  /-- The outputs that were written, in order. -/
  written : List JobOutput

namespace Pool
variable {World Stage : Type}

def Deserted (p : Pool World Stage) : Prop := ∀ w ∈ p.workers, w.isGone = true

def start (jobs : Nat) (sources : List Path) (sink : Sink) (world : World) : Pool World Stage :=
  ⟨world, sources, true, [], List.replicate jobs .idle, [], .start sink, true, none, [], [], []⟩

/-- One step of one part of the pool. -/
inductive Step (m : Machine World Stage) (jobs : Nat) (force : Bool) : Pool World Stage → Pool World Stage → Prop
  /-- The feeder puts a source into the queue: there is room, and a worker that may take it. -/
  | feed {p s rest} :
      p.feeding = true → p.pending = s :: rest → p.queue.length < Dispatch.queueCapacity jobs → ¬p.Deserted →
      Step m jobs force p { p with pending := rest, queue := p.queue ++ [s] }
  /-- The feeder finds all workers gone. -/
  | giveUp {p s rest} :
      p.feeding = true → p.pending = s :: rest → p.Deserted → Step m jobs force p { p with feeding := false }
  | close {p} : p.feeding = true → p.pending = [] → Step m jobs force p { p with feeding := false }
  | take {p l r s rest} :
      p.workers = l ++ .idle :: r → p.queue = s :: rest →
      Step m jobs force p
        { p with queue := rest, workers := l ++ .busy s (m.first s) :: r, started := p.started ++ [s] }
  | goOn {p l r s stage stage' world} :
      p.workers = l ++ .busy s stage :: r → m.next stage p.world (.goOn stage' world) →
      Step m jobs force p { p with world := world, workers := l ++ .busy s stage' :: r }
  | finish {p l r s stage o world} :
      p.workers = l ++ .busy s stage :: r → m.next stage p.world (.ended (some o) world) →
      Step m jobs force p
        { p with world := world, workers := l ++ .sending o :: r, ended := p.ended ++ [(s, some o)] }
  | crash {p l r s stage world} :
      p.workers = l ++ .busy s stage :: r → m.next stage p.world (.ended none world) →
      Step m jobs force p { p with world := world, workers := l ++ .dead :: r, ended := p.ended ++ [(s, none)] }
  | send {p l r o} :
      p.workers = l ++ .sending o :: r →
      Step m jobs force p { p with workers := l ++ .idle :: r, blocks := p.blocks ++ [o] }
  | leave {p l r} :
      p.workers = l ++ .idle :: r → p.feeding = false → p.queue = [] →
      Step m jobs force p { p with workers := l ++ .left :: r }
  | write {p o rest} :
      p.draining = true → p.blocks = o :: rest →
      Step m jobs force p
        { p with blocks := rest, aggregator := p.aggregator.push o, written := p.written ++ [o] }
  /-- The aggregator ends: there is no output left, and nobody to send another. -/
  | drained {p} :
      p.draining = true → p.blocks = [] → p.Deserted → Step m jobs force p { p with draining := false }
  /-- The run returns once all its parts are through. -/
  | back {p} :
      p.ending = none → p.feeding = false → p.Deserted → p.draining = false →
      Step m jobs force p
        { p with ending := some (Dispatch.ending force (p.workers.any Worker.isDead) p.aggregator.result) }

def Reaches (m : Machine World Stage) (jobs : Nat) (force : Bool) : Pool World Stage → Pool World Stage → Prop :=
  Relation.ReflTransGen (Step m jobs force)

theorem Step.exists_reaches {m : Machine World Stage} {jobs : Nat} {force : Bool} {p q : Pool World Stage}
    {P : Pool World Stage → Prop} (hs : Step m jobs force p q) (h : ∃ r, Reaches m jobs force q r ∧ P r) :
    ∃ r, Reaches m jobs force p r ∧ P r := by
  obtain ⟨r, hr, hp⟩ := h
  exact ⟨r, .head hs hr, hp⟩

end Pool
end Recheck
