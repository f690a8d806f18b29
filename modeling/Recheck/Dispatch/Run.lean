import Recheck.Cache.Record
import Recheck.Dispatch.Summary
/-!
# Dispatch

One run over the sources of an objects directory.  First the record of the last configuration is compared and replaced; a
difference forces every source to be analyzed.  Then the sources are handed out in order to a number of workers through
a queue that holds twice as many, and the blocks of their jobs are written as they come.  A job that crashes takes its
worker along, and once no worker is left no further source is started.

Jobs of sources with different result files do not disturb each other, so the order in which workers get on does not
matter to any of them.  Here every job is done in its turn, which is also what a single worker does.
-/
namespace Recheck

inductive DispatchError where
  | record (path : Path) (cause : IoError)
  | workerCrashed
  | output (cause : IoError)
  deriving DecidableEq

def DispatchError.message : DispatchError → String
  | record path cause => "failed to update configuration record " ++ path.text ++ ": " ++ cause.message
  | workerCrashed     => "worker thread panicked"
  | output cause      => "failed to write analysis output: " ++ cause.message

inductive RunEnd where
  | finished (summary : Summary)
  | failed (error : DispatchError)
  /-- The queue or the list of workers is too large to be made. -/
  | outOfMemory
  deriving DecidableEq

/-- A run that is over: its end, the calls of the analyzer in order, the sink and the files. -/
structure RunReport where
  ending : RunEnd
  calls : List (List String)
  sink : Sink
  fs : FileSystem

structure Work where
  outputs : List JobOutput
  calls : List (List String)
  crashed : Bool
  fs : FileSystem

namespace Dispatch

def workers (o : DispatchOptions) : Nat := max 1 (o.jobs.getD 1)

def slotBytes : Nat := 24

def queueCapacity (workers : Nat) : Nat := 2 * workers

def queueTooLarge (workers : Nat) : Bool := 0x7fffffffffffffff < queueCapacity workers * slotBytes

/-- The sources done by `alive` workers, of whom each crash takes one. -/
def work (j : Job) : Nat → List Path → FileSystem → Work
  | 0, _, fs                   => ⟨[], [], false, fs⟩
  | _, [], fs                  => ⟨[], [], false, fs⟩
  | alive + 1, s :: sources, fs =>
    let r := j.process s fs
    match r.output with
    | some o =>
      let w := work j (alive + 1) sources r.fs
      ⟨o :: w.outputs, r.calls ++ w.calls, w.crashed, w.fs⟩
    | none =>
      let w := work j alive sources r.fs
      ⟨w.outputs, r.calls ++ w.calls, true, w.fs⟩

def ending (force crashed : Bool) (written : Except IoError Summary) : RunEnd :=
  if crashed then .failed .workerCrashed
  else match written with
    | .ok summary => .finished { summary with forced := force }
    | .error e    => .failed (.output e)

def job (c : Configuration) (l : CacheLayout) (analyzer : Analyzer) (o : DispatchOptions) (force : Bool) : Job :=
  ⟨c, l, analyzer, force, o.onlyLatest, o.failurePolicy⟩

def run (c : Configuration) (l : CacheLayout) (analyzer : Analyzer) (o : DispatchOptions) (sources : List Path)
    (sink : Sink) (fs : FileSystem) : RunReport :=
  match Record.update fs l.recordPath c with
  | (.error e, fs')  => ⟨.failed (.record l.recordPath e), [], sink, fs'⟩
  | (.ok force, fs') =>
    if queueTooLarge (workers o) then ⟨.outOfMemory, [], sink, fs'⟩
    else
      let w := work (job c l analyzer o force) (workers o) sources fs'
      let a := Aggregator.drain sink w.outputs
      ⟨ending force w.crashed a.result, w.calls, a.sink, w.fs⟩

end Dispatch
end Recheck
