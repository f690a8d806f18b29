import Recheck.Dispatch.Job
/-!
# Sinks and summaries

Blocks are written to a sink in the order they arrive, each whole and flushed by itself.  A sink may fail at any write or
flush; after its first failure nothing more is written, but the outcomes are still counted.
-/
namespace Recheck

structure Summary where
  /-- Every source was analyzed, because the configuration had changed. -/
  forced : Bool
  analyzed : Nat
  /-- Of those analyzed, how many analyzers did not end with zero. -/
  analyzerFailures : Nat
  cached : Nat
  skipped : Nat
  errors : Nat
  deriving DecidableEq, Repr

namespace Summary

def empty : Summary := ⟨false, 0, 0, 0, 0, 0⟩

def total (s : Summary) : Nat := s.analyzed + s.cached + s.skipped + s.errors

def record (s : Summary) : Outcome → Summary
  | .analyzed exitCode =>
    { s with
      analyzed := s.analyzed + 1
      analyzerFailures := if exitCode = some 0 then s.analyzerFailures else s.analyzerFailures + 1 }
  | .cached  => { s with cached := s.cached + 1 }
  | .skipped => { s with skipped := s.skipped + 1 }
  | .failed  => { s with errors := s.errors + 1 }

end Summary

/-- A receiver of text, with the failures of its writes and flushes by their numbers, and what it has received: the texts
between flushes, and the text not flushed yet. -/
structure Sink where
  writeFault : Nat → Option IoError
  flushFault : Nat → Option IoError
  writes : Nat
  flushes : Nat
  flushed : List String
  pending : String

namespace Sink

/-- A sink that has received nothing. -/
def fresh (writeFault flushFault : Nat → Option IoError) : Sink := ⟨writeFault, flushFault, 0, 0, [], ""⟩

/-- A sink that never fails. -/
def good : Sink := fresh (fun _ => none) (fun _ => none)

/-- A whole text is written or none of it; nothing is done for an empty one. -/
def write (s : Sink) (text : String) : Except IoError Unit × Sink :=
  if text.isEmpty then (.ok (), s)
  else match s.writeFault s.writes with
    | some e => (.error e, { s with writes := s.writes + 1 })
    | none   => (.ok (), { s with writes := s.writes + 1, pending := s.pending ++ text })

def flush (s : Sink) : Except IoError Unit × Sink :=
  match s.flushFault s.flushes with
  | some e => (.error e, { s with flushes := s.flushes + 1 })
  | none   => (.ok (), { s with flushes := s.flushes + 1, flushed := s.flushed ++ [s.pending], pending := "" })

/-- One block, written and flushed. -/
def writeBlock (s : Sink) (block : String) : Except IoError Unit × Sink :=
  match s.write block with
  | (.error e, s') => (.error e, s')
  | (.ok _, s')    => s'.flush

/-- All pieces received, the last one perhaps not flushed. -/
def pieces (s : Sink) : List String := s.flushed ++ if s.pending.isEmpty then [] else [s.pending]

def text (s : Sink) : String := String.join s.pieces

end Sink

/-- The writing of blocks: the counts so far, the first failure, and the sink. -/
structure Aggregator where
  summary : Summary
  fault : Option IoError
  sink : Sink

namespace Aggregator

def start (sink : Sink) : Aggregator := ⟨.empty, none, sink⟩

def push (a : Aggregator) (o : JobOutput) : Aggregator :=
  let summary := a.summary.record o.outcome
  match a.fault with
  | some e => ⟨summary, some e, a.sink⟩
  | none   =>
    match a.sink.writeBlock o.block with
    | (.ok _, sink)    => ⟨summary, none, sink⟩
    | (.error e, sink) => ⟨summary, some e, sink⟩

def drain (sink : Sink) (outputs : List JobOutput) : Aggregator := outputs.foldl push (start sink)

/-- The counts, or the first failure. -/
def result (a : Aggregator) : Except IoError Summary :=
  match a.fault with
  | some e => .error e
  | none   => .ok a.summary

end Aggregator
end Recheck
