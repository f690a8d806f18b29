import Recheck.Dispatch.Run
import Recheck.Sources
import Recheck.XcodeTarget
/-!
# Prepared runs

Everything that a run in a build phase needs, worked out from the request, the environment and the files before any
analyzer is started.  Whatever can fail for the run as a whole fails here.
-/
namespace Recheck

structure RunRequest where
  analyzer : Path
  resourceDir : Path
  jobs : Option Nat
  onlyLatest : Bool
  debug : Bool
  /-- The settings file; without one, that beside the project. -/
  settings : Option Path

/-- Why a run could not be prepared. -/
inductive PrepareError where
  | missing (setting : MissingSetting)
  | settings (error : SettingsError)
  | target (error : TargetError)
  | sources (error : SourcesError)
  | outOfMemory
  deriving DecidableEq

def PrepareError.message : PrepareError → String
  | missing setting => setting.message
  | settings error  => error.message
  | target error    => error.message
  | sources error   => error.message
  | outOfMemory     => "capacity overflow"

structure PreparedRun where
  configuration : Configuration
  layout : CacheLayout
  sources : List Path
  options : DispatchOptions
  timeoutSecs : Option Nat
  deriving DecidableEq

/-- How a build phase ended: without a run, or as its run did. -/
inductive PhaseEnd where
  | unprepared (error : PrepareError)
  | ran (ending : RunEnd)
  deriving DecidableEq

/-- A build phase that is over: its end, the calls of the analyzer in order, the sink and the files. -/
structure PhaseReport where
  ending : PhaseEnd
  calls : List (List String)
  sink : Sink
  fs : FileSystem

namespace PreparedRun

def settingsFor (fs : FileSystem) (request : RunRequest) (project : Path) : Except SettingsError Settings :=
  match request.settings with
  | some path => Settings.ofFile fs path
  | none      => Settings.ofProject fs project

def ofTarget (fs : FileSystem) (request : RunRequest) (t : XcodeTarget) (s : Settings) :
    Except PrepareError PreparedRun :=
  match t.configuration fs request.analyzer request.resourceDir request.debug s.flags with
  | .error e          => .error (.target e)
  | .ok configuration =>
    match SourceList.ofTarget t.env s t.project t.name with
    | .failed e       => .error (.sources e)
    | .outOfMemory    => .error .outOfMemory
    | .listed sources =>
      match t.objectsDir with
      | .error e    => .error (.missing e)
      | .ok objects =>
        .ok ⟨configuration, ⟨objects, s.dispatch.cacheKey⟩, sources,
          s.dispatchOptions request.jobs request.onlyLatest, s.dispatch.timeoutSecs⟩

def prepare (fs : FileSystem) (request : RunRequest) (env : BuildEnv) : Except PrepareError PreparedRun :=
  match XcodeTarget.ofEnv env with
  | .error e => .error (.missing e)
  | .ok t    =>
    match settingsFor fs request t.project with
    | .error e => .error (.settings e)
    | .ok s    => ofTarget fs request t s

def run (p : PreparedRun) (analyzer : Analyzer) (sink : Sink) (fs : FileSystem) : RunReport :=
  Dispatch.run p.configuration p.layout analyzer p.options p.sources sink fs

/-- A build phase: its run is prepared and done.  Which analyzer that is depends on the seconds it has for a source. -/
def phase (fs : FileSystem) (request : RunRequest) (env : BuildEnv) (analyzer : Option Nat → Analyzer) (sink : Sink) :
    PhaseReport :=
  match prepare fs request env with
  | .error e => ⟨.unprepared e, [], sink, fs⟩
  | .ok p    =>
    let report := p.run (analyzer p.timeoutSecs) sink fs
    ⟨.ran report.ending, report.calls, report.sink, report.fs⟩

end PreparedRun
end Recheck
