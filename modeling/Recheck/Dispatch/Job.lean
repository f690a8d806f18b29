import Recheck.Analyzer
import Recheck.Invocation
import Recheck.Settings
/-!
# Jobs

What is done for one source: its result is taken from the cache where that is still good, and made by the analyzer
otherwise.  A job ends in a block of text that begins with the command line, unless it crashes.
-/
namespace Recheck

inductive Outcome where
  /-- The analyzer ran. -/
  | analyzed (exitCode : Option Int)
  /-- The kept result was shown. -/
  | cached
  /-- There is a good result, but it was not asked for. -/
  | skipped
  /-- The analyzer could not be started, or the kept result not be read. -/
  | failed
  deriving DecidableEq, Repr

structure JobOutput where
  source : Path
  outcome : Outcome
  block : String
  deriving DecidableEq

structure Job where
  configuration : Configuration
  layout : CacheLayout
  analyzer : Analyzer
  force : Bool
  onlyLatest : Bool
  failurePolicy : FailurePolicy

/-- The end of a job: its output unless it crashed, the calls it made, and the files afterwards. -/
structure JobRun where
  output : Option JobOutput
  calls : List (List String)
  fs : FileSystem

namespace Job

/-- Shown for a source whose good result was not asked for. -/
def skippedNotice : String := "Skip printing result because the code is not updated..."

def commandLine (j : Job) (source : Path) : List String := j.configuration.commandLine [source]

def commandText (j : Job) (source : Path) : String := joinTexts " " (j.commandLine source) ++ "\n"

def output (j : Job) (source : Path) (outcome : Outcome) (text : String) : JobOutput :=
  ⟨source, outcome, j.commandText source ++ text⟩

/-- Whether an analyzer's answer may be kept.  What was printed before a timeout is not the whole. -/
def accepts (policy : FailurePolicy) (o : AnalyzerOutput) : Bool :=
  !o.timedOut && match policy with
    | .cacheAlways  => true
    | .skipFailures => o.isSuccess

/-- The files after an answer: it is kept if it may be, and if it can be written. -/
def keep (j : Job) (source : Path) (o : AnalyzerOutput) (fs : FileSystem) : FileSystem :=
  if accepts j.failurePolicy o then
    match j.layout.write fs source o.text with
    | .ok fs'  => fs'
    | .error _ => fs
  else fs

def answerText (o : AnalyzerOutput) : String :=
  o.text ++ if o.timedOut then "error: analyzer timed out\n" else ""

def analyze (j : Job) (source : Path) (fs : FileSystem) : JobRun :=
  let argv := j.commandLine source
  match j.analyzer argv fs with
  | (.finished o, fs') =>
    ⟨some (j.output source (.analyzed o.exitCode) (answerText o)), [argv], j.keep source o fs'⟩
  | (.notStarted e, fs') =>
    ⟨some (j.output source .failed
      ("error: failed to run analyzer " ++ j.configuration.analyzer.text ++ ": " ++ e.message ++ "\n")), [argv], fs'⟩
  | (.crashed, fs') => ⟨none, [argv], fs'⟩

/-- The text of a kept result in a block, unless it was written in a year without dates. -/
def cachedText? (r : CachedResult) : Option String :=
  r.modified.civilText?.map fun date => "Read from cache created at " ++ date ++ "...\n" ++ r.text

def replay (j : Job) (source : Path) (fs : FileSystem) : JobRun :=
  match j.layout.read fs source with
  | .ok (some r) => ⟨(cachedText? r).map (j.output source .cached), [], fs⟩
  | .ok none     => j.analyze source fs
  | .error e     =>
    ⟨some (j.output source .failed
      ("error: failed to read cached result " ++ (j.layout.resultPath source).text ++ ": " ++ e.message ++ "\n")),
      [], fs⟩

def process (j : Job) (source : Path) (fs : FileSystem) : JobRun :=
  if j.layout.isStale fs source j.force then j.analyze source fs
  else if j.onlyLatest then ⟨some (j.output source .skipped (skippedNotice ++ "\n")), [], fs⟩
  else j.replay source fs

end Job
end Recheck
