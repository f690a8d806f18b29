import Recheck.FileSystem.Access
/-!
# Analyzers

An analyzer is a black box: it gets a command line and either answers with text and an exit code, or cannot be started.
It may read and change files.  An attempt may also bring down whoever makes it (`crashed`).
-/
namespace Recheck

/-- What an analyzer printed, and how it ended. -/
structure AnalyzerOutput where
  text : String
  /-- Nothing if it was killed. -/
  exitCode : Option Int
  timedOut : Bool
  deriving DecidableEq, Repr

def AnalyzerOutput.isSuccess (o : AnalyzerOutput) : Bool := o.exitCode == some 0

inductive Attempt where
  | finished (output : AnalyzerOutput)
  | notStarted (cause : IoError)
  | crashed
  deriving DecidableEq, Repr

/-- What calling an analyzer with a command line comes to, and the files afterwards. -/
abbrev Analyzer := List String → FileSystem → Attempt × FileSystem

namespace Analyzer

/-- An analyzer that touches no file, and whose answer depends on the command line alone. -/
def ofFunction (answer : List String → Attempt) : Analyzer := fun argv fs => (answer argv, fs)

end Analyzer

/-- An answer laid down beforehand; the text may refer to the call. -/
structure ScriptedAnswer where
  /-- The answer's text, a notice about the source if none is given. -/
  text : Option String
  exitCode : Option Int
  timedOut : Bool

inductive ScriptedCall where
  | answer (a : ScriptedAnswer)
  | notStarted (text : String)
  | crash

/-- A table of answers by source, and one for all other sources. -/
structure AnalyzerScript where
  default : ScriptedCall
  bySource : List (String × ScriptedCall)

namespace AnalyzerScript

/-- A text with every occurrence of `old` replaced, from left to right; `skip` characters are still part of the last
occurrence. -/
def replaceFrom (old new : List Char) : Nat → List Char → List Char
  | _, []           => []
  | skip + 1, _ :: cs => replaceFrom old new skip cs
  | 0, c :: cs      =>
    if old.isPrefixOf (c :: cs) then new ++ replaceFrom old new (old.length - 1) cs
    else c :: replaceFrom old new 0 cs

def replaceAll (old new text : String) : String :=
  if old.isEmpty then text else String.ofList (replaceFrom old.toList new.toList 0 text.toList)

def sourceOf (argv : List String) : String := argv.getD 1 ""

def textFor (a : ScriptedAnswer) (argv : List String) : String :=
  let template := a.text.getD "Check result for \x7bsource\x7d\n"
  replaceAll "\x7bargv\x7d" (String.intercalate " " argv) (replaceAll "\x7bsource\x7d" (sourceOf argv) template)

def attempt (s : AnalyzerScript) (argv : List String) : Attempt :=
  match (s.bySource.lookup (sourceOf argv)).getD s.default with
  | .answer a        => .finished ⟨textFor a argv, a.exitCode, a.timedOut⟩
  | .notStarted text => .notStarted (.other text)
  | .crash           => .crashed

def analyzer (s : AnalyzerScript) : Analyzer := Analyzer.ofFunction s.attempt

end AnalyzerScript
end Recheck
