import Recheck.CommandLine.Arguments
import Recheck.Execution
import Recheck.Sdk
/-!
# The program

What the program does for a command line in an environment: what it prints, the code it ends with, and the files
afterwards.
-/
namespace Recheck.CommandLine

structure Ended where
  code : Nat
  stdout : String
  stderr : String
  fs : FileSystem

/-- The text of `--version`. -/
def versionText : String := "nullarihyon 0.1.0\n"

def failure (fs : FileSystem) (stdout message : String) : Ended := ⟨1, stdout, message ++ "\n", fs⟩

def crashCode : Nat := 101

/-! ## Runs in a build phase -/

def summaryText (s : Summary) : String :=
  let line := fun (name value : String) => "  \"" ++ name ++ "\": " ++ value
  "\x7b\n" ++ String.intercalate ",\n" [
    line "forced" (if s.forced then "true" else "false"),
    line "analyzed" (Nat.repr s.analyzed),
    line "analyzer_failures" (Nat.repr s.analyzerFailures),
    line "cached" (Nat.repr s.cached),
    line "skipped" (Nat.repr s.skipped),
    line "errors" (Nat.repr s.errors)] ++ "\n\x7d\n"

/-- Writes a summary where one is asked for. -/
def writeSummary (fs : FileSystem) (summary? : Option Path) (stdout : String) (s : Summary) : Ended :=
  match summary? with
  | none      => ⟨0, stdout, "", fs⟩
  | some path =>
    match fs.write path (Utf8.encode (summaryText s)) with
    | .ok fs'  => ⟨0, stdout, "", fs'⟩
    | .error e => failure fs stdout ("Error writing summary to " ++ path.text ++ ": " ++ e.message)

/-- The report on a run that could not be prepared. -/
def prepareFailure (fs : FileSystem) : PrepareError → Ended
  | .missing _   => failure fs "" "Start from Xcode \"Run Script Phase\"..."
  | .outOfMemory => ⟨crashCode, "", "", fs⟩
  | e            => failure fs "" ("Error: " ++ e.message)

/-- The command `xcode`. -/
def runXcode (fs : FileSystem) (env : Execution.Environment) (r : RunRequest) (summary? : Option Path) : Ended :=
  let analyzer := fun timeoutSecs : Option Nat => Execution.analyzer env (timeoutSecs.map (· * 1000))
  let report := PreparedRun.phase fs r (BuildEnv.ofList env) analyzer Sink.good
  match report.ending with
  | .unprepared e      => prepareFailure report.fs e
  | .ran (.finished s) => writeSummary report.fs summary? report.sink.text s
  | .ran (.failed e)   => failure report.fs report.sink.text ("Error: " ++ e.message)
  | .ran .outOfMemory  => ⟨crashCode, report.sink.text, "", report.fs⟩

/-! ## SDKs -/

/-- The developer directory: as set, or as the tool for it says. -/
def developerDir (fs : FileSystem) (env : Execution.Environment) : Except IoError Path × FileSystem :=
  match (BuildEnv.ofList env).nonempty? "DEVELOPER_DIR" with
  | some directory => (.ok ⟨directory⟩, fs)
  | none =>
    match Execution.query env ["xcode-select", "-p"] fs with
    | (.ok (some text), fs') => (.ok ⟨trimText text⟩, fs')
    | (.ok none, fs')        => (.error .noDeveloperDirectory, fs')
    | (.error e, fs')        => (.error e, fs')

def noXcode (fs : FileSystem) (e : IoError) : Ended := failure fs "" ("Error locating Xcode: " ++ e.message)

def padName (name : String) : String := name ++ String.ofList (List.replicate (24 - name.length) ' ')

/-- The command `sdks`. -/
def runSdks (fs : FileSystem) (env : Execution.Environment) : Ended :=
  match developerDir fs env with
  | (.error e, fs')      => noXcode fs' e
  | (.ok directory, fs') =>
    match Sdk.table fs' directory with
    | []    => ⟨0, "No SDKs found in " ++ directory.text ++ "\n", "", fs'⟩
    | table => ⟨0, String.join (table.map fun (name, path) => "  " ++ padName name ++ " " ++ path.text ++ "\n"), "", fs'⟩

/-- The SDK that a request names, by path or by name. -/
def sysroot (fs : FileSystem) (env : Execution.Environment) (r : CheckRequest) : Except Ended (Option Path × FileSystem) :=
  match r.sdkPath, r.sdk with
  | some path, _    => .ok (some path, fs)
  | none, none      => .ok (none, fs)
  | none, some name =>
    match developerDir fs env with
    | (.error e, fs')      => .error (noXcode fs' e)
    | (.ok directory, fs') =>
      match Sdk.find? fs' directory name with
      | some path => .ok (some path, fs')
      | none      =>
        let known := String.intercalate ", " ((Sdk.table fs' directory).map Prod.fst)
        .error (failure fs' "" ("Unknown SDK '" ++ name ++ "'. Available SDKs: " ++ known))

/-! ## Checks of single files -/

/-- Whether output is coloured: never on its own, since it is not a terminal that it goes to. -/
def isColoured (env : Execution.Environment) : Bool :=
  match (BuildEnv.ofList env).get? "CLICOLOR_FORCE" with
  | some value => value != "0"
  | none       => false

def colourReset : String := "\x1b[0m"

def blue : String := "\x1b[34m"

/-- A text in blue; after a reset inside of it blue is set again. -/
def inBlue (s : String) : String := blue ++ AnalyzerScript.replaceAll colourReset (colourReset ++ blue) s ++ colourReset

/-- The command line for a file, as it is shown. -/
def shownCommand (env : Execution.Environment) (c : Configuration) (file : Path) : String :=
  let line := joinTexts " " (c.commandLine [file])
  (if isColoured env then inBlue line else line) ++ "\n"

def checkFile (env : Execution.Environment) (c : Configuration) (e : Ended) (file : Path) : Ended :=
  let stdout := e.stdout ++ shownCommand env c file
  match Execution.analyzer env none (c.commandLine [file]) e.fs with
  | (.finished o, fs)      => { e with stdout := stdout ++ o.text, fs := fs }
  | (.notStarted cause, fs) =>
    ⟨1, stdout, e.stderr ++ "Failed to execute analyzer: " ++ cause.message ++ "\n", fs⟩
  | (.crashed, fs)         => ⟨crashCode, stdout, e.stderr, fs⟩

/-- The command `check`. -/
def runCheck (fs : FileSystem) (env : Execution.Environment) (r : CheckRequest) : Ended :=
  match Configuration.make fs r.analyzer r.resourceDir with
  | .error e => failure fs "" ("Error: " ++ e.message)
  | .ok c    =>
    match sysroot fs env r with
    | .error e          => e
    | .ok (path, fs') =>
      let changes := [.arc r.arc, .modules r.modules, .assertionsBlocked r.assertionsBlocked, .sysroot path] ++
        r.flags.map Change.addFlag
      r.files.foldl (checkFile env (c.applyAll changes)) ⟨0, "", "", fs'⟩

/-! ## The whole program -/

/-- The code for a command line that asks for nothing known. -/
def usageCode : Nat := 2

def run (fs : FileSystem) (env : Execution.Environment) (args : List String) : Ended :=
  match request (BuildEnv.ofList env) args with
  | .xcode r summary? => runXcode fs env r summary?
  | .check r          => runCheck fs env r
  | .sdks             => runSdks fs env
  | .help             => ⟨0, "", "", fs⟩
  | .version          => ⟨0, versionText, "", fs⟩
  | .invalid          => ⟨usageCode, "", "", fs⟩

end Recheck.CommandLine
