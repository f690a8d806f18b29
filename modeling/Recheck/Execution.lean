import Recheck.Analyzer
import Recheck.Shell.Run
/-!
# Processes

Programs run with a command line: found, started with nothing to read, and waited for, if need be only for some time.  What
they print on either descriptor is one text, in the order it was printed.
-/
namespace Recheck.Execution

open Shell (State)

abbrev Environment := List (String × String)

def initial (fs : FileSystem) (env : Environment) (limit : Option Nat) : State where
  fs := fs
  vars := env
  exported := env.map Prod.fst
  functions := []
  name := ""
  line := 1
  args := []
  status := 0
  elapsed := 0
  busyUntil := 0
  limit := limit
  input := []
  out := []
  flow := .next
  strict := false
  needsSet := false
  traps := []

/-- The state of a process at its end, or why it could not be started. -/
def execute (fs : FileSystem) (env : Environment) (limit : Option Nat) : List String → Except IoError State
  | []           => .error .emptyCommandLine
  | name :: args =>
    if (name :: args).any (·.toList.contains '\x00') then .error .nulInArgument
    else match Shell.findProgram fs ((env.lookup "PATH").getD Shell.defaultPath) name args with
      | .error e               => .error e
      | .ok (path, tool, argv) =>
        let called := if argv.length = args.length then name else path
        .ok (Shell.execute Shell.depthLimit tool called argv (initial fs env limit))

/-- The exit code of a process, nothing if it was killed. -/
def exitCode (st : State) : Option Int :=
  match st.flow with
  | .killed _ => none
  | .timedOut => none
  | _         => some st.status

def filesAfter (fs : FileSystem) (st : State) : FileSystem := { st.fs with workDir := fs.workDir }

/-- The analyzer that is a program of its own, killed after some milliseconds if there is a limit. -/
def analyzer (env : Environment) (limit : Option Nat) : Analyzer := fun argv fs =>
  match execute fs env limit argv with
  | .error e => (.notStarted e, fs)
  | .ok st   =>
    (.finished ⟨State.textOf st.allOutput, exitCode st, st.flow == .timedOut⟩, filesAfter fs st)

/-- What a program printed on its standard output, if it ended in success, and the files after it. -/
def query (env : Environment) (argv : List String) (fs : FileSystem) :
    Except IoError (Option String) × FileSystem :=
  match execute fs env none argv with
  | .error e => (.error e, fs)
  | .ok st   =>
    (.ok (if exitCode st = some 0 then some (State.textOf (st.collected 1)) else none), filesAfter fs st)

end Recheck.Execution
