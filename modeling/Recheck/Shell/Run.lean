import Recheck.Shell.Program
/-!
# Running scripts

Commands as changes of the state of a shell.  How deep commands and scripts may nest is bounded, and so is the number of
rounds of a loop; a script that reaches a bound while it is timed counts as running for ever.
-/
namespace Recheck.Shell

/-- The rounds that a loop may make. -/
def roundLimit : Nat := 100000

/-- Repeats a step until it gives nothing, at most `n` times; the flag tells that the limit was reached. -/
def repeatStep (step : State → State × Bool) : Nat → State → State × Bool
  | 0, st => (st, true)
  | n + 1, st =>
    match step st with
    | (st', true)  => repeatStep step n st'
    | (st', false) => (st', false)

/-- A script that does not end: its time runs out, or it is killed where there is no limit. -/
def endless (st : State) : State :=
  match st.limit with
  | some l => { st with elapsed := l, flow := .timedOut }
  | none   => { st with flow := .killed 9 }

/-- What a loop does after a round of its body: go on, or end. -/
def afterRound (st : State) : State × Bool :=
  match st.flow with
  | .next        => (st, true)
  | .leave n     => ({ st with flow := if n ≤ 1 then .next else .leave (n - 1) }, false)
  | .again n     => if n ≤ 1 then ({ st with flow := .next }, true) else ({ st with flow := .again (n - 1) }, false)
  | _            => (st, false)

/-! ## Redirections -/

inductive Destination where
  | descriptor (n : Nat)
  | file (path : String)
  | nowhere
  deriving DecidableEq

abbrev Destinations := List (Nat × Destination)

def destinationOf (ds : Destinations) (n : Nat) : Destination := (ds.lookup n).getD (.descriptor n)

def deviceOf? (path : String) : Option Destination :=
  match path with
  | "/dev/null"   => some .nowhere
  | "/dev/stdout" => some (.descriptor 1)
  | "/dev/stderr" => some (.descriptor 2)
  | _             => none

/-- Opens a file for writing; `keepOld` keeps what is in it. -/
def openForWriting (st : State) (path : String) (keepOld : Bool) : State × Option Destination :=
  match deviceOf? path with
  | some d => (st, some d)
  | none   =>
    let old := if keepOld then (st.fs.read ⟨path⟩).toOption.getD ByteArray.empty else ByteArray.empty
    match st.fs.write ⟨path⟩ old with
    | .ok fs   => ({ st with fs := fs }, some (.file path))
    | .error e =>
      let reason := match e with
        | .notFound     => "Directory nonexistent"
        | .isADirectory => "Is a directory"
        | e             => reasonText e
      ((st.report ("cannot create " ++ path ++ ": " ++ reason)).withStatus 2, none)

/-- Sets redirections up one after the other; nothing if one of them fails. -/
def setUp (runner : Runner) : State → Destinations → List Redirect → State × Option Destinations
  | st, ds, []      => (st, some ds)
  | st, ds, r :: rs =>
    match r.target with
    | .descriptor w =>
      let (st, s) := textOfWord runner st w
      let destination := if s = "-" then .nowhere else destinationOf ds (s.toNat?.getD 0)
      setUp runner st ((r.descriptor, destination) :: ds) rs
    | .input w =>
      let (st, path) := textOfWord runner st w
      if path = "/dev/null" then setUp runner { st with input := [] } ds rs
      else match st.fs.read ⟨path⟩ with
        | .ok content => setUp runner { st with input := content.data.toList } ds rs
        | .error _    => ((st.report ("cannot open " ++ path ++ ": No such file")).withStatus 2, none)
    | .file w =>
      let (st, path) := textOfWord runner st w
      match openForWriting st path false with
      | (st, some d) => setUp runner st ((r.descriptor, d) :: ds) rs
      | (st, none)   => (st, none)
    | .append w =>
      let (st, path) := textOfWord runner st w
      match openForWriting st path true with
      | (st, some d) => setUp runner st ((r.descriptor, d) :: ds) rs
      | (st, none)   => (st, none)

/-- Leads one piece of output to where its descriptor leads. -/
def route (ds : Destinations) (st : State) (piece : Output) : State :=
  match destinationOf ds piece.descriptor with
  | .descriptor n => { st with out := { piece with descriptor := n } :: st.out }
  | .nowhere      => st
  | .file path    =>
    let old := (st.fs.read ⟨path⟩).toOption.getD ByteArray.empty
    match st.fs.write ⟨path⟩ ⟨(old.data.toList ++ piece.bytes).toArray⟩ with
    | .ok fs   => { st with fs := fs }
    | .error _ => st

def redirecting (runner : Runner) (rs : List Redirect) (body : State → State) (st : State) : State :=
  if rs.isEmpty then body st
  else
    match setUp runner st [] rs with
    | (st', none)    => { st' with input := st.input }
    | (st', some ds) =>
      let inner := body { st' with out := [] }
      inner.out.reverse.foldl (route ds) { inner with out := st'.out, input := st.input }

/-! ## Commands that are part of the shell -/

/-- The signals in the order of their numbers, each with what is said of a program that it killed. -/
def signals : List (String × String) :=
  [("EXIT", ""), ("HUP", "Hangup"), ("INT", ""), ("QUIT", "Quit"), ("ILL", "Illegal instruction"),
   ("TRAP", "Trace/breakpoint trap"), ("ABRT", "Aborted"), ("BUS", "Bus error"), ("FPE", "Floating point exception"),
   ("KILL", "Killed"), ("USR1", "User defined signal 1"), ("SEGV", "Segmentation fault"),
   ("USR2", "User defined signal 2"), ("PIPE", ""), ("ALRM", "Alarm clock"), ("TERM", "Terminated"),
   ("STKFLT", "Stack fault"), ("CHLD", "Child exited"), ("CONT", "Continued"), ("STOP", "Stopped (signal)"),
   ("TSTP", "Stopped"), ("TTIN", "Stopped (tty input)"), ("TTOU", "Stopped (tty output)"),
   ("URG", "Urgent I/O condition"), ("XCPU", "CPU time limit exceeded"), ("XFSZ", "File size limit exceeded"),
   ("VTALRM", "Virtual timer expired"), ("PROF", "Profiling timer expired"), ("WINCH", "Window changed"),
   ("IO", "I/O possible"), ("PWR", "Power failure"), ("SYS", "Bad system call")]

def signalOf? (s : String) : Option Nat :=
  match s.toNat? with
  | some n => if n < signals.length then some n else none
  | none   => (signals.map Prod.fst).idxOf? s

/-- Signals that do nothing to a program that has not asked for them. -/
def isIgnored (signal : Nat) : Bool := signal = 0 || (17 ≤ signal && signal ≤ 23) || signal = 28

def killArguments (args : List String) : Option (Nat × List String) :=
  match args with
  | "-s" :: name :: rest => (signalOf? name).map fun n => (n, rest)
  | a :: rest            =>
    match a.toList with
    | '-' :: name => (signalOf? (String.ofList name)).map fun n => (n, rest)
    | _           => some (15, args)
  | [] => none

/-- The action at signals, nothing to take it back. -/
def trap (args : List String) (st : State) : State :=
  let setFor := fun (action? : Option String) (names : List String) =>
    let numbers := names.filterMap signalOf?
    let kept := st.traps.filter fun t => !numbers.contains t.1
    { st with traps := (match action? with
        | some a => numbers.map ((·, a))
        | none   => []) ++ kept, status := 0 }
  match args with
  | "-" :: names    => setFor none names
  | [name]          => setFor none [name]
  | action :: names => setFor (some action) names
  | []              => st.withStatus 0

/-- Ends the shell, a function or a round with the status that an argument asks for, the last one without an argument. -/
def endWith (name : String) (flow : Flow) (args : List String) (st : State) : State :=
  match args with
  | a :: _ =>
    match a.toNat? with
    | some n => { st with status := n % 256, flow := flow }
    | none   => stop st (name ++ ": Illegal number: " ++ a)
  | []     => { st with flow := flow }

def loopsOf (args : List String) : Nat := ((args.head?.bind String.toNat?).getD 1)

/-- Splits `name=value`. -/
def splitAssignment (s : String) : String × Option String :=
  let name := s.toList.takeWhile (· != '=')
  match s.toList.drop name.length with
  | _ :: value => (String.ofList name, some (String.ofList value))
  | []         => (s, none)

def exportVars (args : List String) (st : State) : State :=
  args.foldl (fun st a =>
    let (name, value) := splitAssignment a
    let st := match value with
      | some v => st.setVar name v
      | none   => st
    { st with exported := name :: st.exported }) (st.withStatus 0)

def setOptions (args : List String) (st : State) : State :=
  match args with
  | "--" :: rest => { st with args := rest, status := 0 }
  | a :: rest =>
    match a.toList with
    | '-' :: flags => { st with
        strict := st.strict || flags.contains 'e', needsSet := st.needsSet || flags.contains 'u', status := 0 }
    | '+' :: flags => { st with
        strict := st.strict && !flags.contains 'e', needsSet := st.needsSet && !flags.contains 'u', status := 0 }
    | _            => { st with args := a :: rest, status := 0 }
  | [] => st.withStatus 0

def workDirVariable : String := "PWD"

def changeDirectory (args : List String) (st : State) : State :=
  let target := args.headD ((st.var? "HOME").getD "/")
  match st.fs.stat ⟨target⟩ with
  | .ok (a, .directory) =>
    let old := (st.var? workDirVariable).getD ""
    let st := { st with fs := { st.fs with workDir := a }, status := 0 }
    (st.setVar "OLDPWD" old).setVar workDirVariable (workDirText st)
  | _ => (st.report ("cd: can't cd to " ++ target)).withStatus 2

def shift (args : List String) (st : State) : State :=
  let n := (args.head?.bind String.toNat?).getD 1
  if st.args.length < n then stop st "shift: can't shift that many"
  else { st with args := st.args.drop n, status := 0 }

/-- The first line of the input into variables, the last of which takes all that is left. -/
def readLine (args : List String) (st : State) : State :=
  let names := args.filter (· != "-r")
  let line := State.textOf (st.input.takeWhile (· != 10))
  let rest := st.input.dropWhile (· != 10)
  let assign := fun (st : State) (i : Nat) (name : String) =>
    let fields := looseWords line
    if i + 1 = names.length then st.setVar name (String.intercalate " " (fields.drop i))
    else st.setVar name (fields.getD i "")
  let st' := (names.zipIdx).foldl (fun st (name, i) => assign st i name) { st with input := rest.drop 1 }
  st'.succeed (!rest.isEmpty)

/-- The commands of the shell that run nothing else. -/
def builtin? (name : String) (args : List String) (st : State) : Option State :=
  match name with
  | ":"        => some (st.withStatus 0)
  | "true"     => some (st.withStatus 0)
  | "false"    => some (st.withStatus 1)
  | "echo"     => some (echo true args st)
  | "printf"   => some (printf args st)
  | "test"     => some (test args st)
  | "["        => some (bracket args st)
  | "pwd"      => some ((st.print (workDirText st ++ "\n")).withStatus 0)
  | "cd"       => some (changeDirectory args st)
  | "exit"     => some (endWith "exit" .exit args st)
  | "return"   => some (endWith "return" .back args st)
  | "break"    => some { st with status := 0, flow := .leave (loopsOf args) }
  | "continue" => some { st with status := 0, flow := .again (loopsOf args) }
  | "export"   => some (exportVars args st)
  | "unset"    => some ((args.foldl State.unsetVar st).withStatus 0)
  | "shift"    => some (shift args st)
  | "set"      => some (setOptions args st)
  | "wait"     => some ((st.withStatus 0).passUntil (max st.elapsed st.busyUntil))
  | "read"     => some (readLine args st)
  | "trap"     => some (trap args st)
  | "umask"    => some ((if args.isEmpty then st.print "0022\n" else st).withStatus 0)
  | "alias"    => some (st.withStatus 0)
  | "local"    => some ((args.foldl (fun st a => match splitAssignment a with
      | (n, some v) => st.setVar n v
      | (_, none)   => st) st).withStatus 0)
  | _          => none

def builtinNames : List String :=
  [":", "true", "false", "echo", "printf", "test", "[", "pwd", "cd", "exit", "return", "break", "continue", "export",
   "unset", "shift", "set", "wait", "read", "trap", "umask", "alias", "local", "kill", "eval", "exec", "command", "."]

/-- Why the shell could not start a command. -/
def refusal : IoError → String
  | .permissionDenied => "Permission denied"
  | .nameTooLong      => "File name too long"
  | .tooManyLinks     => "Too many levels of symbolic links"
  | _                 => "not found"

/-- What names stand for as commands: themselves or the paths of programs. -/
def locateCommands (names : List String) (st : State) : State :=
  names.foldl (fun st name =>
    if (st.functions.lookup name).isSome || builtinNames.contains name then st.print (name ++ "\n")
    else match findProgram st.fs ((st.var? "PATH").getD defaultPath) name [] with
      | .ok (path, _) => st.print (path ++ "\n")
      | .error _      => st.withStatus 127) (st.withStatus 0)

/-! ## Commands -/

/-- The state after a command that runs apart, as it is seen by the shell that started it. -/
def rejoin (outer inner : State) : State :=
  { outer with
    fs := { inner.fs with workDir := outer.fs.workDir }
    status := inner.status
    elapsed := inner.elapsed
    out := inner.out
    flow := match inner.flow with
      | .killed signal => .killed signal
      | .timedOut      => .timedOut
      | _              => .next }

/-- The state after a program that was started by a shell and may have been killed. -/
def afterProgram (st : State) : State :=
  match st.flow with
  | .killed signal =>
    let message := ((signals[signal]?).map Prod.snd).getD ""
    (if message.isEmpty then st else st.complain (message ++ "\n")).withStatus (128 + signal) |> fun st =>
      { st with flow := .next }
  | _ => st

/-- A shell of its own starts without the actions of the one that starts it. -/
def enterShell (st : State) : State := { st with traps := st.traps.filter (·.2.isEmpty) }

/-- The shell is no longer there to do anything. -/
def endsShell : Flow → Bool
  | .killed _ => true
  | .timedOut => true
  | _         => false

/-- A failing command ends a strict shell, unless its status is asked for. -/
def strictly (tested : Bool) (st : State) : State :=
  if st.strict && !tested && st.status != 0 && st.flow == .next then { st with flow := .exit } else st

/-- The arguments of a shell that are not options: the script text or its file, its name and its arguments. -/
structure ShellCall where
  strict : Bool
  /-- The script is given as text. -/
  text : Bool
  rest : List String

def shellCall : List String → ShellCall
  | a :: rest =>
    match a.toList with
    | '-' :: c :: flags =>
      let all := c :: flags
      let call := shellCall rest
      ⟨call.strict || all.contains 'e', call.text || all.contains 'c', call.rest⟩
    | _ => ⟨false, false, a :: rest⟩
  | [] => ⟨false, false, []⟩

mutual

/-- One command; with `tested` its status is asked for. -/
def run : Nat → Bool → Command → State → State
  | 0, _, _, st => endless st
  | n + 1, tested, c, st =>
    if st.flow ≠ .next then st
    else match c with
      | .skip => st
      | .simple line assignments words rs => strictly tested (simple n line assignments words rs st)
      | .sequence a b => run n tested b (run n tested a st)
      | .both a b =>
        let st := run n true a st
        if st.status = 0 then run n tested b st else st
      | .either a b =>
        let st := run n true a st
        if st.status = 0 then st else run n tested b st
      | .negated a =>
        let st := run n true a st
        st.succeed (st.status != 0)
      | .conditional condition body otherwise =>
        let st := run n true condition st
        if st.flow ≠ .next then st
        else if st.status = 0 then run n tested body st
        else run n tested otherwise (st.withStatus 0)
      | .loop inverted condition body =>
        let step := fun (st : State) =>
          let last := st.status
          let st := run n true condition st
          if st.flow ≠ .next then afterRound st
          else if (st.status = 0) = (inverted = false) then afterRound (run n tested body st)
          else (st.withStatus last, false)
        match repeatStep step roundLimit (st.withStatus 0) with
        | (st, true)  => endless st
        | (st, false) => st
      | .each name words body =>
        let (st, fields) := match words with
          | some ws => fieldsOfAll (outputOf n) st ws
          | none    => (st, st.args)
        (fields.foldl (fun (acc : State × Bool) field =>
          if acc.2 then afterRound (run n tested body (acc.1.setVar name field)) else acc) (st.withStatus 0, true)).1
      | .choice w arms =>
        let (st, s) := textOfWord (outputOf n) st w
        let fits := fun (p : Word) =>
          matches? (segmentGlob (expand (outputOf n) (expandLimit p) st p).2) s.toList
        match arms.find? (fun arm => arm.1.any fits) with
        | some (_, body) => run n tested body (st.withStatus 0)
        | none           => st.withStatus 0
      | .apart a => strictly tested (rejoin st (finish n (run n tested a (enterShell st))))
      | .background a =>
        let inner := finish n (run n tested a (enterShell { st with limit := none, input := [] }))
        { st with
          fs := { inner.fs with workDir := st.fs.workDir }
          out := inner.out
          busyUntil := max st.busyUntil inner.elapsed
          status := 0 }
      | .pipeline a b =>
        let left := run n tested a { st with out := [] }
        let passed := left.out.filter (·.descriptor != 1)
        let right := run n tested b { st with
          fs := { left.fs with workDir := st.fs.workDir }
          out := passed ++ st.out
          input := left.collected 1 }
        let joined := rejoin { st with input := st.input } { right with elapsed := max left.elapsed right.elapsed }
        strictly tested (if endsShell left.flow then { joined with flow := left.flow } else joined)
      | .redirected a rs => redirecting (outputOf n) rs (run n tested a) st
      | .define name body =>
        { st with functions := (name, body) :: st.functions, status := 0 }

def finish : Nat → State → State
  | 0, st => st
  | n + 1, st =>
    match st.traps.lookup 0 with
    | none        => st
    | some action =>
      if endsShell st.flow then st
      else match script? action.toList with
        | none   => st
        | some c =>
          let after := run n false c { st with flow := .next, traps := st.traps.filter (·.1 != 0) }
          if after.flow = .next then { after with status := st.status, flow := .exit } else after

/-- A simple command: words are expanded, assignments made, and what the first word names is run. -/
def simple : Nat → Nat → List (String × Word) → List Word → List Redirect → State → State
  | 0, _, _, _, _, st => endless st
  | n + 1, line, assignments, words, rs, st =>
    let (st, fields) := fieldsOfAll (outputOf n)
      ({ st with line := line, status := if words.isEmpty then 0 else st.status }) words
    if st.flow ≠ .next then st else
    let assign := fun (st : State) => assignments.foldl (fun (st : State) (name, w) =>
      let (st, s) := textOfWord (outputOf n) st w
      st.setVar name s) st
    match fields with
    | []           => redirecting (outputOf n) rs id (assign st)
    | name :: args =>
      let body := fun (outer : State) =>
        let st := assign outer
        let st := { st with exported := assignments.map Prod.fst ++ st.exported }
        let after := call n name args st
        if assignments.isEmpty then after
        else { after with vars := outer.vars, exported := outer.exported }
      redirecting (outputOf n) rs body st

def call : Nat → String → List String → State → State
  | 0, _, _, st => endless st
  | n + 1, name, args, st =>
    match st.functions.lookup name with
    | some body =>
      let after := run n false body { st with args := args }
      { after with args := st.args, flow := if after.flow = .back then .next else after.flow }
    | none =>
      match builtin? name args st with
      | some st' => st'
      | none     =>
        if name = "eval" then
          match script? (String.intercalate " " args).toList with
          | some c => run n false c (st.withStatus 0)
          | none   => stop st "eval: Syntax error"
        else if name = "kill" then
          match killArguments args with
          | none                  => stop st "kill: Illegal option"
          | some (signal, target) =>
            if !target.contains (processId 0) then
              if target.all fun t => (parameter? st "!").any (· == t) then st.withStatus 0
              else (st.report "kill: No such process").withStatus 1
            else match st.traps.lookup signal with
              | none        => if isIgnored signal then st.withStatus 0 else { st with flow := .killed signal }
              | some action =>
                match script? action.toList with
                | none   => stop st "Syntax error"
                | some c =>
                  let after := run n false c (st.withStatus 0)
                  if after.flow = .next then after.withStatus 0 else after
        else if name = "exec" then
          match args with
          | []      => st.withStatus 0
          | a :: as =>
            let after := program n "exec: " a as st
            if after.flow = .next then { after with flow := .exit } else after
        else if name = "command" then
          match args with
          | []            => st.withStatus 0
          | "-v" :: names => locateCommands names st
          | a :: as       => call n a as st
        else if name = "." then
          match args with
          | []     => st.withStatus 2
          | a :: _ =>
            match (st.fs.read ⟨a⟩).toOption.bind (fun b => script? (Utf8.decodeLossy b).toList) with
            | some c => run n false c (st.withStatus 0)
            | none   => stop st (".: cannot open " ++ a ++ ": No such file")
        else afterProgram (program n "" name args st)

/-- A program of the system or a script, started by the shell; `label` stands in front of its name in complaints. -/
def program : Nat → String → String → List String → State → State
  | 0, _, _, _, st => endless st
  | n + 1, label, name, args, st =>
    match findProgram st.fs ((st.var? "PATH").getD defaultPath) name args with
    | .ok (path, tool, argv) => execute n tool (if argv.length = args.length then name else path) argv st
    | .error .notAProgram    => execute n shellName name (name :: args) st
    | .error e =>
      (st.report (label ++ name ++ ": " ++ refusal e)).withStatus
        (if e = .permissionDenied ∧ name.toList.contains '/' then 126 else 127)

/-- A tool called by some name; the shell itself is one of them. -/
def execute : Nat → String → String → List String → State → State
  | 0, _, _, _, st => endless st
  | n + 1, tool, name, args, st =>
    if tool = shellName then
      let c := shellCall args
      let inside : State := { st with
        vars := st.environment.filter (·.1 != workDirVariable) ++ [(workDirVariable, workDirText st)]
        exported := workDirVariable :: st.exported
        functions := [], strict := c.strict, needsSet := false, traps := [], status := 0, busyUntil := 0, line := 1
        name := if c.text then (c.rest[1]?).getD name else c.rest.headD name
        args := if c.text then c.rest.drop 2 else c.rest.drop 1 }
      let script : Except IoError (List Char) :=
        if c.text then match c.rest with
          | []     => .error .emptyCommandLine
          | s :: _ => .ok s.toList
        else match c.rest with
          | []        => .ok (State.textOf st.input).toList
          | file :: _ => (st.fs.read ⟨file⟩).map fun b => (Utf8.decodeLossy b).toList
      match script with
      | .error .emptyCommandLine => (st.complain (name ++ ": 0: -c requires an argument\n")).withStatus 2
      | .error _                 =>
        (st.complain (name ++ ": 0: cannot open " ++ c.rest.headD "" ++ ": No such file\n")).withStatus 2
      | .ok text =>
        match script? text with
        | some command => rejoin st (finish n (run n false command inside))
        | none         => (inside.report "Syntax error").withStatus 2 |> rejoin st
    else if tool = "which" then locateCommands args { st with functions := [] }
    else if tool = "env" then
      let assignments := args.takeWhile (·.toList.contains '=')
      let inside := exportVars assignments st
      match args.drop assignments.length with
      | []              => { inside with out := (printEnvironment inside).out, vars := st.vars, exported := st.exported }
      | command :: rest =>
        match findProgram st.fs ((inside.var? "PATH").getD defaultPath) command rest with
        | .error _               => (st.complain ("env: '" ++ command ++ "': No such file or directory\n")).withStatus 127
        | .ok (path, tool, argv) =>
          let after := execute n tool (if argv.length = rest.length then command else path) argv inside
          { after with vars := st.vars, exported := st.exported }
    else match tool? tool args st with
      | some st' => st'
      | none     => st.withStatus 127

def outputOf : Nat → State → List Char → State × String
  | 0, st, _ => (endless st, "")
  | n + 1, st, text =>
    match script? text with
    | none   => (stop st "Syntax error", "")
    | some c =>
      let inner := finish n (run n false c (enterShell { st with out := [] }))
      let others := inner.out.filter (·.descriptor != 1)
      (rejoin st { inner with out := others ++ st.out }, State.textOf (inner.collected 1))

end

/-- How deep commands and scripts may nest. -/
def depthLimit : Nat := 1000

end Recheck.Shell
