import Recheck.Shell.Format
/-!
# Tools

The programs of the system that scripts call, as changes of the state of a shell: what they print, how they end, what they
do to files, and how long they take.
-/
namespace Recheck.Shell

def workDirText (st : State) : String := (FileSystem.pathOf st.fs.workDir).text

/-- A text without its last line end is a line too. -/
def linesOf (bytes : List UInt8) : List (List UInt8) :=
  let step := fun (acc : List (List UInt8) × List UInt8) (b : UInt8) =>
    if b = 10 then (acc.2.reverse :: acc.1, []) else (acc.1, b :: acc.2)
  let (done, last) := bytes.foldl step ([], [])
  (if last.isEmpty then done else last.reverse :: done).reverse

def unlines (lines : List (List UInt8)) : List UInt8 := lines.flatMap (· ++ [10])

/-! ## Printing -/

/-- Prints its arguments with spaces between them.  As a command of the shell it carries escapes out. -/
def echo (builtin : Bool) (args : List String) (st : State) : State :=
  let isOption := fun (a : String) => match a.toList with
    | '-' :: c :: cs => (c :: cs).all fun c => c == 'n' || (!builtin && (c == 'e' || c == 'E'))
    | _              => false
  let options := if builtin then (args.take 1).filter (· == "-n") else args.takeWhile isOption
  let words := args.drop options.length
  let line := !(options.any fun o => o.toList.contains 'n')
  let escapes := builtin || ((options.flatMap String.toList).filter fun c => c == 'e' || c == 'E').getLast? == some 'e'
  let text := String.intercalate " " words
  let (bytes, cut) := if escapes then unescape true (text.length + 1) text.toList else (State.bytesOf text, false)
  (st.emit 1 (bytes ++ if line && !cut then [10] else [])).withStatus 0

def printf (args : List String) (st : State) : State :=
  match args with
  | "--" :: format :: rest => (st.emit 1 (formatAll format.toList (rest.length + 1) rest)).withStatus 0
  | format :: rest         => (st.emit 1 (formatAll format.toList (rest.length + 1) rest)).withStatus 0
  | []                     => (st.report "printf: usage: printf format [arg ...]").withStatus 2

/-! ## Tests -/

def fileTest (fs : FileSystem) (flag : String) (p : String) : Bool :=
  match flag with
  | "-f" => fs.isFile ⟨p⟩
  | "-d" => fs.isDirectory ⟨p⟩
  | "-e" => (fs.stat ⟨p⟩).toOption.isSome
  | "-r" => (fs.stat ⟨p⟩).toOption.isSome
  | "-w" => (fs.stat ⟨p⟩).toOption.isSome
  | "-x" => match fs.stat ⟨p⟩ with
    | .ok (_, .file _ _ executable) => executable
    | .ok (_, .directory)           => true
    | _                             => false
  | "-s" => match fs.read ⟨p⟩ with
    | .ok content => !content.isEmpty
    | .error _    => false
  | "-L" => match fs.locate false ⟨p⟩ with
    | .ok (.occupied _ (.link _)) => true
    | _                           => false
  | _ => false

def comparison? (operator a b : String) : Option Bool :=
  match operator with
  | "="   => some (a == b)
  | "=="  => some (a == b)
  | "!="  => some (a != b)
  | "-eq" => some (integerText a == integerText b)
  | "-ne" => some (integerText a != integerText b)
  | "-lt" => some (integerText a < integerText b)
  | "-le" => some (integerText a ≤ integerText b)
  | "-gt" => some (integerText b < integerText a)
  | "-ge" => some (integerText b ≤ integerText a)
  | _     => none

/-- The arguments before and after the first occurrence of a word that has some on both sides. -/
def splitAtWord? (w : String) (args : List String) : Option (List String × List String) :=
  let before := args.takeWhile (· != w)
  if before.isEmpty ∨ args.length ≤ before.length + 1 then none else some (before, args.drop (before.length + 1))

def condition (fs : FileSystem) : Nat → List String → Bool
  | 0, _ => false
  | n + 1, args =>
    match args with
    | []        => false
    | [a]       => !a.isEmpty
    | ["!", a]  => a.isEmpty
    | ["-n", a] => !a.isEmpty
    | ["-z", a] => a.isEmpty
    | [flag, p] => fileTest fs flag p
    | [a, operator, b] =>
      match comparison? operator a b with
      | some r => r
      | none   => many n args
    | _ => many n args
where
  /-- A condition of several parts. -/
  many (n : Nat) (args : List String) : Bool :=
    match splitAtWord? "-o" args with
    | some (a, b) => condition fs n a || condition fs n b
    | none =>
      match splitAtWord? "-a" args with
      | some (a, b) => condition fs n a && condition fs n b
      | none =>
        match args with
        | "!" :: rest => !condition fs n rest
        | _           => false

def isInteger (s : String) : Bool :=
  let digits := match trimBlank s.toList with
    | '-' :: cs => cs
    | '+' :: cs => cs
    | cs        => cs
  !digits.isEmpty && digits.all Char.isDigit

/-- The operand of a comparison of integers that is none. -/
def badOperand? : List String → Option String
  | [a, operator, b] =>
    if ["-eq", "-ne", "-lt", "-le", "-gt", "-ge"].contains operator then [a, b].find? (!isInteger ·) else none
  | _ => none

/-- The command `test` under one of its names. -/
def testAs (name : String) (args : List String) (st : State) : State :=
  match badOperand? args with
  | some a => (st.report (name ++ ": Illegal number: " ++ a)).withStatus 2
  | none   => st.succeed (condition st.fs (args.length + 1) args)

def test (args : List String) (st : State) : State := testAs "test" args st

/-- `test` with a closing bracket. -/
def bracket (args : List String) (st : State) : State :=
  if args.getLast? = some "]" then testAs "[" args.dropLast st else (st.report "[: missing ]").withStatus 2

/-! ## Time -/

def milliseconds (s : String) : Nat :=
  let whole := s.toList.takeWhile Char.isDigit
  let rest := s.toList.drop whole.length
  let (places, unit) : List Char × List Char := match rest with
    | '.' :: r => (r.takeWhile Char.isDigit, r.dropWhile Char.isDigit)
    | r        => ([], r)
  let thousandths := ((places ++ ['0', '0', '0']).take 3)
  let ms := ((String.ofList whole).toNat?.getD 0) * 1000 + ((String.ofList thousandths).toNat?.getD 0)
  match unit with
  | ['m'] => ms * 60
  | ['h'] => ms * 3600
  | _     => ms

/-- The complaint of a tool that is called without arguments it needs. -/
def missingOperand (tool : String) (st : State) : State :=
  (st.complain (tool ++ ": missing operand\nTry '" ++ tool ++ " --help' for more information.\n")).withStatus 1

def sleep (args : List String) (st : State) : State :=
  if args.isEmpty then missingOperand "sleep" st
  else (st.withStatus 0).passUntil (args.foldl (fun time arg => time + milliseconds arg) st.elapsed)

/-! ## Streams and files -/

/-- The text shown for an error, without its number. -/
def reasonText (e : IoError) : String := String.ofList (e.message.toList.takeWhile (· != '(')).dropLast

/-- The bytes of the named files, or of the input where none is named; a missing file is complained about. -/
def inputs (tool : String) (files : List String) (st : State) : State × List UInt8 :=
  if files.isEmpty then ({ st with input := [] }, st.input)
  else files.foldl (fun (st, bytes) f =>
    if f = "-" then ({ st with input := [] }, bytes ++ st.input)
    else if f = "/dev/null" then (st, bytes)
    else match st.fs.read ⟨f⟩ with
      | .ok content => (st, bytes ++ content.data.toList)
      | .error e    =>
        ((st.complain (tool ++ ": " ++ f ++ ": " ++ reasonText e ++ "\n")).withStatus 1, bytes)) (st.withStatus 0, [])

/-- The arguments that are no options. -/
def operands (args : List String) : List String := args.filter fun a => a == "-" || !("-".toList.isPrefixOf a.toList)

def cat (args : List String) (st : State) : State :=
  let (st, bytes) := inputs "cat" (operands args) (st.withStatus 0)
  st.emit 1 bytes

/-- The numbers of lines, words and bytes. -/
def wordCount (args : List String) (st : State) : State :=
  let (st, bytes) := inputs "wc" (operands args) (st.withStatus 0)
  let lines := bytes.count 10
  let isSpace := fun (b : UInt8) => b == 32 || (9 ≤ b && b ≤ 13)
  let words := (bytes.foldl (fun (n, inWord) b =>
    if isSpace b then (n, false) else (if inWord then n else n + 1, true)) (0, false)).1
  let shown := if args.contains "-l" then [lines] else if args.contains "-w" then [words]
    else if args.contains "-c" then [bytes.length] else [lines, words, bytes.length]
  let padded := fun (n : Nat) =>
    let d := Nat.repr n
    if shown.length = 1 then d else String.ofList (List.replicate (7 - d.length) ' ') ++ d
  let name := match operands args with
    | []     => ""
    | f :: _ => " " ++ f
  st.print (String.intercalate " " (shown.map padded) ++ name ++ "\n")

def setRangesOf : List UInt8 → List UInt8
  | a :: 45 :: b :: bs => (List.range (b.toNat + 1 - a.toNat)).map (fun i => UInt8.ofNat (a.toNat + i)) ++ setRangesOf bs
  | b :: bs            => b :: setRangesOf bs
  | []                 => []

/-- The bytes of a set by its name, or by its members and ranges. -/
def setOf (s : String) : List UInt8 :=
  match s with
  | "[:lower:]" => setRangesOf (State.bytesOf "a-z")
  | "[:upper:]" => setRangesOf (State.bytesOf "A-Z")
  | "[:digit:]" => setRangesOf (State.bytesOf "0-9")
  | "[:space:]" => State.bytesOf " \t\n\r\x0b\x0c"
  | _           => setRangesOf (unescape false (s.length + 1) s.toList).1

/-- Replaces bytes of one set by those of another, or deletes them. -/
def replaceBytes (args : List String) (st : State) : State :=
  let (st, bytes) := inputs "tr" [] (st.withStatus 0)
  st.emit 1 (match args with
    | ["-d", set] => bytes.filter fun c => !(setOf set).contains c
    | [old, new]  =>
      let (a, b) := (setOf old, setOf new)
      bytes.map fun c => match a.idxOf? c with
        | some i => (b[i]?).getD (b.getLast?.getD c)
        | none   => c
    | _ => bytes)

inductive Amount where
  | lines (n : Nat)
  | bytes (n : Nat)
  deriving DecidableEq

/-- The amount asked for, ten lines if none is, and the other arguments. -/
def amountOption (args : List String) : Amount × List String :=
  let number := fun (ds : List Char) => (String.ofList ds).toNat?.getD 10
  match args with
  | "-n" :: n :: rest => (.lines (number n.toList), rest)
  | "-c" :: n :: rest => (.bytes (number n.toList), rest)
  | a :: rest         =>
    match a.toList with
    | '-' :: 'n' :: ds => (.lines (number ds), rest)
    | '-' :: 'c' :: ds => (.bytes (number ds), rest)
    | '-' :: ds        => (.lines (number ds), rest)
    | _                => (.lines 10, args)
  | [] => (.lines 10, [])

/-- The first lines or bytes; the file of zeros has no end. -/
def head (args : List String) (st : State) : State :=
  match amountOption args with
  | (.bytes n, ["/dev/zero"]) => (st.emit 1 (List.replicate n 0)).withStatus 0
  | (amount, files)           =>
    let (st, bytes) := inputs "head" files (st.withStatus 0)
    match amount with
    | .bytes n => st.emit 1 (bytes.take n)
    | .lines n =>
      let kept := (linesOf bytes).take n
      st.emit 1 (if (linesOf bytes).length ≤ n then bytes else unlines kept)

def tail (args : List String) (st : State) : State :=
  let (amount, files) := amountOption args
  let (st, bytes) := inputs "tail" files (st.withStatus 0)
  match amount with
  | .bytes n => st.emit 1 (bytes.drop (bytes.length - n))
  | .lines n =>
    let lines := linesOf bytes
    let skipped := (unlines (lines.take (lines.length - n))).length
    st.emit 1 (bytes.drop skipped)

/-- The lines that `yes` prints before whatever it is read by has had enough. -/
def lineSupply : Nat := 20000

def yes (args : List String) (st : State) : State :=
  let line := State.bytesOf ((if args.isEmpty then "y" else String.intercalate " " args) ++ "\n")
  (st.emit 1 ((List.replicate lineSupply line).flatten)).withStatus 141

def tee (args : List String) (st : State) : State :=
  let (st, bytes) := inputs "tee" [] (st.withStatus 0)
  (operands args).foldl (fun st f =>
    match st.fs.write ⟨f⟩ ⟨bytes.toArray⟩ with
    | .ok fs   => { st with fs := fs }
    | .error e => (st.complain ("tee: " ++ f ++ ": " ++ reasonText e ++ "\n")).withStatus 1) (st.emit 1 bytes)

def expression (args : List String) (st : State) : State :=
  let value? : Option String := match args with
    | [a, operator, b] =>
      if isInteger a && isInteger b then some (toString (operate (if operator = "=" then "==" else operator)
        (integerText a) (integerText b)))
      else if operator = "=" then some (if a = b then "1" else "0")
      else none
    | [a] => some a
    | _   => none
  match value? with
  | some v => (st.print (v ++ "\n")).withStatus (if v = "0" ∨ v = "" then 1 else 0)
  | none   => (st.complain "expr: non-integer argument\n").withStatus 2

def sequenceOf (args : List String) (st : State) : State :=
  let (first, step, last) := match args with
    | [l]       => (1, 1, integerText l)
    | [f, l]    => (integerText f, 1, integerText l)
    | [f, s, l] => (integerText f, integerText s, integerText l)
    | _         => ((1 : Int), (1 : Int), (0 : Int))
  if step = 0 then st.withStatus 1
  else
    let count := (Int.fdiv (last - first) step + 1).toNat
    (st.print (String.join ((List.range count).map fun (i : Nat) => toString (first + step * (i : Int)) ++ "\n"))).withStatus 0

def sort (args : List String) (st : State) : State :=
  let (st, bytes) := inputs "sort" (operands args) (st.withStatus 0)
  let lines := (linesOf bytes).map State.textOf
  let sorted := lines.mergeSort (· ≤ ·)
  st.print (String.join ((if args.contains "-r" then sorted.reverse else sorted).map (· ++ "\n")))

def baseName (args : List String) (st : State) : State :=
  let name := String.ofList ((args.head?.bind fun a => (Path.mk a).fileName?).getD [])
  let name := match args[1]? with
    | some ending =>
      if name != ending && ending.toList.isSuffixOf name.toList
      then String.ofList (name.toList.take (name.length - ending.length)) else name
    | none => name
  (st.print (name ++ "\n")).withStatus 0

def dirName (args : List String) (st : State) : State :=
  let parent := (args.head?.bind fun a => (Path.mk a).parent?).getD ⟨"."⟩
  (st.print ((if parent.text.isEmpty then "." else parent.text) ++ "\n")).withStatus 0

/-- Carries a change of the files out for each argument, and complains about those that fail. -/
def change (tool complaint : String) (f : FileSystem → String → Except IoError FileSystem) (args : List String) (st : State) :
    State :=
  args.foldl (fun st a =>
    match f st.fs a with
    | .ok fs   => { st with fs := fs }
    | .error e =>
      (st.complain (tool ++ ": " ++ complaint ++ " '" ++ a ++ "': " ++ reasonText e ++ "\n")).withStatus 1)
    (st.withStatus 0)

def touch (fs : FileSystem) (p : String) : Except IoError FileSystem :=
  match fs.stat ⟨p⟩ with
  | .ok (a, .file content _ executable) => .ok (fs.store a content executable)
  | .ok _                               => .ok fs
  | .error .notFound                    => fs.write ⟨p⟩ ByteArray.empty
  | .error e                            => .error e

def makeDirectoryTool (args : List String) (st : State) : State :=
  if args.contains "-p" then
    change "mkdir" "cannot create directory" (fun fs p => match fs.makeDirectories ⟨p⟩ with
      | (.ok _, fs')   => .ok fs'
      | (.error e, _)  => .error e) (operands args) st
  else change "mkdir" "cannot create directory" (fun fs p => fs.makeDirectory ⟨p⟩) (operands args) st

def removeTool (args : List String) (st : State) : State :=
  let force := args.any fun a => "-".toList.isPrefixOf a.toList && a.toList.contains 'f'
  let all := args.any fun a => "-".toList.isPrefixOf a.toList && a.toList.any fun c => c == 'r' || c == 'R'
  change "rm" "cannot remove" (fun fs p =>
    if fs.isDirectory ⟨p⟩ && !all then .error .isADirectory
    else match fs.remove ⟨p⟩ with
      | .error .notFound => if force then .ok fs else .error .notFound
      | r                => r) (operands args) st

def removeDirectoryTool (args : List String) (st : State) : State :=
  change "rmdir" "failed to remove" (fun fs p => match fs.list ⟨p⟩ with
    | .error e    => .error e
    | .ok []      => fs.remove ⟨p⟩
    | .ok (_ :: _) => .error (.other "Directory not empty (os error 39)")) (operands args) st

/-- The entries of directories, by name. -/
def listEntries (args : List String) (st : State) : State :=
  let dirs := if (operands args).isEmpty then ["."] else operands args
  dirs.foldl (fun st d =>
    match st.fs.list ⟨d⟩ with
    | .ok entries =>
      let hidden := args.any fun a => "-".toList.isPrefixOf a.toList && a.toList.contains 'a'
      let names := ((entries.map Prod.fst).filter fun n => hidden || !(".".toList.isPrefixOf n.toList)).mergeSort (· ≤ ·)
      st.print (String.join (((if hidden then [".", ".."] else []) ++ names).map (· ++ "\n")))
    | .error .notADirectory => st.print (d ++ "\n")
    | .error _ =>
      (st.complain ("ls: cannot access '" ++ d ++ "': No such file or directory\n")).withStatus 2) (st.withStatus 0)

def printEnvironment (st : State) : State :=
  st.print (String.join (st.environment.map fun (k, v) => k ++ "=" ++ v ++ "\n"))

def printVariables (names : List String) (st : State) : State :=
  if names.isEmpty then (printEnvironment st).withStatus 0
  else names.foldl (fun st name => match st.environment.lookup name with
    | some v => st.print (v ++ "\n")
    | none   => st.withStatus 1) (st.withStatus 0)

def tool? (name : String) (args : List String) (st : State) : Option State :=
  match name with
  | "echo"     => some (echo false args st)
  | "printf"   => some (printf args st)
  | "true"     => some (st.withStatus 0)
  | "false"    => some (st.withStatus 1)
  | "test"     => some (test args st)
  | "["        => some (bracket args st)
  | "sleep"    => some (sleep args st)
  | "pwd"      => some ((st.print (workDirText st ++ "\n")).withStatus 0)
  | "cat"      => some (cat args st)
  | "wc"       => some (wordCount args st)
  | "tr"       => some (replaceBytes args st)
  | "head"     => some (head args st)
  | "tail"     => some (tail args st)
  | "seq"      => some (sequenceOf args st)
  | "sort"     => some (sort args st)
  | "basename" => some (baseName args st)
  | "dirname"  => some (dirName args st)
  | "touch"    => some (change "touch" "cannot touch" touch (operands args) st)
  | "mkdir"    => some (makeDirectoryTool args st)
  | "rmdir"    => some (removeDirectoryTool args st)
  | "rm"       => some (removeTool args st)
  | "ls"       => some (listEntries args st)
  | "printenv" => some (printVariables args st)
  | "yes"      => some (yes args st)
  | "tee"      => some (tee args st)
  | "expr"     => some (expression args st)
  | _          => none

def toolNames : List String :=
  ["dash", "echo", "printf", "true", "false", "test", "[", "sleep", "pwd", "cat", "wc", "tr", "head", "tail", "seq",
   "sort", "basename", "dirname", "touch", "mkdir", "rmdir", "rm", "ls", "env", "printenv", "yes", "tee", "expr", "which"]

end Recheck.Shell
