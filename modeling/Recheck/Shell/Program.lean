import Recheck.Shell.Tools
/-!
# Programs

What a path is executed as: a tool of the system, or a script, which names its interpreter on its first line.  The machine
keeps its tools in one directory of executable files.
-/
namespace Recheck.Shell

/-- The first bytes of a program of the system; its name follows. -/
def programMark : String := "\x7fELF"

/-- The shell that `sh` is a link to. -/
def shellName : String := "dash"

/-- The path that programs are looked for along where none is set. -/
def defaultPath : String := "/usr/bin:/bin"

def toolDirectory : Address := ["usr", "bin"]

/-- The file system with the tools of the machine and the directories that every machine has. -/
def installTools (fs : FileSystem) : FileSystem :=
  let fs := [["usr"], toolDirectory, ["etc"], ["dev"], ["tmp"], ["var"]].foldl (fun fs a => fs.put a .directory) fs
  let fs := toolNames.foldl (fun fs name =>
    fs.put (toolDirectory ++ [name]) (.file (Utf8.encode (programMark ++ name)) 0 true)) fs
  (fs.put (toolDirectory ++ ["sh"]) (.link ⟨shellName⟩)).put ["bin"] (.link ⟨"usr/bin"⟩)

/-- The interpreter that the first line of a script names, and one argument for it. -/
def interpreter? (content : List Char) : Option (String × List String) :=
  match content with
  | '#' :: '!' :: rest =>
    let isSpace := fun c => c == ' ' || c == '\t'
    let line := dropWhileEnd isSpace ((rest.takeWhile (· != '\n')).dropWhile isSpace)
    let name := line.takeWhile (!isSpace ·)
    let argument := (line.drop name.length).dropWhile isSpace
    if name.isEmpty then none
    else some (String.ofList name, if argument.isEmpty then [] else [String.ofList argument])
  | _ => none

/-- The tool that executing a path comes to, and its arguments after those of its interpreters, of which there may be
`n`. -/
def resolveProgram (fs : FileSystem) : Nat → String → List String → Except IoError (String × List String)
  | 0, _, _ => .error .tooManyLinks
  | n + 1, path, args =>
    match fs.stat ⟨path⟩ with
    | .error e => .error e
    | .ok (_, .file content _ true) =>
      let text := Utf8.decodeLossy content
      if programMark.toList.isPrefixOf text.toList then .ok (String.ofList (text.toList.drop programMark.length), args)
      else match interpreter? text.toList with
        | some (name, own) => resolveProgram fs n name (own ++ path :: args)
        | none             => .error .notAProgram
    | .ok _ => .error .permissionDenied

/-- The interpreters that may call one another. -/
def interpreterLimit : Nat := 6

/-- The tool that a program name comes to, looked up along a search path unless it has a slash.  The search goes on after
places where nothing is, and after those that cannot be executed, which it remembers; any other failure ends it. -/
def findProgram (fs : FileSystem) (searchPath : String) (name : String) (args : List String) :
    Except IoError (String × String × List String) :=
  let attempt := fun (path : String) => (resolveProgram fs interpreterLimit path args).map fun r => (path, r)
  if name.isEmpty then .error .notFound
  else if name.toList.contains '/' then attempt name
  else
    let candidates := (splitOn ':' searchPath.toList).map fun d =>
      if d.isEmpty then name else (String.ofList d) ++ "/" ++ name
    candidates.foldl (fun (found : Except IoError (String × String × List String)) path =>
      match found with
      | .error .notFound         => match attempt path with
        | .error .notADirectory => .error .notFound
        | r                     => r
      | .error .permissionDenied => match attempt path with
        | .error .notADirectory => .error .permissionDenied
        | .error .notFound      => .error .permissionDenied
        | r                     => r
      | _                        => found) (.error .notFound)

end Recheck.Shell
