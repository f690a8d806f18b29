import Recheck.CommandLine.Program
/-!
# The command line

Runs the program on the machine's files.  Those that a run may look at are read beforehand, and those that it wrote are
written back afterwards; programs are the scripts among them.
-/
namespace Recheck.CommandLine

def depthOfTree : Nat := 64

/-- The settings whose values name files or directories that a run looks at. -/
def namesPlace (setting : String) : Bool :=
  ["PROJECT_FILE_PATH", "TARGET_TEMP_DIR", "DEVELOPER_DIR", analyzerVariable, resourceDirVariable].contains setting ||
  (XcodeTarget.objectsSetting "").toList.isPrefixOf setting.toList

/-- The absolute paths that arguments and settings name; of a project it is the directory that counts. -/
def placesOf (args : List String) (env : Execution.Environment) : List Path :=
  let named := env.filterMap fun (name, value) =>
    if name == "PROJECT_FILE_PATH" then some (Path.mk value).directory
    else if namesPlace name then some ⟨value⟩
    else none
  (args.map Path.mk ++ named).filter Path.isAbsolute

/-- The file system with what is in a directory under a name, and all below it. -/
def loadEntry : Nat → FileSystem → Address → Name → IO FileSystem
  | 0, fs, _, _ => return fs
  | depth + 1, fs, directory, name => do
    let entry : IO.FS.DirEntry := ⟨⟨(FileSystem.pathOf directory).text⟩, name⟩
    let a := directory ++ [name]
    try
      let about ← entry.path.symlinkMetadata
      match about.type with
      | .dir     => (← entry.path.readDir).foldlM (fun fs e => loadEntry depth fs a e.fileName) (fs.put a .directory)
      | .file    =>
        let content ← IO.FS.readBinFile entry.path
        let modified := Timestamp.ofSeconds about.modified.sec about.modified.nsec.toNat
        return fs.put a (.file content modified (content.data.toList.take 2 == [35, 33]))
      | .symlink => return fs.put a (.link ⟨(← IO.FS.realPath entry.path).toString⟩)
      | .other   => return fs
    catch _ => return fs

/-- The file system with what is at an address, the directories above it, and all below it. -/
def loadTree (fs : FileSystem) (a : Address) : IO FileSystem :=
  match a.getLast? with
  | none      => return fs
  | some name =>
    let above := (List.range a.length).map a.take
    loadEntry depthOfTree (above.foldl (fun fs a => if (fs.node? a).isSome then fs else fs.put a .directory) fs)
      a.dropLast name

def environment : IO Execution.Environment := do
  let content ← IO.FS.readBinFile "/proc/self/environ"
  let entries := splitOn '\x00' (Utf8.decodeLossy content).toList
  return entries.filterMap fun e =>
    match e.dropWhile (· != '=') with
    | _ :: value => some (String.ofList (e.takeWhile (· != '=')), String.ofList value)
    | []         => none

def spelled (p : Path) : Address := (FileSystem.names p).filter fun n => n != "" && n != "."

/-- The address of a directory or file, with links followed. -/
def addressOf (p : Path) : IO Address := do
  let real ← IO.FS.realPath ⟨p.text⟩
  return spelled ⟨real.toString⟩

/-- Where a path leads, and where its spelling says. -/
def addressesOf (p : Path) : IO (List Address) :=
  try return [← addressOf p, spelled p]
  catch _ => return []

/-- The machine's files that a run may look at. -/
def machine (args : List String) (env : Execution.Environment) : IO FileSystem := do
  let workDir ← addressOf ⟨(← IO.currentDir).toString⟩
  let started ← (⟨⟨"/proc"⟩, "self"⟩ : IO.FS.DirEntry).path.symlinkMetadata
  let now := Timestamp.ofSeconds started.modified.sec started.modified.nsec.toNat
  let tools := Shell.installTools ⟨[], workDir, now, []⟩
  let places ← (placesOf args env).mapM addressesOf
  (workDir :: places.flatten).foldlM loadTree { tools with written := [] }

def saveWritten (fs : FileSystem) : IO Unit :=
  fs.written.eraseDups.forM fun a =>
    match fs.content? a with
    | none         => return
    | some content => do
      IO.FS.createDirAll ⟨(FileSystem.pathOf a.dropLast).text⟩
      IO.FS.writeBinFile ⟨(FileSystem.pathOf a).text⟩ content

end Recheck.CommandLine

/-- Runs the program with its arguments, and ends with its code. -/
def main (args : List String) : IO UInt32 := do
  let env ← Recheck.CommandLine.environment
  let files ← Recheck.CommandLine.machine args env
  let ended := Recheck.CommandLine.run files (Recheck.BuildEnv.ofList env).pairs args
  Recheck.CommandLine.saveWritten ended.fs
  (← IO.getStdout).putStr ended.stdout
  (← IO.getStderr).putStr ended.stderr
  return UInt32.ofNat ended.code
