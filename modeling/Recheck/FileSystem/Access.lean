import Recheck.FileSystem.Walk
import Recheck.Text.Blank
import Recheck.Text.Utf8
/-!
# Reading, writing and changing files

What a program does to the file system through paths.  Reading never changes it.  A write changes the one file that the
path leads to, stamps it with the clock and enters it in the log.
-/
namespace Recheck.FileSystem

def read (fs : FileSystem) (p : Path) : Except IoError ByteArray :=
  match fs.stat p with
  | .ok (_, .file content _ _) => .ok content
  | .ok _                      => .error .isADirectory
  | .error e                   => .error e

/-- The text of the file that a path leads to, which must be valid UTF-8. -/
def readText (fs : FileSystem) (p : Path) : Except IoError String :=
  match fs.read p with
  | .ok content =>
    match Utf8.decode? content with
    | some s => .ok s
    | none   => .error .notText
  | .error e => .error e

/-- The entries of the directory that a path leads to, in the order they are kept in. -/
def list (fs : FileSystem) (p : Path) : Except IoError (List (Name × Node)) :=
  match fs.stat p with
  | .ok (a, .directory) => .ok (fs.entries a)
  | .ok _               => .error .notADirectory
  | .error e            => .error e

def endsInSlash (p : Path) : Bool := p.text.toList.getLast? == some '/'

/-- Where a path for writing leads.  With a slash at its end it can only be a directory. -/
def locateForWriting (fs : FileSystem) (p : Path) : Except IoError Place :=
  if endsInSlash p then
    match fs.locateFrom true p (dropWhileEnd (· == "") (names p)).dropLast with
    | .ok (.occupied _ .directory) => .error .isADirectory
    | .ok (.occupied _ _)          => .error .notADirectory
    | .ok (.vacant _ _)            => .error .notFound
    | .error e                     => .error e
  else fs.locate true p

def store (fs : FileSystem) (a : Address) (content : ByteArray) (executable : Bool) : FileSystem :=
  { fs.put a (.file content fs.clock executable) with written := a :: fs.written }

/-- The file system with the whole content of a file replaced, or the file created. -/
def write (fs : FileSystem) (p : Path) (content : ByteArray) : Except IoError FileSystem :=
  match fs.locateForWriting p with
  | .ok (.occupied a (.file _ _ executable)) => .ok (fs.store a content executable)
  | .ok (.occupied _ _)                      => .error .isADirectory
  | .ok (.vacant directory name)             => .ok (fs.store (directory ++ [name]) content false)
  | .error e                                 => .error e

/-- Where the place of a new entry is: the pieces without the slashes at their end, the last one not followed. -/
def locateEntry (fs : FileSystem) (p : Path) : Except IoError Place :=
  fs.locateFrom false p (dropWhileEnd (· == "") (names p))

def makeDirectory (fs : FileSystem) (p : Path) : Except IoError FileSystem :=
  match fs.locateEntry p with
  | .ok (.vacant directory name) => .ok (fs.put (directory ++ [name]) .directory)
  | .ok (.occupied _ _)          => .error .alreadyExists
  | .error e                     => .error e

/-- A directory and those above it that are missing, going up at most `levels` times.  What was made before a failure
stays. -/
def makeDirectoriesWithin : Nat → FileSystem → Path → Except IoError Unit × FileSystem
  | 0, fs, _ => (.error .treeNotCreated, fs)
  | levels + 1, fs, p =>
    if p.text.isEmpty then (.ok (), fs)
    else match fs.makeDirectory p with
      | .ok fs'          => (.ok (), fs')
      | .error .notFound =>
        match p.parent? with
        | none   => (.error .treeNotCreated, fs)
        | some q =>
          match makeDirectoriesWithin levels fs q with
          | (.error e, fs') => (.error e, fs')
          | (.ok _, fs')    =>
            match fs'.makeDirectory p with
            | .ok fs'' => (.ok (), fs'')
            | .error e => if fs'.isDirectory p then (.ok (), fs') else (.error e, fs')
      | .error e => if fs.isDirectory p then (.ok (), fs) else (.error e, fs)

/-- A directory and those above it that are missing.  A path has fewer ancestors than characters. -/
def makeDirectories (fs : FileSystem) (p : Path) : Except IoError Unit × FileSystem :=
  makeDirectoriesWithin (p.text.length + 1) fs p

def makeLink (fs : FileSystem) (p target : Path) : Except IoError FileSystem :=
  if target.text.isEmpty then .error .notFound
  else if target.text.toList.contains '\x00' then .error .nulInPath
  else if pathLimit ≤ target.text.utf8ByteSize then .error .nameTooLong
  else match fs.locateEntry p with
    | .ok (.vacant directory name) =>
      if endsInSlash p then .error .notFound else .ok (fs.put (directory ++ [name]) (.link target))
    | .ok (.occupied _ _) => .error .alreadyExists
    | .error e            => .error e

/-- The file system without what is at a path, and all below it.  A link itself is removed, not what it leads to. -/
def remove (fs : FileSystem) (p : Path) : Except IoError FileSystem :=
  match fs.locate false p with
  | .ok (.occupied a _) => .ok (fs.erase a)
  | .ok (.vacant _ _)   => .error .notFound
  | .error e            => .error e

/-- The file system with the last writing of a file set to a given time. -/
def setModified (fs : FileSystem) (p : Path) (modified : Timestamp) : Except IoError FileSystem :=
  match fs.stat p with
  | .ok (a, .file content _ executable) => .ok (fs.put a (.file content modified executable))
  | .ok _                               => .ok fs
  | .error e                            => .error e

def setExecutable (fs : FileSystem) (p : Path) : Except IoError FileSystem :=
  match fs.stat p with
  | .ok (a, .file content modified _) => .ok (fs.put a (.file content modified true))
  | .ok _                             => .ok fs
  | .error e                          => .error e

end Recheck.FileSystem
