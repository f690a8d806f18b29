import Recheck.FileSystem.Basic
/-!
# Walking a path

From a path to an address: piece by piece, through links, upwards at `..`.  A walk ends at something or at a free place
in a directory, and fails where a piece is missing on the way, is not a directory, has too long a name, or where more
than forty links were passed.
-/
namespace Recheck

inductive Place where
  | occupied (address : Address) (node : Node)
  | vacant (directory : Address) (name : Name)

namespace FileSystem

/-- The bytes a name may have. -/
def nameLimit : Nat := 255

/-- The bytes a path must stay below. -/
def pathLimit : Nat := 4096

/-- The links that may be passed on one walk. -/
def linkLimit : Nat := 40

def names (p : Path) : List Name := p.segments.map String.ofList

/-- The walk from the directory at `base` over the pieces left.  The last piece is not followed if it is a link and
`follow` is not set; a slash after it makes it a directory that must be gone through. -/
def walk (fs : FileSystem) (follow : Bool) (links : Nat) (base : Address) : List Name → Except IoError Place
  | [] => .ok (.occupied base .directory)
  | name :: rest =>
    if name = "" ∨ name = "." then walk fs follow links base rest
    else if name = ".." then walk fs follow links base.dropLast rest
    else if nameLimit < name.utf8ByteSize then .error .nameTooLong
    else match fs.node? (base ++ [name]) with
      | none => if rest.all (· == "") then .ok (.vacant base name) else .error .notFound
      | some .directory => walk fs follow links (base ++ [name]) rest
      | some (.file content modified executable) =>
        if rest.isEmpty then .ok (.occupied (base ++ [name]) (.file content modified executable))
        else .error .notADirectory
      | some (.link target) =>
        if rest.isEmpty && !follow then .ok (.occupied (base ++ [name]) (.link target))
        else match links with
          | 0     => .error .tooManyLinks
          | n + 1 => walk fs follow n (if target.isAbsolute then [] else base) (names target ++ rest)
termination_by pieces => (links, pieces.length)

def locateFrom (fs : FileSystem) (follow : Bool) (p : Path) (pieces : List Name) : Except IoError Place :=
  if p.text.isEmpty then .error .notFound
  else if p.text.toList.contains '\x00' then .error .nulInPath
  else if pathLimit ≤ p.text.utf8ByteSize then .error .nameTooLong
  else fs.walk follow linkLimit (if p.isAbsolute then [] else fs.workDir) pieces

def locate (fs : FileSystem) (follow : Bool) (p : Path) : Except IoError Place := fs.locateFrom follow p (names p)

/-- What a path leads to, links followed. -/
def stat (fs : FileSystem) (p : Path) : Except IoError (Address × Node) :=
  match fs.locate true p with
  | .ok (.occupied a node) => .ok (a, node)
  | .ok (.vacant _ _)      => .error .notFound
  | .error e               => .error e

def pathOf (a : Address) : Path := ⟨"/" ++ joinTexts "/" a⟩

/-- The path from the root without links that a path leads to. -/
def canonical (fs : FileSystem) (p : Path) : Except IoError Path :=
  match fs.stat p with
  | .ok (a, _) => .ok (pathOf a)
  | .error e   => .error e

def isFile (fs : FileSystem) (p : Path) : Bool :=
  match fs.stat p with
  | .ok (_, .file ..) => true
  | _                 => false

def isDirectory (fs : FileSystem) (p : Path) : Bool :=
  match fs.stat p with
  | .ok (_, .directory) => true
  | _                   => false

def modified? (fs : FileSystem) (p : Path) : Option Timestamp :=
  match fs.stat p with
  | .ok (_, .file _ modified _) => some modified
  | _                           => none

end FileSystem
end Recheck
