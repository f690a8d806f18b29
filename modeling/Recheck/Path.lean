import Recheck.Text.Split
/-!
# Paths

A path is a text cut into pieces by slashes.  Empty pieces and pieces `.` do not count, except for a slash or a `.` in
front, which say where the path starts.  What is computed from a path keeps its spelling: the parent of `a//b/c` is
`a//b`.
-/
namespace Recheck

/-- A path, as written. -/
structure Path where
  text : String
  deriving DecidableEq, Inhabited

namespace Path

instance : Coe String Path := ⟨fun s => ⟨s⟩⟩

/-- Where a path starts: at the root, at `.`, or unsaid. -/
inductive Head where
  | root
  | here
  | unsaid
  deriving DecidableEq

def segments (p : Path) : List (List Char) := splitOn '/' p.text.toList

def isAbsolute (p : Path) : Bool :=
  match p.text.toList with
  | '/' :: _ => true
  | _        => false

def head (p : Path) : Head :=
  match p.segments with
  | [] :: _ :: _ => .root
  | ['.'] :: _   => .here
  | _            => .unsaid

def body (p : Path) : List (List Char) :=
  match p.head with
  | .unsaid => p.segments
  | _       => p.segments.tail

def isStep (s : List Char) : Bool := s ≠ [] && s ≠ ['.']

def ofBody : Head → List (List Char) → Path
  | .root, b   => ⟨String.ofList ('/' :: joinWith ['/'] b)⟩
  | .here, []  => ⟨"."⟩
  | .here, b   => ⟨String.ofList ('.' :: '/' :: joinWith ['/'] b)⟩
  | .unsaid, b => ⟨String.ofList (joinWith ['/'] b)⟩

/-- The last piece that counts, and the pieces before it without those at their end that do not count. -/
def splitLast? (p : Path) : Option (List (List Char) × List Char) :=
  match p.body.reverse.dropWhile (!isStep ·) with
  | []             => none
  | last :: before => some ((before.dropWhile (!isStep ·)).reverse, last)

/-- The path without its last piece; the root and the empty path have none. -/
def parent? (p : Path) : Option Path :=
  match p.splitLast?, p.head with
  | some (before, _), h => some (ofBody h before)
  | none, .here         => some ⟨""⟩
  | none, _             => none

/-- The last piece, unless it leads upwards. -/
def fileName? (p : Path) : Option (List Char) :=
  p.splitLast?.bind fun (_, last) => if last = ['.', '.'] then none else some last

/-- A name cut at its last dot; a dot in front does not count. -/
def splitExtension (name : List Char) : List Char × Option (List Char) :=
  match name.reverse.dropWhile (· ≠ '.') with
  | []          => (name, none)
  | [_]         => (name, none)
  | _ :: before => (before.reverse, some (name.drop (before.length + 1)))

def stem? (p : Path) : Option (List Char) := p.fileName?.map fun n => (splitExtension n).1

def extension? (p : Path) : Option (List Char) := p.fileName?.bind fun n => (splitExtension n).2

/-- The file name ends in a dot and `ext`. -/
def hasExtension (p : Path) (ext : String) : Bool := p.extension? == some ext.toList

/-- `q` as seen from `p`. -/
def join (p q : Path) : Path :=
  if q.isAbsolute then q
  else if p.text.isEmpty || p.text.toList.getLast? == some '/' then ⟨p.text ++ q.text⟩
  else ⟨p.text ++ "/" ++ q.text⟩

/-- The directory of a path, `.` where it has no parent. -/
def directory (p : Path) : Path := p.parent?.getD ⟨"."⟩

end Path
end Recheck
