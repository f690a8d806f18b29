import Recheck.Calendar
import Recheck.Path
import Recheck.FileSystem.IoError
/-!
# The file system as a value

Files, directories and links by their addresses, the working directory, the time that is stamped on what is written
now, and a log of the files written.  An address is the list of names from the root down, with no links in between.
`node?_put_self` and `node?_put_of_ne` say what one write changes.
-/
namespace Recheck

abbrev Name := String

abbrev Address := List Name

inductive Node where
  | file (content : ByteArray) (modified : Timestamp) (executable : Bool)
  | directory
  | link (target : Path)

structure FileSystem where
  nodes : List (Address × Node)
  /-- Where relative paths start. -/
  workDir : Address
  /-- The time stamped on what is written now. -/
  clock : Timestamp
  /-- The files written, latest first. -/
  written : List Address

namespace FileSystem

/-- What an address holds; the root is always a directory. -/
def node? (fs : FileSystem) : Address → Option Node
  | []     => some .directory
  | n :: a => fs.nodes.lookup (n :: a)

/-- The file system with `node` at an address. -/
def put (fs : FileSystem) (a : Address) (node : Node) : FileSystem :=
  { fs with nodes := (a, node) :: fs.nodes.filter (·.1 != a) }

/-- The file system with nothing at an address nor below it. -/
def erase (fs : FileSystem) (a : Address) : FileSystem :=
  { fs with nodes := fs.nodes.filter (!a.isPrefixOf ·.1) }

/-- The entries of the directory at an address, in the order they are kept in. -/
def entries (fs : FileSystem) (a : Address) : List (Name × Node) :=
  fs.nodes.filterMap fun (b, node) =>
    match b.getLast? with
    | some name => if b.dropLast = a then some (name, node) else none
    | none      => none

def content? (fs : FileSystem) (a : Address) : Option ByteArray :=
  match fs.node? a with
  | some (.file content _ _) => some content
  | _                        => none

theorem node?_put_self (fs : FileSystem) {a : Address} (h : a ≠ []) (node : Node) :
    (fs.put a node).node? a = some node := by
  cases a with
  | nil => exact absurd rfl h
  | cons n a => simp [node?, put]

theorem lookup_filter_of_ne {a b : Address} (h : b ≠ a) :
    ∀ l : List (Address × Node), (l.filter (·.1 != a)).lookup b = l.lookup b
  | [] => rfl
  | (c, node) :: l => by
    by_cases hc : c = a
    · have hb : (b == c) = false := by simp [hc, h]
      simp [hc, List.lookup_cons, lookup_filter_of_ne h l, hc ▸ hb]
    · simp only [bne_iff_ne, ne_eq, hc, not_false_eq_true, List.filter_cons_of_pos, List.lookup_cons,
        lookup_filter_of_ne h l]

theorem node?_put_of_ne (fs : FileSystem) {a b : Address} (h : b ≠ a) (node : Node) :
    (fs.put a node).node? b = fs.node? b := by
  cases b with
  | nil => rfl
  | cons n b =>
    have : (n :: b == a) = false := by simp [h]
    simp only [node?, put, List.lookup_cons, this]
    exact lookup_filter_of_ne h fs.nodes

end FileSystem
end Recheck
