/-!
# TOML values and documents

The values of a TOML document, and the rules by which its tables grow.  A table is opened by a header, implied by the
path of one, or made by a dotted key; a table or an array written as a literal is closed for good.  Which of these it
is decides whether a later line may add to it.
-/
namespace Recheck.Toml

inductive Origin where
  /-- Written out as a value. -/
  | literal
  /-- Opened by a header of its own. -/
  | header
  /-- On the way to a table that has a header. -/
  | implied
  /-- On the way of a dotted key. -/
  | dotted
  deriving DecidableEq, Repr

inductive Value where
  | string (s : String)
  | integer (i : Int)
  /-- A number with a fraction or an exponent, infinity or not a number, as written. -/
  | float (text : String)
  | boolean (b : Bool)
  /-- A date, a time or both, as written. -/
  | datetime (text : String)
  | array (origin : Origin) (items : List Value)
  | table (origin : Origin) (entries : List (String × Value))

/-- The entries of a table, in the order they were added. -/
abbrev Entries := List (String × Value)

namespace Entries

/-- The entries with the value of a key that is already there replaced. -/
def replace (es : Entries) (key : String) (v : Value) : Entries :=
  es.map fun e => if e.1 = key then (key, v) else e

/-- The entries with `change` made to the table at the end of a path.  Missing tables on the way are made with the origin
`made`; an array of tables stands for its last element.  A dotted key may not pass through a table that has a header,
and nothing passes through a literal. -/
def descend (made : Origin) (change : Origin → Entries → Option Entries) : List String → Origin → Entries → Option Entries
  | [], origin, es   => change origin es
  | key :: path, _, es =>
    match es.lookup key with
    | none =>
      match descend made change path made [] with
      | some sub => some (es ++ [(key, .table made sub)])
      | none     => none
    | some (.table .literal _) => none
    | some (.table origin sub) =>
      if made = .dotted ∧ origin = .header then none
      else match descend made change path origin sub with
        | some sub' => some (es.replace key (.table origin sub'))
        | none      => none
    | some (.array .header items) =>
      match items.reverse with
      | .table _ sub :: before =>
        match descend made change path .header sub with
        | some sub' => some (es.replace key (.array .header (before.reverse ++ [.table .header sub'])))
        | none      => none
      | _ => none
    | some _ => none

/-- The entries with one more, unless the key is taken. -/
def insertNew (es : Entries) (key : String) (v : Value) : Option Entries :=
  match es.lookup key with
  | none   => some (es ++ [(key, v)])
  | some _ => none

/-- Adds the value of a dotted key.  With a path before its last part it must end in a table made by dotted keys. -/
def insertAt (es : Entries) (path : List String) (key : String) (v : Value) : Option Entries :=
  descend .dotted (fun origin es => if (origin = .dotted) ↔ (path = []) then none else es.insertNew key v)
    path .header es

def openTable (es : Entries) (path : List String) (key : String) : Option Entries :=
  descend .implied
    (fun _ es => match es.lookup key with
      | none                      => some (es ++ [(key, .table .header [])])
      | some (.table .implied sub) => some (es.replace key (.table .header sub))
      | some _                    => none)
    path .header es

def openElement (es : Entries) (path : List String) (key : String) : Option Entries :=
  descend .implied
    (fun _ es => match es.lookup key with
      | none                        => some (es ++ [(key, .array .header [.table .header []])])
      | some (.array .header items) => some (es.replace key (.array .header (items ++ [.table .header []])))
      | some _                      => none)
    path .header es

end Entries

/-- A document while it is read: all entries so far, and the path of the last header. -/
structure Document where
  entries : Entries
  header : List String

namespace Document

def empty : Document := ⟨[], []⟩

def addValue (d : Document) (path : List String) (key : String) (v : Value) : Option Document :=
  (Entries.descend .implied (fun _ es => es.insertAt path key v) d.header .header d.entries).map
    fun es => { d with entries := es }

def addTable (d : Document) (path : List String) (key : String) : Option Document :=
  (d.entries.openTable path key).map fun es => ⟨es, path ++ [key]⟩

def addElement (d : Document) (path : List String) (key : String) : Option Document :=
  (d.entries.openElement path key).map fun es => ⟨es, path ++ [key]⟩

end Document
end Recheck.Toml
