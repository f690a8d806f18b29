import Recheck.Toml.Scalar
/-!
# Reading TOML documents

Values that hold values, and lines.  Depth is limited, and the amount of work by the length of the text: every step
takes at least one character or goes one level up or down.
-/
namespace Recheck.Toml

mutual

/-- A value; `depth` is how many levels it may still have. -/
def value : Nat → Nat → List Char → Read Value
  | 0, _, _ => none
  | work + 1, depth, cs =>
    match cs with
    | [] => none
    | '[' :: rest =>
      if depth = 0 then none
      else match skipTrivia false rest with
        | ']' :: rest' => some (.array .literal [], rest')
        | rest'        => (items work (depth - 1) rest').map fun (vs, r) => (.array .literal vs, r)
    | '\x7b' :: rest =>
      if depth = 0 then none
      else match skipBlanks rest with
        | '\x7d' :: rest' => some (.table .literal [], rest')
        | rest'           => (pairs work (depth - 1) [] rest').map fun (es, r) => (.table .literal es, r)
    | c :: _ =>
      if c == '"' || c == '\'' then (string cs).map fun (s, r) => (.string s, r)
      else if c == '+' || c == '-' || c.isDigit then number cs
      else word cs

/-- The values of an array up to its end, at least one. -/
def items : Nat → Nat → List Char → Read (List Value)
  | 0, _, _ => none
  | work + 1, depth, cs =>
    match value work depth (skipTrivia false cs) with
    | none => none
    | some (v, rest) =>
      match skipTrivia false rest with
      | ']' :: rest' => some ([v], rest')
      | ',' :: rest' =>
        match skipTrivia false rest' with
        | ']' :: rest'' => some ([v], rest'')
        | rest''        => (items work depth rest'').map fun (vs, r) => (v :: vs, r)
      | _ => none

/-- The keys and values of a table up to its end, at least one, after those in `es`. -/
def pairs : Nat → Nat → Entries → List Char → Read Entries
  | 0, _, _, _ => none
  | work + 1, depth, es, cs =>
    match dottedKey cs with
    | some ((path, key), '=' :: rest) =>
      match value work depth (skipBlanks rest) with
      | none => none
      | some (v, rest') =>
        match es.insertAt path key v, skipBlanks rest' with
        | some es', '\x7d' :: rest'' => some (es', rest'')
        | some es', ',' :: rest''    => pairs work depth es' rest''
        | _, _                       => none
    | _ => none

end

def workOf (cs : List Char) : Nat := 2 * cs.length + 4

def keyLine (d : Document) (cs : List Char) : Option (Document × List Char) :=
  match dottedKey cs with
  | some ((path, key), '=' :: rest) =>
    match value (workOf rest) depthLimit (skipBlanks rest) with
    | none            => none
    | some (v, rest') =>
      match finishLine? rest', d.addValue path key v with
      | some rest'', some d' => some (d', rest'')
      | _, _                 => none
  | _ => none

/-- A header, after its first bracket. -/
def headerLine (d : Document) (cs : List Char) : Option (Document × List Char) :=
  match cs with
  | '[' :: cs' =>
    match dottedKey cs' with
    | some ((path, key), ']' :: ']' :: rest) =>
      match finishLine? rest, d.addElement path key with
      | some rest', some d' => some (d', rest')
      | _, _                => none
    | _ => none
  | _ =>
    match dottedKey cs with
    | some ((path, key), ']' :: rest) =>
      match finishLine? rest, d.addTable path key with
      | some rest', some d' => some (d', rest')
      | _, _                => none
    | _ => none

/-- The document after at most `n` lines, which must be all. -/
def readLines : Nat → Document → List Char → Option Document
  | 0, _, _ => none
  | n + 1, d, cs =>
    match skipBlanks cs with
    | [] => some d
    | '#' :: rest =>
      match finishLine? ('#' :: rest) with
      | some rest' => readLines n d rest'
      | none       => none
    | '[' :: rest =>
      match headerLine d rest with
      | some (d', rest') => readLines n d' rest'
      | none             => none
    | rest =>
      match lineEnd? rest with
      | some rest' => readLines n d rest'
      | none       =>
        match keyLine d rest with
        | some (d', rest') => readLines n d' rest'
        | none             => none

/-- The entries of a document, nothing if it is malformed.  A byte order mark in front does not count. -/
def parse? (text : String) : Option Entries :=
  let cs := match text.toList with
    | '\ufeff' :: rest => rest
    | cs               => cs
  (readLines (cs.length + 1) Document.empty cs).map Document.entries

end Recheck.Toml
