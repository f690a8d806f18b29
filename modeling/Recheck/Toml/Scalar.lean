import Recheck.Text.Split
import Recheck.Toml.Value
/-!
# TOML keys and scalars

Readers for the parts of a line: blanks and comments, the four kinds of strings, keys, numbers, dates and times.  Each
takes the text that is left and gives what it read with the text after it, or nothing where the text has another form.
-/
namespace Recheck.Toml

/-- What was read, and the text after it. -/
abbrev Read (α : Type) := Option (α × List Char)

/-! ## Blanks, comments and line ends -/

def isTomlBlank (c : Char) : Bool := c == ' ' || c == '\t'

def skipBlanks (cs : List Char) : List Char := cs.dropWhile isTomlBlank

/-- Every character but the controls; the tab is not one of them. -/
def isTextChar (c : Char) : Bool := c == '\t' || (0x20 ≤ c.toNat && c.toNat != 0x7f)

def lineEnd? : List Char → Option (List Char)
  | '\n' :: cs         => some cs
  | '\r' :: '\n' :: cs => some cs
  | _                  => none

def skipComment : List Char → List Char
  | '#' :: cs => cs.dropWhile isTextChar
  | cs        => cs

/-- The text after blanks, an optional comment, and the end of the line or of the text. -/
def finishLine? (cs : List Char) : Option (List Char) :=
  match skipComment (skipBlanks cs) with
  | []   => some []
  | rest => lineEnd? rest

/-- The text after blanks, comments and line ends; the flag is set inside a comment. -/
def skipTrivia : Bool → List Char → List Char
  | _, []                    => []
  | _, '\n' :: cs            => skipTrivia false cs
  | _, '\r' :: '\n' :: cs    => skipTrivia false cs
  | inComment, c :: cs       =>
    if inComment && isTextChar c then skipTrivia true cs
    else if !inComment && isTomlBlank c then skipTrivia false cs
    else if !inComment && c == '#' then skipTrivia true cs
    else c :: cs

/-! ## Strings -/

def hexValue? (cs : List Char) : Option Nat :=
  cs.foldl (fun acc c => acc.bind fun n =>
    if c.isDigit then some (n * 16 + (c.toNat - 48))
    else if 'a' ≤ c ∧ c ≤ 'f' then some (n * 16 + (c.toNat - 87))
    else if 'A' ≤ c ∧ c ≤ 'F' then some (n * 16 + (c.toNat - 55))
    else none) (some 0)

/-- The character with a number, which is no surrogate. -/
def scalar? (n : Nat) : Option Char := if n.isValidChar then some (Char.ofNat n) else none

def numbered? (cs : List Char) : Option Char := (hexValue? cs).bind scalar?

def shortEscape? : Char → Option Char
  | 'b'  => some '\x08'
  | 't'  => some '\t'
  | 'n'  => some '\n'
  | 'f'  => some '\x0c'
  | 'r'  => some '\r'
  | '"'  => some '"'
  | '\\' => some '\\'
  | _    => none

def prepend (c : Char) : Read (List Char) → Read (List Char)
  | some (s, rest) => some (c :: s, rest)
  | none           => none

def basicString : List Char → Read (List Char)
  | [] => none
  | '"' :: cs => some ([], cs)
  | '\\' :: 'u' :: a :: b :: c :: d :: cs =>
    (numbered? [a, b, c, d]).bind fun x => prepend x (basicString cs)
  | '\\' :: 'U' :: a :: b :: c :: d :: e :: f :: g :: h :: cs =>
    (numbered? [a, b, c, d, e, f, g, h]).bind fun x => prepend x (basicString cs)
  | '\\' :: c :: cs => (shortEscape? c).bind fun x => prepend x (basicString cs)
  | c :: cs => if isTextChar c then prepend c (basicString cs) else none

def literalString : List Char → Read (List Char)
  | [] => none
  | '\'' :: cs => some ([], cs)
  | c :: cs => if isTextChar c then prepend c (literalString cs) else none

/-- After a reverse solidus: nothing but blanks to the end of the line. -/
def joinsLines (cs : List Char) : Bool := (lineEnd? (skipBlanks cs)).isSome

/-- What quotes close a string of many lines: three of them, and up to two more that still belong to it. -/
def closingRun? (quote : Char) : List Char → Option (List Char × List Char)
  | a :: b :: c :: rest =>
    if a = quote ∧ b = quote ∧ c = quote then
      match rest with
      | d :: e :: rest' =>
        if d = quote ∧ e = quote then some ([quote, quote], rest')
        else if d = quote then some ([quote], e :: rest')
        else some ([], rest)
      | [d] => if d = quote then some ([quote], []) else some ([], rest)
      | []  => some ([], [])
    else none
  | _ => none

/-- The rest of a string in three quotation marks; the flag is set after a reverse solidus at the end of a line, while
blanks and line ends do not count. -/
def basicText : Bool → List Char → Read (List Char)
  | _, [] => none
  | trim, '\n' :: cs => if trim then basicText true cs else prepend '\n' (basicText false cs)
  | trim, '\r' :: '\n' :: cs => if trim then basicText true cs else prepend '\n' (basicText false cs)
  | _, '\\' :: 'u' :: a :: b :: c :: d :: cs =>
    (numbered? [a, b, c, d]).bind fun x => prepend x (basicText false cs)
  | _, '\\' :: 'U' :: a :: b :: c :: d :: e :: f :: g :: h :: cs =>
    (numbered? [a, b, c, d, e, f, g, h]).bind fun x => prepend x (basicText false cs)
  | _, '\\' :: c :: cs =>
    if joinsLines (c :: cs) then basicText true (c :: cs)
    else (shortEscape? c).bind fun x => prepend x (basicText false cs)
  | trim, c :: cs =>
    if trim && isTomlBlank c then basicText true cs
    else match closingRun? '"' (c :: cs) with
      | some r => some r
      | none   => if isTextChar c && c != '\\' then prepend c (basicText false cs) else none

def literalText : List Char → Read (List Char)
  | [] => none
  | '\n' :: cs => prepend '\n' (literalText cs)
  | '\r' :: '\n' :: cs => prepend '\n' (literalText cs)
  | c :: cs =>
    match closingRun? '\'' (c :: cs) with
    | some r => some r
    | none   => if isTextChar c then prepend c (literalText cs) else none

/-- The text without a line end in front. -/
def skipLineEnd (cs : List Char) : List Char := (lineEnd? cs).getD cs

def string : List Char → Read String
  | '"' :: '"' :: '"' :: cs    => (basicText false (skipLineEnd cs)).map fun (s, rest) => (String.ofList s, rest)
  | '"' :: cs                  => (basicString cs).map fun (s, rest) => (String.ofList s, rest)
  | '\'' :: '\'' :: '\'' :: cs => (literalText (skipLineEnd cs)).map fun (s, rest) => (String.ofList s, rest)
  | '\'' :: cs                 => (literalString cs).map fun (s, rest) => (String.ofList s, rest)
  | _                          => none

/-! ## Keys -/

def isBareKeyChar (c : Char) : Bool := c.isAlphanum || c == '_' || c == '-'

def simpleKey : List Char → Read String
  | '"' :: cs  => (basicString cs).map fun (s, rest) => (String.ofList s, rest)
  | '\'' :: cs => (literalString cs).map fun (s, rest) => (String.ofList s, rest)
  | cs         =>
    let bare := cs.takeWhile isBareKeyChar
    if bare.isEmpty then none else some (String.ofList bare, cs.dropWhile isBareKeyChar)

/-- The parts of a key, of which there may be at most `n`, with blanks around them. -/
def keyParts : Nat → List Char → Read (List String)
  | 0, _      => none
  | n + 1, cs =>
    match simpleKey (skipBlanks cs) with
    | none          => none
    | some (k, cs') =>
      match skipBlanks cs' with
      | '.' :: rest =>
        match keyParts n rest with
        | some (ks, rest') => some (k :: ks, rest')
        | none             => none
      | rest => some ([k], rest)

/-- How deep arrays, tables and keys may go. -/
def depthLimit : Nat := 79

/-- A key as the parts before the last, and the last. -/
def dottedKey (cs : List Char) : Read (List String × String) :=
  match keyParts depthLimit cs with
  | some (ks, rest) => ks.getLast?.map fun k => ((ks.dropLast, k), rest)
  | none            => none

/-! ## Numbers -/

/-- Digits of a class, with single underscores between them; at least one. -/
def digitsWith (isDigit : Char → Bool) : List Char → Read (List Char)
  | [] => none
  | c :: cs =>
    if !isDigit c then none
    else match cs with
      | '_' :: rest => prepend c (digitsWith isDigit rest)
      | d :: rest   => if isDigit d then prepend c (digitsWith isDigit (d :: rest)) else some ([c], d :: rest)
      | []          => some ([c], [])

def valueOf (base : Nat) (ds : List Char) : Nat :=
  ds.foldl (fun n c => n * base + (hexValue? [c]).getD 0) 0

/-- A sign, and the text after it. -/
def sign : List Char → Bool × List Char
  | '-' :: cs => (true, cs)
  | '+' :: cs => (false, cs)
  | cs        => (false, cs)

/-- Decimal digits without a zero in front. -/
def decimalDigits (cs : List Char) : Read (List Char) :=
  match cs with
  | '0' :: rest => some (['0'], rest)
  | _           => digitsWith Char.isDigit cs

def inRange (i : Int) : Bool := -0x8000000000000000 ≤ i && i < 0x8000000000000000

def integerOf (i : Int) (rest : List Char) : Read Value := if inRange i then some (.integer i, rest) else none

def isHexDigit (c : Char) : Bool := c.isDigit || ('a' ≤ c && c ≤ 'f') || ('A' ≤ c && c ≤ 'F')

/-- A whole number, in decimal with a sign or in a base with a mark. -/
def integer : List Char → Read Value
  | '0' :: 'x' :: cs => (digitsWith isHexDigit cs).bind fun (ds, rest) => integerOf (valueOf 16 ds) rest
  | '0' :: 'o' :: cs =>
    (digitsWith (fun c => '0' ≤ c && c ≤ '7') cs).bind fun (ds, rest) => integerOf (valueOf 8 ds) rest
  | '0' :: 'b' :: cs =>
    (digitsWith (fun c => c == '0' || c == '1') cs).bind fun (ds, rest) => integerOf (valueOf 2 ds) rest
  | cs =>
    let (negative, cs') := sign cs
    (decimalDigits cs').bind fun (ds, rest) =>
      integerOf (if negative then -(valueOf 10 ds : Int) else valueOf 10 ds) rest

def exponent : List Char → Read Int
  | c :: cs =>
    if c == 'e' || c == 'E' then
      let (negative, cs') := sign cs
      (digitsWith Char.isDigit cs').map fun (ds, rest) =>
        (if negative then -(valueOf 10 ds : Int) else valueOf 10 ds, rest)
    else none
  | [] => none

/-- A positive number of digits and a power of ten that is no longer below the largest number of 64 bits.  Beyond 400
digits the power alone decides. -/
def overflows (ds : List Char) (power : Int) : Bool :=
  let mantissa := valueOf 10 ds
  let magnitude := (Nat.repr mantissa).length + power
  if mantissa = 0 then false
  else if magnitude < 300 then false
  else if 400 < magnitude then true
  else
    let limit := 1 <<< 1024 - 1 <<< 970
    if 0 ≤ power then limit ≤ mantissa * Nat.pow 10 power.toNat else limit * Nat.pow 10 (-power).toNat ≤ mantissa

/-- The text read so far, given what is left. -/
def textUpTo (cs rest : List Char) : String := String.ofList (cs.take (cs.length - rest.length))

/-- A number with a fraction, an exponent or both. -/
def plainFloat (cs : List Char) : Read Value :=
  let (negative, cs') := sign cs
  match decimalDigits cs' with
  | none            => none
  | some (ds, rest) =>
    let finish := fun (digits : List Char) (power : Int) (rest : List Char) =>
      if !negative && overflows digits power then none else some (.float (textUpTo cs rest), rest)
    match rest with
    | '.' :: rest =>
      match digitsWith Char.isDigit rest with
      | none             => none
      | some (fs, rest') =>
        match exponent rest' with
        | some (e, rest'') => finish (ds ++ fs) (e - fs.length) rest''
        | none             => finish (ds ++ fs) (-fs.length) rest'
    | rest =>
      match exponent rest with
      | some (e, rest') => finish ds e rest'
      | none            => none

/-- Infinity or not a number, with or without a sign. -/
def specialFloat (cs : List Char) : Read Value :=
  match (sign cs).2 with
  | 'i' :: 'n' :: 'f' :: rest => some (.float (textUpTo cs rest), rest)
  | 'n' :: 'a' :: 'n' :: rest => some (.float (textUpTo cs rest), rest)
  | _                         => none

/-! ## Dates and times -/

def twoDigits (low high : Nat) : List Char → Read Nat
  | a :: b :: cs =>
    if a.isDigit && b.isDigit then
      let n := valueOf 10 [a, b]
      if low ≤ n ∧ n ≤ high then some (n, cs) else none
    else none
  | _ => none

def daysOfMonth (year month : Nat) : Nat :=
  if month = 2 then (if year % 4 = 0 ∧ (year % 100 ≠ 0 ∨ year % 400 = 0) then 29 else 28)
  else if month = 4 ∨ month = 6 ∨ month = 9 ∨ month = 11 then 30
  else 31

def date? : List Char → Option (List Char)
  | a :: b :: c :: d :: '-' :: cs =>
    if [a, b, c, d].all Char.isDigit then
      match twoDigits 1 12 cs with
      | some (month, '-' :: cs') =>
        match twoDigits 1 (daysOfMonth (valueOf 10 [a, b, c, d]) month) cs' with
        | some (_, rest) => some rest
        | none           => none
      | _ => none
    else none
  | _ => none

/-- The text after a fraction of a second, if there is one. -/
def skipFraction : List Char → List Char
  | '.' :: c :: cs => if c.isDigit then cs.dropWhile Char.isDigit else '.' :: c :: cs
  | cs             => cs

def time? (cs : List Char) : Option (List Char) :=
  match twoDigits 0 23 cs with
  | some (_, ':' :: cs1) =>
    match twoDigits 0 59 cs1 with
    | some (_, ':' :: cs2) =>
      match twoDigits 0 60 cs2 with
      | some (_, rest) => some (skipFraction rest)
      | none           => none
    | _ => none
  | _ => none

/-- The text after an offset, if there is one. -/
def skipOffset (cs : List Char) : List Char :=
  match cs with
  | 'Z' :: rest => rest
  | 'z' :: rest => rest
  | c :: rest =>
    if c == '+' || c == '-' then
      match twoDigits 0 23 rest with
      | some (_, ':' :: rest') =>
        match twoDigits 0 59 rest' with
        | some (_, rest'') => rest''
        | none             => cs
      | _ => cs
    else cs
  | [] => []

/-- A date, a time, or a date with a time and perhaps an offset. -/
def datetime (cs : List Char) : Read Value :=
  match date? cs with
  | some rest =>
    let rest' := match rest with
      | c :: after =>
        if c == 'T' || c == 't' || c == ' ' then ((time? after).map skipOffset).getD rest else rest
      | [] => rest
    some (.datetime (textUpTo cs rest'), rest')
  | none => (time? cs).map fun rest => (.datetime (textUpTo cs rest), rest)

/-- A number, a date or a time. -/
def number (cs : List Char) : Read Value :=
  (datetime cs).orElse fun _ => (plainFloat cs).orElse fun _ => (specialFloat cs).orElse fun _ => integer cs

def word : List Char → Read Value
  | 't' :: 'r' :: 'u' :: 'e' :: rest        => some (.boolean true, rest)
  | 'f' :: 'a' :: 'l' :: 's' :: 'e' :: rest => some (.boolean false, rest)
  | cs                                      => specialFloat cs

end Recheck.Toml
