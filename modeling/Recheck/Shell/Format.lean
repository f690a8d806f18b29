import Recheck.Shell.Expand
/-!
# Escapes and formats

The escapes of `echo` and the formats of `printf`, down to bytes: an octal escape is one byte, whatever it may be part of.
-/
namespace Recheck.Shell

def octal (ds : List Char) : Nat := ds.foldl (fun n c => n * 8 + (c.toNat - 48)) 0

def isOctal (c : Char) : Bool := '0' ≤ c && c ≤ '7'

def letterEscape? : Char → Option UInt8
  | 'a'  => some 7
  | 'b'  => some 8
  | 'f'  => some 12
  | 'n'  => some 10
  | 'r'  => some 13
  | 't'  => some 9
  | 'v'  => some 11
  | '\\' => some 92
  | _    => none

/-- At most `n` octal digits. -/
def octalDigits (n : Nat) (cs : List Char) : List Char := (cs.take n).takeWhile isOctal

/-- The bytes of a text with its escapes carried out, and whether it was cut off by `\c`.  With `zeroFirst` octal digits
come after a zero, which does not count as one of them. -/
def unescape (zeroFirst : Bool) : Nat → List Char → List UInt8 × Bool
  | 0, _ => ([], false)
  | _, [] => ([], false)
  | n + 1, '\\' :: c :: cs =>
    let after := fun (bytes : List UInt8) (rest : List Char) =>
      let (more, cut) := unescape zeroFirst n rest
      (bytes ++ more, cut)
    if c = 'c' ∧ zeroFirst then ([], true)
    else match letterEscape? c with
      | some b => after [b] cs
      | none   =>
        if isOctal c then
          let ds := if c = '0' ∧ zeroFirst then octalDigits 3 cs else octalDigits 3 (c :: cs)
          let used := if c = '0' ∧ zeroFirst then ds.length else ds.length - 1
          after [UInt8.ofNat (octal ds)] (cs.drop used)
        else after (92 :: State.bytesOf (String.ofList [c])) cs
  | n + 1, c :: cs =>
    let (more, cut) := unescape zeroFirst n cs
    (State.bytesOf (String.ofList [c]) ++ more, cut)

/-- A directive of a format: flags, width, precision and kind. -/
structure Directive where
  left : Bool
  zero : Bool
  plus : Bool
  width : Nat
  precision : Option Nat
  kind : Char

def leadingNumber (cs : List Char) : Nat × List Char :=
  let ds := cs.takeWhile Char.isDigit
  ((String.ofList ds).toNat?.getD 0, cs.drop ds.length)

def directive? (cs : List Char) : Option (Directive × List Char) :=
  let flags := cs.takeWhile fun c => c == '-' || c == '0' || c == '+' || c == ' ' || c == '#'
  let (width, rest) := leadingNumber (cs.drop flags.length)
  let (precision, rest) : Option Nat × List Char := match rest with
    | '.' :: r => let (p, r) := leadingNumber r; (some p, r)
    | r        => (none, r)
  match rest with
  | k :: rest => some (⟨flags.contains '-', flags.contains '0', flags.contains '+', width, precision, k⟩, rest)
  | []        => none

def Directive.fill (d : Directive) (bytes : List UInt8) : List UInt8 :=
  let gap := List.replicate (d.width - bytes.length) (32 : UInt8)
  if d.left then bytes ++ gap else gap ++ bytes

/-- An integer in a base, with zeros up to the width or the precision. -/
def Directive.integer (d : Directive) (base : Nat) (upper : Bool) (i : Int) : List UInt8 :=
  let digits := (Nat.toDigits base i.natAbs).map fun c => if upper then c.toUpper else c
  let sign := if i < 0 then ['-'] else if d.plus then ['+'] else []
  let wanted := match d.precision with
    | some p => p
    | none   => if d.zero ∧ !d.left then d.width - sign.length else 0
  d.fill (State.bytesOf (String.ofList (sign ++ List.replicate (wanted - digits.length) '0' ++ digits)))

/-- One pass over a format: the bytes, the arguments left, and whether the output was cut off. -/
def formatOnce : Nat → List Char → List String → List UInt8 × List String × Bool
  | 0, _, args => ([], args, true)
  | _, [], args => ([], args, false)
  | n + 1, '%' :: '%' :: cs, args =>
    let (more, rest, cut) := formatOnce n cs args
    (37 :: more, rest, cut)
  | n + 1, '%' :: cs, args =>
    match directive? cs with
    | none              => ([37], args, false)
    | some (d, cs) =>
      let arg := args.headD ""
      let (bytes, stop) : List UInt8 × Bool :=
        if d.kind = 's' then
          let all := State.bytesOf arg
          (d.fill (match d.precision with | some p => all.take p | none => all), false)
        else if d.kind = 'b' then
          let (bytes, cut) := unescape true (arg.length + 1) arg.toList
          (d.fill bytes, cut)
        else if d.kind = 'c' then (d.fill (State.bytesOf (String.ofList (arg.toList.take 1))), false)
        else if d.kind = 'd' ∨ d.kind = 'i' ∨ d.kind = 'u' then (d.integer 10 false (integerText arg), false)
        else if d.kind = 'x' then (d.integer 16 false (integerText arg), false)
        else if d.kind = 'X' then (d.integer 16 true (integerText arg), false)
        else if d.kind = 'o' then (d.integer 8 false (integerText arg), false)
        else ([], false)
      if stop then (bytes, args.tail, true)
      else
        let (more, rest, cut) := formatOnce n cs args.tail
        (bytes ++ more, rest, cut)
  | n + 1, '\\' :: c :: cs, args =>
    let digits := octalDigits 3 (c :: cs)
    let (bytes, used) : List UInt8 × Nat := match letterEscape? c with
      | some b => ([b], 0)
      | none   =>
        if digits.isEmpty then
          (if c = '"' then [34] else 92 :: State.bytesOf (String.ofList [c]), 0)
        else ([UInt8.ofNat (octal digits)], digits.length - 1)
    let (more, rest, cut) := formatOnce n (cs.drop used) args
    (bytes ++ more, rest, cut)
  | n + 1, c :: cs, args =>
    let (more, rest, cut) := formatOnce n cs args
    (State.bytesOf (String.ofList [c]) ++ more, rest, cut)

/-- A format used until no arguments are left, at most `n` times. -/
def formatAll (format : List Char) : Nat → List String → List UInt8
  | 0, _ => []
  | n + 1, args =>
    let (bytes, rest, cut) := formatOnce (format.length + 1) format args
    if cut || rest.isEmpty || rest.length = args.length then bytes else bytes ++ formatAll format n rest

end Recheck.Shell
