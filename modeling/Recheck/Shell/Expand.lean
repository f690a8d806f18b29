import Recheck.Shell.Reader
import Recheck.Shell.State
/-!
# Expansion of words

From words to fields: parameters, integer expressions and the output of scripts are put in; what was not quoted is split
at white space, and stands for the files whose paths it fits as a pattern, if there are any.
-/
namespace Recheck.Shell

/-! ## Patterns -/

inductive Glob where
  | char (c : Char)
  | any
  | many
  | oneOf (negated : Bool) (ranges : List (Char × Char))
  deriving DecidableEq

def setRanges : Nat → List Char → Option (List (Char × Char) × List Char)
  | 0, _ => none
  | _, [] => none
  | _, ']' :: cs => some ([], cs)
  | n + 1, a :: '-' :: b :: cs =>
    if b = ']' then (setRanges n (b :: cs)).map fun (rs, rest) => ((a, a) :: ('-', '-') :: rs, rest)
    else (setRanges n cs).map fun (rs, rest) => ((a, b) :: rs, rest)
  | n + 1, a :: cs => (setRanges n cs).map fun (rs, rest) => ((a, a) :: rs, rest)

/-- A pattern from characters, of which the quoted ones stand for themselves. -/
def globOf : Nat → List (Bool × Char) → List Glob
  | 0, _ => []
  | _, [] => []
  | n + 1, (true, c) :: cs => .char c :: globOf n cs
  | n + 1, (false, '*') :: cs => .many :: globOf n cs
  | n + 1, (false, '?') :: cs => .any :: globOf n cs
  | n + 1, (false, '[') :: cs =>
    let plain := cs.map Prod.snd
    let (negated, body) := match plain with
      | '!' :: r => (true, r)
      | '^' :: r => (true, r)
      | r        => (false, r)
    match setRanges body.length body with
    | some (rs, rest) => .oneOf negated rs :: globOf n (cs.drop (cs.length - rest.length))
    | none            => .char '[' :: globOf n cs
  | n + 1, (false, c) :: cs => .char c :: globOf n cs

/-- A text fits a pattern; each step takes a character or a part of the pattern. -/
def matches? : List Glob → List Char → Bool
  | [], cs                    => cs.isEmpty
  | .many :: g, []            => matches? g []
  | .many :: g, c :: cs       => matches? g (c :: cs) || matches? (.many :: g) cs
  | .char d :: g, c :: cs     => c == d && matches? g cs
  | .any :: g, _ :: cs        => matches? g cs
  | .oneOf neg rs :: g, c :: cs => (rs.any (fun r => r.1 ≤ c && c ≤ r.2) != neg) && matches? g cs
  | _ :: _, []                => false
termination_by g cs => (cs.length, g.length)

/-! ## Integer expressions -/

/-- The number that digits stand for: in base sixteen after `0x`, in base eight after a zero. -/
def literalNumber (cs : List Char) : Nat :=
  let valueIn := fun (base : Nat) (ds : List Char) => ds.foldl (fun n c =>
    n * base + (if c.isDigit then c.toNat - 48 else c.toLower.toNat - 87)) 0
  match cs with
  | '0' :: 'x' :: ds => valueIn 16 ds
  | '0' :: 'X' :: ds => valueIn 16 ds
  | '0' :: ds        => valueIn 8 ds
  | ds               => valueIn 10 ds

inductive ArithToken where
  | number (n : Int)
  | name (s : String)
  | operator (s : String)
  deriving DecidableEq

def longOperators : List (List Char) :=
  ["==".toList, "!=".toList, "<=".toList, ">=".toList, "&&".toList, "||".toList, "<<".toList, ">>".toList]

def arithTokens : Nat → List Char → List ArithToken
  | 0, _ => []
  | _, [] => []
  | n + 1, c :: cs =>
    if isBlank c then arithTokens n cs
    else if c.isDigit then
      .number (literalNumber (c :: cs.takeWhile Char.isAlphanum)) :: arithTokens n (cs.dropWhile Char.isAlphanum)
    else if isNameStart c then
      .name (String.ofList (c :: cs.takeWhile isNameChar)) :: arithTokens n (cs.dropWhile isNameChar)
    else if c = '$' then arithTokens n cs
    else match cs with
      | d :: cs' =>
        if longOperators.contains [c, d] then .operator (String.ofList [c, d]) :: arithTokens n cs'
        else .operator (String.ofList [c]) :: arithTokens n cs
      | [] => [.operator (String.ofList [c])]

def precedence : String → Nat
  | "||" => 1
  | "&&" => 2
  | "|"  => 3
  | "^"  => 4
  | "&"  => 5
  | "==" => 6
  | "!=" => 6
  | "<"  => 7
  | ">"  => 7
  | "<=" => 7
  | ">=" => 7
  | "<<" => 8
  | ">>" => 8
  | "+"  => 9
  | "-"  => 9
  | "*"  => 10
  | "/"  => 10
  | "%"  => 10
  | _    => 0

def ofBool (b : Bool) : Int := if b then 1 else 0

/-- The value of an operation; division rounds toward zero. -/
def operate (operator : String) (a b : Int) : Int :=
  match operator with
  | "||" => ofBool (a != 0 || b != 0)
  | "&&" => ofBool (a != 0 && b != 0)
  | "==" => ofBool (a == b)
  | "!=" => ofBool (a != b)
  | "<"  => ofBool (a < b)
  | ">"  => ofBool (b < a)
  | "<=" => ofBool (a ≤ b)
  | ">=" => ofBool (b ≤ a)
  | "<<" => a * Int.pow 2 b.toNat
  | ">>" => Int.fdiv a (Int.pow 2 b.toNat)
  | "+"  => a + b
  | "-"  => a - b
  | "*"  => a * b
  | "/"  => Int.tdiv a b
  | "%"  => Int.tmod a b
  | _    => 0

mutual

/-- A number, a name, or an expression with a sign or in brackets. -/
def arithTerm (value : String → Int) : Nat → List ArithToken → Int × List ArithToken
  | 0, ts => (0, ts)
  | n + 1, ts =>
    match ts with
    | .number i :: rest     => (i, rest)
    | .name s :: rest       => (value s, rest)
    | .operator "-" :: rest => let (v, r) := arithTerm value n rest; (-v, r)
    | .operator "+" :: rest => arithTerm value n rest
    | .operator "!" :: rest => let (v, r) := arithTerm value n rest; (ofBool (v == 0), r)
    | .operator "(" :: rest =>
      match arithFrom value n 1 rest with
      | (v, .operator ")" :: r) => (v, r)
      | r                       => r
    | rest => (0, rest)

/-- A term and the operations after it that bind at least as tightly as `least`. -/
def arithFrom (value : String → Int) : Nat → Nat → List ArithToken → Int × List ArithToken
  | 0, _, ts => (0, ts)
  | n + 1, least, ts =>
    let (v, rest) := arithTerm value n ts
    arithMore value n least v rest

def arithMore (value : String → Int) : Nat → Nat → Int → List ArithToken → Int × List ArithToken
  | 0, _, v, ts => (v, ts)
  | n + 1, least, v, ts =>
    match ts with
    | .operator o :: rest =>
      let p := precedence o
      if p = 0 ∨ p < least then (v, ts)
      else
        let (w, rest') := arithFrom value n (p + 1) rest
        arithMore value n least (operate o v w) rest'
    | _ => (v, ts)

end

def arithValue (value : String → Int) (cs : List Char) : Int :=
  let ts := arithTokens (cs.length + 1) cs
  (arithFrom value (3 * ts.length + 3) 1 ts).1

/-- The integer that a text begins with, zero if there is none. -/
def integerText (s : String) : Int :=
  match s.toList with
  | '-' :: cs => -((String.ofList cs).toNat?.getD 0 : Int)
  | cs        => (String.ofList cs).toNat?.getD 0

def integerValue (s : String) : Int :=
  match trimBlank s.toList with
  | '-' :: cs => -(literalNumber cs : Int)
  | '+' :: cs => literalNumber cs
  | cs        => literalNumber cs

/-! ## Words to fields -/

inductive Segment where
  /-- Quoted: it stands as it is. -/
  | fixed (s : String)
  /-- Written without quotes: not split, but its characters may be patterns. -/
  | plain (s : String)
  /-- Put in without quotes: split at white space. -/
  | loose (s : String)
  /-- Here one field ends and another starts. -/
  | cut
  deriving DecidableEq

abbrev Runner := State → List Char → State × String

def processId (i : Nat) : String := Nat.repr (4000 + i)

/-- The value of a parameter, nothing if it is unset. -/
def parameter? (st : State) (name : String) : Option String :=
  match name with
  | "@" => some (String.intercalate " " st.args)
  | "*" => some (String.intercalate " " st.args)
  | "#" => some (Nat.repr st.args.length)
  | "?" => some (Nat.repr st.status)
  | "$" => some (processId 0)
  | "!" => some (processId 1)
  | "-" => some ""
  | "0" => some st.name
  | _   =>
    match name.toNat? with
    | some i => st.args[i - 1]?
    | none   => st.var? name

/-- The characters of segments, each with whether it is quoted. -/
def segmentChars (segments : List Segment) : List (Bool × Char) :=
  segments.flatMap fun s => match s with
    | .fixed t => t.toList.map ((true, ·))
    | .plain t => t.toList.map ((false, ·))
    | .loose t => t.toList.map ((false, ·))
    | .cut     => [(true, ' ')]

def segmentText (segments : List Segment) : String := String.ofList ((segmentChars segments).map Prod.snd)

def segmentGlob (segments : List Segment) : List Glob :=
  let cs := segmentChars segments
  globOf (cs.length + 1) cs

/-- A text without the shortest or longest beginning that fits a pattern. -/
def dropFitting (g : List Glob) (longest : Bool) (cs : List Char) : List Char :=
  let lengths := List.range (cs.length + 1)
  let fitting := (if longest then lengths.reverse else lengths).find? fun n => matches? g (cs.take n)
  match fitting with
  | some n => cs.drop n
  | none   => cs

/-- A text without the shortest or longest end that fits a pattern. -/
def dropFittingEnd (g : List Glob) (longest : Bool) (cs : List Char) : List Char :=
  let lengths := List.range (cs.length + 1)
  let fitting := (if longest then lengths else lengths.reverse).find? fun n => matches? g (cs.drop n)
  match fitting with
  | some n => cs.take n
  | none   => cs

def segmentOf (quoted : Bool) (s : String) : Segment := if quoted then .fixed s else .loose s

def separated (quoted : Bool) : List String → List Segment
  | []           => []
  | [a]          => [segmentOf quoted a]
  | a :: b :: as => segmentOf quoted a :: .cut :: separated quoted (b :: as)

/-- The shell ends with a complaint, unless it is ending already. -/
def stop (st : State) (complaint : String) : State :=
  if st.flow = .next then { (st.report complaint).withStatus 2 with flow := .exit } else st

/-- The output of a script without the line ends at its end. -/
def withoutLineEnds (s : String) : String := String.ofList (dropWhileEnd (· == '\n') s.toList)

/-- The segments of a word, expanded at most `n` levels deep. -/
def expand (runner : Runner) : Nat → State → Word → State × List Segment
  | 0, st, _ => (st, [])
  | _, st, [] => (st, [])
  | n + 1, st, p :: w =>
    let (st, first) : State × List Segment := match p with
      | .text true s  => (st, [.fixed (String.ofList s)])
      | .text false s => (st, [.plain (String.ofList s)])
      | .output quoted script =>
        let (st, s) := runner st script
        (st, [segmentOf quoted (withoutLineEnds s)])
      | .arithmetic quoted body =>
        let (st, inner) := expand runner n st (quotedWord body)
        let value := fun name => integerValue ((parameter? st name).getD "0")
        (st, [segmentOf quoted (toString (arithValue value (segmentText inner).toList))])
      | .parameter quoted name [] =>
        if name = "@" then (st, separated quoted st.args)
        else if name = "*" ∧ quoted = false then (st, separated quoted st.args)
        else match parameter? st name with
          | some s => (st, [segmentOf quoted s])
          | none   =>
            if st.needsSet then (stop st (name ++ ": parameter not set"), [segmentOf quoted ""])
            else (st, [segmentOf quoted ""])
      | .parameter quoted name body =>
        let value := parameter? st name
        let filled := value.filter (!·.isEmpty)
        let inner := fun (cs : List Char) => expand runner n st (quotedWord cs)
        let pattern := fun (cs : List Char) =>
          (expand runner n st (((wordFrom (cs.length + 2) .plain cs).map Prod.fst).getD [])).2
        let orWord := fun (v : Option String) (cs : List Char) => match v with
          | some s => (st, [segmentOf quoted s])
          | none   => let (st, i) := inner cs; (st, [segmentOf quoted (segmentText i)])
        let orAssign := fun (v : Option String) (cs : List Char) => match v with
          | some s => (st, [segmentOf quoted s])
          | none   =>
            let (st, i) := inner cs
            (st.setVar name (segmentText i), [segmentOf quoted (segmentText i)])
        let ifSet := fun (v : Option String) (cs : List Char) => match v with
          | some _ => let (st, i) := inner cs; (st, [segmentOf quoted (segmentText i)])
          | none   => (st, [segmentOf quoted ""])
        let orStop := fun (v : Option String) (standard : String) (cs : List Char) => match v with
          | some s => (st, [segmentOf quoted s])
          | none   =>
            let (st, i) := inner cs
            (stop st (name ++ ": " ++ (if cs.isEmpty then standard else segmentText i)), [segmentOf quoted ""])
        let chars := (value.getD "").toList
        let cutBy := fun (cs : List Char) => (st, [segmentOf quoted (String.ofList cs)])
        match body with
        | ['#']           => (st, [segmentOf quoted (Nat.repr chars.length)])
        | ':' :: '-' :: b => orWord filled b
        | '-' :: b        => orWord value b
        | ':' :: '=' :: b => orAssign filled b
        | '=' :: b        => orAssign value b
        | ':' :: '+' :: b => ifSet filled b
        | '+' :: b        => ifSet value b
        | ':' :: '?' :: b => orStop filled "parameter not set or null" b
        | '?' :: b        => orStop value "parameter not set" b
        | '#' :: '#' :: b => cutBy (dropFitting (segmentGlob (pattern b)) true chars)
        | '#' :: b        => cutBy (dropFitting (segmentGlob (pattern b)) false chars)
        | '%' :: '%' :: b => cutBy (dropFittingEnd (segmentGlob (pattern b)) true chars)
        | '%' :: b        => cutBy (dropFittingEnd (segmentGlob (pattern b)) false chars)
        | _               => (st, [segmentOf quoted (value.getD "")])
    let (st, more) := expand runner n st w
    (st, first ++ more)

/-- How far words are expanded: more than any word has parts. -/
def expandLimit (w : Word) : Nat := w.length + 40

def isFieldSpace (c : Char) : Bool := c == ' ' || c == '\t' || c == '\n'

/-- A field before it is matched against files: its characters, each with whether it is quoted. -/
abbrev Field := List (Bool × Char)

/-- The fields so far, latest first, and the one that is begun. -/
structure Fields where
  done : List Field
  begun : Option Field

namespace Fields

def close (f : Fields) : Fields :=
  match f.begun with
  | some s => ⟨s :: f.done, none⟩
  | none   => f

def add (f : Fields) (s : Field) : Fields := { f with begun := some (f.begun.getD [] ++ s) }

def addLoose (f : Fields) (cs : List Char) : Fields :=
  cs.foldl (fun f c => if isFieldSpace c then f.close else f.add [(false, c)]) f

def addSegment (f : Fields) : Segment → Fields
  | .fixed s => f.add (s.toList.map ((true, ·)))
  | .plain s => if s.isEmpty then f else f.add (s.toList.map ((false, ·)))
  | .loose s => f.addLoose s.toList
  | .cut     => f.close

def ofSegments (segments : List Segment) : List Field :=
  ((segments.foldl addSegment ⟨[], none⟩).close).done.reverse

end Fields

def fieldText (f : Field) : String := String.ofList (f.map Prod.snd)

/-- The words of a text, split at white space. -/
def looseWords (s : String) : List String := (Fields.ofSegments [.loose s]).map fieldText

/-- A field that may stand for files. -/
def isPattern (f : Field) : Bool := f.any fun (quoted, c) => !quoted && (c == '*' || c == '?' || c == '[')

def fieldPieces (f : Field) : List Field :=
  f.foldr (fun c pieces => if c.2 = '/' then [] :: pieces
    else match pieces with
      | p :: ps => (c :: p) :: ps
      | []      => [[c]]) [[]]

/-- The entries of a directory whose names fit a piece of a pattern; a dot in front must be written out. -/
def fittingNames (fs : FileSystem) (directory : String) (piece : Field) : List String :=
  let glob := globOf (piece.length + 1) piece
  let startsWithDot := fun (cs : List Char) => cs.head? == some '.'
  match fs.list ⟨if directory.isEmpty then "." else directory⟩ with
  | .error _    => []
  | .ok entries =>
    ((entries.map Prod.fst).filter fun name =>
      (!startsWithDot name.toList || startsWithDot (piece.map Prod.snd)) && matches? glob name.toList).mergeSort (· ≤ ·)

/-- The paths of what is there that fit the pieces of a pattern after `base`. -/
def fittingPaths (fs : FileSystem) : String → List Field → List String
  | base, []           => [base]
  | base, piece :: rest =>
    let found := if isPattern piece then (fittingNames fs base piece).map (base ++ ·) else [base ++ fieldText piece]
    match rest with
    | [] => found.filter fun p => (fs.locate false ⟨p⟩).toOption.any fun place => match place with
        | .occupied _ _ => true
        | .vacant _ _   => false
    | _  => found.flatMap fun p => fittingPaths fs (p ++ "/") rest

/-- The paths that a field stands for, itself if there are none. -/
def pathsOf (fs : FileSystem) (f : Field) : List String :=
  if isPattern f then
    match fittingPaths fs "" (fieldPieces f) with
    | []    => [fieldText f]
    | paths => paths
  else [fieldText f]

/-- A word that is all the arguments in quotation marks makes no field where there are no arguments. -/
def isAllArguments : Word → Bool
  | [.text true [], .parameter true "@" []] => true
  | _                                       => false

def fieldsOf (runner : Runner) (st : State) (w : Word) : State × List String :=
  if isAllArguments w then (st, st.args)
  else
    let (st, segments) := expand runner (expandLimit w) st w
    (st, (Fields.ofSegments segments).flatMap (pathsOf st.fs))

def fieldsOfAll (runner : Runner) (st : State) : List Word → State × List String
  | []      => (st, [])
  | w :: ws =>
    let (st, first) := fieldsOf runner st w
    let (st, more) := fieldsOfAll runner st ws
    (st, first ++ more)

/-- The text of a word that is not split. -/
def textOfWord (runner : Runner) (st : State) (w : Word) : State × String :=
  let (st, segments) := expand runner (expandLimit w) st w
  (st, segmentText segments)

end Recheck.Shell
