import Recheck.Shell.Script
import Recheck.Text.Blank
/-!
# Reading shell scripts

From text to commands.  Every reader takes the text that is left and gives what it read with the text after it, or nothing
where the text is no script.  The readers of commands call each other in a nest that cannot be deeper than the text is
long, which bounds their work.
-/
namespace Recheck.Shell

/-- What was read, and the text after it. -/
abbrev Read (α : Type) := Option (α × List Char)

def isNameStart (c : Char) : Bool := c.isAlpha || c == '_'

def isNameChar (c : Char) : Bool := c.isAlphanum || c == '_'

def isName : List Char → Bool
  | []      => false
  | c :: cs => isNameStart c && cs.all isNameChar

def isOperatorChar (c : Char) : Bool :=
  c == ' ' || c == '\t' || c == '\n' || c == ';' || c == '&' || c == '|' || c == '<' || c == '>' || c == '(' || c == ')'

def isSpecialParameter (c : Char) : Bool :=
  c.isDigit || c == '@' || c == '*' || c == '#' || c == '?' || c == '$' || c == '!' || c == '-'

/-! ## Words -/

/-- The text up to the bracket that closes one already opened, and the text after it.  `depth` counts the open brackets and
`quote` holds the quote that the text is in. -/
def closing (openBracket closeBracket : Char) (depth : Nat) (quote : Option Char) : List Char → Read (List Char)
  | [] => none
  | c :: cs =>
    let more := fun (depth : Nat) (quote : Option Char) =>
      (closing openBracket closeBracket depth quote cs).map fun (inside, rest) => (c :: inside, rest)
    match quote with
    | some q => more depth (if c = q then none else quote)
    | none   =>
      if c = '\'' ∨ c = '"' then more depth (some c)
      else if c = openBracket then more (depth + 1) none
      else if c = closeBracket then
        match depth with
        | 0     => some ([], cs)
        | d + 1 => more d none
      else more depth none

/-- What follows a dollar sign; nothing if the sign stands for itself. -/
def dollar? (quoted : Bool) : List Char → Read Piece
  | '(' :: '(' :: cs =>
    match closing '(' ')' 1 none cs with
    | some (inside, rest) => some (.arithmetic quoted inside.dropLast, rest)
    | none                => none
  | '(' :: cs    => (closing '(' ')' 0 none cs).map fun (inside, rest) => (.output quoted inside, rest)
  | '\x7b' :: cs =>
    match closing '\x7b' '\x7d' 0 none cs with
    | none                => none
    | some (inside, rest) =>
      match inside with
      | '#' :: c :: inside' => some (.parameter quoted (String.ofList (c :: inside')) ['#'], rest)
      | c :: inside'        =>
        if isSpecialParameter c then some (.parameter quoted (String.ofList [c]) inside', rest)
        else
          let name := inside.takeWhile isNameChar
          some (.parameter quoted (String.ofList name) (inside.drop name.length), rest)
      | [] => none
  | c :: cs =>
    if isNameStart c then
      some (.parameter quoted (String.ofList (c :: cs.takeWhile isNameChar)) [], cs.dropWhile isNameChar)
    else if isSpecialParameter c then some (.parameter quoted (String.ofList [c]) [], cs)
    else none
  | [] => none

/-- The text between grave accents, with the accents inside it unescaped. -/
def graves : List Char → Read (List Char)
  | [] => none
  | '\x60' :: cs => some ([], cs)
  | '\\' :: '\x60' :: cs => (graves cs).map fun (inside, rest) => ('\x60' :: inside, rest)
  | c :: cs => (graves cs).map fun (inside, rest) => (c :: inside, rest)

def apostrophes : List Char → Read (List Char)
  | [] => none
  | c :: cs => if c = '\'' then some ([], cs) else (apostrophes cs).map fun (inside, rest) => (c :: inside, rest)

/-- A character in front of a word, joined to the text that the word starts with. -/
def pushChar (quoted : Bool) (c : Char) : Word → Word
  | .text q s :: w => if q = quoted then .text q (c :: s) :: w else .text quoted [c] :: .text q s :: w
  | w              => .text quoted [c] :: w

def prependChar (quoted : Bool) (c : Char) : Read Word → Read Word
  | some (w, rest) => some (pushChar quoted c w, rest)
  | none           => none

def prependPiece (p : Piece) : Read Word → Read Word
  | some (w, rest) => some (p :: w, rest)
  | none           => none

/-- What a word is read as: plain text, the inside of quotation marks, or a text that is all inside, where quotation marks
do not count. -/
inductive Mode where
  | plain
  | inQuotes
  | allQuoted
  deriving DecidableEq

def wordFrom : Nat → Mode → List Char → Read Word
  | 0, _, _ => none
  | _, .plain, [] => some ([], [])
  | _, .allQuoted, [] => some ([], [])
  | _, .inQuotes, [] => none
  | n + 1, .plain, c :: cs =>
    if isOperatorChar c then some ([], c :: cs)
    else if c = '\\' then
      match cs with
      | '\n' :: cs' => wordFrom n .plain cs'
      | d :: cs'    => prependChar true d (wordFrom n .plain cs')
      | []          => some ([.text true ['\\']], [])
    else if c = '\'' then
      match apostrophes cs with
      | some (inside, rest) => prependPiece (.text true inside) (wordFrom n .plain rest)
      | none                => none
    else if c = '"' then prependPiece (.text true []) (wordFrom n .inQuotes cs)
    else if c = '$' then
      match dollar? false cs with
      | some (p, rest) => prependPiece p (wordFrom n .plain rest)
      | none           => prependChar false '$' (wordFrom n .plain cs)
    else if c = '\x60' then
      match graves cs with
      | some (inside, rest) => prependPiece (.output false inside) (wordFrom n .plain rest)
      | none                => none
    else prependChar false c (wordFrom n .plain cs)
  | n + 1, mode, c :: cs =>
    if c = '"' then wordFrom n (if mode = .inQuotes then .plain else mode) cs
    else if c = '\\' then
      match cs with
      | '\n' :: cs' => wordFrom n mode cs'
      | d :: cs'    =>
        if d = '$' ∨ d = '"' ∨ d = '\\' ∨ d = '\x60' then prependChar true d (wordFrom n mode cs')
        else prependChar true '\\' (prependChar true d (wordFrom n mode cs'))
      | [] => prependChar true '\\' (wordFrom n mode [])
    else if c = '$' then
      match dollar? true cs with
      | some (p, rest) => prependPiece p (wordFrom n mode rest)
      | none           => prependChar true '$' (wordFrom n mode cs)
    else if c = '\x60' then
      match graves cs with
      | some (inside, rest) => prependPiece (.output true inside) (wordFrom n mode rest)
      | none                => none
    else prependChar true c (wordFrom n mode cs)

def word (cs : List Char) : Read Word := wordFrom (cs.length + 2) .plain cs

/-- A text that is all one word, read as if between quotation marks. -/
def quotedWord (cs : List Char) : Word := ((wordFrom (cs.length + 2) .allQuoted cs).map Prod.fst).getD []

/-- The text of a word without quotes or expansions. -/
def bareText? : Word → Option String
  | [.text false s] => some (String.ofList s)
  | _               => none

/-! ## Commands -/

/-- The text after blanks, joined lines and a comment. -/
def skipSpace : List Char → List Char
  | ' ' :: cs          => skipSpace cs
  | '\t' :: cs         => skipSpace cs
  | '\\' :: '\n' :: cs => skipSpace cs
  | '#' :: cs          => cs.dropWhile (· != '\n')
  | cs                 => cs

/-- The text after blanks, comments and line ends; the flag is set inside a comment. -/
def skipLines : Bool → List Char → List Char
  | _, []             => []
  | _, '\n' :: cs     => skipLines false cs
  | true, _ :: cs     => skipLines true cs
  | false, ' ' :: cs  => skipLines false cs
  | false, '\t' :: cs => skipLines false cs
  | false, '#' :: cs  => skipLines true cs
  | false, c :: cs    => c :: cs

/-- Words that are not commands where a command is expected. -/
def closingWords : List String := ["then", "else", "elif", "fi", "do", "done", "esac", "\x7d"]

def keyword? (cs : List Char) : Read String :=
  match word cs with
  | some (w, rest) => (bareText? w).map fun s => (s, rest)
  | none           => none

/-- The text after a certain keyword, line ends before it skipped. -/
def expect? (k : String) (cs : List Char) : Option (List Char) :=
  match keyword? (skipLines false cs) with
  | some (s, rest) => if s = k then some rest else none
  | none           => none

/-- A redirection, if one starts here. -/
def redirect? (cs : List Char) : Read Redirect :=
  let digits := cs.takeWhile Char.isDigit
  let descriptor? := if digits.isEmpty then none else (String.ofList digits).toNat?
  let make := fun (standard : Nat) (goal : Word → RedirectTo) (rest : List Char) =>
    match word (skipSpace rest) with
    | some (w, rest') => if w.isEmpty then none else some (Redirect.mk (descriptor?.getD standard) (goal w), rest')
    | none            => none
  match cs.drop digits.length with
  | '>' :: '>' :: rest => make 1 .append rest
  | '>' :: '&' :: rest => make 1 .descriptor rest
  | '>' :: '|' :: rest => make 1 .file rest
  | '>' :: rest        => make 1 .file rest
  | '<' :: '&' :: rest => make 0 .descriptor rest
  | '<' :: '<' :: _    => none
  | '<' :: rest        => make 0 .input rest
  | _                  => none

/-- An assignment that a word is, if it is one. -/
def assignment? : Word → Option (String × Word)
  | .text false s :: w =>
    let name := s.takeWhile isNameChar
    match s.drop name.length with
    | '=' :: value => if isName name then some (String.ofList name, .text true value :: w) else none
    | _            => none
  | _ => none

def simpleParts (line : Nat) : Nat → List (String × Word) → List Word → List Redirect → List Char → Read Command
  | 0, _, _, _, _ => none
  | n + 1, assignments, words, redirects, cs =>
    let cs := skipSpace cs
    match redirect? cs with
    | some (r, rest) => simpleParts line n assignments words (redirects ++ [r]) rest
    | none           =>
      match word cs with
      | none           => none
      | some ([], rest) =>
        if cs.length = rest.length then some (.simple line assignments words redirects, cs)
        else simpleParts line n assignments words redirects rest
      | some (w, rest) =>
        match words, assignment? w with
        | [], some a => simpleParts line n (assignments ++ [a]) words redirects rest
        | _, _       => simpleParts line n assignments (words ++ [w]) redirects rest

def redirects : Nat → List Char → List Redirect × List Char
  | 0, cs     => ([], cs)
  | n + 1, cs =>
    match redirect? (skipSpace cs) with
    | some (r, rest) =>
      let (rs, rest') := redirects n rest
      (r :: rs, rest')
    | none => ([], cs)

def withRedirects (c : Command) (cs : List Char) : Command × List Char :=
  match redirects cs.length cs with
  | ([], rest) => (c, rest)
  | (rs, rest) => (.redirected c rs, rest)

/-- The fields after `in` up to the end of the line. -/
def eachWords : Nat → List Char → Read (List Word)
  | 0, _ => none
  | n + 1, cs =>
    match word (skipSpace cs) with
    | some ([], rest) => some ([], rest)
    | some (w, rest)  => (eachWords n rest).map fun (ws, rest') => (w :: ws, rest')
    | none            => none

def patterns : Nat → List Char → Read (List Word)
  | 0, _ => none
  | n + 1, cs =>
    match word (skipSpace cs) with
    | none           => none
    | some (w, rest) =>
      match skipSpace rest with
      | ')' :: rest' => some ([w], rest')
      | '|' :: rest' => (patterns n rest').map fun (ws, r) => (w :: ws, r)
      | _            => none

def lineCount (cs : List Char) : Nat := cs.count '\n'

/-- A simple command that is not empty. -/
def simpleCommand (lines : Nat) (cs : List Char) : Read Command :=
  match simpleParts (1 + lines - lineCount cs) (cs.length + 2) [] [] [] cs with
  | some (.simple _ [] [] [], _) => none
  | r                            => r

mutual

/-- One command; `lines` is the number of lines of the whole script. -/
def command (lines : Nat) : Nat → List Char → Read Command
  | 0, _ => none
  | n + 1, cs =>
    match cs with
    | '(' :: rest =>
      match list lines n rest with
      | some (c, ')' :: rest') => some (withRedirects (.apart c) rest')
      | _                      => none
    | _ =>
      match keyword? cs with
      | some ("\x7b", rest) =>
        match list lines n rest with
        | some (c, rest') => (expect? "\x7d" rest').map (withRedirects c)
        | none            => none
      | some ("!", rest) =>
        match pipeline lines n (skipSpace rest) with
        | some (c, rest') => some (.negated c, rest')
        | none            => none
      | some ("if", rest)    => conditional lines n rest
      | some ("while", rest) => loopCommand lines n false rest
      | some ("until", rest) => loopCommand lines n true rest
      | some ("for", rest)   =>
        match keyword? (skipSpace rest) with
        | none                => none
        | some (name, rest1) =>
          let words? : Option (Option (List Word) × List Char) :=
            match keyword? (skipLines false rest1) with
            | some ("in", rest2) => (eachWords rest2.length rest2).map fun (ws, r) => (some ws, r)
            | _                  => some (none, rest1)
          match words? with
          | none             => none
          | some (ws, rest3) =>
            let rest4 := match skipSpace rest3 with
              | ';' :: r => r
              | r        => r
            match expect? "do" rest4 with
            | none       => none
            | some rest5 =>
              match list lines n rest5 with
              | some (body, rest6) => (expect? "done" rest6).map (withRedirects (.each name ws body))
              | none               => none
      | some ("case", rest) =>
        match word (skipSpace rest) with
        | none => none
        | some (w, rest1) =>
          match expect? "in" rest1 with
          | none       => none
          | some rest2 =>
            match arms lines n rest2 with
            | some (as, rest3) => some (withRedirects (.choice w as) rest3)
            | none             => none
      | some (k, rest) =>
        if closingWords.contains k then none
        else match skipSpace rest with
          | '(' :: rest' =>
            match skipSpace rest' with
            | ')' :: rest'' =>
              if isName k.toList then
                match command lines n (skipLines false rest'') with
                | some (c, r) => some (.define k c, r)
                | none        => none
              else none
            | _ => none
          | _ => simpleCommand lines cs
      | none => simpleCommand lines cs

def conditional (lines : Nat) : Nat → List Char → Read Command
  | 0, _ => none
  | n + 1, cs =>
    match list lines n cs with
    | none => none
    | some (condition, rest) =>
      match expect? "then" rest with
      | none       => none
      | some rest1 =>
        match list lines n rest1 with
        | none => none
        | some (body, rest2) =>
          match keyword? (skipLines false rest2) with
          | some ("fi", rest3)   => some (withRedirects (.conditional condition body .skip) rest3)
          | some ("elif", rest3) =>
            (conditional lines n rest3).map fun (c, r) => (.conditional condition body c, r)
          | some ("else", rest3) =>
            match list lines n rest3 with
            | none => none
            | some (otherwise, rest4) =>
              (expect? "fi" rest4).map (withRedirects (.conditional condition body otherwise))
          | _ => none

def loopCommand (lines : Nat) : Nat → Bool → List Char → Read Command
  | 0, _, _ => none
  | n + 1, inverted, cs =>
    match list lines n cs with
    | none => none
    | some (condition, rest) =>
      match expect? "do" rest with
      | none       => none
      | some rest1 =>
        match list lines n rest1 with
        | none               => none
        | some (body, rest2) => (expect? "done" rest2).map (withRedirects (.loop inverted condition body))

def arms (lines : Nat) : Nat → List Char → Read (List (List Word × Command))
  | 0, _ => none
  | n + 1, cs =>
    let cs := skipLines false cs
    match keyword? cs with
    | some ("esac", rest) => some ([], rest)
    | _ =>
      let cs := match cs with
        | '(' :: r => r
        | r        => r
      match patterns cs.length cs with
      | none => none
      | some (ws, rest) =>
        match list lines n rest with
        | none => none
        | some (c, rest1) =>
          match skipLines false rest1 with
          | ';' :: ';' :: rest2 => (arms lines n rest2).map fun (as, r) => ((ws, c) :: as, r)
          | rest2 => (expect? "esac" rest2).map fun r => ([(ws, c)], r)

def pipeline (lines : Nat) : Nat → List Char → Read Command
  | 0, _ => none
  | n + 1, cs =>
    match command lines n cs with
    | none => none
    | some (c, rest) =>
      match skipSpace rest with
      | '|' :: '|' :: r => some (c, '|' :: '|' :: r)
      | '|' :: r        => (pipeline lines n (skipLines false r)).map fun (c', r') => (.pipeline c c', r')
      | r               => some (c, r)

def andOr (lines : Nat) : Nat → Command → List Char → Read Command
  | 0, _, _ => none
  | n + 1, c, cs =>
    match skipSpace cs with
    | '&' :: '&' :: r =>
      match pipeline lines n (skipLines false r) with
      | some (c', r') => andOr lines n (.both c c') r'
      | none          => none
    | '|' :: '|' :: r =>
      match pipeline lines n (skipLines false r) with
      | some (c', r') => andOr lines n (.either c c') r'
      | none          => none
    | r => some (c, r)

/-- Commands one after the other, up to a closing word, a closing bracket or the end. -/
def list (lines : Nat) : Nat → List Char → Read Command
  | 0, _ => none
  | n + 1, cs =>
    let cs := skipLines false cs
    let ends := match cs with
      | []               => true
      | ')' :: _         => true
      | ';' :: ';' :: _  => true
      | _                => match keyword? cs with
        | some (k, _) => closingWords.contains k
        | none        => false
    if ends then some (.skip, cs)
    else match pipeline lines n cs with
      | none          => none
      | some (p, rest) =>
        match andOr lines n p rest with
        | none => none
        | some (c, rest1) =>
          match rest1 with
          | ';' :: ';' :: r => some (c, ';' :: ';' :: r)
          | ';' :: r  => (list lines n r).map fun (c', r') => (.sequence c c', r')
          | '&' :: r  => (list lines n r).map fun (c', r') => (.sequence (.background c) c', r')
          | '\n' :: r => (list lines n r).map fun (c', r') => (.sequence c c', r')
          | r         => some (c, r)

end

def script? (cs : List Char) : Option Command :=
  match list (lineCount cs) (3 * cs.length + 10) cs with
  | some (c, [])     => some c
  | some (_, _ :: _) => none
  | none             => none

end Recheck.Shell
