import Recheck.Text.Split
/-!
# Shell scripts

The form of a script in the command language of a POSIX shell: words with their quoting and expansions, redirections, and
commands.  What is inside an expansion is kept as text, and read when the expansion is carried out.
-/
namespace Recheck.Shell

/-- A part of a word.  `quoted` parts are never split into fields. -/
inductive Piece where
  | text (quoted : Bool) (s : List Char)
  /-- The value of a parameter; `body` is the whole of what stood between braces after the name. -/
  | parameter (quoted : Bool) (name : String) (body : List Char)
  /-- The value of an expression over integers. -/
  | arithmetic (quoted : Bool) (body : List Char)
  /-- The output of a script. -/
  | output (quoted : Bool) (script : List Char)
  deriving DecidableEq, Repr

abbrev Word := List Piece

inductive RedirectTo where
  /-- A file to be written anew. -/
  | file (path : Word)
  /-- A file to be added to. -/
  | append (path : Word)
  /-- A file to be read. -/
  | input (path : Word)
  /-- Where another descriptor leads now. -/
  | descriptor (word : Word)
  deriving DecidableEq, Repr

structure Redirect where
  descriptor : Nat
  target : RedirectTo
  deriving DecidableEq, Repr

inductive Command where
  | skip
  /-- Assignments, then a command with arguments; either may be missing. -/
  | simple (line : Nat) (assignments : List (String × Word)) (words : List Word) (redirects : List Redirect)
  | pipeline (first : Command) (next : Command)
  | negated (c : Command)
  | both (first : Command) (next : Command)
  | either (first : Command) (next : Command)
  | sequence (first : Command) (next : Command)
  | background (c : Command)
  | conditional (condition : Command) (body : Command) (otherwise : Command)
  /-- The body as long as the condition ends in success, or, with `inverted`, in failure. -/
  | loop (inverted : Bool) (condition : Command) (body : Command)
  /-- The body for each field, or for each argument of the script. -/
  | each (name : String) (words : Option (List Word)) (body : Command)
  /-- The command of the first arm with a fitting pattern. -/
  | choice (word : Word) (arms : List (List Word × Command))
  /-- A command that changes nothing outside of it. -/
  | apart (c : Command)
  | redirected (c : Command) (redirects : List Redirect)
  | define (name : String) (body : Command)

end Recheck.Shell
