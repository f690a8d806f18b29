/-!
# Quoted texts and lists of them

The JSON form of a text and of a list of texts, without blanks: a quotation mark, a reverse solidus and the controls
below the space are escaped, with the short form where there is one and `\u00xx` elsewhere; all else stands for itself.
-/
namespace Recheck.Quoted

def hexDigit (n : Nat) : Char := (Nat.digitChar (n % 16))

def escape (c : Char) : List Char :=
  if c = '"' then ['\\', '"']
  else if c = '\\' then ['\\', '\\']
  else if c = '\x08' then ['\\', 'b']
  else if c = '\x0c' then ['\\', 'f']
  else if c = '\n' then ['\\', 'n']
  else if c = '\r' then ['\\', 'r']
  else if c = '\t' then ['\\', 't']
  else if c.toNat < 0x20 then ['\\', 'u', '0', '0', hexDigit (c.toNat / 16), hexDigit c.toNat]
  else [c]

def encode (cs : List Char) : List Char := '"' :: (cs.flatMap escape ++ ['"'])

/-- The written forms of texts, with a comma between each two. -/
def encodeItems : List (List Char) → List Char
  | []           => []
  | [t]          => encode t
  | t :: u :: ts => encode t ++ ',' :: encodeItems (u :: ts)

def encodeList (ts : List (List Char)) : List Char := '[' :: (encodeItems ts ++ [']'])

end Recheck.Quoted
