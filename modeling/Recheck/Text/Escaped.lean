import Recheck.Text.Concealed
/-!
# Escaped texts in messages

A text shown in a message so that every character of it can be told: between quotation marks, with the short escapes
for NUL, tab, line feed, carriage return, quotation mark and reverse solidus, and `\u\x7b...\x7d` for every other control
and for characters without a glyph of their own.
-/
namespace Recheck.Escaped

def codePoint (c : Char) : List Char := ['\\', 'u', '\x7b'] ++ Nat.toDigits 16 c.toNat ++ ['\x7d']

def escape (c : Char) : List Char :=
  if c = '\x00' then ['\\', '0']
  else if c = '\t' then ['\\', 't']
  else if c = '\n' then ['\\', 'n']
  else if c = '\r' then ['\\', 'r']
  else if c = '"' then ['\\', '"']
  else if c = '\\' then ['\\', '\\']
  else if c.toNat < 0x20 || c.toNat == 0x7f || isConcealed c then codePoint c
  else [c]

def encode (s : String) : String := String.ofList ('"' :: (s.toList.flatMap escape ++ ['"']))

end Recheck.Escaped
