/-!
# White space

The characters with the Unicode property `White_Space`, and trimming by them.  Filter lines, the count of script
inputs and the answer of the developer-directory query are trimmed by this class; a bare `Char.isWhitespace` would
miss the vertical tab, the form feed and everything beyond ASCII.
-/
namespace Recheck

/-- A character with the property `White_Space`. -/
def isBlank (c : Char) : Bool :=
  let n := c.toNat
  (9 ≤ n && n ≤ 13) || n == 32 || n == 0x85 || n == 0xa0 || n == 0x1680 || (0x2000 ≤ n && n ≤ 0x200a) ||
    n == 0x2028 || n == 0x2029 || n == 0x202f || n == 0x205f || n == 0x3000

theorem isBlank_of_isWhitespace {c : Char} (h : c.isWhitespace = true) : isBlank c = true := by
  simp only [Char.isWhitespace, Bool.or_eq_true, decide_eq_true_eq] at h
  rcases h with ((rfl | rfl) | rfl) | rfl <;> decide

/-- A list without the longest run at its end on which `p` holds. -/
def dropWhileEnd (p : α → Bool) (l : List α) : List α := (l.reverse.dropWhile p).reverse

/-- A text without the white space at its two ends. -/
def trimBlank (cs : List Char) : List Char := dropWhileEnd isBlank (cs.dropWhile isBlank)

/-- `trimBlank` on strings. -/
def trimText (s : String) : String := String.ofList (trimBlank s.toList)

end Recheck
