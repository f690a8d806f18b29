/-!
# Tokens of a setting

A setting that holds several words separates them by spaces.  A word that starts with a quotation mark or an apostrophe
reaches to the next one of the same kind, spaces included, and loses the two; where there is no next one the character
stands for itself.  After a closing quote a new word starts even without a space.
-/
namespace Recheck

/-- The text up to the next `quote`, and the text after it. -/
def closing? (quote : Char) : List Char → Option (List Char × List Char)
  | []      => none
  | c :: cs => if c = quote then some ([], cs) else (closing? quote cs).map fun (inside, rest) => (c :: inside, rest)

theorem closing?_length {quote : Char} : ∀ {cs inside rest : List Char},
    closing? quote cs = some (inside, rest) → rest.length < cs.length
  | [], _, _, h => by simp [closing?] at h
  | c :: cs, inside, rest, h => by
    simp only [closing?] at h
    split at h
    · simp only [Option.some.injEq, Prod.mk.injEq] at h
      simp [← h.2]
    · obtain ⟨⟨i, r⟩, hr, he⟩ := Option.map_eq_some_iff.1 h
      simp only [Prod.mk.injEq] at he
      have := closing?_length hr
      simp only [← he.2, List.length_cons]
      omega

/-- A word that starts here in quotes, and the text after it. -/
def quoted? : List Char → Option (List Char × List Char)
  | '"' :: cs  => closing? '"' cs
  | '\'' :: cs => closing? '\'' cs
  | _          => none

theorem quoted?_length {cs inside rest : List Char} (h : quoted? cs = some (inside, rest)) :
    rest.length < cs.length := by
  unfold quoted? at h
  split at h
  · have := closing?_length h; simp only [List.length_cons]; omega
  · have := closing?_length h; simp only [List.length_cons]; omega
  · simp at h

def bare (cs : List Char) : List Char := cs.takeWhile (· != ' ')

def afterBare (cs : List Char) : List Char := cs.dropWhile (· != ' ')

theorem afterBare_length (cs : List Char) : (afterBare cs).length ≤ cs.length := (List.dropWhile_suffix _).length_le

def tokenize : List Char → List (List Char)
  | [] => []
  | c :: cs =>
    if c = ' ' then tokenize cs
    else match _h : quoted? (c :: cs) with
      | some (inside, rest) => inside :: tokenize rest
      | none                => (c :: bare cs) :: tokenize (afterBare cs)
termination_by cs => cs.length
decreasing_by
  · exact Nat.lt_succ_self _
  · exact quoted?_length ‹_›
  · exact Nat.lt_succ_of_le (afterBare_length cs)

/-- The words of a setting, none if it is unset. -/
def tokenizeSetting : Option String → List String
  | none   => []
  | some s => (tokenize s.toList).map String.ofList

end Recheck
