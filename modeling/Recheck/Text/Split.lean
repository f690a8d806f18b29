/-!
# Splitting and joining

A text cut at every occurrence of one character, and pieces put together with a text between each two.  Cutting and
joining with the same character gives the text back (`joinWith_splitOn`), and so does joining and cutting pieces in
which the character does not occur (`splitOn_joinWith`).
-/
namespace Recheck

/-- The pieces between the occurrences of `sep`; there is always at least one. -/
def splitOn (sep : Char) : List Char → List (List Char)
  | []      => [[]]
  | c :: cs =>
    if c = sep then [] :: splitOn sep cs
    else match splitOn sep cs with
      | []      => [[c]]
      | p :: ps => (c :: p) :: ps

/-- The pieces with `sep` between each two. -/
def joinWith (sep : List Char) : List (List Char) → List Char
  | []           => []
  | [p]          => p
  | p :: q :: ps => p ++ sep ++ joinWith sep (q :: ps)

/-- `joinWith` on strings. -/
def joinTexts (sep : String) (ts : List String) : String :=
  String.ofList (joinWith sep.toList (ts.map String.toList))

theorem splitOn_ne_nil (sep : Char) (cs : List Char) : splitOn sep cs ≠ [] := by
  cases cs with
  | nil => simp [splitOn]
  | cons c cs =>
    simp only [splitOn]
    split
    · simp
    · split <;> simp

theorem joinWith_cons_of_ne_nil {sep p : List Char} {ps : List (List Char)} (h : ps ≠ []) :
    joinWith sep (p :: ps) = p ++ sep ++ joinWith sep ps := by
  cases ps with
  | nil => exact absurd rfl h
  | cons q qs => rfl

theorem joinWith_cons_cons (sep : List Char) (c : Char) (p : List Char) (ps : List (List Char)) :
    joinWith sep ((c :: p) :: ps) = c :: joinWith sep (p :: ps) := by
  cases ps <;> rfl

theorem joinWith_splitOn (sep : Char) (cs : List Char) : joinWith [sep] (splitOn sep cs) = cs := by
  induction cs with
  | nil => rfl
  | cons c cs ih =>
    simp only [splitOn]
    by_cases h : c = sep
    · rw [if_pos h, joinWith_cons_of_ne_nil (splitOn_ne_nil sep cs), ih, h]; rfl
    · rw [if_neg h]
      split
      · rename_i h'; exact absurd h' (splitOn_ne_nil sep cs)
      · rename_i p ps h'; rw [joinWith_cons_cons, ← h', ih]

theorem splitOn_append_cons (sep : Char) (bs : List Char) :
    ∀ as : List Char, splitOn sep (as ++ sep :: bs) = splitOn sep as ++ splitOn sep bs
  | [] => by simp [splitOn]
  | c :: as => by
    have ih := splitOn_append_cons sep bs as
    rw [List.cons_append, splitOn, splitOn, ih]
    split
    · rfl
    · cases h : splitOn sep as with
      | nil => exact absurd h (splitOn_ne_nil sep as)
      | cons p ps => rfl

theorem splitOn_of_notMem (sep : Char) : ∀ cs : List Char, sep ∉ cs → splitOn sep cs = [cs]
  | [], _ => rfl
  | c :: cs, h => by
    have hc : c ≠ sep := fun hc => h (by simp [hc])
    rw [splitOn, if_neg hc, splitOn_of_notMem sep cs (fun hm => h (List.mem_cons_of_mem _ hm))]

theorem splitOn_joinWith (sep : Char) :
    ∀ ps : List (List Char), ps ≠ [] → (∀ p ∈ ps, sep ∉ p) → splitOn sep (joinWith [sep] ps) = ps
  | [], h, _ => absurd rfl h
  | [p], _, h => splitOn_of_notMem sep p (h p (by simp))
  | p :: q :: ps, _, h => by
    have ih := splitOn_joinWith sep (q :: ps) (by simp) (fun r hr => h r (List.mem_cons_of_mem _ hr))
    rw [joinWith, List.append_assoc, List.singleton_append, splitOn_append_cons, ih,
      splitOn_of_notMem sep p (h p (by simp)), List.singleton_append]

theorem notMem_of_mem_splitOn (sep : Char) : ∀ cs : List Char, ∀ p ∈ splitOn sep cs, sep ∉ p
  | [], p, hp => by simp_all [splitOn]
  | c :: cs, p, hp => by
    have ih := notMem_of_mem_splitOn sep cs
    rw [splitOn] at hp
    split at hp
    · rcases List.mem_cons.1 hp with rfl | hp
      · simp
      · exact ih p hp
    · rename_i hc
      cases hs : splitOn sep cs with
      | nil => exact absurd hs (splitOn_ne_nil sep cs)
      | cons q qs =>
        rw [hs] at hp ih
        rcases List.mem_cons.1 hp with rfl | hp
        · have := ih q (by simp)
          simp [Ne.symm hc, this]
        · exact ih p (List.mem_cons_of_mem _ hp)

end Recheck
