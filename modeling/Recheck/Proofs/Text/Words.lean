import Recheck.Tokens
/-!
# Words and how they are written

A line is pieces with runs of spaces around them (`Spelling`).  A piece is a text in quotes or a bare word, and a quote
begins a bare word only where no other of its kind follows on the line (`Piece.Stands`).  Every line can be cut so, and
its tokens are the words of the pieces, whichever way it was cut (`tokenize_spell`, `exists_spelling`).  Pieces set off
by spaces can be anything that does not look like another piece, so every list of words that spare one of the two quotes
can be written, and is read back (`Spelling.SetOff`).
-/
namespace Recheck

/-! ## Pieces of a line -/

inductive Quote where
  | double
  | single
  deriving DecidableEq, Repr

def Quote.mark : Quote → Char
  | double => '"'
  | single => '\''

instance {p : Quote → Prop} [DecidablePred p] : Decidable (∀ q, p q) :=
  decidable_of_iff (p .double ∧ p .single)
    ⟨fun h q => match q with | .double => h.1 | .single => h.2, fun h => ⟨h _, h _⟩⟩

/-- A piece of a line that stands for one word. -/
inductive Piece where
  | quoted (quote : Quote) (inside : List Char)
  | bare (letters : List Char)
  deriving DecidableEq, Repr

namespace Piece

def text : Piece → List Char
  | quoted q inside => q.mark :: (inside ++ [q.mark])
  | bare letters    => letters

/-- What is left of a piece without its quotes. -/
def word : Piece → List Char
  | quoted _ inside => inside
  | bare letters    => letters

/-- The text of the piece is one piece where `rest` is what follows on the line. -/
def Stands : Piece → List Char → Prop
  | quoted q inside, _ => q.mark ∉ inside
  | bare letters, rest =>
    letters ≠ [] ∧ ' ' ∉ letters ∧ (rest = [] ∨ rest.head? = some ' ') ∧
      ∀ q : Quote, letters.head? = some q.mark → q.mark ∉ letters.tail ++ rest

/-- The text of the piece is one piece wherever it is set off by spaces. -/
def Plain : Piece → Prop
  | quoted q inside => q.mark ∉ inside
  | bare letters    => letters ≠ [] ∧ ' ' ∉ letters ∧ ∀ q : Quote, letters.head? ≠ some q.mark

instance : ∀ (p : Piece) (rest : List Char), Decidable (p.Stands rest)
  | quoted q inside, _ => inferInstanceAs (Decidable (q.mark ∉ inside))
  | bare letters, rest => inferInstanceAs (Decidable (letters ≠ [] ∧ ' ' ∉ letters ∧
      (rest = [] ∨ rest.head? = some ' ') ∧ ∀ q : Quote, letters.head? = some q.mark → q.mark ∉ letters.tail ++ rest))

instance : DecidablePred Plain
  | quoted q inside => inferInstanceAs (Decidable (q.mark ∉ inside))
  | bare letters    =>
    inferInstanceAs (Decidable (letters ≠ [] ∧ ' ' ∉ letters ∧ ∀ q : Quote, letters.head? ≠ some q.mark))

end Piece

def spaces (n : Nat) : List Char := List.replicate n ' '

/-- The text of pieces, each with as many spaces after it as it comes with. -/
def spell : List (Piece × Nat) → List Char
  | []               => []
  | (p, gap) :: rest => p.text ++ (spaces gap ++ spell rest)

/-- Every piece is one before what follows it. -/
def AllStand : List (Piece × Nat) → Prop
  | []               => True
  | (p, gap) :: rest => p.Stands (spaces gap ++ spell rest) ∧ AllStand rest

instance AllStand.decidable : DecidablePred AllStand
  | []               => inferInstanceAs (Decidable True)
  | (p, gap) :: rest =>
    have := AllStand.decidable rest
    inferInstanceAs (Decidable (p.Stands (spaces gap ++ spell rest) ∧ AllStand rest))

/-- A line cut into pieces: the spaces in front, and the pieces with the spaces after each. -/
structure Spelling where
  lead : Nat
  pieces : List (Piece × Nat)

namespace Spelling

def text (s : Spelling) : List Char := spaces s.lead ++ spell s.pieces

def line (s : Spelling) : String := String.ofList s.text

def words (s : Spelling) : List String := s.pieces.map fun x => String.ofList x.1.word

/-- The pieces are pieces anywhere, and between any two there is a space. -/
structure SetOff (s : Spelling) : Prop where
  plain : ∀ x ∈ s.pieces, x.1.Plain
  apart : ∀ x ∈ s.pieces.dropLast, 0 < x.2

end Spelling

/-! ## Texts in quotes -/

section
variable {quote : Char} {inside rest cs : List Char}

theorem closing?_of_notMem : ∀ {inside : List Char}, quote ∉ inside →
    closing? quote (inside ++ quote :: rest) = some (inside, rest)
  | [], _ => by simp [closing?]
  | c :: inside, h => by
    have hc : c ≠ quote := fun hc => h (by simp [hc])
    have ih : closing? quote (inside ++ quote :: rest) = some (inside, rest) :=
      closing?_of_notMem fun hm => h (List.mem_cons_of_mem _ hm)
    simp [closing?, hc, ih]

theorem closing?_eq_none_iff : ∀ {cs : List Char}, closing? quote cs = none ↔ quote ∉ cs
  | [] => by simp [closing?]
  | c :: cs => by
    have ih : closing? quote cs = none ↔ quote ∉ cs := closing?_eq_none_iff
    by_cases hc : c = quote
    · simp [closing?, hc]
    · simp [closing?, hc, Ne.symm hc, ih]

theorem eq_of_closing? : ∀ {cs inside rest : List Char}, closing? quote cs = some (inside, rest) →
    cs = inside ++ quote :: rest ∧ quote ∉ inside
  | [], _, _, h => by simp [closing?] at h
  | c :: cs, inside, rest, h => by
    unfold closing? at h
    by_cases hc : c = quote
    · simp only [if_pos hc, Option.some.injEq, Prod.mk.injEq] at h
      obtain ⟨rfl, rfl⟩ := h
      exact ⟨by simp [hc], by simp⟩
    · rw [if_neg hc] at h
      obtain ⟨⟨i, r⟩, hr, he⟩ := Option.map_eq_some_iff.1 h
      simp only [Prod.mk.injEq] at he
      obtain ⟨rfl, rfl⟩ := he
      obtain ⟨hcs, hi⟩ := eq_of_closing? hr
      exact ⟨by rw [hcs]; rfl, by simp [Ne.symm hc, hi]⟩

theorem quoted?_mark (q : Quote) (cs : List Char) : quoted? (q.mark :: cs) = closing? q.mark cs := by
  cases q <;> rfl

theorem quoted?_of_ne {c : Char} (h : ∀ q : Quote, c ≠ q.mark) (cs : List Char) : quoted? (c :: cs) = none := by
  unfold quoted?
  split
  · rename_i hc
    exact absurd (List.cons.inj hc).1 (h .double)
  · rename_i hc
    exact absurd (List.cons.inj hc).1 (h .single)
  · rfl

theorem exists_mark_or_ne (c : Char) : (∃ q : Quote, c = q.mark) ∨ ∀ q : Quote, c ≠ q.mark := by
  by_cases h : ∃ q : Quote, c = q.mark
  · exact .inl h
  · exact .inr fun q hq => h ⟨q, hq⟩

theorem quoted?_eq_none_iff {c : Char} : quoted? (c :: cs) = none ↔ ∀ q : Quote, c = q.mark → q.mark ∉ cs := by
  rcases exists_mark_or_ne c with ⟨q, rfl⟩ | hne
  · rw [quoted?_mark, closing?_eq_none_iff]
    constructor
    · intro hq q' he
      rw [← he]
      exact hq
    · intro hall
      exact hall q rfl
  · constructor
    · intro _ q hq
      exact absurd hq (hne q)
    · intro _
      exact quoted?_of_ne hne cs

theorem eq_of_quoted? (h : quoted? cs = some (inside, rest)) :
    ∃ q : Quote, cs = q.mark :: (inside ++ q.mark :: rest) ∧ q.mark ∉ inside := by
  cases cs with
  | nil => cases h
  | cons c cs =>
    rcases exists_mark_or_ne c with ⟨q, rfl⟩ | hne
    · rw [quoted?_mark] at h
      obtain ⟨hcs, hi⟩ := eq_of_closing? h
      exact ⟨q, by rw [hcs], hi⟩
    · rw [quoted?_of_ne hne] at h
      cases h

end

/-! ## One step of the reading -/

section
variable {c : Char} {cs inside rest : List Char}

theorem Quote.mark_ne_space (q : Quote) : q.mark ≠ ' ' := by cases q <;> decide

theorem tokenize_space (cs : List Char) : tokenize (' ' :: cs) = tokenize cs := by
  rw [tokenize, if_pos rfl]

theorem tokenize_of_quoted (hc : c ≠ ' ') (h : quoted? (c :: cs) = some (inside, rest)) :
    tokenize (c :: cs) = inside :: tokenize rest := by
  rw [tokenize, if_neg hc]
  split
  · rename_i h'
    rw [h] at h'
    cases h'
    rfl
  · rename_i h'
    rw [h] at h'
    cases h'

theorem tokenize_of_bare (hc : c ≠ ' ') (h : quoted? (c :: cs) = none) :
    tokenize (c :: cs) = (c :: bare cs) :: tokenize (afterBare cs) := by
  rw [tokenize, if_neg hc]
  split
  · rename_i h'
    rw [h] at h'
    cases h'
  · rfl

theorem tokenize_spaces (n : Nat) (cs : List Char) : tokenize (spaces n ++ cs) = tokenize cs := by
  induction n with
  | zero => rfl
  | succ n ih =>
    have hs : spaces (n + 1) ++ cs = ' ' :: (spaces n ++ cs) := rfl
    rw [hs, tokenize_space, ih]

/-- A bare word reaches up to the space after it. -/
theorem bare_append (hl : ' ' ∉ inside) (hr : rest = [] ∨ rest.head? = some ' ') :
    bare (inside ++ rest) = inside ∧ afterBare (inside ++ rest) = rest := by
  have hall : ∀ c ∈ inside, (c != ' ') = true := by
    intro c hc
    have hne : c ≠ ' ' := fun he => hl (he ▸ hc)
    simpa using hne
  unfold bare afterBare
  rw [List.takeWhile_append_of_pos hall, List.dropWhile_append_of_pos hall]
  rcases hr with rfl | hr
  · simp
  · obtain ⟨rest', rfl⟩ := List.head?_eq_some_iff.1 hr
    simp

end

/-! ## Cutting a line -/

/-- **A piece is read as its word**, and the reading goes on after it. -/
theorem tokenize_piece {p : Piece} {rest : List Char} (h : p.Stands rest) :
    tokenize (p.text ++ rest) = p.word :: tokenize rest := by
  cases p with
  | quoted q inside =>
    have hq : quoted? (q.mark :: (inside ++ q.mark :: rest)) = some (inside, rest) := by
      rw [quoted?_mark]
      exact closing?_of_notMem h
    have htext : (Piece.quoted q inside).text ++ rest = q.mark :: (inside ++ q.mark :: rest) := by simp [Piece.text]
    rw [htext]
    exact tokenize_of_quoted q.mark_ne_space hq
  | bare letters =>
    obtain ⟨hne, hspace, hrest, hquote⟩ := h
    obtain ⟨c, letters, rfl⟩ := List.exists_cons_of_ne_nil hne
    have hc : c ≠ ' ' := fun hc => hspace (by simp [hc])
    have hl : ' ' ∉ letters := fun hm => hspace (List.mem_cons_of_mem _ hm)
    have hnone : quoted? (c :: (letters ++ rest)) = none := by
      rw [quoted?_eq_none_iff]
      intro q hq
      exact hquote q (by rw [hq]; rfl)
    obtain ⟨hbare, hafter⟩ := bare_append hl hrest
    show tokenize (c :: (letters ++ rest)) = (c :: letters) :: tokenize rest
    rw [tokenize_of_bare hc hnone, hbare, hafter]

/-- **The tokens of a line are the words of its pieces**, whichever way it is cut into them. -/
theorem tokenize_spell : ∀ {pieces : List (Piece × Nat)}, AllStand pieces →
    tokenize (spell pieces) = pieces.map (·.1.word)
  | [], _ => by simp [spell, tokenize]
  | (p, gap) :: rest, ⟨hp, hrest⟩ => by
    rw [spell, tokenize_piece hp, tokenize_spaces, tokenize_spell hrest, List.map_cons]

theorem exists_bare {c : Char} {cs : List Char} (hc : c ≠ ' ') (h : quoted? (c :: cs) = none) :
    (Piece.bare (c :: bare cs)).Stands (afterBare cs) ∧ c :: bare cs ++ afterBare cs = c :: cs := by
  have hcs : bare cs ++ afterBare cs = cs := List.takeWhile_append_dropWhile
  have hspace : ' ' ∉ bare cs := by
    intro hm
    have := List.all_eq_true.1 (List.all_takeWhile (p := (· != ' ')) (l := cs)) ' ' hm
    simp at this
  refine ⟨⟨by simp, ?_, ?_, ?_⟩, by rw [List.cons_append, hcs]⟩
  · simp [Ne.symm hc, hspace]
  · cases hr : afterBare cs with
    | nil => exact .inl rfl
    | cons d rest =>
      have := List.head?_dropWhile_not (p := (· != ' ')) (l := cs)
      rw [show cs.dropWhile (· != ' ') = d :: rest from hr] at this
      exact .inr (by simpa using this)
  · intro q hq
    rw [List.tail_cons, hcs]
    exact quoted?_eq_none_iff.1 h q (by simpa using hq)

/-- **Every line can be cut into pieces.** -/
theorem exists_spelling (cs : List Char) : ∃ s : Spelling, s.text = cs ∧ AllStand s.pieces := by
  fun_induction tokenize cs with
  | case1 => exact ⟨⟨0, []⟩, rfl, trivial⟩
  | case2 cs ih =>
    obtain ⟨s, rfl, hs⟩ := ih
    exact ⟨⟨s.lead + 1, s.pieces⟩, rfl, hs⟩
  | case3 c cs hc inside rest h ih =>
    obtain ⟨s, rfl, hs⟩ := ih
    obtain ⟨q, hq, hi⟩ := eq_of_quoted? h
    refine ⟨⟨0, (.quoted q inside, s.lead) :: s.pieces⟩, ?_, hi, hs⟩
    rw [hq]
    simp [Spelling.text, spaces, spell, Piece.text]
  | case4 c cs hc h ih =>
    obtain ⟨s, hs, hall⟩ := ih
    obtain ⟨hp, hcs⟩ := exists_bare hc h
    refine ⟨⟨0, (.bare (c :: bare cs), s.lead) :: s.pieces⟩, ?_, ?_, hall⟩
    · show c :: bare cs ++ s.text = c :: cs
      rw [hs, hcs]
    · show (Piece.bare (c :: bare cs)).Stands s.text
      rw [hs]
      exact hp

theorem Spelling.tokenize_line (s : Spelling) (h : AllStand s.pieces) : tokenizeSetting (some s.line) = s.words := by
  have hread : tokenize s.line.toList = s.pieces.map (·.1.word) := by
    rw [Spelling.line, String.toList_ofList, Spelling.text, tokenize_spaces, tokenize_spell h]
  unfold tokenizeSetting Spelling.words
  simp only [hread, List.map_map]
  rfl

/-! ## What is not lost -/

/-- A character that is part of a word wherever it stands. -/
def isLetter (c : Char) : Bool := c ≠ ' ' && c ≠ '"' && c ≠ '\''

theorem isLetter_mark (q : Quote) : isLetter q.mark = false := by cases q <;> rfl

theorem filter_spaces (n : Nat) : (spaces n).filter isLetter = [] := by
  unfold spaces
  rw [List.filter_replicate]
  rfl

theorem Piece.word_sublist (p : Piece) : p.word.Sublist p.text := by
  cases p with
  | quoted q inside => exact (List.sublist_append_left inside [q.mark]).cons q.mark
  | bare letters => exact List.Sublist.refl letters

theorem Piece.filter_text (p : Piece) : p.text.filter isLetter = p.word.filter isLetter := by
  cases p with
  | quoted q inside =>
    have hq := isLetter_mark q
    simp [text, word, List.filter_append, hq]
  | bare letters => rfl

theorem words_sublist_spell : ∀ pieces : List (Piece × Nat), (pieces.flatMap (·.1.word)).Sublist (spell pieces)
  | [] => List.Sublist.refl []
  | (p, gap) :: rest => by
    rw [List.flatMap_cons, spell]
    exact p.word_sublist.append ((words_sublist_spell rest).trans (List.sublist_append_right _ _))

theorem filter_spell : ∀ pieces : List (Piece × Nat),
    (spell pieces).filter isLetter = (pieces.flatMap (·.1.word)).filter isLetter
  | [] => rfl
  | (p, gap) :: rest => by
    rw [List.flatMap_cons, spell, List.filter_append, List.filter_append, List.filter_append, p.filter_text,
      filter_spaces, List.nil_append, filter_spell rest]

theorem Spelling.flatMap_words (s : Spelling) : s.words.flatMap String.toList = s.pieces.flatMap (·.1.word) := by
  unfold Spelling.words
  rw [List.flatMap_map]
  congr 1
  funext x
  exact String.toList_ofList

/-! ## Writing words -/

theorem spaces_append_head (gap : Nat) {cs : List Char} (h : 0 < gap ∨ cs = []) :
    spaces gap ++ cs = [] ∨ (spaces gap ++ cs).head? = some ' ' := by
  cases gap with
  | zero =>
    have hcs : cs = [] := h.resolve_left (Nat.lt_irrefl 0)
    exact .inl (by rw [hcs]; rfl)
  | succ n => exact .inr rfl

theorem Piece.Plain.stands {p : Piece} {rest : List Char} (h : p.Plain) (hr : rest = [] ∨ rest.head? = some ' ') :
    p.Stands rest := by
  cases p with
  | quoted q inside => exact h
  | bare letters =>
    obtain ⟨hne, hspace, hquote⟩ := h
    exact ⟨hne, hspace, hr, fun q hq => absurd hq (hquote q)⟩

theorem allStand_of_plain : ∀ {pieces : List (Piece × Nat)}, (∀ x ∈ pieces, x.1.Plain) →
    (∀ x ∈ pieces.dropLast, 0 < x.2) → AllStand pieces
  | [], _, _ => trivial
  | [(p, gap)], hplain, _ => ⟨(hplain _ List.mem_cons_self).stands (spaces_append_head gap (.inr rfl)), trivial⟩
  | (p, gap) :: x :: rest, hplain, hapart => by
    have hgap : 0 < gap := hapart (p, gap) (by simp)
    refine ⟨(hplain _ List.mem_cons_self).stands (spaces_append_head gap (.inl hgap)), ?_⟩
    apply allStand_of_plain
    · intro y hy
      exact hplain y (List.mem_cons_of_mem _ hy)
    · intro y hy
      exact hapart y (by rw [List.dropLast_cons_cons]; exact List.mem_cons_of_mem _ hy)

/-- A quote that does not occur in the word, if there is one. -/
def Quote.sparing (word : List Char) : Quote := if '"' ∈ word then .single else .double

theorem Quote.notMem_sparing {word : List Char} (h : ∃ q : Quote, q.mark ∉ word) : (sparing word).mark ∉ word := by
  unfold sparing
  by_cases hd : '"' ∈ word
  · rw [if_pos hd]
    obtain ⟨q, hq⟩ := h
    cases q with
    | double => exact absurd hd hq
    | single => exact hq
  · rw [if_neg hd]
    exact hd

/-- Words in quotes, one space after each. -/
def Spelling.ofWords (words : List String) : Spelling :=
  ⟨0, words.map fun w => (.quoted (.sparing w.toList) w.toList, 1)⟩

theorem Spelling.words_ofWords (words : List String) : (ofWords words).words = words := by
  simp [Spelling.words, ofWords, Piece.word, Function.comp_def]

theorem Spelling.setOff_ofWords {words : List String} (h : ∀ w ∈ words, ∃ q : Quote, q.mark ∉ w.toList) :
    (ofWords words).SetOff := by
  constructor
  · intro x hx
    obtain ⟨w, hw, rfl⟩ := List.mem_map.1 hx
    exact Quote.notMem_sparing (h w hw)
  · intro x hx
    obtain ⟨w, -, rfl⟩ := List.mem_map.1 (List.dropLast_subset _ hx)
    exact Nat.one_pos

/-- **The words of a line.**  Every line is pieces with runs of spaces around them, in quotes or bare, and is read as
the words of these pieces however it is cut into them; so nothing but quotes and spaces is lost on the way, and nothing
is moved.  Every list of words each of which spares one of the two quotes can be written with its words set off by
spaces, and all lines that are written so are read back as the list. -/
theorem words_as_spelled :
    (∀ line : String, ∃ s : Spelling, s.line = line ∧ AllStand s.pieces) ∧
    (∀ s : Spelling, AllStand s.pieces → tokenizeSetting (some s.line) = s.words) ∧
    (∀ line : String, ((tokenizeSetting (some line)).flatMap String.toList).Sublist line.toList ∧
      ((tokenizeSetting (some line)).flatMap String.toList).filter isLetter = line.toList.filter isLetter) ∧
    ∀ words : List String, (∀ w ∈ words, ∃ q : Quote, q.mark ∉ w.toList) →
      (∃ s : Spelling, s.words = words ∧ s.SetOff) ∧
      ∀ s : Spelling, s.words = words → s.SetOff → tokenizeSetting (some s.line) = words := by
  have hcut : ∀ line : String, ∃ s : Spelling, s.line = line ∧ AllStand s.pieces := by
    intro line
    obtain ⟨s, hs, hall⟩ := exists_spelling line.toList
    exact ⟨s, by rw [Spelling.line, hs, String.ofList_toList], hall⟩
  refine ⟨hcut, Spelling.tokenize_line, fun line => ?_, fun words hspared => ⟨?_, ?_⟩⟩
  · obtain ⟨s, rfl, hall⟩ := hcut line
    rw [s.tokenize_line hall, s.flatMap_words, Spelling.line, String.toList_ofList, Spelling.text]
    constructor
    · exact (words_sublist_spell s.pieces).trans (List.sublist_append_right _ _)
    · rw [List.filter_append, filter_spaces, List.nil_append, filter_spell]
  · exact ⟨.ofWords words, Spelling.words_ofWords words, Spelling.setOff_ofWords hspared⟩
  · intro s hs hset
    rw [s.tokenize_line (allStand_of_plain hset.plain hset.apart), hs]

theorem words_as_spelled_mixed :
    tokenizeSetting (some "\"x y\"\"z ") = ["x y", "\"z"] ∧
    tokenizeSetting (some "  a\"b 'c  d'   \"\" \"it's\"") = ["a\"b", "c  d", "", "it's"] := by
  obtain ⟨-, hread, -, hwrite⟩ := words_as_spelled
  constructor
  · -- a word in quotes, and right after it a quote that stays open
    exact hread ⟨0, [(.quoted .double "x y".toList, 0), (.bare "\"z".toList, 1)]⟩ (by decide)
  · exact (hwrite ["a\"b", "c  d", "", "it's"] fun w hw => ⟨.sparing w.toList, by revert w; decide⟩).2
      ⟨2, [(.bare "a\"b".toList, 1), (.quoted .single "c  d".toList, 3), (.quoted .double [], 1),
        (.quoted .double "it's".toList, 0)]⟩ rfl ⟨by decide, by decide⟩

end Recheck
