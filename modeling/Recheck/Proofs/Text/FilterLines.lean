import Mathlib.Data.List.DropRight
import Recheck.Filters
/-!
# Lines of filter files

A line of a filter file stands for the name on it, if there is one.  A comment at its end, white space around it and a
carriage return before its end do not change the name (`nameOfLine_comment`, `nameOfLine_pad`), so the names of a text
are those of its lines, one line after the other (`parse_joinWith`), however the lines are ended (`parse_eq_lines`).  A
name is a line that has itself as its name (`nameOfLine_of_isFilter`).
-/
namespace Recheck

/-! ## Trimming -/

/-- A text neither begins nor ends with white space. -/
structure Trimmed (cs : List Char) : Prop where
  head : ∀ c, cs.head? = some c → isBlank c = false
  last : ∀ c, cs.getLast? = some c → isBlank c = false

section
variable {cs left right : List Char}

theorem dropWhileEnd_eq (p : Char → Bool) (cs : List Char) : dropWhileEnd p cs = cs.rdropWhile p := rfl

theorem mem_of_mem_trimBlank {c : Char} (h : c ∈ trimBlank cs) : c ∈ cs :=
  (List.dropWhile_sublist _).subset ((List.rdropWhile_prefix isBlank _).subset h)

theorem trimmed_trimBlank (cs : List Char) : Trimmed (trimBlank cs) := by
  rw [trimBlank, dropWhileEnd_eq]
  constructor
  · intro c hc
    -- what is left is not empty, so it begins with what the text begins with that is trimmed in front only
    obtain ⟨rest, hrest⟩ := List.rdropWhile_prefix isBlank (l := cs.dropWhile isBlank)
    have hfirst : (cs.dropWhile isBlank).head? = some c := by
      rw [← hrest, List.head?_append, hc]
      rfl
    have hblank := List.head?_dropWhile_not isBlank cs
    rw [hfirst] at hblank
    simpa using hblank
  · intro c hc
    have hne : (cs.dropWhile isBlank).rdropWhile isBlank ≠ [] := fun hnil => by rw [hnil] at hc; cases hc
    rw [List.getLast?_eq_some_getLast hne, Option.some.injEq] at hc
    rw [← hc]
    exact Bool.eq_false_iff.2 (List.rdropWhile_last_not isBlank _ hne)

theorem trimBlank_of_trimmed (h : Trimmed cs) : trimBlank cs = cs := by
  have hlead : cs.dropWhile isBlank = cs := by
    cases cs with
    | nil => rfl
    | cons c cs => exact List.dropWhile_cons_of_neg (by rw [h.head c rfl]; decide)
  rw [trimBlank, hlead, dropWhileEnd_eq, List.rdropWhile_eq_self_iff]
  intro hne
  rw [h.last _ (List.getLast?_eq_some_getLast hne)]
  decide

/-- White space around a text is gone when it is trimmed. -/
theorem trimBlank_pad (hl : ∀ c ∈ left, isBlank c = true) (hr : ∀ c ∈ right, isBlank c = true) :
    trimBlank (left ++ cs ++ right) = trimBlank cs := by
  have hr' : ∀ c ∈ right.reverse, isBlank c = true := fun c hc => hr c (List.mem_reverse.1 hc)
  rw [trimBlank, List.append_assoc, List.dropWhile_append_of_pos hl, List.dropWhile_append]
  split
  · rename_i hblank
    rw [trimBlank, List.isEmpty_iff.1 hblank, List.dropWhile_eq_nil_iff.2 hr]
  · rw [trimBlank, dropWhileEnd, List.reverse_append, List.dropWhile_append_of_pos hr']
    rfl

end

namespace Filters

/-! ## The name on a line -/

/-- What a filter file can name: a text without comment and line ends, and without white space around it. -/
structure IsFilter (name : List Char) : Prop where
  ne_nil : name ≠ []
  no_comment : '#' ∉ name
  no_newline : '\n' ∉ name
  trimmed : Trimmed name

section
variable {line left right name : List Char}

theorem ne_comment_of_isBlank {c : Char} (h : isBlank c = true) : (c != '#') = true := by
  rw [bne_iff_ne]
  rintro rfl
  exact absurd h (by decide)

/-- What comes before the comment, when more is written behind a line. -/
theorem takeWhile_append_cases (line right : List Char) :
    (line ++ right).takeWhile (· != '#') = line.takeWhile (· != '#') ++ right.takeWhile (· != '#') ∨
      (line ++ right).takeWhile (· != '#') = line.takeWhile (· != '#') := by
  rw [List.takeWhile_append]
  split
  · rename_i hfull
    have hline : line.takeWhile (· != '#') = line := (List.takeWhile_sublist _).eq_of_length hfull
    exact .inl (by rw [hline])
  · exact .inr rfl

/-- **A comment does not change the name on a line.** -/
theorem nameOfLine_comment (line comment : List Char) : nameOfLine (line ++ '#' :: comment) = nameOfLine line := by
  have hnone : ('#' :: comment).takeWhile (· != '#') = [] := List.takeWhile_cons_of_neg (by decide)
  rw [nameOfLine, nameOfLine]
  obtain h | h := takeWhile_append_cases line ('#' :: comment)
  · rw [h, hnone, List.append_nil]
  · rw [h]

/-- **White space around a line does not change its name.** -/
theorem nameOfLine_pad (hl : ∀ c ∈ left, isBlank c = true) (hr : ∀ c ∈ right, isBlank c = true) :
    nameOfLine (left ++ line ++ right) = nameOfLine line := by
  have hright : right.takeWhile (· != '#') = right :=
    List.takeWhile_eq_self_iff.2 fun c hc => ne_comment_of_isBlank (hr c hc)
  rw [nameOfLine, nameOfLine, List.append_assoc,
    List.takeWhile_append_of_pos fun c hc => ne_comment_of_isBlank (hl c hc)]
  obtain h | h := takeWhile_append_cases line right
  · rw [h, hright, ← List.append_assoc, trimBlank_pad hl hr]
  · rw [h]
    simpa only [List.append_nil] using @trimBlank_pad (line.takeWhile (· != '#')) left [] hl nofun

theorem nameOfLine_append (hr : ∀ c ∈ right, isBlank c = true) : nameOfLine (line ++ right) = nameOfLine line :=
  @nameOfLine_pad line [] right nofun hr

theorem nameOfLine_return : nameOfLine (line ++ ['\r']) = nameOfLine line :=
  nameOfLine_append fun c hc => by rw [List.mem_singleton.1 hc]; decide

theorem mem_of_mem_nameOfLine {c : Char} (h : c ∈ nameOfLine line) : c ∈ line ∧ c ≠ '#' := by
  have hbefore := mem_of_mem_trimBlank h
  refine ⟨(List.takeWhile_sublist _).subset hbefore, ?_⟩
  have := List.all_eq_true.1 List.all_takeWhile c hbefore
  exact bne_iff_ne.1 this

theorem nameOfLine_of_isFilter (h : IsFilter name) : nameOfLine name = name := by
  have hall : name.takeWhile (· != '#') = name :=
    List.takeWhile_eq_self_iff.2 fun c hc => bne_iff_ne.2 fun heq => h.no_comment (heq ▸ hc)
  rw [nameOfLine, hall, trimBlank_of_trimmed h.trimmed]

/-! ## Line by line -/

/-- The names on some lines. -/
def names (lines : List (List Char)) : List (List Char) := (lines.map nameOfLine).filter (!·.isEmpty)

theorem parse_eq (text : List Char) : parse text = names (splitOn '\n' text) := rfl

theorem names_append (ls ms : List (List Char)) : names (ls ++ ms) = names ls ++ names ms := by
  rw [names, List.map_append, List.filter_append]
  rfl

theorem names_congr {before after : List (List Char)} {line' : List Char} (h : nameOfLine line' = nameOfLine line) :
    names (before ++ line' :: after) = names (before ++ line :: after) := by
  rw [names, names, List.map_append, List.map_append, List.map_cons, List.map_cons, h]

theorem parse_append_newline (a b : List Char) : parse (a ++ '\n' :: b) = parse a ++ parse b := by
  rw [parse_eq, splitOn_append_cons, names_append]
  rfl

theorem parse_of_no_newline (h : '\n' ∉ line) : parse line = names [line] := by
  rw [parse_eq, splitOn_of_notMem _ _ h]

/-- **The names of a text are those on its lines**, of whatever lines it is put together. -/
theorem parse_joinWith : ∀ {lines : List (List Char)}, (∀ line ∈ lines, '\n' ∉ line) →
    parse (joinWith ['\n'] lines) = names lines
  | [], _ => rfl
  | [line], h => parse_of_no_newline (h line List.mem_cons_self)
  | line :: next :: rest, h => by
    rw [joinWith, List.append_assoc, List.singleton_append, parse_append_newline,
      parse_joinWith fun l hl => h l (List.mem_cons_of_mem _ hl), parse_of_no_newline (h line List.mem_cons_self),
      ← names_append]
    rfl

/-- Another line with the same name may stand in a line's place. -/
theorem parse_of_splitOn {text line' : List Char} {before after : List (List Char)}
    (h : splitOn '\n' text = before ++ line :: after) (hn : '\n' ∉ line')
    (hname : nameOfLine line' = nameOfLine line) :
    parse (joinWith ['\n'] (before ++ line' :: after)) = parse text := by
  have hlines : ∀ l ∈ before ++ line :: after, '\n' ∉ l := h ▸ notMem_of_mem_splitOn '\n' text
  have hlines' : ∀ l ∈ before ++ line' :: after, '\n' ∉ l := by
    intro l hl
    obtain hb | rfl | ha := by simpa using hl
    · exact hlines l (List.mem_append_left _ hb)
    · exact hn
    · exact hlines l (List.mem_append_right _ (List.mem_cons_of_mem _ ha))
  rw [parse_joinWith hlines', parse_eq, h, names_congr hname]

theorem isFilter_of_mem_parse {text : List Char} (h : name ∈ parse text) : IsFilter name := by
  obtain ⟨hmem, hne⟩ := List.mem_filter.1 h
  obtain ⟨line, hline, rfl⟩ := List.mem_map.1 hmem
  refine ⟨fun hnil => ?_, fun hc => (mem_of_mem_nameOfLine hc).2 rfl, fun hc => ?_, trimmed_trimBlank _⟩
  · rw [hnil] at hne
    cases hne
  · exact notMem_of_mem_splitOn '\n' text line hline (mem_of_mem_nameOfLine hc).1

/-- **Names are read back from a file with one name a line.** -/
theorem parse_joinWith_of_isFilter {ns : List (List Char)} (h : ∀ name ∈ ns, IsFilter name) :
    parse (joinWith ['\n'] ns) = ns := by
  have hnames : ns.map nameOfLine = ns :=
    (List.map_congr_left fun name hn => nameOfLine_of_isFilter (h name hn)).trans (List.map_id' ns)
  rw [parse_joinWith fun name hn => (h name hn).no_newline, names, hnames, List.filter_eq_self]
  exact fun name hn => by simpa using (h name hn).ne_nil

end

/-! ## Line ends -/

/-- A line without the carriage return at its end. -/
def withoutReturn (line : List Char) : List Char := if line.getLast? = some '\r' then line.dropLast else line

/-- The lines of a text, each ended by a newline or by a carriage return and a newline.  What stands after the last
newline is a line only if there is something, and it has no end. -/
def lines (text : List Char) : List (List Char) :=
  (splitOn '\n' text).dropLast.map withoutReturn ++ ((splitOn '\n' text).getLast?.filter (!·.isEmpty)).toList

theorem nameOfLine_withoutReturn (line : List Char) : nameOfLine (withoutReturn line) = nameOfLine line := by
  rw [withoutReturn]
  split
  · rename_i hlast
    obtain ⟨rest, rfl⟩ := List.getLast?_eq_some_iff.1 hlast
    rw [List.dropLast_concat]
    exact nameOfLine_return.symm
  · rfl

/-- **However its lines are ended, a text has the names on them.** -/
theorem parse_eq_lines (text : List Char) : parse text = names (lines text) := by
  obtain ⟨init, last, hs⟩ : ∃ init last, splitOn '\n' text = init ++ [last] :=
    ⟨_, _, (List.dropLast_append_getLast (splitOn_ne_nil '\n' text)).symm⟩
  have hinit : names (init.map withoutReturn) = names init := by
    rw [names, List.map_map, names]
    exact congrArg _ (List.map_congr_left fun line _ => nameOfLine_withoutReturn line)
  have hlast : names ((some last).filter (!·.isEmpty)).toList = names [last] := by
    cases last <;> rfl
  rw [parse_eq, lines, hs, names_append, names_append, List.dropLast_concat, List.getLast?_concat, hinit, hlast]

theorem joinWith_concat_append (sep last more : List Char) : ∀ init : List (List Char),
    joinWith sep (init ++ [last ++ more]) = joinWith sep (init ++ [last]) ++ more
  | []        => rfl
  | p :: init => by
    have hne : ∀ piece : List Char, init ++ [piece] ≠ [] := fun piece => List.append_ne_nil_of_right_ne_nil _ nofun
    rw [List.cons_append, List.cons_append, joinWith_cons_of_ne_nil (hne _), joinWith_cons_of_ne_nil (hne _),
      joinWith_concat_append sep last more init]
    simp only [List.append_assoc]

/-- A carriage return at the very end is white space behind the last line. -/
theorem parse_append_return (text : List Char) : parse (text ++ ['\r']) = parse text := by
  obtain ⟨init, last, hs⟩ : ∃ init last, splitOn '\n' text = init ++ [last] :=
    ⟨_, _, (List.dropLast_append_getLast (splitOn_ne_nil '\n' text)).symm⟩
  have hlast : '\n' ∉ last := notMem_of_mem_splitOn '\n' text last (by rw [hs]; simp)
  have hend : '\n' ∉ last ++ ['\r'] := by simpa using hlast
  have := parse_of_splitOn hs hend nameOfLine_return
  rwa [joinWith_concat_append, ← hs, joinWith_splitOn] at this

/-! ## On strings -/

/-- The lines of a text, without the newlines between them. -/
def textLines (text : String) : List String := (splitOn '\n' text.toList).map String.ofList

theorem toList_joinTexts (lines : List String) :
    (joinTexts "\n" lines).toList = joinWith ['\n'] (lines.map String.toList) := String.toList_ofList

theorem splitOn_of_textLines {text : String} {ls : List String} (h : textLines text = ls) :
    splitOn '\n' text.toList = ls.map String.toList := by
  rw [← h, textLines, List.map_map]
  exact ((List.map_congr_left fun line _ => String.toList_ofList).trans (List.map_id' _)).symm

theorem parseText_append_newline (text other : String) :
    parseText (text ++ "\n" ++ other) = parseText text ++ parseText other := by
  rw [parseText, String.toList_append, String.toList_append, List.append_assoc]
  exact (congrArg _ (parse_append_newline _ _)).trans List.map_append

theorem parseText_parseText (text : String) : parseText (joinTexts "\n" (parseText text)) = parseText text := by
  have hback : (parse text.toList).map (String.toList ∘ String.ofList) = parse text.toList :=
    (List.map_congr_left fun name _ => String.toList_ofList).trans (List.map_id' _)
  rw [parseText, toList_joinTexts, parseText, List.map_map, hback,
    parse_joinWith_of_isFilter fun name hn => isFilter_of_mem_parse hn]

theorem parseText_append_return (text : String) : parseText (text ++ "\r\n") = parseText text := by
  have := (parse_append_newline (text.toList ++ ['\r']) []).trans (List.append_nil _)
  rw [parse_append_return, List.append_assoc] at this
  rw [parseText, String.toList_append]
  exact congrArg _ this

section
variable {text line ending : String} {before after : List String}
  (h : textLines text = before ++ (line ++ ending) :: after) (he : ending = "" ∨ ending = "\r")

include he in
theorem blank_of_mem_ending : ∀ c ∈ ending.toList, isBlank c = true ∧ c ≠ '\n' := by
  obtain rfl | rfl := he
  · exact fun c hc => by cases hc
  · exact List.forall_mem_singleton.2 (by decide)

include h in
theorem no_newline_of_textLines : '\n' ∉ line.toList ++ ending.toList := by
  have hs := splitOn_of_textLines h
  rw [← String.toList_append]
  exact notMem_of_mem_splitOn '\n' text.toList _ (by rw [hs]; simp)

include h he

/-- Another line with the same name may stand in a line's place. -/
theorem parseText_of_textLines {line' : String} (hn : '\n' ∉ line'.toList)
    (hname : nameOfLine line'.toList = nameOfLine line.toList) :
    parseText (joinTexts "\n" (before ++ line' :: after)) = parseText text := by
  have hs := splitOn_of_textLines h
  rw [List.map_append, List.map_cons, String.toList_append] at hs
  have hname' : nameOfLine line'.toList = nameOfLine (line.toList ++ ending.toList) := by
    rw [hname, nameOfLine_append fun c hc => (blank_of_mem_ending he c hc).1]
  rw [parseText, toList_joinTexts, List.map_append, List.map_cons, parse_of_splitOn hs hn hname']
  rfl

theorem parseText_comment {comment : String} (hc : '\n' ∉ comment.toList) :
    parseText (joinTexts "\n" (before ++ (line ++ "#" ++ comment ++ ending) :: after)) = parseText text := by
  have hnewline := no_newline_of_textLines h
  rw [List.mem_append, not_or] at hnewline
  refine parseText_of_textLines h he ?_ ?_
  · simp [hnewline, hc]
  · simpa using nameOfLine_comment line.toList (comment.toList ++ ending.toList)

theorem parseText_pad {left right : String} (hb : ∀ c ∈ left.toList ++ right.toList, isBlank c = true ∧ c ≠ '\n') :
    parseText (joinTexts "\n" (before ++ (left ++ line ++ right ++ ending) :: after)) = parseText text := by
  have hnewline := no_newline_of_textLines h
  rw [List.mem_append, not_or] at hnewline
  refine parseText_of_textLines h he ?_ ?_
  · have hleft : '\n' ∉ left.toList := fun hm => (hb _ (List.mem_append_left _ hm)).2 rfl
    have hright : '\n' ∉ right.toList := fun hm => (hb _ (List.mem_append_right _ hm)).2 rfl
    simp [hnewline, hleft, hright]
  · rw [String.toList_append, nameOfLine_append fun c hc => (blank_of_mem_ending he c hc).1, String.toList_append,
      String.toList_append]
    exact nameOfLine_pad (fun c hc => (hb c (List.mem_append_left _ hc)).1)
      fun c hc => (hb c (List.mem_append_right _ hc)).1

theorem parseText_return : parseText (joinTexts "\n" (before ++ (line ++ "\r") :: after)) = parseText text := by
  have hnewline := no_newline_of_textLines h
  rw [List.mem_append, not_or] at hnewline
  refine parseText_of_textLines h he ?_ ?_
  · simpa using hnewline.1
  · rw [String.toList_append, show "\r".toList = ['\r'] from rfl, nameOfLine_return]

end

/-- **How a filter file is read.**  It has the names on its lines.  Two texts, one below the other, have the names of the
one and then those of the other.  Every name is there for itself: not empty, without a comment or a line end and without
white space around it.  Written one a line, names are read back.  Comments, white space around lines and carriage returns
at their ends do not count, on any line of any text. -/
theorem filters_line_by_line (text : String) :
    parseText text = (names (lines text.toList)).map String.ofList ∧
    -- texts, one below the other
    (∀ other, parseText (text ++ "\n" ++ other) = parseText text ++ parseText other) ∧
    -- what is read, and that it is read again
    (∀ name ∈ parseText text, IsFilter name.toList) ∧
    parseText (joinTexts "\n" (parseText text)) = parseText text ∧
    -- any line, with or without a carriage return at its end
    (∀ before line ending after, textLines text = before ++ (line ++ ending) :: after → (ending = "" ∨ ending = "\r") →
      (∀ comment : String, '\n' ∉ comment.toList →
        parseText (joinTexts "\n" (before ++ (line ++ "#" ++ comment ++ ending) :: after)) = parseText text) ∧
      (∀ left right : String, (∀ c ∈ left.toList ++ right.toList, isBlank c = true ∧ c ≠ '\n') →
        parseText (joinTexts "\n" (before ++ (left ++ line ++ right ++ ending) :: after)) = parseText text) ∧
      parseText (joinTexts "\n" (before ++ (line ++ "\r") :: after)) = parseText text) ∧
    -- and so for an end after the last line
    parseText (text ++ "\r\n") = parseText text := by
  refine ⟨congrArg _ (parse_eq_lines _), parseText_append_newline text, fun name hn => ?_, parseText_parseText text,
    fun before line ending after h he => ?_, parseText_append_return text⟩
  · obtain ⟨chars, hc, rfl⟩ := List.mem_map.1 hn
    rw [String.toList_ofList]
    exact isFilter_of_mem_parse hc
  · exact ⟨fun _ hc => parseText_comment h he hc, fun _ _ hb => parseText_pad h he hb, parseText_return h he⟩

/-- A name with a comment behind it and a line that is only a comment, with carriage returns and without. -/
theorem filters_line_by_line_four :
    parseText " Foo # x\r\n#Bar\n\tBaz" = ["Foo", "Baz"] ∧
    parseText " Foo # x#y\r\n#Bar\n\tBaz" = ["Foo", "Baz"] ∧
    parseText " Foo # x\r\n\u00a0#Bar\t\n\tBaz" = ["Foo", "Baz"] ∧
    parseText " Foo # x\r\n#Bar\r\n\tBaz" = ["Foo", "Baz"] := by
  have hread : parseText " Foo # x\r\n#Bar\n\tBaz" = ["Foo", "Baz"] := by decide +kernel
  obtain ⟨-, -, -, -, hlines, -⟩ := filters_line_by_line " Foo # x\r\n#Bar\n\tBaz"
  obtain ⟨hcomment, -⟩ := hlines [] " Foo # x" "\r" ["#Bar", "\tBaz"] (by decide +kernel) (.inr rfl)
  obtain ⟨-, hpad, hreturn⟩ := hlines [" Foo # x\r"] "#Bar" "" ["\tBaz"] (by decide +kernel) (.inl rfl)
  rw [hread] at hcomment hpad hreturn
  have hblank : ∀ c ∈ "\u00a0".toList ++ "\t".toList, isBlank c = true ∧ c ≠ '\n' :=
    List.forall_mem_append.2 ⟨List.forall_mem_singleton.2 (by decide), List.forall_mem_singleton.2 (by decide)⟩
  exact ⟨hread, hcomment "y" (by decide), hpad "\u00a0" "\t" hblank, hreturn⟩

end Filters
end Recheck
