import Mathlib.Data.List.Lex
import Mathlib.Data.List.TakeWhile
import Recheck.Proofs.FileSystem.Parents
/-!
# Components of a path

What is left of a path when its spelling is taken away: where it starts, and the pieces that count.  Two paths of the
same components are one path in two spellings.  The path of an entry has one component more than that of its directory,
however the directory is spelled (`components_join`).  The file name of a path is its last component (`fileName?_eq`),
and its parent has those before that (`components_parent`).  Paths are ordered by their components, so the paths of the
entries of one directory are in the order of their names (`precedes_join_iff`).
-/
namespace Recheck
namespace Path
open FileSystem

inductive Component where
  | root
  | here
  | up
  | name (text : List Char)
  deriving DecidableEq

def Component.ofStep (s : List Char) : Component := if s = ['.', '.'] then up else name s

def Head.components : Head → List Component
  | root   => [.root]
  | here   => [.here]
  | unsaid => []

/-- The pieces that count. -/
def steps (p : Path) : List (List Char) := p.body.filter isStep

def components (p : Path) : List Component := p.head.components ++ p.steps.map .ofStep

/-- Two spellings of one path. -/
def Same (p q : Path) : Prop := p.components = q.components

/-- The path of an entry right below `p`: it has a name, and its parent is `p` in some spelling. -/
def ChildOf (q p : Path) : Prop := (∃ name, q.fileName? = some name) ∧ ∃ r, q.parent? = some r ∧ r.Same p

theorem steps_eq (p : Path) : p.steps = p.segments.filter isStep := by
  rw [steps, segments_eq, List.filter_append]
  cases p.head <;> rfl

/-- Where a path starts can be read off its first piece, once it is known not to start at the root. -/
theorem head_eq (p : Path) :
    p.head = if p.isAbsolute then .root else if p.segments.head? = some ['.'] then .here else .unsaid := by
  rw [head, isAbsolute, segments]
  cases p.text.toList with
  | nil => rfl
  | cons c cs =>
    obtain ⟨first, rest, hs⟩ := List.exists_cons_of_ne_nil (splitOn_ne_nil '/' cs)
    by_cases hc : c = '/'
    · simp [splitOn, hc, hs]
    · by_cases hdot : c = '.' ∧ first = []
      · simp [splitOn, hs, hdot]
      · simp only [splitOn, hc, hs, if_false, List.head?_cons, Option.some.injEq, List.cons.injEq, hdot]
        split <;> simp_all

section
variable {p : Path} {name : Name} (h : IsName name)
include h

theorem head_join : (p.join ⟨name⟩).head = p.head := by
  obtain ⟨pieces, hj, hp⟩ := segments_join p h
  have hname : name.toList ≠ ['.'] := fun hn => h.ne_here (String.toList_inj.1 hn)
  have hhere : (p.join ⟨name⟩).segments.head? = some ['.'] ↔ p.segments.head? = some ['.'] := by
    rw [hj]
    cases pieces with
    | nil =>
      obtain hp | hp := hp <;> simp [hp, hname]
    | cons first rest =>
      obtain hp | hp := hp <;> simp [hp]
  rw [head_eq, head_eq, isAbsolute_join p h]
  simp only [hhere]

theorem isStep_name : isStep name.toList = true := by
  have hempty : name.toList ≠ [] := fun hn => h.ne_empty (String.toList_inj.1 hn)
  have hhere : name.toList ≠ ['.'] := fun hn => h.ne_here (String.toList_inj.1 hn)
  simp [isStep, hempty, hhere]

theorem steps_join : (p.join ⟨name⟩).steps = p.steps ++ [name.toList] := by
  obtain ⟨pieces, hj, hp⟩ := segments_join p h
  have hpieces : p.segments.filter isStep = pieces.filter isStep := by
    obtain hp | hp := hp
    · rw [hp]
    · rw [hp, List.filter_append]
      exact List.append_nil _
  rw [steps_eq, steps_eq, hj, hpieces, List.filter_append, List.filter_cons_of_pos (isStep_name h), List.filter_nil]

/-- **The path of an entry has one component more than that of its directory.** -/
theorem components_join : (p.join ⟨name⟩).components = p.components ++ [.name name.toList] := by
  have hup : name.toList ≠ ['.', '.'] := fun hn => h.ne_up (String.toList_inj.1 hn)
  have hlast : Component.ofStep name.toList = .name name.toList := if_neg hup
  rw [components, components, head_join h, steps_join h, List.map_append, List.map_singleton, hlast, List.append_assoc]

end

theorem exists_segments_join (p : Path) {q : Path} (h : q.isAbsolute = false) :
    ∃ pieces, (p.join q).segments = pieces ++ q.segments := by
  rw [join, h]
  simp only [Bool.false_eq_true, if_false]
  by_cases he : p.text = ""
  · exact ⟨[], by simp [segments, he]⟩
  · by_cases hl : p.text.toList.getLast? = some '/'
    · obtain ⟨cs, hc⟩ := List.getLast?_eq_some_iff.1 hl
      exact ⟨splitOn '/' cs, by simp [segments, hc, splitOn_append_cons]⟩
    · exact ⟨p.segments, by simp [segments, he, hl, splitOn_append_cons]⟩

/-! ## The last component -/

theorem getLast?_steps (p : Path) : p.steps.getLast? = p.splitLast?.map Prod.snd := by
  rw [steps, ← List.head?_reverse, ← List.filter_reverse, List.head?_filter, List.find?_eq_head?_dropWhile_not,
    splitLast?]
  cases p.body.reverse.dropWhile (!isStep ·) <;> rfl

/-- The file name is the last piece that counts, unless it leads upwards. -/
theorem fileName?_eq (p : Path) :
    p.fileName? = p.steps.getLast?.bind fun s => if s = ['.', '.'] then none else some s := by
  rw [getLast?_steps, fileName?]
  cases p.splitLast? <;> rfl

/-- A path whose first piece counts does not say where it starts. -/
theorem head_of_step {p : Path} {s : List Char} {rest : List (List Char)} (hs : p.segments = s :: rest)
    (h : isStep s = true) : p.head = .unsaid := by
  rw [head, hs]
  split <;> simp_all [isStep]

theorem step_of_head {p : Path} {s t : List Char} {rest : List (List Char)} (hs : p.segments = s :: t :: rest)
    (h : p.head = .unsaid) : isStep s = true := by
  rw [head, hs] at h
  by_contra hstep
  obtain rfl | rfl := not_isStep.1 (Bool.eq_false_iff.2 hstep) <;> cases h

/-- A start and pieces that do not say themselves where to start make up a path of that start and these pieces. -/
theorem components_ofBody {h : Head} {b : List (List Char)} (hslash : ∀ s ∈ b, '/' ∉ s)
    (hstart : h = .unsaid → ∀ s, b.head? = some s → isStep s = true) :
    (ofBody h b).components = h.components ++ (b.filter isStep).map .ofStep := by
  rw [components, steps_eq]
  cases h with
  | root =>
    have hs := segments_ofBody_root hslash
    have hhead : (ofBody .root b).head = .root := by
      rw [head, hs]
      cases b <;> rfl
    rw [hhead, hs]
    cases b <;> rfl
  | here =>
    have hs := segments_ofBody_here hslash
    have hhead : (ofBody .here b).head = .here := by
      rw [head, hs]
      rfl
    rw [hhead, hs]
    rfl
  | unsaid =>
    cases b with
    | nil => rfl
    | cons s b =>
      have hs := segments_ofBody_unsaid hslash (List.cons_ne_nil s b)
      rw [head_of_step hs (hstart rfl s rfl), hs]

/-- **The parent of a path has all its components but the last.** -/
theorem components_parent {p : Path} {before : List (List Char)} {last : List Char}
    (hlast : p.splitLast? = some (before, last)) :
    (ofBody p.head before).components ++ [.ofStep last] = p.components := by
  obtain ⟨skipped, junk, hbody, hskipped, hjunk⟩ := splitLast?_some hlast
  have hnone : ∀ {l : List (List Char)}, (∀ s ∈ l, isStep s = false) → l.filter isStep = [] :=
    fun h => List.filter_eq_nil_iff.2 fun s hs => by simp [h s hs]
  have hsteps : p.steps = before.filter isStep ++ (last :: junk).filter isStep := by
    rw [steps, hbody, List.filter_append, List.filter_append, hnone hskipped, List.append_nil]
  have hstep : isStep last = true := by
    have h := getLast?_steps p
    rw [hlast] at h
    exact (List.mem_filter.1 (List.mem_of_getLast? h)).2
  have hslash : ∀ s ∈ before, '/' ∉ s := by
    intro s hs
    refine notMem_of_mem_splitOn '/' _ s (show s ∈ p.segments from ?_)
    rw [segments_eq, hbody]
    simp [hs]
  have hstart : p.head = .unsaid → ∀ s, before.head? = some s → isStep s = true := by
    intro hhead s hs
    obtain ⟨rest, rfl⟩ := List.head?_eq_some_iff.1 hs
    have hsegments : p.segments = s :: (rest ++ skipped ++ last :: junk) := by
      rw [segments_eq, hhead, hbody]
      simp [Head.pieces]
    -- the last piece comes after it, so it is not the only one
    obtain ⟨t, others, ht⟩ := List.exists_cons_of_ne_nil (show rest ++ skipped ++ last :: junk ≠ [] by simp)
    exact step_of_head (hsegments.trans (by rw [ht])) hhead
  rw [components_ofBody hslash hstart, components, hsteps, List.filter_cons_of_pos hstep, hnone hjunk]
  simp

/-- **What has a file name of its own keeps it**, from wherever it is seen. -/
theorem fileName?_join (p : Path) {q : Path} {n : List Char} (h : q.fileName? = some n) :
    (p.join q).fileName? = some n := by
  by_cases ha : q.isAbsolute
  · rw [join, if_pos ha, h]
  · obtain ⟨pieces, hj⟩ := exists_segments_join p (Bool.eq_false_iff.2 ha)
    rw [fileName?_eq, steps_eq] at h
    rw [fileName?_eq, steps_eq, hj, List.filter_append, List.getLast?_append]
    cases hq : (q.segments.filter isStep).getLast? with
    | none => rw [hq] at h; cases h
    | some s => rwa [hq] at h

theorem childOf_join (p : Path) {name : Name} (h : IsName name) : (p.join ⟨name⟩).ChildOf p := by
  have hup : name.toList ≠ ['.', '.'] := fun hn => h.ne_up (String.toList_inj.1 hn)
  have hsteps : (p.join ⟨name⟩).steps.getLast? = some name.toList := by
    rw [steps_join h, List.getLast?_concat]
  obtain ⟨⟨before, last⟩, hsplit, rfl⟩ := Option.map_eq_some_iff.1 ((getLast?_steps _).symm.trans hsteps)
  refine ⟨⟨name.toList, by rw [fileName?_eq, hsteps]; exact if_neg hup⟩, ofBody (p.join ⟨name⟩).head before, ?_, ?_⟩
  · rw [parent?, hsplit]
  · have hparent := components_parent hsplit
    rw [components_join h, Component.ofStep, if_neg hup] at hparent
    exact List.append_cancel_right hparent

/-! ## The order of paths -/

/-- Starts come before names, and the way up between the two. -/
def Component.rank : Component → Nat
  | root   => 0
  | here   => 1
  | up     => 2
  | name _ => 3

inductive Component.Precedes : Component → Component → Prop
  | rank {c d : Component} (h : c.rank < d.rank) : Precedes c d
  | name {s t : List Char} (h : s < t) : Precedes (.name s) (.name t)

/-- `p` comes before `q`: where they first differ it has the smaller component, or none. -/
def Precedes (p q : Path) : Prop := List.Lex Component.Precedes p.components q.components

theorem Component.precedes_name {s t : List Char} : (name s).Precedes (name t) ↔ s < t := by
  refine ⟨fun h => ?_, .name⟩
  cases h with
  | rank h => exact absurd h (Nat.lt_irrefl _)
  | name h => exact h

instance : Std.Irrefl Component.Precedes where
  irrefl c h := by
    cases h with
    | rank h => exact Nat.lt_irrefl _ h
    | name h => exact List.lt_irrefl _ h

/-- **The paths of the entries of one directory are in the order of their names.** -/
theorem precedes_join_iff (p : Path) {name name' : Name} (h : IsName name) (h' : IsName name') :
    (p.join ⟨name⟩).Precedes (p.join ⟨name'⟩) ↔ name < name' := by
  have hcut : ∀ shared c d : List Component, List.Lex Component.Precedes (shared ++ c) (shared ++ d) ↔
      List.Lex Component.Precedes c d := by
    intro shared c d
    induction shared with
    | nil => rfl
    | cons e shared ih => rw [List.cons_append, List.cons_append, List.lex_cons_iff, ih]
  rw [Precedes, components_join h, components_join h', hcut, List.lex_singleton_iff, Component.precedes_name]
  rfl

end Path
end Recheck
