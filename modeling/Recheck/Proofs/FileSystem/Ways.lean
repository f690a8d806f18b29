import Recheck.FileSystem.Access
/-!
# Ways to directories

A walk that ends in a directory, as a relation (`Leads`): from where, over which pieces, with how many links still to
pass at its end.  What comes after such pieces is a walk of its own (`Leads.walk_append`), and a walk that comes to
anything by a last name has led to a directory before it (`exists_leads`).  Ways do not depend on files
(`Leads.of_keepsWays`).
-/
namespace Recheck.FileSystem

/-- A piece that is the name of an entry, and not too long for one. -/
structure IsEntry (name : Name) : Prop where
  counts : ¬(name = "" ∨ name = ".")
  ne_up : name ≠ ".."
  short : ¬nameLimit < name.utf8ByteSize

/-! ## One piece of a walk -/

section
variable (fs : FileSystem) (follow : Bool) (links : Nat) (base : Address) (rest : List Name)

theorem walk_skip {name : Name} (h : name = "" ∨ name = ".") :
    fs.walk follow links base (name :: rest) = fs.walk follow links base rest := by
  rw [walk, if_pos h]

theorem walk_up : fs.walk follow links base (".." :: rest) = fs.walk follow links base.dropLast rest := by
  rw [walk, if_neg (by decide), if_pos rfl]

theorem walk_long {name : Name} (hc : ¬(name = "" ∨ name = ".")) (hu : name ≠ "..")
    (hl : nameLimit < name.utf8ByteSize) : fs.walk follow links base (name :: rest) = .error .nameTooLong := by
  rw [walk, if_neg hc, if_neg hu, if_pos hl]

variable {fs base}

theorem walk_vacant {name : Name} (h : IsEntry name) (hn : fs.node? (base ++ [name]) = none) :
    fs.walk follow links base (name :: rest) =
      if rest.all (· == "") then .ok (.vacant base name) else .error .notFound := by
  rw [walk, if_neg h.counts, if_neg h.ne_up, if_neg h.short, hn]

theorem walk_down {name : Name} (h : IsEntry name) (hn : fs.node? (base ++ [name]) = some .directory) :
    fs.walk follow links base (name :: rest) = fs.walk follow links (base ++ [name]) rest := by
  rw [walk, if_neg h.counts, if_neg h.ne_up, if_neg h.short, hn]

theorem walk_file {name : Name} {content : ByteArray} {modified : Timestamp} {executable : Bool} (h : IsEntry name)
    (hn : fs.node? (base ++ [name]) = some (.file content modified executable)) :
    fs.walk follow links base (name :: rest) =
      if rest.isEmpty then .ok (.occupied (base ++ [name]) (.file content modified executable))
      else .error .notADirectory := by
  rw [walk, if_neg h.counts, if_neg h.ne_up, if_neg h.short, hn]

theorem walk_link {name : Name} {target : Path} (h : IsEntry name)
    (hn : fs.node? (base ++ [name]) = some (.link target)) :
    fs.walk follow links base (name :: rest) =
      if rest.isEmpty && !follow then .ok (.occupied (base ++ [name]) (.link target))
      else match links with
        | 0     => .error .tooManyLinks
        | n + 1 => fs.walk follow n (if target.isAbsolute then [] else base) (names target ++ rest) := by
  rw [walk, if_neg h.counts, if_neg h.ne_up, if_neg h.short]
  cases links <;> simp only [hn]

end

/-! ## Ways -/

/-- The pieces lead from the directory at `base` to that at `d`, and of `links` links `left` may still be passed. -/
inductive Leads (fs : FileSystem) : Nat → Address → List Name → Nat → Address → Prop
  | here {links base} : Leads fs links base [] links base
  | skip {links base name rest left d} :
      name = "" ∨ name = "." → Leads fs links base rest left d → Leads fs links base (name :: rest) left d
  | up {links base rest left d} :
      Leads fs links base.dropLast rest left d → Leads fs links base (".." :: rest) left d
  | down {links base name rest left d} :
      IsEntry name → fs.node? (base ++ [name]) = some .directory →
      Leads fs links (base ++ [name]) rest left d → Leads fs links base (name :: rest) left d
  | through {links base name target rest left d} :
      IsEntry name → fs.node? (base ++ [name]) = some (.link target) →
      Leads fs links (if target.isAbsolute then [] else base) (names target ++ rest) left d →
      Leads fs (links + 1) base (name :: rest) left d

section
variable {fs fs' : FileSystem} {links left : Nat} {base d : Address} {pieces : List Name}

/-- **What comes after a way is a walk of its own.** -/
theorem Leads.walk_append (h : Leads fs links base pieces left d) (follow : Bool) {rest : List Name} (hr : rest ≠ []) :
    fs.walk follow links base (pieces ++ rest) = fs.walk follow left d rest := by
  induction h with
  | here => rfl
  | skip hs _ ih => rw [List.cons_append, walk_skip _ _ _ _ _ hs, ih]
  | up _ ih => rw [List.cons_append, walk_up, ih]
  | down he hn _ ih => rw [List.cons_append, walk_down _ _ _ he hn, ih]
  | @through _ _ _ _ pieces' _ _ he hn _ ih =>
    have : (pieces' ++ rest).isEmpty = false := by simp [hr]
    rw [List.cons_append, walk_link _ _ _ he hn, this, ← ih, List.append_assoc]
    rfl

theorem Leads.walk_eq (h : Leads fs links base pieces left d) :
    fs.walk true links base pieces = .ok (.occupied d .directory) := by
  induction h with
  | here => rw [walk]
  | skip hs _ ih => rw [walk_skip _ _ _ _ _ hs, ih]
  | up _ ih => rw [walk_up, ih]
  | down he hn _ ih => rw [walk_down _ _ _ he hn, ih]
  | @through _ _ _ _ pieces' _ _ he hn _ ih =>
    have : (pieces'.isEmpty && !true) = false := by simp
    rw [walk_link _ _ _ he hn, this, ← ih]
    rfl

theorem Leads.append {middle : Nat} {b : Address} {rest : List Name} (h : Leads fs links base pieces middle b)
    (h' : Leads fs middle b rest left d) : Leads fs links base (pieces ++ rest) left d := by
  induction h with
  | here => exact h'
  | skip hs _ ih => exact .skip hs (ih h')
  | up _ ih => exact .up (ih h')
  | down he hn _ ih => exact .down he hn (ih h')
  | through he hn _ ih => exact .through he hn (List.append_assoc .. ▸ ih h')

/-- Pieces that do not count lead nowhere else. -/
theorem leads_skipped {fs : FileSystem} (links : Nat) (d : Address) : ∀ {pieces : List Name},
    (∀ s ∈ pieces, s = "" ∨ s = ".") → Leads fs links d pieces links d
  | [], _ => .here
  | s :: _, h =>
    .skip (h s List.mem_cons_self) (leads_skipped links d fun t ht => h t (List.mem_cons_of_mem _ ht))

/-- **A walk by way of `pieces` and more has led to a directory**, where what comes after has a name in it, or the walk
itself ends in a directory. -/
theorem exists_leads {fs : FileSystem} {follow : Bool} {rest : List Name} (hr : rest ≠ []) :
    ∀ {links : Nat} {base : Address} {pieces : List Name} {place : Place},
      fs.walk follow links base (pieces ++ rest) = .ok place →
      (rest.all (· == "") = false ∨ ∃ a, place = .occupied a .directory) →
      ∃ left d, Leads fs links base pieces left d := by
  intro links base pieces
  induction links, base, pieces using walk.induct fs true with
  | case1 links base => exact fun _ _ => ⟨links, base, .here⟩
  | case2 links base name pieces hs ih =>
    intro place h hp
    rw [List.cons_append, walk_skip _ _ _ _ _ hs] at h
    obtain ⟨left, d, hd⟩ := ih h hp
    exact ⟨left, d, .skip hs hd⟩
  | case3 links base pieces _ ih =>
    intro place h hp
    rw [List.cons_append, walk_up] at h
    obtain ⟨left, d, hd⟩ := ih h hp
    exact ⟨left, d, .up hd⟩
  | case4 links base name pieces hc hu hl =>
    intro place h _
    rw [List.cons_append, walk_long _ _ _ _ _ hc hu hl] at h
    cases h
  | case5 links base name pieces hc hu hl hn _ =>
    intro place h hp
    rw [List.cons_append, walk_vacant _ _ _ ⟨hc, hu, hl⟩ hn, List.all_append] at h
    rcases hp with hp | ⟨a, rfl⟩
    · rw [hp, Bool.and_false] at h; cases h
    · split at h <;> cases h
  | case6 links base name pieces hc hu hl hn hall =>
    intro place h hp
    have : (pieces ++ rest).all (· == "") = false := by
      rw [List.all_append, Bool.eq_false_iff.2 hall, Bool.false_and]
    rw [List.cons_append, walk_vacant _ _ _ ⟨hc, hu, hl⟩ hn, this] at h
    cases h
  | case7 links base name pieces hc hu hl hn ih =>
    intro place h hp
    rw [List.cons_append, walk_down _ _ _ ⟨hc, hu, hl⟩ hn] at h
    obtain ⟨left, d, hd⟩ := ih h hp
    exact ⟨left, d, .down ⟨hc, hu, hl⟩ hn hd⟩
  | case8 links base name pieces hc hu hl content modified executable hn _ =>
    intro place h _
    have : (pieces ++ rest).isEmpty = false := by simp [hr]
    rw [List.cons_append, walk_file _ _ _ ⟨hc, hu, hl⟩ hn, this] at h
    cases h
  | case9 links base name pieces hc hu hl content modified executable hn _ =>
    intro place h _
    have : (pieces ++ rest).isEmpty = false := by simp [hr]
    rw [List.cons_append, walk_file _ _ _ ⟨hc, hu, hl⟩ hn, this] at h
    cases h
  | case10 links base name pieces hc hu hl target hn he => simp at he
  | case11 base name pieces hc hu hl target hn _ =>
    intro place h _
    have : (pieces ++ rest).isEmpty = false := by simp [hr]
    rw [List.cons_append, walk_link _ _ _ ⟨hc, hu, hl⟩ hn, this] at h
    cases h
  | case12 base name pieces hc hu hl target hn _ links ih =>
    intro place h hp
    have : (pieces ++ rest).isEmpty = false := by simp [hr]
    rw [List.cons_append, walk_link _ _ _ ⟨hc, hu, hl⟩ hn, this] at h
    simp only [Bool.false_and, Bool.false_eq_true, if_false, ← List.append_assoc] at h
    obtain ⟨left, d, hd⟩ := ih h hp
    exact ⟨left, d, .through ⟨hc, hu, hl⟩ hn hd⟩

end

/-! ## What ways depend on -/

/-- Nothing is lost that a walk can pass: directories and links are where they were, and so do relative paths start. -/
structure KeepsWays (fs fs' : FileSystem) : Prop where
  workDir : fs'.workDir = fs.workDir
  directory : ∀ a, fs.node? a = some .directory → fs'.node? a = some .directory
  link : ∀ a target, fs.node? a = some (.link target) → fs'.node? a = some (.link target)

theorem KeepsWays.refl (fs : FileSystem) : KeepsWays fs fs := ⟨rfl, fun _ h => h, fun _ _ h => h⟩

theorem KeepsWays.trans {fs fs' fs'' : FileSystem} (h : KeepsWays fs fs') (h' : KeepsWays fs' fs'') :
    KeepsWays fs fs'' :=
  ⟨h'.workDir.trans h.workDir, fun a ha => h'.directory a (h.directory a ha),
    fun a t ha => h'.link a t (h.link a t ha)⟩

/-- **Ways do not depend on files.** -/
theorem Leads.of_keepsWays {fs fs' : FileSystem} (hk : KeepsWays fs fs') {links left : Nat} {base d : Address}
    {pieces : List Name} (h : Leads fs links base pieces left d) : Leads fs' links base pieces left d := by
  induction h with
  | here => exact .here
  | skip hs _ ih => exact .skip hs ih
  | up _ ih => exact .up ih
  | down he hn _ ih => exact .down he (hk.directory _ hn) ih
  | through he hn _ ih => exact .through he (hk.link _ _ hn) ih

theorem node?_of_vacant {fs : FileSystem} {follow : Bool} {links : Nat} {base d : Address} {pieces : List Name}
    {name : Name} (h : fs.walk follow links base pieces = .ok (.vacant d name)) : fs.node? (d ++ [name]) = none := by
  fun_induction walk fs follow links base pieces <;> simp_all

theorem node?_of_occupied {fs : FileSystem} {follow : Bool} {links : Nat} {base a : Address} {pieces : List Name}
    {content : ByteArray} {modified : Timestamp} {executable : Bool}
    (h : fs.walk follow links base pieces = .ok (.occupied a (.file content modified executable))) :
    fs.node? a = some (.file content modified executable) := by
  fun_induction walk fs follow links base pieces <;> simp_all

/-- **A walk to a file comes to whatever file is there**, as long as no way is taken away. -/
theorem KeepsWays.walk_of_file {fs fs' : FileSystem} (hk : KeepsWays fs fs') {follow : Bool} {links : Nat}
    {base a : Address} {pieces : List Name} {content content' : ByteArray} {modified modified' : Timestamp}
    {executable executable' : Bool}
    (hw : fs.walk follow links base pieces = .ok (.occupied a (.file content modified executable)))
    (hn : fs'.node? a = some (.file content' modified' executable')) :
    fs'.walk follow links base pieces = .ok (.occupied a (.file content' modified' executable')) := by
  fun_induction walk fs follow links base pieces with
  | case1 => cases hw
  | case2 links base name rest hs ih => rw [walk_skip _ _ _ _ _ hs, ih hw]
  | case3 links base rest _ ih => rw [walk_up, ih hw]
  | case4 | case5 | case6 | case9 | case10 | case11 => cases hw
  | case7 links base name rest hc hu hl h ih => rw [walk_down _ _ _ ⟨hc, hu, hl⟩ (hk.directory _ h), ih hw]
  | case8 links base name rest hc hu hl c m x h he =>
    cases hw
    rw [walk_file _ _ _ ⟨hc, hu, hl⟩ hn, if_pos he]
  | case12 base name rest hc hu hl target h he links ih =>
    rw [walk_link _ _ _ ⟨hc, hu, hl⟩ (hk.link _ _ h), if_neg he]
    exact ih hw

/-- **A walk to a directory comes to it**, as long as no way is taken away. -/
theorem KeepsWays.walk_of_directory {fs fs' : FileSystem} (hk : KeepsWays fs fs') {follow : Bool} {links : Nat}
    {base a : Address} {pieces : List Name}
    (hw : fs.walk follow links base pieces = .ok (.occupied a .directory)) :
    fs'.walk follow links base pieces = .ok (.occupied a .directory) := by
  fun_induction walk fs follow links base pieces with
  | case1 =>
    rw [walk]
    exact hw
  | case2 links base name rest hs ih => rw [walk_skip _ _ _ _ _ hs, ih hw]
  | case3 links base rest _ ih => rw [walk_up, ih hw]
  | case4 | case5 | case6 | case8 | case9 | case10 | case11 => cases hw
  | case7 links base name rest hc hu hl h ih => rw [walk_down _ _ _ ⟨hc, hu, hl⟩ (hk.directory _ h), ih hw]
  | case12 base name rest hc hu hl target h he links ih =>
    rw [walk_link _ _ _ ⟨hc, hu, hl⟩ (hk.link _ _ h), if_neg he]
    exact ih hw

end Recheck.FileSystem
