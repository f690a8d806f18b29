import Recheck.Proofs.FileSystem.Entries
/-!
# Making directories

Making a directory and what is missing above it adds directories at free places and does nothing else
(`grows_makeDirectories`).  Each is where the path or one above it leads (`paves_makeDirectories`).  The parent of an
entry's path leads to the entry's directory however either is spelled (`directoryAt_parent`), so where that directory is
there already, nothing is made (`makeDirectories_of_directoryAt`).
-/
namespace Recheck

theorem not_isStep {s : List Char} : Path.isStep s = false ↔ s = [] ∨ s = ['.'] := by
  by_cases h : s = [] <;> simp [Path.isStep, h]

theorem eq_dropWhileEnd_append {α : Type} (p : α → Bool) (l : List α) :
    ∃ junk, l = dropWhileEnd p l ++ junk ∧ ∀ x ∈ junk, p x = true := by
  refine ⟨(l.reverse.takeWhile p).reverse, ?_, fun x hx => ?_⟩
  · rw [dropWhileEnd, ← List.reverse_append, List.takeWhile_append_dropWhile, List.reverse_reverse]
  · exact List.all_eq_true.1 List.all_takeWhile x (List.mem_reverse.1 hx)

theorem prefix_joinWith (sep : List Char) : ∀ ps qs : List (List Char), joinWith sep ps <+: joinWith sep (ps ++ qs)
  | [], qs => List.nil_prefix
  | [p], [] => List.prefix_refl _
  | [p], q :: qs => by
    rw [List.singleton_append, joinWith, joinWith, List.append_assoc]
    exact List.prefix_append p _
  | p :: q :: ps, qs => by
    rw [joinWith, List.cons_append, List.cons_append, joinWith]
    exact (List.prefix_append_right_inj _).2 (prefix_joinWith sep (q :: ps) qs)

/-- What says where a path starts, in pieces. -/
def Path.Head.pieces : Path.Head → List (List Char)
  | root   => [[]]
  | here   => [['.']]
  | unsaid => []

/-- A path is the parent of another, or above its parent. -/
inductive Path.Above : Path → Path → Prop
  | parent {p q} : p.parent? = some q → Above q p
  | beyond {p q r} : p.parent? = some q → Above r q → Above r p

theorem Path.Above.trans {p q r : Path} (h : r.Above q) (h' : q.Above p) : r.Above p := by
  induction h' with
  | parent hq => exact .beyond hq h
  | beyond hq _ ih => exact .beyond hq (ih h)

namespace FileSystem

/-! ## What is made -/

/-- There are more directories, and no other change. -/
structure Grows (fs fs' : FileSystem) : Prop where
  workDir : fs'.workDir = fs.workDir
  node : ∀ a, fs'.node? a = fs.node? a ∨ (fs.node? a = none ∧ fs'.node? a = some .directory)

theorem Grows.refl (fs : FileSystem) : Grows fs fs := ⟨rfl, fun _ => .inl rfl⟩

theorem Grows.trans {fs fs' fs'' : FileSystem} (h : Grows fs fs') (h' : Grows fs' fs'') : Grows fs fs'' := by
  refine ⟨h'.workDir.trans h.workDir, fun a => ?_⟩
  rcases h.node a with ha | ⟨ha, hb⟩ <;> rcases h'.node a with hc | ⟨hc, hd⟩
  · exact .inl (hc.trans ha)
  · exact .inr ⟨ha ▸ hc, hd⟩
  · exact .inr ⟨ha, hc.trans hb⟩
  · rw [hb] at hc; cases hc

theorem Grows.keepsWays {fs fs' : FileSystem} (h : Grows fs fs') : KeepsWays fs fs' := by
  refine ⟨h.workDir, fun a ha => ?_, fun a target ha => ?_⟩
  · rcases h.node a with hb | ⟨hb, hc⟩
    · rw [hb, ha]
    · exact hc
  · rcases h.node a with hb | ⟨hb, _⟩
    · rw [hb, ha]
    · rw [hb] at ha; cases ha

/-- **More directories are no other files.** -/
theorem Grows.file_iff {fs fs' : FileSystem} (h : Grows fs fs') (a : Address) (content : ByteArray)
    (modified : Timestamp) (executable : Bool) :
    fs'.node? a = some (.file content modified executable) ↔
      fs.node? a = some (.file content modified executable) := by
  rcases h.node a with hb | ⟨hb, hc⟩
  · rw [hb]
  · rw [hb, hc]; simp

theorem Grows.unlinked {fs fs' : FileSystem} (h : Grows fs fs') {a : Address} (ha : fs.Unlinked a) :
    fs'.Unlinked a := by
  intro target ht
  rcases h.node a with hb | ⟨_, hc⟩
  · exact ha target (hb ▸ ht)
  · rw [hc] at ht; cases ht

/-- What can be read can be read still when there are more directories. -/
theorem Grows.read {fs fs' : FileSystem} (h : Grows fs fs') {p : Path} {content : ByteArray}
    (hr : fs.read p = .ok content) : fs'.read p = .ok content := by
  obtain ⟨a, modified, executable, hl⟩ := read_eq_ok_iff.1 hr
  refine read_eq_ok_iff.2 ⟨a, modified, executable, ?_⟩
  obtain ⟨hp, hw⟩ := locateFrom_ok hl
  rw [locate, hp.locateFrom, start, h.workDir]
  exact h.keepsWays.walk_of_file hw ((h.file_iff _ _ _ _).2 (node?_of_occupied hw))

theorem makeDirectory_ok {fs fs' : FileSystem} {p : Path} (h : fs.makeDirectory p = .ok fs') :
    ∃ d name, fs' = fs.put (d ++ [name]) .directory ∧ fs.node? (d ++ [name]) = none := by
  rw [makeDirectory, locateEntry] at h
  split at h
  · rename_i d name hl
    cases h
    exact ⟨d, name, rfl, node?_of_vacant (locateFrom_ok hl).2⟩
  · cases h
  · cases h

theorem grows_put_directory {fs : FileSystem} {a : Address} (hn : fs.node? a = none) : Grows fs (fs.put a .directory) := by
  have hne : a ≠ [] := fun ha => by subst ha; cases hn
  refine ⟨rfl, fun b => ?_⟩
  by_cases hb : b = a
  · subst hb
    exact .inr ⟨hn, node?_put_self fs hne _⟩
  · exact .inl (node?_put_of_ne fs hb _)

theorem grows_makeDirectory {fs fs' : FileSystem} {p : Path} (h : fs.makeDirectory p = .ok fs') : Grows fs fs' := by
  obtain ⟨d, name, rfl, hn⟩ := makeDirectory_ok h
  exact grows_put_directory hn

/-- What one directory made does to a file system, making all that are missing does, each of them at the path or above. -/
theorem makeDirectoriesWithin_induct_above {P : FileSystem → Prop} {Q : Path → Prop}
    (above : ∀ p q, Q p → p.parent? = some q → Q q)
    (step : ∀ fs fs' p, Q p → P fs → makeDirectory fs p = .ok fs' → P fs') :
    ∀ (levels : Nat) (fs : FileSystem) (p : Path), Q p → P fs → P (makeDirectoriesWithin levels fs p).2
  | 0, fs, p, _, h => h
  | levels + 1, fs, p, hp, h => by
    rw [makeDirectoriesWithin]
    split
    · exact h
    split
    · rename_i fs' h'; exact step _ _ _ hp h h'
    · split
      · exact h
      · rename_i q hq
        have ih := makeDirectoriesWithin_induct_above above step levels fs q (above p q hp hq) h
        split
        · rename_i e fs' h'; rw [h'] at ih; exact ih
        · rename_i fs' h'
          rw [h'] at ih
          split
          · rename_i fs'' h''; exact step _ _ _ hp ih h''
          · split <;> exact ih
    · split <;> exact h

theorem makeDirectoriesWithin_induct {P : FileSystem → Prop}
    (step : ∀ fs fs' p, P fs → makeDirectory fs p = .ok fs' → P fs') (levels : Nat) (fs : FileSystem) (p : Path)
    (h : P fs) : P (makeDirectoriesWithin levels fs p).2 :=
  makeDirectoriesWithin_induct_above (Q := fun _ => True) (fun _ _ _ _ => trivial)
    (fun fs fs' p _ => step fs fs' p) levels fs p trivial h

/-- **Making directories adds directories at free places and does nothing else.** -/
theorem grows_makeDirectories (fs : FileSystem) (p : Path) : Grows fs (fs.makeDirectories p).2 :=
  makeDirectoriesWithin_induct (P := Grows fs) (fun _ _ _ h h' => h.trans (grows_makeDirectory h')) _ _ _ (.refl fs)

/-! ## Where it is made -/

/-- A way to a free place leads to the directory made there. -/
theorem leads_put_of_vacant {fs : FileSystem} {follow : Bool} {links : Nat} {base d : Address} {pieces : List Name}
    {name : Name} (h : fs.walk follow links base pieces = .ok (.vacant d name)) :
    ∃ left, Leads (fs.put (d ++ [name]) .directory) links base pieces left (d ++ [name]) := by
  have hk : KeepsWays fs (fs.put (d ++ [name]) .directory) := (grows_put_directory (node?_of_vacant h)).keepsWays
  fun_induction walk fs follow links base pieces with
  | case1 | case4 | case6 | case8 | case9 | case10 | case11 => cases h
  | case2 links base name' rest hs ih =>
    obtain ⟨left, hl⟩ := ih h
    exact ⟨left, .skip hs hl⟩
  | case3 links base rest _ ih =>
    obtain ⟨left, hl⟩ := ih h
    exact ⟨left, .up hl⟩
  | case5 links base name' rest hc hu hl hn hall =>
    cases h
    have hself : (fs.put (d ++ [name]) .directory).node? (d ++ [name]) = some .directory :=
      node?_put_self fs (by simp) _
    have hempty : ∀ s ∈ rest, s = "" ∨ s = "." := fun s hs => .inl (by simpa using List.all_eq_true.1 hall s hs)
    exact ⟨links, .down ⟨hc, hu, hl⟩ hself (leads_skipped links _ hempty)⟩
  | case7 links base name' rest hc hu hl hn ih =>
    obtain ⟨left, hl'⟩ := ih h
    exact ⟨left, .down ⟨hc, hu, hl⟩ (hk.directory _ hn) hl'⟩
  | case12 base name' rest hc hu hl target hn he links ih =>
    obtain ⟨left, hl'⟩ := ih h
    exact ⟨left, .through ⟨hc, hu, hl⟩ (hk.link _ _ hn) hl'⟩

/-- **A directory that is made is where its path leads.** -/
theorem directoryAt_of_makeDirectory {fs fs' : FileSystem} {p : Path} (h : fs.makeDirectory p = .ok fs') :
    ∃ a, fs.node? a = none ∧ fs' = fs.put a .directory ∧ DirectoryAt fs' p a := by
  rw [makeDirectory, locateEntry] at h
  split at h
  · rename_i d name hl
    cases h
    have hw := (locateFrom_ok hl).2
    obtain ⟨junk, hjunk, hskip⟩ := eq_dropWhileEnd_append (· == "") (names p)
    obtain ⟨left, hleads⟩ := leads_put_of_vacant hw
    refine ⟨d ++ [name], node?_of_vacant hw, rfl, left, ?_⟩
    rw [hjunk]
    exact hleads.append (leads_skipped left _ fun s hs => .inl (by simpa using hskip s hs))
  · cases h
  · cases h

/-- Directories were made at free places on the way to an entry, and nothing else was done. -/
structure Paves (entry : Path) (fs fs' : FileSystem) : Prop where
  workDir : fs'.workDir = fs.workDir
  clock : fs'.clock = fs.clock
  written : fs'.written = fs.written
  node : ∀ a, fs'.node? a = fs.node? a ∨
    (fs.node? a = none ∧ fs'.node? a = some .directory ∧ ∃ p, p.Above entry ∧ DirectoryAt fs' p a)

theorem Paves.refl (entry : Path) (fs : FileSystem) : Paves entry fs fs := ⟨rfl, rfl, rfl, fun _ => .inl rfl⟩

theorem Paves.grows {entry : Path} {fs fs' : FileSystem} (h : Paves entry fs fs') : Grows fs fs' :=
  ⟨h.workDir, fun a => (h.node a).imp_right fun ⟨hn, hd, _⟩ => ⟨hn, hd⟩⟩

theorem Paves.trans {entry : Path} {fs fs' fs'' : FileSystem} (h : Paves entry fs fs') (h' : Paves entry fs' fs'') :
    Paves entry fs fs'' := by
  refine ⟨h'.workDir.trans h.workDir, h'.clock.trans h.clock, h'.written.trans h.written, fun a => ?_⟩
  have hk := h'.grows.keepsWays
  rcases h.node a with ha | ⟨ha, hb, p, hp, hd⟩ <;> rcases h'.node a with hc | ⟨hc, hn, q, hq, hd'⟩
  · exact .inl (hc.trans ha)
  · exact .inr ⟨ha ▸ hc, hn, q, hq, hd'⟩
  · exact .inr ⟨ha, hc.trans hb, p, hp, hd.of_keepsWays hk⟩
  · rw [hb] at hc; cases hc

theorem paves_makeDirectory {entry p : Path} {fs fs' : FileSystem} (hp : p.Above entry)
    (h : fs.makeDirectory p = .ok fs') : Paves entry fs fs' := by
  obtain ⟨a, hn, rfl, hd⟩ := directoryAt_of_makeDirectory h
  refine ⟨rfl, rfl, rfl, fun b => ?_⟩
  rcases (grows_put_directory hn).node b with hb | ⟨hb, hc⟩
  · exact .inl hb
  · -- nothing but the one directory is new
    have hba : b = a := Classical.byContradiction fun hne => by
      rw [node?_put_of_ne fs hne, hb] at hc; cases hc
    exact .inr ⟨hb, hc, p, hp, hba ▸ hd⟩

/-- **Making the directory of an entry makes directories on the way to it and does nothing else.** -/
theorem paves_makeDirectories {entry p : Path} (hp : p.Above entry) (fs : FileSystem) :
    Paves entry fs (fs.makeDirectories p).2 :=
  makeDirectoriesWithin_induct_above (P := Paves entry fs) (Q := fun q => q.Above entry)
    (fun _ _ hq hparent => (Path.Above.parent hparent).trans hq)
    (fun _ _ _ hq h h' => h.trans (paves_makeDirectory hq h')) _ _ _ hp (.refl entry fs)

/-! ## The parent of an entry's path -/

theorem Leads.of_skipped {fs : FileSystem} {links left : Nat} {base d : Address} {pieces skipped : List Name}
    (hs : ∀ s ∈ skipped, s = "" ∨ s = ".") (h : Leads fs links base (pieces ++ skipped) left d) :
    ∃ left, Leads fs links base pieces left d := by
  cases skipped with
  | nil => exact ⟨left, by simpa using h⟩
  | cons s rest =>
    obtain ⟨left', d', h'⟩ := exists_leads (by simp) h.walk_eq (.inr ⟨d, rfl⟩)
    have hw := h.walk_eq
    rw [h'.walk_append true (by simp), (leads_skipped left' d' hs).walk_eq] at hw
    simp only [Except.ok.injEq, Place.occupied.injEq, and_true] at hw
    exact ⟨left', hw ▸ h'⟩

theorem segments_eq (p : Path) : p.segments = p.head.pieces ++ p.body := by
  unfold Path.body Path.head
  split
  · rename_i hs; rw [hs]; rfl
  · rename_i hs; rw [hs]; rfl
  · rfl

/-- The last piece that counts, and around it pieces that do not. -/
theorem splitLast?_some {p : Path} {before : List (List Char)} {last : List Char}
    (h : p.splitLast? = some (before, last)) :
    ∃ skipped junk, p.body = before ++ skipped ++ last :: junk ∧ (∀ s ∈ skipped, Path.isStep s = false) ∧
      ∀ s ∈ junk, Path.isStep s = false := by
  rw [Path.splitLast?] at h
  split at h
  · cases h
  · rename_i last' before' hd
    simp only [Option.some.injEq, Prod.mk.injEq] at h
    obtain ⟨rfl, rfl⟩ := h
    obtain ⟨junk, hbody, hjunk⟩ := eq_dropWhileEnd_append (!Path.isStep ·) p.body
    obtain ⟨skipped, hbefore, hskipped⟩ := eq_dropWhileEnd_append (!Path.isStep ·) before'.reverse
    rw [dropWhileEnd, List.reverse_reverse] at hbefore
    refine ⟨skipped, junk, ?_, fun s hs => by simpa using hskipped s hs, fun s hs => by simpa using hjunk s hs⟩
    rw [dropWhileEnd, hd, List.reverse_cons, hbefore] at hbody
    rw [hbody]
    simp

/-- A path with a piece that counts has a parent. -/
theorem exists_parent {p : Path} {s : List Char} (hs : s ∈ p.segments) (hl : Path.isStep s = true) :
    ∃ q, p.parent? = some q := by
  cases h : p.splitLast? with
  | some split => exact ⟨_, by rw [Path.parent?, h]⟩
  | none =>
    obtain ⟨junk, hbody, hjunk⟩ := eq_dropWhileEnd_append (!Path.isStep ·) p.body
    have hnil : p.body.reverse.dropWhile (!Path.isStep ·) = [] := by
      rw [Path.splitLast?] at h
      split at h
      · assumption
      · cases h
    rw [dropWhileEnd, hnil, List.reverse_nil, List.nil_append] at hbody
    rw [segments_eq, hbody, List.mem_append] at hs
    rcases hs with hs | hs
    · cases hh : p.head <;> rw [hh] at hs <;> simp [Path.Head.pieces] at hs <;> subst hs <;> cases hl
    · have := hjunk s hs
      rw [hl] at this; cases this

theorem ofBody_head_body (p : Path) : Path.ofBody p.head p.body = p := by
  have ht : Path.mk (String.ofList (joinWith ['/'] p.segments)) = p := by
    rw [Path.segments, joinWith_splitOn, String.ofList_toList]
  unfold Path.body Path.head
  split
  · rename_i s rest hs
    rw [hs] at ht ⊢
    exact ht
  · rename_i rest hs
    rw [hs] at ht ⊢
    cases rest <;> exact ht
  · exact ht

theorem prefix_ofBody (h : Path.Head) (b c : List (List Char)) :
    (Path.ofBody h b).text.toList <+: (Path.ofBody h (b ++ c)).text.toList := by
  have hj := prefix_joinWith ['/'] b c
  cases h with
  | root => simpa [Path.ofBody] using hj
  | unsaid => simpa [Path.ofBody] using hj
  | here =>
    cases b with
    | nil =>
      cases c with
      | nil => exact List.prefix_refl _
      | cons s c => exact ⟨'/' :: joinWith ['/'] (s :: c), by simp [Path.ofBody]⟩
    | cons s b => simpa [Path.ofBody] using hj

section
variable {b : List (List Char)} (hb : ∀ s ∈ b, '/' ∉ s)
include hb

theorem segments_ofBody_root : (Path.ofBody .root b).segments = [] :: (if b = [] then [[]] else b) := by
  cases b with
  | nil => simp [Path.ofBody, Path.segments, joinWith, splitOn]
  | cons s b => simp [Path.ofBody, Path.segments, splitOn, splitOn_joinWith '/' (s :: b) (by simp) hb]

theorem segments_ofBody_here : (Path.ofBody .here b).segments = ['.'] :: b := by
  cases b with
  | nil => simp [Path.ofBody, Path.segments, splitOn]
  | cons s b => simp [Path.ofBody, Path.segments, splitOn, splitOn_joinWith '/' (s :: b) (by simp) hb]

theorem segments_ofBody_unsaid (hne : b ≠ []) : (Path.ofBody .unsaid b).segments = b := by
  simp [Path.ofBody, Path.segments, splitOn_joinWith '/' b hne hb]

end

theorem segments_ofBody {head : Path.Head} {b : List (List Char)} (hb : ∀ s ∈ b, '/' ∉ s)
    (hne : (Path.ofBody head b).text ≠ "") :
    (Path.ofBody head b).segments = head.pieces ++ b ∨ (Path.ofBody head b).segments = head.pieces ++ b ++ [[]] := by
  cases head with
  | root =>
    rw [segments_ofBody_root hb]
    by_cases h : b = [] <;> simp [h, Path.Head.pieces]
  | here => exact .inl (segments_ofBody_here hb)
  | unsaid =>
    refine .inl (segments_ofBody_unsaid hb ?_)
    rintro rfl
    exact hne rfl

/-- **The pieces of a path and of its parent**, unless that is the empty path: after those of the parent come some that do
not count, the last one that does, and more that do not. -/
theorem names_parent {p q : Path} (h : p.parent? = some q) (hne : q.text ≠ "") :
    ∃ shared skipped last junk, names p = shared ++ skipped ++ last :: junk ∧
      (∀ s ∈ skipped ++ junk, s = "" ∨ s = ".") ∧ (names q = shared ∨ names q = shared ++ [""]) ∧
      q.text.toList <+: p.text.toList := by
  have hskip : ∀ l : List (List Char), (∀ s ∈ l, Path.isStep s = false) → ∀ s ∈ l.map String.ofList, s = "" ∨ s = "." := by
    intro l hl s hs
    obtain ⟨t, ht, rfl⟩ := List.mem_map.1 hs
    exact (not_isStep.1 (hl t ht)).imp (congrArg String.ofList) (congrArg String.ofList)
  rw [Path.parent?] at h
  cases hl : p.splitLast? with
  | none =>
    rw [hl] at h
    split at h
    · rename_i heq; cases heq
    · cases h; exact absurd rfl hne
    · cases h
  | some split =>
    obtain ⟨before, last⟩ := split
    rw [hl] at h
    cases h
    obtain ⟨skipped, junk, hbody, hskipped, hjunk⟩ := splitLast?_some hl
    have hslash : ∀ s ∈ before, '/' ∉ s := by
      intro s hs
      refine notMem_of_mem_splitOn '/' _ s (show s ∈ p.segments from ?_)
      rw [segments_eq, hbody]
      simp [hs]
    refine ⟨(p.head.pieces ++ before).map String.ofList, skipped.map String.ofList, String.ofList last,
      junk.map String.ofList, ?_, ?_, ?_, ?_⟩
    · rw [names, segments_eq, hbody]
      simp
    · rw [← List.map_append]
      refine hskip _ fun s hs => ?_
      rcases List.mem_append.1 hs with hs | hs
      · exact hskipped s hs
      · exact hjunk s hs
    · rcases segments_ofBody hslash hne with hs | hs
      · exact .inl (by rw [names, hs])
      · exact .inr (by rw [names, hs, List.map_append]; rfl)
    · have := prefix_ofBody p.head before (skipped ++ last :: junk)
      rwa [← List.append_assoc, ← hbody, ofBody_head_body] at this

/-- A path and its parent start at one place. -/
theorem start_eq_of_prefix (fs : FileSystem) {p q : Path} (hne : q.text ≠ "") (h : q.text.toList <+: p.text.toList) :
    fs.start q = fs.start p := by
  obtain ⟨rest, hr⟩ := h
  obtain ⟨c, cs, hc⟩ := List.exists_cons_of_ne_nil (show q.text.toList ≠ [] by simpa using hne)
  rw [start, start, isAbsolute_eq, isAbsolute_eq, ← hr, hc]
  rfl

theorem directoryAt_of_leads {fs : FileSystem} {p q : Path} (hne : q.text ≠ "") {shared skipped : List Name}
    (hpre : q.text.toList <+: p.text.toList) (hs : ∀ s ∈ skipped, s = "" ∨ s = ".")
    (hq : names q = shared ∨ names q = shared ++ [""]) {left : Nat} {d : Address}
    (h : Leads fs linkLimit (fs.start p) (shared ++ skipped) left d) : DirectoryAt fs q d := by
  rw [directoryAt_iff hq, start_eq_of_prefix fs hne hpre]
  exact h.of_skipped hs

/-- **Above a directory there is a directory.** -/
theorem directoryAt_of_parent {fs : FileSystem} {p q : Path} {d : Address} (hd : DirectoryAt fs p d)
    (h : p.parent? = some q) (hne : q.text ≠ "") : ∃ d', DirectoryAt fs q d' := by
  obtain ⟨shared, skipped, last, junk, hp, hs, hq, hpre⟩ := names_parent h hne
  obtain ⟨left, hl⟩ := hd
  rw [hp] at hl
  obtain ⟨left', d', hl'⟩ := exists_leads (by simp) hl.walk_eq (.inr ⟨d, rfl⟩)
  exact ⟨d', directoryAt_of_leads hne hpre (fun s hm => hs s (List.mem_append_left _ hm)) hq hl'⟩

/-- **The parent of an entry's path leads to the entry's directory**, unless it is the empty path. -/
theorem directoryAt_parent {fs : FileSystem} {p : Path} {d : Address} {name : Name} (hd : DirectoryAt fs p d)
    (hn : IsName name) :
    ∃ q, (p.join ⟨name⟩).parent? = some q ∧ q.text.toList <+: (p.join ⟨name⟩).text.toList ∧
      (q.text = "" ∨ DirectoryAt fs q d) := by
  have hstep : Path.isStep name.toList = true := by
    have h1 : name.toList ≠ [] := by simpa using hn.ne_empty
    have h2 : name.toList ≠ ['.'] := fun h => hn.ne_here (by rw [← String.ofList_toList (s := name), h])
    simp [Path.isStep, h1, h2]
  obtain ⟨pieces, hj, hp⟩ := names_join p hn
  obtain ⟨q, hq⟩ := exists_parent (p := p.join ⟨name⟩) (s := name.toList) (by
    obtain ⟨_, hseg, -⟩ := segments_join p hn
    simp [hseg]) hstep
  by_cases hne : q.text = ""
  · exact ⟨q, hq, by simp [hne], .inl hne⟩
  obtain ⟨shared, skipped, last, junk, hnames, hskip, hshared, hpre⟩ := names_parent hq hne
  -- the name counts, so nothing stands behind it
  have hjunk : junk = [] := by
    refine Classical.byContradiction fun hj' => ?_
    have hmem := List.getLast_mem hj'
    have := congrArg List.getLast? (hnames.symm.trans hj)
    rw [List.getLast?_append, List.getLast?_cons, List.getLast?_eq_some_getLast hj', List.getLast?_concat] at this
    simp only [Option.getD_some, Option.some_or, Option.some.injEq] at this
    rcases hskip _ (List.mem_append_right _ hmem) with h | h <;> rw [this] at h
    · exact hn.ne_empty h
    · exact hn.ne_here h
  rw [hj, hjunk] at hnames
  obtain ⟨hpieces, -⟩ := List.append_inj' hnames rfl
  obtain ⟨left, hw⟩ := (directoryAt_iff hp).1 hd
  rw [hpieces, start, ← isAbsolute_join p hn] at hw
  exact ⟨q, hq, hpre, .inr (directoryAt_of_leads hne hpre (fun s hs => hskip s (List.mem_append_left _ hs)) hshared hw)⟩

/-! ## Directories that are there -/

/-- Where following a way ends in a directory, the entry that its last piece names is there. -/
theorem Leads.exists_unfollowed {fs : FileSystem} {links left : Nat} {base d : Address} {pieces : List Name}
    (h : Leads fs links base pieces left d) : ∃ a node, fs.walk false links base pieces = .ok (.occupied a node) := by
  induction h with
  | @here _ base => exact ⟨base, .directory, by rw [walk]⟩
  | skip hs _ ih => rw [walk_skip _ _ _ _ _ hs]; exact ih
  | up _ ih => rw [walk_up]; exact ih
  | down he hn _ ih => rw [walk_down _ _ _ he hn]; exact ih
  | @through _ base name target rest _ _ he hn _ ih =>
    rw [walk_link _ _ _ he hn]
    cases rest with
    | nil => exact ⟨base ++ [name], .link target, rfl⟩
    | cons s rest => exact ih

section
variable {fs S : FileSystem} {p : Path} {d : Address}

theorem isDirectory_of_directoryAt (h : IsPath p) (hd : DirectoryAt fs p d) : fs.isDirectory p = true := by
  obtain ⟨left, hw⟩ := hd
  rw [isDirectory, stat, locate, h.locateFrom, hw.walk_eq]

theorem makeDirectory_of_directoryAt (h : IsPath p) (hd : DirectoryAt fs p d) :
    fs.makeDirectory p = .error .alreadyExists := by
  obtain ⟨left, hw⟩ := hd
  obtain ⟨junk, hjunk, hskip⟩ := eq_dropWhileEnd_append (· == "") (names p)
  rw [hjunk] at hw
  obtain ⟨left', hw'⟩ := hw.of_skipped fun s hs => .inl (by simpa using hskip s hs)
  obtain ⟨a, node, ha⟩ := hw'.exists_unfollowed
  rw [makeDirectory, locateEntry, h.locateFrom, ha]

/-- **Where a directory is there already, making it changes nothing.** -/
theorem makeDirectories_of_directoryAt (h : IsPath p) (hd : DirectoryAt fs p d) :
    fs.makeDirectories p = (.ok (), fs) := by
  rw [makeDirectories, makeDirectoriesWithin, h.isEmpty, makeDirectory_of_directoryAt h hd]
  simp [isDirectory_of_directoryAt h hd]

/-! ## Directories that cannot be made -/

/-- **Where making directories fails, nothing was made, or the path leads to no directory still.** -/
theorem makeDirectoriesWithin_error {e : IoError} : ∀ {levels : Nat} {fs : FileSystem} {p : Path}, IsPath p →
    makeDirectoriesWithin levels fs p = (.error e, S) → S = fs ∨ ∀ d, ¬DirectoryAt S p d
  | 0, fs, p, _, h => by
    cases h
    exact .inl rfl
  | levels + 1, fs, p, hp, h => by
    rw [makeDirectoriesWithin, hp.isEmpty] at h
    simp only [Bool.false_eq_true, if_false] at h
    split at h
    · cases h
    · split at h
      · cases h
        exact .inl rfl
      · rename_i q hq
        split at h
        · -- a directory above could not be made
          rename_i fs' hr
          cases h
          by_cases hne : q.text = ""
          · cases levels with
            | zero => cases hr; exact .inl rfl
            | succ levels => simp [makeDirectoriesWithin, hne] at hr
          · obtain ⟨_, _, _, _, -, -, -, hpre⟩ := names_parent hq hne
            refine (makeDirectoriesWithin_error (hp.initial hne hpre) hr).imp_right fun hno d hd => ?_
            obtain ⟨d', hd'⟩ := directoryAt_of_parent hd hq hne
            exact hno d' hd'
        · split at h
          · cases h
          · split at h
            · cases h
            · rename_i hnot
              cases h
              exact .inr fun d hd => hnot (isDirectory_of_directoryAt hp hd)
    · split at h <;> cases h
      exact .inl rfl

end
end FileSystem
end Recheck
