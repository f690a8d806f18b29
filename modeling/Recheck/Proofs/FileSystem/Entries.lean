import Recheck.Proofs.FileSystem.Ways
/-!
# Entries of a directory

What a path of a directory and a name comes to, once it is known which directory that is (`DirectoryAt`): where no link
stands under the name, the path leads to the entry itself or to its free place (`locate_join`).  So reading and writing
by such paths is reading and writing at one address, and entries of different names have nothing to do with each other.
-/
namespace Recheck.FileSystem

/-- A name that an entry of a directory can have. -/
structure IsName (name : Name) : Prop where
  ne_empty : name ≠ ""
  ne_here : name ≠ "."
  ne_up : name ≠ ".."
  no_slash : '/' ∉ name.toList

/-- A text that can be passed to the file system as a path. -/
structure IsPath (p : Path) : Prop where
  not_empty : p.text ≠ ""
  no_nul : p.text.toList.contains '\x00' = false
  short : p.text.utf8ByteSize < pathLimit

/-- The path of an entry can be passed to the file system at all: it has no NUL in it, and neither it nor the name is too
long. -/
structure Fits (p : Path) (name : Name) : Prop where
  no_nul : (p.join ⟨name⟩).text.toList.contains '\x00' = false
  short : (p.join ⟨name⟩).text.utf8ByteSize < pathLimit
  name_short : name.utf8ByteSize ≤ nameLimit

/-- No link stands at an address. -/
def Unlinked (fs : FileSystem) (a : Address) : Prop := ∀ target, fs.node? a ≠ some (.link target)

def start (fs : FileSystem) (p : Path) : Address := if p.isAbsolute then [] else fs.workDir

/-- A path, with whatever links are in it, leads to the directory at an address. -/
def DirectoryAt (fs : FileSystem) (p : Path) (d : Address) : Prop :=
  ∃ left, Leads fs linkLimit (fs.start p) (names p) left d

theorem IsName.isEntry {p : Path} {name : Name} (h : IsName name) (hf : Fits p name) : IsEntry name :=
  ⟨fun hc => hc.elim h.ne_empty h.ne_here, h.ne_up, Nat.not_lt.2 hf.name_short⟩

theorem DirectoryAt.of_keepsWays {fs fs' : FileSystem} (hk : KeepsWays fs fs') {p : Path} {d : Address}
    (h : DirectoryAt fs p d) : DirectoryAt fs' p d := by
  obtain ⟨left, hl⟩ := h
  exact ⟨left, by rw [start, hk.workDir]; exact hl.of_keepsWays hk⟩

theorem DirectoryAt.unique {fs : FileSystem} {p : Path} {d d' : Address} (h : DirectoryAt fs p d)
    (h' : DirectoryAt fs p d') : d = d' := by
  obtain ⟨_, hl⟩ := h
  obtain ⟨_, hl'⟩ := h'
  have := hl.walk_eq.symm.trans hl'.walk_eq
  simpa using this

/-! ## Texts that are paths -/

theorem IsPath.initial {p q : Path} (h : IsPath p) (hne : q.text ≠ "") (hpre : q.text.toList <+: p.text.toList) :
    IsPath q := by
  obtain ⟨cs, hcs⟩ := hpre
  have hp : p.text = q.text ++ String.ofList cs := String.toList_inj.1 (by simp [hcs])
  refine ⟨hne, ?_, ?_⟩
  · have := h.no_nul
    rw [← hcs, List.contains_append, Bool.or_eq_false_iff] at this
    exact this.1
  · have := h.short
    rw [hp, String.utf8ByteSize_append] at this
    exact Nat.lt_of_le_of_lt (Nat.le_add_right _ _) this

theorem IsPath.isEmpty {p : Path} (h : IsPath p) : p.text.isEmpty = false := by
  rw [Bool.eq_false_iff, ne_eq, String.isEmpty_iff]
  exact h.not_empty

theorem IsPath.locateFrom {p : Path} (h : IsPath p) (fs : FileSystem) (follow : Bool) (pieces : List Name) :
    fs.locateFrom follow p pieces = fs.walk follow linkLimit (fs.start p) pieces := by
  rw [FileSystem.locateFrom, h.isEmpty, h.no_nul]
  simp only [Bool.false_eq_true, if_false, if_neg (Nat.not_le.2 h.short)]
  rfl

theorem locateFrom_ok {fs : FileSystem} {follow : Bool} {p : Path} {pieces : List Name} {place : Place}
    (h : fs.locateFrom follow p pieces = .ok place) :
    IsPath p ∧ fs.walk follow linkLimit (fs.start p) pieces = .ok place := by
  rw [locateFrom] at h
  split at h
  · cases h
  · rename_i hne
    split at h
    · cases h
    · rename_i hnul
      split at h
      · cases h
      · rename_i hshort
        exact ⟨⟨by simpa using hne, Bool.eq_false_iff.2 hnul, Nat.not_le.1 hshort⟩, h⟩

/-! ## The path of an entry -/

theorem isAbsolute_eq (p : Path) : p.isAbsolute = (p.text.toList.head? == some '/') := by
  unfold Path.isAbsolute
  split
  · rename_i h; rw [h]; rfl
  · rename_i h
    cases hp : p.text.toList with
    | nil => rfl
    | cons c cs =>
      have : c ≠ '/' := fun hc => h cs (by rw [hp, hc])
      simp [this]

theorem IsName.not_isAbsolute {name : Name} (h : IsName name) : (Path.mk name).isAbsolute = false := by
  rw [isAbsolute_eq]
  cases hn : name.toList with
  | nil => rfl
  | cons c cs =>
    have : c ≠ '/' := fun hc => h.no_slash (by simp [hn, hc])
    simp [this]

theorem isAbsolute_join (p : Path) {name : Name} (h : IsName name) : (p.join ⟨name⟩).isAbsolute = p.isAbsolute := by
  rw [Path.join, h.not_isAbsolute]
  by_cases he : p.text = ""
  · have hp : p.isAbsolute = false := by simp [isAbsolute_eq, he]
    have hj := h.not_isAbsolute
    rw [hp]
    simpa [he] using hj
  · obtain ⟨c, cs, hc⟩ := List.exists_cons_of_ne_nil (show p.text.toList ≠ [] by simpa using he)
    simp only [Bool.false_eq_true, if_false]
    split <;> simp [isAbsolute_eq, hc]

theorem segments_join (p : Path) {name : Name} (h : IsName name) :
    ∃ pieces, (p.join ⟨name⟩).segments = pieces ++ [name.toList] ∧
      (p.segments = pieces ∨ p.segments = pieces ++ [[]]) := by
  have hs : splitOn '/' name.toList = [name.toList] := splitOn_of_notMem '/' _ h.no_slash
  rw [Path.join, h.not_isAbsolute]
  simp only [Bool.false_eq_true, if_false]
  by_cases he : p.text = ""
  · refine ⟨[], ?_, .inr ?_⟩
    · simp [Path.segments, he, hs]
    · simp [Path.segments, he, splitOn]
  · by_cases hl : p.text.toList.getLast? = some '/'
    · obtain ⟨cs, hc⟩ := List.getLast?_eq_some_iff.1 hl
      refine ⟨splitOn '/' cs, ?_, .inr ?_⟩
      · simp [Path.segments, hc, splitOn_append_cons, hs]
      · simp [Path.segments, hc, splitOn_append_cons, splitOn]
    · refine ⟨p.segments, ?_, .inl rfl⟩
      simp [Path.segments, he, hl, splitOn_append_cons, hs]

theorem names_join (p : Path) {name : Name} (h : IsName name) :
    ∃ pieces, names (p.join ⟨name⟩) = pieces ++ [name] ∧ (names p = pieces ∨ names p = pieces ++ [""]) := by
  obtain ⟨pieces, hj, hp⟩ := segments_join p h
  refine ⟨pieces.map String.ofList, by simp [names, hj], ?_⟩
  rcases hp with hp | hp <;> simp [names, hp]

theorem join_text_ends (p : Path) {name : Name} (h : IsName name) :
    ∃ cs, (p.join ⟨name⟩).text.toList = cs ++ name.toList := by
  rw [Path.join, h.not_isAbsolute]
  simp only [Bool.false_eq_true, if_false]
  split
  · exact ⟨p.text.toList, by simp⟩
  · exact ⟨p.text.toList ++ ['/'], by simp⟩

theorem join_text_ne_empty (p : Path) {name : Name} (h : IsName name) : (p.join ⟨name⟩).text.isEmpty = false := by
  obtain ⟨cs, hc⟩ := join_text_ends p h
  rw [Bool.eq_false_iff]
  intro he
  rw [String.isEmpty_iff] at he
  rw [he] at hc
  have : name.toList = [] := (List.append_eq_nil_iff.1 hc.symm).2
  exact h.ne_empty (by simpa using this)

theorem Fits.isPath {p : Path} {name : Name} (h : Fits p name) (hn : IsName name) : IsPath (p.join ⟨name⟩) :=
  ⟨fun he => by simpa [he] using join_text_ne_empty p hn, h.no_nul, h.short⟩

theorem join_inj {p : Path} {name name' : Name} (h : IsName name) (h' : IsName name')
    (he : p.join ⟨name⟩ = p.join ⟨name'⟩) : name = name' := by
  rw [Path.join, Path.join, h.not_isAbsolute, h'.not_isAbsolute] at he
  simp only [Bool.false_eq_true, if_false] at he
  split at he <;> simpa [← String.toList_inj] using he

theorem endsInSlash_join (p : Path) {name : Name} (h : IsName name) : endsInSlash (p.join ⟨name⟩) = false := by
  obtain ⟨cs, hc⟩ := join_text_ends p h
  have hne : name.toList ≠ [] := by simpa using h.ne_empty
  have hs : name.toList.getLast hne ≠ '/' := fun he => h.no_slash (he ▸ List.getLast_mem hne)
  rw [endsInSlash, hc, List.getLast?_append, List.getLast?_eq_some_getLast hne]
  simp [hs]

theorem locateForWriting_join (fs : FileSystem) (p : Path) {name : Name} (h : IsName name) :
    fs.locateForWriting (p.join ⟨name⟩) = fs.locate true (p.join ⟨name⟩) := by
  rw [locateForWriting, endsInSlash_join p h]
  simp only [Bool.false_eq_true, if_false]

section
variable {fs : FileSystem} {p : Path} {d : Address} {name : Name}

/-- A slash at the end of a path changes nothing about the directory it leads to. -/
theorem directoryAt_iff {pieces : List Name} (h : names p = pieces ∨ names p = pieces ++ [""]) :
    DirectoryAt fs p d ↔ ∃ left, Leads fs linkLimit (fs.start p) pieces left d := by
  rw [DirectoryAt]
  rcases h with h | h
  · rw [h]
  · rw [h]
    constructor
    · rintro ⟨left, hl⟩
      obtain ⟨left', d', hl'⟩ := exists_leads (by simp) hl.walk_eq (.inr ⟨d, rfl⟩)
      have hw := hl.walk_eq
      rw [hl'.walk_append true (by simp), walk_skip _ _ _ _ _ (.inl rfl), walk] at hw
      simp only [Except.ok.injEq, Place.occupied.injEq, and_true] at hw
      exact ⟨left', hw ▸ hl'⟩
    · rintro ⟨left, hl⟩
      exact ⟨left, hl.append (.skip (.inl rfl) .here)⟩

theorem locate_join_eq_walk (hd : DirectoryAt fs p d) (hn : IsName name) (hpath : IsPath (p.join ⟨name⟩)) :
    ∃ left, ∀ follow, fs.locate follow (p.join ⟨name⟩) = fs.walk follow left d [name] := by
  obtain ⟨pieces, hj, hp⟩ := names_join p hn
  obtain ⟨left, hw⟩ := (directoryAt_iff hp).1 hd
  refine ⟨left, fun follow => ?_⟩
  rw [start] at hw
  rw [locate, hpath.locateFrom, start, isAbsolute_join p hn, hj, hw.walk_append follow (by simp)]

/-- **Where no link stands under a name, the path of the entry leads to the entry itself or to its free place.** -/
theorem locate_join (hd : DirectoryAt fs p d) (hn : IsName name) (hf : Fits p name)
    (hl : fs.Unlinked (d ++ [name])) (follow : Bool) :
    fs.locate follow (p.join ⟨name⟩) =
      .ok (match fs.node? (d ++ [name]) with
        | none      => .vacant d name
        | some node => .occupied (d ++ [name]) node) := by
  obtain ⟨left, hw⟩ := locate_join_eq_walk hd hn (hf.isPath hn)
  have he := hn.isEntry hf
  rw [hw]
  cases h : fs.node? (d ++ [name]) with
  | none => exact walk_vacant _ _ _ he h
  | some node =>
    cases node with
    | file content modified executable => exact walk_file _ _ _ he h
    | directory => rw [walk_down _ _ _ he h, walk]
    | link target => exact absurd h (hl target)

theorem locate_join_of_not_fits (hd : DirectoryAt fs p d) (hn : IsName name) (hf : ¬Fits p name) (follow : Bool) :
    ∃ e, fs.locate follow (p.join ⟨name⟩) = .error e := by
  cases h : fs.locate follow (p.join ⟨name⟩) with
  | error e => exact ⟨e, rfl⟩
  | ok place =>
    -- the path can be passed, so it is the name that is too long
    have hpath := (locateFrom_ok h).1
    obtain ⟨left, hw⟩ := locate_join_eq_walk hd hn hpath
    have hlong : nameLimit < name.utf8ByteSize :=
      Nat.lt_of_not_le fun h => hf ⟨hpath.no_nul, hpath.short, h⟩
    have hc : ¬(name = "" ∨ name = ".") := fun h => h.elim hn.ne_empty hn.ne_here
    rw [hw, walk_long _ _ _ _ _ hc hn.ne_up hlong] at h
    cases h

/-- **A path that leads anywhere by a last name leads through a directory.** -/
theorem directoryAt_of_locate {follow : Bool} {place : Place} (hn : IsName name)
    (h : fs.locate follow (p.join ⟨name⟩) = .ok place) : (∃ d, DirectoryAt fs p d) ∧ Fits p name := by
  obtain ⟨pieces, hj, hp⟩ := names_join p hn
  have hw := (locateFrom_ok h).2
  rw [start, isAbsolute_join p hn, hj] at hw
  obtain ⟨left, d, hl⟩ := exists_leads (by simp) hw (.inl (by simp [hn.ne_empty]))
  have hd : DirectoryAt fs p d := (directoryAt_iff hp).2 ⟨left, hl⟩
  refine ⟨⟨d, hd⟩, Classical.byContradiction fun hf => ?_⟩
  obtain ⟨e, he⟩ := locate_join_of_not_fits hd hn hf follow
  rw [he] at h
  cases h

/-! ## Reading and writing an entry -/

theorem read_eq_ok_iff {fs : FileSystem} {p : Path} {content : ByteArray} :
    fs.read p = .ok content ↔
      ∃ a modified executable, fs.locate true p = .ok (.occupied a (.file content modified executable)) := by
  rw [FileSystem.read, stat]
  cases fs.locate true p with
  | error e => simp
  | ok place =>
    cases place with
    | vacant a name => simp
    | occupied a node => cases node <;> simp

theorem list_eq_ok_iff {fs : FileSystem} {p : Path} {entries : List (Name × Node)} :
    fs.list p = .ok entries ↔ ∃ a, fs.locate true p = .ok (.occupied a .directory) ∧ entries = fs.entries a := by
  rw [FileSystem.list, stat]
  cases fs.locate true p with
  | error e => simp
  | ok place =>
    cases place with
    | vacant a name => simp
    | occupied a node => cases node <;> simp [eq_comm]

/-- A directory that is listed is listed wherever its ways are kept, with what is in it there. -/
theorem KeepsWays.list {fs fs' : FileSystem} (hk : KeepsWays fs fs') {p : Path} {entries : List (Name × Node)}
    (h : fs.list p = .ok entries) : ∃ a, entries = fs.entries a ∧ fs'.list p = .ok (fs'.entries a) := by
  obtain ⟨a, hl, rfl⟩ := list_eq_ok_iff.1 h
  obtain ⟨hp, hw⟩ := locateFrom_ok hl
  refine ⟨a, rfl, list_eq_ok_iff.2 ⟨a, ?_, rfl⟩⟩
  rw [locate, hp.locateFrom, start, hk.workDir]
  exact hk.walk_of_directory hw

theorem modified?_eq_some_iff {fs : FileSystem} {p : Path} {t : Timestamp} :
    fs.modified? p = some t ↔ ∃ a content executable, fs.stat p = .ok (a, .file content t executable) := by
  rw [modified?]
  cases fs.stat p with
  | error e => simp
  | ok place =>
    obtain ⟨a, node⟩ := place
    cases node <;> simp

theorem content?_eq_some_iff {fs : FileSystem} {a : Address} {content : ByteArray} :
    fs.content? a = some content ↔ ∃ modified executable, fs.node? a = some (.file content modified executable) := by
  rw [content?]
  cases fs.node? a with
  | none => simp
  | some node => cases node <;> simp

theorem stat_join (hd : DirectoryAt fs p d) (hn : IsName name) (hf : Fits p name) (hl : fs.Unlinked (d ++ [name])) :
    fs.stat (p.join ⟨name⟩) =
      match fs.node? (d ++ [name]) with
      | none      => .error .notFound
      | some node => .ok (d ++ [name], node) := by
  rw [stat, locate_join hd hn hf hl true]
  cases fs.node? (d ++ [name]) <;> rfl

theorem stat_join_of_not_fits (hd : DirectoryAt fs p d) (hn : IsName name) (hf : ¬Fits p name) :
    ∃ e, fs.stat (p.join ⟨name⟩) = .error e := by
  obtain ⟨e, he⟩ := locate_join_of_not_fits hd hn hf true
  exact ⟨e, by rw [stat, he]⟩

/-- **An entry was last written at a time exactly when it is a regular file of that time, under a name that fits.** -/
theorem modified?_join (hd : DirectoryAt fs p d) (hn : IsName name) (hl : fs.Unlinked (d ++ [name])) (t : Timestamp) :
    fs.modified? (p.join ⟨name⟩) = some t ↔
      Fits p name ∧ ∃ content executable, fs.node? (d ++ [name]) = some (.file content t executable) := by
  by_cases hf : Fits p name
  · rw [modified?, stat_join hd hn hf hl]
    cases fs.node? (d ++ [name]) with
    | none => simp
    | some node => cases node <;> simp [hf]
  · obtain ⟨e, he⟩ := stat_join_of_not_fits hd hn hf
    rw [modified?, he]
    simp [hf]

theorem modified?_eq_of_node?_eq {fs' : FileSystem} (hd : DirectoryAt fs p d) (hd' : DirectoryAt fs' p d)
    (hn : IsName name) (hl : fs.Unlinked (d ++ [name])) (h : fs'.node? (d ++ [name]) = fs.node? (d ++ [name])) :
    fs'.modified? (p.join ⟨name⟩) = fs.modified? (p.join ⟨name⟩) := by
  have hl' : fs'.Unlinked (d ++ [name]) := fun t => h ▸ hl t
  ext t
  rw [modified?_join hd' hn hl', modified?_join hd hn hl, h]

theorem write_join (hd : DirectoryAt fs p d) (hn : IsName name) (hf : Fits p name) (hl : fs.Unlinked (d ++ [name]))
    (content : ByteArray) :
    fs.write (p.join ⟨name⟩) content =
      match fs.node? (d ++ [name]) with
      | none                       => .ok (fs.store (d ++ [name]) content false)
      | some (.file _ _ executable) => .ok (fs.store (d ++ [name]) content executable)
      | some _                     => .error .isADirectory := by
  rw [write, locateForWriting_join fs p hn, locate_join hd hn hf hl true]
  cases fs.node? (d ++ [name]) with
  | none => rfl
  | some node => cases node <;> rfl

theorem write_join_of_not_fits (hd : DirectoryAt fs p d) (hn : IsName name) (hf : ¬Fits p name)
    (content : ByteArray) : ∃ e, fs.write (p.join ⟨name⟩) content = .error e := by
  obtain ⟨e, he⟩ := locate_join_of_not_fits hd hn hf true
  refine ⟨e, ?_⟩
  rw [write, locateForWriting_join fs p hn, he]

theorem read_join_iff (hd : DirectoryAt fs p d) (hn : IsName name) (hl : fs.Unlinked (d ++ [name]))
    (content : ByteArray) :
    fs.read (p.join ⟨name⟩) = .ok content ↔ Fits p name ∧ fs.content? (d ++ [name]) = some content := by
  by_cases hf : Fits p name
  · rw [read, content?, stat_join hd hn hf hl]
    cases fs.node? (d ++ [name]) with
    | none => simp
    | some node => cases node <;> simp [hf]
  · obtain ⟨e, he⟩ := stat_join_of_not_fits hd hn hf
    rw [read, he]
    simp [hf]

/-- An entry that is the same reads the same. -/
theorem read_iff_of_node?_eq {fs' : FileSystem} (hd : DirectoryAt fs p d) (hd' : DirectoryAt fs' p d) (hn : IsName name)
    (hl : fs.Unlinked (d ++ [name])) (h : fs'.node? (d ++ [name]) = fs.node? (d ++ [name])) (content : ByteArray) :
    fs'.read (p.join ⟨name⟩) = .ok content ↔ fs.read (p.join ⟨name⟩) = .ok content := by
  have hl' : fs'.Unlinked (d ++ [name]) := fun t => h ▸ hl t
  rw [read_join_iff hd' hn hl', read_join_iff hd hn hl, content?, content?, h]

/-- What can be written by the path of an entry has its directory. -/
theorem directoryAt_of_write {fs' : FileSystem} {content : ByteArray} (hn : IsName name)
    (h : fs.write (p.join ⟨name⟩) content = .ok fs') : (∃ d, DirectoryAt fs p d) ∧ Fits p name := by
  rw [write, locateForWriting_join fs p hn] at h
  cases hl : fs.locate true (p.join ⟨name⟩) with
  | error e => rw [hl] at h; cases h
  | ok place => exact directoryAt_of_locate hn hl

end

/-! ## One file stored -/

section
variable (fs : FileSystem) {a : Address} (content : ByteArray) (executable : Bool)

theorem node?_store_self (ha : a ≠ []) :
    (fs.store a content executable).node? a = some (.file content fs.clock executable) := by
  have : (fs.store a content executable).node? a = (fs.put a (.file content fs.clock executable)).node? a := by
    cases a <;> rfl
  rw [this, node?_put_self fs ha]

theorem node?_store_of_ne {b : Address} (h : b ≠ a) : (fs.store a content executable).node? b = fs.node? b := by
  have : (fs.store a content executable).node? b = (fs.put a (.file content fs.clock executable)).node? b := by
    cases b <;> rfl
  rw [this, node?_put_of_ne fs h]

theorem Unlinked.store {b : Address} (h : fs.Unlinked b) : (fs.store a content executable).Unlinked b := by
  intro target ht
  by_cases hb : b = a
  · subst hb
    cases b with
    | nil => cases ht
    | cons n b =>
      rw [node?_store_self fs content executable (List.cons_ne_nil n b)] at ht
      cases ht
  · rw [node?_store_of_ne fs content executable hb] at ht
    exact h target ht

/-- A place for a file: free, or a file. -/
def Storable (fs : FileSystem) (a : Address) : Prop :=
  fs.node? a = none ∨ ∃ content modified executable, fs.node? a = some (.file content modified executable)

variable {fs}

theorem Storable.congr {fs' : FileSystem} (h : fs.Storable a) (hn : fs'.node? a = fs.node? a) : fs'.Storable a := by
  rw [Storable, hn]
  exact h

theorem Storable.ne_nil (h : fs.Storable a) : a ≠ [] := by
  rintro rfl
  rcases h with h | ⟨_, _, _, h⟩ <;> simp [node?] at h

theorem Storable.unlinked (h : fs.Storable a) : fs.Unlinked a := by
  intro target ht
  rcases h with h | ⟨_, _, _, h⟩ <;> rw [h] at ht <;> cases ht

/-- **Storing a file takes no way away.** -/
theorem Storable.keepsWays (h : fs.Storable a) : KeepsWays fs (fs.store a content executable) := by
  have hne : ∀ b node, fs.node? b = some node → (∀ c m x, node ≠ .file c m x) → b ≠ a := by
    rintro b node hb hf rfl
    rcases h with h | ⟨c, m, x, h⟩
    · rw [h] at hb; cases hb
    · rw [h] at hb; cases hb; exact hf c m x rfl
  refine ⟨rfl, fun b hb => ?_, fun b target hb => ?_⟩
  · rw [node?_store_of_ne fs content executable (hne b _ hb (by intros; simp)), hb]
  · rw [node?_store_of_ne fs content executable (hne b _ hb (by intros; simp)), hb]

end

/-! ## Writing an entry -/

section
variable {fs fs' : FileSystem} {p : Path} {d : Address} {name : Name} {content : ByteArray}

/-- A write that succeeds has stored a file in the place of the entry. -/
theorem store_of_write (hd : DirectoryAt fs p d) (hn : IsName name) (hl : fs.Unlinked (d ++ [name]))
    (h : fs.write (p.join ⟨name⟩) content = .ok fs') :
    Fits p name ∧ fs.Storable (d ++ [name]) ∧ ∃ executable, fs' = fs.store (d ++ [name]) content executable := by
  have hf := (directoryAt_of_write hn h).2
  rw [write_join hd hn hf hl] at h
  cases hnode : fs.node? (d ++ [name]) with
  | none =>
    rw [hnode] at h
    cases h
    exact ⟨hf, .inl hnode, false, rfl⟩
  | some node =>
    rw [hnode] at h
    cases node with
    | file c m executable =>
      cases h
      exact ⟨hf, .inr ⟨c, m, executable, hnode⟩, executable, rfl⟩
    | directory => cases h
    | link target => cases h

theorem exists_write (hd : DirectoryAt fs p d) (hn : IsName name) (hf : Fits p name) (h : fs.Storable (d ++ [name]))
    (content : ByteArray) : ∃ fs', fs.write (p.join ⟨name⟩) content = .ok fs' := by
  rw [write_join hd hn hf h.unlinked]
  rcases h with h | ⟨_, _, _, h⟩
  · exact ⟨_, by rw [h]⟩
  · exact ⟨_, by rw [h]⟩

/-- A file that can be read can be written. -/
theorem exists_write_of_read {content : ByteArray} (hn : IsName name) (h : fs.read (p.join ⟨name⟩) = .ok content)
    (content' : ByteArray) : ∃ fs', fs.write (p.join ⟨name⟩) content' = .ok fs' := by
  obtain ⟨a, modified, executable, hl⟩ := read_eq_ok_iff.1 h
  refine ⟨fs.store a content' executable, ?_⟩
  rw [write, locateForWriting_join fs p hn, hl]

/-- **A file that was there reads as written**, wherever links lead to it. -/
theorem read_of_write_of_read {content content' : ByteArray} (hn : IsName name)
    (h : fs.read (p.join ⟨name⟩) = .ok content) (hw : fs.write (p.join ⟨name⟩) content' = .ok fs') :
    fs'.read (p.join ⟨name⟩) = .ok content' := by
  obtain ⟨a, modified, executable, hl⟩ := read_eq_ok_iff.1 h
  rw [write, locateForWriting_join fs p hn, hl] at hw
  cases hw
  obtain ⟨hp, hwalk⟩ := locateFrom_ok hl
  have hst : fs.Storable a := .inr ⟨_, _, _, node?_of_occupied hwalk⟩
  have hself := node?_store_self fs content' executable hst.ne_nil
  refine read_eq_ok_iff.2 ⟨a, fs.clock, executable, ?_⟩
  rw [locate, hp.locateFrom]
  exact (hst.keepsWays content' executable).walk_of_file hwalk hself

/-- **Writing one entry does not change what another reads.** -/
theorem read_of_write_of_ne {name' : Name} (hd : DirectoryAt fs p d) (hn : IsName name) (hn' : IsName name')
    (hl : fs.Unlinked (d ++ [name])) (hl' : fs.Unlinked (d ++ [name'])) (hne : name' ≠ name)
    (h : fs.write (p.join ⟨name⟩) content = .ok fs') (content' : ByteArray) :
    fs'.read (p.join ⟨name'⟩) = .ok content' ↔ fs.read (p.join ⟨name'⟩) = .ok content' := by
  obtain ⟨-, hst, executable, rfl⟩ := store_of_write hd hn hl h
  have hd' := hd.of_keepsWays (hst.keepsWays content executable)
  have hother := node?_store_of_ne fs content executable (a := d ++ [name]) (b := d ++ [name']) (by simpa using hne)
  exact read_iff_of_node?_eq hd hd' hn' hl' hother content'

/-- Writing by the path of an entry takes no way away, also where a link leads elsewhere. -/
theorem keepsWays_of_write (hn : IsName name) (h : fs.write (p.join ⟨name⟩) content = .ok fs') : KeepsWays fs fs' := by
  rw [write, locateForWriting_join fs p hn] at h
  cases hl : fs.locate true (p.join ⟨name⟩) with
  | error e => rw [hl] at h; cases h
  | ok place =>
    rw [hl] at h
    have hw := (locateFrom_ok hl).2
    cases place with
    | vacant b n =>
      cases h
      exact Storable.keepsWays _ _ (.inl (node?_of_vacant hw))
    | occupied a node =>
      cases node with
      | file c m x =>
        cases h
        exact Storable.keepsWays _ _ (.inr ⟨c, m, x, node?_of_occupied hw⟩)
      | directory => cases h
      | link target => cases h

end
end Recheck.FileSystem
