import Mathlib.Data.List.Sort
import Recheck.Sdk
/-!
# Tables of SDKs

What a table holds under a name, and what inserting does to it (`lookup_insert`).  A table stays in the order of its
names, each of which it has once (`Ascends.insert`).  Of paths inserted one after the other it holds the last of each
key (`lookup_tableOf`).  The alias is inserted where it is missing, and nothing else changes (`lookup_withAlias_of_ne`).
-/
namespace Recheck.Sdk

/-- A name that goes on with a digit after `macosx`. -/
def Versioned (name : String) : Prop := ∃ digit rest, name.toList = aliasName.toList ++ digit :: rest ∧ digit.isDigit

theorem isVersioned_iff {name : String} : isVersioned name = true ↔ Versioned name := by
  rw [isVersioned, Versioned, Bool.and_eq_true, List.isPrefixOf_iff_prefix]
  constructor
  · rintro ⟨⟨rest, hrest⟩, hdigit⟩
    have hdrop : name.toList.drop aliasName.length = rest := by
      rw [← hrest]
      exact List.drop_left
    rw [hdrop] at hdigit
    cases rest with
    | nil => cases hdigit
    | cons digit rest => exact ⟨digit, rest, hrest.symm, hdigit⟩
  · rintro ⟨digit, rest, hname, hdigit⟩
    rw [hname]
    exact ⟨⟨_, rfl⟩, hdigit⟩

/-- Where no key is there twice, a pair that is there is found. -/
theorem lookup_iff_mem {α β : Type} [BEq α] [LawfulBEq α] {l : List (α × β)} (hn : (l.map Prod.fst).Nodup) {a : α}
    {b : β} : l.lookup a = some b ↔ (a, b) ∈ l := by
  rw [List.lookup_eq_some_iff]
  constructor
  · rintro ⟨before, after, rfl, -⟩
    simp
  · intro hm
    obtain ⟨before, after, rfl⟩ := List.append_of_mem hm
    rw [List.map_append, List.nodup_append] at hn
    refine ⟨before, after, rfl, fun e he => bne_iff_ne.2 (Ne.symm ?_)⟩
    exact hn.2.2 e.1 (List.mem_map_of_mem he) a List.mem_cons_self

/-- The last of a sorted list is the greatest in it. -/
theorem le_getLast? {α : Type} {key : α → String} {l : List α} (h : l.Pairwise fun x y => key x ≤ key y) {last : α}
    (hlast : l.getLast? = some last) : ∀ x ∈ l, key x ≤ key last := by
  obtain ⟨init, rfl⟩ := List.getLast?_eq_some_iff.1 hlast
  intro x hx
  obtain hx | hx := List.mem_append.1 hx
  · exact (List.pairwise_append.1 h).2.2 x hx last List.mem_cons_self
  · obtain rfl := List.mem_singleton.1 hx
    exact String.le_refl _

namespace Table

/-- The names stand in their order, and none of them twice. -/
def Ascends (t : Table) : Prop := t.Pairwise (·.1 < ·.1)

theorem lookup_insert (t : Table) (name k : String) (path : Path) :
    (t.insert name path).lookup k = if k = name then some path else t.lookup k := by
  have hcons : ∀ (n : String) (p : Path) (rest : Table),
      List.lookup k ((n, p) :: rest) = if k = n then some p else rest.lookup k := by
    intro n p rest
    by_cases h : k = n
    · rw [List.lookup_cons, beq_iff_eq.2 h, if_pos h]
    · rw [List.lookup_cons, beq_eq_false_iff_ne.2 h, if_neg h]
  induction t with
  | nil => rw [insert, hcons]
  | cons e rest ih =>
    obtain ⟨n, p⟩ := e
    rw [insert]
    split
    · rename_i heq
      subst heq
      rw [hcons, hcons]
      split <;> rfl
    · rename_i hne
      split
      · rw [hcons]
      · rw [hcons, hcons, ih]
        -- the two names differ, so it does not matter which is compared first
        by_cases hk : k = n
        · rw [if_pos hk, if_pos hk, if_neg (hk ▸ Ne.symm hne)]
        · rw [if_neg hk, if_neg hk]

theorem mem_insert {t : Table} {name : String} {path : Path} {e : String × Path} (h : e ∈ t.insert name path) :
    e = (name, path) ∨ e ∈ t := by
  induction t with
  | nil => exact .inl (List.mem_singleton.1 h)
  | cons e' rest ih =>
    obtain ⟨n, p⟩ := e'
    rw [insert] at h
    split at h
    · exact (List.mem_cons.1 h).imp_right (List.mem_cons_of_mem _)
    · split at h
      · exact List.mem_cons.1 h
      · obtain rfl | h := List.mem_cons.1 h
        · exact .inr List.mem_cons_self
        · exact (ih h).imp_right (List.mem_cons_of_mem _)

/-- **Inserting keeps a table in order.** -/
theorem Ascends.insert {t : Table} (h : t.Ascends) (name : String) (path : Path) :
    (t.insert name path).Ascends := by
  induction t with
  | nil => exact List.pairwise_singleton _ _
  | cons e rest ih =>
    obtain ⟨n, p⟩ := e
    obtain ⟨hfirst, hrest⟩ := List.pairwise_cons.1 h
    rw [Table.insert]
    split
    · rename_i heq
      subst heq
      exact List.pairwise_cons.2 ⟨hfirst, hrest⟩
    · rename_i hne
      split
      · rename_i hlt
        refine List.pairwise_cons.2 ⟨fun e he => ?_, h⟩
        obtain rfl | he := List.mem_cons.1 he
        · exact hlt
        · exact String.lt_trans hlt (hfirst e he)
      · rename_i hge
        refine List.pairwise_cons.2 ⟨fun e he => ?_, ih hrest⟩
        obtain rfl | he := mem_insert he
        · exact String.not_le.1 fun hle => hne (String.le_antisymm hle (String.not_lt.1 hge))
        · exact hfirst e he

/-- What stands in a table is found under its name. -/
theorem Ascends.lookup_eq_some_iff {t : Table} (h : t.Ascends) {name : String} {path : Path} :
    t.lookup name = some path ↔ (name, path) ∈ t := by
  have hnames : (t.map Prod.fst).Nodup := by
    refine List.pairwise_map.2 (h.imp fun {e e'} hlt heq => ?_)
    rw [heq] at hlt
    exact String.lt_irrefl _ hlt
  exact lookup_iff_mem hnames

/-- Two tables in order that hold the same under every name are one. -/
theorem Ascends.ext {t t' : Table} (h : t.Ascends) (h' : t'.Ascends) (heq : ∀ k, t.lookup k = t'.lookup k) :
    t = t' := by
  have : Std.Irrefl fun e e' : String × Path => e.1 < e'.1 := ⟨fun e => String.lt_irrefl e.1⟩
  have : Std.Antisymm fun e e' : String × Path => e.1 < e'.1 :=
    ⟨fun e e' hlt hgt => absurd (String.lt_trans hlt hgt) (String.lt_irrefl e.1)⟩
  refine List.Pairwise.eq_of_mem_iff h h' fun e => ?_
  rw [← h.lookup_eq_some_iff, ← h'.lookup_eq_some_iff, heq]

end Table

/-! ## Paths inserted one after the other -/

/-- The table of some paths, each under its key. -/
def tableOf (sdks : List Path) (t : Table) : Table := sdks.foldl (fun t sdk => t.insert (keyOf sdk) sdk) t

theorem named_eq (fs : FileSystem) (developerDir : Path) : named fs developerDir = tableOf (all fs developerDir) [] :=
  rfl

theorem ascends_tableOf : ∀ (sdks : List Path) {t : Table}, t.Ascends → (tableOf sdks t).Ascends
  | [], _, h => h
  | sdk :: sdks, _, h => ascends_tableOf sdks (h.insert (keyOf sdk) sdk)

/-- **The last path of a key is the one that stays.** -/
theorem lookup_tableOf (k : String) : ∀ (sdks : List Path) (t : Table),
    (tableOf sdks t).lookup k = (sdks.filter (keyOf · = k)).getLast?.or (t.lookup k)
  | [], t => rfl
  | sdk :: sdks, t => by
    have ih := lookup_tableOf k sdks (t.insert (keyOf sdk) sdk)
    rw [Table.lookup_insert] at ih
    rw [tableOf, List.foldl_cons, ← tableOf, ih]
    by_cases hk : keyOf sdk = k
    · rw [if_pos hk.symm, List.filter_cons_of_pos (by simpa using hk), List.getLast?_cons]
      cases (sdks.filter (keyOf · = k)).getLast? <;> rfl
    · rw [if_neg (Ne.symm hk), List.filter_cons_of_neg (by simpa using hk)]

/-! ## The alias -/

section
variable {t : Table}

theorem withAlias_of_lookup {path : Path} (h : t.lookup aliasName = some path) : withAlias t = t := by
  rw [withAlias, h]
  rfl

/-- The alias takes nothing away. -/
theorem lookup_withAlias_of_ne {k : String} (hk : k ≠ aliasName) : (withAlias t).lookup k = t.lookup k := by
  rw [withAlias]
  split
  · rfl
  · split
    · rw [Table.lookup_insert, if_neg hk]
    · rfl

theorem lookup_withAlias (h : t.lookup aliasName = none) :
    (withAlias t).lookup aliasName = ((t.filter fun e => isVersioned e.1).getLast?).map Prod.snd := by
  rw [withAlias, h]
  simp only [Option.isSome_none, Bool.false_eq_true, if_false]
  cases (t.filter fun e => isVersioned e.1).getLast? with
  | none => exact h
  | some e => rw [Table.lookup_insert, if_pos rfl]; rfl

theorem Table.Ascends.mem_versioned (ht : t.Ascends) {k : String} {path : Path} :
    (k, path) ∈ t.filter (fun e => isVersioned e.1) ↔ Versioned k ∧ t.lookup k = some path := by
  rw [List.mem_filter, isVersioned_iff, ht.lookup_eq_some_iff, and_comm]

/-- **The alias stands for the last of the names that go on with a digit**, where there is no entry of its own. -/
theorem lookup_withAlias_iff (ht : t.Ascends) (h : t.lookup aliasName = none) {path : Path} :
    (withAlias t).lookup aliasName = some path ↔
      ∃ k, Versioned k ∧ t.lookup k = some path ∧
        ∀ other, Versioned other → (∃ path', t.lookup other = some path') → other ≤ k := by
  have hsorted : (t.filter fun e => isVersioned e.1).Pairwise fun e e' => e.1 ≤ e'.1 :=
    (ht.filter _).imp fun hlt => String.not_lt.1 fun hgt => String.lt_irrefl _ (String.lt_trans hlt hgt)
  rw [lookup_withAlias h, Option.map_eq_some_iff]
  constructor
  · rintro ⟨⟨k, path⟩, hk, rfl⟩
    obtain ⟨hv, hl⟩ := ht.mem_versioned.1 (List.mem_of_getLast? hk)
    refine ⟨k, hv, hl, fun other hv' hl' => ?_⟩
    obtain ⟨path', hl'⟩ := hl'
    exact le_getLast? hsorted hk _ (ht.mem_versioned.2 ⟨hv', hl'⟩)
  · rintro ⟨k, hv, hl, hgreatest⟩
    have hk := ht.mem_versioned.2 ⟨hv, hl⟩
    cases he : (t.filter fun e => isVersioned e.1).getLast? with
    | none => rw [List.getLast?_eq_none_iff.1 he] at hk; cases hk
    | some e =>
      obtain ⟨hv', hl'⟩ := ht.mem_versioned.1 (List.mem_of_getLast? he)
      have hek : e.1 = k := String.le_antisymm (hgreatest _ hv' ⟨_, hl'⟩) (le_getLast? hsorted he _ hk)
      rw [hek] at hl'
      exact ⟨e, rfl, Option.some.inj (hl'.symm.trans hl)⟩

/-- There is an alias where there is something for it to stand for. -/
theorem exists_lookup_withAlias_iff (ht : t.Ascends) (h : t.lookup aliasName = none) :
    (∃ path, (withAlias t).lookup aliasName = some path) ↔ ∃ k, Versioned k ∧ ∃ path, t.lookup k = some path := by
  constructor
  · rintro ⟨path, hl⟩
    obtain ⟨k, hv, hk, -⟩ := (lookup_withAlias_iff ht h).1 hl
    exact ⟨k, hv, path, hk⟩
  · rintro ⟨k, hv, path, hk⟩
    have hm := ht.mem_versioned.2 ⟨hv, hk⟩
    rw [lookup_withAlias h, ← Option.isSome_iff_exists, Option.isSome_map, Option.isSome_iff_ne_none, ne_eq,
      List.getLast?_eq_none_iff]
    exact List.ne_nil_of_mem hm

theorem ascends_withAlias (h : t.Ascends) : (withAlias t).Ascends := by
  rw [withAlias]
  split
  · exact h
  · split
    · exact h.insert _ _
    · exact h

end
end Recheck.Sdk
