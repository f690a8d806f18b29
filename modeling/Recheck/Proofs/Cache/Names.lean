import Recheck.Cache.Layout
import Recheck.Proofs.FileSystem.Entries
/-!
# The names of the cache

Results, object files and the record are entries of the objects directory, whatever the sources are called
(`isName_resultName` and its like), and their names end differently, so none of them is ever another's.
-/
namespace Recheck

/-! ## Pieces of names -/

theorem Path.not_mem_of_fileName? {p : Path} {name : List Char} (h : p.fileName? = some name) : '/' ∉ name := by
  have hbody : ∀ s ∈ p.body, '/' ∉ s := by
    intro s hs
    have hseg : s ∈ p.segments := by
      rw [body] at hs
      split at hs
      · exact hs
      · exact List.mem_of_mem_tail hs
    exact notMem_of_mem_splitOn '/' _ s hseg
  obtain ⟨⟨before, last⟩, hl, hn⟩ := Option.bind_eq_some_iff.1 h
  simp only [Option.ite_none_left_eq_some, Option.some.injEq] at hn
  obtain ⟨-, rfl⟩ := hn
  rw [splitLast?] at hl
  split at hl
  · cases hl
  · rename_i last' before' hd
    simp only [Option.some.injEq, Prod.mk.injEq] at hl
    obtain ⟨-, rfl⟩ := hl
    have hm : last' ∈ p.body.reverse.dropWhile (!isStep ·) := by rw [hd]; exact List.mem_cons_self
    exact hbody last' (List.mem_reverse.1 ((List.dropWhile_suffix _).subset hm))

theorem Path.splitExtension_subset (name : List Char) : (splitExtension name).1 ⊆ name := by
  intro c hc
  rw [splitExtension] at hc
  split at hc
  · exact hc
  · exact hc
  · rename_i dot before _ hd
    have hm : c ∈ name.reverse.dropWhile (· ≠ '.') := by
      rw [hd]
      exact List.mem_cons_of_mem _ (List.mem_reverse.1 hc)
    exact List.mem_reverse.1 ((List.dropWhile_suffix _).subset hm)

namespace CacheLayout
open FileSystem

theorem not_mem_stem (source : Path) : '/' ∉ (stem source).toList := by
  rw [stem, String.toList_ofList, Path.stem?]
  cases h : source.fileName? with
  | none => simp
  | some name =>
    intro hc
    exact Path.not_mem_of_fileName? h (Path.splitExtension_subset name hc)

theorem not_mem_pathDigest (source : Path) : '/' ∉ (pathDigest source).toList := by
  have hdigit : ∀ n < 16, Nat.digitChar n ≠ '/' := by decide
  rw [pathDigest, String.toList_ofList]
  intro hc
  obtain ⟨b, -, hb⟩ := List.mem_flatMap.1 (List.mem_of_mem_take hc)
  have hlt := b.toNat_lt
  rcases List.mem_cons.1 hb with hb | hb
  · exact hdigit _ (by omega) hb.symm
  · exact hdigit _ (Nat.mod_lt _ (by decide)) (List.mem_singleton.1 hb).symm

/-! ## Names of entries -/

/-- A text without slashes that does not end in a dot is the name of an entry. -/
theorem isName_of_last {name : Name} (cs : List Char) {c : Char} (h : name.toList = cs ++ [c]) (hs : '/' ∉ name.toList)
    (hc : c ≠ '.') : IsName name := by
  have hlast : name.toList.getLast? = some c := by rw [h, List.getLast?_concat]
  refine ⟨?_, ?_, ?_, hs⟩
  · rintro rfl
    cases hlast
  · rintro rfl
    cases hlast
    exact hc rfl
  · rintro rfl
    cases hlast
    exact hc rfl

theorem toList_resultName (key : CacheKey) (source : Path) :
    ∃ cs, (resultName key source).toList = cs ++ ".nul".toList ++ ['l'] ∧ '/' ∉ cs := by
  cases key with
  | basename =>
    exact ⟨(stem source).toList, by simp [resultName, resultExtension], not_mem_stem source⟩
  | pathHash =>
    refine ⟨(stem source).toList ++ '-' :: (pathDigest source).toList, by simp [resultName, resultExtension], ?_⟩
    simp [not_mem_stem source, not_mem_pathDigest source]

theorem isName_resultName (key : CacheKey) (source : Path) : IsName (resultName key source) := by
  obtain ⟨cs, hcs, hs⟩ := toList_resultName key source
  refine isName_of_last _ hcs ?_ (by decide)
  rw [hcs]
  simp [hs]

theorem isName_objectName (source : Path) : IsName (objectName source) := by
  refine isName_of_last ((stem source).toList ++ ['.']) (c := 'o') ?_ ?_ (by decide)
  · simp [objectName, objectExtension]
  · simp [objectName, objectExtension, not_mem_stem source]

theorem isName_recordName : IsName recordName :=
  isName_of_last "nullarihyon.confi".toList (c := 'g') (by rfl) (by decide) (by decide)

theorem getLast?_resultName (key : CacheKey) (source : Path) : (resultName key source).toList.getLast? = some 'l' := by
  obtain ⟨cs, hcs, -⟩ := toList_resultName key source
  rw [hcs, List.getLast?_concat]

theorem getLast?_objectName (source : Path) : (objectName source).toList.getLast? = some 'o' := by
  simp [objectName, objectExtension, List.getLast?_append]

theorem resultName_ne_recordName (key : CacheKey) (source : Path) : resultName key source ≠ recordName := by
  intro h
  have := getLast?_resultName key source
  rw [h] at this
  exact absurd this (by decide)

theorem resultName_ne_objectName (key : CacheKey) (source source' : Path) :
    resultName key source ≠ objectName source' := by
  intro h
  have := getLast?_resultName key source
  rw [h, getLast?_objectName] at this
  exact absurd this (by decide)

theorem objectName_ne_recordName (source : Path) : objectName source ≠ recordName := by
  intro h
  have := getLast?_objectName source
  rw [h] at this
  exact absurd this (by decide)

end CacheLayout
end Recheck
