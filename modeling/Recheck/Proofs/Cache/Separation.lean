import Recheck.Proofs.Cache.Names
import Recheck.Proofs.Dispatch.Jobs
import Recheck.Proofs.FileSystem.Components
/-!
# What sources share in the cache

All paths of a layout are those of entries of the objects directory, and results, object files and the record are never
each other's.  Two sources share an object file exactly if they have one stem.  The names of their results have the
digest between the stem and the ending, if the layout asks for it; it has a fixed length (`length_pathDigest`), so a
name can be cut into its parts from the end (`resultName_inj`), whatever stands in the stem.
-/
namespace Recheck

namespace Sha256

theorem length_digest (message : List UInt8) : (digest message).length = 32 := by
  rw [digest]
  simp [State.words, bytesOfWord]

theorem length_hex (bytes : List UInt8) : (hex bytes).length = 2 * bytes.length := by
  rw [hex, List.length_flatMap]
  simp only [List.length_cons, List.length_nil, List.map_const', List.sum_replicate_nat]
  omega

end Sha256

namespace CacheLayout
open FileSystem

/-- The digest of the text of a path, in hexadecimal digits. -/
def pathHex (source : Path) : List Char := Sha256.hex (Sha256.digest (Utf8.encode source.text).data.toList)

theorem length_pathHex (source : Path) : (pathHex source).length = 64 := by
  rw [pathHex, Sha256.length_hex, Sha256.length_digest]

theorem pathDigest_inj {source source' : Path} :
    pathDigest source = pathDigest source' ↔ (pathHex source).take 16 = (pathHex source').take 16 :=
  String.ofList_inj

theorem length_pathDigest (source : Path) : (pathDigest source).toList.length = 16 := by
  have hlength := length_pathHex source
  rw [pathDigest, String.toList_ofList, ← pathHex, List.length_take, hlength]
  rfl

theorem objectName_inj {source source' : Path} :
    objectName source = objectName source' ↔ stem source = stem source' := by
  simp [objectName, ← String.toList_inj]

theorem resultName_inj {key : CacheKey} {source source' : Path} :
    resultName key source = resultName key source' ↔
      stem source = stem source' ∧
        (key = .pathHash → (pathHex source).take 16 = (pathHex source').take 16) := by
  cases key with
  | basename => simp [resultName, ← String.toList_inj]
  | pathHash =>
    have hparts : ∀ s : Path, (resultName .pathHash s).toList =
        (stem s).toList ++ '-' :: ((pathDigest s).toList ++ ".null".toList) := by
      intro s
      simp [resultName, resultExtension]
    rw [← String.toList_inj, hparts, hparts, ← pathDigest_inj]
    constructor
    · intro h
      -- what follows the stem has the same length for all sources
      obtain ⟨hstem, hrest⟩ := List.append_inj' h (by simp [length_pathDigest])
      have hdigest := List.append_cancel_right (List.cons.inj hrest).2
      exact ⟨String.toList_inj.1 hstem, fun _ => String.toList_inj.1 hdigest⟩
    · rintro ⟨hstem, hdigest⟩
      rw [hstem, hdigest rfl]

/-! ## Paths -/

/-- Entries of one directory have one path, in whatever spelling, exactly if they have one name. -/
theorem same_join_iff {p : Path} {name name' : Name} (h : IsName name) (h' : IsName name') :
    (p.join ⟨name⟩).Same (p.join ⟨name'⟩) ↔ name = name' := by
  rw [Path.Same, Path.components_join h, Path.components_join h']
  simp [String.toList_inj]

theorem join_inj_iff {p : Path} {name name' : Name} (h : IsName name) (h' : IsName name') :
    p.join ⟨name⟩ = p.join ⟨name'⟩ ↔ name = name' :=
  ⟨join_inj h h', fun he => by rw [he]⟩

/-- Writing a result changes no other address, where no link stands in its place. -/
theorem node?_of_write {l : CacheLayout} {fs fs' : FileSystem} {d a : Address} {source : Path} {text : String}
    (hd : DirectoryAt fs l.objectsDir d) (hl : fs.Unlinked (d ++ [resultName l.key source]))
    (h : l.write fs source text = .ok fs') (ha : a ≠ d ++ [resultName l.key source]) : fs'.node? a = fs.node? a := by
  obtain ⟨-, -, executable, rfl⟩ := store_of_write hd (isName_resultName l.key source) hl h
  exact node?_store_of_ne fs _ executable ha

end CacheLayout

open FileSystem CacheLayout

/-- **What the paths of a layout have to do with each other.**  Whatever the sources are called, object files and
results are entries right below the objects directory, and a result, an object file and the record are never one path,
in whatever spelling.  Two sources have one object file exactly if they have one stem, and one result exactly if they
have one stem and, where the layout goes by the digests of their paths, these begin with the same sixteen digits.  So
writing a result leaves all object files and the record as they are, unless a link in its place leads elsewhere. -/
theorem paths_apart (l : CacheLayout) (source source' : Path) :
    (l.objectPath source).ChildOf l.objectsDir ∧ (l.resultPath source).ChildOf l.objectsDir ∧
    ¬(l.resultPath source).Same (l.objectPath source') ∧ ¬(l.resultPath source).Same l.recordPath ∧
    ¬(l.objectPath source').Same l.recordPath ∧
    (l.objectPath source = l.objectPath source' ↔ stem source = stem source') ∧
    ((l.objectPath source).Same (l.objectPath source') ↔ stem source = stem source') ∧
    (l.resultPath source = l.resultPath source' ↔ stem source = stem source' ∧
      (l.key = .pathHash → (pathHex source).take 16 = (pathHex source').take 16)) ∧
    ((l.resultPath source).Same (l.resultPath source') ↔ stem source = stem source' ∧
      (l.key = .pathHash → (pathHex source).take 16 = (pathHex source').take 16)) ∧
    ∀ fs fs' d text, DirectoryAt fs l.objectsDir d → fs.Unlinked (d ++ [resultName l.key source]) →
      l.write fs source text = .ok fs' →
        fs'.node? (d ++ [objectName source']) = fs.node? (d ++ [objectName source']) ∧
        fs'.node? (d ++ [recordName]) = fs.node? (d ++ [recordName]) := by
  have hresult := isName_resultName l.key source
  have hobject := isName_objectName source
  have hobject' := isName_objectName source'
  have hresult' := isName_resultName l.key source'
  have hname : ∀ {name name' : Name} {d : Address}, name ≠ name' → d ++ [name] ≠ d ++ [name'] :=
    fun hne he => hne (List.singleton_inj.1 (List.append_cancel_left he))
  refine ⟨Path.childOf_join _ hobject, Path.childOf_join _ hresult, ?_, ?_, ?_, ?_, ?_, ?_, ?_, ?_⟩
  · exact fun h => resultName_ne_objectName _ _ _ ((same_join_iff hresult hobject').1 h)
  · exact fun h => resultName_ne_recordName _ _ ((same_join_iff hresult isName_recordName).1 h)
  · exact fun h => objectName_ne_recordName _ ((same_join_iff hobject' isName_recordName).1 h)
  · exact (join_inj_iff hobject hobject').trans objectName_inj
  · exact (same_join_iff hobject hobject').trans objectName_inj
  · exact (join_inj_iff hresult hresult').trans resultName_inj
  · exact (same_join_iff hresult hresult').trans resultName_inj
  · intro fs fs' d text hd hl h
    exact ⟨node?_of_write hd hl h (hname (resultName_ne_objectName _ _ _).symm),
      node?_of_write hd hl h (hname (resultName_ne_recordName _ _).symm)⟩

section
open Sample

/-- The result of a source without a file name is written beside the object file of another. -/
theorem paths_apart_nameless :
    ∃ fs', layout.write files ⟨"src/.."⟩ "told\n" = .ok fs' ∧
      fs'.node? (["o"] ++ [objectName source]) = some (.file .empty 0 false) ∧
      fs'.node? (["o"] ++ [recordName]) = none := by
  have hfits : Fits layout.objectsDir (resultName layout.key ⟨"src/.."⟩) := ⟨by decide, by decide, by decide⟩
  have hfree : files.Storable (["o"] ++ [resultName layout.key ⟨"src/.."⟩]) := .inl rfl
  obtain ⟨fs', hwrite⟩ := exists_write directoryAt_files (isName_resultName layout.key ⟨"src/.."⟩) hfits hfree
    (Utf8.encode "told\n")
  obtain ⟨-, -, -, -, -, -, -, -, -, hkept⟩ := paths_apart layout ⟨"src/.."⟩ source
  obtain ⟨hobject, hrecord⟩ := hkept files fs' ["o"] "told\n" directoryAt_files hfree.unlinked hwrite
  exact ⟨fs', hwrite, hobject, hrecord⟩

end
end Recheck
