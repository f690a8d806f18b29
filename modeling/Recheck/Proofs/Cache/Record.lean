import Recheck.Cache.Record
import Recheck.Proofs.Cache.Names
import Recheck.Proofs.FileSystem.Parents
/-!
# The record step

A record step that fails makes directories at most (`paves_of_update_error`), and the record reads as before
(`read_of_update_error`).  One that succeeds has stored the fingerprint at the record's place in the objects directory,
which is there then, and has changed no other file (`update_stores`).  Where the directory and a readable record are there
already the step always succeeds (`update_of_file`).
-/
namespace Recheck

namespace Record
open FileSystem CacheLayout

theorem paves_makeDirectory (fs : FileSystem) (record : Path) : Paves record fs (makeDirectory fs record).2 := by
  rw [makeDirectory]
  split
  · rename_i directory hd
    exact paves_makeDirectories (.parent hd) fs
  · exact .refl record fs

theorem grows_makeDirectory (fs : FileSystem) (record : Path) : Grows fs (makeDirectory fs record).2 :=
  (paves_makeDirectory fs record).grows

section
variable {fs S : FileSystem} {record : Path} {c : Configuration}

/-- **A record step that fails makes directories at most**, on the way to the record. -/
theorem paves_of_update_error {e : IoError} (h : update fs record c = (.error e, S)) : Paves record fs S := by
  have hp := paves_makeDirectory fs record
  rw [update] at h
  split at h
  · cases h; exact .refl record fs
  · split at h <;> rename_i hm
    · cases h; rw [hm] at hp; exact hp
    · split at h <;> cases h
      rw [hm] at hp; exact hp

theorem grows_of_update_error {e : IoError} (h : update fs record c = (.error e, S)) : Grows fs S :=
  (paves_of_update_error h).grows

/-- What a record step that succeeds has done. -/
theorem update_ok {force : Bool} (h : update fs record c = (.ok force, S)) :
    ∃ previous fs', load fs record = .ok previous ∧ Grows fs fs' ∧
      fs'.write record (Utf8.encode c.fingerprint) = .ok S ∧ force = (previous != c.fingerprint) := by
  have hg := grows_makeDirectory fs record
  rw [update] at h
  split at h
  · cases h
  · rename_i previous hload
    split at h <;> rename_i hm
    · cases h
    · split at h <;> rename_i hw
      · cases h
      · rw [hm] at hg
        simp only [Prod.mk.injEq, Except.ok.injEq] at h
        obtain ⟨hforce, rfl⟩ := h
        exact ⟨previous, _, hload, hg, hw, hforce.symm⟩

end

section
variable {fs S : FileSystem} {l : CacheLayout} {c : Configuration} {d : Address}

/-- A record step that succeeds takes no way away, and where no link stands for the record, it has stored it. -/
theorem update_writes {force : Bool} (h : update fs l.recordPath c = (.ok force, S)) :
    ∃ fs' d, Grows fs fs' ∧ DirectoryAt fs' l.objectsDir d ∧ KeepsWays fs' S ∧
      (fs'.Unlinked (d ++ [recordName]) → Fits l.objectsDir recordName ∧ fs'.Storable (d ++ [recordName]) ∧
        ∃ executable, S = fs'.store (d ++ [recordName]) (Utf8.encode c.fingerprint) executable) := by
  obtain ⟨_, fs', -, hg, hw, -⟩ := update_ok h
  obtain ⟨⟨d, hd⟩, -⟩ := directoryAt_of_write isName_recordName hw
  exact ⟨fs', d, hg, hd, keepsWays_of_write isName_recordName hw, fun hl => store_of_write hd isName_recordName hl hw⟩

/-- **A record step that succeeds has stored the fingerprint in the objects directory**, however that was made. -/
theorem update_stores {force : Bool} (h : update fs l.recordPath c = (.ok force, S))
    (hl : ∀ fs' d, Grows fs fs' → DirectoryAt fs' l.objectsDir d → fs.Unlinked (d ++ [recordName])) :
    ∃ fs' d executable, Grows fs fs' ∧ DirectoryAt fs' l.objectsDir d ∧ Fits l.objectsDir recordName ∧
      fs'.Storable (d ++ [recordName]) ∧
      S = fs'.store (d ++ [recordName]) (Utf8.encode c.fingerprint) executable := by
  obtain ⟨fs', d, hg, hd, -, hstored⟩ := update_writes h
  obtain ⟨hf, hst, executable, hS⟩ := hstored (hg.unlinked (hl fs' d hg hd))
  exact ⟨fs', d, executable, hg, hd, hf, hst, hS⟩

theorem directoryAt_of_update {force : Bool} (h : update fs l.recordPath c = (.ok force, S)) :
    ∃ d, DirectoryAt S l.objectsDir d := by
  obtain ⟨fs', d, -, hd, hk, -⟩ := update_writes h
  exact ⟨d, hd.of_keepsWays hk⟩

theorem load_of_read {record : Path} {content : ByteArray} (h : fs.read record = .ok content) :
    load fs record =
      match Utf8.decode? content with
      | some text => .ok text
      | none      => .error .notText := by
  rw [load, readText, h]
  simp only
  cases Utf8.decode? content <;> rfl

theorem load_of_file {content : ByteArray} {modified : Timestamp} {executable : Bool}
    (hd : DirectoryAt fs l.objectsDir d) (hf : Fits l.objectsDir recordName)
    (hn : fs.node? (d ++ [recordName]) = some (.file content modified executable)) :
    load fs l.recordPath =
      match Utf8.decode? content with
      | some text => .ok text
      | none      => .error .notText := by
  have hl : fs.Unlinked (d ++ [recordName]) := fun t ht => by rw [hn] at ht; cases ht
  have hr : fs.read l.recordPath = .ok content := by
    rw [FileSystem.read, recordPath, stat_join hd isName_recordName hf hl, hn]
  exact load_of_read hr

theorem makeDirectory_of_directoryAt {p : Path} {name : Name} (hd : DirectoryAt fs p d) (hn : IsName name)
    (hf : Fits p name) : makeDirectory fs (p.join ⟨name⟩) = (.ok (), fs) := by
  obtain ⟨q, hq, hpre, h⟩ := directoryAt_parent hd hn
  rw [makeDirectory, hq]
  by_cases he : q.text = ""
  · simp [makeDirectories, makeDirectoriesWithin, he]
  · exact makeDirectories_of_directoryAt ((hf.isPath hn).initial he hpre) (h.resolve_left he)

/-- A record is loaded by reading it, or it is not there. -/
theorem load_ok {record : Path} {previous : String} (h : load fs record = .ok previous) :
    fs.readText record = .ok previous ∨ (previous = absent ∧ fs.read record = .error .notFound) := by
  rw [load] at h
  split at h
  · rename_i text ht
    cases h
    exact .inl ht
  · rename_i ht
    cases h
    refine .inr ⟨rfl, ?_⟩
    rw [readText] at ht
    split at ht
    · split at ht <;> cases ht
    · rename_i e hr
      cases ht
      exact hr
  · cases h

theorem makeDirectory_error {e : IoError} {p : Path} {name : Name} (hn : IsName name) (hp : IsPath (p.join ⟨name⟩))
    (h : makeDirectory fs (p.join ⟨name⟩) = (.error e, S)) : S = fs ∨ ∀ d, ¬DirectoryAt S p d := by
  rw [makeDirectory] at h
  cases hq : (p.join ⟨name⟩).parent? with
  | none => rw [hq] at h; cases h
  | some q =>
    rw [hq] at h
    by_cases hne : q.text = ""
    · simp [makeDirectories, makeDirectoriesWithin, hne] at h
    · obtain ⟨_, _, _, _, -, -, -, hpre⟩ := names_parent hq hne
      refine (makeDirectoriesWithin_error (hp.initial hne hpre) h).imp_right fun hno d hd => ?_
      -- above an entry of a directory there is that directory
      obtain ⟨q', hq', -, hdq⟩ := directoryAt_parent hd hn
      rw [hq] at hq'
      cases hq'
      exact hno d (hdq.resolve_left hne)

/-- **A record step that fails changes nothing, or there is no record that could be read.** -/
theorem update_error {e : IoError} (h : update fs l.recordPath c = (.error e, S)) :
    S = fs ∨ ∀ content, S.read l.recordPath ≠ .ok content := by
  rw [update] at h
  split at h
  · cases h
    exact .inl rfl
  · split at h
    · rename_i hm
      cases h
      by_cases hp : IsPath l.recordPath
      · refine (makeDirectory_error isName_recordName hp hm).imp_right fun hno content hr => ?_
        obtain ⟨a, _, _, hl⟩ := read_eq_ok_iff.1 hr
        obtain ⟨⟨d, hd⟩, -⟩ := directoryAt_of_locate isName_recordName hl
        exact hno d hd
      · refine .inr fun content hr => ?_
        obtain ⟨a, _, _, hl⟩ := read_eq_ok_iff.1 hr
        exact hp (locateFrom_ok hl).1
    · split at h
      · rename_i hw
        cases h
        refine .inr fun content hr => ?_
        obtain ⟨fs', hw'⟩ := exists_write_of_read isName_recordName hr (Utf8.encode c.fingerprint)
        rw [recordPath, hw'] at hw
        cases hw
      · cases h

/-- **A record step that fails leaves the record as it was.** -/
theorem read_of_update_error {e : IoError} (h : update fs l.recordPath c = (.error e, S)) (content : ByteArray) :
    S.read l.recordPath = .ok content ↔ fs.read l.recordPath = .ok content := by
  have hg := grows_of_update_error h
  rcases update_error h with rfl | hno
  · exact .rfl
  · exact ⟨fun hr => absurd hr (hno content), fun hr => absurd (hg.read hr) (hno content)⟩

theorem update_of_load {previous : String} (hd : DirectoryAt fs l.objectsDir d) (hf : Fits l.objectsDir recordName)
    (hload : load fs l.recordPath = .ok previous)
    (hw : fs.write l.recordPath (Utf8.encode c.fingerprint) = .ok S) :
    update fs l.recordPath c = (.ok (previous != c.fingerprint), S) := by
  have hmake : makeDirectory fs l.recordPath = (.ok (), fs) := makeDirectory_of_directoryAt hd isName_recordName hf
  rw [update, hload, hmake]
  simp only
  rw [hw]

/-- **A record that holds a text is replaced**, wherever links lead to it. -/
theorem update_of_text {text : String} (h : fs.read l.recordPath = .ok (Utf8.encode text)) (c : Configuration) :
    ∃ S, update fs l.recordPath c = (.ok (text != c.fingerprint), S) ∧
      S.read l.recordPath = .ok (Utf8.encode c.fingerprint) := by
  obtain ⟨a, _, _, hl⟩ := read_eq_ok_iff.1 h
  obtain ⟨⟨d, hd⟩, hf⟩ := directoryAt_of_locate isName_recordName hl
  obtain ⟨S, hw⟩ := exists_write_of_read isName_recordName h (Utf8.encode c.fingerprint)
  have hload : load fs l.recordPath = .ok text := by rw [load_of_read h, Utf8.decode?_encode]
  exact ⟨S, update_of_load hd hf hload hw, read_of_write_of_read isName_recordName h hw⟩

/-- **A record that holds no text makes the step fail**, and stays. -/
theorem update_of_notText {record : Path} {content : ByteArray} (h : fs.read record = .ok content)
    (hno : Utf8.decode? content = none) (c : Configuration) : update fs record c = (.error .notText, fs) := by
  have hload : load fs record = .error .notText := by rw [load_of_read h, hno]
  rw [update, hload]

/-- **Where a readable record is there, the step succeeds**, and says whether that record is another one. -/
theorem update_of_file {content : ByteArray} {text : String} {modified : Timestamp} {executable : Bool}
    (hd : DirectoryAt fs l.objectsDir d) (hf : Fits l.objectsDir recordName)
    (hn : fs.node? (d ++ [recordName]) = some (.file content modified executable))
    (ht : Utf8.decode? content = some text) :
    update fs l.recordPath c =
      (.ok (text != c.fingerprint), fs.store (d ++ [recordName]) (Utf8.encode c.fingerprint) executable) := by
  have hl : fs.Unlinked (d ++ [recordName]) := fun t ht => by rw [hn] at ht; cases ht
  have hload : load fs l.recordPath = .ok text := by rw [load_of_file hd hf hn, ht]
  refine update_of_load hd hf hload ?_
  rw [recordPath, write_join hd isName_recordName hf hl, hn]

theorem update_of_absent (hd : DirectoryAt fs l.objectsDir d) (hf : Fits l.objectsDir recordName)
    (hn : fs.node? (d ++ [recordName]) = none) :
    update fs l.recordPath c =
      (.ok (absent != c.fingerprint), fs.store (d ++ [recordName]) (Utf8.encode c.fingerprint) false) := by
  have hl : fs.Unlinked (d ++ [recordName]) := fun t ht => by rw [hn] at ht; cases ht
  have hload : load fs l.recordPath = .ok absent := by
    rw [load, readText, FileSystem.read, recordPath, stat_join hd isName_recordName hf hl, hn]
  refine update_of_load hd hf hload ?_
  rw [recordPath, write_join hd isName_recordName hf hl, hn]

end
end Record
end Recheck
