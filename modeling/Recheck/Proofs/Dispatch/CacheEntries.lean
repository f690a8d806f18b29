import Mathlib.Data.List.Nodup
import Recheck.Proofs.Dispatch.Histories
import Recheck.Proofs.Pool.FileSteps
/-!
# The entries of a cache

What is known of an objects directory while jobs are done in it, each in its turn or step by step: it stays where it is,
and nothing that is kept in it of the sources at hand becomes a link (`CacheAt`).  A call of the analyzer leaves its entries alone, and the
writing of a result changes that one (`CacheAt.writeAt`).
-/
namespace Recheck
open FileSystem CacheLayout

/-- An analyzer that leaves records and results alone; what else it does to files is its own affair. -/
def Analyzer.SparesCache (analyzer : Analyzer) (p : Path) : Prop :=
  ∀ argv fs d, DirectoryAt fs p d → DirectoryAt (analyzer argv fs).2 p d ∧
    ∀ name, IsCacheName name → (analyzer argv fs).2.node? (d ++ [name]) = fs.node? (d ++ [name])

/-- Different results have different names. -/
theorem Job.nodup_entries {j : Job} {sources : List Path} (hapart : (sources.map j.layout.resultPath).Nodup) :
    (sources.map j.entry).Nodup := by
  have hpath : sources.map j.layout.resultPath =
      (sources.map j.entry).map fun name => j.layout.objectsDir.join ⟨name⟩ := by
    rw [List.map_map]
    rfl
  rw [hpath] at hapart
  exact hapart.of_map _

/-- The names that a layout uses for what is kept of some sources. -/
def CacheLayout.Keeps (l : CacheLayout) (known : Path → Prop) (name : Name) : Prop :=
  name = recordName ∨ ∃ source, known source ∧ name = resultName l.key source

theorem CacheLayout.Keeps.isCacheName {l : CacheLayout} {known : Path → Prop} {name : Name} (h : l.Keeps known name) :
    IsCacheName name :=
  h.imp_right fun ⟨source, _, hs⟩ => ⟨l.key, source, hs⟩

/-- The objects directory is there, and none of what is kept of the sources in it is a link. -/
structure CacheAt (l : CacheLayout) (known : Path → Prop) (d : Address) (fs : FileSystem) : Prop where
  directory : DirectoryAt fs l.objectsDir d
  unlinked : ∀ name, l.Keeps known name → fs.Unlinked (d ++ [name])

namespace CacheAt
variable {l : CacheLayout} {known : Path → Prop} {d : Address} {fs fs' : FileSystem}

theorem mono (h : CacheAt l known d fs) {known' : Path → Prop} (hk : ∀ s, known' s → known s) : CacheAt l known' d fs :=
  ⟨h.directory, fun name hn => h.unlinked name (hn.imp_right fun ⟨s, hs, he⟩ => ⟨s, hk s hs, he⟩)⟩

theorem result (h : CacheAt l known d fs) {source : Path} (hk : known source) :
    fs.Unlinked (d ++ [resultName l.key source]) :=
  h.unlinked _ (.inr ⟨source, hk, rfl⟩)

theorem call (h : CacheAt l known d fs) {analyzer : Analyzer} (hs : analyzer.SparesCache l.objectsDir) (argv : List String) :
    CacheAt l known d (analyzer argv fs).2 ∧
      ∀ name, l.Keeps known name → (analyzer argv fs).2.node? (d ++ [name]) = fs.node? (d ++ [name]) := by
  obtain ⟨hd, hsame⟩ := hs argv fs d h.directory
  refine ⟨⟨hd, fun name hn target ht => ?_⟩, fun name hn => hsame name hn.isCacheName⟩
  rw [hsame name hn.isCacheName] at ht
  exact h.unlinked name hn target ht

/-- **Writing a result changes that entry and no other.** -/
theorem writeAt (h : CacheAt l known d fs) {source : Path} (hk : known source) {now : Timestamp} {content : ByteArray}
    (hw : fs.writeAt now (l.resultPath source) content = .ok fs') :
    CacheAt l known d fs' ∧
      (∃ modified executable,
        fs'.node? (d ++ [resultName l.key source]) = some (.file content modified executable)) ∧
      ∀ name, name ≠ resultName l.key source → fs'.node? (d ++ [name]) = fs.node? (d ++ [name]) := by
  have hname := isName_resultName l.key source
  have hl : { fs with clock := now }.Unlinked (d ++ [resultName l.key source]) := fun t => by
    rw [Job.node?_clock]
    exact h.result hk t
  obtain ⟨-, hst, executable, rfl⟩ := store_of_write (Job.directoryAt_clock now h.directory) hname hl hw
  have hother : ∀ name, name ≠ resultName l.key source →
      ({ fs with clock := now }.store (d ++ [resultName l.key source]) content executable).node? (d ++ [name]) =
        fs.node? (d ++ [name]) := fun name hne => by
    rw [node?_store_of_ne _ _ _ (by simpa using hne), Job.node?_clock]
  refine ⟨⟨(Job.directoryAt_clock now h.directory).of_keepsWays (hst.keepsWays _ _), fun name hn target ht => ?_⟩,
    ⟨now, executable, node?_store_self _ _ _ hst.ne_nil⟩, hother⟩
  by_cases he : name = resultName l.key source
  · rw [he, node?_store_self _ _ _ hst.ne_nil] at ht
    cases ht
  · rw [hother name he] at ht
    exact h.unlinked name hn target ht

/-- A job in its turn changes its own entry at most, and that to the answer that it keeps. -/
theorem process {j : Job} (h : CacheAt j.layout known d fs) (hs : j.analyzer.SparesCache j.layout.objectsDir) {s : Path}
    (hk : known s) :
    CacheAt j.layout known d (j.process s fs).fs ∧
      (∀ name, j.layout.Keeps known name → name ≠ j.entry s ∨ j.kept? s fs = none →
        (j.process s fs).fs.node? (d ++ [name]) = fs.node? (d ++ [name])) ∧
      ∀ a, j.kept? s fs = some a → (j.process s fs).fs.content? (d ++ [j.entry s]) = some (Utf8.encode a.text) := by
  obtain ⟨hcall, hsame⟩ := h.call hs (j.commandLine s)
  rcases j.process_fs s fs with ⟨hfresh, hfs⟩ | ⟨-, hnone, hfs⟩ | ⟨o, ho, hw⟩
  · rw [hfs]
    refine ⟨h, fun _ _ _ => rfl, fun a ha => ?_⟩
    rw [(Job.kept?_eq_some_iff.1 ha).1] at hfresh
    cases hfresh
  · rw [hfs]
    refine ⟨hcall, fun name hn _ => hsame name hn, fun a ha => ?_⟩
    rw [hnone] at ha
    cases ha
  · obtain ⟨hat, hself, hother⟩ := hcall.writeAt hk (show (j.call s fs).2.writeAt (j.call s fs).2.clock _ _ = _ from hw)
    refine ⟨hat, fun name hn hne => ?_, fun a ha => ?_⟩
    · have hne' := hne.resolve_right (by rw [ho]; exact nofun)
      rw [hother name hne', hsame name hn]
    · rw [ho] at ha
      cases ha
      exact content?_eq_some_iff.2 hself

theorem act {j : Job} (h : CacheAt j.layout known d fs) (hs : j.analyzer.SparesCache j.layout.objectsDir) {w : Shared}
    (hw : w.fs = fs) {s : Path} (hk : known s) (now : Timestamp) (chunk : Nat) (stage : JobStage) :
    CacheAt j.layout known d (j.act s now chunk w stage).world.fs ∧
      ∀ name, j.layout.Keeps known name → name ≠ j.entry s →
      (j.act s now chunk w stage).world.fs.node? (d ++ [name]) = fs.node? (d ++ [name]) := by
  subst hw
  rcases j.act_fs s now chunk w stage with hfs | hfs | ⟨content, hwrite⟩
  · rw [hfs]
    exact ⟨h, fun _ _ _ => rfl⟩
  · rw [hfs]
    obtain ⟨hcall, hsame⟩ := h.call hs (j.commandLine s)
    exact ⟨hcall, fun name hn _ => hsame name hn⟩
  · obtain ⟨hat, -, hother⟩ := h.writeAt hk hwrite
    exact ⟨hat, fun name _ hne => hother name hne⟩

end CacheAt

end Recheck
