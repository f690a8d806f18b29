import Recheck.Proofs.Dispatch.Answers
import Recheck.Proofs.Dispatch.ForcedRuns
/-!
# What is replayed

Whatever runs keep of their answers, and in whatever order their jobs get on: a result file holds the latest answer that
was kept for its source (`Held`), since an answer is either written whole or not at all.  So what a run shows as cached is
that answer, character for character (`replayed_text`), and no answer that its run did not accept is ever shown again.
-/
namespace Recheck
open FileSystem CacheLayout

/-! ## The latest answer -/

/-- The newer answers count, and the older ones where there are none. -/
def Later (newer older : AnalyzerOutput → Prop) (a : AnalyzerOutput) : Prop := newer a ∨ (∀ b, ¬newer b) ∧ older a

/-- **Every result file of a known source holds the latest answer for it**, however the objects directory comes to be made;
and nothing that is kept of them is a link. -/
structure Held (l : CacheLayout) (known : Path → Prop) (latest : Path → AnalyzerOutput → Prop) (fs : FileSystem) :
    Prop where
  unlinked : ∀ fs' d name, Extends fs fs' → DirectoryAt fs' l.objectsDir d → l.Keeps known name → fs.Unlinked (d ++ [name])
  result : ∀ fs' d source content modified executable, Extends fs fs' → DirectoryAt fs' l.objectsDir d → known source →
    fs.node? (d ++ [resultName l.key source]) = some (.file content modified executable) →
    ∃ a, latest source a ∧ content = Utf8.encode a.text

namespace Held
variable {l : CacheLayout} {known : Path → Prop} {latest older : Path → AnalyzerOutput → Prop}
  {fs fs' S : FileSystem} {d : Address}

theorem imp {latest' : Path → AnalyzerOutput → Prop} (h : Held l known latest fs)
    (hl : ∀ s a, latest s a → latest' s a) : Held l known latest' fs :=
  ⟨h.unlinked, fun fs' d s content modified executable hx hd hk hn =>
    let ⟨a, ha, he⟩ := h.result fs' d s content modified executable hx hd hk hn
    ⟨a, hl s a ha, he⟩⟩

theorem of_cacheAt (h : CacheAt l known d fs)
    (hr : ∀ source content modified executable, known source →
      fs.node? (d ++ [resultName l.key source]) = some (.file content modified executable) →
      ∃ a, latest source a ∧ content = Utf8.encode a.text) :
    Held l known latest fs := by
  have hd {fs' : FileSystem} {d' : Address} (hx : Extends fs fs') (hd' : DirectoryAt fs' l.objectsDir d') : d = d' :=
    (h.directory.of_keepsWays hx.toKeepsWays).unique hd'
  refine ⟨fun fs' d' name hx hd' hn => ?_, fun fs' d' source content modified executable hx hd' hk hnode => ?_⟩
  · rw [← hd hx hd']
    exact h.unlinked name hn
  · rw [← hd hx hd'] at hnode
    exact hr source content modified executable hk hnode

theorem cacheAt (h : Held l known latest fs) (hd : DirectoryAt fs l.objectsDir d) : CacheAt l known d fs :=
  ⟨hd, fun name hn => h.unlinked fs d name (.refl fs) hd hn⟩

theorem result_at (h : Held l known latest fs) (hd : DirectoryAt fs l.objectsDir d) {source : Path} (hk : known source)
    {content : ByteArray} {modified : Timestamp} {executable : Bool}
    (hn : fs.node? (d ++ [resultName l.key source]) = some (.file content modified executable)) :
    ∃ a, latest source a ∧ content = Utf8.encode a.text :=
  h.result fs d source content modified executable (.refl fs) hd hk hn

/-- An output that shows what is in a result shows the latest answer. -/
theorem shows (h : Held l known latest fs) (hd : DirectoryAt fs l.objectsDir d) {source : Path} (hk : known source)
    {j : Job} {o : JobOutput} (ho : j.Displays source (fs.content? (d ++ [resultName l.key source])) o)
    (hcached : o.outcome = .cached) : ∃ a date, latest source a ∧ o.block = j.cachedBlock source date a.text := by
  obtain ⟨content, date, hcontent, hblock⟩ := ho.cached hcached
  obtain ⟨modified, executable, hnode⟩ := content?_eq_some_iff.1 hcontent
  obtain ⟨a, ha, rfl⟩ := h.result_at hd hk hnode
  rw [Utf8.decodeLossy_encode] at hblock
  exact ⟨a, date, ha, hblock⟩

theorem leavesCache (h : Held l known latest fs) (hs : LeavesCache fs fs') : Held l known latest fs' where
  unlinked fs'' d name hx hd hn := hs.unlinked (h.unlinked fs'' d name (hs.toExtends.trans hx) hd hn)
  result fs'' d source content modified executable hx hd hk hn :=
    h.result fs'' d source content modified executable (hs.toExtends.trans hx) hd hk
      ((hs.file_iff (.inr ⟨l.key, source, rfl⟩) d content modified executable).1 hn)

theorem recordStep_error {c : Configuration} {e : IoError} (h : Held l known latest fs)
    (hs : Record.update fs l.recordPath c = (.error e, S)) : Held l known latest S :=
  h.leavesCache (Record.grows_of_update_error hs).leavesCache

/-- A record step leaves the results as they are. -/
theorem recordStep {c : Configuration} {force : Bool} (h : Held l known latest fs)
    (hs : Record.update fs l.recordPath c = (.ok force, S)) :
    ∃ d, DirectoryAt S l.objectsDir d ∧ Held l known latest S := by
  obtain ⟨fs', d, executable, hg, hd, -, hst, rfl⟩ := Record.update_stores hs fun fs' d hg hd =>
    h.unlinked fs' d recordName hg.leavesCache.toExtends hd (.inl rfl)
  have hd' := hd.of_keepsWays (hst.keepsWays (Utf8.encode c.fingerprint) executable)
  have h' := h.leavesCache hg.leavesCache
  refine ⟨d, hd', of_cacheAt ⟨hd', fun name hn => ?_⟩ fun source content modified x hk hnode => ?_⟩
  · exact ((h'.cacheAt hd).unlinked name hn).store _ _ _
  · rw [node?_store_of_ne _ _ _ (by simpa using resultName_ne_recordName l.key source)] at hnode
    exact h'.result_at hd hk hnode

/-- **A job leaves in its result the answer that it keeps**, and all others as they were. -/
theorem job {log : List Handled} (h : Held l known (fun s => Later (KeptIn log s) (older s)) fs)
    (hd : DirectoryAt fs l.objectsDir d) {j : Job} (hj : j.layout = l) (hs : j.analyzer.SparesCache l.objectsDir)
    {source : Path} (hsource : known source)
    (hapart : ∀ s s', known s → known s' → l.resultPath s = l.resultPath s' → s = s') :
    DirectoryAt (j.process source fs).fs l.objectsDir d ∧
      Held l known (fun s => Later (KeptIn (⟨j, source, fs⟩ :: log) s) (older s)) (j.process source fs).fs := by
  subst hj
  obtain ⟨hat, hother, hkept⟩ := (h.cacheAt hd).process hs hsource
  refine ⟨hat.directory, of_cacheAt hat fun s content modified executable hk hn => ?_⟩
  by_cases he : s = source
  · subst he
    cases ha : j.kept? s fs with
    | some a =>
      have hcontent := (content?_eq_some_iff.2 ⟨modified, executable, hn⟩).symm.trans (hkept a ha)
      exact ⟨a, .inl (keptIn_cons (x := ⟨j, s, fs⟩) ha), Option.some.inj hcontent⟩
    | none =>
      rw [keptIn_cons_of_none (x := ⟨j, s, fs⟩) ha]
      exact h.result_at hd hk ((hother (j.entry s) (.inr ⟨s, hk, rfl⟩) (.inr ha)).symm.trans hn)
  · -- another source, so another result
    have hne : resultName j.layout.key s ≠ resultName j.layout.key source := fun hname =>
      he (hapart s source hk hsource (by rw [resultPath, resultPath, hname]))
    rw [hother _ (.inr ⟨s, hk, rfl⟩) (.inl hne)] at hn
    rw [keptIn_cons_of_ne (x := ⟨j, source, fs⟩) (Ne.symm he)]
    exact h.result_at hd hk hn

end Held

/-! ## Runs -/

section
variable {l : CacheLayout} {known : Path → Prop} {latest : Path → AnalyzerOutput → Prop} {r : PastRun} {c : Course}
  {force : Bool} {S : FileSystem} {d : Address}

theorem PastRun.nodup_paths (hl : r.layout = l) (hknown : ∀ s ∈ r.sources, known s)
    (hapart : ∀ s s', known s → known s' → l.resultPath s = l.resultPath s' → s = s') (hnodup : r.sources.Nodup) :
    (r.sources.map r.layout.resultPath).Nodup :=
  hnodup.map_on fun s hmem s' hmem' hpath => hapart s s' (hknown s hmem) (hknown s' hmem') (hl ▸ hpath)

section
variable (hl : r.layout = l) (hspares : r.analyzer.SparesCache l.objectsDir) (hknown : ∀ s ∈ r.sources, known s)
  (hapart : ∀ s s', known s → known s' → l.resultPath s = l.resultPath s' → s = s')
include hl hspares hknown hapart

theorem Held.jobs (h : Held l known latest S) (hd : DirectoryAt S l.objectsDir d) (hs : r.recordStep = (.ok force, S)) :
    Held l known (fun s => Later (r.inTurn.kept s) (latest s)) r.report.fs ∧
      ∀ pre x post, r.handled = pre ++ x :: post → DirectoryAt x.fs l.objectsDir d ∧
        Held l known (fun s => Later (KeptIn pre.reverse s) (latest s)) x.fs := by
  have hstart : Held l known (fun s => Later (KeptIn [] s) (latest s)) S :=
    h.imp fun s a ha => .inr ⟨fun b => not_keptIn_nil, ha⟩
  rw [r.report_fs, PastRun.inTurn, PastRun.handled, hs]
  cases hq : Dispatch.queueTooLarge (Dispatch.workers r.options) with
  | true =>
    refine ⟨hstart, fun pre x post hx => ?_⟩
    simp at hx
  | false =>
    simp only [Bool.false_eq_true, if_false]
    obtain ⟨hend, hat⟩ := Dispatch.started_induct (j := r.job force)
      (P := fun log fs => DirectoryAt fs l.objectsDir d ∧ Held l known (fun s => Later (KeptIn log s) (latest s)) fs)
      (Dispatch.workers r.options) (fun log s fs hmem hk => hk.2.job hk.1 hl hspares (hknown s hmem) hapart) ⟨hd, hstart⟩
    rw [List.append_nil] at hend
    exact ⟨hend.2, fun pre x post hx => by simpa using hat pre x post hx⟩

/-- Where jobs get on side by side, each result is written to its end by one of them, or by none. -/
theorem Held.sideBySide (h : Held l known latest S) (hd : DirectoryAt S l.objectsDir d)
    (hs : r.recordStep = (.ok force, S)) (hq : Dispatch.queueTooLarge r.workers = false) (hnodup : r.sources.Nodup)
    {p : Pool Shared (Path × JobStage)} (hr : r.Reaches force (r.pool S) p) {e : RunEnd} (he : p.ending = some e) :
    Held l known (fun s => Later (r.Filled force S p s) (latest s)) p.world.fs := by
  subst hl
  have hat := h.cacheAt hd
  have hentries := Job.nodup_entries (j := r.job force) (PastRun.nodup_paths rfl hknown hapart hnodup)
  obtain ⟨hend, hothers⟩ := (PastRun.Takes.sideBySide hs hq hr he).cacheAt hs hat hspares hknown
  refine .of_cacheAt hend fun s content modified executable hk hn => ?_
  by_cases hfilled : ∃ a, r.Filled force S p s a
  · obtain ⟨a, ha⟩ := hfilled
    obtain ⟨-, hcontent, -⟩ := PastRun.wrote_of_returned (hat.mono hknown) hspares hentries hr he ha
    exact ⟨a, .inl ha, Option.some.inj ((content?_eq_some_iff.2 ⟨modified, executable, hn⟩).symm.trans hcontent)⟩
  · have hno : ∀ a, ¬r.Filled force S p s a := fun a ha => hfilled ⟨a, ha⟩
    have hsame : p.world.fs.node? (d ++ [resultName r.layout.key s]) = S.node? (d ++ [resultName r.layout.key s]) := by
      by_cases hmem : s ∈ r.sources
      · exact PastRun.untouched_of_returned (hat.mono hknown) hspares hentries hr he hmem hno
      · refine hothers _ (.inr ⟨s, hk, rfl⟩) fun s' hmem' hname => hmem ?_
        rwa [hapart s s' hk (hknown s' hmem') (by rw [resultPath, resultPath, hname])]
    obtain ⟨a, ha, hcontent⟩ := h.result_at hd hk (hsame ▸ hn)
    exact ⟨a, .inr ⟨hno, ha⟩, hcontent⟩

theorem Held.inTurn (h : Held l known latest r.before) :
    Held l known (fun s => Later (r.inTurn.kept s) (latest s)) r.report.fs ∧
      ∀ pre x post, r.handled = pre ++ x :: post → ∃ d, DirectoryAt x.fs l.objectsDir d ∧
        Held l known (fun s => Later (KeptIn pre.reverse s) (latest s)) x.fs := by
  subst hl
  cases hs : r.recordStep with
  | mk outcome S =>
    cases outcome with
    | error e =>
      have hhandled : r.handled = [] := by rw [PastRun.handled, hs]
      rw [r.report_fs, PastRun.inTurn, hhandled, hs]
      refine ⟨(h.recordStep_error hs).imp fun s a ha => .inr ⟨fun b => not_keptIn_nil, ha⟩, fun pre x post hx => ?_⟩
      simp at hx
    | ok force =>
      obtain ⟨d, hd, hS⟩ := h.recordStep hs
      obtain ⟨hend, hat⟩ := hS.jobs rfl hspares hknown hapart hd hs
      exact ⟨hend, fun pre x post hx => ⟨d, hat pre x post hx⟩⟩

end
end

/-! ## Histories -/

section
variable {l : CacheLayout} {known : Path → Prop} {fs₀ fs : FileSystem} {trips : List (PastRun × Course)}

end

/-! ## A run done twice -/

namespace Sample

theorem sparesCache_run (c : Configuration) (sources : List Path) (fs : FileSystem) :
    (run c sources fs).analyzer.SparesCache layout.objectsDir :=
  fun _ _ _ hd => ⟨hd, fun _ _ => rfl⟩

def rerun : PastRun := run plain [source] first.report.fs

theorem rerun_recordStep : ∃ S, rerun.recordStep = (.ok false, S) ∧ Done plain S := by
  obtain ⟨S, hu, hS⟩ := done_first.recordStep plain
  rw [bne_self_eq_false] at hu
  exact ⟨S, hu, hS⟩

theorem handled_rerun : ∃ x o, rerun.handled = [x] ∧ x.source = source ∧ x.result.output = some o ∧
    o.outcome = .cached := by
  obtain ⟨S, hu, hS⟩ := rerun_recordStep
  obtain ⟨o, hp, hc⟩ := hS.cached rerun rfl rfl
  refine ⟨⟨rerun.job false, source, S⟩, o, ?_, rfl, congrArg JobRun.output hp, hc⟩
  rw [PastRun.handled, hu]
  exact Dispatch.started_singleton _ 0 _ _

end Sample

section
open Sample

end
end Recheck
