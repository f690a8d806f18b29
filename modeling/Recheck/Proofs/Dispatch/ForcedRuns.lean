import Mathlib.Data.List.Nodup
import Recheck.Proofs.Dispatch.Origins
/-!
# What a forced run leaves behind

A run has recorded its configuration before its first job, so the next run of that configuration is not forced
(`recordStep_again`).  A result that a forced run has not replaced is as old then as it was before, and whether its source
is analyzed again is a question of the file times alone (`again_of_not_replaced`): an old result that is not older than
its object file is taken for one of the new configuration.
-/
namespace Recheck
open FileSystem CacheLayout

namespace PastRun

/-- The result of a source was replaced in a run. -/
def Replaces (r : PastRun) (source : Path) : Prop :=
  ∃ x ∈ r.handled, x.source = source ∧ x.job.Replaces x.source x.fs

/-- The entries of an objects directory without links, of which those that `changed` does not name are as in `S`. -/
structure Framed (objects : Path) (d : Address) (S : FileSystem) (changed : Name → Prop) (fs : FileSystem) : Prop where
  directory : DirectoryAt fs objects d
  unlinked : ∀ name, fs.Unlinked (d ++ [name])
  same : ∀ name, ¬changed name → fs.node? (d ++ [name]) = S.node? (d ++ [name])

/-- The entry under a name has been replaced by one of some jobs. -/
def ReplacedBy (log : List Handled) (name : Name) : Prop :=
  ∃ x ∈ log, x.job.entry x.source = name ∧ x.job.Replaces x.source x.fs

theorem Framed.job {objects : Path} {d : Address} {S fs : FileSystem} {log : List Handled}
    (h : Framed objects d S (ReplacedBy log) fs) {j : Job} (ho : j.layout.objectsDir = objects)
    (hs : j.analyzer.Spares objects) (source : Path) :
    Framed objects d S (ReplacedBy (⟨j, source, fs⟩ :: log)) (j.process source fs).fs := by
  subst ho
  have hl := h.unlinked (j.entry source)
  obtain ⟨hd, hsame, -⟩ := Job.process_frame hs h.directory hl
  have hother : ∀ name, ¬ReplacedBy (⟨j, source, fs⟩ :: log) name → ¬ReplacedBy log name := by
    rintro name hn ⟨x, hx, hrest⟩
    exact hn ⟨x, List.mem_cons_of_mem _ hx, hrest⟩
  refine ⟨hd, fun name => ?_, fun name hn => ?_⟩
  · by_cases hname : name = j.entry source
    · rw [hname]
      exact Job.process_unlinked hs h.directory hl
    · intro target ht
      rw [hsame name hname] at ht
      exact h.unlinked name target ht
  · rw [← h.same name (hother name hn)]
    by_cases hname : name = j.entry source
    · refine Job.process_unchanged hs h.directory hl (fun hr => ?_) name
      exact hn ⟨_, List.mem_cons_self, hname.symm, hr⟩
    · exact hsame name hname

/-- **What a run past its record step changes among the entries of the objects directory**: the results that its jobs
replace, and nothing else. -/
theorem framed_handled {r : PastRun} {objects : Path} {d : Address} {S : FileSystem} {force : Bool}
    (hs : r.recordStep = (.ok force, S)) (ho : r.layout.objectsDir = objects) (hd : DirectoryAt S objects d)
    (hl : ∀ name, S.Unlinked (d ++ [name])) (hspares : r.analyzer.Spares objects) :
    Framed objects d S (ReplacedBy r.handled.reverse) r.report.fs ∧
      ∀ pre x post, r.handled = pre ++ x :: post → Framed objects d S (ReplacedBy pre.reverse) x.fs := by
  have h : Framed objects d S (ReplacedBy []) S := ⟨hd, hl, fun _ _ => rfl⟩
  rw [r.report_fs, handled, hs]
  cases hq : Dispatch.queueTooLarge (Dispatch.workers r.options) with
  | true =>
    refine ⟨h, fun pre x post hx => ?_⟩
    simp at hx
  | false =>
    simp only [Bool.false_eq_true, if_false]
    have step : ∀ log s fs, s ∈ r.sources → Framed objects d S (ReplacedBy log) fs →
        Framed objects d S (ReplacedBy (⟨r.job force, s, fs⟩ :: log)) ((r.job force).process s fs).fs :=
      fun log s fs _ hk => hk.job ho hspares s
    obtain ⟨hend, hat⟩ := Dispatch.started_induct (P := fun log fs => Framed objects d S (ReplacedBy log) fs)
      (Dispatch.workers r.options) step h
    exact ⟨by simpa using hend, fun pre x post hx => by simpa using hat pre x post hx⟩

end PastRun

section
variable {r q : PastRun} {S : FileSystem}

/-- What the record step of a run leaves in an objects directory without links. -/
theorem recordStep_linkless {force : Bool} (hl : r.before.Linkless r.layout.objectsDir)
    (hs : r.recordStep = (.ok force, S)) :
    ∃ d, DirectoryAt S r.layout.objectsDir d ∧ Fits r.layout.objectsDir recordName ∧
      (∀ name, S.Unlinked (d ++ [name])) ∧ ∃ modified executable, S.node? (d ++ [recordName]) =
        some (.file (Utf8.encode r.configuration.fingerprint) modified executable) := by
  have hl' : ∀ fs' d name, Grows r.before fs' → DirectoryAt fs' r.layout.objectsDir d →
      fs'.Unlinked (d ++ [name]) :=
    fun fs' d name hg hd => hg.unlinked (hl fs' d name hg.leavesCache.toExtends hd)
  obtain ⟨fs', d, executable, hg, hd, hf, hst, rfl⟩ := Record.update_stores hs fun fs' d hg hd =>
    hl fs' d recordName hg.leavesCache.toExtends hd
  refine ⟨d, hd.of_keepsWays (hst.keepsWays _ _), hf, fun name target ht => ?_, _, _, node?_store_self _ _ _ hst.ne_nil⟩
  by_cases hn : name = recordName
  · rw [hn, node?_store_self _ _ _ hst.ne_nil] at ht
    cases ht
  · rw [node?_store_of_ne _ _ _ (by simpa using hn)] at ht
    exact hl' fs' d name hg hd target ht

theorem isStale_congr {l : CacheLayout} {fs fs' : FileSystem} {d : Address} {source : Path} (force : Bool)
    (hd : DirectoryAt fs l.objectsDir d) (hd' : DirectoryAt fs' l.objectsDir d)
    (hl : ∀ name, fs.Unlinked (d ++ [name]))
    (ho : fs'.node? (d ++ [objectName source]) = fs.node? (d ++ [objectName source]))
    (hr : fs'.node? (d ++ [resultName l.key source]) = fs.node? (d ++ [resultName l.key source])) :
    l.isStale fs' source force = l.isStale fs source force := by
  have hobject := modified?_eq_of_node?_eq hd hd' (isName_objectName source) (hl _) ho
  have hresult := modified?_eq_of_node?_eq hd hd' (isName_resultName l.key source) (hl _) hr
  rw [CacheLayout.isStale, CacheLayout.isStale, Recheck.isStale, Recheck.isStale, objectPath, resultPath, hobject,
    hresult]

theorem PastRun.source_ne_of_handled {pre post : List Handled} {x : Handled} (hx : r.handled = pre ++ x :: post)
    (hapart : (r.sources.map r.layout.resultPath).Nodup) : ∀ z ∈ pre, z.source ≠ x.source := by
  have hprefix : r.handled.map Handled.source <+: r.sources := by
    rw [handled]
    split
    · exact List.nil_prefix
    · split
      · exact List.nil_prefix
      · exact Dispatch.map_source_started _ _ _ _
  have hnodup := (List.Nodup.of_map _ hapart).sublist hprefix.sublist
  rw [hx, List.map_append, List.nodup_append] at hnodup
  intro z hz he
  exact hnodup.2.2 _ (List.mem_map_of_mem hz) _ (List.mem_map_of_mem List.mem_cons_self) he

theorem PastRun.not_replacedBy {log : List Handled} (hlog : ∀ x ∈ log, x ∈ r.handled)
    (hapart : (r.sources.map r.layout.resultPath).Nodup) {s : Path} (hs : s ∈ r.sources)
    (hnot : ∀ x ∈ log, x.source = s → ¬x.job.Replaces x.source x.fs) :
    ¬ReplacedBy log (resultName r.layout.key s) := by
  rintro ⟨x, hx, hname, hr⟩
  obtain ⟨force, -, hj, hsource⟩ := PastRun.of_mem_handled (hlog x hx)
  have hpath : r.layout.resultPath x.source = r.layout.resultPath s := by
    rw [Job.entry, hj] at hname
    rw [resultPath, resultPath, ← hname]
    rfl
  exact hnot x hx (List.inj_on_of_nodup_map hapart hsource hs hpath) hr

theorem PastRun.not_replacedBy_of_ne {log : List Handled} {name : Name}
    (hn : ∀ key source, resultName key source ≠ name) : ¬ReplacedBy log name := by
  rintro ⟨x, -, hname, -⟩
  exact hn _ _ hname

/-- **The next run of a configuration is not forced**, and finds all that the run before it has not replaced. -/
theorem recordStep_again {force : Bool} (hl : r.before.Linkless r.layout.objectsDir) (hs : r.recordStep = (.ok force, S))
    (hspares : r.analyzer.Spares r.layout.objectsDir) (hc : q.configuration = r.configuration)
    (hlayout : q.layout = r.layout) (hbefore : q.before = r.report.fs) :
    ∃ d S', DirectoryAt S r.layout.objectsDir d ∧ (∀ name, S.Unlinked (d ++ [name])) ∧
      q.recordStep = (.ok false, S') ∧
      PastRun.Framed r.layout.objectsDir d S (fun name => name = recordName ∨ PastRun.ReplacedBy r.handled.reverse name)
        S' := by
  obtain ⟨d, hd, hf, hun, modified, executable, hrec⟩ := recordStep_linkless hl hs
  obtain ⟨hend, -⟩ := PastRun.framed_handled hs rfl hd hun hspares
  have hrecord := (hend.same _ (PastRun.not_replacedBy_of_ne resultName_ne_recordName)).trans hrec
  have hst : r.report.fs.Storable (d ++ [recordName]) := .inr ⟨_, _, _, hrecord⟩
  have hstep := Record.update_of_file (c := r.configuration) hend.directory hf hrecord (Utf8.decode?_encode _)
  rw [bne_self_eq_false] at hstep
  refine ⟨d, _, hd, hun, by rw [PastRun.recordStep, hbefore, hlayout, hc, hstep],
    hend.directory.of_keepsWays (hst.keepsWays _ _), fun name target ht => ?_, fun name hn => ?_⟩
  · by_cases hname : name = recordName
    · rw [hname, node?_store_self _ _ _ hst.ne_nil] at ht
      cases ht
    · rw [node?_store_of_ne _ _ _ (by simpa using hname)] at ht
      exact hend.unlinked name target ht
  · rw [not_or] at hn
    rw [node?_store_of_ne _ _ _ (by simpa using hn.1), hend.same name hn.2]

/-- **After a forced run the next run of the configuration takes a result that was not replaced by its age alone.** -/
theorem again_of_not_replaced (hl : r.before.Linkless r.layout.objectsDir) (hs : r.recordStep = (.ok true, S))
    (hspares : r.analyzer.Spares r.layout.objectsDir) (hspares' : q.analyzer.Spares r.layout.objectsDir)
    (hc : q.configuration = r.configuration) (hlayout : q.layout = r.layout) (hsources : q.sources = r.sources)
    (hbefore : q.before = r.report.fs) (hapart : (r.sources.map r.layout.resultPath).Nodup)
    {s : Path} (hmem : s ∈ r.sources) (hnot : ¬r.Replaces s) :
    q.recordStep.1 = .ok false ∧ ∀ x ∈ q.handled, x.source = s →
      x.result.calls = (if r.layout.isStale S s false then [x.commandLine] else []) ∧
      ∀ o, x.result.output = some o →
        ((o.outcome = .cached ∨ o.outcome = .skipped) ↔ r.layout.isStale S s false = false) := by
  obtain ⟨d, S', hd, hun, hs', hframe⟩ := recordStep_again hl hs hspares hc hlayout hbefore
  refine ⟨by rw [hs'], ?_⟩
  rintro x hx rfl
  obtain ⟨pre, post, hsplit⟩ := List.append_of_mem hx
  have hapart' : (q.sources.map q.layout.resultPath).Nodup := by rw [hsources, hlayout]; exact hapart
  have hobjects : q.layout.objectsDir = r.layout.objectsDir := by rw [hlayout]
  have hk := (PastRun.framed_handled hs' hobjects hframe.directory hframe.unlinked hspares').2 pre x post hsplit
  -- neither run has touched the object file before this job, nor the result
  have hobject : x.fs.node? (d ++ [objectName x.source]) = S.node? (d ++ [objectName x.source]) := by
    have hn : ∀ key source, resultName key source ≠ objectName x.source :=
      fun key source => resultName_ne_objectName key source x.source
    rw [hk.same _ (PastRun.not_replacedBy_of_ne hn), hframe.same]
    rintro (h | h)
    · exact objectName_ne_recordName _ h
    · exact PastRun.not_replacedBy_of_ne hn h
  have hresult : x.fs.node? (d ++ [resultName r.layout.key x.source]) =
      S.node? (d ++ [resultName r.layout.key x.source]) := by
    have hbefore : ¬PastRun.ReplacedBy pre.reverse (resultName q.layout.key x.source) :=
      PastRun.not_replacedBy (fun z hz => hsplit ▸ List.mem_append_left _ (List.mem_reverse.1 hz)) hapart'
        (hsources ▸ hmem)
        fun z hz hzs => absurd hzs (PastRun.source_ne_of_handled hsplit hapart' z (List.mem_reverse.1 hz))
    rw [hlayout] at hbefore
    rw [hk.same _ hbefore, hframe.same]
    rintro (h | h)
    · exact resultName_ne_recordName _ _ h
    · exact PastRun.not_replacedBy (fun z hz => List.mem_reverse.1 hz) hapart hmem
        (fun z hz hzs hr => hnot ⟨z, List.mem_reverse.1 hz, hzs, hr⟩) h
  obtain ⟨force, hforce, hj, -⟩ := PastRun.of_mem_handled hx
  rw [hs'] at hforce
  cases hforce
  have hlx : x.job.layout = r.layout := by rw [hj]; exact hlayout
  have hstale : x.job.layout.isStale x.fs x.source x.job.force = r.layout.isStale S x.source false := by
    have hforce : x.job.force = false := by rw [hj]; rfl
    rw [hlx, hforce]
    exact isStale_congr false hd hk.directory hun hobject hresult
  have hdx : DirectoryAt x.fs x.job.layout.objectsDir d := hlx ▸ hk.directory
  rw [← hstale]
  exact ⟨Job.process_calls hdx (hk.unlinked _), fun o ho => (Job.process_outcome hdx (hk.unlinked _) ho).2⟩

end

/-! ## A run whose analyzer times out -/

namespace Sample

def stalling : Analyzer := .ofFunction fun _ => .finished ⟨"", none, true⟩

def stalled (fs : FileSystem) : PastRun := { run debugging [source] fs with analyzer := stalling }

def again (fs : FileSystem) : PastRun := run debugging [source] (stalled fs).report.fs

theorem not_replaces (fs : FileSystem) : ¬(stalled fs).Replaces source := by
  rintro ⟨x, hx, -, -, o, fs', fs'', hc, ha, -⟩
  obtain ⟨force, -, hj, -⟩ := PastRun.of_mem_handled hx
  rw [hj] at hc ha
  cases hc
  cases ha

theorem linkless_files : files.Linkless layout.objectsDir := by
  intro fs' d name hx hd target ht
  rw [← (directoryAt_files.of_keepsWays hx.toKeepsWays).unique hd] at ht
  rw [List.singleton_append, node?_files] at ht
  split at ht <;> cases ht

theorem stalled_report_fs {fs S : FileSystem} (h : (stalled fs).recordStep = (.ok true, S)) :
    (stalled fs).report.fs = S := by
  have hp : (((stalled fs).job true).process source S).fs = S := by
    rw [Job.process_of_stale rfl, Job.analyze_fs]
    rfl
  rw [(stalled fs).report_fs, h]
  exact (Dispatch.work_singleton_fs _ 0 _ _).trans hp

end Sample

section
open Sample

theorem again_of_not_replaced_files : (again files).recordStep.1 = .ok false ∧
    ∀ x ∈ (again files).handled, x.source = source →
      x.result.calls =
        if layout.isStale (recorded debugging) source false then [x.commandLine] else [] := by
  have h := again_of_not_replaced (r := stalled files) (q := again files) linkless_files (update_files debugging)
    (Analyzer.spares_ofFunction _ _) (Analyzer.spares_ofFunction _ _) rfl rfl rfl rfl (by decide)
    List.mem_cons_self (not_replaces files)
  exact ⟨h.1, fun x hx hs => (h.2 x hx hs).1⟩

/-- **A forced run that replaces no result lets the old ones pass for new ones.**  Its record is written before the
analyzer is asked, so the next run has no reason to ask again. -/
theorem spared_after_stalled_run : ∃ S x, (stalled first.report.fs).recordStep = (.ok true, S) ∧
    (stalled first.report.fs).sources = [source] ∧ ¬(stalled first.report.fs).Replaces source ∧
    (again first.report.fs).handled = [x] ∧ x.source = source ∧ x.Spared := by
  obtain ⟨S, hu, hS⟩ := done_first.recordStep debugging
  rw [bne_iff_ne.2 fingerprint_ne] at hu
  have hfs : (stalled first.report.fs).report.fs = S := stalled_report_fs hu
  obtain ⟨S', hu', hS'⟩ := hS.recordStep debugging
  rw [bne_self_eq_false, ← hfs] at hu'
  refine ⟨S, ⟨(again first.report.fs).job false, source, S'⟩, hu, rfl, not_replaces _, ?_, rfl, ?_⟩
  · rw [PastRun.handled, show (again first.report.fs).recordStep = _ from hu']
    exact Dispatch.started_singleton _ 0 _ _
  · exact hS'.spared (again first.report.fs) rfl rfl

end
end Recheck
