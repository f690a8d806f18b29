import Recheck.Proofs.Dispatch.Histories
/-!
# Where fresh results come from

A result that a run takes for fresh is the answer of the latest analysis of its source (`kept_at_job`).  The record tells
the configuration of the latest run only, so the result is right for a run exactly when that analysis was made under a
configuration with the same fingerprint (`spared_origin`).  It always is where each forced run starts its source; a
forced run that leaves a source out lets the result of the old configuration pass for a fresh one
(`spared_after_other_run`).
-/
namespace Recheck
open FileSystem CacheLayout

/-- An analyzer that always answers, and in time. -/
def Analyzer.Answers (analyzer : Analyzer) : Prop :=
  ∀ argv fs, ∃ o, (analyzer argv fs).1 = .finished o ∧ o.timedOut = false

/-- A run that keeps all answers, of an analyzer that gives them and leaves the objects directory alone. -/
structure PastRun.KeepsAll (r : PastRun) (objects : Path) : Prop where
  policy : r.options.failurePolicy = .cacheAlways
  answers : r.analyzer.Answers
  spares : r.analyzer.Spares objects

/-! ## Runs keep what is kept -/

section
variable {objects : Path} {d : Address} {fs₀ fs : FileSystem} {runs : List PastRun}

theorem Kept.jobs {log : List Handled} {S : FileSystem} {r : PastRun} {force : Bool}
    (h : Kept objects log r.configuration.fingerprint d S) (hs : r.recordStep = (.ok force, S))
    (ho : r.layout.objectsDir = objects) (hr : r.KeepsAll objects) :
    Kept objects (r.handled.reverse ++ log) r.configuration.fingerprint d r.report.fs ∧
      ∀ pre x post, r.handled = pre ++ x :: post →
        Kept objects (pre.reverse ++ log) r.configuration.fingerprint d x.fs := by
  rw [r.report_fs, PastRun.handled, hs]
  cases hq : Dispatch.queueTooLarge (Dispatch.workers r.options) with
  | true =>
    refine ⟨by simpa using h, fun pre x post hx => ?_⟩
    simp at hx
  | false =>
    simp only [Bool.false_eq_true, if_false]
    refine Dispatch.started_induct (P := fun log fs => Kept objects log r.configuration.fingerprint d fs) _
      (fun log s fs _ hk => ?_) h
    exact hk.job ho hr.spares hr.policy (hr.answers _ _)

theorem kept_of_lacks (h : ∀ name, IsCacheName name → fs.Lacks objects name) {l : CacheLayout}
    (ho : l.objectsDir = objects) {c : Configuration} {force : Bool} {S : FileSystem}
    (hs : Record.update fs l.recordPath c = (.ok force, S)) :
    ∃ d, Kept objects [] c.fingerprint d S := by
  subst ho
  have hlacks : ∀ fs' d name, Grows fs fs' → DirectoryAt fs' l.objectsDir d → IsCacheName name →
      ∀ node, fs'.node? (d ++ [name]) = some node → node = .directory := by
    intro fs' d name hg hd hn node hnode
    have hx := hg.leavesCache
    rcases (h name hn).of_leavesCache hx hn fs' d (.refl fs') hd with he | he <;> rw [hnode] at he <;>
      cases he
    rfl
  obtain ⟨fs', d, executable, hg, hd, hf, hst, rfl⟩ := Record.update_stores hs fun fs' d hg hd target ht => by
    have := hlacks fs' d recordName hg hd (.inl rfl) (.link target) (hg.keepsWays.link _ _ ht)
    cases this
  refine ⟨d, hd.of_keepsWays (hst.keepsWays _ _), hf, fun name hn target ht => ?_,
    ⟨_, _, node?_store_self _ _ _ hst.ne_nil⟩, fun key source content modified executable' hf' hnode => ?_⟩
  · by_cases hr : name = recordName
    · rw [hr, node?_store_self _ _ _ hst.ne_nil] at ht
      cases ht
    · rw [node?_store_of_ne _ _ _ (by simpa using hr)] at ht
      cases hlacks fs' d name hg hd hn _ ht
  · rw [node?_store_of_ne _ _ _ (by simpa using resultName_ne_recordName key source)] at hnode
    cases hlacks fs' d _ hg hd (.inr ⟨key, source, rfl⟩) _ hnode

/-- Before the first run that gets past its record step nothing is kept; from then on, what the log says. -/
def InOrder (objects : Path) (runs : List PastRun) (fs : FileSystem) : Prop :=
  (jobLog runs = [] ∧ lastFingerprint runs = none ∧ ∀ name, IsCacheName name → fs.Lacks objects name) ∨
    ∃ d last, lastFingerprint runs = some last ∧ Kept objects (jobLog runs) last d fs

theorem InOrder.recordStep {r : PastRun} (h : InOrder objects runs r.before) (ho : r.layout.objectsDir = objects)
    {force : Bool} {S : FileSystem} (hs : r.recordStep = (.ok force, S)) :
    (∀ last, lastFingerprint runs = some last → force = (last != r.configuration.fingerprint)) ∧
      ∃ d, Kept objects (jobLog runs) r.configuration.fingerprint d S := by
  rcases h with ⟨hlog, hnone, hlacks⟩ | ⟨d, last, hlast, hk⟩
  · rw [hlog]
    refine ⟨fun last hlast => ?_, kept_of_lacks hlacks ho hs⟩
    rw [hnone] at hlast; cases hlast
  · obtain ⟨S', hu, hk'⟩ := hk.recordStep ho r.configuration
    rw [PastRun.recordStep, hu] at hs
    cases hs
    refine ⟨fun last' hlast' => ?_, d, hk'⟩
    rw [hlast] at hlast'; cases hlast'
    rfl

theorem jobLog_cons (r : PastRun) (runs : List PastRun) : jobLog (r :: runs) = r.handled.reverse ++ jobLog runs := by
  rw [jobLog, List.flatMap_cons]
  rfl

theorem lastFingerprint_of_ok {r : PastRun} {force : Bool} (h : r.recordStep.1 = .ok force) :
    lastFingerprint (r :: runs) = some r.configuration.fingerprint := by
  rw [lastFingerprint, List.find?_cons_of_pos]
  · rfl
  · rw [PastRun.passed, h]; rfl

theorem lastFingerprint_of_error {r : PastRun} {e : IoError} (h : r.recordStep.1 = .error e) :
    lastFingerprint (r :: runs) = lastFingerprint runs := by
  rw [lastFingerprint, List.find?_cons_of_neg]
  · rfl
  · simp [PastRun.passed, h, Except.toBool]

/-- **Every history leaves the cache in order.** -/
theorem History.inOrder (h : History objects BuildStep fs₀ runs fs)
    (hstart : ∀ name, IsCacheName name → fs₀.Lacks objects name) (hr : ∀ r ∈ runs, r.KeepsAll objects) :
    InOrder objects runs fs := by
  induction h with
  | start => exact .inl ⟨rfl, rfl, hstart⟩
  | between _ hb ih =>
    have hs := hb.leavesCache
    rcases ih hr with ⟨hlog, hnone, hlacks⟩ | ⟨d, last, hlast, hk⟩
    · exact .inl ⟨hlog, hnone, fun name hn => (hlacks name hn).of_leavesCache hs hn⟩
    · exact .inr ⟨d, last, hlast, hk.leavesCache hs⟩
  | @run runs r _ ho ih =>
    have ih := ih fun q hq => hr q (List.mem_cons_of_mem _ hq)
    cases hs : r.recordStep with
    | mk outcome S =>
      cases outcome with
      | error e =>
        have hg : LeavesCache r.before S := (Record.grows_of_update_error hs).leavesCache
        have hfs : r.report.fs = S := by rw [r.report_fs, hs]
        have hh : r.handled = [] := by rw [PastRun.handled, hs]
        rw [InOrder, jobLog_cons, hh, lastFingerprint_of_error (by rw [hs]), hfs]
        rcases ih with ⟨hlog, hnone, hlacks⟩ | ⟨d, last, hlast, hk⟩
        · exact .inl ⟨hlog, hnone, fun name hn => (hlacks name hn).of_leavesCache hg hn⟩
        · exact .inr ⟨d, last, hlast, hk.leavesCache hg⟩
      | ok force =>
        obtain ⟨-, d, hk⟩ := ih.recordStep ho hs
        refine .inr ⟨d, _, lastFingerprint_of_ok (by rw [hs]), ?_⟩
        rw [jobLog_cons]
        exact (hk.jobs hs ho (hr r List.mem_cons_self)).1

/-! ## The configuration of a latest analysis -/

/-- Where each forced run starts the source of a result, the latest analysis was made under the latest configuration. -/
theorem History.fingerprint_of_latest (h : History objects BuildStep fs₀ runs fs)
    (hstart : ∀ name, IsCacheName name → fs₀.Lacks objects name) (hr : ∀ r ∈ runs, r.KeepsAll objects) {result : Path}
    (hall : ∀ r ∈ runs, r.Forced → ∃ z ∈ r.handled, z.path = result) {y : Handled}
    (hy : latestAnalysis result (jobLog runs) = some y) : lastFingerprint runs = some y.fingerprint := by
  induction h with
  | start => cases hy
  | between _ _ ih => exact ih hr hall hy
  | @run runs r hist ho ih =>
    have hr' : ∀ q ∈ runs, q.KeepsAll objects := fun q hq => hr q (List.mem_cons_of_mem _ hq)
    have ih := ih hr' fun q hq => hall q (List.mem_cons_of_mem _ hq)
    cases hs : r.recordStep with
    | mk outcome S =>
      cases outcome with
      | error e =>
        have hh : r.handled = [] := by rw [PastRun.handled, hs]
        rw [lastFingerprint_of_error (by rw [hs])]
        rw [jobLog_cons, hh] at hy
        exact ih hy
      | ok force =>
        rw [lastFingerprint_of_ok (by rw [hs])]
        rw [jobLog_cons, latestAnalysis_append, Option.or_eq_some_iff] at hy
        rcases hy with hy | ⟨hnone, hy⟩
        · have hm := List.mem_reverse.1 (latestAnalysis_some hy).1
          rw [PastRun.fingerprint_of_mem_handled hm]
        · -- the run itself has analyzed nothing that belongs there, so it was not forced
          have hforce : force = false := by
            cases force with
            | false => rfl
            | true =>
              have hf : r.Forced := by rw [PastRun.Forced, hs]
              obtain ⟨z, hz, hp⟩ := hall r List.mem_cons_self hf
              have := List.find?_eq_none.1 hnone z (List.mem_reverse.2 hz)
              simp [PastRun.isStale_of_forced hf hz, hp] at this
          have hlast := ih hy
          have hsame := ((hist.inOrder hstart hr').recordStep ho hs).1 _ hlast
          rw [hforce] at hsame
          have : y.fingerprint = r.configuration.fingerprint := by simpa using hsame.symm
          rw [this]

/-- **Where a fresh result comes from.**  A source that a run reports as cached or skipped has the text of its latest
analysis, and its command line is that of the run exactly when the fingerprints are the same.  They are, where every
run forced before started the source. -/
theorem spared_origin {r : PastRun} (h : History objects BuildStep fs₀ runs r.before)
    (ho : r.layout.objectsDir = objects) (hstart : ∀ name, IsCacheName name → fs₀.Lacks objects name)
    (hr : ∀ q ∈ r :: runs, q.KeepsAll objects)
    (hapart : ∀ q ∈ r :: runs, ∀ q' ∈ r :: runs, ∀ s ∈ q.sources, ∀ s' ∈ q'.sources,
      q.layout.resultPath s = q'.layout.resultPath s' → s = s')
    {pre post : List Handled} {x : Handled} (hx : r.handled = pre ++ x :: post) (hspared : x.Spared) :
    ∃ y o modified, latestAnalysis x.path (pre.reverse ++ jobLog runs) = some y ∧ y.source = x.source ∧
      y.result.calls = [y.commandLine] ∧ (y.job.call y.source y.fs).1 = .finished o ∧
      x.job.layout.read x.fs x.source = .ok (some ⟨o.text, modified⟩) ∧
      (y.commandLine = x.commandLine ↔ y.fingerprint = x.fingerprint) ∧
      ((∀ q ∈ runs, q.Forced → ∃ z ∈ q.handled, z.path = x.path) → y.commandLine = x.commandLine) := by
  have hmem : x ∈ r.handled := by rw [hx]; simp
  obtain ⟨force, hs₁, hjob, hsource⟩ := PastRun.of_mem_handled hmem
  have hs : r.recordStep = (.ok force, r.recordStep.2) := by rw [← hs₁]
  have hr' : ∀ q ∈ runs, q.KeepsAll objects := fun q hq => hr q (List.mem_cons_of_mem _ hq)
  have hrun := hr r List.mem_cons_self
  obtain ⟨hforce, d, hk₀⟩ := (h.inOrder hstart hr').recordStep ho hs
  have hk := (hk₀.jobs hs ho hrun).2 pre x post hx
  have hobjects : x.job.layout.objectsDir = objects := by rw [hjob]; exact ho
  subst hobjects
  have hl := hk.unlinked (x.job.entry x.source) (.inr ⟨_, _, rfl⟩)
  -- the result is fresh
  have hfresh : x.isStale = false := by
    obtain ⟨o, hout, hcase⟩ := hspared
    exact (Job.process_outcome hk.directory hl hout).2.1 hcase
  obtain ⟨hf, content, modified, executable, hnode, -⟩ := Job.process_of_fresh hk.directory hl hfresh
  obtain ⟨y, o, hy, hanswer, rfl⟩ := hk.result _ _ content modified executable hf hnode
  obtain ⟨hym, hystale, hypath⟩ := latestAnalysis_some hy
  -- the analysis was one of this source, in this run or an earlier one
  have hyrun : ∃ q ∈ r :: runs, y ∈ q.handled := by
    rcases List.mem_append.1 hym with hm | hm
    · refine ⟨r, List.mem_cons_self, ?_⟩
      rw [hx]
      exact List.mem_append_left _ (List.mem_reverse.1 hm)
    · obtain ⟨q, hq, hm⟩ := mem_jobLog hm
      exact ⟨q, List.mem_cons_of_mem _ hq, hm⟩
  obtain ⟨q, hq, hyq⟩ := hyrun
  have hysource : y.source = x.source := by
    obtain ⟨_, -, -, hys⟩ := PastRun.of_mem_handled hyq
    refine hapart q hq r List.mem_cons_self _ hys _ hsource ?_
    rw [← PastRun.path_of_mem_handled hyq, ← PastRun.path_of_mem_handled hmem]
    exact hypath
  have hcommand : y.commandLine = x.commandLine ↔ y.fingerprint = x.fingerprint := by
    rw [Handled.commandLine, Handled.commandLine, Job.commandLine, Job.commandLine, hysource]
    exact Configuration.commandLine_eq_iff _ _ _
  refine ⟨y, o, modified, hy, hysource, ?_, hanswer, ?_, hcommand, fun hall => hcommand.2 ?_⟩
  · rw [Handled.result, Job.process_of_stale hystale, Job.analyze_calls]
    rfl
  · rw [Job.read_of_file hk.directory hf hnode, Utf8.decodeLossy_encode]
  · have hfx := PastRun.fingerprint_of_mem_handled hmem
    rw [latestAnalysis_append, Option.or_eq_some_iff] at hy
    rcases hy with hy | ⟨-, hy⟩
    · have hm : y ∈ r.handled := by
        rw [hx]
        exact List.mem_append_left _ (List.mem_reverse.1 (latestAnalysis_some hy).1)
      rw [hfx, PastRun.fingerprint_of_mem_handled hm]
    · -- an earlier run: this one is not forced, since it found the result fresh
      have hnot : force = false := by
        cases hcase : force with
        | false => rfl
        | true =>
          have := PastRun.isStale_of_forced (r := r) (by rw [PastRun.Forced, hs₁, hcase]) hmem
          rw [hfresh] at this; cases this
      have hlast := hforce _ (h.fingerprint_of_latest hstart hr' hall hy)
      rw [hnot] at hlast
      rw [hfx]
      simpa using hlast.symm

end

/-! ## A run that leaves the source out -/

namespace Sample

def analyzer : Analyzer := .ofFunction fun argv => .finished ⟨String.join argv, some 0, false⟩

def run (c : Configuration) (sources : List Path) (fs : FileSystem) : PastRun :=
  ⟨c, layout, analyzer, ⟨none, false, .cacheAlways⟩, sources, .good, fs⟩

def first : PastRun := run plain [source] files

def other : PastRun := run debugging [] first.report.fs

def second : PastRun := run debugging [source] other.report.fs

theorem keepsAll_run (c : Configuration) (sources : List Path) (fs : FileSystem) :
    (run c sources fs).KeepsAll layout.objectsDir :=
  ⟨rfl, fun _ _ => ⟨_, rfl, rfl⟩, Analyzer.spares_ofFunction _ _⟩

/-- The record of a configuration, and a result younger than the object file. -/
structure Done (c : Configuration) (fs : FileSystem) : Prop where
  directory : DirectoryAt fs layout.objectsDir ["o"]
  record : ∃ t x, fs.node? ["o", recordName] = some (.file (Utf8.encode c.fingerprint) t x)
  object : fs.node? ["o", objectName source] = some (.file .empty 0 false)
  result : ∃ content x, fs.node? ["o", resultName layout.key source] = some (.file content 1 x)

theorem Done.recordStep {c : Configuration} {fs : FileSystem} (h : Done c fs) (c' : Configuration) :
    ∃ S, Record.update fs layout.recordPath c' = (.ok (c.fingerprint != c'.fingerprint), S) ∧ Done c' S := by
  obtain ⟨t, x, hr⟩ := h.record
  have hst : fs.Storable ["o", recordName] := .inr ⟨_, _, _, hr⟩
  refine ⟨_, Record.update_of_file h.directory fits_record hr (Utf8.decode?_encode _),
    h.directory.of_keepsWays (hst.keepsWays _ _), ⟨_, _, node?_store_self _ _ _ (by simp)⟩, ?_, ?_⟩
  · exact (node?_store_of_ne _ _ _ (by decide)).trans h.object
  · obtain ⟨content, y, hres⟩ := h.result
    exact ⟨content, y, (node?_store_of_ne _ _ _ (by decide)).trans hres⟩

theorem Done.fresh {c : Configuration} {fs : FileSystem} (h : Done c fs) : layout.isStale fs source false = false := by
  obtain ⟨content, x, hr⟩ := h.result
  have hol : fs.Unlinked (["o"] ++ [objectName source]) := Storable.unlinked (.inr ⟨_, _, _, h.object⟩)
  have hrl : fs.Unlinked (["o"] ++ [resultName layout.key source]) := Storable.unlinked (.inr ⟨_, _, _, hr⟩)
  have ho := (modified?_join h.directory (isName_objectName source) hol 0).2 ⟨fits_object, _, _, h.object⟩
  have hm := (modified?_join h.directory (isName_resultName _ source) hrl 1).2 ⟨fits_result, _, _, hr⟩
  exact isStale_eq_false_iff.2 ⟨rfl, 0, 1, ho, hm, by decide⟩

theorem Done.cached {c : Configuration} {fs : FileSystem} (h : Done c fs) (r : PastRun) (hl : r.layout = layout)
    (ho : r.options.onlyLatest = false) :
    ∃ o, Handled.result ⟨r.job false, source, fs⟩ = ⟨some o, [], fs⟩ ∧ o.outcome = .cached := by
  obtain ⟨content, t, hres⟩ := h.result
  have hd : DirectoryAt fs (r.job false).layout.objectsDir ["o"] := by
    rw [show (r.job false).layout = layout from hl]; exact h.directory
  have hentry : (r.job false).entry source = resultName layout.key source := by
    rw [Job.entry, show (r.job false).layout = layout from hl]
  have hst : (r.job false).layout.isStale fs source (r.job false).force = false := by
    rw [show (r.job false).layout = layout from hl]; exact h.fresh
  have hun : fs.Unlinked (["o"] ++ [(r.job false).entry source]) := by
    rw [hentry]; exact Storable.unlinked (.inr ⟨_, _, _, hres⟩)
  obtain ⟨-, content', modified, t', hn, hp⟩ := Job.process_of_fresh hd hun hst
  rw [hentry] at hn
  cases hres.symm.trans hn
  have hlatest : (r.job false).onlyLatest = false := ho
  rw [hlatest] at hp
  exact ⟨_, hp, rfl⟩

theorem Done.spared {c : Configuration} {fs : FileSystem} (h : Done c fs) (r : PastRun) (hl : r.layout = layout)
    (ho : r.options.onlyLatest = false) : Handled.Spared ⟨r.job false, source, fs⟩ := by
  obtain ⟨o, hp, hc⟩ := h.cached r hl ho
  exact ⟨o, congrArg JobRun.output hp, .inl hc⟩

def recorded (c : Configuration) : FileSystem := files.store ["o", recordName] (Utf8.encode c.fingerprint) false

theorem update_files (c : Configuration) : Record.update files layout.recordPath c = (.ok true, recorded c) := by
  have h := Record.update_of_absent (l := layout) (c := c) directoryAt_files fits_record (by rfl)
  rw [bne_iff_ne.2 c.fingerprint_ne_absent.symm] at h
  exact h

theorem first_recordStep : first.recordStep = (.ok true, recorded plain) := update_files plain

theorem done_first : Done plain first.report.fs := by
  have hd : DirectoryAt (recorded plain) layout.objectsDir ["o"] :=
    directoryAt_files.of_keepsWays (Storable.keepsWays _ _ (.inl (by rfl)))
  have hnone : (recorded plain).node? ["o", resultName layout.key source] = none := by
    rw [recorded, node?_store_of_ne _ _ _ (by decide)]
    rfl
  have hl : (recorded plain).Unlinked (["o"] ++ [resultName layout.key source]) := Storable.unlinked (.inl hnone)
  have hfs : first.report.fs =
      (first.job true).keep source ⟨String.join (plain.commandLine [source]), some 0, false⟩ (recorded plain) := by
    have hp : (first.job true).process source (recorded plain) = (first.job true).analyze source (recorded plain) :=
      Job.process_of_stale rfl
    rw [first.report_fs, first_recordStep]
    refine (Dispatch.work_singleton_fs _ 0 _ _).trans ?_
    rw [hp, Job.analyze_fs]
    rfl
  rcases Job.keep_eq (j := first.job true) hd hl ⟨String.join (plain.commandLine [source]), some 0, false⟩ with
    ⟨x, -, hst, hk⟩ | ⟨-, h | h | h⟩
  · rw [hfs, hk]
    refine ⟨hd.of_keepsWays (hst.keepsWays _ _), ⟨1, false, ?_⟩, ?_, _, x, node?_store_self _ _ _ hst.ne_nil⟩
    · exact (node?_store_of_ne _ _ _ (by decide)).trans (node?_store_self _ _ _ (by simp))
    · exact (node?_store_of_ne _ _ _ (by decide)).trans (node?_store_of_ne _ _ _ (by decide))
  · cases h
  · exact absurd fits_result h
  · cases hnone.symm.trans h

theorem fingerprint_ne : plain.fingerprint ≠ debugging.fingerprint := by
  rw [ne_eq, Configuration.fingerprint_eq_iff]
  decide

theorem other_recordStep : ∃ S, other.recordStep = (.ok true, S) ∧ Done debugging S := by
  obtain ⟨S, hu, hS⟩ := done_first.recordStep debugging
  rw [bne_iff_ne.2 fingerprint_ne] at hu
  exact ⟨S, hu, hS⟩

theorem done_other : Done debugging other.report.fs := by
  obtain ⟨S, hu, hS⟩ := other_recordStep
  rw [other.report_fs, hu]
  exact hS

theorem second_recordStep : ∃ S, second.recordStep = (.ok false, S) ∧ Done debugging S := by
  obtain ⟨S, hu, hS⟩ := done_other.recordStep debugging
  rw [bne_self_eq_false] at hu
  exact ⟨S, hu, hS⟩

theorem history : History layout.objectsDir BuildStep files [other, first] second.before :=
  .run (.run .start rfl) rfl

theorem node?_files (name : Name) :
    files.node? ["o", name] = if name = "b.o" then some (.file .empty 0 false) else none := by
  by_cases hn : name = "b.o"
  · rw [hn]
    rfl
  · have hne : (name == "b.o") = false := beq_eq_false_iff_ne.2 hn
    simp [files, node?, List.lookup_cons, hne, hn]

theorem lacks_files {name : Name} (h : IsCacheName name) : files.Lacks layout.objectsDir name := by
  refine lacks_of_directoryAt directoryAt_files ?_
  exact (node?_files name).trans (if_neg (h.ne_objectName source))

theorem handled_first : first.handled = [⟨first.job true, source, recorded plain⟩] := by
  rw [PastRun.handled, first_recordStep]
  rfl

theorem jobLog_other : jobLog [other, first] = [⟨first.job true, source, recorded plain⟩] := by
  obtain ⟨S, hu, -⟩ := other_recordStep
  have ho : other.handled = [] := by rw [PastRun.handled, hu]; rfl
  rw [jobLog_cons, jobLog_cons, ho, handled_first]
  rfl

theorem handled_second : ∃ x, second.handled = [x] ∧ x.source = source ∧ x.Spared ∧
    x.commandLine = debugging.commandLine [source] := by
  obtain ⟨S, hu, hS⟩ := second_recordStep
  refine ⟨⟨second.job false, source, S⟩, ?_, rfl, ?_, rfl⟩
  · rw [PastRun.handled, hu]
    exact Dispatch.started_singleton _ 0 _ _
  · exact hS.spared second rfl rfl

theorem keepsAll {q : PastRun} (h : q ∈ [second, other, first]) : q.KeepsAll layout.objectsDir := by
  simp only [List.mem_cons, List.not_mem_nil, or_false] at h
  rcases h with rfl | rfl | rfl <;> exact keepsAll_run _ _ _

theorem eq_source {q : PastRun} (h : q ∈ [second, other, first]) {s : Path} (hs : s ∈ q.sources) : s = source := by
  have : ∀ q ∈ [second, other, first], ∀ s ∈ q.sources, s = source := by simp [second, other, first, run]
  exact this q h s hs

end Sample

section
open Sample

theorem spared_origin_second : ∃ x y, ∃ o : AnalyzerOutput, ∃ modified, second.handled = [x] ∧
    latestAnalysis x.path (jobLog [other, first]) = some y ∧
    x.job.layout.read x.fs x.source = .ok (some ⟨o.text, modified⟩) ∧
    (y.commandLine = x.commandLine ↔ y.fingerprint = x.fingerprint) := by
  obtain ⟨x, hx, -, hspared, -⟩ := handled_second
  obtain ⟨y, o, modified, hy, -, -, -, hread, hcommand, -⟩ :=
    spared_origin (r := second) history rfl (fun _ => lacks_files) (fun _ => keepsAll)
      (fun q hq q' hq' s hs s' hs' _ => (eq_source hq hs).trans (eq_source hq' hs').symm)
      (show second.handled = [] ++ x :: [] from hx) hspared
  exact ⟨x, y, o, modified, hx, hy, hread, hcommand⟩

/-- **A forced run without a source lets its old result pass for a fresh one.**  The record follows the configuration of
that run, so the next one with the source takes the text of another command line for its own. -/
theorem spared_after_other_run :
    History layout.objectsDir BuildStep files [other, first] second.before ∧
    (∀ name, IsCacheName name → files.Lacks layout.objectsDir name) ∧
    (∀ q ∈ [second, other, first], q.KeepsAll layout.objectsDir) ∧
    (∀ q ∈ [second, other, first], ∀ q' ∈ [second, other, first], ∀ s ∈ q.sources, ∀ s' ∈ q'.sources,
      q.layout.resultPath s = q'.layout.resultPath s' → s = s') ∧
    ∃ x y, second.handled = [x] ∧ x.Spared ∧ jobLog [other, first] = [y] ∧ y.commandLine ≠ x.commandLine := by
  refine ⟨history, fun _ => lacks_files, fun _ => keepsAll,
    fun q hq q' hq' s hs s' hs' _ => (eq_source hq hs).trans (eq_source hq' hs').symm, ?_⟩
  obtain ⟨x, hx, -, hspared, hcommand⟩ := handled_second
  refine ⟨x, _, hx, hspared, jobLog_other, ?_⟩
  rw [hcommand]
  decide

end
end Recheck
