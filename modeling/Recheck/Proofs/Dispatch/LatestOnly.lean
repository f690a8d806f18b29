import Recheck.Proofs.Dispatch.Draining
import Recheck.Proofs.Dispatch.Replays
/-!
# Only the latest results

A run may be asked to show the latest results only.  It goes as the same run that shows all of them does: each job finds
the same files, calls the analyzer or not, and leaves the same files (`Job.process_showing`), so the two stay in step over
all sources (`Dispatch.work_showing`).  They differ in what they say of a fresh result, which the one skips and the other
shows (`only_latest_agrees`).
-/
namespace Recheck
open FileSystem CacheLayout

/-! ## Times with dates -/

namespace FileSystem

/-- What is there, and what is written now, is of a year with dates. -/
structure Dated (fs : FileSystem) : Prop where
  clock : fs.clock.civilText? ≠ none
  file : ∀ a content modified executable, fs.node? a = some (.file content modified executable) →
    modified.civilText? ≠ none

namespace Dated
variable {fs fs' : FileSystem}

theorem put (h : fs.Dated) (a : Address) {node : Node}
    (hn : ∀ content modified executable, node = .file content modified executable → modified.civilText? ≠ none) :
    (fs.put a node).Dated := by
  refine ⟨h.clock, fun b content modified executable hb => ?_⟩
  by_cases hba : b = a
  · subst hba
    cases b with
    | nil => cases hb
    | cons n b =>
      rw [node?_put_self fs (List.cons_ne_nil n b)] at hb
      exact hn content modified executable (Option.some.inj hb)
  · rw [node?_put_of_ne fs hba] at hb
    exact h.file b content modified executable hb

theorem store (h : fs.Dated) (a : Address) (content : ByteArray) (executable : Bool) :
    (fs.store a content executable).Dated := by
  have hput : (fs.put a (.file content fs.clock executable)).Dated :=
    h.put a fun _ _ _ hn => by cases hn; exact h.clock
  refine ⟨hput.clock, fun b c modified x hb => hput.file b c modified x ?_⟩
  cases b <;> exact hb

theorem write (h : fs.Dated) {p : Path} {content : ByteArray} (hw : fs.write p content = .ok fs') : fs'.Dated := by
  rw [FileSystem.write] at hw
  split at hw <;> cases hw
  · exact h.store _ _ _
  · exact h.store _ _ _

theorem makeDirectories (h : fs.Dated) (p : Path) : (fs.makeDirectories p).2.Dated := by
  refine makeDirectoriesWithin_induct (P := Dated) (fun fs fs' p h hm => ?_) _ _ _ h
  obtain ⟨d, name, rfl, -⟩ := makeDirectory_ok hm
  exact h.put _ nofun

/-- The record step writes at most the record. -/
theorem update (h : fs.Dated) (record : Path) (c : Configuration) : (Record.update fs record c).2.Dated := by
  have hmake : (Record.makeDirectory fs record).2.Dated := by
    rw [Record.makeDirectory]
    split
    · exact h.makeDirectories _
    · exact h
  rw [Record.update]
  split
  · exact h
  · split <;> rename_i hm <;> rw [hm] at hmake
    · exact hmake
    · split
      · exact hmake
      · rename_i hw
        exact hmake.write hw

/-- A fresh result can be shown with its date. -/
theorem modified? (h : fs.Dated) {p : Path} {t : Timestamp} (ht : fs.modified? p = some t) : t.civilText? ≠ none := by
  obtain ⟨a, content, executable, hs⟩ := modified?_eq_some_iff.1 ht
  rw [stat] at hs
  split at hs
  · rename_i b node hl
    cases hs
    exact h.file a content t executable (node?_of_occupied (locateFrom_ok hl).2)
  · cases hs
  · cases hs

end Dated
end FileSystem

/-- An analyzer that writes nothing in a year without dates; it may touch no file at all. -/
def Analyzer.KeepsDates (analyzer : Analyzer) : Prop := ∀ argv fs, fs.Dated → (analyzer argv fs).2.Dated

theorem Analyzer.keepsDates_ofFunction (answer : List String → Attempt) : (ofFunction answer).KeepsDates :=
  fun _ _ h => h

/-! ## Two jobs in step -/

/-- What a source comes to where only the latest results are shown, and where all are: the same output, or a fresh result
that is skipped by the one and shown by the other. -/
inductive Corresponds : JobOutput → JobOutput → Prop
  | same {o} : o.outcome ≠ .cached → o.outcome ≠ .skipped → Corresponds o o
  | fresh {o o'} : o.source = o'.source → o.outcome = .skipped → o'.outcome = .cached → Corresponds o o'

namespace Job

/-- The same job where only the latest results are shown, or all. -/
def showing (j : Job) (onlyLatest : Bool) : Job := { j with onlyLatest }

section
variable {j : Job} {s : Path} {fs : FileSystem}

theorem source_of_output {o : JobOutput} (h : (j.process s fs).output = some o) : o.source = s := by
  cases hst : j.layout.isStale fs s j.force with
  | true =>
    rw [process_of_stale hst] at h
    exact (analyze_outcome h).1
  | false =>
    obtain ⟨_, _, _, _, -, hp⟩ := process_of_not_stale hst
    rw [hp] at h
    cases hlatest : j.onlyLatest with
    | true =>
      simp only [hlatest, if_true, Option.some.injEq] at h
      rw [← h]
      rfl
    | false =>
      simp only [hlatest, Bool.false_eq_true, if_false, Option.map_eq_some_iff] at h
      obtain ⟨_, -, rfl⟩ := h
      rfl

/-- A job keeps what is there in years with dates. -/
theorem dated_process (h : fs.Dated) (hcall : j.analyzer.KeepsDates) : (j.process s fs).fs.Dated := by
  rcases j.process_fs s fs with ⟨-, hfs⟩ | ⟨-, -, hfs⟩ | ⟨o, -, hw⟩
  · rw [hfs]
    exact h
  · rw [hfs]
    exact hcall _ _ h
  · exact (hcall _ _ h).write hw

/-- **Which results are shown changes nothing about a job but what it says of a fresh one.** -/
theorem process_showing (h : fs.Dated) (hcrash : (j.call s fs).1 ≠ .crashed) :
    ∃ o o', (j.showing true).process s fs = ⟨some o, (j.process s fs).calls, (j.process s fs).fs⟩ ∧
      (j.showing false).process s fs = ⟨some o', (j.process s fs).calls, (j.process s fs).fs⟩ ∧ Corresponds o o' := by
  cases hst : j.layout.isStale fs s j.force with
  | true =>
    -- whether a result is stale is asked first, and an analysis is the same whatever is shown
    have hboth : ∀ b, (j.showing b).process s fs = j.analyze s fs := fun b => process_of_stale (j := j.showing b) hst
    rw [process_of_stale hst, hboth, hboth]
    cases ho : (j.analyze s fs).output with
    | none =>
      rw [analyze_output] at ho
      cases hc : (j.call s fs).1 with
      | crashed => exact absurd hc hcrash
      | finished o => rw [hc] at ho; cases ho
      | notStarted e => rw [hc] at ho; cases ho
    | some o =>
      obtain ⟨-, hcached, hskipped⟩ := analyze_outcome ho
      exact ⟨o, o, by rw [← ho], by rw [← ho], .same hcached hskipped⟩
  | false =>
    obtain ⟨a, content, t, executable, hs, hp⟩ := process_of_not_stale hst
    obtain ⟨_, _, _, _, hs₁, hp₁⟩ := process_of_not_stale (j := j.showing true) hst
    obtain ⟨_, _, _, _, hs₂, hp₂⟩ := process_of_not_stale (j := j.showing false) hst
    have hdate := h.modified? (modified?_eq_some_iff.2 ⟨a, content, executable, hs⟩)
    obtain ⟨date, hdate⟩ := Option.ne_none_iff_exists'.1 hdate
    cases hs.symm.trans hs₁
    cases hs.symm.trans hs₂
    rw [hp, hp₁, hp₂, cachedText?, hdate]
    exact ⟨_, _, rfl, rfl, .fresh rfl rfl rfl⟩

end
end Job

/-! ## Two runs in step -/

namespace Dispatch

/-- **Two runs over the same sources stay in step**: before each source they have left the same files. -/
theorem work_showing {j : Job} (hcall : j.analyzer.KeepsDates) (hcrash : ∀ argv fs, (j.analyzer argv fs).1 ≠ .crashed)
    (alive : Nat) : ∀ (sources : List Path) {fs : FileSystem}, fs.Dated →
      ∃ outputs outputs' calls fs', work (j.showing true) (alive + 1) sources fs = ⟨outputs, calls, false, fs'⟩ ∧
        work (j.showing false) (alive + 1) sources fs = ⟨outputs', calls, false, fs'⟩ ∧
        List.Forall₂ Corresponds outputs outputs' ∧ outputs.map JobOutput.source = sources
  | [], fs, _ => ⟨[], [], [], fs, work_nil _ _ _, work_nil _ _ _, .nil, rfl⟩
  | s :: sources, fs, h => by
    obtain ⟨o, o', hp, hp', ho⟩ := Job.process_showing (s := s) h (hcrash _ _)
    obtain ⟨outputs, outputs', calls, fs', hw, hw', houtputs, hsources⟩ :=
      work_showing hcall hcrash alive sources (Job.dated_process (s := s) h hcall)
    have hsource : o.source = s := Job.source_of_output (j := j.showing true) (by rw [hp])
    refine ⟨o :: outputs, o' :: outputs', (j.process s fs).calls ++ calls, fs', ?_, ?_, .cons ho houtputs, ?_⟩
    · rw [work_cons, hp]
      simp [hw]
    · rw [work_cons, hp']
      simp [hw']
    · rw [List.map_cons, hsource, hsources]

/-- Where no job has crashed, each source that was started has its output. -/
theorem ended_of_not_crashed {j : Job} (alive : Nat) (sources : List Path) (fs : FileSystem)
    (h : (work j alive sources fs).crashed = false) :
    (started j alive sources fs).map (fun x => (x.source, x.result.output)) =
      (work j alive sources fs).outputs.map fun o => (o.source, some o) := by
  rw [work_crashed, List.any_eq_false] at h
  rw [work_outputs, List.map_filterMap, ← List.filterMap_eq_map']
  refine (List.filterMap_congr fun x hx => ?_).symm
  obtain ⟨o, ho⟩ := Option.ne_none_iff_exists'.1 (show x.result.output ≠ none from fun hn => h x hx (by rw [hn]; rfl))
  rw [ho, Option.map_some, Job.source_of_output (show (x.job.process x.source x.fs).output = some o from ho)]

end Dispatch

/-- The counts of two runs in step: what the one has skipped, the other has shown. -/
structure Summary.Trades (s s' : Summary) : Prop where
  forced : s.forced = s'.forced
  analyzed : s.analyzed = s'.analyzed
  analyzerFailures : s.analyzerFailures = s'.analyzerFailures
  errors : s.errors = s'.errors
  fresh : s.skipped = s'.cached
  noneShown : s.cached = 0
  noneSkipped : s'.skipped = 0

namespace Summary

theorem Trades.record {s s' : Summary} (h : s.Trades s') {o o' : JobOutput} (ho : Corresponds o o') :
    (s.record o.outcome).Trades (s'.record o'.outcome) := by
  obtain ⟨hforced, hanalyzed, hfailures, herrors, hfresh, hshown, hskipped⟩ := h
  cases ho with
  | same hc hk =>
    cases hout : o.outcome with
    | analyzed exitCode =>
      refine ⟨hforced, ?_, ?_, herrors, hfresh, hshown, hskipped⟩
      · simp [Summary.record, hanalyzed]
      · simp [Summary.record, hfailures]
    | cached => exact absurd hout hc
    | skipped => exact absurd hout hk
    | failed =>
      refine ⟨hforced, hanalyzed, hfailures, ?_, hfresh, hshown, hskipped⟩
      simp [Summary.record, herrors]
  | fresh _ hk hc =>
    rw [hk, hc]
    exact ⟨hforced, hanalyzed, hfailures, herrors, by simp [Summary.record, hfresh], hshown, hskipped⟩

theorem Trades.foldl_record {outputs outputs' : List JobOutput} (h : List.Forall₂ Corresponds outputs outputs') :
    ∀ {s s' : Summary}, s.Trades s' →
      ((outputs.map JobOutput.outcome).foldl Summary.record s).Trades
        ((outputs'.map JobOutput.outcome).foldl Summary.record s') := by
  induction h with
  | nil => exact id
  | cons ho _ ih => exact fun hs => ih (hs.record ho)

end Summary

theorem Aggregator.drain_trades (sink : Sink) {outputs outputs' : List JobOutput}
    (h : List.Forall₂ Corresponds outputs outputs') :
    (drain sink outputs).summary.Trades (drain sink outputs').summary := by
  rw [drain, drain, summary_foldl_push, summary_foldl_push]
  exact .foldl_record h ⟨rfl, rfl, rfl, rfl, rfl, rfl, rfl⟩

namespace PastRun

/-- The same run, asked to show the latest results only, or all. -/
def asking (r : PastRun) (onlyLatest : Bool) : PastRun := { r with options := { r.options with onlyLatest } }

/-- A run whose jobs do not crash has an output for each source that was started, and its sink all their blocks. -/
theorem inTurn_of_work {r : PastRun} {force : Bool} {S fs : FileSystem} {outputs : List JobOutput}
    {calls : List (List String)} (hs : r.recordStep = (.ok force, S)) (hq : Dispatch.queueTooLarge r.workers = false)
    (hsink : r.sink.Clear) (hw : Dispatch.work (r.job force) r.workers r.sources S = ⟨outputs, calls, false, fs⟩) :
    r.report.calls = calls ∧ r.report.fs = fs ∧
      r.report.ending = .finished { (Aggregator.drain r.sink outputs).summary with forced := force } ∧
      r.report.sink.flushed = r.sink.flushed ++ outputs.map JobOutput.block ∧
      r.inTurn.ended = outputs.map fun o => (o.source, some o) := by
  obtain ⟨hhandled, hreport⟩ := report_of_ok hs hq
  rw [hw] at hreport
  have hended := Dispatch.ended_of_not_crashed (j := r.job force) r.workers r.sources S (by rw [hw])
  rw [hw, ← hhandled] at hended
  rw [hreport]
  refine ⟨rfl, rfl, ?_, (Aggregator.drain_clear hsink outputs).2.2, hended⟩
  simp only [Dispatch.ending, Aggregator.result_of_clear hsink, Bool.false_eq_true, if_false]

end PastRun

/-- **Showing the latest results only changes what is said of fresh results, and nothing else.**  Of two runs by one worker
that differ in this, both fail at the record and are the same, or both come to a summary: with the same calls in the same
order, the same files, and the same outputs but for the fresh results, which the one skips and the other shows. -/
theorem only_latest_agrees (r : PastRun) (hone : r.workers = 1) (hdates : r.before.Dated)
    (hcall : r.analyzer.KeepsDates) (hcrash : ∀ argv fs, (r.analyzer argv fs).1 ≠ .crashed) (hsink : r.sink.Clear) :
    (r.asking true).report.calls = (r.asking false).report.calls ∧
    (r.asking true).report.fs = (r.asking false).report.fs ∧
    (∀ e, r.recordStep.1 = .error e → (r.asking true).report = (r.asking false).report ∧
      (r.asking false).report.ending = .failed (.record r.layout.recordPath e)) ∧
    ∀ force, r.recordStep.1 = .ok force →
      ∃ s s' outputs outputs', (r.asking true).report.ending = .finished s ∧
        (r.asking false).report.ending = .finished s' ∧ s.Trades s' ∧
        List.Forall₂ Corresponds outputs outputs' ∧ outputs.map JobOutput.source = r.sources ∧
        (r.asking true).inTurn.ended = outputs.map (fun o => (o.source, some o)) ∧
        (r.asking false).inTurn.ended = outputs'.map (fun o => (o.source, some o)) ∧
        (r.asking true).report.sink.flushed = r.sink.flushed ++ outputs.map JobOutput.block ∧
        (r.asking false).report.sink.flushed = r.sink.flushed ++ outputs'.map JobOutput.block := by
  have hstep := hdates.update r.layout.recordPath r.configuration
  rw [← PastRun.recordStep] at hstep
  cases hs : r.recordStep with
  | mk outcome S =>
    rw [hs] at hstep
    cases outcome with
    | error e =>
      have hreport : ∀ b, (r.asking b).report = ⟨.failed (.record r.layout.recordPath e), [], r.sink, S⟩ :=
        fun b => Dispatch.run_of_error hs
      rw [hreport, hreport]
      refine ⟨rfl, rfl, fun e' he => ?_, fun force he => by cases he⟩
      cases he
      exact ⟨rfl, rfl⟩
    | ok force =>
      obtain ⟨outputs, outputs', calls, fs, hw, hw', houtputs, hsources⟩ :=
        Dispatch.work_showing (j := r.job force) hcall hcrash 0 r.sources hstep
      have hq : Dispatch.queueTooLarge r.workers = false := by rw [hone]; rfl
      rw [Nat.zero_add, ← hone] at hw hw'
      obtain ⟨hcalls, hfs, hending, hsink₁, hended⟩ := PastRun.inTurn_of_work (r := r.asking true) hs hq hsink hw
      obtain ⟨hcalls', hfs', hending', hsink₂, hended'⟩ := PastRun.inTurn_of_work (r := r.asking false) hs hq hsink hw'
      refine ⟨hcalls.trans hcalls'.symm, hfs.trans hfs'.symm, fun e he => (by cases he), fun _ _ => ?_⟩
      exact ⟨_, _, outputs, outputs', hending, hending', { Aggregator.drain_trades r.sink houtputs with forced := rfl },
        houtputs, hsources, hended, hended', hsink₁, hsink₂⟩

/-! ## A run done again in both ways -/

/-- What a run leaves is of years with dates still. -/
theorem PastRun.dated_report {r : PastRun} (h : r.before.Dated) (hcall : r.analyzer.KeepsDates) : r.report.fs.Dated := by
  have hstep := h.update r.layout.recordPath r.configuration
  rw [← recordStep] at hstep
  rw [r.report_fs]
  cases hs : r.recordStep with
  | mk outcome S =>
    rw [hs] at hstep
    cases outcome with
    | error e => exact hstep
    | ok force =>
      dsimp only
      split
      · exact hstep
      · exact (@Dispatch.started_induct (r.job force) (fun _ fs => fs.Dated) r.sources r.workers S []
          (fun _ s _ _ h => Job.dated_process (j := r.job force) (s := s) h hcall) hstep).1

namespace Sample

theorem dated_files : files.Dated := by
  refine ⟨by decide, fun a content modified executable h => ?_⟩
  cases a with
  | nil => cases h
  | cons n a =>
    obtain ⟨before, after, hnodes, -⟩ := List.lookup_eq_some_iff.1 h
    have hmem : (n :: a, Node.file content modified executable) ∈ files.nodes := by rw [hnodes]; simp
    simp only [files, List.mem_cons, Prod.mk.injEq, reduceCtorEq, and_false, Node.file.injEq, List.not_mem_nil, or_false,
      false_or] at hmem
    rw [hmem.2.2.1]
    decide

theorem dated_rerun : rerun.before.Dated :=
  PastRun.dated_report (r := first) dated_files (Analyzer.keepsDates_ofFunction _)

end Sample

section
open Sample

theorem only_latest_agrees_rerun : rerun.workers = 1 ∧ rerun.before.Dated ∧ rerun.sink.Clear ∧
    ∃ o o', (rerun.asking true).inTurn.ended = [(source, some o)] ∧ o.outcome = .skipped ∧
      (rerun.asking false).inTurn.ended = [(source, some o')] ∧ o'.outcome = .cached ∧
      (rerun.asking true).report.fs = (rerun.asking false).report.fs := by
  obtain ⟨S, hu, -⟩ := rerun_recordStep
  obtain ⟨x, o', hx, hsource, ho', hcached⟩ := handled_rerun
  obtain ⟨-, hfs, -, hboth⟩ :=
    only_latest_agrees rerun rfl dated_rerun (Analyzer.keepsDates_ofFunction _) (fun _ _ => nofun) Sink.clear_good
  obtain ⟨-, -, outputs, outputs', -, -, -, houtputs, hsources, hended, hended', -⟩ := hboth false (by rw [hu])
  have hshown : (rerun.asking false).inTurn.ended = [(source, some o')] := by
    rw [PastRun.inTurn, show (rerun.asking false).handled = _ from hx, List.map_singleton, hsource, ho']
  rw [hshown] at hended'
  obtain ⟨o'', rfl, ho''⟩ := List.map_eq_singleton_iff.1 hended'.symm
  cases (Prod.mk.inj ho'').2
  cases houtputs with
  | cons ho hnil =>
    cases hnil
    rename_i o
    have hskipped : o.outcome = .skipped := by
      cases ho with
      | same hc _ => exact absurd hcached hc
      | fresh _ hk _ => exact hk
    refine ⟨rfl, dated_rerun, Sink.clear_good, o, o', ?_, hskipped, hshown, hcached, hfs⟩
    rw [hended, List.map_singleton, (List.cons.inj hsources).1]

end
end Recheck
