import Recheck.Proofs.Dispatch.Answers
import Recheck.Proofs.Dispatch.Draining
import Recheck.Proofs.Dispatch.Replays
/-!
# A run done again

A run on results that are all fresh calls no analyzer and leaves the files as its record step did, in whatever way it
goes (`Takes.of_fresh`).  So is every run that is done again after one without errors whose answers were all kept, and
it shows the texts that the first one has obtained or shown (`rerun_shows_again`).
-/
namespace Recheck
open FileSystem CacheLayout

/-! ## Fresh results -/

namespace Job

/-- How far a job with a fresh result is, on files `S` that nobody changes. -/
inductive Replays (j : Job) (S : FileSystem) (s : Path) : Phase (Path × JobStage) → Prop
  | waiting : Replays j S s .waiting
  | object : Replays j S s (.running (s, .object))
  | result : Replays j S s (.running (s, .result (S.modified? (j.layout.objectPath s))))
  | reading : j.onlyLatest = false → Replays j S s (.running (s, .reading))
  | dating {content} :
      j.onlyLatest = false → S.read (j.layout.resultPath s) = .ok content →
      Replays j S s (.running (s, .dating content))
  | ended : Replays j S s (.ended (j.process s S).output)

section
variable {j : Job} {S : FileSystem} {s : Path}

/-- **A job with a fresh result changes nothing**, and ends as it would in its turn. -/
theorem Replays.act (hfresh : j.layout.isStale S s j.force = false) {stage : JobStage}
    (h : j.Replays S s (.running (s, stage))) (now : Timestamp) (chunk : Nat) :
    (j.act s now chunk ⟨S, []⟩ stage).world = ⟨S, []⟩ ∧
      j.Replays S s ((j.act s now chunk ⟨S, []⟩ stage).map (s, ·)).phase := by
  obtain ⟨a, content, modified, executable, hs, hp⟩ := process_of_not_stale hfresh
  have hended : j.Replays S s (.ended (j.process s S).output) := .ended
  cases h with
  | object => exact ⟨rfl, .result⟩
  | result =>
    obtain ⟨-, o, t, ho, ht, hle⟩ := isStale_eq_false_iff.1 hfresh
    rw [Job.act]
    unfold compareTimes
    simp only [ho, ht, if_neg (Int.not_lt.2 hle)]
    cases hlatest : j.onlyLatest with
    | false => exact ⟨rfl, .reading hlatest⟩
    | true =>
      rw [hp, hlatest] at hended
      exact ⟨rfl, hended⟩
  | reading hlatest =>
    have hr : S.read (j.layout.resultPath s) = .ok content := by rw [FileSystem.read, hs]
    rw [Job.act]
    unfold readResult
    simp only [hr]
    exact ⟨rfl, .dating hlatest hr⟩
  | dating hlatest hr =>
    rw [FileSystem.read, hs] at hr
    cases hr
    rw [hp, hlatest] at hended
    rw [Job.act]
    unfold dateResult
    simp only [hs]
    exact ⟨rfl, hended⟩

theorem Replays.of_ended {output : Option JobOutput} (h : j.Replays S s (.ended output)) :
    output = (j.process s S).output := by
  cases h
  rfl

theorem isolated_replays (hforce : j.force = false) {sources : List Path}
    (hfresh : ∀ s ∈ sources, j.layout.isStale S s j.force = false) :
    Isolated j.machine sources fun s phase w => w = ⟨S, []⟩ ∧ j.Replays S s phase where
  first s _ w h := by
    refine ⟨h.1, ?_⟩
    rw [machine, hforce]
    exact .object
  own s hmem stage w n h hn := by
    obtain ⟨rfl, h⟩ := h
    obtain ⟨now, chunk, rfl⟩ := hn
    have hs : stage.1 = s := by cases h <;> rfl
    obtain ⟨t, stage⟩ := stage
    subst hs
    rw [Next.world_map]
    exact h.act (hfresh _ hmem) now chunk
  others s _ t ht _ phase stage w n h h' hn := by
    obtain ⟨rfl, h'⟩ := h'
    obtain ⟨now, chunk, rfl⟩ := hn
    have hs : stage.1 = t := by cases h' <;> rfl
    obtain ⟨t, stage⟩ := stage
    subst hs
    rw [Next.world_map]
    exact ⟨(h'.act (hfresh _ ht) now chunk).1, h.2⟩

end
end Job

/-- **A run that finds all results fresh calls no analyzer and changes no file**, and its jobs end as each does in its
turn on these files. -/
theorem PastRun.Takes.of_fresh {q : PastRun} {c : Course} {S : FileSystem} (h : q.Takes c)
    (hs : q.recordStep = (.ok false, S)) (hq : Dispatch.queueTooLarge q.workers = false) (hnodup : q.sources.Nodup)
    (hfresh : ∀ s ∈ q.sources, q.layout.isStale S s false = false) :
    c.report.fs = S ∧ c.report.calls = [] ∧ ∀ x ∈ c.ended, x.2 = ((q.job false).process x.1 S).output := by
  cases h with
  | inTurn =>
    obtain ⟨hhandled, hreport⟩ := report_of_ok hs hq
    have hwork := (@Dispatch.started_induct (q.job false)
      (fun log fs => fs = S ∧
        ∀ x ∈ log, x.result.calls = [] ∧ x.result.output = ((q.job false).process x.source S).output)
      q.sources q.workers S [] (fun log s fs hmem hk => by
        obtain ⟨rfl, hlog⟩ := hk
        obtain ⟨_, _, _, _, -, hp⟩ := Job.process_of_not_stale (j := q.job false) (hfresh s hmem)
        refine ⟨by rw [hp], fun x hx => ?_⟩
        rcases List.mem_cons.1 hx with rfl | hx
        · exact ⟨by rw [Handled.result, hp], rfl⟩
        · exact hlog x hx) ⟨rfl, fun x hx => absurd hx List.not_mem_nil⟩).1
    rw [← hhandled, List.append_nil] at hwork
    refine ⟨?_, ?_, fun x hx => ?_⟩
    · rw [← hwork.1]
      exact congrArg RunReport.fs hreport
    · rw [show q.inTurn.report.calls = _ from q.report_calls, List.flatMap_eq_nil_iff]
      exact fun x hx => (hwork.2 x (List.mem_reverse.2 hx)).1
    · obtain ⟨y, hy, rfl⟩ := List.mem_map.1 hx
      exact (hwork.2 y (List.mem_reverse.2 hy)).2
  | @sideBySide _ _ p _ hs' _ hr he =>
    rw [hs] at hs'
    cases hs'
    have hI := Job.isolated_replays (j := q.job false) rfl hfresh
    have h0 : ∀ s ∈ q.sources, (⟨S, []⟩ : Shared) = ⟨S, []⟩ ∧ (q.job false).Replays S s .waiting :=
      fun s _ => ⟨rfl, .waiting⟩
    have hworld : p.world = ⟨S, []⟩ := hI.world_of_reaches (P := fun w => w = ⟨S, []⟩) hnodup h0
      (fun s hmem stage w n _ hw hn => (hI.own s hmem stage w n hw hn).1) hr rfl
    refine ⟨by rw [hworld], by rw [hworld]; rfl, fun x hx => ?_⟩
    exact (hI.holds_of_reaches hnodup h0 hr x.1 _ (.ended hx)).2.of_ended

/-- What a job with a fresh result of a year with dates comes to. -/
theorem Job.output_of_fresh {j : Job} {S : FileSystem} {s : Path} {t : Timestamp}
    (hfresh : j.layout.isStale S s j.force = false) (ht : S.modified? (j.layout.resultPath s) = some t)
    {date : String} (hdate : t.civilText? = some date) :
    ∃ content, S.read (j.layout.resultPath s) = .ok content ∧
      (j.process s S).output =
        some (if j.onlyLatest then j.output s .skipped (skippedNotice ++ "\n")
          else ⟨s, .cached, j.cachedBlock s date (Utf8.decodeLossy content)⟩) := by
  obtain ⟨a, content, modified, executable, hs, hp⟩ := process_of_not_stale hfresh
  rw [modified?_eq_some_iff.2 ⟨a, content, executable, hs⟩] at ht
  cases ht
  refine ⟨content, by rw [FileSystem.read, hs], ?_⟩
  rw [hp]
  cases j.onlyLatest with
  | true => rfl
  | false =>
    rw [cachedText?, hdate]
    rfl

namespace FileSystem

/-- The text of a file, and the day when it was written. -/
def textAt (fs : FileSystem) (p : Path) : String :=
  match fs.read p with
  | .ok content => Utf8.decodeLossy content
  | .error _    => ""

def dateAt (fs : FileSystem) (p : Path) : String := ((fs.modified? p).bind Timestamp.civilText?).getD ""

end FileSystem

/-- **A run that finds all results fresh counts every source as that**, and shows the texts of the results if asked. -/
theorem PastRun.Takes.shown_fresh {q : PastRun} {c : Course} {S : FileSystem} (h : q.Takes c)
    (hs : q.recordStep = (.ok false, S)) (hq : Dispatch.queueTooLarge q.workers = false) (hnodup : q.sources.Nodup)
    (hfresh : ∀ s ∈ q.sources, q.layout.isStale S s false = false)
    (hdates : ∀ s ∈ q.sources, ∃ t date, S.modified? (q.layout.resultPath s) = some t ∧ t.civilText? = some date) :
    (∀ summary, c.report.ending = .finished summary →
      summary = ⟨false, 0, 0, if q.options.onlyLatest then 0 else q.sources.length,
        if q.options.onlyLatest then q.sources.length else 0, 0⟩ ∧
      (q.options.onlyLatest = false → q.sink.pending = "" → ∃ blocks, c.report.sink.flushed = q.sink.flushed ++ blocks ∧
        blocks.Perm (q.sources.map fun s => (q.job false).cachedBlock s (S.dateAt (q.layout.resultPath s))
          (S.textAt (q.layout.resultPath s))))) ∧
    (q.sink.Clear → ∃ summary, c.report.ending = .finished summary) := by
  let out (s : Path) : JobOutput :=
    if q.options.onlyLatest then (q.job false).output s .skipped (Job.skippedNotice ++ "\n")
    else ⟨s, .cached, (q.job false).cachedBlock s (S.dateAt (q.layout.resultPath s)) (S.textAt (q.layout.resultPath s))⟩
  have hall : ∀ x ∈ c.ended, x.2 = some (out x.1) := by
    intro x hx
    have hmem := (h.of_mem_ended hx).1
    obtain ⟨t, date, ht, hdate⟩ := hdates x.1 hmem
    obtain ⟨content, hr, hout⟩ := Job.output_of_fresh (j := q.job false) (hfresh x.1 hmem) ht hdate
    have hread : S.read (q.layout.resultPath x.1) = .ok content := hr
    rw [(h.of_fresh hs hq hnodup hfresh).2.2 x hx, hout]
    simp only [out, FileSystem.dateAt, FileSystem.textAt, ht, hread, Option.bind_some, hdate, Option.getD_some]
    rfl
  obtain ⟨outputs, hperm, hending, hsink⟩ := h.drained_of_outputs hs hq hall
  have houtcomes : ∀ o ∈ outputs, o.outcome = if q.options.onlyLatest then .skipped else .cached := by
    intro o ho
    obtain ⟨s, -, rfl⟩ := List.mem_map.1 (hperm.mem_iff.1 ho)
    simp only [out]
    split <;> rfl
  have hlength : outputs.length = q.sources.length := by rw [hperm.length_eq, List.length_map]
  refine ⟨fun summary hend => ?_, fun hclear => ?_⟩
  · obtain ⟨-, counts, hcounts, rfl⟩ := Dispatch.ending_eq_finished (hending.symm.trans hend)
    refine ⟨?_, fun hlatest hp => ⟨outputs.map JobOutput.block, ?_, ?_⟩⟩
    · rw [Aggregator.drain_result hcounts, Aggregator.drain_fresh q.sink houtcomes, hlength]
    · rw [hsink]
      exact Aggregator.drain_written hcounts hp
    · have hblocks := hperm.map JobOutput.block
      rw [List.map_map] at hblocks
      simpa [out, hlatest, Function.comp_def] using hblocks
  · rw [hending, Aggregator.result_of_clear hclear]
    exact ⟨_, rfl⟩

/-! ## Two runs -/

/-- The directory that a path leads to has no link of that name. -/
def FileSystem.NoLinkIn (fs : FileSystem) (p : Path) (name : Name) : Prop :=
  ∀ d, DirectoryAt fs p d → fs.Unlinked (d ++ [name])

/-- The object file and the result of a source are regular files, with dates, and the object file is not the younger. -/
structure Settled (l : CacheLayout) (fs : FileSystem) (s : Path) : Prop where
  object : fs.NoLinkIn l.objectsDir (objectName s)
  result : fs.NoLinkIn l.objectsDir (resultName l.key s)
  times : ∃ o t date, fs.modified? (l.objectPath s) = some o ∧ fs.modified? (l.resultPath s) = some t ∧ o ≤ t ∧
    t.civilText? = some date

/-- The text that a run has for a source: the answer that it kept, or what it has shown of an earlier one. -/
inductive Course.Has (c : Course) (j : Job) (s : Path) (text : String) : Prop
  | kept {a o} : c.kept s a → a.text = text → (s, some o) ∈ c.ended → o.block = j.commandText s ++ text → Has c j s text
  | shown {o date} : (s, some o) ∈ c.ended → o.block = j.cachedBlock s date text → Has c j s text

namespace PastRun

/-- The same run again, on the files that the first one left; perhaps with another analyzer and into another sink. -/
structure Repeats (q r : PastRun) (fs : FileSystem) : Prop where
  configuration : q.configuration = r.configuration
  layout : q.layout = r.layout
  options : q.options = r.options
  sources : q.sources = r.sources
  before : q.before = fs

section
variable {r q : PastRun} {c : Course} {force : Bool} {S : FileSystem}

/-- **After a run the record is its fingerprint**, where no link stands for the record or for a result. -/
theorem Takes.recordAt (h : r.Takes c) (hs : r.recordStep = (.ok force, S))
    (hspares : r.analyzer.SparesCache r.layout.objectsDir)
    (hrecord : c.report.fs.NoLinkIn r.layout.objectsDir recordName)
    (hresult : ∀ s ∈ r.sources, c.report.fs.NoLinkIn r.layout.objectsDir (resultName r.layout.key s)) :
    ∃ d, CacheAt r.layout (· ∈ r.sources) d S ∧ CacheAt r.layout (· ∈ r.sources) d c.report.fs ∧
      Fits r.layout.objectsDir recordName ∧ ∃ modified executable, c.report.fs.node? (d ++ [recordName]) =
        some (.file (Utf8.encode r.configuration.fingerprint) modified executable) := by
  obtain ⟨fs', d, -, hd, hways, hstored⟩ := Record.update_writes hs
  -- a link would have been there from the first, and still be
  obtain ⟨hdirectory, hlinks⟩ := h.preserves hs (P := fun fs => DirectoryAt fs r.layout.objectsDir d ∧
      ∀ name target, IsCacheName name → S.node? (d ++ [name]) = some (.link target) →
        fs.node? (d ++ [name]) = some (.link target))
    ⟨hd.of_keepsWays hways, fun _ _ _ h => h⟩
    (fun argv fs ⟨hd, hk⟩ => by
      obtain ⟨hd', hsame⟩ := hspares argv fs d hd
      exact ⟨hd', fun name target hn ht => (hsame name hn).trans (hk name target hn ht)⟩)
    fun s _ now content fs fs' ⟨hd, hk⟩ hw => by
      have hways := Job.keepsWays_of_writeAt (isName_resultName _ _) hw
      exact ⟨hd.of_keepsWays hways, fun name target hn ht => hways.link _ _ (hk name target hn ht)⟩
  have hat : CacheAt r.layout (· ∈ r.sources) d c.report.fs := by
    refine ⟨hdirectory, fun name hn => ?_⟩
    rcases hn with rfl | ⟨s, hmem, rfl⟩
    · exact hrecord d hdirectory
    · exact hresult s hmem d hdirectory
  have hatS : CacheAt r.layout (· ∈ r.sources) d S :=
    ⟨hd.of_keepsWays hways, fun name hn target ht => hat.unlinked name hn target (hlinks name target hn.isCacheName ht)⟩
  obtain ⟨hf, hst, executable, hS⟩ := hstored fun target ht => hatS.unlinked _ (.inl rfl) target (hways.link _ _ ht)
  have hrec : S.node? (d ++ [recordName]) = _ := hS ▸ node?_store_self _ _ _ hst.ne_nil
  have hrec' := (h.cacheAt hs hatS hspares fun _ hmem => hmem).2 recordName (.inl rfl)
    fun s _ => (resultName_ne_recordName _ s).symm
  exact ⟨d, hatS, hat, hf, _, _, hrec'.trans hrec⟩

/-- **The record step of a run done again** is not forced, and changes nothing but the record. -/
theorem Repeats.recordStep {d : Address} {fs : FileSystem} (hq : q.Repeats r fs)
    (hd : DirectoryAt fs r.layout.objectsDir d) (hf : Fits r.layout.objectsDir recordName) {modified : Timestamp}
    {executable : Bool} (hrec : fs.node? (d ++ [recordName]) =
      some (.file (Utf8.encode r.configuration.fingerprint) modified executable)) :
    ∃ S, q.recordStep = (.ok false, S) ∧ DirectoryAt S r.layout.objectsDir d ∧
      ∀ name, name ≠ recordName → S.node? (d ++ [name]) = fs.node? (d ++ [name]) := by
  have hst : fs.Storable (d ++ [recordName]) := .inr ⟨_, _, _, hrec⟩
  have hstep := Record.update_of_file (c := r.configuration) hd hf hrec (Utf8.decode?_encode _)
  rw [bne_self_eq_false] at hstep
  refine ⟨_, by rw [PastRun.recordStep, hq.before, hq.layout, hq.configuration, hstep],
    hd.of_keepsWays (hst.keepsWays _ _), fun name hne => ?_⟩
  exact node?_store_of_ne _ _ _ (by simpa using hne)

end
end PastRun

theorem Settled.isStale {l : CacheLayout} {d : Address} {fs S : FileSystem} {s : Path} (h : Settled l fs s)
    (hd : DirectoryAt fs l.objectsDir d) (hd' : DirectoryAt S l.objectsDir d)
    (hsame : ∀ name, name ≠ recordName → S.node? (d ++ [name]) = fs.node? (d ++ [name])) :
    l.isStale S s false = false := by
  obtain ⟨o, t, -, ho, ht, hle, -⟩ := h.times
  refine isStale_eq_false_iff.2 ⟨rfl, o, t, ?_, ?_, hle⟩
  · rw [← ho]
    exact modified?_eq_of_node?_eq hd hd' (isName_objectName s) (h.object d hd) (hsame _ (objectName_ne_recordName s))
  · rw [← ht]
    exact modified?_eq_of_node?_eq hd hd' (isName_resultName l.key s) (h.result d hd)
      (hsame _ (resultName_ne_recordName _ _))

section
variable {r q : PastRun} {c₁ c₂ : Course} {summary : Summary}

/-- **What a run without errors has for its sources is what is in their results**, just made or kept from before. -/
theorem PastRun.Takes.has {force : Bool} {S : FileSystem} {d : Address} (h : r.Takes c₁)
    (hs : r.recordStep = (.ok force, S)) (hat : CacheAt r.layout (· ∈ r.sources) d S)
    (hat₁ : CacheAt r.layout (· ∈ r.sources) d c₁.report.fs)
    (hspares : r.analyzer.SparesCache r.layout.objectsDir) (hapart : (r.sources.map r.layout.resultPath).Nodup)
    (hend : c₁.report.ending = .finished summary) (herrors : summary.errors = 0)
    (hkept : ∀ s o exitCode, (s, some o) ∈ c₁.ended → o.outcome = .analyzed exitCode → ∃ a, c₁.kept s a)
    (hlatest : r.options.onlyLatest = false) {s : Path} (hmem : s ∈ r.sources) {content : ByteArray}
    (hread : c₁.report.fs.read (r.layout.resultPath s) = .ok content) :
    c₁.Has (r.job false) s (Utf8.decodeLossy content) := by
  obtain ⟨force', S', hs', hq⟩ := h.of_finished hend
  rw [hs] at hs'
  cases hs'
  obtain ⟨outputs, hperm, hending, -, hsources⟩ := h.drained hs hq
  obtain ⟨hcrashed, counts, hcounts, rfl⟩ := Dispatch.ending_eq_finished (hending.symm.trans hend)
  obtain rfl := Aggregator.drain_result hcounts
  have hfailed : (outputs.map JobOutput.outcome).count .failed = 0 := by
    rw [← Aggregator.drain_errors r.sink]
    exact herrors
  have houtput : ∀ x ∈ c₁.ended, x.2 ≠ none := fun x hx hn =>
    List.any_eq_false.1 hcrashed x hx (by rw [hn]; rfl)
  -- the job of the source is over, and has an output
  obtain ⟨⟨t, output⟩, hx, rfl⟩ := List.mem_map.1 ((hsources houtput).mem_iff.2 hmem)
  obtain ⟨o, rfl⟩ := Option.ne_none_iff_exists'.1 (houtput _ hx)
  obtain ⟨hdisplays, hwrote⟩ := h.shown hs hat hspares hapart hx
  obtain ⟨-, hcontent⟩ :=
    (read_join_iff hat₁.directory (isName_resultName r.layout.key t) (hat₁.result hmem) content).1 hread
  cases hout : o.outcome with
  | analyzed exitCode =>
    obtain ⟨a, ha⟩ := hkept t o exitCode hx hout
    obtain ⟨hc, haccepts, hphase⟩ := hwrote a ha
    obtain rfl : content = Utf8.encode a.text := Option.some.inj (hcontent.symm.trans hc)
    refine .kept ha (Utf8.decodeLossy_encode _).symm hx ?_
    rcases hphase with ⟨_, -, hphase⟩ | hphase <;> cases hphase
    have htext : Job.answerText a = a.text := by
      rw [Job.answerText, (Job.accepts_iff.1 haccepts).1]
      simp
    rw [Utf8.decodeLossy_encode, ← htext]
    rfl
  | cached =>
    obtain ⟨content', date, hc, hblock⟩ := hdisplays.cached hout
    obtain rfl : content = content' := Option.some.inj (hcontent.symm.trans hc)
    exact .shown hx hblock
  | skipped =>
    have hskip : r.options.onlyLatest = true := hdisplays.skipped hout
    rw [hlatest] at hskip
    cases hskip
  | failed =>
    refine absurd (List.count_eq_zero.1 hfailed) (not_not_intro ?_)
    rw [← hout]
    exact List.mem_map_of_mem (hperm.mem_iff.1 (List.mem_filterMap.2 ⟨_, hx, rfl⟩))

/-- **A run done again shows again what the first one has shown, and does nothing else.**  After a run without errors
whose answers were all written, and whose record and results are files as the object files are and not older than these:
the next run of the same configuration, layout, options and sources is not forced, calls no analyzer, leaves every result
as it is, counts every source as fresh, and shows for each the text that the first run has obtained or shown for it.  Both
may go in any of their ways, with any number of workers. -/
theorem rerun_shows_again (hspares : r.analyzer.SparesCache r.layout.objectsDir)
    (hapart : (r.sources.map r.layout.resultPath).Nodup) (h₁ : r.Takes c₁) (hend : c₁.report.ending = .finished summary)
    (herrors : summary.errors = 0)
    (hkept : ∀ s o exitCode, (s, some o) ∈ c₁.ended → o.outcome = .analyzed exitCode → ∃ a, c₁.kept s a)
    (hrecord : c₁.report.fs.NoLinkIn r.layout.objectsDir recordName)
    (hsettled : ∀ s ∈ r.sources, Settled r.layout c₁.report.fs s) (hq : q.Repeats r c₁.report.fs) (h₂ : q.Takes c₂) :
    q.recordStep.1 = .ok false ∧ c₂.report.calls = [] ∧
    (∀ s, c₁.report.fs.NoLinkIn r.layout.objectsDir (resultName r.layout.key s) →
      (∀ content, c₂.report.fs.read (r.layout.resultPath s) = .ok content ↔
        c₁.report.fs.read (r.layout.resultPath s) = .ok content) ∧
      c₂.report.fs.modified? (r.layout.resultPath s) = c₁.report.fs.modified? (r.layout.resultPath s)) ∧
    (∀ again, c₂.report.ending = .finished again →
      again = ⟨false, 0, 0, if r.options.onlyLatest then 0 else r.sources.length,
        if r.options.onlyLatest then r.sources.length else 0, 0⟩ ∧
      (r.options.onlyLatest = false → q.sink.pending = "" → ∃ (blocks : List String) (date text : Path → String),
        c₂.report.sink.flushed = q.sink.flushed ++ blocks ∧
        blocks.Perm (r.sources.map fun s => (r.job false).cachedBlock s (date s) (text s)) ∧
        ∀ s ∈ r.sources, c₁.Has (r.job false) s (text s))) ∧
    (q.sink.Clear → ∃ again, c₂.report.ending = .finished again) := by
  obtain ⟨force, S, hs, hqueue⟩ := h₁.of_finished hend
  obtain ⟨d, hat, hat₁, hf, modified, executable, hrec⟩ :=
    h₁.recordAt hs hspares hrecord fun s hmem => (hsettled s hmem).result
  obtain ⟨S₂, hs₂, hd₂, hsame⟩ := hq.recordStep hat₁.directory hf hrec
  obtain ⟨qc, ql, qa, qo, qs, qk, qb⟩ := q
  obtain ⟨rfl, rfl, rfl, rfl, rfl⟩ := hq
  have hnodup : r.sources.Nodup := hapart.of_map _
  have hfresh : ∀ s ∈ r.sources, r.layout.isStale S₂ s false = false :=
    fun s hmem => (hsettled s hmem).isStale hat₁.directory hd₂ hsame
  -- the results read as the first run left them
  have hresult (s : Path) (hl : c₁.report.fs.NoLinkIn r.layout.objectsDir (resultName r.layout.key s)) :
      (∀ content, S₂.read (r.layout.resultPath s) = .ok content ↔
        c₁.report.fs.read (r.layout.resultPath s) = .ok content) ∧
      S₂.modified? (r.layout.resultPath s) = c₁.report.fs.modified? (r.layout.resultPath s) := by
    have hname := isName_resultName r.layout.key s
    have hl := hl d hat₁.directory
    have hsame := hsame _ (resultName_ne_recordName r.layout.key s)
    exact ⟨read_iff_of_node?_eq hat₁.directory hd₂ hname hl hsame,
      modified?_eq_of_node?_eq hat₁.directory hd₂ hname hl hsame⟩
  have hdates : ∀ s ∈ r.sources, ∃ t date, S₂.modified? (r.layout.resultPath s) = some t ∧ t.civilText? = some date := by
    intro s hmem
    obtain ⟨-, t, date, -, ht, -, hdate⟩ := (hsettled s hmem).times
    exact ⟨t, date, (hresult s (hsettled s hmem).result).2.trans ht, hdate⟩
  obtain ⟨hfs, hcalls, -⟩ := h₂.of_fresh hs₂ hqueue hnodup hfresh
  obtain ⟨hcounts, hclear⟩ := h₂.shown_fresh hs₂ hqueue hnodup hfresh hdates
  refine ⟨by rw [hs₂], hcalls, fun s hl => hfs ▸ hresult s hl, fun again hagain => ?_, hclear⟩
  obtain ⟨hagain, hblocks⟩ := hcounts again hagain
  refine ⟨hagain, fun hlatest hp => ?_⟩
  obtain ⟨blocks, hflushed, hperm⟩ := hblocks hlatest hp
  refine ⟨blocks, _, _, hflushed, hperm, fun s hmem => ?_⟩
  obtain ⟨t, date, ht, hdate⟩ := hdates s hmem
  obtain ⟨content, hr, -⟩ := Job.output_of_fresh (j := r.job false) (hfresh s hmem) ht hdate
  have hread : c₁.report.fs.read (r.layout.resultPath s) = .ok content :=
    ((hresult s (hsettled s hmem).result).1 content).1 hr
  have htext : S₂.textAt (r.layout.resultPath s) = Utf8.decodeLossy content := by
    rw [textAt, show S₂.read (r.layout.resultPath s) = _ from hr]
  rw [htext]
  exact h₁.has hs hat hat₁ hspares hapart hend herrors hkept hlatest hmem hread

end

/-! ## A run done twice -/

namespace Sample

theorem Done.noLinkIn {c : Configuration} {fs : FileSystem} (h : Done c fs) {name : Name} {content : ByteArray}
    {modified : Timestamp} {executable : Bool} (hn : fs.node? ["o", name] = some (.file content modified executable)) :
    fs.NoLinkIn layout.objectsDir name := by
  intro d hd
  rw [← h.directory.unique hd]
  exact Storable.unlinked (.inr ⟨_, _, _, hn⟩)

theorem Done.settled {c : Configuration} {fs : FileSystem} (h : Done c fs) : Settled layout fs source := by
  obtain ⟨content, x, hr⟩ := h.result
  have ho := h.noLinkIn h.object
  have hl := h.noLinkIn hr
  refine ⟨ho, hl, 0, 1, _, ?_, ?_, by decide, rfl⟩
  · exact (modified?_join h.directory (isName_objectName source) (ho _ h.directory) 0).2 ⟨fits_object, _, _, h.object⟩
  · exact (modified?_join h.directory (isName_resultName _ source) (hl _ h.directory) 1).2 ⟨fits_result, _, _, hr⟩

def firstAnswer : AnalyzerOutput := ⟨String.join (plain.commandLine [source]), some 0, false⟩

theorem mem_first_ended {x : Path × Option JobOutput} (hx : x ∈ first.inTurn.ended) :
    x = (source, (first.job true).reply source (.finished firstAnswer)) := by
  rw [PastRun.inTurn, handled_first, List.map_cons, List.map_nil, List.mem_singleton] at hx
  rw [hx, Handled.result, Job.process_of_stale rfl, Job.analyze_output]
  rfl

theorem first_ending : ∃ summary, first.report.ending = .finished summary ∧ summary.errors = 0 := by
  let out (s : Path) : JobOutput := (first.job true).output s (.analyzed (some 0)) (Job.answerText firstAnswer)
  have hall : ∀ x ∈ first.inTurn.ended, x.2 = some (out x.1) := fun x hx => by
    rw [mem_first_ended hx]
    rfl
  obtain ⟨outputs, hperm, hending, -⟩ := PastRun.Takes.inTurn.drained_of_outputs first_recordStep rfl hall
  have hclear : first.sink.Clear := Sink.clear_good
  rw [Aggregator.result_of_clear hclear] at hending
  refine ⟨_, hending, ?_⟩
  show (Aggregator.drain first.sink outputs).summary.errors = 0
  rw [Aggregator.drain_errors, (hperm.map JobOutput.outcome).count_eq]
  rfl

theorem first_kept : first.inTurn.kept source firstAnswer := by
  have hd : DirectoryAt (recorded plain) layout.objectsDir ["o"] :=
    directoryAt_files.of_keepsWays (Storable.keepsWays _ _ (.inl (by rfl)))
  have hnone : (recorded plain).node? ["o", resultName layout.key source] = none := by
    rw [recorded, node?_store_of_ne _ _ _ (by decide)]
    rfl
  obtain ⟨fs', hw⟩ := exists_write hd (isName_resultName _ source) fits_result (.inl hnone) (Utf8.encode firstAnswer.text)
  have hkept : Handled.kept? ⟨first.job true, source, recorded plain⟩ = some firstAnswer :=
    Job.kept?_eq_some_iff.2 ⟨rfl, _, fs', rfl, rfl, hw⟩
  rw [PastRun.inTurn, handled_first]
  exact keptIn_cons hkept

end Sample

section
open Sample

theorem rerun_shows_again_first : rerun.recordStep.1 = .ok false ∧ rerun.report.calls = [] ∧
    rerun.report.ending = .finished ⟨false, 0, 0, 1, 0, 0⟩ ∧
    ∃ date text, rerun.report.sink.flushed = [(first.job false).cachedBlock source date text] ∧
      first.inTurn.Has (first.job false) source text := by
  obtain ⟨summary, hend, herrors⟩ := first_ending
  obtain ⟨t, x, hrecord⟩ := done_first.record
  obtain ⟨hstep, hcalls, -, hshown, hclear⟩ := rerun_shows_again (q := rerun) (sparesCache_run _ _ _) (by decide)
    .inTurn hend herrors
    (fun s o exitCode hx _ => by
      obtain ⟨rfl, -⟩ := Prod.mk.inj (mem_first_ended hx)
      exact ⟨_, first_kept⟩)
    (done_first.noLinkIn hrecord)
    (fun s hs => by
      obtain rfl := List.mem_singleton.1 hs
      exact done_first.settled)
    ⟨rfl, rfl, rfl, rfl, rfl⟩ .inTurn
  obtain ⟨again, hagain⟩ := hclear Sink.clear_good
  obtain ⟨rfl, hblocks⟩ := hshown again hagain
  obtain ⟨blocks, date, text, hflushed, hperm, hhas⟩ := hblocks rfl rfl
  refine ⟨hstep, hcalls, hagain, date source, text source, ?_, hhas source List.mem_cons_self⟩
  rw [show rerun.report.sink.flushed = _ from hflushed, List.perm_singleton.1 hperm]
  rfl

end
end Recheck
