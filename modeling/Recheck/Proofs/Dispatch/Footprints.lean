import Recheck.Proofs.Dispatch.ForcedRuns
import Recheck.Proofs.Pool.Deeds
/-!
# The files that a run changes

Where the analyzer itself touches no file, a run changes the record and the results of its sources, and no other file
(`Takes.footprint`).  A result that it changes holds, from beginning to end, an answer that the analyzer gave in this run
for a source whose result belongs there, and that the run accepts (`Answered`).  Sources may share a result: a piece that
one job writes takes the place of what another has written there, so it is the answer of the job that wrote last.
-/
namespace Recheck
open FileSystem CacheLayout

/-- An analyzer that touches no file; time may pass while it is at work. -/
def Analyzer.TouchesNoFile (analyzer : Analyzer) : Prop :=
  ∀ argv fs, ∃ now, (analyzer argv fs).2 = { fs with clock := now }

theorem Analyzer.TouchesNoFile.node? {analyzer : Analyzer} (h : analyzer.TouchesNoFile) (argv : List String)
    (fs : FileSystem) (a : Address) : (analyzer argv fs).2.node? a = fs.node? a := by
  obtain ⟨now, hfs⟩ := h argv fs
  rw [hfs, Job.node?_clock]

theorem Analyzer.TouchesNoFile.sparesCache {analyzer : Analyzer} (h : analyzer.TouchesNoFile) (p : Path) :
    analyzer.SparesCache p := by
  intro argv fs d hd
  refine ⟨?_, fun name _ => h.node? argv fs _⟩
  obtain ⟨now, hfs⟩ := h argv fs
  rw [hfs]
  exact Job.directoryAt_clock now hd

theorem ByteArray.extract_of_size_le {b : ByteArray} {n : Nat} (h : b.size ≤ n) : b.extract 0 n = b := by
  rw [← ByteArray.extract_zero_size (b := b), ByteArray.extract_extract]
  congr 1
  simp
  omega

/-- Writing a result changes no other address. -/
theorem CacheAt.node?_of_writeAt {l : CacheLayout} {known : Path → Prop} {d : Address} {fs fs' : FileSystem}
    (h : CacheAt l known d fs) {source : Path} (hk : known source) {now : Timestamp} {content : ByteArray}
    (hw : fs.writeAt now (l.resultPath source) content = .ok fs') {a : Address}
    (ha : a ≠ d ++ [resultName l.key source]) : fs'.node? a = fs.node? a := by
  have hl : { fs with clock := now }.Unlinked (d ++ [resultName l.key source]) := fun t => by
    rw [Job.node?_clock]
    exact h.result hk t
  obtain ⟨-, -, executable, rfl⟩ :=
    store_of_write (Job.directoryAt_clock now h.directory) (isName_resultName l.key source) hl hw
  rw [node?_store_of_ne _ _ _ ha, Job.node?_clock]

namespace PastRun

/-! ## Answers -/

/-- One step of a pool in which a worker calls the analyzer for a source and gets an answer that may be kept. -/
structure Answering (r : PastRun) (force : Bool) (p q : Pool Shared (Path × JobStage)) (s : Path) (a : AnalyzerOutput) :
    Prop where
  step : Pool.Step (r.job force).machine r.workers force p q
  called : ∃ before after, p.workers = before ++ .busy s (s, .calling) :: after ∧
    q.workers = before ++ .busy s (s, .creating a) :: after ∧ q.world = (r.job force).called s p.world
  answer : ((r.job force).call s p.world.fs).1 = .finished a
  accepted : Job.accepts r.options.failurePolicy a = true

/-- On the way to a state, the analyzer gave an answer for a source that may be kept. -/
def AnsweredBy (r : PastRun) (force : Bool) (S : FileSystem) (p : Pool Shared (Path × JobStage)) (s : Path)
    (a : AnalyzerOutput) : Prop :=
  ∃ q q', r.Reaches force (r.pool S) q ∧ r.Answering force q q' s a ∧ r.Reaches force q' p

/-- **A call of the analyzer that was made in the run for a source came to an answer that may be kept.** -/
inductive Answered (r : PastRun) : Course → Path → AnalyzerOutput → Prop
  | inTurn {x a} :
      x ∈ r.handled → x.isStale = true → (x.job.call x.source x.fs).1 = .finished a →
      Job.accepts r.options.failurePolicy a = true → Answered r r.inTurn x.source a
  | sideBySide {force S p e s a} :
      r.recordStep = (.ok force, S) → r.AnsweredBy force S p s a →
      Answered r ⟨⟨e, p.world.calls.map Prod.snd, p.aggregator.sink, p.world.fs⟩, p.ended, r.Filled force S p⟩ s a

section
variable {r : PastRun} {c : Course} {force : Bool} {S : FileSystem} {d : Address}
  {p q : Pool Shared (Path × JobStage)} {s : Path} {a : AnalyzerOutput}

theorem AnsweredBy.step (h : r.AnsweredBy force S p s a)
    (hs : Pool.Step (r.job force).machine r.workers force p q) : r.AnsweredBy force S q s a := by
  obtain ⟨q₀, q₁, hq₀, hanswer, hq₁⟩ := h
  exact ⟨q₀, q₁, hq₀, hanswer, hq₁.tail hs⟩

theorem AnsweredBy.mem_calls (h : r.AnsweredBy force S p s a) :
    (s, r.configuration.commandLine [s]) ∈ p.world.calls := by
  obtain ⟨q, q', -, hanswer, hlater⟩ := h
  induction hlater with
  | refl =>
    obtain ⟨_, _, -, -, hworld⟩ := hanswer.called
    rw [hworld]
    exact List.mem_append_right _ List.mem_cons_self
  | tail _ hs ih =>
    rcases hs.works with ⟨hworld, -⟩ | ⟨_, _, t, stage, n, -, ⟨now, chunk, rfl⟩, hworld, -⟩
    · rw [hworld]
      exact ih
    · rw [hworld, Next.world_map]
      exact Job.mem_calls_act ih

/-! ## What a result holds -/

/-- A state of a run on files `S` whose sources may share results: what every job has in hand, and what every result
holds.  A result is as it was, or holds the beginning of an answer, and all of it unless its job is still writing. -/
structure Traced (r : PastRun) (force : Bool) (S : FileSystem) (d : Address) (p : Pool Shared (Path × JobStage)) :
    Prop where
  cacheAt : CacheAt r.layout (· ∈ r.sources) d p.world.fs
  worker : ∀ s t stage, .busy s (t, stage) ∈ p.workers → t = s ∧ s ∈ r.sources ∧
    (∀ a, Job.inHand? (.running (s, stage)) = some a → r.AnsweredBy force S p s a) ∧
    ∀ a n, stage = .filling a n → Fits r.layout.objectsDir (resultName r.layout.key s) ∧
      ∃ content modified executable, p.world.fs.node? (d ++ [resultName r.layout.key s]) =
        some (.file content modified executable)
  result : ∀ s, p.world.fs.node? (d ++ [resultName r.layout.key s]) = S.node? (d ++ [resultName r.layout.key s]) ∨
    ∃ t a n modified executable, t ∈ r.sources ∧ resultName r.layout.key t = resultName r.layout.key s ∧
      r.AnsweredBy force S p t a ∧ p.world.fs.node? (d ++ [resultName r.layout.key s]) =
        some (.file ((Utf8.encode a.text).extract 0 n) modified executable) ∧
      ((Utf8.encode a.text).size ≤ n ∨ .busy t (t, .filling a n) ∈ p.workers)

theorem traced_start (hat : CacheAt r.layout (· ∈ r.sources) d S) : r.Traced force S d (r.pool S) where
  cacheAt := hat
  worker s t stage h := by simp [pool, Pool.start] at h
  result s := .inl rfl

/-- A step that writes no file, and ends no job that still has to. -/
theorem Traced.of_nodes (h : r.Traced force S d p) (hs : Pool.Step (r.job force).machine r.workers force p q)
    (hat : CacheAt r.layout (· ∈ r.sources) d q.world.fs) (hnode : ∀ a, q.world.fs.node? a = p.world.fs.node? a)
    (hbusy : ∀ s t stage, .busy s (t, stage) ∈ q.workers → .busy s (t, stage) ∈ p.workers ∨
      t = s ∧ s ∈ r.sources ∧ (∀ a, Job.inHand? (.running (s, stage)) = some a → r.AnsweredBy force S q s a) ∧
        ∀ a n, stage ≠ .filling a n)
    (hkept : ∀ t a n, .busy t (t, .filling a n) ∈ p.workers →
      (Utf8.encode a.text).size ≤ n ∨ .busy t (t, .filling a n) ∈ q.workers) :
    r.Traced force S d q := by
  refine ⟨hat, fun s t stage hm => ?_, fun s => ?_⟩
  · rw [hnode]
    rcases hbusy s t stage hm with hm | ⟨ht, hmem, hanswer, hno⟩
    · obtain ⟨ht, hmem, hanswer, hfile⟩ := h.worker s t stage hm
      exact ⟨ht, hmem, fun a ha => (hanswer a ha).step hs, hfile⟩
    · exact ⟨ht, hmem, hanswer, fun a n hn => absurd hn (hno a n)⟩
  · rw [hnode]
    refine (h.result s).imp_right ?_
    rintro ⟨t, a, n, modified, executable, hmem, hname, hanswer, hfile, hwhole⟩
    exact ⟨t, a, n, modified, executable, hmem, hname, hanswer.step hs, hfile, hwhole.elim .inl (hkept t a n)⟩

/-- A step of a job that writes no file, and does not leave one half written. -/
theorem Traced.of_moved (h : r.Traced force S d p) (hs : Pool.Step (r.job force).machine r.workers force p q)
    {before after : List (Worker (Path × JobStage))} {stage : JobStage} {w : Worker (Path × JobStage)}
    (hp : p.workers = before ++ .busy s (s, stage) :: after) (hq : q.workers = before ++ w :: after)
    (hat : CacheAt r.layout (· ∈ r.sources) d q.world.fs) (hnode : ∀ a, q.world.fs.node? a = p.world.fs.node? a)
    (hnew : ∀ s' t stage', w = .busy s' (t, stage') → t = s ∧ s' = s ∧
      (∀ a, Job.inHand? (.running (s, stage')) = some a → r.AnsweredBy force S q s a) ∧ ∀ a n, stage' ≠ .filling a n)
    (hold : ∀ a n, stage = .filling a n → (Utf8.encode a.text).size ≤ n) : r.Traced force S d q := by
  refine h.of_nodes hs hat hnode (fun s' t stage' hm => ?_) fun t a n hm => ?_
  · rcases Pool.mem_of_replaced hp (hq ▸ hm) with hm | hm
    · exact .inl hm
    · obtain ⟨rfl, rfl, hanswer⟩ := hnew s' t stage' hm.symm
      exact .inr ⟨rfl, (h.worker _ _ _ (Pool.mem_of_split hp)).2.1, hanswer⟩
  · rw [hp, List.mem_append, List.mem_cons] at hm
    rw [hq, List.mem_append, List.mem_cons]
    rcases hm with hm | hm | hm
    · exact .inr (.inl hm)
    · cases hm
      exact .inl (hold a n rfl)
    · exact .inr (.inr (.inr hm))

/-- **A step that writes leaves the beginning of the writer's answer**, and the writer at work. -/
theorem Traced.writes (h : r.Traced force S d p) (hs : Pool.Step (r.job force).machine r.workers force p q)
    {before after : List (Worker (Path × JobStage))} {stage : JobStage} {n : Nat} {now : Timestamp} {fs : FileSystem}
    (hp : p.workers = before ++ .busy s (s, stage) :: after)
    (hq : q.workers = before ++ .busy s (s, .filling a n) :: after) (hfs : q.world.fs = fs)
    (ha : Job.inHand? (.running (s, stage)) = some a)
    (hw : p.world.fs.writeAt now (r.layout.resultPath s) ((Utf8.encode a.text).extract 0 n) = .ok fs) :
    r.Traced force S d q := by
  subst hfs
  obtain ⟨-, hmem, hanswer, -⟩ := h.worker s s stage (Pool.mem_of_split hp)
  have hanswer := (hanswer a ha).step hs
  obtain ⟨hat, ⟨modified, executable, hself⟩, hother⟩ := h.cacheAt.writeAt hmem hw
  have hfits := (Job.of_writeAt (j := r.job force) (s := s) h.cacheAt.directory (h.cacheAt.result hmem) hw).1
  refine ⟨hat, fun s' t stage' hm => ?_, fun s' => ?_⟩
  · by_cases hname : resultName r.layout.key s' = resultName r.layout.key s
    · rw [hname, hself]
      rcases Pool.mem_of_replaced hp (hq ▸ hm) with hm | hm
      · obtain ⟨ht, hmem', hanswer', -⟩ := h.worker s' t stage' hm
        exact ⟨ht, hmem', fun b hb => (hanswer' b hb).step hs, fun _ _ _ => ⟨hfits, _, _, _, rfl⟩⟩
      · cases hm
        refine ⟨rfl, hmem, fun b hb => ?_, fun _ _ _ => ⟨hfits, _, _, _, rfl⟩⟩
        cases hb
        exact hanswer
    · rw [hother _ hname]
      rcases Pool.mem_of_replaced hp (hq ▸ hm) with hm | hm
      · obtain ⟨ht, hmem', hanswer', hfile⟩ := h.worker s' t stage' hm
        exact ⟨ht, hmem', fun b hb => (hanswer' b hb).step hs, hfile⟩
      · cases hm
        exact absurd rfl hname
  · by_cases hname : resultName r.layout.key s' = resultName r.layout.key s
    · refine .inr ⟨s, a, n, modified, executable, hmem, hname.symm, hanswer, by rw [hname, hself], .inr ?_⟩
      rw [hq]
      simp
    · rw [hother _ hname]
      refine (h.result s').imp_right ?_
      rintro ⟨t, b, k, m, x, hmem', hname', hanswer', hfile, hwhole⟩
      refine ⟨t, b, k, m, x, hmem', hname', hanswer'.step hs, hfile, hwhole.imp_right fun hb => ?_⟩
      -- the writer's result has another name
      rw [hp, List.mem_append, List.mem_cons] at hb
      rw [hq, List.mem_append, List.mem_cons]
      rcases hb with hb | hb | hb
      · exact .inl hb
      · cases hb
        exact absurd hname'.symm hname
      · exact .inr (.inr hb)

theorem Traced.step (h : r.Traced force S d p) (hcall : r.analyzer.TouchesNoFile) (hr : r.Reaches force (r.pool S) p)
    (hs : Pool.Step (r.job force).machine r.workers force p q) : r.Traced force S d q := by
  rcases hs.works with ⟨hworld, hbusy, hkept⟩ | ⟨before, after, s, ⟨t, stage⟩, n, hp, hn, hworld, hq⟩
  · refine h.of_nodes hs (hworld ▸ h.cacheAt) (fun a => by rw [hworld]) (fun s t stage hm => ?_)
      fun t a n hm => .inr (hkept _ _ hm)
    rcases hbusy s _ hm with hm | ⟨hm, hfirst⟩
    · exact .inl hm
    · -- a job that was just taken has nothing in hand
      have hsource : s ∈ r.sources := by
        rw [← (Pool.accounted_of_reaches hr).order]
        simp [hm]
      obtain ⟨rfl, rfl⟩ := Prod.mk.inj hfirst
      refine .inr ⟨rfl, hsource, fun a ha => ?_, fun a n hn => ?_⟩
      · cases force <;> cases ha
      · cases force <;> cases hn
  · obtain ⟨now, chunk, rfl⟩ := hn
    obtain ⟨ht, hmem, hanswer, hfile⟩ := h.worker s t stage (Pool.mem_of_split hp)
    subst ht
    rw [Next.world_map] at hworld
    have hcalled := (h.cacheAt.call (hcall.sparesCache r.layout.objectsDir) (r.configuration.commandLine [t])).1
    have hnodes := hcall.node? (r.configuration.commandLine [t]) p.world.fs
    have hdoes := (r.job force).does_act t now chunk p.world stage
    generalize (r.job force).act t now chunk p.world stage = next at hdoes hworld hq
    cases hdoes with
    | @looks _ stage' hnone hnone' =>
      refine h.of_moved hs hp hq (hworld ▸ h.cacheAt) (fun a => by rw [hworld]; rfl) (fun s' t' stage'' hw => ?_)
        fun a n hn => by rw [hn] at hnone; cases hnone
      cases hw
      refine ⟨rfl, rfl, fun a ha => ?_, fun a n hn => ?_⟩
      · rw [hnone'] at ha; cases ha
      · rw [hn] at hnone'; cases hnone'
    | @shows _ output hnone =>
      refine h.of_moved hs hp hq (hworld ▸ h.cacheAt) (fun a => by rw [hworld]; rfl) (fun s' t' stage' hw => ?_)
        fun a n hn => by rw [hn] at hnone; cases hnone
      cases output <;> cases hw
    | @rejects output =>
      refine h.of_moved hs hp hq (hworld ▸ hcalled) (fun a => by rw [hworld]; exact hnodes a)
        (fun s' t' stage' hw => ?_) nofun
      cases output <;> cases hw
    | accepts hanswered haccepts =>
      refine h.of_moved hs hp hq (hworld ▸ hcalled) (fun a => by rw [hworld]; exact hnodes a)
        (fun s' t' stage' hw => ?_) nofun
      cases hw
      refine ⟨rfl, rfl, fun a ha => ?_, nofun⟩
      cases ha
      exact ⟨p, q, hr, ⟨hs, ⟨before, after, hp, hq, hworld⟩, hanswered, haccepts⟩, .refl⟩
    | writes hhand hw => exact h.writes hs hp hq (congrArg Shared.fs hworld) hhand hw
    | @stops _ a output hhand hend =>
      refine h.of_moved hs hp hq (hworld ▸ h.cacheAt) (fun a => by rw [hworld]; rfl) (fun s' t' stage' hw => ?_)
        fun b n hn => ?_
      · cases output <;> cases hw
      · subst hn
        cases hhand
        rcases hend n rfl with hall | ⟨now, content, e, hw⟩
        · exact hall
        · -- a file that was made can be written on
          obtain ⟨hf, hexists⟩ := hfile a n rfl
          obtain ⟨fs, hw'⟩ :=
            Job.exists_writeAt (j := r.job force) (s := t) now content h.cacheAt.directory hf (.inr hexists)
          cases hw.symm.trans hw'

theorem traced_of_reaches (hat : CacheAt r.layout (· ∈ r.sources) d S) (hcall : r.analyzer.TouchesNoFile)
    (hr : r.Reaches force (r.pool S) p) : r.Traced force S d p := by
  induction hr with
  | refl => exact traced_start hat
  | tail hr hs ih => exact ih.step hcall hr hs

/-- The entry under a name holds the answer that one of some jobs was given, and that may be kept. -/
def HoldsAnswer (log : List Handled) (name : Name) (node : Option Node) : Prop :=
  ∃ x ∈ log, ∃ a modified executable, x.job.entry x.source = name ∧ x.isStale = true ∧
    (x.job.call x.source x.fs).1 = .finished a ∧ Job.accepts x.job.failurePolicy a = true ∧
    node = some (.file (Utf8.encode a.text) modified executable)

/-- A job in its turn leaves its result as it was, or with the answer that it was given. -/
theorem holdsAnswer_process {j : Job} {log : List Handled} {fs : FileSystem} {known : Path → Prop}
    (hat : CacheAt j.layout known d fs) (hcall : j.analyzer.TouchesNoFile) (hk : known s)
    (h : ∀ name, fs.node? (d ++ [name]) = S.node? (d ++ [name]) ∨ HoldsAnswer log name (fs.node? (d ++ [name])))
    (name : Name) :
    (j.process s fs).fs.node? (d ++ [name]) = S.node? (d ++ [name]) ∨
      HoldsAnswer (⟨j, s, fs⟩ :: log) name ((j.process s fs).fs.node? (d ++ [name])) := by
  have later {node : Option Node} (h : HoldsAnswer log name node) : HoldsAnswer (⟨j, s, fs⟩ :: log) name node := by
    obtain ⟨x, hx, hrest⟩ := h
    exact ⟨x, List.mem_cons_of_mem _ hx, hrest⟩
  rcases j.process_fs s fs with ⟨-, hfs⟩ | ⟨-, -, hfs⟩ | ⟨a, ha, hw⟩
  · rw [hfs]
    exact (h name).imp_right later
  · rw [hfs, Job.call, hcall.node?]
    exact (h name).imp_right later
  · have hcalled := (hat.call (hcall.sparesCache j.layout.objectsDir) (j.commandLine s)).1
    obtain ⟨-, ⟨modified, executable, hself⟩, hother⟩ :=
      hcalled.writeAt hk (show (j.call s fs).2.writeAt (j.call s fs).2.clock _ _ = _ from hw)
    by_cases hname : name = j.entry s
    · subst hname
      obtain ⟨hstale, fs', fs'', hanswer, haccepts, -⟩ := Job.kept?_eq_some_iff.1 ha
      exact .inr ⟨_, List.mem_cons_self, a, modified, executable, rfl, hstale, by rw [hanswer], haccepts, hself⟩
    · rw [hother name hname, hcall.node?]
      exact (h name).imp_right later

/-- A result is as the record step left it, or holds the whole of an answer of this run. -/
def KeptOrAnswered (r : PastRun) (c : Course) (S : FileSystem) (d : Address) (s : Path) : Prop :=
  c.report.fs.node? (d ++ [resultName r.layout.key s]) = S.node? (d ++ [resultName r.layout.key s]) ∨
    ∃ t ∈ r.sources, ∃ a modified executable, resultName r.layout.key t = resultName r.layout.key s ∧
      r.Answered c t a ∧ r.configuration.commandLine [t] ∈ c.report.calls ∧
      Job.accepts r.options.failurePolicy a = true ∧
      c.report.fs.node? (d ++ [resultName r.layout.key s]) = some (.file (Utf8.encode a.text) modified executable)

theorem keptOrAnswered_inTurn (hs : r.recordStep = (.ok force, S)) (hq : Dispatch.queueTooLarge r.workers = false)
    (hat : CacheAt r.layout (· ∈ r.sources) d S) (hcall : r.analyzer.TouchesNoFile) (s : Path) :
    r.KeptOrAnswered r.inTurn S d s := by
  obtain ⟨hhandled, hreport⟩ := report_of_ok hs hq
  have hjobs := (@Dispatch.started_induct (r.job force)
    (fun log fs => CacheAt r.layout (· ∈ r.sources) d fs ∧ ∀ name,
      fs.node? (d ++ [name]) = S.node? (d ++ [name]) ∨ HoldsAnswer log name (fs.node? (d ++ [name])))
    r.sources r.workers S [] (fun log s fs hmem hk =>
      ⟨(hk.1.process (j := r.job force) (hcall.sparesCache _) hmem).1,
        holdsAnswer_process (j := r.job force) hk.1 hcall hmem hk.2⟩) ⟨hat, fun _ => .inl rfl⟩).1.2
  have hfs : r.report.fs = (Dispatch.work (r.job force) r.workers r.sources S).fs := by rw [hreport]
  rw [← hhandled, ← hfs, List.append_nil] at hjobs
  refine (hjobs (resultName r.layout.key s)).imp_right ?_
  rintro ⟨x, hx, a, modified, executable, hname, hstale, hanswer, haccepts, hfile⟩
  have hx := List.mem_reverse.1 hx
  obtain ⟨force', -, hjob, hmem⟩ := of_mem_handled hx
  rw [hjob] at hname haccepts
  refine ⟨x.source, hmem, a, modified, executable, hname, .inTurn hx hstale hanswer haccepts, ?_, haccepts, hfile⟩
  show _ ∈ r.report.calls
  rw [r.report_calls, List.mem_flatMap]
  refine ⟨x, hx, ?_⟩
  rw [Handled.result, Job.process_of_stale hstale, Job.analyze_calls, hjob]
  exact List.mem_cons_self

theorem keptOrAnswered_sideBySide (hs : r.recordStep = (.ok force, S)) (hat : CacheAt r.layout (· ∈ r.sources) d S)
    (hcall : r.analyzer.TouchesNoFile) (hr : r.Reaches force (r.pool S) p) {e : RunEnd} (he : p.ending = some e)
    (s : Path) :
    r.KeptOrAnswered ⟨⟨e, p.world.calls.map Prod.snd, p.aggregator.sink, p.world.fs⟩, p.ended, r.Filled force S p⟩
      S d s := by
  refine ((traced_of_reaches hat hcall hr).result s).imp_right ?_
  rintro ⟨t, a, n, modified, executable, hmem, hname, hanswer, hfile, hwhole⟩
  have hwhole : (Utf8.encode a.text).size ≤ n := by
    refine hwhole.resolve_right fun hbusy => ?_
    have := Pool.mem_source hbusy
    rw [((Pool.accounted_of_reaches hr).quiet he).1] at this
    cases this
  rw [ByteArray.extract_of_size_le hwhole] at hfile
  refine ⟨t, hmem, a, modified, executable, hname, .sideBySide hs hanswer, ?_, ?_, hfile⟩
  · exact List.mem_map.2 ⟨_, hanswer.mem_calls, rfl⟩
  · obtain ⟨q, q', -, hanswer, -⟩ := hanswer
    exact hanswer.accepted

/-- **However a run goes, a result is as the record step left it, or holds the whole of an answer of this run.** -/
theorem Takes.result (h : r.Takes c) (hs : r.recordStep = (.ok force, S)) (hat : CacheAt r.layout (· ∈ r.sources) d S)
    (hcall : r.analyzer.TouchesNoFile) (s : Path) : r.KeptOrAnswered c S d s := by
  cases h with
  | inTurn =>
    cases hq : Dispatch.queueTooLarge r.workers with
    | true =>
      have hreport : r.report = _ := Dispatch.run_of_queueTooLarge hs hq
      exact .inl (by rw [PastRun.inTurn, hreport])
    | false => exact keptOrAnswered_inTurn hs hq hat hcall s
  | @sideBySide force' S' p e hs' hq hr he =>
    cases hs.symm.trans hs'
    exact keptOrAnswered_sideBySide hs hat hcall hr he s

/-! ## Everything else -/

/-- What is not the result of a source stays as the record step left it. -/
theorem Takes.frame (h : r.Takes c) (hs : r.recordStep = (.ok force, S)) (hat : CacheAt r.layout (· ∈ r.sources) d S)
    (hcall : r.analyzer.TouchesNoFile) :
    CacheAt r.layout (· ∈ r.sources) d c.report.fs ∧ ∀ b,
      (∀ s ∈ r.sources, b ≠ d ++ [resultName r.layout.key s]) → c.report.fs.node? b = S.node? b :=
  h.preserves hs (P := fun fs => CacheAt r.layout (· ∈ r.sources) d fs ∧ ∀ b,
      (∀ s ∈ r.sources, b ≠ d ++ [resultName r.layout.key s]) → fs.node? b = S.node? b)
    ⟨hat, fun _ _ => rfl⟩
    (fun argv fs hk => ⟨(hk.1.call (hcall.sparesCache _) argv).1, fun b hb => (hcall.node? argv fs b).trans (hk.2 b hb)⟩)
    fun s hmem _ _ _ _ hk hw =>
      ⟨(hk.1.writeAt hmem hw).1, fun b hb => (hk.1.node?_of_writeAt hmem hw (hb s hmem)).trans (hk.2 b hb)⟩

/-- An address that a run has brought another file to is that of the record, or of a result that holds an answer of this
run. -/
def Changed (r : PastRun) (c : Course) (a : Address) : Prop :=
  ∃ d, DirectoryAt c.report.fs r.layout.objectsDir d ∧ (a = d ++ [recordName] ∨
    ∃ s ∈ r.sources, ∃ o modified executable, a = d ++ [resultName r.layout.key s] ∧ r.Answered c s o ∧
      r.configuration.commandLine [s] ∈ c.report.calls ∧ o.timedOut = false ∧
      (r.options.failurePolicy = .skipFailures → o.exitCode = some 0) ∧
      c.report.fs.node? a = some (.file (Utf8.encode o.text) modified executable))

/-- What the record step has done at an address: nothing, or it has made a directory, or it has written the record. -/
theorem recordStep_node? (hl : r.before.Linkless r.layout.objectsDir) (a : Address) :
    r.recordStep.2.node? a = r.before.node? a ∨
      (r.before.node? a = none ∧ r.recordStep.2.node? a = some .directory) ∨
      ∃ d, DirectoryAt r.recordStep.2 r.layout.objectsDir d ∧ a = d ++ [recordName] := by
  cases hs : r.recordStep with
  | mk outcome S =>
    cases outcome with
    | error e => exact ((Record.grows_of_update_error hs).node a).imp_right .inl
    | ok force =>
      obtain ⟨fs', d, executable, hg, hd, -, hst, rfl⟩ := Record.update_stores hs fun fs' d hg hd =>
        hl fs' d recordName hg.leavesCache.toExtends hd
      by_cases hrecord : a = d ++ [recordName]
      · exact .inr (.inr ⟨d, hd.of_keepsWays (hst.keepsWays _ _), hrecord⟩)
      · dsimp only
        rw [node?_store_of_ne _ _ _ hrecord]
        exact (hg.node a).imp_right .inl

/-- What a run has done at an address: nothing, or it has made a directory, or it has written the record or a result. -/
theorem Takes.node? (h : r.Takes c) (hl : r.before.Linkless r.layout.objectsDir) (hcall : r.analyzer.TouchesNoFile)
    (a : Address) : c.report.fs.node? a = r.before.node? a ∨
      (r.before.node? a = none ∧ c.report.fs.node? a = some .directory) ∨ r.Changed c a := by
  have hstep := recordStep_node? hl a
  cases hs : r.recordStep with
  | mk outcome S =>
    rw [hs] at hstep
    cases outcome with
    | error e =>
      rw [h.of_error hs]
      exact ((Record.grows_of_update_error hs).node a).imp_right .inl
    | ok force =>
      obtain ⟨d, hd, -, hunlinked, -⟩ := recordStep_linkless hl hs
      have hat : CacheAt r.layout (· ∈ r.sources) d S := ⟨hd, fun name _ => hunlinked name⟩
      obtain ⟨hend, hframe⟩ := h.frame hs hat hcall
      have hsame : c.report.fs.node? a = S.node? a → c.report.fs.node? a = r.before.node? a ∨
          (r.before.node? a = none ∧ c.report.fs.node? a = some .directory) ∨ r.Changed c a := by
        intro ha
        rw [ha]
        refine hstep.imp_right (.imp_right ?_)
        rintro ⟨d', hd', hrecord⟩
        obtain rfl := hd.unique hd'
        exact ⟨d, hend.directory, .inl hrecord⟩
      by_cases hresult : ∃ s ∈ r.sources, a = d ++ [resultName r.layout.key s]
      · obtain ⟨s, hmem, rfl⟩ := hresult
        rcases h.result hs hat hcall s with ha | ⟨t, hmem', o, modified, x, hname, hanswer, hcalled, haccepts, hfile⟩
        · exact hsame ha
        · obtain ⟨htimely, hpolicy⟩ := Job.accepts_iff.1 haccepts
          exact .inr (.inr ⟨d, hend.directory, .inr ⟨t, hmem', o, modified, x, by rw [hname], hanswer, hcalled, htimely,
            hpolicy, hfile⟩⟩)
      · exact hsame (hframe a fun s hmem ha => hresult ⟨s, hmem, ha⟩)

end
end PastRun

section
open Sample

end
end Recheck
