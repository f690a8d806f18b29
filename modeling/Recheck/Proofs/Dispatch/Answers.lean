import Recheck.Proofs.Dispatch.CacheEntries
import Recheck.Proofs.Dispatch.Courses
/-!
# What a run shows, and what it leaves in the results

For sources with different results, in whatever way a run goes: a block of a source reported as cached shows what is in
its result when the run is over, and a result that was written to its end holds the answer that is in the block
(`Takes.shown`).  A job reads and writes its own result only, so what it has seen or written there stands to its end.
-/
namespace Recheck
open FileSystem CacheLayout

namespace Job

/-- An output and the result it speaks of: one reported as cached shows it, and none is passed over unless asked. -/
structure Displays (j : Job) (s : Path) (content? : Option ByteArray) (o : JobOutput) : Prop where
  cached : o.outcome = .cached → ∃ content date, content? = some content ∧
    o.block = j.cachedBlock s date (Utf8.decodeLossy content)
  skipped : o.outcome = .skipped → j.onlyLatest = true

/-- What a job has seen in its result or written there, at its phases. -/
def Shown (j : Job) (s : Path) (content? : Option ByteArray) : Phase (Path × JobStage) → Prop
  | .waiting => True
  | .running (t, stage) => t = s ∧
    match stage with
    | .dating content => content? = some content
    | .creating a     => accepts j.failurePolicy a = true
    | .filling a n    => accepts j.failurePolicy a = true ∧ n ≤ (Utf8.encode a.text).size ∧
      content? = some ((Utf8.encode a.text).extract 0 n)
    | _               => True
  | .ended none => True
  | .ended (some o) => j.Displays s content? o

/-- The job has written an answer to its end, and perhaps shown it since. -/
def Wrote (j : Job) (s : Path) (a : AnalyzerOutput) (content? : Option ByteArray) (phase : Phase (Path × JobStage)) :
    Prop :=
  content? = some (Utf8.encode a.text) ∧ accepts j.failurePolicy a = true ∧
    ((∃ n, (Utf8.encode a.text).size ≤ n ∧ phase = .running (s, .filling a n)) ∨
      phase = .ended (j.reply s (.finished a)))

section
variable {j : Job} {known : Path → Prop} {d : Address} {s : Path} {content? : Option ByteArray}

theorem displays_of_analyzed {o : JobOutput} (hc : o.outcome ≠ .cached) (hk : o.outcome ≠ .skipped) :
    j.Displays s content? o :=
  ⟨fun h => absurd h hc, fun h => absurd h hk⟩

theorem shown_reply (attempt : Attempt) : j.Shown s content? (.ended (j.reply s attempt)) := by
  cases attempt with
  | crashed => exact trivial
  | finished o => exact displays_of_analyzed nofun nofun
  | notStarted e => exact displays_of_analyzed nofun nofun

theorem shown_unreadable (e : IoError) : j.Shown s content? (.ended (some (j.unreadable s e))) :=
  displays_of_analyzed nofun nofun

/-- A job in its turn shows what is in its result. -/
theorem displays_process {fs : FileSystem} {o : JobOutput} (hat : CacheAt j.layout known d fs) (hk : known s)
    (ho : (j.process s fs).output = some o) :
    j.Displays s ((j.process s fs).fs.content? (d ++ [j.entry s])) o := by
  constructor
  · intro hc
    obtain ⟨hfs, content, date, hr, hblock⟩ := block_of_cached ho hc
    have hl := hat.result hk
    rw [hfs]
    exact ⟨content, date, ((read_join_iff hat.directory (j.isName_entry s) hl content).1 hr).2, hblock⟩
  · intro hk
    cases hst : j.layout.isStale fs s j.force with
    | true =>
      rw [process_of_stale hst] at ho
      exact absurd hk (analyze_outcome ho).2.2
    | false =>
      obtain ⟨_, _, _, _, -, hp⟩ := process_of_not_stale hst
      rw [hp] at ho
      cases hlatest : j.onlyLatest with
      | true => rfl
      | false =>
        simp only [hlatest, Bool.false_eq_true, if_false, Option.map_eq_some_iff] at ho
        obtain ⟨_, -, rfl⟩ := ho
        cases hk

/-- A job in its turn that keeps an answer has written it, and shows it. -/
theorem wrote_process {fs : FileSystem} {a : AnalyzerOutput} (hat : CacheAt j.layout known d fs) (hk : known s)
    (hs : j.analyzer.SparesCache j.layout.objectsDir) (ha : j.kept? s fs = some a) :
    j.Wrote s a ((j.process s fs).fs.content? (d ++ [j.entry s])) (.ended (j.process s fs).output) := by
  obtain ⟨hstale, fs', _, hcall, haccepts, -⟩ := kept?_eq_some_iff.1 ha
  refine ⟨(hat.process hs hk).2.2 a ha, haccepts, .inr ?_⟩
  rw [process_of_stale hstale, analyze_output, hcall]

/-- **A step of a job carries on what it has seen and written.** -/
theorem shown_act {w : Shared} {stage : JobStage} (hat : CacheAt j.layout known d w.fs) (hk : known s)
    (h : j.Shown s (w.fs.content? (d ++ [j.entry s])) (.running (s, stage))) (now : Timestamp) (chunk : Nat) :
    j.Shown s ((j.act s now chunk w stage).world.fs.content? (d ++ [j.entry s]))
      ((j.act s now chunk w stage).map (s, ·)).phase := by
  have hl := hat.result hk
  -- what is written is what is in the result then
  have hwritten {content : ByteArray} {fs' : FileSystem}
      (hw : w.fs.writeAt now (j.layout.resultPath s) content = .ok fs') :
      fs'.content? (d ++ [j.entry s]) = some content := content?_eq_some_iff.2 (hat.writeAt hk hw).2.1
  cases stage with
  | object => exact ⟨rfl, trivial⟩
  | result object =>
    rw [act]
    unfold compareTimes
    split
    · split
      · exact ⟨rfl, trivial⟩
      · split
        · rename_i hlatest
          refine ⟨fun hc => ?_, fun _ => hlatest⟩
          cases hc
        · exact ⟨rfl, trivial⟩
    · exact ⟨rfl, trivial⟩
  | reading =>
    rw [act]
    unfold readResult
    split
    · rename_i content hr
      exact ⟨rfl, ((read_join_iff hat.directory (j.isName_entry s) hl content).1 hr).2⟩
    · exact ⟨rfl, trivial⟩
    · exact shown_unreadable _
  | dating content =>
    rw [act]
    unfold dateResult
    split
    · rename_i modified executable hs
      cases hc : cachedText? ⟨Utf8.decodeLossy content, modified⟩ with
      | none => exact trivial
      | some text =>
        obtain ⟨date, -, rfl⟩ := cachedText?_some hc
        refine ⟨fun _ => ⟨content, date, h.2, rfl⟩, fun hskipped => ?_⟩
        cases hskipped
    · exact shown_unreadable _
    · exact shown_unreadable _
  | calling =>
    rw [act]
    unfold callAnalyzer
    split
    · split
      · rename_i ha
        exact ⟨rfl, ha⟩
      · exact shown_reply _
    · exact shown_reply _
  | creating a =>
    rw [act]
    unfold createResult
    split
    · rename_i fs' hw
      exact ⟨rfl, h.2, Nat.zero_le _, by rw [ByteArray.extract_same]; exact hwritten hw⟩
    · exact shown_reply (.finished a)
  | filling a n =>
    rw [act]
    unfold fillResult
    split
    · split
      · rename_i fs' hw
        exact ⟨rfl, h.2.1, Nat.min_le_left _ _, hwritten hw⟩
      · exact shown_reply (.finished a)
    · exact shown_reply (.finished a)

/-- Once an answer is written to its end, the job only shows it. -/
theorem wrote_act {w : Shared} {stage : JobStage} {a : AnalyzerOutput}
    (h : j.Wrote s a (w.fs.content? (d ++ [j.entry s])) (.running (s, stage))) (now : Timestamp) (chunk : Nat) :
    j.Wrote s a ((j.act s now chunk w stage).world.fs.content? (d ++ [j.entry s]))
      ((j.act s now chunk w stage).map (s, ·)).phase := by
  obtain ⟨hc, ha, ⟨n, hn, hphase⟩ | hphase⟩ := h
  · cases hphase
    have hact : j.act s now chunk w (.filling a n) = .ended (j.reply s (.finished a)) w := by
      rw [act, fillResult, if_neg (Nat.not_lt.2 hn)]
    rw [hact]
    exact ⟨hc, ha, .inr rfl⟩
  · cases hphase

theorem Wrote.of_busy {a : AnalyzerOutput} {n : Nat} (h : j.Shown s content? (.running (s, .filling a n)))
    (hn : (Utf8.encode a.text).size ≤ n) : j.Wrote s a content? (.running (s, .filling a n)) := by
  obtain ⟨-, ha, hle, hc⟩ := h
  refine ⟨?_, ha, .inl ⟨n, hn, rfl⟩⟩
  rw [hc, Nat.le_antisymm hle hn, ByteArray.extract_zero_size]

end

/-! ## Before a job writes -/

/-- What is in the place of a result while its job is at work: what was there before, until the job writes. -/
def Untouched (j : Job) (s : Path) (before now : Option Node) (filled : Prop) : Phase (Path × JobStage) → Prop
  | .waiting => now = before
  | .running (_, stage) =>
    match stage with
    | .filling _ _ => Fits j.layout.objectsDir (j.entry s) ∧
      ∃ content modified executable, now = some (.file content modified executable)
    | _            => now = before
  | .ended _ => now = before ∨ filled

/-- The analyzer was called for the source, and has given this answer. -/
def Asked (j : Job) (s : Path) (w : Shared) (a : AnalyzerOutput) : Prop :=
  (s, j.commandLine s) ∈ w.calls ∧ ∃ fs, (j.call s fs).1 = .finished a

/-- The answer that a job has in hand. -/
def inHand? : Phase (Path × JobStage) → Option AnalyzerOutput
  | .running (_, .creating a)  => some a
  | .running (_, .filling a _) => some a
  | _                          => none

section
variable {j : Job} {known : Path → Prop} {d : Address} {s : Path} {before now : Option Node}

theorem Untouched.imp {filled filled' : Prop} {phase : Phase (Path × JobStage)}
    (h : j.Untouched s before now filled phase) (hf : filled → filled') : j.Untouched s before now filled' phase := by
  cases phase with
  | ended o => exact Or.imp_right hf h
  | waiting => exact h
  | running stage => exact h

/-- **A job that is over has left its result as it was, or was just writing the end of its answer.** -/
theorem untouched_act {w : Shared} {stage : JobStage} {filled : Prop} (hat : CacheAt j.layout known d w.fs) (hk : known s)
    (hs : j.analyzer.SparesCache j.layout.objectsDir)
    (h : j.Untouched s before (w.fs.node? (d ++ [j.entry s])) filled (.running (s, stage))) (now : Timestamp)
    (chunk : Nat) :
    j.Untouched s before ((j.act s now chunk w stage).world.fs.node? (d ++ [j.entry s]))
      (∃ a n, stage = .filling a n ∧ (Utf8.encode a.text).size ≤ n) ((j.act s now chunk w stage).map (s, ·)).phase := by
  have hl := hat.result hk
  have hwritten {content : ByteArray} {fs' : FileSystem}
      (hw : w.fs.writeAt now (j.layout.resultPath s) content = .ok fs') : Fits j.layout.objectsDir (j.entry s) ∧
        ∃ content modified executable, fs'.node? (d ++ [j.entry s]) = some (.file content modified executable) := by
    obtain ⟨hf, -, -, -, modified, executable, hfile⟩ := of_writeAt hat.directory hl hw
    exact ⟨hf, content, modified, executable, hfile⟩
  cases stage with
  | object => exact h
  | result object =>
    rw [act]
    unfold compareTimes
    split
    · split
      · exact h
      · split
        · exact .inl h
        · exact h
    · exact h
  | reading =>
    rw [act]
    unfold readResult
    split
    · exact h
    · exact h
    · exact .inl h
  | dating content =>
    rw [act]
    unfold dateResult
    split <;> exact .inl h
  | calling =>
    have hcalled : (j.called s w).fs.node? (d ++ [j.entry s]) = before :=
      ((hat.call hs (j.commandLine s)).2 _ (.inr ⟨s, hk, rfl⟩)).trans h
    rw [act]
    unfold callAnalyzer
    split
    · split
      · exact hcalled
      · exact .inl hcalled
    · exact .inl hcalled
  | creating a =>
    rw [act]
    unfold createResult
    split
    · rename_i hw
      exact hwritten hw
    · exact .inl h
  | filling a n =>
    rw [act]
    unfold fillResult
    split
    · split
      · rename_i hw
        exact hwritten hw
      · -- a file that was made can be written on
        rename_i e hw
        obtain ⟨hf, hfile⟩ := h
        obtain ⟨fs', hw'⟩ := exists_writeAt now ((Utf8.encode a.text).extract 0 (further a n chunk)) hat.directory hf
          (.inr hfile)
        rw [hw'] at hw
        cases hw
    · rename_i hn
      exact .inr ⟨a, n, rfl, Nat.le_of_not_lt hn⟩

theorem Asked.act {w : Shared} {a : AnalyzerOutput} (h : j.Asked s w a) (t : Path) (now : Timestamp) (chunk : Nat)
    (stage : JobStage) : j.Asked s (j.act t now chunk w stage).world a :=
  ⟨mem_calls_act h.1, h.2⟩

/-- An answer in hand is that of the job's call. -/
theorem asked_act {w : Shared} {stage : JobStage} (h : ∀ a, inHand? (.running (s, stage)) = some a → j.Asked s w a)
    (now : Timestamp) (chunk : Nat) {a : AnalyzerOutput}
    (ha : inHand? ((j.act s now chunk w stage).map (s, ·)).phase = some a) :
    j.Asked s (j.act s now chunk w stage).world a := by
  cases stage with
  | object => cases ha
  | result object =>
    rw [act] at ha
    unfold compareTimes at ha
    repeat' split at ha
    all_goals cases ha
  | reading =>
    rw [act] at ha
    unfold readResult at ha
    split at ha <;> cases ha
  | dating content =>
    rw [act] at ha
    unfold dateResult at ha
    split at ha <;> cases ha
  | calling =>
    rw [act] at ha ⊢
    unfold callAnalyzer at ha ⊢
    split at ha
    · rename_i o ho
      split at ha
      · rename_i haccepts
        cases ha
        rw [if_pos haccepts]
        exact ⟨List.mem_append_right _ List.mem_cons_self, w.fs, ho⟩
      · cases ha
    · cases ha
  | creating o =>
    refine (h a ?_).act s now chunk _
    rw [act] at ha
    unfold createResult at ha
    split at ha
    · exact ha
    · cases ha
  | filling o n =>
    refine (h a ?_).act s now chunk _
    rw [act] at ha
    unfold fillResult at ha
    split at ha
    · split at ha
      · exact ha
      · cases ha
    · cases ha

end

/-! ## Jobs side by side -/

/-- What is known of a source at a phase: what its job has seen and written, for `wrote` also that the answer is.  The run
began on files `S`. -/
structure Answers (j : Job) (sources : List Path) (d : Address) (S : FileSystem) (wrote : Path → AnalyzerOutput → Prop)
    (s : Path) (phase : Phase (Path × JobStage)) (w : Shared) : Prop where
  cacheAt : CacheAt j.layout (· ∈ sources) d w.fs
  shown : j.Shown s (w.fs.content? (d ++ [j.entry s])) phase
  untouched : j.Untouched s (S.node? (d ++ [j.entry s])) (w.fs.node? (d ++ [j.entry s])) True phase
  asked : ∀ a, inHand? phase = some a → j.Asked s w a
  wrote : ∀ a, wrote s a → j.Wrote s a (w.fs.content? (d ++ [j.entry s])) phase ∧ j.Asked s w a

/-- **Jobs of sources with different results leave each other's results alone.** -/
theorem isolated_answers {j : Job} {d : Address} {S : FileSystem} (hs : j.analyzer.SparesCache j.layout.objectsDir)
    {sources : List Path} (hapart : (sources.map j.entry).Nodup) (wrote : Path → AnalyzerOutput → Prop) :
    Isolated j.machine sources (j.Answers sources d S wrote) where
  first s _ w h := by
    refine ⟨h.cacheAt, ⟨rfl, ?_⟩, ?_, fun a ha => ?_, fun a ha => ?_⟩
    · cases hforce : j.force <;> simp [machine, hforce]
    · have hsame : w.fs.node? (d ++ [j.entry s]) = S.node? (d ++ [j.entry s]) := h.untouched
      cases hforce : j.force <;> simpa [machine, hforce, Untouched] using hsame
    · cases hforce : j.force <;> simp [machine, hforce, inHand?] at ha
    · obtain ⟨-, -, ⟨_, -, hphase⟩ | hphase⟩ := (h.wrote a ha).1 <;> cases hphase
  own s hmem stage w n h hn := by
    obtain ⟨t, stage⟩ := stage
    obtain ⟨now, chunk, rfl⟩ := hn
    obtain rfl : t = s := h.shown.1
    rw [Next.world_map]
    exact ⟨(h.cacheAt.act hs rfl hmem now chunk stage).1, shown_act h.cacheAt hmem h.shown now chunk,
      (untouched_act h.cacheAt hmem hs h.untouched now chunk).imp fun _ => trivial,
      fun a ha => asked_act h.asked now chunk ha,
      fun a ha => ⟨wrote_act (h.wrote a ha).1 now chunk, (h.wrote a ha).2.act _ _ _ _⟩⟩
  others s hs' t ht hne phase stage w n h h' hn := by
    obtain ⟨t', stage⟩ := stage
    obtain ⟨now, chunk, rfl⟩ := hn
    obtain rfl : t' = t := h'.shown.1
    rw [Next.world_map]
    have hentry : j.entry s ≠ j.entry t' := fun he => hne (List.inj_on_of_nodup_map hapart hs' ht he)
    obtain ⟨hat, hsame⟩ := h.cacheAt.act hs rfl ht now chunk stage
    have hnode := hsame (j.entry s) (.inr ⟨s, hs', rfl⟩) hentry
    have hcontent : (j.act t' now chunk w stage).world.fs.content? (d ++ [j.entry s]) =
        w.fs.content? (d ++ [j.entry s]) := by
      rw [content?, content?, hnode]
    exact ⟨hat, hcontent ▸ h.shown, hnode ▸ h.untouched, fun a ha => (h.asked a ha).act _ _ _ _,
      fun a ha => ⟨hcontent ▸ (h.wrote a ha).1, (h.wrote a ha).2.act _ _ _ _⟩⟩

/-! ## Jobs in turn -/

/-- What the jobs done so far, of sources with different results, have shown and kept is so still. -/
structure Stood (j : Job) (d : Address) (sources : List Path) (log : List Handled) (fs : FileSystem) : Prop where
  cacheAt : CacheAt j.layout (· ∈ sources) d fs
  done : (log.map Handled.source).Nodup → ∀ x ∈ log, x.job = j ∧ x.source ∈ sources ∧
    (∀ o, x.result.output = some o → j.Displays x.source (fs.content? (d ++ [j.entry x.source])) o) ∧
    ∀ a, j.kept? x.source x.fs = some a →
      j.Wrote x.source a (fs.content? (d ++ [j.entry x.source])) (.ended x.result.output)

theorem Stood.process {j : Job} {d : Address} {sources : List Path} {log : List Handled} {fs : FileSystem}
    (h : j.Stood d sources log fs) (hs : j.analyzer.SparesCache j.layout.objectsDir)
    (hapart : (sources.map j.entry).Nodup) {s : Path} (hmem : s ∈ sources) :
    j.Stood d sources (⟨j, s, fs⟩ :: log) (j.process s fs).fs := by
  obtain ⟨hat, hother, -⟩ := h.cacheAt.process hs hmem
  refine ⟨hat, fun hn x hx => ?_⟩
  rw [List.map_cons, List.nodup_cons] at hn
  rcases List.mem_cons.1 hx with rfl | hx
  · exact ⟨rfl, hmem, fun o ho => displays_process h.cacheAt hmem ho,
      fun a ha => wrote_process h.cacheAt hmem hs ha⟩
  · obtain ⟨hj, hsource, hshown, hwrote⟩ := h.done hn.2 x hx
    have hne : j.entry x.source ≠ j.entry s := fun he =>
      hn.1 (List.mem_map.2 ⟨x, hx, List.inj_on_of_nodup_map hapart hsource hmem he⟩)
    have hcontent : (j.process s fs).fs.content? (d ++ [j.entry x.source]) =
        fs.content? (d ++ [j.entry x.source]) := by
      rw [content?, content?, hother (j.entry x.source) (.inr ⟨x.source, hsource, rfl⟩) (.inl hne)]
    rw [hcontent]
    exact ⟨hj, hsource, hshown, hwrote⟩

end Job

/-! ## Runs -/

namespace PastRun
variable {r : PastRun} {c : Course} {force : Bool} {S : FileSystem} {d : Address}
  {p : Pool Shared (Path × JobStage)} {s : Path}

section
variable (hat : CacheAt r.layout (· ∈ r.sources) d S) (hspares : r.analyzer.SparesCache r.layout.objectsDir)
  (hentries : (r.sources.map (r.job force).entry).Nodup)
include hat hspares hentries

theorem answers_of_reaches (hr : r.Reaches force (r.pool S) p) {phase : Phase (Path × JobStage)} (ha : p.At s phase) :
    (r.job force).Answers r.sources d S (fun _ _ => False) s phase p.world := by
  have hstart (s : Path) : (r.job force).Answers r.sources d S (fun _ _ => False) s .waiting ⟨S, []⟩ := by
    refine ⟨hat, trivial, rfl, fun a ha => ?_, fun _ ha => ha.elim⟩
    cases ha
  have hall := Job.isolated_answers (j := r.job force) (d := d) (S := S) hspares hentries fun _ _ => False
  exact hall.holds_of_reaches (hentries.of_map _) (fun s _ => hstart s) hr s phase ha

/-- What was written to its end stays, and is shown. -/
theorem wrote_of_filled {a : AnalyzerOutput} (hf : r.Filled force S p s a) {phase : Phase (Path × JobStage)}
    (ha : p.At s phase) :
    (r.job force).Wrote s a (p.world.fs.content? (d ++ [(r.job force).entry s])) phase ∧
      (r.job force).Asked s p.world a := by
  obtain ⟨q, n, hq, hp, hbusy, hn⟩ := hf
  have hnodup := hentries.of_map _
  have hwrote := Job.isolated_answers (j := r.job force) (d := d) (S := S) hspares hentries fun t b => t = s ∧ b = a
  refine (hwrote.holds_later hnodup hq (fun t phase hat' => ?_) hp s _ ha).wrote a ⟨rfl, rfl⟩
  have ht := answers_of_reaches hat hspares hentries hq hat'
  refine ⟨ht.cacheAt, ht.shown, ht.untouched, ht.asked, ?_⟩
  rintro b ⟨rfl, rfl⟩
  obtain rfl := (Pool.accounted_of_reaches hq).phase_of_busy hnodup hbusy hat'
  exact ⟨.of_busy ht.shown hn, ht.asked b rfl⟩

/-- **A job that is over has written its answer to the end, or left its result as it was.** -/
theorem untouched_of_ended (hr : r.Reaches force (r.pool S) p) {output : Option JobOutput} (ho : p.At s (.ended output)) :
    p.world.fs.node? (d ++ [(r.job force).entry s]) = S.node? (d ++ [(r.job force).entry s]) ∨
      ∃ a, r.Filled force S p s a := by
  have hnodup := hentries.of_map _
  induction hr generalizing s output with
  | refl =>
    cases ho with
    | ended ho => simp [pool, Pool.start] at ho
  | @tail p p' hr hstep ih =>
    have hlater {a : AnalyzerOutput} (hf : r.Filled force S p s a) : r.Filled force S p' s a := by
      obtain ⟨q, n, hq, hp, hbusy, hn⟩ := hf
      exact ⟨q, n, hq, hp.tail hstep, hbusy, hn⟩
    have hbooks := Pool.accounted_of_reaches hr
    rcases hstep.places hbooks hnodup with ⟨hworld, hstill⟩ | ⟨t, ⟨t', stage⟩, n, ht, hnext, hworld, hmoved⟩
    · rw [hworld]
      rcases hstill s _ ho with hp | ⟨-, hphase⟩
      · exact (ih hp).imp_right (Exists.imp fun _ => hlater)
      · cases hphase
    · have hanswers := answers_of_reaches hat hspares hentries hr ht
      obtain rfl : t' = t := hanswers.shown.1
      have hmem := hbooks.mem_of_at ht
      obtain ⟨now, chunk, rfl⟩ := hnext
      rw [hworld, Next.world_map]
      rcases hmoved s _ ho with ⟨rfl, hphase⟩ | ⟨hne, hp⟩
      · have huntouched := Job.untouched_act hanswers.cacheAt hmem hspares hanswers.untouched now chunk
        rw [← hphase] at huntouched
        refine huntouched.imp_right ?_
        rintro ⟨a, n, rfl, hn⟩
        cases ht with
        | inHand hbusy => exact ⟨a, p, n, hr, .tail .refl hstep, hbusy, hn⟩
      · have hs' := hbooks.mem_of_at hp
        have hentry : (r.job force).entry s ≠ (r.job force).entry t' := fun he =>
          hne (List.inj_on_of_nodup_map hentries hs' hmem he)
        have hsame := (hanswers.cacheAt.act hspares rfl hmem now chunk stage).2 ((r.job force).entry s)
          (.inr ⟨s, hs', rfl⟩) hentry
        rw [hsame]
        exact (ih hp).imp_right (Exists.imp fun _ => hlater)

theorem wrote_of_returned (hr : r.Reaches force (r.pool S) p) {e : RunEnd} (he : p.ending = some e) {a : AnalyzerOutput}
    (hf : r.Filled force S p s a) :
    s ∈ r.sources ∧ p.world.fs.content? (d ++ [(r.job force).entry s]) = some (Utf8.encode a.text) ∧
      Job.accepts r.options.failurePolicy a = true ∧ (r.job force).Asked s p.world a := by
  have hmem : s ∈ r.sources := by
    obtain ⟨q, n, hq, -, hbusy, -⟩ := hf
    exact (Pool.accounted_of_reaches hq).mem_of_at (.inHand hbusy)
  have hwrote : ∃ phase, p.At s phase := by
    rcases (Pool.accounted_of_reaches hr).at_of_returned he hmem with hs | ⟨o, hs⟩
    · exact ⟨_, hs⟩
    · exact ⟨_, hs⟩
  obtain ⟨phase, hs⟩ := hwrote
  obtain ⟨⟨hcontent, haccepts, -⟩, hasked⟩ := wrote_of_filled hat hspares hentries hf hs
  exact ⟨hmem, hcontent, haccepts, hasked⟩

theorem untouched_of_returned (hr : r.Reaches force (r.pool S) p) {e : RunEnd} (he : p.ending = some e)
    (hmem : s ∈ r.sources) (hno : ∀ a, ¬r.Filled force S p s a) :
    p.world.fs.node? (d ++ [(r.job force).entry s]) = S.node? (d ++ [(r.job force).entry s]) := by
  rcases (Pool.accounted_of_reaches hr).at_of_returned he hmem with hwaiting | ⟨o, ho⟩
  · exact (answers_of_reaches hat hspares hentries hr hwaiting).untouched
  · exact (untouched_of_ended hat hspares hentries hr ho).resolve_right fun ⟨a, ha⟩ => hno a ha

end

/-- A run leaves alone what is kept of other sources than its own, and the record. -/
theorem Takes.cacheAt {known : Path → Prop} (h : r.Takes c) (hs : r.recordStep = (.ok force, S))
    (hat : CacheAt r.layout known d S) (hspares : r.analyzer.SparesCache r.layout.objectsDir)
    (hknown : ∀ s ∈ r.sources, known s) :
    CacheAt r.layout known d c.report.fs ∧ ∀ name, r.layout.Keeps known name →
      (∀ s ∈ r.sources, name ≠ resultName r.layout.key s) → c.report.fs.node? (d ++ [name]) = S.node? (d ++ [name]) :=
  h.preserves hs (P := fun fs => CacheAt r.layout known d fs ∧ ∀ name, r.layout.Keeps known name →
      (∀ s ∈ r.sources, name ≠ resultName r.layout.key s) → fs.node? (d ++ [name]) = S.node? (d ++ [name]))
    ⟨hat, fun _ _ _ => rfl⟩
    (fun argv fs hk => by
      obtain ⟨hcall, hcalled⟩ := hk.1.call hspares argv
      exact ⟨hcall, fun name hn hne => (hcalled name hn).trans (hk.2 name hn hne)⟩)
    fun s hmem now content fs fs' hk hw => by
      obtain ⟨hwrite, -, hother⟩ := hk.1.writeAt (hknown s hmem) hw
      exact ⟨hwrite, fun name hn hne => (hother name (hne s hmem)).trans (hk.2 name hn hne)⟩

/-- **What a run has shown stands when it is over.**  For sources with different results: a source reported as cached was
shown with what is in its result, and one whose result was written to its end has its answer there and was shown it. -/
theorem Takes.shown (h : r.Takes c) (hs : r.recordStep = (.ok force, S)) (hat : CacheAt r.layout (· ∈ r.sources) d S)
    (hspares : r.analyzer.SparesCache r.layout.objectsDir) (hapart : (r.sources.map r.layout.resultPath).Nodup)
    {o : JobOutput} (ho : (s, some o) ∈ c.ended) :
    (r.job force).Displays s (c.report.fs.content? (d ++ [resultName r.layout.key s])) o ∧
      ∀ a, c.kept s a →
        (r.job force).Wrote s a (c.report.fs.content? (d ++ [resultName r.layout.key s])) (.ended (some o)) := by
  have hentries := Job.nodup_entries (j := r.job force) hapart
  cases h with
  | inTurn =>
    dsimp only [PastRun.inTurn] at ho ⊢
    cases hq : Dispatch.queueTooLarge r.workers with
    | true =>
      rw [workers] at hq
      simp [handled, hs, hq] at ho
    | false =>
      obtain ⟨hhandled, hreport⟩ := report_of_ok hs hq
      have hstood := (Dispatch.started_induct (P := (r.job force).Stood d r.sources) r.workers
        (fun _ _ _ hmem hk => hk.process hspares hentries hmem) ⟨hat, fun _ x hx => absurd hx List.not_mem_nil⟩).1
      have hnodup : (r.handled.map Handled.source).Nodup := by
        rw [hhandled]
        exact (hentries.of_map _).sublist (Dispatch.map_source_started _ _ _ _).sublist
      have hfs : r.report.fs = (Dispatch.work (r.job force) r.workers r.sources S).fs := by rw [hreport]
      rw [← hhandled, ← hfs, List.append_nil] at hstood
      have hdone := hstood.done (by rw [List.map_reverse, List.nodup_reverse]; exact hnodup)
      obtain ⟨x, hx, hxo⟩ := List.mem_map.1 ho
      obtain ⟨rfl, hout⟩ := Prod.mk.inj hxo
      obtain ⟨-, -, hshown, hwrote⟩ := hdone x (List.mem_reverse.2 hx)
      refine ⟨hshown o hout, ?_⟩
      rintro a ⟨y, hy, hya⟩
      -- a source has had one job
      obtain ⟨hmem, hys⟩ := latestKept_some hy
      obtain rfl := List.inj_on_of_nodup_map hnodup (List.mem_reverse.1 hmem) hx hys
      rw [Handled.kept?, (hdone y hmem).1] at hya
      exact hout ▸ hwrote a hya
  | @sideBySide _ _ p _ hs' hq hr he =>
    rw [hs] at hs'
    cases hs'
    exact ⟨(answers_of_reaches hat hspares hentries hr (.ended ho)).shown,
      fun a hf => (wrote_of_filled hat hspares hentries hf (.ended ho)).1⟩

end PastRun
end Recheck
