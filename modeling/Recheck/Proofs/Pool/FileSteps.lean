import Recheck.Proofs.Dispatch.Jobs
import Recheck.Proofs.Pool.Isolation
import Recheck.Proofs.Pool.Progress
/-!
# Jobs as sequences of operations on files

A job asks for times, reads, calls the analyzer and writes, each in a step of its own (`Job.act`).  A result is written
piece by piece, of whatever sizes and at whatever times: first the file is made empty, then it holds more and more of the
text.  What a step changes is the job's own result and its own calls at most (`act_beside`).
-/
namespace Recheck
open FileSystem CacheLayout

/-- What the jobs of a run share: the files, and the calls of the analyzer so far by source. -/
structure Shared where
  fs : FileSystem
  calls : List (Path × List String)

def Shared.callsFor (w : Shared) (s : Path) : List (List String) := (w.calls.filter (·.1 = s)).map Prod.snd

inductive JobStage where
  /-- It asks when the object file was written. -/
  | object
  /-- It asks when the result was written, and compares. -/
  | result (object : Option Timestamp)
  | reading
  /-- It asks when what it has read was written. -/
  | dating (content : ByteArray)
  | calling
  | creating (o : AnalyzerOutput)
  /-- It goes on writing where that many bytes are written. -/
  | filling (o : AnalyzerOutput) (written : Nat)

def Next.map {World Stage Stage' : Type} (f : Stage → Stage') : Next World Stage → Next World Stage'
  | goOn stage w => .goOn (f stage) w
  | ended o w    => .ended o w

@[simp] theorem Next.world_map {World Stage Stage' : Type} (f : Stage → Stage') (n : Next World Stage) :
    (n.map f).world = n.world := by
  cases n <;> rfl

def FileSystem.writeAt (fs : FileSystem) (now : Timestamp) (p : Path) (content : ByteArray) :
    Except IoError FileSystem :=
  { fs with clock := now }.write p content

namespace Job

/-- What a job comes to by an answer of the analyzer. -/
def reply (j : Job) (s : Path) : Attempt → Option JobOutput
  | .finished o   => some (j.output s (.analyzed o.exitCode) (answerText o))
  | .notStarted e =>
    some (j.output s .failed
      ("error: failed to run analyzer " ++ j.configuration.analyzer.text ++ ": " ++ e.message ++ "\n"))
  | .crashed      => none

theorem analyze_output {j : Job} {s : Path} {fs : FileSystem} : (j.analyze s fs).output = j.reply s (j.call s fs).1 := by
  rw [analyze, call]
  cases j.analyzer (j.commandLine s) fs with
  | mk attempt fs' => cases attempt <;> rfl

def unreadable (j : Job) (s : Path) (e : IoError) : JobOutput :=
  j.output s .failed
    ("error: failed to read cached result " ++ (j.layout.resultPath s).text ++ ": " ++ e.message ++ "\n")

section
variable (j : Job) (s : Path) (w : Shared)

def compareTimes (object : Option Timestamp) : Next Shared JobStage :=
  match object, w.fs.modified? (j.layout.resultPath s) with
  | some o, some r =>
    if r < o then .goOn .calling w
    else if j.onlyLatest then .ended (some (j.output s .skipped (skippedNotice ++ "\n"))) w
    else .goOn .reading w
  | _, _ => .goOn .calling w

def readResult : Next Shared JobStage :=
  match w.fs.read (j.layout.resultPath s) with
  | .ok content      => .goOn (.dating content) w
  | .error .notFound => .goOn .calling w
  | .error e         => .ended (some (j.unreadable s e)) w

def dateResult (content : ByteArray) : Next Shared JobStage :=
  match w.fs.stat (j.layout.resultPath s) with
  | .ok (_, .file _ modified _) =>
    .ended ((cachedText? ⟨Utf8.decodeLossy content, modified⟩).map (j.output s .cached)) w
  | .ok _                       => .ended (some (j.unreadable s .isADirectory)) w
  | .error e                    => .ended (some (j.unreadable s e)) w

def called : Shared := ⟨(j.call s w.fs).2, w.calls ++ [(s, j.commandLine s)]⟩

def callAnalyzer : Next Shared JobStage :=
  match (j.call s w.fs).1 with
  | .finished o =>
    if accepts j.failurePolicy o then .goOn (.creating o) (j.called s w)
    else .ended (j.reply s (.finished o)) (j.called s w)
  | attempt => .ended (j.reply s attempt) (j.called s w)

def createResult (now : Timestamp) (o : AnalyzerOutput) : Next Shared JobStage :=
  match w.fs.writeAt now (j.layout.resultPath s) .empty with
  | .ok fs   => .goOn (.filling o 0) { w with fs := fs }
  | .error _ => .ended (j.reply s (.finished o)) w

def further (o : AnalyzerOutput) (written chunk : Nat) : Nat := min (Utf8.encode o.text).size (written + chunk + 1)

def fillResult (now : Timestamp) (chunk : Nat) (o : AnalyzerOutput) (written : Nat) : Next Shared JobStage :=
  if written < (Utf8.encode o.text).size then
    match w.fs.writeAt now (j.layout.resultPath s) ((Utf8.encode o.text).extract 0 (further o written chunk)) with
    | .ok fs   => .goOn (.filling o (further o written chunk)) { w with fs := fs }
    | .error _ => .ended (j.reply s (.finished o)) w
  else .ended (j.reply s (.finished o)) w

end

/-- One operation of the job for a source.  If it writes, it does so at the time `now`, and `chunk + 1` bytes at most. -/
def act (j : Job) (s : Path) (now : Timestamp) (chunk : Nat) (w : Shared) : JobStage → Next Shared JobStage
  | .object            => .goOn (.result (w.fs.modified? (j.layout.objectPath s))) w
  | .result object     => j.compareTimes s w object
  | .reading           => j.readResult s w
  | .dating content    => j.dateResult s w content
  | .calling           => j.callAnalyzer s w
  | .creating o        => j.createResult s w now o
  | .filling o written => j.fillResult s w now chunk o written

/-- The jobs of a run, step by step. -/
def machine (j : Job) : Machine Shared (Path × JobStage) where
  first s := (s, if j.force then .calling else .object)
  next stage w n := ∃ now chunk, n = (j.act stage.1 now chunk w stage.2).map (stage.1, ·)

/-! ## Every job ends -/

def rank : Path × JobStage → Nat
  | (_, .object)      => 6
  | (_, .result _)    => 5
  | (_, .reading)     => 4
  | (_, .dating _)    => 3
  | (_, .calling)     => 3
  | (_, .creating _)  => 2
  | (_, .filling _ _) => 1

/-- The bytes still to be written. -/
def unwritten : Path × JobStage → Nat
  | (_, .filling o written) => (Utf8.encode o.text).size - written
  | _                       => 0

theorem act_goOn (j : Job) (s : Path) (now : Timestamp) (chunk : Nat) (w w' : Shared) (stage stage' : JobStage)
    (h : j.act s now chunk w stage = .goOn stage' w') :
    rank (s, stage') < rank (s, stage) ∨
      rank (s, stage') = rank (s, stage) ∧ unwritten (s, stage') < unwritten (s, stage) := by
  cases stage with
  | object =>
    cases h
    exact .inl (by simp [rank])
  | result object =>
    refine .inl ?_
    rw [act] at h
    unfold compareTimes at h
    repeat' split at h
    all_goals cases h
    all_goals simp [rank]
  | reading =>
    refine .inl ?_
    rw [act] at h
    unfold readResult at h
    split at h <;> cases h
    · simp [rank]
    · simp [rank]
  | dating content =>
    rw [act] at h
    unfold dateResult at h
    split at h <;> cases h
  | calling =>
    refine .inl ?_
    rw [act] at h
    unfold callAnalyzer at h
    split at h
    · split at h <;> cases h
      simp [rank]
    · cases h
  | creating o =>
    refine .inl ?_
    rw [act] at h
    unfold createResult at h
    split at h <;> cases h
    simp [rank]
  | filling o written =>
    refine .inr ?_
    rw [act] at h
    unfold fillResult at h
    split at h
    · rename_i hlt
      split at h <;> cases h
      refine ⟨rfl, ?_⟩
      simp only [unwritten, further]
      omega
    · cases h

theorem ranked_machine (j : Job) : j.machine.Ranked rank unwritten := by
  refine ⟨fun stage w => ⟨_, 0, 0, rfl⟩, fun ⟨s, stage⟩ w stage' w' h => ?_⟩
  obtain ⟨now, chunk, hn⟩ := h
  cases ha : j.act s now chunk w stage with
  | ended o world => rw [ha] at hn; cases hn
  | goOn next world =>
    rw [ha] at hn
    cases hn
    exact j.act_goOn s now chunk w _ stage next ha

/-! ## What a step changes -/

/-- **What a step of a job does to what is shared**: nothing, or it calls the analyzer, or it writes the result. -/
theorem act_world (j : Job) (s : Path) (now : Timestamp) (chunk : Nat) (w : Shared) (stage : JobStage) :
    (j.act s now chunk w stage).world = w ∨ (j.act s now chunk w stage).world = j.called s w ∨
      ∃ content fs, w.fs.writeAt now (j.layout.resultPath s) content = .ok fs ∧
        (j.act s now chunk w stage).world = { w with fs := fs } := by
  cases stage with
  | object => exact .inl rfl
  | result object =>
    rw [act]
    unfold compareTimes
    repeat' split
    all_goals exact .inl rfl
  | reading =>
    rw [act]
    unfold readResult
    split <;> exact .inl rfl
  | dating content =>
    rw [act]
    unfold dateResult
    split <;> exact .inl rfl
  | calling =>
    rw [act]
    unfold callAnalyzer
    split
    · split <;> exact .inr (.inl rfl)
    · exact .inr (.inl rfl)
  | creating o =>
    rw [act]
    unfold createResult
    split
    · rename_i hw
      exact .inr (.inr ⟨_, _, hw, rfl⟩)
    · exact .inl rfl
  | filling o written =>
    rw [act]
    unfold fillResult
    split
    · split
      · rename_i hw
        exact .inr (.inr ⟨_, _, hw, rfl⟩)
      · exact .inl rfl
    · exact .inl rfl

theorem act_fs (j : Job) (s : Path) (now : Timestamp) (chunk : Nat) (w : Shared) (stage : JobStage) :
    (j.act s now chunk w stage).world.fs = w.fs ∨ (j.act s now chunk w stage).world.fs = (j.call s w.fs).2 ∨
      ∃ content, w.fs.writeAt now (j.layout.resultPath s) content = .ok (j.act s now chunk w stage).world.fs := by
  rcases j.act_world s now chunk w stage with h | h | ⟨content, fs, hw, h⟩
  · exact .inl (by rw [h])
  · exact .inr (.inl (by rw [h]; rfl))
  · exact .inr (.inr ⟨content, by rw [h]; exact hw⟩)

/-- No call is forgotten. -/
theorem mem_calls_act {j : Job} {s : Path} {now : Timestamp} {chunk : Nat} {w : Shared} {stage : JobStage}
    {call : Path × List String} (h : call ∈ w.calls) : call ∈ (j.act s now chunk w stage).world.calls := by
  rcases j.act_world s now chunk w stage with hw | hw | ⟨_, _, -, hw⟩
  · rwa [hw]
  · rw [hw]
    exact List.mem_append_left _ h
  · rwa [hw]

/-- What a job of another source may find changed: nothing of what is its own. -/
structure Beside (j : Job) (d : Address) (s : Path) (w w' : Shared) : Prop where
  directory : DirectoryAt w'.fs j.layout.objectsDir d
  node : ∀ name, name ≠ j.entry s → w'.fs.node? (d ++ [name]) = w.fs.node? (d ++ [name])
  calls : ∀ t, t ≠ s → w'.callsFor t = w.callsFor t

section
variable {j : Job} {d : Address} {s : Path} {w : Shared}

theorem node?_clock (fs : FileSystem) (now : Timestamp) (a : Address) : { fs with clock := now }.node? a = fs.node? a := by
  cases a <;> rfl

theorem keepsWays_clock (fs : FileSystem) (now : Timestamp) : KeepsWays fs { fs with clock := now } :=
  ⟨rfl, fun a ha => by rw [node?_clock, ha], fun a t ha => by rw [node?_clock, ha]⟩

theorem directoryAt_clock {fs : FileSystem} {p : Path} (now : Timestamp) (hd : DirectoryAt fs p d) :
    DirectoryAt { fs with clock := now } p d :=
  hd.of_keepsWays (keepsWays_clock fs now)

theorem keepsWays_of_writeAt {fs fs' : FileSystem} {p : Path} {name : Name} {now : Timestamp} {content : ByteArray}
    (hn : IsName name) (h : fs.writeAt now (p.join ⟨name⟩) content = .ok fs') : KeepsWays fs fs' :=
  (keepsWays_clock fs now).trans (keepsWays_of_write hn h)

theorem of_writeAt {fs fs' : FileSystem} {now : Timestamp} {content : ByteArray}
    (hd : DirectoryAt fs j.layout.objectsDir d) (hl : fs.Unlinked (d ++ [j.entry s]))
    (h : fs.writeAt now (j.layout.resultPath s) content = .ok fs') :
    Fits j.layout.objectsDir (j.entry s) ∧ fs.Storable (d ++ [j.entry s]) ∧
      DirectoryAt fs' j.layout.objectsDir d ∧
      (∀ name, name ≠ j.entry s → fs'.node? (d ++ [name]) = fs.node? (d ++ [name])) ∧
      ∃ modified executable, fs'.node? (d ++ [j.entry s]) = some (.file content modified executable) := by
  have hd' := directoryAt_clock now hd
  have hl' : { fs with clock := now }.Unlinked (d ++ [j.entry s]) := fun t => by rw [node?_clock]; exact hl t
  obtain ⟨hf, hst, executable, rfl⟩ := store_of_write hd' (j.isName_entry s) hl' h
  refine ⟨hf, hst.congr (node?_clock fs now _).symm, hd'.of_keepsWays (hst.keepsWays _ _), fun name hne => ?_,
    now, executable, node?_store_self _ _ _ hst.ne_nil⟩
  rw [node?_store_of_ne _ _ _ (by simpa [entry] using hne), node?_clock]

theorem exists_writeAt {fs : FileSystem} (now : Timestamp) (content : ByteArray)
    (hd : DirectoryAt fs j.layout.objectsDir d) (hf : Fits j.layout.objectsDir (j.entry s))
    (hst : fs.Storable (d ++ [j.entry s])) : ∃ fs', fs.writeAt now (j.layout.resultPath s) content = .ok fs' :=
  exists_write (directoryAt_clock now hd) (j.isName_entry s) hf (hst.congr (node?_clock fs now _)) content

theorem Beside.refl (hd : DirectoryAt w.fs j.layout.objectsDir d) : Beside j d s w w :=
  ⟨hd, fun _ _ => rfl, fun _ _ => rfl⟩

theorem Beside.of_writeAt {fs' : FileSystem} {now : Timestamp} {content : ByteArray}
    (hd : DirectoryAt w.fs j.layout.objectsDir d) (hl : w.fs.Unlinked (d ++ [j.entry s]))
    (h : w.fs.writeAt now (j.layout.resultPath s) content = .ok fs') : Beside j d s w { w with fs := fs' } := by
  obtain ⟨-, -, hd', hnode, -⟩ := Job.of_writeAt hd hl h
  exact ⟨hd', hnode, fun _ _ => rfl⟩

theorem callsFor_called (j : Job) (s : Path) (w : Shared) :
    (j.called s w).callsFor s = w.callsFor s ++ [j.commandLine s] := by
  simp [Shared.callsFor, called]

theorem Beside.of_call (hs : j.analyzer.Spares j.layout.objectsDir) (hd : DirectoryAt w.fs j.layout.objectsDir d) :
    Beside j d s w (j.called s w) := by
  obtain ⟨hd', hnode⟩ := hs (j.commandLine s) w.fs d hd
  refine ⟨hd', fun name _ => hnode name, fun t ht => ?_⟩
  simp [Shared.callsFor, called, ht.symm]

/-- **A step of a job leaves alone what is not its own.** -/
theorem act_beside (hs : j.analyzer.Spares j.layout.objectsDir) (hd : DirectoryAt w.fs j.layout.objectsDir d)
    (hl : w.fs.Unlinked (d ++ [j.entry s])) (now : Timestamp) (chunk : Nat) (stage : JobStage) :
    Beside j d s w (j.act s now chunk w stage).world := by
  rcases j.act_world s now chunk w stage with h | h | ⟨content, fs, hw, h⟩
  · rw [h]
    exact .refl hd
  · rw [h]
    exact .of_call hs hd
  · rw [h]
    exact .of_writeAt hd hl hw

end
end Job
end Recheck
