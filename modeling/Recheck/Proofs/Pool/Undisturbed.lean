import Recheck.Proofs.Dispatch.CacheEntries
import Recheck.Proofs.Dispatch.ForcedRuns
import Recheck.Proofs.Pool.Alone
/-!
# Jobs side by side do what each does alone

Every job of a run whose sources have different results stands at every stage where it would stand alone, whatever the
others are at (`Sheltered.isolated`).  So every run comes to an end, and each of its jobs ends as it would alone: with
the same output, the same calls and the same text in its result (`ended_as_alone`).
-/
namespace Recheck
open FileSystem CacheLayout

namespace Job
variable {j : Job} {S : FileSystem} {d : Address} {s t : Path} {w : Shared}

theorem Stands.beside {phase : Phase (Path × JobStage)} {w' : Shared} (hst : Stands j S d s phase w)
    (hb : Beside j d t w w') (hne : s ≠ t) (hentry : j.entry s ≠ j.entry t) : Stands j S d s phase w' := by
  have hobject : objectName s ≠ j.entry t := (resultName_ne_objectName _ _ _).symm
  have hview : w'.view j d s = w.view j d s := by
    rw [Shared.view, Shared.view, hb.node _ hobject, hb.node _ hentry, hb.calls s hne]
  exact ⟨hb.directory, hview ▸ hst.alone⟩

/-- A job begins with the call if it is forced, and else with the time of the object file. -/
theorem Stands.first (hst : Stands j S d s .waiting w) : Stands j S d s (.running (j.machine.first s)) w := by
  obtain ⟨hd, halone⟩ := hst
  cases halone with
  | waiting hv =>
    refine ⟨hd, ?_⟩
    rw [machine]
    cases hforce : j.force with
    | true => exact .calling hv (mustCall_iff.1 (.inl hforce))
    | false => exact .object hv hforce

/-- **Jobs of sources with different results leave each other alone.** -/
theorem Sheltered.isolated (h : j.Sheltered S d) {sources : List Path} (hapart : (sources.map j.entry).Nodup) :
    Isolated j.machine sources (Stands j S d) where
  first s _ w hst := hst.first
  own s _ stage w n hst hn := h.stands_own hst hn
  others s hs t ht hne phase stage w n hst hst' hn := by
    obtain ⟨now, chunk, rfl⟩ := hn
    obtain ⟨rfl, hl⟩ := h.unlinked_of_stands hst'
    have hentry : j.entry s ≠ j.entry stage.1 := fun he => hne (List.inj_on_of_nodup_map hapart hs ht he)
    rw [Next.world_map]
    exact hst.beside (act_beside h.spares hst.directory hl now chunk stage.2) hne hentry

theorem Stands.of_ended {output : Option JobOutput} (hst : Stands j S d s (.ended output) w) :
    output = (j.process s S).output ∧ w.callsFor s = (j.process s S).calls ∧
      w.fs.Unlinked (d ++ [j.entry s]) ∧
      w.fs.content? (d ++ [j.entry s]) = (j.process s S).fs.content? (d ++ [j.entry s]) := by
  cases hst.alone with
  | ended hl hcontent hcalls => exact ⟨rfl, hcalls, hl, hcontent⟩

theorem Sheltered.read_ended (h : j.Sheltered S d) {output : Option JobOutput} (hst : Stands j S d s (.ended output) w)
    (content : ByteArray) : w.fs.read (j.layout.resultPath s) = .ok content ↔
      (j.process s S).fs.read (j.layout.resultPath s) = .ok content := by
  obtain ⟨-, -, hl, hcontent⟩ := hst.of_ended
  have hd := (process_frame h.spares h.directory (h.unlinked (j.entry s))).1
  have hl' := process_unlinked h.spares h.directory (h.unlinked (j.entry s))
  rw [resultPath, ← entry, read_join_iff hst.directory (j.isName_entry s) hl,
    read_join_iff hd (j.isName_entry s) hl', hcontent]

theorem Sheltered.outcome_of_fresh (h : j.Sheltered S d) (hfresh : j.layout.isStale S s j.force = false)
    {o : JobOutput} (ho : (j.process s S).output = some o) :
    o.outcome = if j.onlyLatest then .skipped else .cached := by
  obtain ⟨-, _, _, _, -, hp⟩ := process_of_fresh h.directory (h.unlinked _) hfresh
  rw [hp] at ho
  cases hlatest : j.onlyLatest with
  | true =>
    rw [hlatest] at ho
    cases ho
    rfl
  | false =>
    rw [hlatest] at ho
    obtain ⟨_, -, rfl⟩ := Option.map_eq_some_iff.1 ho
    rfl

/-- When a run of jobs that have outputs returns, the job of each source is over as it is alone. -/
theorem Sheltered.ended_perm (h : j.Sheltered S d) {sources : List Path} (hapart : (sources.map j.entry).Nodup)
    (houtput : ∀ s ∈ sources, (j.process s S).output ≠ none) {jobs : Nat} {force : Bool} {sink : Sink}
    {p : Pool Shared (Path × JobStage)} (hjobs : 0 < jobs)
    (hr : Pool.Reaches j.machine jobs force (.start jobs sources sink ⟨S, []⟩) p) {e : RunEnd} (he : p.ending = some e) :
    p.ended.Perm (sources.map fun s => (s, (j.process s S).output)) ∧
      p.written.Perm (sources.filterMap fun s => (j.process s S).output) ∧
      ∀ x ∈ p.ended, Stands j S d x.1 (.ended x.2) p.world := by
  have hnone : ∀ s ∈ sources, ∀ w, ¬Stands j S d s (.ended none) w :=
    fun s hmem w hst => houtput s hmem hst.of_ended.1.symm
  obtain ⟨hperm, hends⟩ := (h.isolated hapart).ended_of_returned (hapart.of_map _) (fun s _ => ⟨h.directory, .waiting rfl⟩)
    hjobs hnone hr he
  have hended : p.ended.Perm (sources.map fun s => (s, (j.process s S).output)) := by
    rw [eq_map_fst (fun s => (j.process s S).output) fun x hx => (hends x hx).of_ended.1]
    exact hperm.map _
  have hwritten := ((Pool.accounted_of_reaches hr).of_returned he).2.1
  refine ⟨hended, hwritten.symm.trans ((hended.filterMap Prod.snd).trans ?_), hends⟩
  rw [List.filterMap_map]
  exact .refl _

/-! ## One job after the other -/

theorem Sheltered.process_congr (h : j.Sheltered S d) {fs : FileSystem} (hd : DirectoryAt fs j.layout.objectsDir d)
    (hobject : fs.node? (d ++ [objectName s]) = S.node? (d ++ [objectName s]))
    (hresult : fs.node? (d ++ [j.entry s]) = S.node? (d ++ [j.entry s])) :
    (j.process s fs).output = (j.process s S).output := by
  have hsame := isStale_congr j.force h.directory hd h.unlinked hobject hresult
  cases hst : j.layout.isStale S s j.force with
  | true =>
    rw [process_of_stale hst, process_of_stale (hsame.trans hst), analyze_output, analyze_output, h.call_eq]
  | false =>
    have hl : fs.Unlinked (d ++ [j.entry s]) := fun t => by rw [hresult]; exact h.unlinked _ t
    obtain ⟨-, _, _, _, hn, hp⟩ := process_of_fresh h.directory (h.unlinked _) hst
    obtain ⟨-, _, _, _, hn', hp'⟩ := process_of_fresh hd hl (hsame.trans hst)
    cases hn'.symm.trans (hresult.trans hn)
    rw [hp, hp']

/-- **Done in turn, jobs have the outputs that they have alone.** -/
theorem Sheltered.work_outputs (h : j.Sheltered S d) (alive : Nat) : ∀ {sources : List Path} {fs : FileSystem},
    (sources.map j.entry).Nodup → DirectoryAt fs j.layout.objectsDir d →
    (∀ s ∈ sources, fs.node? (d ++ [objectName s]) = S.node? (d ++ [objectName s]) ∧
      fs.node? (d ++ [j.entry s]) = S.node? (d ++ [j.entry s])) →
    (∀ s ∈ sources, (j.process s S).output ≠ none) →
    (Dispatch.work j (alive + 1) sources fs).outputs = sources.filterMap fun s => (j.process s S).output
  | [], fs, _, _, _, _ => rfl
  | s :: sources, fs, hapart, hd, hsame, houtput => by
    obtain ⟨hobject, hresult⟩ := hsame s List.mem_cons_self
    have hl : fs.Unlinked (d ++ [j.entry s]) := fun t => by rw [hresult]; exact h.unlinked _ t
    obtain ⟨hd', hnode, -⟩ := process_frame h.spares hd hl
    rw [List.map_cons, List.nodup_cons] at hapart
    -- those after it find their entries as they were
    have hsame' : ∀ t ∈ sources,
        (j.process s fs).fs.node? (d ++ [objectName t]) = S.node? (d ++ [objectName t]) ∧
          (j.process s fs).fs.node? (d ++ [j.entry t]) = S.node? (d ++ [j.entry t]) := by
      intro t ht
      obtain ⟨hobject', hresult'⟩ := hsame t (List.mem_cons_of_mem s ht)
      have hne : j.entry t ≠ j.entry s := fun he => hapart.1 (he ▸ List.mem_map_of_mem ht)
      exact ⟨(hnode _ (resultName_ne_objectName _ _ _).symm).trans hobject', (hnode _ hne).trans hresult'⟩
    have ih := h.work_outputs alive hapart.2 hd' hsame' fun t ht => houtput t (List.mem_cons_of_mem s ht)
    obtain ⟨o, ho⟩ := Option.ne_none_iff_exists'.1 (houtput s List.mem_cons_self)
    have ho' : (j.process s fs).output = some o := (h.process_congr hd hobject hresult).trans ho
    simp only [Dispatch.work_cons, ho', Option.isSome_some, if_true, ih, List.filterMap_cons, ho]
    rfl

end Job

namespace Pool
variable {j : Job} {jobs : Nat} {before S : FileSystem} {d : Address} {sources : List Path} {sink : Sink}

/-- **Whatever the order of their operations, jobs end as they would alone.**  For sources with different results, in an
objects directory without links: every run returns in the end, and then each job has the output that it has alone on
the files `S` that the record step left, has made the same calls, and its result holds the same text.  The analyzer was
called once where it must be called, and where not, the kept result was shown or said to be there. -/
theorem ended_as_alone (hrecord : Record.update before j.layout.recordPath j.configuration = (.ok j.force, S))
    (hlinkless : ∀ d name, DirectoryAt S j.layout.objectsDir d → S.Unlinked (d ++ [name]))
    (hapart : (sources.map j.layout.resultPath).Nodup)
    (hdates : ∀ s ∈ sources, ∀ t, S.modified? (j.layout.resultPath s) = some t → t.civilText? ≠ none)
    (hspares : j.analyzer.Spares j.layout.objectsDir)
    (hanswers : ∀ argv fs fs', (j.analyzer argv fs).1 = (j.analyzer argv fs').1)
    (hcrash : ∀ argv fs, (j.analyzer argv fs).1 ≠ .crashed) (hjobs : 0 < jobs) {p : Pool Shared (Path × JobStage)}
    (h : Reaches j.machine jobs j.force (start jobs sources sink ⟨S, []⟩) p) :
    (∃ q, Reaches j.machine jobs j.force p q ∧ ∃ e, q.ending = some e) ∧
    ∀ e, p.ending = some e →
      p.ended.Perm (sources.map fun s => (s, (j.process s S).output)) ∧
      p.written.Perm (sources.filterMap fun s => (j.process s S).output) ∧
      ∀ s ∈ sources, ∃ o, (j.process s S).output = some o ∧
        p.world.callsFor s = (j.process s S).calls ∧
        (∀ content, p.world.fs.read (j.layout.resultPath s) = .ok content ↔
          (j.process s S).fs.read (j.layout.resultPath s) = .ok content) ∧
        (j.MustCall s S → p.world.callsFor s = [j.commandLine s]) ∧
        (¬j.MustCall s S → p.world.callsFor s = [] ∧ o.outcome = if j.onlyLatest then .skipped else .cached) := by
  obtain ⟨d, hd⟩ := Record.directoryAt_of_update hrecord
  have hs : j.Sheltered S d := ⟨hd, fun name => hlinkless d name hd, hspares, hanswers⟩
  refine ⟨exists_returned hjobs j.ranked_machine p, fun e he => ?_⟩
  have houtput : ∀ s ∈ sources, (j.process s S).output ≠ none :=
    fun s hmem => hs.output_ne_none (hcrash _ _) (hdates s hmem)
  obtain ⟨hended, hwritten, hends⟩ := hs.ended_perm (Job.nodup_entries hapart) houtput hjobs h he
  refine ⟨hended, hwritten, fun s hmem => ?_⟩
  obtain ⟨o, ho⟩ := Option.ne_none_iff_exists'.1 (houtput s hmem)
  have hst := hends (s, (j.process s S).output) (hended.mem_iff.2 (List.mem_map_of_mem hmem))
  have hcalls := hst.of_ended.2.1
  refine ⟨o, ho, hcalls, hs.read_ended hst, fun hmust => ?_, fun hnot => ?_⟩
  · rw [hcalls, hs.process_calls (Job.mustCall_iff.1 hmust)]
  · have hfresh : j.layout.isStale S s j.force = false := by
      rw [Job.mustCall_iff] at hnot
      exact Bool.eq_false_iff.2 hnot
    refine ⟨?_, hs.outcome_of_fresh hfresh ho⟩
    rw [hcalls, Job.process_calls hs.directory (hs.unlinked _), hfresh]
    rfl

/-- A run that does its jobs in turn writes what every other run writes, up to the order. -/
theorem written_perm_work (hs : j.Sheltered S d) (hapart : (sources.map j.layout.resultPath).Nodup)
    (houtput : ∀ s ∈ sources, (j.process s S).output ≠ none) (hjobs : 0 < jobs) {p : Pool Shared (Path × JobStage)}
    (h : Reaches j.machine jobs j.force (start jobs sources sink ⟨S, []⟩) p) {e : RunEnd} (he : p.ending = some e) :
    p.written.Perm (Dispatch.work j jobs sources S).outputs := by
  have hentries := Job.nodup_entries hapart
  obtain ⟨alive, rfl⟩ := Nat.exists_eq_add_one_of_ne_zero (Nat.pos_iff_ne_zero.1 hjobs)
  rw [hs.work_outputs alive hentries hs.directory (fun s _ => ⟨rfl, rfl⟩) houtput]
  exact (hs.ended_perm hentries houtput hjobs h he).2.1

end Pool

/-! ## Two sources, one of them with a fresh result -/

namespace Sample
open Pool

def kept : FileSystem :=
  (recorded plain).store ["o", resultName layout.key source] (Utf8.encode "kept\n") false

def pairJob : Job := ⟨plain, layout, analyzer, false, false, .cacheAlways⟩

def newSource : Path := ⟨"a.m"⟩

theorem directoryAt_recorded : DirectoryAt (recorded plain) layout.objectsDir ["o"] :=
  directoryAt_files.of_keepsWays (Storable.keepsWays _ _ (.inl (by rfl)))

theorem done_kept : Done plain kept := by
  have hnone : (recorded plain).node? ["o", resultName layout.key source] = none := by
    rw [recorded, node?_store_of_ne _ _ _ (by decide)]
    rfl
  refine ⟨directoryAt_recorded.of_keepsWays (Storable.keepsWays _ _ (.inl hnone)), ⟨1, false, ?_⟩, ?_, _, false,
    node?_store_self _ _ _ (by simp)⟩
  · exact (node?_store_of_ne _ _ _ (by decide)).trans (node?_store_self _ _ _ (by simp))
  · exact (node?_store_of_ne _ _ _ (by decide)).trans (node?_store_of_ne _ _ _ (by decide))

/-- The record step finds the configuration unchanged; there are no links, and nothing of the other source. -/
theorem update_kept : ∃ S, Record.update kept layout.recordPath plain = (.ok false, S) ∧ Done plain S ∧
    (∀ name, S.Unlinked (["o"] ++ [name])) ∧ S.node? ["o", objectName newSource] = none ∧
    S.node? ["o", resultName layout.key newSource] = none := by
  obtain ⟨S, hu, hS⟩ := done_kept.recordStep plain
  obtain ⟨t, x, hr⟩ := done_kept.record
  have hstore := Record.update_of_file (c := plain) done_kept.directory fits_record hr (Utf8.decode?_encode _)
  rw [bne_self_eq_false] at hu hstore
  obtain rfl := (Prod.mk.inj (hu.symm.trans hstore)).2
  have hfiles : ∀ name, files.Unlinked (["o"] ++ [name]) := by
    intro name target ht
    rw [List.singleton_append, node?_files] at ht
    split at ht <;> cases ht
  refine ⟨_, hu, hS, fun name => (((hfiles name).store _ _ _).store _ _ _).store _ _ _, ?_, ?_⟩
  · rw [node?_store_of_ne _ _ _ (by decide), kept, node?_store_of_ne _ _ _ (by decide), recorded,
      node?_store_of_ne _ _ _ (by decide)]
    rfl
  · rw [node?_store_of_ne _ _ _ (by decide), kept, node?_store_of_ne _ _ _ (by decide), recorded,
      node?_store_of_ne _ _ _ (by decide)]
    rfl

end Sample

section
open Sample Pool

theorem ended_as_alone_kept : ∃ S p, Record.update kept layout.recordPath plain = (.ok false, S) ∧
    Reaches pairJob.machine 2 false (start 2 [newSource, source] .good ⟨S, []⟩) p ∧ (∃ e, p.ending = some e) ∧
    p.world.callsFor newSource = [plain.commandLine [newSource]] ∧ p.world.callsFor source = [] ∧
    ∃ o, (source, some o) ∈ p.ended ∧ o.outcome = .cached := by
  obtain ⟨S, hu, hS, hl, hobject, hresult⟩ := update_kept
  have hnew (t : Timestamp) : S.modified? (layout.resultPath newSource) ≠ some t := by
    intro ht
    obtain ⟨-, content, x, hn⟩ := (modified?_join hS.directory (isName_resultName _ _) (hl _) t).1 ht
    cases hresult.symm.trans hn
  have hlinkless : ∀ d name, DirectoryAt S layout.objectsDir d → S.Unlinked (d ++ [name]) := by
    intro d name hd
    rw [← hS.directory.unique hd]
    exact hl name
  have hdates : ∀ s ∈ [newSource, source], ∀ t, S.modified? (layout.resultPath s) = some t → t.civilText? ≠ none := by
    intro s hs t ht
    simp only [List.mem_cons, List.not_mem_nil, or_false] at hs
    rcases hs with rfl | rfl
    · exact absurd ht (hnew t)
    · obtain ⟨-, content, x, hn⟩ := (modified?_join hS.directory (isName_resultName _ _) (hl _) t).1 ht
      obtain ⟨content', x', hn'⟩ := hS.result
      cases hn'.symm.trans hn
      decide
  have hall {p : Pool Shared (Path × JobStage)}
      (h : Reaches pairJob.machine 2 false (start 2 [newSource, source] .good ⟨S, []⟩) p) :=
    ended_as_alone (j := pairJob) hu hlinkless (by decide) hdates (Analyzer.spares_ofFunction _ _)
      (fun _ _ _ => rfl) (fun _ _ hc => by cases hc) (by decide) h
  obtain ⟨p, hp, e, he⟩ := (hall .refl).1
  obtain ⟨hended, -, hsources⟩ := (hall hp).2 e he
  have hmust : pairJob.MustCall newSource S := by
    refine .inr (.inr (.inl ?_))
    rw [Job.isFile_eq]
    exact Option.isSome_eq_false_iff.2 (Option.isNone_iff_eq_none.2 (Option.eq_none_iff_forall_ne_some.2 hnew))
  have hnot : ¬pairJob.MustCall source S := by
    rw [Job.mustCall_iff]
    exact fun hstale => absurd (hS.fresh.symm.trans hstale) (by decide)
  obtain ⟨_, -, -, -, hcall, -⟩ := hsources newSource (by simp)
  obtain ⟨o, ho, -, -, -, hfresh⟩ := hsources source (by simp)
  refine ⟨S, p, hu, hp, ⟨e, he⟩, hcall hmust, (hfresh hnot).1, o, ?_, (hfresh hnot).2⟩
  rw [hended.mem_iff, ← ho]
  exact List.mem_map_of_mem (by simp)

end
end Recheck
