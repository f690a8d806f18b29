import Recheck.Proofs.Dispatch.Forcing
/-!
# Records of any bytes

A record that holds some text, damaged or not, is compared and replaced (`PastRun.Takes.record_of_text`).  So it costs
one forced run at most: the next run of the same configuration is not forced (`PastRun.Takes.next_not_forced`).  A record
whose bytes are no text is an error.  The record step touches nothing then, so neither that run nor any later one comes
to its jobs, until somebody else takes the record away (`Chronicle.stuck`).
-/
namespace Recheck
open FileSystem CacheLayout

/-! ## A record that is text -/

namespace PastRun.Takes
variable {r q : PastRun} {c : Course} {text : String}

/-- A run that finds a text for its record gets past its record step, and is forced unless the text is its
fingerprint. -/
theorem record_of_text (hc : r.Takes c) (hr : r.before.read r.layout.recordPath = .ok (Utf8.encode text)) :
    r.recordStep.1 = .ok (text != r.configuration.fingerprint) ∧
      ∀ path e, c.report.ending ≠ .failed (.record path e) := by
  obtain ⟨S, hs, -⟩ := Record.update_of_text hr r.configuration
  have hstep : r.recordStep = (.ok (text != r.configuration.fingerprint), S) := hs
  refine ⟨by rw [hstep], fun path e hend => ?_⟩
  obtain ⟨S', hs'⟩ := hc.of_record_failed hend
  rw [hstep] at hs'
  cases hs'

/-- **The next run of the same configuration is not forced.** -/
theorem next_not_forced (hc : r.Takes c) (hr : r.before.read r.layout.recordPath = .ok (Utf8.encode text))
    (hl : r.before.Linkless r.layout.objectsDir)
    (hspares : ∀ argv fs, SparesRecord r.layout.objectsDir fs (r.analyzer argv fs).2)
    (hb : SparesRecord r.layout.objectsDir c.report.fs q.before) (ho : q.layout.objectsDir = r.layout.objectsDir)
    (hq : q.configuration.fingerprint = r.configuration.fingerprint) : q.recordStep.1 = .ok false := by
  have hstart : Follows r.layout.objectsDir (some text) r.before := by
    refine ⟨hl, fun content => ?_⟩
    rw [show r.before.read (r.layout.objectsDir.join ⟨recordName⟩) = _ from hr]
    simp [eq_comm]
  obtain ⟨S, hs, -⟩ := Record.update_of_text hr r.configuration
  have hafter := (hc.follows_of_ok hs rfl hspares hstart).spares hb
  have hread : q.before.read q.layout.recordPath = .ok (Utf8.encode r.configuration.fingerprint) := by
    rw [recordPath, ho]
    exact (hafter.record _).2 ⟨_, rfl, rfl⟩
  obtain ⟨S', hs', -⟩ := Record.update_of_text hread q.configuration
  rw [show q.recordStep = _ from hs', hq, bne_self_eq_false]

end PastRun.Takes

/-! ## A record that is none -/

/-- **Where the record is no text, every run fails and leaves the files as they were**, whatever else is done to them in
between. -/
theorem Chronicle.stuck {objects : Path} {fs₀ fs : FileSystem} {trips : List (PastRun × Course)} {content : ByteArray}
    (h : Chronicle objects (SparesRecord objects) fs₀ trips fs)
    (hr : fs₀.read (objects.join ⟨recordName⟩) = .ok content) (hno : Utf8.decode? content = none) :
    fs.read (objects.join ⟨recordName⟩) = .ok content ∧
      ∀ t ∈ trips, t.2.report =
        ⟨.failed (.record (objects.join ⟨recordName⟩) .notText), [], t.1.sink, t.1.before⟩ := by
  induction h with
  | start => exact ⟨hr, fun t ht => absurd ht List.not_mem_nil⟩
  | between _ hb ih => exact ⟨(hb.record content).2 ih.1, ih.2⟩
  | @run trips r c _ ho hc ih =>
    obtain ⟨hread, hall⟩ := ih
    subst ho
    have hs : r.recordStep = (.error .notText, r.before) := Record.update_of_notText hread hno r.configuration
    have hreport := hc.of_error hs
    refine ⟨by rw [hreport]; exact hread, fun t ht => ?_⟩
    rcases List.mem_cons.1 ht with rfl | ht
    · exact hreport
    · exact hall t ht

/-- **What a record of any bytes does to runs.**  A text is compared with the fingerprint, byte for byte, and replaced
by it, so the second of two runs of one configuration is not forced.  Bytes that are no text are left, and every run
fails. -/
theorem record_of_any_bytes {fs : FileSystem} {l : CacheLayout} {content : ByteArray}
    (h : fs.read l.recordPath = .ok content) :
    (∀ text, content = Utf8.encode text →
      (∀ c : Configuration, ∃ force S, Record.update fs l.recordPath c = (.ok force, S) ∧
        (force = false ↔ content = Utf8.encode c.fingerprint) ∧
        S.read l.recordPath = .ok (Utf8.encode c.fingerprint) ∧ (Record.update S l.recordPath c).1 = .ok false) ∧
      ∀ (r : PastRun) (c : Course), r.before = fs → r.layout.objectsDir = l.objectsDir → r.Takes c →
        (r.Forced ↔ content ≠ Utf8.encode r.configuration.fingerprint) ∧
        (∀ path e, c.report.ending ≠ .failed (.record path e)) ∧
        ∀ q : PastRun, fs.Linkless l.objectsDir →
          (∀ argv fs, SparesRecord l.objectsDir fs (r.analyzer argv fs).2) →
          SparesRecord l.objectsDir c.report.fs q.before → q.layout.objectsDir = l.objectsDir →
          q.configuration.fingerprint = r.configuration.fingerprint → q.recordStep.1 = .ok false) ∧
    ((∀ text, content ≠ Utf8.encode text) →
      (∀ c : Configuration, Record.update fs l.recordPath c = (.error .notText, fs)) ∧
      ∀ trips fs', Chronicle l.objectsDir (SparesRecord l.objectsDir) fs trips fs' → ∀ t ∈ trips,
        t.2.report = ⟨.failed (.record l.recordPath .notText), [], t.1.sink, t.1.before⟩) := by
  constructor
  · rintro text rfl
    constructor
    · intro c
      obtain ⟨S, hs, hread⟩ := Record.update_of_text h c
      obtain ⟨S', hs', -⟩ := Record.update_of_text hread c
      refine ⟨_, S, hs, ?_, hread, by rw [hs', bne_self_eq_false]⟩
      rw [Utf8.encode_inj, bne_eq_false_iff_eq]
    · rintro r c rfl ho hc
      have hread : r.before.read r.layout.recordPath = .ok (Utf8.encode text) := by
        rw [recordPath, ho]
        exact h
      obtain ⟨hstep, hend⟩ := hc.record_of_text hread
      refine ⟨?_, hend, fun q hl hspares hb hq hf => ?_⟩
      · rw [PastRun.Forced, hstep, ne_eq, Utf8.encode_inj]
        simp
      · rw [← ho] at hl hspares hb hq
        exact hc.next_not_forced hread hl hspares hb hq hf
  · intro hno
    have hnone := Utf8.decode?_eq_none_iff.2 hno
    exact ⟨Record.update_of_notText h hnone, fun trips fs' hc => (hc.stuck h hnone).2⟩

/-! ## A record cut short, and one that is no text -/

namespace Sample

/-- The objects directory of the sample with some bytes for its record. -/
def withRecord (content : ByteArray) : FileSystem := files.store ["o", recordName] content false

theorem storable_record : files.Storable ["o", recordName] := .inl rfl

theorem linkless_withRecord (content : ByteArray) : (withRecord content).Linkless layout.objectsDir :=
  linkless_files.extends (storable_record.extends content false)

theorem read_withRecord (content : ByteArray) : (withRecord content).read layout.recordPath = .ok content := by
  have hd : DirectoryAt (withRecord content) layout.objectsDir ["o"] :=
    directoryAt_files.of_keepsWays (storable_record.keepsWays content false)
  have hl := (linkless_withRecord content).unlinked hd recordName
  refine (read_join_iff hd isName_recordName hl content).2 ⟨fits_record, ?_⟩
  exact content?_eq_some_iff.2 ⟨_, _, node?_store_self _ _ _ storable_record.ne_nil⟩

theorem sparesRecord_run (c : Configuration) (sources : List Path) (fs : FileSystem) (argv : List String)
    (fs' : FileSystem) : SparesRecord layout.objectsDir fs' ((run c sources fs).analyzer argv fs').2 :=
  ⟨fun _ => .rfl, fun hl => hl⟩

def noText : ByteArray := ⟨#[0xff]⟩

theorem decode?_noText : Utf8.decode? noText = none := by decide +kernel

end Sample

section
open Sample

theorem record_of_any_bytes_cut :
    (run plain [source] (withRecord (Utf8.encode "["))).Forced ∧
    (run plain [source] (run plain [source] (withRecord (Utf8.encode "["))).report.fs).recordStep.1 = .ok false ∧
    Record.update (withRecord noText) layout.recordPath plain = (.error .notText, withRecord noText) := by
  obtain ⟨htext, -⟩ := record_of_any_bytes (read_withRecord (Utf8.encode "["))
  obtain ⟨-, hno⟩ := record_of_any_bytes (read_withRecord noText)
  obtain ⟨hforced, -, hnext⟩ := (htext "[" rfl).2 (run plain [source] (withRecord (Utf8.encode "["))) _ rfl rfl .inTurn
  have hother : "[" ≠ plain.fingerprint := by decide
  refine ⟨hforced.2 fun he => hother (Utf8.encode_inj.1 he), ?_, ?_⟩
  · exact hnext (run plain [source] (run plain [source] (withRecord (Utf8.encode "["))).report.fs)
      (linkless_withRecord _) (sparesRecord_run _ _ _) ⟨fun _ => .rfl, fun hl => hl⟩ rfl rfl
  · exact (hno (Utf8.decode?_eq_none_iff.1 decode?_noText)).1 plain

/-- **A record that is no text stops runs for good.**  The second run of a configuration fails as the first one did,
although each run is to replace the record. -/
theorem stuck_on_no_text :
    (withRecord noText).read layout.recordPath = .ok noText ∧
    Record.update (withRecord noText) layout.recordPath plain = (.error .notText, withRecord noText) ∧
    (run plain [source] (withRecord noText)).report =
      ⟨.failed (.record layout.recordPath .notText), [], .good, withRecord noText⟩ ∧
    (run plain [source] (run plain [source] (withRecord noText)).report.fs).report.ending =
      .failed (.record layout.recordPath .notText) := by
  have hread := read_withRecord noText
  have hstep : Record.update (withRecord noText) layout.recordPath plain = (.error .notText, withRecord noText) :=
    Record.update_of_notText hread decode?_noText plain
  have hreport : (run plain [source] (withRecord noText)).report =
      ⟨.failed (.record layout.recordPath .notText), [], .good, withRecord noText⟩ := Dispatch.run_of_error hstep
  refine ⟨hread, hstep, hreport, ?_⟩
  rw [hreport]
  exact congrArg RunReport.ending hreport

end
end Recheck
