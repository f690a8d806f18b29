import Recheck.PreparedRun
import Recheck.Proofs.FileSystem.Entries
/-!
# The stages of preparing

What each stage that succeeds has found, up to the whole prepared run (`prepare_eq_ok_iff`).
-/
namespace Recheck
open FileSystem

namespace BuildEnv

section
variable {env : BuildEnv} {name value : String}

theorem require_eq_ok_iff : env.require name = .ok value ↔ env.nonempty? name = some value := by
  unfold require
  cases env.nonempty? name <;> simp

theorem get?_of_require (h : env.require name = .ok value) : env.get? name = some value := by
  have hne : (env.get? name).filter (!·.isEmpty) = some value := require_eq_ok_iff.1 h
  exact (Option.filter_eq_some_iff.1 hne).1

end
end BuildEnv

namespace XcodeTarget

section
variable {env : BuildEnv} {t : XcodeTarget}

theorem ofEnv_ok (h : ofEnv env = .ok t) :
    t.env = env ∧ env.require "PROJECT_FILE_PATH" = .ok t.project.text ∧ env.require "TARGETNAME" = .ok t.name := by
  unfold ofEnv at h
  split at h
  · cases h
  · rename_i project hproject
    split at h <;> cases h
    rename_i name hname
    exact ⟨rfl, hproject, hname⟩

theorem configuration_eq_ok_iff {fs : FileSystem} {analyzer resourceDir : Path} {debug : Bool}
    {extraFlags : List String} {c : Configuration} :
    t.configuration fs analyzer resourceDir debug extraFlags = .ok c ↔
      ∃ made filters objects arch, Configuration.make fs analyzer resourceDir = .ok made ∧ t.filters fs = .ok filters ∧
        t.objectsDir = .ok objects ∧ t.arch = .ok arch ∧
        c = made.applyAll (t.changes fs debug extraFlags filters objects arch) := by
  constructor
  · intro h
    unfold configuration at h
    split at h
    · cases h
    · rename_i made hmade
      split at h
      · cases h
      · rename_i filters hfilters
        split at h
        · cases h
        · rename_i objects hobjects
          split at h <;> cases h
          rename_i arch harch
          exact ⟨made, filters, objects, arch, hmade, hfilters, hobjects, harch, rfl⟩
  · rintro ⟨made, filters, objects, arch, hmade, hfilters, hobjects, harch, rfl⟩
    simp only [configuration, hmade, hfilters, hobjects, harch]

end
end XcodeTarget

namespace PreparedRun

/-- **What a prepared run is made of.** -/
theorem prepare_eq_ok_iff {fs : FileSystem} {request : RunRequest} {env : BuildEnv} {p : PreparedRun} :
    prepare fs request env = .ok p ↔
      ∃ t s, XcodeTarget.ofEnv env = .ok t ∧ settingsFor fs request t.project = .ok s ∧
        t.configuration fs request.analyzer request.resourceDir request.debug s.flags = .ok p.configuration ∧
        SourceList.ofTarget t.env s t.project t.name = .listed p.sources ∧ t.objectsDir = .ok p.layout.objectsDir ∧
        p.layout.key = s.dispatch.cacheKey ∧ p.options = s.dispatchOptions request.jobs request.onlyLatest ∧
        p.timeoutSecs = s.dispatch.timeoutSecs := by
  constructor
  · intro h
    unfold prepare at h
    split at h
    · cases h
    · rename_i t ht
      split at h
      · cases h
      · rename_i s hs
        unfold ofTarget at h
        split at h
        · cases h
        · rename_i configuration hc
          split at h
          · cases h
          · cases h
          · rename_i sources hsources
            split at h <;> cases h
            rename_i objects hobjects
            exact ⟨t, s, ht, hs, hc, hsources, hobjects, rfl, rfl, rfl⟩
  · obtain ⟨configuration, ⟨objects, key⟩, sources, options, timeoutSecs⟩ := p
    rintro ⟨t, s, ht, hs, hc, hsources, hobjects, rfl, rfl, rfl⟩
    simp only [prepare, ht, hs, ofTarget, hc, hsources, hobjects]

end PreparedRun

/-! ## A build on a small file system -/

namespace Sample

/-- A root directory with an analyzer and its resources. -/
def bench : FileSystem := ⟨[(["clang"], .file .empty 0 true), (["res"], .directory)], [], 1, []⟩

def request : RunRequest := ⟨⟨"/clang"⟩, ⟨"/res"⟩, none, false, false, none⟩

/-- The build settings of a target with one source. -/
def build (objects arch : String) : BuildEnv :=
  ⟨[("PROJECT_FILE_PATH", "/App.xcodeproj"), ("TARGETNAME", "App"), ("variant", "normal"),
    ("OBJECT_FILE_DIR_normal", objects), ("arch", arch), ("SCRIPT_INPUT_FILE_COUNT", "1"),
    ("SCRIPT_INPUT_FILE_0", "b.m")]⟩

theorem directoryAt_root (fs : FileSystem) : DirectoryAt fs ⟨"/"⟩ [] :=
  ⟨linkLimit, .skip (.inl rfl) (.skip (.inl rfl) .here)⟩

/-- A name that an entry of the root directory can have. -/
abbrev RootName (name : Name) : Prop := IsName name ∧ Fits ⟨"/"⟩ name

theorem stat_bench {name : Name} (h : RootName name) (hl : bench.Unlinked [name]) :
    bench.stat (Path.join ⟨"/"⟩ ⟨name⟩) =
      match bench.node? [name] with
      | none      => .error .notFound
      | some node => .ok ([name], node) :=
  stat_join (directoryAt_root bench) h.1 h.2 hl

theorem isFile_bench {name : Name} (h : RootName name) (hn : bench.node? [name] = none) :
    bench.isFile (Path.join ⟨"/"⟩ ⟨name⟩) = false := by
  have hl : bench.Unlinked [name] := fun target ht => by rw [hn] at ht; cases ht
  rw [isFile, stat_bench h hl, hn]

theorem make_bench : Configuration.make bench request.analyzer request.resourceDir =
    .ok (.ofTools request.analyzer request.resourceDir) := by
  have hclang : RootName "clang" := ⟨⟨by decide, by decide, by decide, by decide⟩, by decide, by decide, by decide⟩
  have hres : RootName "res" := ⟨⟨by decide, by decide, by decide, by decide⟩, by decide, by decide, by decide⟩
  have hanalyzer : bench.stat request.analyzer = .ok (["clang"], .file .empty 0 true) :=
    stat_bench hclang fun _ h => by cases h
  have hresource : bench.stat request.resourceDir = .ok (["res"], .directory) :=
    stat_bench hres fun _ h => by cases h
  unfold Configuration.make Configuration.resolve canonical
  rw [hanalyzer, hresource]
  rfl

theorem ofProject_bench : Settings.ofProject bench ⟨"/App.xcodeproj"⟩ = .ok .default := by
  have hname : RootName Settings.fileName :=
    ⟨⟨by decide, by decide, by decide, by decide⟩, by decide, by decide, by decide⟩
  have hnone : bench.isFile ((Path.directory ⟨"/App.xcodeproj"⟩).join Settings.fileName) = false :=
    isFile_bench hname rfl
  unfold Settings.ofProject
  simp only [hnone, Bool.false_eq_true, if_false]

theorem ofDirectory_bench : Filters.ofDirectory bench ⟨"/"⟩ = .ok [] := by
  have hname : RootName Filters.fileName :=
    ⟨⟨by decide, by decide, by decide, by decide⟩, by decide, by decide, by decide⟩
  have hnone : bench.isFile (Path.join ⟨"/"⟩ Filters.fileName) = false := isFile_bench hname rfl
  unfold Filters.ofDirectory
  simp only [hnone, Bool.false_eq_true, if_false]

/-- A build without settings and without filters is prepared, if its objects directory and its sources are known. -/
theorem prepare_bench {t : XcodeTarget} {r : RunRequest} {objects : Path} {arch : String} {sources : List Path}
    (ht : XcodeTarget.ofEnv t.env = .ok t) (hproject : t.project = ⟨"/App.xcodeproj"⟩)
    (ho : t.objectsDir = .ok objects) (ha : t.arch = .ok arch)
    (hsources : SourceList.ofTarget t.env .default t.project t.name = .listed sources) (hsettings : r.settings = none)
    (hanalyzer : r.analyzer = request.analyzer) (hresource : r.resourceDir = request.resourceDir) :
    ∃ p, PreparedRun.prepare bench r t.env = .ok p ∧ p.layout = ⟨objects, .basename⟩ ∧ p.sources = sources := by
  have hs : PreparedRun.settingsFor bench r t.project = .ok .default := by
    rw [PreparedRun.settingsFor, hsettings, hproject, ofProject_bench]
  have hfilters : t.filters bench = .ok [] := by
    rw [XcodeTarget.filters, XcodeTarget.projectDir, hproject]
    exact ofDirectory_bench
  have hmake : Configuration.make bench r.analyzer r.resourceDir =
      .ok (.ofTools request.analyzer request.resourceDir) := by
    rw [hanalyzer, hresource, make_bench]
  obtain ⟨c, hc⟩ : ∃ c, t.configuration bench r.analyzer r.resourceDir r.debug Settings.default.flags = .ok c :=
    ⟨_, XcodeTarget.configuration_eq_ok_iff.2 ⟨_, _, _, _, hmake, hfilters, ho, ha, rfl⟩⟩
  refine ⟨⟨c, ⟨objects, .basename⟩, sources, Settings.default.dispatchOptions r.jobs r.onlyLatest, none⟩, ?_, rfl, rfl⟩
  exact PreparedRun.prepare_eq_ok_iff.2 ⟨t, .default, ht, hs, hc, hsources, ho, rfl, rfl, rfl⟩

end Sample
end Recheck
