import Recheck.Invocation
import Recheck.Proofs.Preparation.Stages
/-!
# What preparing a run reads

Of an environment preparing reads the settings that describe the target, among them one that is named by the value of
another (`SameTarget`), and the script inputs up to their announced number (`SameInputs`).  Environments that agree on
these are prepared alike (`prepare_congr`).  The configuration does not even depend on the script inputs, and of the
settings file only on the flags (`configuration_of_sameTarget`).
-/
namespace Recheck

/-- The settings that describe the target, other than the objects directory. -/
def XcodeTarget.settingNames : List String :=
  ["PROJECT_FILE_PATH", "TARGETNAME", "variant", "arch", "SDKROOT", "HEADER_SEARCH_PATHS", "FRAMEWORK_SEARCH_PATHS",
    "OTHER_CFLAGS", "CLANG_ENABLE_OBJC_ARC", "CLANG_ENABLE_MODULES", "GCC_PREPROCESSOR_DEFINITIONS",
    "GCC_PRECOMPILE_PREFIX_HEADER", "GCC_PREFIX_HEADER", "TARGET_TEMP_DIR"]

namespace BuildEnv

/-- Two environments describe the same target. -/
structure SameTarget (env env' : BuildEnv) : Prop where
  named : ∀ name ∈ XcodeTarget.settingNames, env'.get? name = env.get? name
  objects : ∀ variant, env.get? "variant" = some variant →
    env'.get? (XcodeTarget.objectsSetting variant) = env.get? (XcodeTarget.objectsSetting variant)

/-- Two environments announce the same script inputs. -/
structure SameInputs (env env' : BuildEnv) : Prop where
  count : env'.get? "SCRIPT_INPUT_FILE_COUNT" = env.get? "SCRIPT_INPUT_FILE_COUNT"
  input : ∀ count, SourceList.announced? env = some count → ∀ index < count,
    env'.get? (SourceList.inputName index) = env.get? (SourceList.inputName index)

section
variable {env env' : BuildEnv} {name : String}

theorem nonempty?_congr (h : env'.get? name = env.get? name) : env'.nonempty? name = env.nonempty? name := by
  unfold nonempty?
  rw [h]

theorem require_congr (h : env'.get? name = env.get? name) : env'.require name = env.require name := by
  unfold require
  rw [nonempty?_congr h]

theorem isYes_congr (h : env'.get? name = env.get? name) : env'.isYes name = env.isYes name := by
  unfold isYes
  rw [h]

theorem tokens_congr (h : env'.get? name = env.get? name) : env'.tokens name = env.tokens name := by
  unfold tokens
  rw [h]

end
end BuildEnv

open BuildEnv

/-! ## The target -/

namespace XcodeTarget

section
variable {env env' : BuildEnv} (h : SameTarget env env')
include h

theorem ofEnv_congr : ofEnv env' = (ofEnv env).map fun t => { t with env := env' } := by
  have hproject := require_congr (h.named "PROJECT_FILE_PATH" (by decide))
  have hname := require_congr (h.named "TARGETNAME" (by decide))
  unfold ofEnv
  rw [hproject, hname]
  cases env.require "PROJECT_FILE_PATH" with
  | error e => rfl
  | ok project => cases env.require "TARGETNAME" <;> rfl

variable (project : Path) (name : String)

theorem objectsDir_congr :
    (⟨env', project, name⟩ : XcodeTarget).objectsDir = (⟨env, project, name⟩ : XcodeTarget).objectsDir := by
  have harch := require_congr (h.named "arch" (by decide))
  unfold objectsDir arch
  rw [require_congr (h.named "variant" (by decide)), harch]
  cases hv : env.require "variant" with
  | error e => rfl
  | ok variant =>
    -- the value of the variant names the setting that is read next
    have hobjects := require_congr (h.objects variant (get?_of_require hv))
    simp only [hobjects]

theorem prefixHeaderFlags_congr (fs : FileSystem) :
    (⟨env', project, name⟩ : XcodeTarget).prefixHeaderFlags fs =
      (⟨env, project, name⟩ : XcodeTarget).prefixHeaderFlags fs := by
  have hprecompile := isYes_congr (h.named "GCC_PRECOMPILE_PREFIX_HEADER" (by decide))
  have hheader := nonempty?_congr (h.named "GCC_PREFIX_HEADER" (by decide))
  unfold prefixHeaderFlags prefixHeader?
  rw [hprecompile, hheader]
  rfl

theorem headerMaps_congr (fs : FileSystem) :
    (⟨env', project, name⟩ : XcodeTarget).headerMaps fs = (⟨env, project, name⟩ : XcodeTarget).headerMaps fs := by
  unfold headerMaps
  rw [nonempty?_congr (h.named "TARGET_TEMP_DIR" (by decide))]

theorem changes_congr (fs : FileSystem) (debug : Bool) (extraFlags filters : List String) (objects : Path)
    (arch : String) :
    (⟨env', project, name⟩ : XcodeTarget).changes fs debug extraFlags filters objects arch =
      (⟨env, project, name⟩ : XcodeTarget).changes fs debug extraFlags filters objects arch := by
  have hsysroot := nonempty?_congr (h.named "SDKROOT" (by decide))
  have hheaders := tokens_congr (h.named "HEADER_SEARCH_PATHS" (by decide))
  have hframeworks := tokens_congr (h.named "FRAMEWORK_SEARCH_PATHS" (by decide))
  have hflags := tokens_congr (h.named "OTHER_CFLAGS" (by decide))
  have harc := isYes_congr (h.named "CLANG_ENABLE_OBJC_ARC" (by decide))
  have hmodules := isYes_congr (h.named "CLANG_ENABLE_MODULES" (by decide))
  have hdefinitions := tokens_congr (h.named "GCC_PREPROCESSOR_DEFINITIONS" (by decide))
  unfold changes
  rw [prefixHeaderFlags_congr h project name fs, headerMaps_congr h project name fs]
  unfold sysroot? arc modules frameworkPaths headerPaths otherFlags definitions
  rw [hsysroot, hheaders, hframeworks, hflags, harc, hmodules, hdefinitions]

theorem configuration_congr (fs : FileSystem) (analyzer resourceDir : Path) (debug : Bool)
    (extraFlags : List String) :
    (⟨env', project, name⟩ : XcodeTarget).configuration fs analyzer resourceDir debug extraFlags =
      (⟨env, project, name⟩ : XcodeTarget).configuration fs analyzer resourceDir debug extraFlags := by
  have harch := require_congr (h.named "arch" (by decide))
  unfold configuration
  rw [objectsDir_congr h project name]
  unfold arch filters projectDir
  rw [harch]
  simp only [changes_congr h project name]

end
end XcodeTarget

/-! ## The sources -/

namespace SourceList

section
variable {env env' : BuildEnv}

theorem collectInputs_congr : ∀ {count index : Nat},
    (∀ i, index ≤ i → i < index + count → env'.get? (inputName i) = env.get? (inputName i)) →
    collectInputs env' count index = collectInputs env count index
  | 0, _, _ => rfl
  | count + 1, index, h => by
    have hfirst := h index (Nat.le_refl _) (by omega)
    have hrest : collectInputs env' count (index + 1) = collectInputs env count (index + 1) :=
      collectInputs_congr fun i hi hlt => h i (by omega) (by omega)
    rw [collectInputs, collectInputs, hfirst, hrest]

theorem hasScriptInputs_congr (h : SameInputs env env') : hasScriptInputs env' = hasScriptInputs env := by
  unfold hasScriptInputs announced?
  rw [h.count]

theorem ofScriptInputs_congr (h : SameInputs env env') (hname : env'.get? "TARGETNAME" = env.get? "TARGETNAME")
    (hhas : hasScriptInputs env = true) (project : Path) (target : String) :
    ofScriptInputs env' project target = ofScriptInputs env project target := by
  unfold ofScriptInputs
  rw [hname, h.count]
  cases hc : Count.parse? (trimBlank ((env.get? "SCRIPT_INPUT_FILE_COUNT").getD "0").toList) with
  | none => simp only [hc]
  | some count =>
    have hannounced : announced? env = some count := by
      unfold hasScriptInputs announced? at hhas
      unfold announced?
      cases ht : env.get? "SCRIPT_INPUT_FILE_COUNT" with
      | none => rw [ht] at hhas; cases hhas
      | some text =>
        rw [ht] at hc
        exact hc
    have hcollect : collectInputs env' count 0 = collectInputs env count 0 :=
      collectInputs_congr fun i _ hi => h.input count hannounced i (by omega)
    simp only [hc, hcollect]

theorem ofTarget_congr (h : SameInputs env env') (hname : env'.get? "TARGETNAME" = env.get? "TARGETNAME") (s : Settings)
    (project : Path) (target : String) : ofTarget env' s project target = ofTarget env s project target := by
  unfold ofTarget
  rw [hasScriptInputs_congr h]
  by_cases hhas : hasScriptInputs env = true
  · rw [if_pos hhas, if_pos hhas, ofScriptInputs_congr h hname hhas]
  · rw [if_neg hhas, if_neg hhas]

end
end SourceList

/-! ## Prepared runs -/

namespace PreparedRun

/-- The flags that the settings of a run ask for. -/
def flagsAsked? (fs : FileSystem) (request : RunRequest) (env : BuildEnv) : Option (List String) :=
  (XcodeTarget.ofEnv env).toOption.bind fun t => (settingsFor fs request t.project).toOption.map Settings.flags

section
variable {env env' : BuildEnv} (h : SameTarget env env')
include h

/-- **Environments that agree on what is read are prepared alike.** -/
theorem prepare_congr (hi : SameInputs env env') (fs : FileSystem) (request : RunRequest) :
    prepare fs request env' = prepare fs request env := by
  have hname := h.named "TARGETNAME" (by decide)
  unfold prepare
  rw [XcodeTarget.ofEnv_congr h]
  cases ht : XcodeTarget.ofEnv env with
  | error e => rfl
  | ok t =>
    obtain ⟨henv, -, -⟩ := XcodeTarget.ofEnv_ok ht
    obtain ⟨_, project, name⟩ := t
    subst henv
    dsimp only [Except.map]
    cases settingsFor fs request project with
    | error e => rfl
    | ok s =>
      unfold ofTarget
      simp only [XcodeTarget.configuration_congr h, XcodeTarget.objectsDir_congr h, SourceList.ofTarget_congr hi hname]

/-- **The configuration depends on nothing but the target, the two tools, the debug flag and the flags asked for.** -/
theorem configuration_of_sameTarget {fs : FileSystem} {request request' : RunRequest} {p p' : PreparedRun}
    (hanalyzer : request'.analyzer = request.analyzer) (hresource : request'.resourceDir = request.resourceDir)
    (hdebug : request'.debug = request.debug) (hflags : flagsAsked? fs request' env' = flagsAsked? fs request env)
    (hp : prepare fs request env = .ok p) (hp' : prepare fs request' env' = .ok p') :
    p'.configuration = p.configuration := by
  obtain ⟨t, s, ht, hs, hc, -⟩ := prepare_eq_ok_iff.1 hp
  obtain ⟨t', s', ht', hs', hc', -⟩ := prepare_eq_ok_iff.1 hp'
  have hsame : s'.flags = s.flags := by
    unfold flagsAsked? at hflags
    rw [ht, ht'] at hflags
    simpa [Except.toOption, hs, hs'] using hflags
  rw [XcodeTarget.ofEnv_congr h, ht] at ht'
  cases ht'
  obtain ⟨henv, -, -⟩ := XcodeTarget.ofEnv_ok ht
  obtain ⟨_, project, name⟩ := t
  subst henv
  dsimp only at hc'
  rw [XcodeTarget.configuration_congr h, hanalyzer, hresource, hdebug, hsame] at hc'
  exact Except.ok.inj (hc'.symm.trans hc)

end
end PreparedRun

open PreparedRun

/-- **Preparing reads the settings of the target and the script inputs, and the fingerprint does not read the script
inputs.**  Neither do the jobs asked for, the choice of the latest results only, or what the settings say besides the
flags make for another fingerprint. -/
theorem prepared_from_readings {env env' : BuildEnv} (h : SameTarget env env') (fs : FileSystem) :
    (SameInputs env env' → ∀ request, prepare fs request env' = prepare fs request env) ∧
    ∀ (request request' : RunRequest) (p p' : PreparedRun),
      request'.analyzer = request.analyzer → request'.resourceDir = request.resourceDir →
      request'.debug = request.debug → flagsAsked? fs request' env' = flagsAsked? fs request env →
      prepare fs request env = .ok p → prepare fs request' env' = .ok p' →
      p'.configuration.fingerprint = p.configuration.fingerprint := by
  constructor
  · intro hi request
    exact prepare_congr h hi fs request
  · intro request request' p p' hanalyzer hresource hdebug hflags hp hp'
    rw [configuration_of_sameTarget h hanalyzer hresource hdebug hflags hp hp']

/-! ## Two builds of one target -/

namespace Sample

/-- The same target with another script input, and with the objects directory of a variant that is not built. -/
def otherInput : BuildEnv :=
  ((build "/objs" "arm64").insert "SCRIPT_INPUT_FILE_0" "c.m").insert "OBJECT_FILE_DIR_debug" "/elsewhere"

/-- The same target and inputs, and a script input that is not announced. -/
def moreInputs : BuildEnv := (build "/objs" "arm64").insert "SCRIPT_INPUT_FILE_1" "c.m"

def hurried : RunRequest := { request with jobs := some 3, onlyLatest := true }

theorem sameTarget_otherInput : SameTarget (build "/objs" "arm64") otherInput :=
  ⟨by decide, fun _ h => by cases h; rfl⟩

theorem sameTarget_moreInputs : SameTarget (build "/objs" "arm64") moreInputs :=
  ⟨by decide, fun _ h => by cases h; rfl⟩

theorem sameInputs_moreInputs : SameInputs (build "/objs" "arm64") moreInputs := by
  refine ⟨rfl, fun count hc index hi => ?_⟩
  have hone : count = 1 := Option.some.inj (hc.symm.trans rfl)
  obtain rfl : index = 0 := by omega
  rfl

theorem flagsAsked?_otherInput :
    flagsAsked? bench hurried otherInput = flagsAsked? bench request (build "/objs" "arm64") := by
  unfold flagsAsked?
  rw [XcodeTarget.ofEnv_congr sameTarget_otherInput]
  rfl

end Sample

section
open Sample

theorem prepared_from_readings_objs :
    prepare bench request moreInputs = prepare bench request (build "/objs" "arm64") ∧
    ∃ p p', prepare bench request (build "/objs" "arm64") = .ok p ∧ prepare bench hurried otherInput = .ok p' ∧
      p.sources = [⟨"b.m"⟩] ∧ p'.sources = [⟨"c.m"⟩] ∧
      p'.configuration.fingerprint = p.configuration.fingerprint := by
  have hsame := prepared_from_readings sameTarget_moreInputs bench
  have hother := prepared_from_readings sameTarget_otherInput bench
  obtain ⟨p, hp, -, hsources⟩ := prepare_bench (t := ⟨build "/objs" "arm64", ⟨"/App.xcodeproj"⟩, "App"⟩) (r := request)
    rfl rfl rfl rfl rfl rfl rfl rfl
  obtain ⟨p', hp', -, hsources'⟩ := prepare_bench (t := ⟨otherInput, ⟨"/App.xcodeproj"⟩, "App"⟩) (r := hurried)
    rfl rfl rfl rfl rfl rfl rfl rfl
  exact ⟨hsame.1 sameInputs_moreInputs request, p, p', hp, hp', hsources, hsources',
    hother.2 request hurried p p' rfl rfl rfl flagsAsked?_otherInput hp hp'⟩

end
end Recheck
