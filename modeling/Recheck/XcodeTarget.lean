import Recheck.BuildEnv
import Recheck.Configuration
import Recheck.Filters
/-!
# The target of a build phase

What the environment of an Xcode build phase says about the target being built, and the analyzer configuration made from
it.  The order in which options are added is part of the fingerprint, so it is fixed here.
-/
namespace Recheck

/-- Why there is no configuration for a target. -/
inductive TargetError where
  | missing (setting : MissingSetting)
  | unresolved (path : UnresolvedPath)
  | filters (path : Path) (cause : IoError)
  deriving DecidableEq

def TargetError.message : TargetError → String
  | missing setting    => setting.message
  | unresolved path    => path.message
  | filters path cause => "failed to read " ++ path.text ++ ": " ++ cause.message

/-- The build settings of a target, with the two that it cannot be without. -/
structure XcodeTarget where
  env : BuildEnv
  project : Path
  name : String

namespace XcodeTarget

def ofEnv (env : BuildEnv) : Except MissingSetting XcodeTarget :=
  match env.require "PROJECT_FILE_PATH" with
  | .error e    => .error e
  | .ok project =>
    match env.require "TARGETNAME" with
    | .error e => .error e
    | .ok name => .ok ⟨env, ⟨project⟩, name⟩

def projectDir (t : XcodeTarget) : Path := t.project.directory

def arch (t : XcodeTarget) : Except MissingSetting String := t.env.require "arch"

def objectsSetting (variant : String) : String := "OBJECT_FILE_DIR_" ++ variant

/-- The objects directory of the variant and architecture being built. -/
def objectsDir (t : XcodeTarget) : Except MissingSetting Path :=
  match t.env.require "variant" with
  | .error e    => .error e
  | .ok variant =>
    match t.env.require (objectsSetting variant) with
    | .error e => .error e
    | .ok base =>
      match t.arch with
      | .error e => .error e
      | .ok arch => .ok (Path.join ⟨base⟩ ⟨arch⟩)

def sysroot? (t : XcodeTarget) : Option Path := (t.env.nonempty? "SDKROOT").map Path.mk

def headerPaths (t : XcodeTarget) : List Path := (t.env.tokens "HEADER_SEARCH_PATHS").map Path.mk

def frameworkPaths (t : XcodeTarget) : List Path := (t.env.tokens "FRAMEWORK_SEARCH_PATHS").map Path.mk

def otherFlags (t : XcodeTarget) : List String := t.env.tokens "OTHER_CFLAGS"

def arc (t : XcodeTarget) : Bool := t.env.isYes "CLANG_ENABLE_OBJC_ARC"

def modules (t : XcodeTarget) : Bool := t.env.isYes "CLANG_ENABLE_MODULES"

def definitions (t : XcodeTarget) : List String := t.env.tokens "GCC_PREPROCESSOR_DEFINITIONS"

/-- The prefix header, if the target compiles one beforehand. -/
def prefixHeader? (t : XcodeTarget) : Option Path :=
  if t.env.isYes "GCC_PRECOMPILE_PREFIX_HEADER" then (t.env.nonempty? "GCC_PREFIX_HEADER").map Path.mk else none

/-- The names of the header maps among entries of a directory: regular files, links not followed. -/
def headerMapNames (entries : List (Name × Node)) : List Name :=
  entries.filterMap fun (name, node) =>
    match node with
    | .file .. => if (Path.mk name).hasExtension "hmap" then some name else none
    | _        => none

/-- The header maps that the build made, by name. -/
def headerMaps (t : XcodeTarget) (fs : FileSystem) : List Path :=
  match t.env.nonempty? "TARGET_TEMP_DIR" with
  | none           => []
  | some directory =>
    match fs.list ⟨directory⟩ with
    | .error _    => []
    | .ok entries => ((headerMapNames entries).mergeSort (· ≤ ·)).map fun name => Path.join ⟨directory⟩ ⟨name⟩

def filters (t : XcodeTarget) (fs : FileSystem) : Except IoError (List String) := Filters.ofDirectory fs t.projectDir

/-- The flags for the prefix header, if it is there. -/
def prefixHeaderFlags (t : XcodeTarget) (fs : FileSystem) : List String :=
  match t.prefixHeader? with
  | none        => []
  | some header =>
    let path := t.projectDir.join header
    if fs.isFile path then ["-include", path.text] else []

/-- The changes that make the configuration of the target out of the default one. -/
def changes (t : XcodeTarget) (fs : FileSystem) (debug : Bool) (extraFlags filters : List String) (objects : Path)
    (arch : String) : List Change :=
  [.sysroot t.sysroot?, .arc t.arc, .modules t.modules, .assertionsBlocked true, .debug debug] ++
  filters.map .addFilter ++
  t.frameworkPaths.map (.addHeader .framework) ++
  t.headerPaths.map (.addHeader .plain) ++
  [.addHeader .plain objects] ++
  (t.headerMaps fs).map (.addHeader .plain) ++
  [.arch (some arch)] ++
  t.otherFlags.map .addFlag ++
  t.definitions.map (fun d => .addFlag ("-D" ++ d)) ++
  [.addGroup (t.prefixHeaderFlags fs)] ++
  extraFlags.map .addFlag

/-- The configuration for the target; `extraFlags` come last. -/
def configuration (t : XcodeTarget) (fs : FileSystem) (analyzer resourceDir : Path) (debug : Bool)
    (extraFlags : List String) : Except TargetError Configuration :=
  match Configuration.make fs analyzer resourceDir with
  | .error e => .error (.unresolved e)
  | .ok c    =>
    match t.filters fs with
    | .error e    => .error (.filters (t.projectDir.join Filters.fileName) e)
    | .ok filters =>
      match t.objectsDir with
      | .error e    => .error (.missing e)
      | .ok objects =>
        match t.arch with
        | .error e => .error (.missing e)
        | .ok arch => .ok (c.applyAll (t.changes fs debug extraFlags filters objects arch))

end XcodeTarget
end Recheck
