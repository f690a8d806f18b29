import Recheck.Cache.Layout
import Recheck.Toml.Reader
/-!
# Settings

The file `nullarihyon.toml` beside a project: how runs are dispatched, flags for the analyzer, and the sources of targets.
Keys that mean nothing here are passed over.  A table with known keys may also be given as the array of their values in
order.  What is asked for on the command line comes before what the file says, and that before the defaults.
-/
namespace Recheck

/-- The table `[dispatch]`. -/
structure DispatchSettings where
  jobs : Option Nat
  onlyLatest : Bool
  cacheFailures : Option Bool
  cacheKey : CacheKey
  timeoutSecs : Option Nat
  deriving DecidableEq

structure Settings where
  dispatch : DispatchSettings
  /-- Flags that come after those of the build settings. -/
  flags : List String
  /-- The sources of each target. -/
  targets : List (String × List Path)
  deriving DecidableEq

/-- Why there are no settings. -/
inductive SettingsError where
  | unreadable (cause : IoError)
  /-- Not a document, or a value of the wrong kind. -/
  | malformed
  /-- A number that must be at least one is zero. -/
  | zero (key : String)
  deriving DecidableEq

/-- The text shown for a failure, as far as it is the same for every malformed document. -/
def SettingsError.message : SettingsError → String
  | unreadable cause => "Failed to read settings file: " ++ cause.message
  | malformed        => "Failed to parse TOML:"
  | zero key         => "Validation error: dispatch." ++ key ++ " must be at least 1"

inductive FailurePolicy where
  /-- It is kept like any other. -/
  | cacheAlways
  /-- The result from before is left in place. -/
  | skipFailures
  deriving DecidableEq, Repr

/-- How a run is dispatched.  Without a number of jobs the machine's own is taken. -/
structure DispatchOptions where
  jobs : Option Nat
  onlyLatest : Bool
  failurePolicy : FailurePolicy
  deriving DecidableEq

namespace DispatchSettings

def default : DispatchSettings := ⟨none, false, none, .basename, none⟩

end DispatchSettings

namespace Settings

open Toml (Value Entries)

def default : Settings := ⟨.default, [], []⟩

def fileName : String := "nullarihyon.toml"

/-! ## Values of the expected kinds -/

def readCount : Value → Option Nat
  | .integer i => if 0 ≤ i then some i.toNat else none
  | _          => none

def readFlag : Value → Option Bool
  | .boolean b => some b
  | _          => none

def readString : Value → Option String
  | .string s => some s
  | _         => none

def readStrings : Value → Option (List String)
  | .array _ vs => vs.mapM readString
  | _           => none

def cacheKeyNamed? : String → Option CacheKey
  | "basename"  => some .basename
  | "path-hash" => some .pathHash
  | _           => none

def isEmptyValue : Value → Bool
  | .table _ es => es.isEmpty
  | .array _ vs => vs.isEmpty
  | _           => false

/-- A cache key by its name, or as a table of one name with nothing in it. -/
def readCacheKey : Value → Option CacheKey
  | .string s            => cacheKeyNamed? s
  | .table _ [(name, v)] => if isEmptyValue v then cacheKeyNamed? name else none
  | _                    => none

/-! ## Tables of known keys -/

/-- The value of a key, or `absent` if there is none. -/
def field (es : Entries) (key : String) (read : Value → Option α) (absent : Option α) : Option α :=
  match es.lookup key with
  | some v => read v
  | none   => absent

/-- The value at a place of an array, or `absent` if the array ends before it. -/
def place (vs : List Value) (i : Nat) (read : Value → Option α) (absent : Option α) : Option α :=
  match vs[i]? with
  | some v => read v
  | none   => absent

/-- A table of which each key may be missing, or an array of its values, of which only some may be missing at the end.
A date counts as a table without known keys. -/
def readDispatch : Value → Option DispatchSettings
  | .table _ es => do
    let jobs ← field es "jobs" (fun v => (readCount v).map some) (some none)
    let onlyLatest ← field es "only_latest" readFlag (some false)
    let cacheFailures ← field es "cache_failures" (fun v => (readFlag v).map some) (some none)
    let cacheKey ← field es "cache_key" readCacheKey (some .basename)
    let timeoutSecs ← field es "timeout_secs" (fun v => (readCount v).map some) (some none)
    return ⟨jobs, onlyLatest, cacheFailures, cacheKey, timeoutSecs⟩
  | .array _ vs => do
    let jobs ← place vs 0 readCount none
    let onlyLatest ← place vs 1 readFlag (some false)
    let cacheFailures ← place vs 2 readFlag none
    let cacheKey ← place vs 3 readCacheKey (some .basename)
    let timeoutSecs ← place vs 4 readCount none
    return ⟨some jobs, onlyLatest, some cacheFailures, cacheKey, some timeoutSecs⟩
  | .datetime _ => some .default
  | _           => none

/-- A table with one list of strings under `key`, or an array that starts with the list. -/
def readListTable (key : String) : Value → Option (List String)
  | .table _ es => field es key readStrings (some [])
  | .array _ vs => place vs 0 readStrings (some [])
  | .datetime _ => some []
  | _           => none

def readTargets : Value → Option (List (String × List Path))
  | .table _ es => es.mapM fun (name, v) =>
      (readListTable "sources" v).map fun sources => (name, sources.map Path.mk)
  | _ => none

def ofEntries (es : Entries) : Option Settings := do
  let dispatch ← field es "dispatch" readDispatch (some .default)
  let flags ← field es "analyzer" (readListTable "flags") (some [])
  let targets ← field es "targets" readTargets (some [])
  return ⟨dispatch, flags, targets⟩

/-- The settings, if every number in them makes sense. -/
def validate (s : Settings) : Except SettingsError Settings :=
  if s.dispatch.jobs = some 0 then .error (.zero "jobs")
  else if s.dispatch.timeoutSecs = some 0 then .error (.zero "timeout_secs")
  else .ok s

def parse (text : String) : Except SettingsError Settings :=
  match (Toml.parse? text).bind ofEntries with
  | some s => validate s
  | none   => .error .malformed

/-! ## Settings of a project -/

def ofFile (fs : FileSystem) (path : Path) : Except SettingsError Settings :=
  match fs.readText path with
  | .ok text => parse text
  | .error e => .error (.unreadable e)

/-- The settings beside a project, the defaults if there are none. -/
def ofProject (fs : FileSystem) (project : Path) : Except SettingsError Settings :=
  let path := project.directory.join fileName
  if fs.isFile path then ofFile fs path else .ok default

/-- The options of a run, given what is asked for on the command line. -/
def dispatchOptions (s : Settings) (jobs : Option Nat) (onlyLatest : Bool) : DispatchOptions where
  jobs := (jobs <|> s.dispatch.jobs).map (max 1)
  onlyLatest := onlyLatest || s.dispatch.onlyLatest
  failurePolicy := if s.dispatch.cacheFailures.getD true then .cacheAlways else .skipFailures

end Settings
end Recheck
