import Recheck.BuildEnv
import Recheck.Settings
import Recheck.Text.Count
import Recheck.Text.Escaped
/-!
# Source lists

The sources of a target: the input files of the build phase when it declares any, and the list in the settings
otherwise.  Only files with the extension `m` count; order and repetitions are kept.
-/
namespace Recheck

/-- Why a target has no source list. -/
inductive SourcesError where
  | targetNotFound (target : String) (project : Path)
  | invalidCount (text : String)
  | missingInput (name : String)
  deriving DecidableEq

def SourcesError.message : SourcesError → String
  | targetNotFound target project => "Could not find target " ++ target ++ " in " ++ project.text
  | invalidCount text             => "invalid SCRIPT_INPUT_FILE_COUNT " ++ Escaped.encode text
  | missingInput name             => "script input " ++ name ++ " is not set"

inductive SourceList where
  | listed (sources : List Path)
  | failed (error : SourcesError)
  /-- The place for as many paths as announced cannot be had. -/
  | outOfMemory
  deriving DecidableEq

namespace SourceList

def sourceExtension : String := "m"

def isSource (p : Path) : Bool := p.hasExtension sourceExtension

def announced? (env : BuildEnv) : Option Nat :=
  (env.get? "SCRIPT_INPUT_FILE_COUNT").bind fun text => Count.parse? (trimBlank text.toList)

def hasScriptInputs (env : BuildEnv) : Bool :=
  match announced? env with
  | some n => 0 < n
  | none   => false

def inputName (index : Nat) : String := "SCRIPT_INPUT_FILE_" ++ Nat.repr index

/-- The sources among `count` script inputs from `index` on. -/
def collectInputs (env : BuildEnv) : Nat → Nat → Except SourcesError (List Path)
  | 0, _             => .ok []
  | count + 1, index =>
    match env.get? (inputName index) with
    | none       => .error (.missingInput (inputName index))
    | some value =>
      match collectInputs env count (index + 1) with
      | .ok rest => .ok (if isSource ⟨value⟩ then ⟨value⟩ :: rest else rest)
      | .error e => .error e

def pathBytes : Nat := 24

def allocationLimit : Nat := 0x7fffffffffffffff

/-- The sources among the script inputs.  They belong to the target of the running phase only. -/
def ofScriptInputs (env : BuildEnv) (project : Path) (target : String) : SourceList :=
  if env.get? "TARGETNAME" ≠ some target then .failed (.targetNotFound target project)
  else
    let text := (env.get? "SCRIPT_INPUT_FILE_COUNT").getD "0"
    match Count.parse? (trimBlank text.toList) with
    | none       => .failed (.invalidCount text)
    | some count =>
      if allocationLimit < count * pathBytes then .outOfMemory
      else match collectInputs env count 0 with
        | .ok sources => .listed sources
        | .error e    => .failed e

/-- The sources that the settings list for a target, as seen from the directory of the project. -/
def ofSettings (s : Settings) (project : Path) (target : String) : SourceList :=
  match s.targets.lookup target with
  | none         => .failed (.targetNotFound target project)
  | some sources => .listed ((sources.map project.directory.join).filter isSource)

def ofTarget (env : BuildEnv) (s : Settings) (project : Path) (target : String) : SourceList :=
  if hasScriptInputs env then ofScriptInputs env project target else ofSettings s project target

end SourceList
end Recheck
