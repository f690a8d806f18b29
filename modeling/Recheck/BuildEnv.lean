import Recheck.Tokens
/-!
# The build environment

The settings that a build passes on, as pairs of a name and a value.  A later pair replaces an earlier one of the same
name.
-/
namespace Recheck

/-- A setting that is needed is unset or empty. -/
structure MissingSetting where
  name : String
  deriving DecidableEq, Repr

def MissingSetting.message (m : MissingSetting) : String := "build setting " ++ m.name ++ " is not set"

structure BuildEnv where
  pairs : List (String × String)

namespace BuildEnv

def get? (env : BuildEnv) (name : String) : Option String := env.pairs.lookup name

def insert (env : BuildEnv) (name value : String) : BuildEnv :=
  ⟨(name, value) :: env.pairs.filter (·.1 != name)⟩

/-- The settings without one name. -/
def erase (env : BuildEnv) (name : String) : BuildEnv := ⟨env.pairs.filter (·.1 != name)⟩

/-- The settings of pairs of which a later one replaces an earlier one. -/
def ofList (pairs : List (String × String)) : BuildEnv := pairs.foldl (fun env p => env.insert p.1 p.2) ⟨[]⟩

/-- The value of a setting, if it is not empty. -/
def nonempty? (env : BuildEnv) (name : String) : Option String := (env.get? name).filter (!·.isEmpty)

/-- The value of a setting that must be there and not be empty. -/
def require (env : BuildEnv) (name : String) : Except MissingSetting String :=
  match env.nonempty? name with
  | some value => .ok value
  | none       => .error ⟨name⟩

def isYes (env : BuildEnv) (name : String) : Bool := env.get? name == some "YES"

/-- The tokens of a setting, none if it is unset. -/
def tokens (env : BuildEnv) (name : String) : List String := tokenizeSetting (env.get? name)

end BuildEnv
end Recheck
