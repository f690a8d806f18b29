import Recheck.FileSystem.Access
import Recheck.Text.Lowercase
/-!
# SDKs of an Xcode installation

The SDKs below a developer directory, by their names in lower case.  Platforms are gone through in a fixed order and the
SDKs of each by name; one that comes later takes the place of an earlier one of the same name.  Where no SDK is called
`macosx`, the last of those whose names go on with a digit stands for it.
-/
namespace Recheck.Sdk

def platforms : List String := ["AppleTVSimulator", "MacOSX", "WatchSimulator", "iPhoneSimulator"]

def directoryOf (developerDir : Path) (platform : String) : Path :=
  (((developerDir.join ⟨"Platforms"⟩).join ⟨platform ++ ".platform"⟩).join ⟨"Developer"⟩).join ⟨"SDKs"⟩

/-- The SDKs in a directory, by name. -/
def inDirectory (fs : FileSystem) (directory : Path) : List Path :=
  match fs.list directory with
  | .error _    => []
  | .ok entries =>
    (((entries.map Prod.fst).filter fun name => (Path.mk name).hasExtension "sdk").mergeSort (· ≤ ·)).map
      fun name => directory.join ⟨name⟩

def keyOf (sdk : Path) : String := lowercase (String.ofList (sdk.stem?.getD []))

/-- Names with paths, sorted by name. -/
abbrev Table := List (String × Path)

/-- The table with a path under a name, in place of one that is there. -/
def Table.insert (name : String) (path : Path) : Table → Table
  | [] => [(name, path)]
  | (n, p) :: rest =>
    if name = n then (name, path) :: rest
    else if name < n then (name, path) :: (n, p) :: rest
    else (n, p) :: Table.insert name path rest

def all (fs : FileSystem) (developerDir : Path) : List Path :=
  platforms.flatMap fun platform => inDirectory fs (directoryOf developerDir platform)

def named (fs : FileSystem) (developerDir : Path) : Table :=
  (all fs developerDir).foldl (fun t sdk => t.insert (keyOf sdk) sdk) []

def aliasName : String := "macosx"

/-- A name that goes on with a digit after `macosx`. -/
def isVersioned (name : String) : Bool :=
  let rest := name.toList.drop aliasName.length
  aliasName.toList.isPrefixOf name.toList && (rest.head?.map Char.isDigit).getD false

/-- The table with the alias, if it is needed and there is an SDK for it. -/
def withAlias (t : Table) : Table :=
  if (t.lookup aliasName).isSome then t
  else match (t.filter fun e => isVersioned e.1).getLast? with
    | some (_, path) => t.insert aliasName path
    | none           => t

def table (fs : FileSystem) (developerDir : Path) : Table := withAlias (named fs developerDir)

/-- The path of the SDK of a name, in whatever case. -/
def find? (fs : FileSystem) (developerDir : Path) (name : String) : Option Path :=
  (table fs developerDir).lookup (lowercase name)

end Recheck.Sdk
