import Recheck.Cache.Layout
import Recheck.Invocation
/-!
# The record of the last configuration

An objects directory holds the fingerprint of the configuration that was used last.  Every run compares its own with the
record and replaces it, whether they differ or not.  Where they differ no kept result can be relied on.
-/
namespace Recheck.Record

/-- What stands for a missing record; it is no fingerprint. -/
def absent : String := "(no such configuration)"

def load (fs : FileSystem) (record : Path) : Except IoError String :=
  match fs.readText record with
  | .ok s            => .ok s
  | .error .notFound => .ok absent
  | .error e         => .error e

/-- The directory of the record is made if it is missing. -/
def makeDirectory (fs : FileSystem) (record : Path) : Except IoError Unit × FileSystem :=
  match record.parent? with
  | some directory => fs.makeDirectories directory
  | none           => (.ok (), fs)

/-- Replaces the record by the fingerprint of a configuration, and says whether the two differ. -/
def update (fs : FileSystem) (record : Path) (c : Configuration) : Except IoError Bool × FileSystem :=
  match load fs record with
  | .error e     => (.error e, fs)
  | .ok previous =>
    match makeDirectory fs record with
    | (.error e, fs') => (.error e, fs')
    | (.ok _, fs')    =>
      match fs'.write record (Utf8.encode c.fingerprint) with
      | .error e  => (.error e, fs')
      | .ok fs''  => (.ok (previous != c.fingerprint), fs'')

end Recheck.Record
