import Recheck.FileSystem.Access
import Recheck.Sha256
/-!
# The layout of the cache

Everything that belongs to a source lies in the objects directory, under names made from the stem of the source: the
object file that the build makes, and the result of the last analysis.  Two sources of one stem share an object file;
their results are kept apart only by the layout that puts a digest of the whole path into the name.
-/
namespace Recheck

inductive CacheKey where
  /-- By the stem. -/
  | basename
  /-- By the stem and a digest of the path. -/
  | pathHash
  deriving DecidableEq, Repr

structure CacheLayout where
  objectsDir : Path
  key : CacheKey
  deriving DecidableEq

/-- A result read from the cache, and when it was written. -/
structure CachedResult where
  text : String
  modified : Timestamp
  deriving DecidableEq

namespace CacheLayout

def resultExtension : String := "null"

def objectExtension : String := "o"

def recordName : String := "nullarihyon.config"

/-- The stem of a source, empty if it has none. -/
def stem (source : Path) : String := String.ofList (source.stem?.getD [])

def pathDigest (source : Path) : String :=
  String.ofList ((Sha256.hex (Sha256.digest (Utf8.encode source.text).data.toList)).take 16)

def objectName (source : Path) : String := stem source ++ "." ++ objectExtension

def resultName : CacheKey → Path → String
  | .basename, source => stem source ++ "." ++ resultExtension
  | .pathHash, source => stem source ++ "-" ++ pathDigest source ++ "." ++ resultExtension

def objectPath (l : CacheLayout) (source : Path) : Path := l.objectsDir.join (objectName source)

def resultPath (l : CacheLayout) (source : Path) : Path := l.objectsDir.join (resultName l.key source)

def recordPath (l : CacheLayout) : Path := l.objectsDir.join recordName

end CacheLayout

/-- Whether a result must be made anew: always when forced, else when the object file or the result is missing, or when
the object file is the younger of the two. -/
def isStale (fs : FileSystem) (object result : Path) (force : Bool) : Bool :=
  force || match fs.modified? object, fs.modified? result with
    | some o, some r => r < o
    | _, _           => true

/-- A result read from its file; nothing if there is no file.  Bytes that are not text are replaced. -/
def CachedResult.read (fs : FileSystem) (result : Path) : Except IoError (Option CachedResult) :=
  match fs.stat result with
  | .ok (_, .file content modified _) => .ok (some ⟨Utf8.decodeLossy content, modified⟩)
  | .ok _                             => .error .isADirectory
  | .error .notFound                  => .ok none
  | .error e                          => .error e

namespace CacheLayout

/-- Whether a source must be analyzed. -/
def isStale (l : CacheLayout) (fs : FileSystem) (source : Path) (force : Bool) : Bool :=
  Recheck.isStale fs (l.objectPath source) (l.resultPath source) force

def read (l : CacheLayout) (fs : FileSystem) (source : Path) : Except IoError (Option CachedResult) :=
  CachedResult.read fs (l.resultPath source)

def write (l : CacheLayout) (fs : FileSystem) (source : Path) (text : String) : Except IoError FileSystem :=
  fs.write (l.resultPath source) (Utf8.encode text)

end CacheLayout
end Recheck
