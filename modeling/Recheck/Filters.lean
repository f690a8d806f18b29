import Recheck.FileSystem.Access
/-!
# Diagnostic filters

The file `nullfilter` beside a project names what the analyzer reports on, one name a line.  A `#` starts a comment; white
space around a name and lines without a name do not count.
-/
namespace Recheck

namespace Filters

def fileName : String := "nullfilter"

/-- The name on a line, empty if there is none.  A carriage return before the line's end is white space like any
other. -/
def nameOfLine (line : List Char) : List Char := trimBlank (line.takeWhile (· != '#'))

def parse (text : List Char) : List (List Char) := ((splitOn '\n' text).map nameOfLine).filter (!·.isEmpty)

/-- `parse` on strings. -/
def parseText (text : String) : List String := (parse text.toList).map String.ofList

/-- The filters of a directory; none if it has no filter file. -/
def ofDirectory (fs : FileSystem) (directory : Path) : Except IoError (List String) :=
  let path := directory.join fileName
  if fs.isFile path then (fs.readText path).map parseText else .ok []

end Filters
end Recheck
