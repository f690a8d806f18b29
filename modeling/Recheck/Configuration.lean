import Recheck.FileSystem.Walk
/-!
# Analyzer configurations

The options of an analysis run: where the analyzer and its resource directory are, and what is passed on to it.  A
configuration is made from two paths that lead somewhere, kept without links, and then changed option by option
(`Change`).
-/
namespace Recheck

inductive HeaderKind where
  | plain
  | framework
  | quote
  | system
  deriving DecidableEq, Repr

def HeaderKind.flag : HeaderKind → String
  | plain     => "-I"
  | framework => "-F"
  | quote     => "-iquote"
  | system    => "-isystem"

/-- A directory or map of headers, and how it is searched. -/
structure HeaderSearch where
  kind : HeaderKind
  path : Path
  deriving DecidableEq

/-- A piece of a command line: one token, or tokens that stay together. -/
inductive Arg where
  | token (t : String)
  | group (ts : List String)
  deriving DecidableEq, Repr

structure Configuration where
  analyzer : Path
  resourceDir : Path
  sysroot : Option Path
  arc : Bool
  modules : Bool
  assertionsBlocked : Bool
  debug : Bool
  arch : Option String
  filters : List String
  headers : List HeaderSearch
  otherFlags : List Arg
  deriving DecidableEq

inductive ToolPath where
  | analyzer
  | resourceDir
  deriving DecidableEq, Repr

def ToolPath.name : ToolPath → String
  | analyzer    => "analyzer"
  | resourceDir => "resource directory"

/-- A path that does not lead anywhere. -/
structure UnresolvedPath where
  role : ToolPath
  path : Path
  cause : IoError
  deriving DecidableEq

def UnresolvedPath.message (u : UnresolvedPath) : String :=
  "cannot resolve " ++ u.role.name ++ " path " ++ u.path.text ++ ": " ++ u.cause.message

inductive Change where
  | sysroot (path : Option Path)
  | arc (on : Bool)
  | modules (on : Bool)
  | assertionsBlocked (on : Bool)
  | debug (on : Bool)
  | arch (name : Option String)
  | addFilter (name : String)
  | addHeader (kind : HeaderKind) (path : Path)
  | addFlag (flag : String)
  | addGroup (flags : List String)
  deriving DecidableEq

namespace Configuration

/-- A path without links, or why it does not lead anywhere. -/
def resolve (fs : FileSystem) (role : ToolPath) (path : Path) : Except UnresolvedPath Path :=
  match fs.canonical path with
  | .ok p    => .ok p
  | .error e => .error ⟨role, path, e⟩

/-- The configuration with nothing but defaults. -/
def ofTools (analyzer resourceDir : Path) : Configuration where
  analyzer := analyzer
  resourceDir := resourceDir
  sysroot := none
  arc := true
  modules := true
  assertionsBlocked := true
  debug := false
  arch := none
  filters := []
  headers := []
  otherFlags := []

/-- The default configuration for an analyzer and its resource directory, which must both be there. -/
def make (fs : FileSystem) (analyzer resourceDir : Path) : Except UnresolvedPath Configuration :=
  match resolve fs .analyzer analyzer with
  | .error e => .error e
  | .ok a    =>
    match resolve fs .resourceDir resourceDir with
    | .error e => .error e
    | .ok r    => .ok (ofTools a r)

/-- The piece that flags kept together are stored as: nothing for none, a token for one. -/
def groupArgs : List String → List Arg
  | []  => []
  | [t] => [.token t]
  | ts  => [.group ts]

def apply (c : Configuration) : Change → Configuration
  | .sysroot path         => { c with sysroot := path }
  | .arc on               => { c with arc := on }
  | .modules on           => { c with modules := on }
  | .assertionsBlocked on => { c with assertionsBlocked := on }
  | .debug on             => { c with debug := on }
  | .arch name            => { c with arch := name }
  | .addFilter name       => { c with filters := c.filters ++ [name] }
  | .addHeader kind path  => { c with headers := c.headers ++ [⟨kind, path⟩] }
  | .addFlag flag         => { c with otherFlags := c.otherFlags ++ [.token flag] }
  | .addGroup flags       => { c with otherFlags := c.otherFlags ++ groupArgs flags }

def applyAll (c : Configuration) (changes : List Change) : Configuration := changes.foldl apply c

end Configuration
end Recheck
