import Recheck.Configuration
import Recheck.Text.Quoted
/-!
# Invocations

The command line of a configuration for given files, and the fingerprint of a configuration.  The order of the pieces is
fixed, since a stored fingerprint is compared with later ones: analyzer, files, `--`, then the options.  The fingerprint
is the command line without files, written as a list of quoted texts, so that no two different command lines share one.
-/
namespace Recheck

def Arg.tokens : Arg → List String
  | token t  => [t]
  | group ts => ts

/-- The tokens of pieces, in order. -/
def flatten (args : List Arg) : List String := args.flatMap Arg.tokens

namespace Configuration

def pair (flag value : String) : Arg := .group [flag, value]

def switch (on : Bool) (flag : String) : List Arg := if on then [.token flag] else []

/-- The pieces after the `--`. -/
def options (c : Configuration) : List Arg :=
  [pair "-resource-dir" c.resourceDir.text, pair "-x" "objective-c"] ++
  (c.sysroot.map fun p => pair "-isysroot" p.text).toList ++
  [.token (if c.arc then "-fobjc-arc" else "-fno-objc-arc"),
   .token (if c.modules then "-fmodules" else "-fno-modules")] ++
  switch c.assertionsBlocked "-DNS_BLOCK_ASSERTIONS=1" ++
  switch c.debug "-debug" ++
  c.filters.map (pair "-filter") ++
  c.headers.map (fun h => pair h.kind.flag h.path.text) ++
  (c.arch.map (pair "-arch")).toList ++
  c.otherFlags

/-- The pieces of the command line for `files`. -/
def render (c : Configuration) (files : List Path) : List Arg :=
  .token c.analyzer.text :: (files.map fun f => .token f.text) ++ .token "--" :: c.options

/-- The command line for `files`. -/
def commandLine (c : Configuration) (files : List Path) : List String := flatten (c.render files)

/-- A text that tells configurations with different command lines apart. -/
def fingerprint (c : Configuration) : String :=
  String.ofList (Quoted.encodeList ((c.commandLine []).map String.toList))

end Configuration
end Recheck
