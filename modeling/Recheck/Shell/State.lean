import Recheck.FileSystem.Access
import Recheck.Shell.Script
/-!
# The state of a shell

What a running script sees and changes: files, variables, its arguments, the time that has passed, what it has printed.
Output is kept in pieces with the descriptors and the times they were written at, so that what goes to one pipe comes out
of it in order, also what commands in the background wrote.
-/
namespace Recheck.Shell

inductive Flow where
  | next
  /-- The shell ends. -/
  | exit
  /-- The shell was killed by a signal. -/
  | killed (signal : Nat)
  /-- The time allowed has run out. -/
  | timedOut
  /-- The given number of loops end. -/
  | leave (loops : Nat)
  /-- The last of the given number of loops goes on with its next round. -/
  | again (loops : Nat)
  /-- The function ends. -/
  | back
  deriving DecidableEq, Repr

structure Output where
  descriptor : Nat
  /-- When it was written, in milliseconds. -/
  time : Nat
  bytes : List UInt8
  deriving DecidableEq

structure State where
  fs : FileSystem
  vars : List (String × String)
  /-- The variables that are passed on to programs. -/
  exported : List String
  functions : List (String × Command)
  /-- The name that the shell was called by. -/
  name : String
  /-- The line of the command that runs. -/
  line : Nat
  args : List String
  status : Nat
  /-- Milliseconds since the start. -/
  elapsed : Nat
  /-- Milliseconds from the start to the end of the last background command. -/
  busyUntil : Nat
  /-- The milliseconds allowed. -/
  limit : Option Nat
  input : List UInt8
  /-- What was written, latest first. -/
  out : List Output
  flow : Flow
  /-- A failing command ends the shell. -/
  strict : Bool
  /-- A parameter that is unset ends the shell. -/
  needsSet : Bool
  /-- What is done at a signal; the signal 0 is the end of the shell. -/
  traps : List (Nat × String)

namespace State

def bytesOf (s : String) : List UInt8 := (Utf8.encode s).data.toList

def textOf (bytes : List UInt8) : String := Utf8.decodeLossy ⟨bytes.toArray⟩

def emit (st : State) (descriptor : Nat) (bytes : List UInt8) : State :=
  if bytes.isEmpty then st else { st with out := ⟨descriptor, st.elapsed, bytes⟩ :: st.out }

def print (st : State) (s : String) : State := st.emit 1 (bytesOf s)

def complain (st : State) (s : String) : State := st.emit 2 (bytesOf s)

def withStatus (st : State) (status : Nat) : State := { st with status := status }

def succeed (st : State) (b : Bool) : State := st.withStatus (if b then 0 else 1)

def report (st : State) (s : String) : State :=
  st.complain (st.name ++ ": " ++ Nat.repr st.line ++ ": " ++ s ++ "\n")

/-- The output in the order it was written; where time ran out, as far as it was written by then. -/
def ordered (st : State) : List Output :=
  let all := st.out.reverse.mergeSort fun a b => a.time ≤ b.time
  match st.flow, st.limit with
  | .timedOut, some l => all.filter (·.time < l)
  | _, _              => all

def collected (st : State) (descriptor : Nat) : List UInt8 :=
  (st.ordered.filter (·.descriptor == descriptor)).flatMap Output.bytes

def allOutput (st : State) : List UInt8 := st.ordered.flatMap Output.bytes

def var? (st : State) (name : String) : Option String := st.vars.lookup name

def setVar (st : State) (name value : String) : State :=
  { st with vars := (name, value) :: st.vars.filter (·.1 != name) }

def unsetVar (st : State) (name : String) : State := { st with vars := st.vars.filter (·.1 != name) }

/-- Time passes up to a point, or up to the limit. -/
def passUntil (st : State) (time : Nat) : State :=
  match st.limit with
  | some l => if l ≤ time then { st with elapsed := l, flow := .timedOut } else { st with elapsed := max st.elapsed time }
  | none   => { st with elapsed := max st.elapsed time }

def environment (st : State) : List (String × String) := st.vars.filter fun v => st.exported.contains v.1

end State
end Recheck.Shell
