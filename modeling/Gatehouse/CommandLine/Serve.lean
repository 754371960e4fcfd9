import Gatehouse.CommandLine.Arguments
import Gatehouse.Config.File

/-!
# Starting the gateway

The gateway takes one option, the path of its configuration file, which may also stand in the
environment. Without a file it runs as it is by default.

* `Serve.path?` : the path that the arguments give;
* `Serve.start` : the configuration to run with, or how the process ends.
-/

namespace Gatehouse.CommandLine

/-- How a process ends: its exit code, and what it has written. -/
structure Exit where
  code : Nat
  output : String
  error : String
  deriving DecidableEq, Repr

namespace Serve

def configFlag : Flag := ⟨"config", 'c'⟩

def path? (args : List String) (environment : Option String) : Reading (Option String) := do
  let (values, rest) ← read [configFlag] [] args
  match rest with
  | [] => return valueOf? values "config" environment
  | arg :: _ => .misunderstood (.unknown arg)

def usage : Exit := ⟨2, "", "Usage: gatehouse [--config <CONFIG>]\n"⟩

def failed (e : Config.LoadError) : Exit := ⟨1, "", "Error: " ++ .ofList e.detail ++ "\n"⟩

/-- The configuration to run with, from what was found at the path that was given. -/
def start [Idna] : Option (Except Config.FileProblem Text.Bytes) → Except Exit Config
  | none => .ok default
  | some found =>
    match Config.ofFile found with
    | .ok c => .ok c
    | .error e => .error (failed e)

end Serve

end Gatehouse.CommandLine
