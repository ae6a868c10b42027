import Pipework.Evaluator
import Pipework.Pipe.Build

/-! Why a run cannot be started, taken up or carried on. -/

namespace Pipework

inductive RunError where
  | unknownPipe (id : String)
  | node (pipe : String) (index : Nat) (node run : String) (source : NodeError)
  | mapping (pipe run : String) (source : NodeError)
  | switchCaseNotFound (pipe node run : String)
  | gotoTargetNotFound (pipe target run : String)
  | emptyStream (pipe : String) (index : Nat) (node run raw : String)
  | stepLimitExceeded (run : String) (limit : Nat)
  | cancelled (run : String)
  | resumeNotFound (id : String)
  | resumeInUse (id : String)
  | notSuspended (run : String)
  deriving DecidableEq, Repr

namespace RunError

def atNode (pipe : String) (index : Nat) (name run : String) : String :=
  "pipe '" ++ pipe ++ "' node #" ++ Nat.repr index ++ " '" ++ name ++ "' (context " ++ run ++ "): "

def atPipe (pipe run : String) : String := "pipe '" ++ pipe ++ "' (context " ++ run ++ "): "

def message : RunError → String
  | unknownPipe id => "unknown pipe '" ++ id ++ "'"
  | node pipe index name run source => atNode pipe index name run ++ source.message
  | mapping pipe run source => atPipe pipe run ++ source.message
  | switchCaseNotFound pipe name run =>
    "pipe '" ++ pipe ++ "' node '" ++ name ++ "' (context " ++ run ++ "): switch case not found"
  | gotoTargetNotFound pipe target run =>
    atPipe pipe run ++ "goto target '" ++ target ++ "' not found"
  | emptyStream pipe index name run raw => atNode pipe index name run ++ "empty stream: " ++ raw
  | stepLimitExceeded run limit =>
    "context " ++ run ++ " exceeded " ++ Nat.repr limit ++ " node dispatches"
  | cancelled run => "context " ++ run ++ " cancelled"
  | resumeNotFound id => "resume context '" ++ id ++ "' not found"
  | resumeInUse id => "resume context '" ++ id ++ "' is already being resumed"
  | notSuspended run => "context " ++ run ++ " is not suspended"

end RunError

end Pipework
