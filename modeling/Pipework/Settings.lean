import Pipework.Json.Read

/-! The limits of an engine. -/

namespace Pipework

structure Settings where
  /-- Nodes that one call may run. -/
  maxSteps : Nat
  /-- Milliseconds that one call of a progress hook may take. -/
  hookTimeout : Nat
  /-- Chunks of a reply that may wait to be taken. -/
  chunkBuffer : Nat
  deriving DecidableEq, Repr

namespace Settings

def default : Settings := ⟨1000, 5000, 64⟩

def read : Doc.Reader Settings := fun levels d =>
  match Doc.readFields ["max_steps", "hook_timeout", "chunk_buffer"] levels d with
  | some (levels, [maxSteps, hookTimeout, chunkBuffer]) => do
    let maxSteps ← Doc.withDefault default.maxSteps Doc.readNat levels maxSteps
    let hookTimeout ← Doc.withDefault default.hookTimeout Doc.readNat levels hookTimeout
    let chunkBuffer ← Doc.withDefault default.chunkBuffer Doc.readNat levels chunkBuffer
    some ⟨maxSteps, hookTimeout, chunkBuffer⟩
  | _ => none

def ofText? (s : String) : Option Settings := (Doc.parse? s).bind (read Doc.maxLevels)

def ofJson? (j : Json) : Option Settings := read (Doc.ofJson j).depth (Doc.ofJson j)

end Settings

end Pipework
