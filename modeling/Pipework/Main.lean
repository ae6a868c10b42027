import Pipework.CommandLine.Execute
import Std.Time.DateTime.Timestamp

/-! The program: reads the arguments, the environment, the file and the input, and prints what the
command says. -/

namespace Pipework.Main

open CommandLine

def variableNames : List String := ["PIPEFLOW_GLOBAL", "PIPEFLOW_SID", "PIPEFLOW_MAX_STEPS"]

def environment : IO Environment := do
  let values ← variableNames.mapM fun name => do return (name, ← IO.getEnv name)
  return fun name => (values.lookup name).join

def readFile? (path : String) : IO (Option String) := do
  try
    return some (← IO.FS.readFile path)
  catch _ => return none

def readInput : IO String := do
  let stdin ← IO.getStdin
  let mut text := ""
  repeat
    let line ← stdin.getLine
    if line.isEmpty then break
    text := text ++ line
  return text

def randomId : IO String := do
  let bytes ← IO.getRandomBytes 16
  let marked := bytes.data.toList.zipIdx.map fun (b, i) =>
    if i = 6 then (b &&& 0x0F) ||| 0x40 else if i = 8 then (b &&& 0x3F) ||| 0x80 else b
  let digits := marked.flatMap fun b => [Json.hexDigit (b.toNat / 16), Json.hexDigit (b.toNat % 16)]
  return String.ofList (Identifier.hyphenate Identifier.groups digits)

def now : IO Instant := do
  let t ← Std.Time.Timestamp.now
  let nanos := t.toNanosecondsSinceUnixEpoch.toInt
  return ⟨nanos / 1000000000, (nanos % 1000000000).toNat⟩

def perform (env : Environment) (c : Command) : IO UInt32 := do
  let content ← match c.path? with
    | some path => readFile? path
    | none => pure none
  let input ← match c with
    | .run .. => if content.isSome then readInput else pure ""
    | _ => pure ""
  let (result, shown) := execute env ⟨content, input, ← randomId, ← randomId, ← now⟩ c
  for line in shown do IO.eprintln line
  match result with
  | .ok text =>
    IO.println text
    return 0
  | .error e =>
    IO.eprintln e.report
    return 1

end Pipework.Main

def main (args : List String) : IO UInt32 := do
  let env ← Pipework.Main.environment
  match Pipework.CommandLine.parse env args with
  | .ok c => Pipework.Main.perform env c
  | .error e =>
    IO.eprintln ("error: " ++ e.message)
    return 2
