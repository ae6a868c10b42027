import Pipework.CommandLine.Help
import Pipework.Definition.Yaml
import Pipework.Run.Snapshot
import Pipework.Template.Sole
import Pipework.Terminal
import Pipework.Text.Quoted

/-! What the commands do: check the pipe that a file defines, or run it and print what it ends
with. -/

namespace Pipework.CommandLine

inductive Failure where
  | cannotRead (path : String)
  | invalidYaml (path : String)
  | invalidJson (path : String)
  | notValid (path : String) (cause : BuildError)
  | build (e : BuildError)
  | globalNotJson
  | globalNotObject (j : Json)
  | run (e : RunError)
  deriving DecidableEq, Repr

namespace Failure

def message : Failure → String
  | cannotRead path => "cannot read " ++ path
  | invalidYaml path => "invalid YAML in " ++ path
  | invalidJson path => "invalid JSON in " ++ path
  | notValid path _ => path ++ " is not a valid pipe"
  | build e => e.message
  | globalNotJson => "--global must be JSON"
  | globalNotObject j => "--global must be a JSON object, got " ++ Json.compact j
  | run e => e.message

def cause? : Failure → Option String
  | notValid _ e => some e.message
  | _ => none

def report (f : Failure) : String :=
  "Error: " ++ f.message ++ match f.cause? with
    | some cause => "\n\nCaused by:\n    " ++ cause
    | none => ""

end Failure

def extension? (path : String) : Option String :=
  let body := path.toList.reverse.dropWhile (· == '/')
  let name := body.takeWhile (· != '/')
  let ext := name.takeWhile (· != '.')
  if ext.length + 1 < name.length then some (String.ofList ext.reverse) else none

def isYaml (path : String) : Bool :=
  match extension? path with
  | some ext => ext == "yaml" || ext == "yml"
  | none => false

def load (path : String) (content : Option String) : Except Failure Definition :=
  match content with
  | none => .error (.cannotRead path)
  | some content =>
    if isYaml path then
      match Definition.ofYaml? content with
      | some d => .ok d
      | none => .error (.invalidYaml path)
    else match Definition.ofText? content with
      | some d => .ok d
      | none => .error (.invalidJson path)

def inputValue (raw : String) : Json := (Json.parse? raw).getD (.str raw)

def globalOf (raw : Option String) : Except Failure (Keyed Json) :=
  match raw with
  | none => .ok []
  | some raw => match Json.parse? raw with
    | none => .error .globalNotJson
    | some (.obj fields) => .ok fields
    | some j => .error (.globalNotObject j)

structure Surroundings where
  content : Option String
  input : String
  pipeId : String
  runId : String
  now : Instant

def validate (s : Surroundings) (path : String) : Except Failure String := do
  let d ← load path s.content
  let p ← (Pipe.build s.pipeId d).mapError (.notValid path)
  .ok ("pipe '" ++ p.id ++ "' is valid. Node order: "
    ++ Text.quotedList (p.nodes.map fun n => n.name))

def endingValue : Ending → Json
  | .completed value => value
  | .suspended snapshot => snapshot.toJson

def run (s : Surroundings) (path : String) (o : RunOptions) : Except Failure String × List String :=
  let ready : Except Failure (Pipe × Keyed Json) := do
    let d ← load path s.content
    let p ← (Pipe.build s.pipeId d).mapError .build
    let global ← globalOf o.global
    .ok (p, global)
  match ready with
  | .error e => (.error e, [])
  | .ok (p, global) =>
    let settings := { Settings.default with
      maxSteps := o.maxSteps.getD Settings.default.maxSteps }
    let eng : Engine Terminal.World := ⟨.templates, Terminal.services, settings⟩
    let attempt := ((Attempt.create s.runId p).withGlobal global).withSid o.sid
    let (result, _, w) :=
      eng.exec attempt (o.inputs.map inputValue) .empty ⟨Text.lines s.input, [], s.now⟩
    match result with
    | .error e => (.error (.run e), w.shown)
    | .ok ending => (.ok (Json.pretty (endingValue ending) 0), w.shown)

def Command.path? : Command → Option String
  | version => none
  | help _ => none
  | validate path => some path
  | run path _ => some path

def execute (env : Environment) (s : Surroundings) : Command → Except Failure String × List String
  | .version => (.ok versionText, [])
  | .help topic => (.ok (helpText env topic), [])
  | .validate path => (validate s path, [])
  | .run path options => run s path options

end Pipework.CommandLine
