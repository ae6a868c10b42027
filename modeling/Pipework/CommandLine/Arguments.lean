import Pipework.Width

/-! The arguments of the command line. A command takes one path and options; an option that is not
given may come from the environment. -/

namespace Pipework.CommandLine

structure RunOptions where
  inputs : List String
  global : Option String
  sid : String
  maxSteps : Option Nat
  deriving DecidableEq, Repr

inductive Topic where
  | program
  | validate
  | run
  | help
  deriving DecidableEq, Repr

inductive Command where
  | version
  | help (topic : Topic)
  | validate (path : String)
  | run (path : String) (options : RunOptions)
  deriving DecidableEq, Repr

inductive UsageError where
  | noCommand
  | unknownCommand (word : String)
  | unexpected (word : String)
  | missingValue (option : String)
  | repeated (option : String)
  | invalidValue (option value : String)
  | missingPath
  deriving DecidableEq, Repr

def UsageError.message : UsageError → String
  | noCommand => "a command is required"
  | unknownCommand word => "unrecognized subcommand '" ++ word ++ "'"
  | unexpected word => "unexpected argument '" ++ word ++ "' found"
  | missingValue option => "a value is required for '" ++ option ++ "' but none was supplied"
  | repeated option => "the argument '" ++ option ++ "' cannot be used multiple times"
  | invalidValue option value => "invalid value '" ++ value ++ "' for '" ++ option ++ "'"
  | missingPath => "the required path was not provided"

inductive Key where
  | input
  | global
  | sid
  | maxSteps
  deriving DecidableEq, Repr

namespace Key

def name : Key → String
  | input => "--input"
  | global => "--global"
  | sid => "--sid"
  | maxSteps => "--max-steps"

def ofName? (s : String) : Option Key := [input, global, sid, maxSteps].find? fun k => k.name == s

def fallback? : Key → Option String
  | input => none
  | global => some "PIPEFLOW_GLOBAL"
  | sid => some "PIPEFLOW_SID"
  | maxSteps => some "PIPEFLOW_MAX_STEPS"

def mayRepeat : Key → Bool
  | input => true
  | _ => false

end Key

def toNat64? (s : String) : Option Nat :=
  let ds := match s.toList with
    | '+' :: cs => cs
    | cs => cs
  if ds.isEmpty || !ds.all fun c => '0' ≤ c && c ≤ '9' then none
  else
    let n : Nat := ds.foldl (fun n c => 10 * n + (c.toNat - 48)) 0
    if Width.unsigned 64 n then some n else none

structure Given where
  path : Option String
  values : List (Key × String)
  deriving DecidableEq, Repr

namespace Given

def takePath (g : Given) (word : String) : Except UsageError Given :=
  match g.path with
  | some _ => .error (.unexpected word)
  | none => if word.isEmpty then .error (.missingValue "path") else .ok { g with path := some word }

def takeValue (g : Given) (k : Key) (value : String) : Except UsageError Given :=
  if !k.mayRepeat && g.values.any fun v => v.1 = k then .error (.repeated k.name)
  else if k = .maxSteps && (toNat64? value).isNone then .error (.invalidValue k.name value)
  else .ok { g with values := g.values ++ [(k, value)] }

def value? (g : Given) (k : Key) : Option String := (g.values.find? fun v => v.1 = k).map Prod.snd

end Given

def isOption (word : String) : Bool :=
  match word.toList with
  | '-' :: _ :: _ => true
  | _ => false

def splitLong (word : String) : String × Option String :=
  let name := word.toList.takeWhile (· ≠ '=')
  match word.toList.drop name.length with
  | [] => (word, none)
  | _ :: value => (String.ofList name, some (String.ofList value))

inductive Ask where
  | help
  | path (word : String)
  | value (k : Key) (v : String)
  | next (k : Key)
  | paths
  deriving DecidableEq, Repr

def askOf (hasOptions : Bool) (word : String) : Except UsageError Ask :=
  match word.toList with
  | ['-', '-'] => .ok .paths
  | '-' :: '-' :: _ =>
    let (name, value) := splitLong word
    match Key.ofName? name, value with
    | some k, some v => if hasOptions then .ok (.value k v) else .error (.unexpected name)
    | some k, none => if hasOptions then .ok (.next k) else .error (.unexpected name)
    | none, none => if name = "--help" then .ok .help else .error (.unexpected name)
    | none, some _ => .error (.unexpected name)
  | '-' :: 'h' :: _ => .ok .help
  | '-' :: 'i' :: rest =>
    if hasOptions then
      match rest with
      | [] => .ok (.next .input)
      | '=' :: value => .ok (.value .input (String.ofList value))
      | value => .ok (.value .input (String.ofList value))
    else .error (.unexpected word)
  | '-' :: _ :: _ => .error (.unexpected word)
  | _ => .ok (.path word)

def collect (hasOptions : Bool) : Given → List String → Except UsageError (Option Given)
  | g, [] => .ok (some g)
  | g, word :: rest => do
    match ← askOf hasOptions word with
    | .help => .ok none
    | .path word => collect hasOptions (← g.takePath word) rest
    | .value k v => collect hasOptions (← g.takeValue k v) rest
    | .paths => (rest.foldlM (fun (g : Given) word => g.takePath word) g).map some
    | .next k => match rest with
      | [] => .error (.missingValue k.name)
      | v :: rest =>
        if isOption v then .error (.missingValue k.name)
        else collect hasOptions (← g.takeValue k v) rest

abbrev Environment := String → Option String

def lookup (env : Environment) (g : Given) (k : Key) : Option String :=
  (g.value? k).or (k.fallback?.bind env)

def runOptions (env : Environment) (g : Given) : Except UsageError RunOptions := do
  let maxSteps ← match lookup env g .maxSteps with
    | none => .ok none
    | some v => match toNat64? v with
      | some n => .ok (some n)
      | none => .error (.invalidValue Key.maxSteps.name v)
  .ok ⟨(g.values.filter fun v => v.1 = Key.input).map Prod.snd, lookup env g .global,
    (lookup env g .sid).getD "", maxSteps⟩

def parseValidate (args : List String) : Except UsageError Command := do
  match ← collect false ⟨none, []⟩ args with
  | none => .ok (.help .validate)
  | some g => match g.path with
    | some path => .ok (.validate path)
    | none => .error .missingPath

def parseRun (env : Environment) (args : List String) : Except UsageError Command := do
  match ← collect true ⟨none, []⟩ args with
  | none => .ok (.help .run)
  | some g =>
    let options ← runOptions env g
    match g.path with
    | some path => .ok (.run path options)
    | none => .error .missingPath

def Topic.ofWord? : String → Option Topic
  | "validate" => some validate
  | "run" => some run
  | "help" => some help
  | _ => none

def parseHelp : List String → Except UsageError Command
  | [] => .ok (.help .program)
  | word :: rest => match Topic.ofWord? word, rest with
    | none, _ => .error (.unknownCommand word)
    | some topic, [] => .ok (.help topic)
    | some _, word :: _ => .error (.unknownCommand word)

def parse (env : Environment) : List String → Except UsageError Command
  | [] => .error .noCommand
  | "validate" :: args => parseValidate args
  | "run" :: args => parseRun env args
  | "help" :: args => parseHelp args
  | word :: _ =>
    match word.toList with
    | '-' :: 'V' :: _ => .ok .version
    | '-' :: 'h' :: _ => .ok (.help .program)
    | _ =>
      if word = "--version" then .ok .version
      else if word = "--help" then .ok (.help .program)
      else if isOption word then .error (.unexpected word)
      else .error (.unknownCommand word)

end Pipework.CommandLine
