import Pipework.Template.Convert
import Pipework.Template.Statement

/-! The page on which a template is rendered: the text so far, the names that are visible, and what
loops, spaces and routines remember. Names are looked up from the innermost frame outwards, then in
the data, and last among the functions. -/

namespace Pipework.Template

/-- A loop that is running. A loop over the items that a condition keeps has no value of its own;
one that may be run again from inside has its target and body at hand. -/
structure Round where
  value : Option Value
  depth : Nat
  again : Option (Target × List Statement)

/-- Names of one scope. Those of a scope in which routines are defined are also kept in a closure of
this number. -/
structure Frame where
  locals : Keyed Value
  round : Option Round
  closure : Option Nat

namespace Frame

def empty : Frame := ⟨[], none, none⟩

def find? (f : Frame) (name : String) : Option Value :=
  match Keyed.get? f.locals name with
  | some v => some v
  | none => if name = "loop" then f.round.bind Round.value else none

end Frame

structure Routine where
  parameters : List Parameter
  asks : Bool
  body : List Statement
  closure : Nat
  around : List Frame

structure Page where
  data : Value
  blocks : List (String × List Statement)
  frames : List Frame
  depth : Nat
  text : String
  escapes : Bool
  loops : Nat
  changes : List (Nat × List Value)
  spaces : Array (List (Value × Value))
  routines : Array Routine
  closures : Array (Keyed Value)

namespace Page

def start (data : Json) (blocks : List (String × List Statement)) : Page where
  data := Value.ofJson data
  blocks := blocks
  frames := [Frame.empty]
  depth := 1
  text := ""
  escapes := false
  loops := 0
  changes := []
  spaces := #[]
  routines := #[]
  closures := #[]

def refreshed (p : Page) : Value → Value
  | .space id fields => .space id ((p.spaces[id]?).getD fields)
  | v => v

def find? (p : Page) (name : String) : Option Value :=
  match p.frames.findSome? fun f => f.find? name with
  | some v => some (p.refreshed v)
  | none => match p.data.fields?.bind (Value.lookup (.str name)) with
    | some v => some v
    | none => (Builtin.ofName? name).map .builtin

def store (p : Page) (name : String) (v : Value) : Page :=
  match p.frames with
  | [] => p
  | f :: rest =>
    { p with
      frames := { f with locals := Keyed.put f.locals name v } :: rest
      closures := match f.closure with
        | some id => p.closures.modify id fun names => Keyed.put names name v
        | none => p.closures }

def depthLimit : Nat := 500

def deeper (p : Page) (n : Nat) (frames : List Frame) : Except Fault Page :=
  if depthLimit < p.depth + n then .error .invalidOperation
  else .ok { p with depth := p.depth + n, frames := frames }

def enter (p : Page) (f : Frame) : Except Fault Page := p.deeper 1 (f :: p.frames)

def leave (p : Page) : Page := { p with depth := p.depth - 1, frames := p.frames.drop 1 }

def round? (p : Page) : Option Round := p.frames.findSome? Frame.round

def write (p : Page) (s : String) : Page := { p with text := p.text ++ s }

def print (p : Page) (v : Value) : Page :=
  p.write (if p.escapes then v.escapedText else v.text)

def captured (p : Page) (s : String) : Value := if p.escapes then .markup s else .str s

def define (p : Page) (parameters : List Parameter) (asks : Bool) (body : List Statement) :
    Page × Nat :=
  let id := p.routines.size
  match p.frames with
  | [] => (p, id)
  | f :: rest =>
    let (closure, closures) := match f.closure with
      | some c => (c, p.closures)
      | none =>
        let loop := match f.round.bind Round.value with
          | some v => [("loop", v)]
          | none => []
        (p.closures.size, p.closures.push (loop ++ f.locals))
    ({ p with
        frames := { f with closure := some closure } :: rest
        closures := closures
        routines := p.routines.push ⟨parameters, asks, body, closure, rest⟩ }, id)

end Page

def loopValue (id depth : Nat) (items : Array Value) (counted : Bool) (i : Nat) : Value :=
  let size := items.size
  let ifCounted (n : Nat) : Value := if counted then .count n else .undefined
  .loop id ("<loop " ++ Nat.repr i ++ "/" ++ (if counted then Nat.repr size else "?") ++ ">") [
    (.str "index0", .count i), (.str "index", .count (i + 1)), (.str "length", ifCounted size),
    (.str "revindex", ifCounted (size - i)), (.str "revindex0", ifCounted (size - i - 1)),
    (.str "first", .bool (i == 0)), (.str "last", .bool (counted && i + 1 == size)),
    (.str "depth", .count (depth + 1)), (.str "depth0", .count depth),
    (.str "previtem", if i = 0 then .undefined else (items[i - 1]?).getD .undefined),
    (.str "nextitem", (items[i + 1]?).getD .undefined)]

end Pipework.Template
