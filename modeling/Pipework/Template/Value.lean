import Pipework.Template.Fault
import Pipework.Text.Quoted

/-! Values of template expressions, what kind each is and in which order, their truth and their
text. -/

namespace Pipework.Template

inductive Builtin where
  | range
  | dict
  | space
  deriving DecidableEq, Repr

def Builtin.name : Builtin → String
  | range => "range"
  | dict => "dict"
  | space => "namespace"

def Builtin.ofName? : String → Option Builtin
  | "range" => some .range
  | "dict" => some .dict
  | "namespace" => some .space
  | _ => none

/-- What an integer is held in. Written numbers and counts have no sign, results of arithmetic have
one, and either takes 128 bits only if 64 are too few. -/
inductive Word where
  | unsigned64
  | signed64
  | unsigned128
  | signed128
  deriving DecidableEq, Repr

namespace Word

def least : Word → Int
  | unsigned64 | unsigned128 => 0
  | signed64 => Width.least 64
  | signed128 => Width.least 128

def greatest : Word → Int
  | unsigned64 => twoTo 64 - 1
  | signed64 => Width.greatest 64
  | unsigned128 => twoTo 128 - 1
  | signed128 => Width.greatest 128

def clamp (w : Word) (n : Int) : Int := max w.least (min w.greatest n)

def ofWritten (n : Nat) : Word := if Width.unsigned 64 n then unsigned64 else unsigned128

def ofResult (n : Int) : Word := if Width.signed 64 n then signed64 else signed128

end Word

/-- Markup is text that needs no escapes any more. A series is what a function or filter yields item
by item. The fields of a map stand in the order of their keys. Loops, spaces and routines are known
by their numbers; the fields of the first two are those of the moment at which they were looked
up. -/
inductive Value where
  | undefined
  | nothing
  | bool (b : Bool)
  | int (n : Int) (word : Word)
  | float (x : Float)
  | str (s : String)
  | markup (s : String)
  | list (items : List Value)
  | series (items : List Value)
  | map (fields : List (Value × Value))
  | loop (id : Nat) (label : String) (fields : List (Value × Value))
  | space (id : Nat) (fields : List (Value × Value))
  | builtin (f : Builtin)
  | routine (id : Nat) (name : String)
  deriving Inhabited

namespace Value

def count (n : Nat) : Value := int n .unsigned64

def rank : Value → Nat
  | undefined => 0
  | nothing => 1
  | bool _ => 2
  | int _ _ => 3
  | float _ => 3
  | str _ => 4
  | markup _ => 4
  | list _ => 5
  | map _ => 6
  | loop _ _ _ => 6
  | space _ _ => 6
  | series _ => 7
  | builtin _ => 8
  | routine _ _ => 8

def isUndefined : Value → Bool
  | undefined => true
  | _ => false

def isTrue : Value → Bool
  | undefined => false
  | nothing => false
  | bool b => b
  | int n _ => n != 0
  | float x => x != 0
  | str s => !s.isEmpty
  | markup s => !s.isEmpty
  | list items => !items.isEmpty
  | series items => !items.isEmpty
  | map fields => !fields.isEmpty
  | space _ fields => !fields.isEmpty
  | loop _ _ _ | builtin _ | routine _ _ => true

def text? : Value → Option String
  | str s => some s
  | markup s => some s
  | _ => none

def plain : Value → Value
  | markup s => str s
  | v => v

def fields? : Value → Option (List (Value × Value))
  | map fields => some fields
  | loop _ _ fields => some fields
  | space _ fields => some fields
  | _ => none

def elements? : Value → Option (List Value)
  | list items => some items
  | series items => some items
  | v => v.fields?.map fun fields => fields.map Prod.fst

def characters (s : String) : List Value := s.toList.map fun c => str (String.ofList [c])

def items? : Value → Option (List Value)
  | undefined => some []
  | nothing => some []
  | str s => some (characters s)
  | markup s => some (characters s)
  | v => v.elements?

def items (v : Value) : Except Fault (List Value) :=
  match v.items? with
  | some items => .ok items
  | none => .error .invalidOperation

def isCounted (v : Value) : Bool := v.text?.isNone

def size? : Value → Option Nat
  | str s => some s.length
  | markup s => some s.length
  | v => v.elements?.map List.length

def floatText (x : Float) : String :=
  if x.isNaN then "NaN"
  else if x.isInf then (if x < 0 then "-inf" else "inf")
  else (if Decimal.isNegative x.toBits then "-" else "")
    ++ Decimal.writePositional (Decimal.shortest x.toBits)

def nestedLayout : Decimal.Layout := ⟨fun lead => -4 ≤ lead && lead ≤ 15, false⟩

def nestedFloatText (x : Float) : String :=
  if x.isFinite && x != 0 then nestedLayout.write x.toBits else floatText x

mutual
def nestedText : Value → String
  | undefined => "undefined"
  | nothing => "None"
  | bool b => if b then "True" else "False"
  | int n _ => Json.writeInt n
  | float x => nestedFloatText x
  | str s => Text.quoted s
  | markup s => Text.quoted s
  | list items => "[" ++ itemsText items ++ "]"
  | series items => "[" ++ itemsText items ++ "]"
  | map fields => "\x7b" ++ fieldsText fields ++ "\x7d"
  | loop _ label _ => label
  | space _ fields => "\x7b" ++ fieldsText fields ++ "\x7d"
  | builtin f => f.name
  | routine _ name => "<macro " ++ name ++ ">"
termination_by structural v => v

def itemsText : List Value → String
  | [] => ""
  | [x] => nestedText x
  | x :: y :: rest => nestedText x ++ ", " ++ itemsText (y :: rest)
termination_by structural items => items

def fieldsText : List (Value × Value) → String
  | [] => ""
  | [(k, x)] => nestedText k ++ ": " ++ nestedText x
  | (k, x) :: y :: rest =>
    nestedText k ++ ": " ++ nestedText x ++ ", " ++ fieldsText (y :: rest)
termination_by structural fields => fields
end

def text : Value → String
  | undefined => ""
  | float x => floatText x
  | str s => s
  | markup s => s
  | v => v.nestedText

def escapedChar : Char → List Char
  | '<' => "&lt;".toList
  | '>' => "&gt;".toList
  | '&' => "&amp;".toList
  | '"' => "&quot;".toList
  | '\'' => "&#x27;".toList
  | '/' => "&#x2f;".toList
  | c => [c]

def escapedText : Value → String
  | markup s => s
  | v => String.ofList (v.text.toList.flatMap escapedChar)

end Value

end Pipework.Template
