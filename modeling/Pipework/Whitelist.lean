import Pipework.Glob
import Pipework.Text.Blank

/-! Which processes a pipe may call. A pattern is a name, a namespace that ends in `.*`, or a glob;
without patterns everything may be called. -/

namespace Pipework

structure Whitelist where
  patterns : List String
  deriving DecidableEq, Repr

namespace Whitelist

def namespace? (pattern : String) : Option (List Char) :=
  match pattern.toList.reverse with
  | '*' :: '.' :: rest =>
    let front := ('.' :: rest).reverse
    if front.any Glob.isSpecial then none else some front
  | _ => none

def covers (pattern name : String) : Bool :=
  match namespace? pattern with
  | some front => front.isPrefixOf name.toList
  | none => pattern.toList.any Glob.isSpecial && Glob.isMatch pattern.toList name.toList

def allows (w : Whitelist) (name : String) : Bool :=
  w.patterns.isEmpty || w.patterns.contains name || w.patterns.any (covers · name)

/-- Where no whitelist is declared everything may be called. -/
def permits (w : Option Whitelist) (name : String) : Bool :=
  match w with
  | some w => w.allows name
  | none => true

end Whitelist

end Pipework
