import Pipework.Yaml.Cursor

/-! Scalars without quotes. -/

namespace Pipework.Yaml

def isIndicator (c : Char) : Bool :=
  isFlowMark c || ['#', '&', '*', '!', '|', '>', '\'', '"', '%', '@', Char.ofNat 96].contains c

def startsPlain (inFlow : Bool) : List Char → Bool
  | [] => false
  | c :: cs =>
    if c = '-' then !(cs.head?.any isBlank)
    else if c = '?' || c = ':' then !inFlow && !atBlank cs
    else !isBlank c && !isBreak c && !isIndicator c

/-- Characters up to a blank or to what ends the scalar: a colon before a blank, and in brackets one
of their marks. A colon right before such a mark is an error. -/
def plainWord? (inFlow : Bool) : List Char → Option (List Char)
  | [] => some []
  | c :: cs =>
    let marked := cs.head?.any fun d => isFlowMark d || d == '?'
    if isBlank c || isBreak c then some []
    else if inFlow && c = ':' && marked then none
    else if c = ':' && atBlank cs || inFlow && isFlowMark c then some []
    else (plainWord? inFlow cs).map (c :: ·)

structure PlainScalar where
  text : List Char
  broken : Bool
  after : Cursor

def plainWords? (inFlow : Bool) (least : Nat) : Nat → List Char → Gap → Cursor → Option PlainScalar
  | 0, taken, gap, c => some ⟨taken, gap.broken, c⟩
  | fuel + 1, taken, gap, c =>
    if c.atDocumentMark || c.rest.head? = some '#' then some ⟨taken, gap.broken, c⟩
    else do
      let word ← plainWord? inFlow c.rest
      let (taken, left) :=
        if word.isEmpty then (taken, gap) else (taken ++ gap.text ++ word, .empty)
      let c := c.skipMany word.length
      if c.rest.isEmpty || !atBlank c.rest then some ⟨taken, left.broken, c⟩
      else
        let (gap, c) ← left.take? least c
        if !inFlow && c.column < least then some ⟨taken, gap.broken, c⟩
        else plainWords? inFlow least fuel taken gap c

def plain? (inFlow : Bool) (least : Nat) (c : Cursor) : Option PlainScalar :=
  plainWords? inFlow least (c.left + 1) [] .empty c

end Pipework.Yaml
