import Pipework.Text.Blank
import Pipework.Text.CaseTable
import Pipework.Text.CasedTable

/-! Upper and lower case of texts by the full mappings of Unicode, under which a character may
become several and a sigma at the end of a word has a lower case of its own. -/

namespace Pipework.Text

def CaseRun.apply (r : CaseRun) (n : Nat) : Char := Char.ofNat (n + r.shift).toNat

def caseOf (runs : List CaseRun) (special : List (Nat × List Nat)) (c : Char) : List Char :=
  match special.lookup c.toNat with
  | some ns => ns.map Char.ofNat
  | none => match runs.find? (·.maps c.toNat) with
    | some r => [r.apply c.toNat]
    | none => [c]

def upperChar (c : Char) : List Char :=
  if c.toNat < 128 then [c.toUpper] else caseOf upperRuns upperSpecial c

def lowerChar (c : Char) : List Char :=
  if c.toNat < 128 then [c.toLower] else caseOf lowerRuns lowerSpecial c

def upper (cs : List Char) : List Char := cs.flatMap upperChar

def isCased (c : Char) : Bool := casedRanges.any fun r => r.1 ≤ c.toNat && c.toNat ≤ r.2

def isCaseIgnorable (c : Char) : Bool :=
  caseIgnorableRanges.any fun r => r.1 ≤ c.toNat && c.toNat ≤ r.2

def meetsCased (cs : List Char) : Bool :=
  ((cs.dropWhile isCaseIgnorable).head?.map isCased).getD false

def lowerAfter : List Char → List Char → List Char
  | _, [] => []
  | before, c :: cs =>
    if c = 'Σ' then
      (if meetsCased before && !meetsCased cs then 'ς' else 'σ') :: lowerAfter (c :: before) cs
    else lowerChar c ++ lowerAfter (c :: before) cs

def lower (cs : List Char) : List Char := lowerAfter [] cs

def isPunctuation (c : Char) : Bool :=
  (33 ≤ c.toNat && c.toNat ≤ 47) || (58 ≤ c.toNat && c.toNat ≤ 64)
    || (91 ≤ c.toNat && c.toNat ≤ 96) || (123 ≤ c.toNat && c.toNat ≤ 126)

def titleFrom : Bool → List Char → List Char
  | _, [] => []
  | first, c :: cs =>
    if isPunctuation c || isBlank c then c :: titleFrom true cs
    else if first then upperChar c ++ titleFrom false cs
    else lowerChar c ++ titleFrom false cs

def title (cs : List Char) : List Char := titleFrom true cs

def capitalize : List Char → List Char
  | [] => []
  | c :: cs => upperChar c ++ lower cs

def upperString (s : String) : String := String.ofList (upper s.toList)

end Pipework.Text
