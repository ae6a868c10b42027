import Pipework.Json.Basic
import Pipework.Sha256

/-! Prompts, their fingerprints, and the memory that keeps what a node has already sent: a prompt
whose fingerprint the memory holds is not sent again. -/

namespace Pipework

structure Prompt where
  role : String
  name : Option String
  content : String
  deriving DecidableEq, Repr, Inhabited

namespace Prompt

/-- The bytes that stand for a prompt: role, name and content with a zero byte between them. No name
counts as an empty one. -/
def bytes (p : Prompt) : List UInt8 :=
  p.role.toUTF8.data.toList ++ 0 :: (p.name.getD "").toUTF8.data.toList
    ++ 0 :: p.content.toUTF8.data.toList

def fingerprint (p : Prompt) : String := Sha256.hex p.bytes

def toJson (p : Prompt) : Json :=
  .obj (("role", .str p.role) :: (p.name.map fun n => ("name", Json.str n)).toList
    ++ [("content", .str p.content)])

def fresh : List String → List Prompt → List Prompt
  | _, [] => []
  | prints, p :: ps =>
    let print := p.fingerprint
    if prints.contains print then fresh prints ps else p :: fresh (print :: prints) ps

end Prompt

abbrev PromptMemory := Keyed (List Prompt)

namespace PromptMemory

def key (pipe node : String) : String := pipe ++ "#" ++ node

/-- What the memory will hold under the key, which is also what is sent: first what it holds now,
then what is new. -/
def merged (m : PromptMemory) (key : String) (ps : List Prompt) : List Prompt :=
  let held := (Keyed.get? m key).getD []
  held ++ Prompt.fresh (held.map Prompt.fingerprint) ps

def merge (m : PromptMemory) (key : String) (ps : List Prompt) : PromptMemory :=
  Keyed.put m key (merged m key ps)

def clear (m : PromptMemory) (key : String) : PromptMemory := Keyed.erase m key

end PromptMemory

end Pipework
