import Pipework.Run.Attempt

/-! A terminal that answers questions from lines, and nothing else to call on. -/

namespace Pipework.Terminal

structure World where
  lines : List String
  shown : List String
  now : Instant

def readAnswer (lines : List String) : List String × List String :=
  (lines.takeWhile (· ≠ ""), (lines.dropWhile (· ≠ "")).drop 1)

def answerTo (seed lines : List String) : List String × List String :=
  if seed.contains sentinel then (seed.takeWhile (· ≠ sentinel), lines)
  else
    let (answer, rest) := readAnswer lines
    (seed ++ answer, rest)

def render (r : RenderRequest) (w : World) : Except NodeError (List String) × World :=
  let (answer, rest) := answerTo r.seed w.lines
  let seed := r.seed.takeWhile (· ≠ sentinel)
  (.ok answer,
    { w with lines := rest, shown := w.shown ++ (r.label ++ ":") :: seed.map ("> " ++ ·) })

def services : Services World where
  process name _ _ w := (.error (noProcess name), w)
  request _ _ w := (.error noRequest, w)
  chat r _ w := (⟨[], .error (noChat r.model)⟩, w)
  render := render
  notify _ w := w
  isCancelled _ _ := false
  now w := w.now

end Pipework.Terminal
