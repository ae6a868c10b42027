import Pipework.Proofs.Alike

/-!
# The calls that services have had

`Engine.traced` keeps every call with its arguments, in the order of the calls, beside the world of
the services. It answers as the services do.
-/

namespace Pipework

variable {σ τ : Type}

inductive Call where
  | process (name : String) (args : Json) (context : CallContext)
  | request (payload : Json) (context : CallContext)
  | chat (request : ChatRequest) (context : CallContext)
  | render (request : RenderRequest)
  | hook (call : HookCall)
  deriving DecidableEq, Repr

namespace Services

def keep {α : Type} (call : Call) (calls : List Call) (answer : α × σ) : α × (σ × List Call) :=
  (answer.1, answer.2, calls ++ [call])

def traced (sv : Services σ) : Services (σ × List Call) where
  process name args c w := keep (.process name args c) w.2 (sv.process name args c w.1)
  request payload c w := keep (.request payload c) w.2 (sv.request payload c w.1)
  chat r c w := keep (.chat r c) w.2 (sv.chat r c w.1)
  render r w := keep (.render r) w.2 (sv.render r w.1)
  notify hook w := (sv.notify hook w.1, w.2 ++ [.hook hook])
  isCancelled token w := sv.isCancelled token w.1
  now w := sv.now w.1

theorem SameAnswer.keep {α : Type} {R : σ → τ → Prop} {p : α × σ} {q : α × τ}
    (h : SameAnswer R p q) (call : Call) {calls calls' : List Call} (hcalls : calls = calls') :
    SameAnswer (fun w v => R w.1 v.1 ∧ w.2 = v.2) (keep call calls p) (keep call calls' q) := by
  subst hcalls
  exact ⟨h.1, h.2, rfl⟩

theorem Agree.traced {sv : Services σ} {tv : Services τ} {run : String} {d : Instant → Instant}
    {R : σ → τ → Prop} (h : sv.Agree tv run d R) :
    sv.traced.Agree tv.traced run d fun w v => R w.1 v.1 ∧ w.2 = v.2 where
  process hw _ hc name args := SameAnswer.keep (h.process hw.1 hc name args) _ hw.2
  request hw _ hc payload := SameAnswer.keep (h.request hw.1 hc payload) _ hw.2
  chat hw _ hc r := SameAnswer.keep (h.chat hw.1 hc r) _ hw.2
  render hw r := SameAnswer.keep (h.render hw.1 r) _ hw.2
  notify hw hook hc := by
    refine ⟨h.notify hw.1 hc, ?_⟩
    simp only [Services.traced, hw.2]
  now hw := h.now hw.1

end Services

namespace Engine

def traced (eng : Engine σ) : Engine (σ × List Call) :=
  ⟨eng.evaluator, eng.services.traced, eng.settings⟩

@[simp] theorem traced_evaluator (eng : Engine σ) : eng.traced.evaluator = eng.evaluator := rfl

@[simp] theorem traced_now (eng : Engine σ) (w : σ × List Call) :
    eng.traced.services.now w = eng.services.now w.1 := rfl

@[simp] theorem traced_isCancelled (eng : Engine σ) (token : Option String) (w : σ × List Call) :
    eng.traced.isCancelled token w = eng.isCancelled token w.1 := by
  cases token <;> rfl

theorem traced_agree (eng : Engine σ) (run : String) :
    eng.traced.Agree eng run id fun w v => w.1 = v where
  process hw _ _ _ _ := ⟨by rw [← hw]; rfl, by rw [← hw]; rfl⟩
  request hw _ _ _ := ⟨by rw [← hw]; rfl, by rw [← hw]; rfl⟩
  chat hw _ _ _ := ⟨by rw [← hw]; rfl, by rw [← hw]; rfl⟩
  render hw _ := ⟨by rw [← hw]; rfl, by rw [← hw]; rfl⟩
  notify hw _ _ := by rw [← hw]; rfl
  now hw := by rw [← hw]; rfl
  evaluator := rfl
  settings := rfl

theorem conclude_traced (eng : Engine σ) (a : Attempt) {ready : Except RunError Run}
    (hready : ∀ r, ready = .ok r → r.id = a.run.id) (parked : ParkedRuns) (w : σ)
    (calls : List Call) :
    eng.conclude a parked (eng.driveFrom a ready w) =
      ((eng.traced.conclude a parked (eng.traced.driveFrom a ready (w, calls))).1,
        (eng.traced.conclude a parked (eng.traced.driveFrom a ready (w, calls))).2.1,
        (eng.traced.conclude a parked (eng.traced.driveFrom a ready (w, calls))).2.2.1) := by
  simp only [conclude, Attempt.settle, traced_now]
  have hc (w : σ × List Call) (v : σ) (hw : w.1 = v) :
      eng.isCancelled a.token v = eng.traced.isCancelled a.token w := by
    rw [traced_isCancelled, hw]
  obtain ⟨hresult, ⟨p, hp⟩, hw⟩ := driveFrom_agree a (eng.traced_agree a.run.id) hc hready
    (w := (w, calls)) rfl
  rcases hx : eng.traced.driveFrom a ready (w, calls) with ⟨x, s⟩
  rcases hy : eng.driveFrom a ready w with ⟨y, t⟩
  rw [hx, hy] at hresult hp hw
  dsimp only at hresult hp hw ⊢
  obtain rfl : x = y := by
    obtain ⟨_, rfl, rfl⟩ | ⟨_, _, rfl, rfl, h⟩ := map_eq_map hresult
    · rfl
    · simpa using h
  have hrun : ∀ snapshot, x = .ok (.suspended snapshot) → t.run = s.run := by
    rintro snapshot rfl
    have hs := eng.traced.paused_of_driveFrom hx
    have ht := eng.paused_of_driveFrom hy
    rw [hp] at ht ⊢
    rw [show p = s.run.paused from ht.trans hs.symm]
  rw [← hw, Attempt.file_congr hrun]

theorem exec_traced (eng : Engine σ) (a : Attempt) (input : List Json) (parked : ParkedRuns)
    (w : σ) (calls : List Call) :
    eng.exec a input parked w =
      ((eng.traced.exec a input parked (w, calls)).1,
        (eng.traced.exec a input parked (w, calls)).2.1,
        (eng.traced.exec a input parked (w, calls)).2.2.1) :=
  eng.conclude_traced a (fun _ hr => (Run.SameRun.of_restart hr).id) parked w calls

end Engine

def countingServices : Services Nat where
  process _ args _ w := (.ok args, w + 1)
  request payload _ w := (.ok payload, w + 1)
  chat _ _ w := (⟨["yes"], .ok ""⟩, w + 1)
  render _ w := (.ok [], w + 1)
  notify _ w := w + 1
  isCancelled _ _ := false
  now w := ⟨w, 0⟩

/-- Templates stand for themselves, and every case is taken. -/
def countingEngine : Engine Nat :=
  ⟨⟨fun s _ => .ok (.str s), fun _ _ => .ok true⟩, countingServices, ⟨10, 0, 0⟩⟩

end Pipework
