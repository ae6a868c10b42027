import Pipework.Proofs.Calls
import Pipework.Proofs.Faithful
import Pipework.Proofs.Recursion

/-!
# A case leaves the frames below it alone

From the turn that enters a case to the turn that ends it, the frames below take nothing but the
global data and the session that a client gives to the run while it is not at work. The turn that
ends the case records its result in the frame of the switch and moves the cursor of that frame.
-/

namespace Pipework

variable {σ : Type}

inductive Amendment where
  | global (global : Keyed Json)
  | sid (sid : String)

namespace Amendment

def key : Amendment → String
  | global _ => "global"
  | sid _ => "sid"

def value : Amendment → Json
  | global g => .obj g
  | sid s => .str s

def latest? (key : String) : List Amendment → Option Json
  | [] => none
  | a :: as => (latest? key as).or (if a.key = key then some a.value else none)

theorem latest?_eq_none {key : String} (hglobal : key ≠ "global") (hsid : key ≠ "sid")
    (as : List Amendment) : latest? key as = none := by
  induction as with
  | nil => rfl
  | cons a as ih =>
    have hkey : a.key ≠ key := by
      cases a with
      | global => exact Ne.symm hglobal
      | sid => exact Ne.symm hsid
    rw [latest?, ih, if_neg hkey]
    rfl

end Amendment

namespace Frame

def amend (f : Frame) (a : Amendment) : Frame := { f with data := Keyed.put f.data a.key a.value }

def amended (f : Frame) (as : List Amendment) : Frame := as.foldl amend f

@[simp] theorem amended_nil (f : Frame) : f.amended [] = f := rfl

theorem amended_concat (f : Frame) (as : List Amendment) (a : Amendment) :
    f.amended (as ++ [a]) = (f.amended as).amend a := by
  rw [amended, List.foldl_append]
  rfl

theorem map_amended_concat (fs : List Frame) (as : List Amendment) (a : Amendment) :
    fs.map (·.amended (as ++ [a])) = (fs.map (·.amended as)).map (·.amend a) := by
  rw [List.map_map]
  exact List.map_congr_left fun f _ => f.amended_concat as a

theorem amended_eq (f : Frame) (as : List Amendment) :
    ∃ data, f.amended as = { f with data := data } := by
  induction as generalizing f with
  | nil => exact ⟨f.data, rfl⟩
  | cons a as ih => exact ih (f.amend a)

theorem get?_amended (f : Frame) (as : List Amendment) (key : String) :
    Keyed.get? (f.amended as).data key = (Amendment.latest? key as).or (Keyed.get? f.data key) := by
  induction as generalizing f with
  | nil => rfl
  | cons a as ih =>
    have hrest : f.amended (a :: as) = (f.amend a).amended as := rfl
    rw [hrest, ih, amend, Keyed.get?_put, Amendment.latest?, Option.or_assoc]
    by_cases hkey : key = a.key
    · rw [if_pos hkey, if_pos hkey.symm]
      rfl
    · rw [if_neg hkey, if_neg (Ne.symm hkey)]
      rfl

/-- The frame of a switch after a case of it, beside what it was before the case: it has the result
of the case under the name of the switch and as its latest output, it stands at the given node, and
besides it has only been amended. -/
structure Returns (f : Frame) (as : List Amendment) (node : String) (result : Json) (cursor : Nat)
    (g : Frame) : Prop where
  pipe : g.pipe = f.pipe
  input : g.input = f.input
  inherited : g.inherited = f.inherited
  jump : g.jump = f.jump
  cursor : g.cursor = cursor
  named : Keyed.get? g.data node = some result
  latest : Keyed.get? g.data "output" = some result
  other : ∀ key, key ≠ node → key ≠ "output" →
    Keyed.get? g.data key = (Amendment.latest? key as).or (Keyed.get? f.data key)

theorem Returns.unchanged {f g : Frame} {as : List Amendment} {node : String} {result : Json}
    {cursor : Nat} (h : f.Returns as node result cursor g) {key : String}
    (hkey : key ∉ [node, "output", "global", "sid"]) :
    Keyed.get? g.data key = Keyed.get? f.data key := by
  simp only [List.mem_cons, List.not_mem_nil, or_false, not_or] at hkey
  obtain ⟨hnode, hlatest, hglobal, hsid⟩ := hkey
  rw [h.other key hnode hlatest, Amendment.latest?_eq_none hglobal hsid]
  rfl

theorem returns_record (f : Frame) (as : List Amendment) (node : String) (result : Json)
    (cursor : Nat) :
    f.Returns as node result cursor
      { (f.amended as).record node result with cursor := cursor } := by
  have hother (key : String) (hnode : key ≠ node) (hlatest : key ≠ "output") :
      Keyed.get? ((f.amended as).record node result).data key = _ :=
    (get?_record_of_ne hnode hlatest).trans (f.get?_amended as key)
  obtain ⟨data, hdata⟩ := f.amended_eq as
  rw [hdata] at hother ⊢
  exact ⟨rfl, rfl, rfl, rfl, rfl, get?_record_self .., get?_record_output .., hother⟩

end Frame

namespace Engine

variable (eng : Engine σ)

/-- The states of a run that has entered a case, as long as the case has not ended, with what has
been amended since: the run takes turns, pauses, and is amended and answered. -/
inductive Stays (entered : Run) : Run → List Amendment → Prop
  | here : Stays entered entered []
  | global {r : Run} {as : List Amendment} (global : Keyed Json) :
      Stays entered r as → Stays entered (r.withGlobal global) (as ++ [.global global])
  | sid {r : Run} {as : List Amendment} (sid : String) :
      Stays entered r as → Stays entered (r.withSid sid) (as ++ [.sid sid])
  | answer {r r' : Run} {as : List Amendment} {answers : List Json} :
      Stays entered r as → r.answer eng.evaluator answers = .ok r' → Stays entered r' as
  | more {token : Option String} {l l' : Loop σ} {as : List Amendment} :
      Stays entered l.scene.run as → eng.turn token l = .more l' →
      entered.stack.below.length ≤ l'.scene.run.stack.below.length →
      Stays entered l'.scene.run as
  | done {token : Option String} {l : Loop σ} {result : Except RunError Ending} {t : Scene σ}
      {as : List Amendment} :
      Stays entered l.scene.run as → eng.turn token l = .done result t → Stays entered t.run as

structure Entering (p : Pipe) (l l₀ : Loop σ) : Prop where
  reached : ∃ log, eng.Reaches p l.scene.run log
  turn : ∃ token, eng.turn token l = .more l₀
  below : l₀.scene.run.stack.below = l.scene.run.stack.frames

inductive EndsCase (n : Node Pipe) (f : Frame) (rest : List Frame) (as : List Amendment)
    (l : Loop σ) : Turn σ → Prop
  | unmapped {e : RunError} : l.scene.run.close eng.evaluator = .error e →
      EndsCase n f rest as l (.done (.error e) l.scene)
  | next {output : Option Json} {g : Frame} :
      l.scene.run.close eng.evaluator = .ok (none, output) →
      f.Returns as n.name (l.scene.run.stack.top.result output) (f.cursor + 1) g →
      EndsCase n f rest as l
        (.more ⟨⟨{ l.scene.run with stack := ⟨g, rest.map (·.amended as)⟩ }, l.scene.world⟩,
          l.left⟩)
  | jump {target : String} {output : Option Json} {i : Nat} {m : Node Pipe} {g : Frame} :
      l.scene.run.close eng.evaluator = .ok (some target, output) →
      f.pipe.nodes[i]? = some m → m.name = target →
      f.Returns as n.name (l.scene.run.stack.top.result output) i g →
      EndsCase n f rest as l
        (.more ⟨⟨{ l.scene.run with stack := ⟨g, rest.map (·.amended as)⟩ }, l.scene.world⟩,
          l.left⟩)
  | astray {target : String} {output : Option Json} :
      l.scene.run.close eng.evaluator = .ok (some target, output) →
      (∀ m ∈ f.pipe.nodes, m.name ≠ target) →
      EndsCase n f rest as l
        (.done (.error (.gotoTargetNotFound f.pipe.id target l.scene.run.id)) l.scene)

variable {eng} {token : Option String}

theorem frames_of_more {l l' : Loop σ} (h : eng.turn token l = .more l') :
    (l'.scene.run.stack.below = l.scene.run.stack.below ∧
      l'.scene.run.stack.top.pipe = l.scene.run.stack.top.pipe) ∨
    l'.scene.run.stack.below = l.scene.run.stack.frames ∨
    l.scene.run.current? = none ∧ ∃ f, l.scene.run.stack.below = f :: l'.scene.run.stack.below ∧
      l'.scene.run.stack.top.pipe = f.pipe := by
  cases eng.moves_of_turn h with
  | advance _ _ hd hf =>
    obtain ⟨hs, -⟩ := eng.sameRun_of_dispatch _ _ hd
    rw [hs] at hf
    have hbelow := congrArg Stack.below hs
    exact .inl ⟨hbelow, (Frame.records_of_advance hf).pipe⟩
  | enter _ _ hd =>
    obtain ⟨hs, -⟩ := eng.sameRun_of_dispatch _ _ hd
    have hframes := congrArg Stack.frames hs
    exact .inr (.inl hframes)
  | leave hn hb hr =>
    obtain ⟨g, hpipe, rfl⟩ := Run.closeCase_eq hr
    exact .inr (.inr ⟨hn, _, hb, hpipe⟩)
  | again _ _ hr =>
    obtain ⟨target, i, -, rfl⟩ := Run.closeRoot_eq hr
    exact .inl ⟨rfl, rfl⟩

theorem Entering.switch {p : Pipe} {l l₀ : Loop σ} (h : eng.Entering p l l₀) :
    ∃ n, l.scene.run.current? = some n ∧ n.HasCase l₀.scene.run.stack.top.pipe := by
  obtain ⟨token, ht⟩ := h.turn
  have hlength := congrArg List.length h.below
  rw [Stack.frames, List.length_cons] at hlength
  cases eng.moves_of_turn ht with
  | enter hn _ hd =>
    obtain ⟨cases, c, hk, hc, hchild, -⟩ := enter_of_dispatch hd
    have hmem := (mem_of_selectCase hc).resolve_right (by simp)
    obtain ⟨data, inherited, rfl⟩ := Frame.child_eq hchild
    exact ⟨_, hn, cases, c, hk, hmem, rfl⟩
  | advance _ _ hd _ =>
    obtain ⟨hs, -⟩ := eng.sameRun_of_dispatch _ _ hd
    simp [Run.withTop, hs] at hlength
  | leave _ hb hr =>
    obtain ⟨f, -, rfl⟩ := Run.closeCase_eq hr
    simp only [hb, List.length_cons] at hlength
    omega
  | again _ _ hr =>
    obtain ⟨target, i, -, rfl⟩ := Run.closeRoot_eq hr
    simp [Run.withTop] at hlength

theorem suffix_replace {f g k : Frame} {fs below : List Frame} (h : f :: fs <:+ g :: below)
    (hpipe : k.pipe = g.pipe) : ∃ f', f'.pipe = f.pipe ∧ f' :: fs <:+ k :: below := by
  obtain heq | hbelow := List.suffix_cons_iff.mp h
  · obtain ⟨rfl, rfl⟩ := List.cons.inj heq
    exact ⟨k, hpipe, List.suffix_rfl⟩
  · exact ⟨f, rfl, hbelow.trans (List.suffix_cons ..)⟩

namespace Stays

variable {entered r : Run} {as : List Amendment}

theorem frames (h : eng.Stays entered r as) :
    ∃ f, f.pipe = entered.stack.top.pipe ∧
      f :: entered.stack.below.map (·.amended as) <:+ r.stack.frames := by
  induction h with
  | here => exact ⟨entered.stack.top, rfl, by simp [Stack.frames]⟩
  | global global _ ih =>
    obtain ⟨f, hpipe, hframes⟩ := ih
    refine ⟨f.setGlobal global, hpipe, ?_⟩
    rw [Frame.map_amended_concat]
    exact hframes.map (·.setGlobal global)
  | sid sid _ ih =>
    obtain ⟨f, hpipe, hframes⟩ := ih
    refine ⟨f.setSid sid, hpipe, ?_⟩
    rw [Frame.map_amended_concat]
    exact hframes.map (·.setSid sid)
  | answer _ hr ih =>
    obtain ⟨f, hpipe, hframes⟩ := ih
    obtain ⟨n, g, k, output, -, hg, hk, rfl⟩ := Run.answer_node hr
    obtain ⟨data, rfl⟩ := Frame.bind_eq hg
    obtain ⟨f', hpipe', hframes'⟩ := suffix_replace hframes (Frame.records_of_advance hk).pipe
    exact ⟨f', hpipe'.trans hpipe, hframes'⟩
  | more _ ht hlength ih =>
    obtain ⟨f, hpipe, hframes⟩ := ih
    obtain ⟨hsame, htop⟩ | hentered | ⟨-, g, hleft, htop⟩ := frames_of_more ht
    · rw [Stack.frames, hsame]
      obtain ⟨f', hpipe', hframes'⟩ := suffix_replace hframes htop
      exact ⟨f', hpipe'.trans hpipe, hframes'⟩
    · rw [Stack.frames, hentered]
      exact ⟨f, hpipe, hframes.trans (List.suffix_cons ..)⟩
    · -- The frame that is left is not among them, since there are still enough without it.
      rw [Stack.frames, hleft] at hframes
      have hbelow := (List.suffix_cons_iff.mp hframes).resolve_left fun heq => by
        have hlong := congrArg List.length heq
        simp only [List.length_cons, List.length_map] at hlong
        omega
      obtain ⟨f', hpipe', hframes'⟩ := suffix_replace hbelow htop
      exact ⟨f', hpipe'.trans hpipe, hframes'⟩
  | done _ ht ih =>
    obtain ⟨hs, -⟩ := stack_of_done ht
    rwa [hs]

theorem innermost (h : eng.Stays entered r as)
    (hlength : r.stack.below.length = entered.stack.below.length) :
    r.stack.top.pipe = entered.stack.top.pipe ∧
      r.stack.below = entered.stack.below.map (·.amended as) := by
  obtain ⟨f, hpipe, hframes⟩ := h.frames
  have heq := hframes.eq_of_length (by simp [Stack.frames, hlength])
  obtain ⟨rfl, hbelow⟩ := List.cons.inj heq
  exact ⟨hpipe, hbelow.symm⟩

/-- A turn keeps the run in the case, unless the case is at its end. -/
theorem of_more {l l' : Loop σ} (h : eng.Stays entered l.scene.run as)
    (ht : eng.turn token l = .more l') :
    eng.Stays entered l'.scene.run as ∨
      l.scene.run.stack.below.length = entered.stack.below.length ∧
        l.scene.run.current? = none := by
  by_cases hlength : entered.stack.below.length ≤ l'.scene.run.stack.below.length
  · exact .inl (.more h ht hlength)
  · obtain ⟨f, -, hframes⟩ := h.frames
    have hlong := hframes.length_le
    simp only [Stack.frames, List.length_cons, List.length_map] at hlong
    obtain ⟨hsame, -⟩ | hentered | ⟨hn, g, hleft, -⟩ := frames_of_more ht
    · rw [hsame] at hlength
      omega
    · rw [hentered, Stack.frames, List.length_cons] at hlength
      omega
    · rw [hleft, List.length_cons] at hlong ⊢
      exact .inr ⟨by omega, hn⟩

end Stays

theorem Reaches.entering {p : Pipe} {r : Run} {log : List (String × Json)}
    (h : eng.Reaches p r log) {above rest : List Frame} {f : Frame}
    (hbelow : r.stack.below = above ++ f :: rest) :
    ∃ l l₀ as, eng.Entering p l l₀ ∧ eng.Stays l₀.scene.run r as ∧
      f :: rest = l.scene.run.stack.frames.map (·.amended as) := by
  have amended {r r' : Run} {k : Frame → Frame} {a : Amendment} (hk : ∀ f, k f = f.amend a)
      (hs : r'.stack.below = r.stack.below.map k) {above rest : List Frame} {f : Frame}
      (hbelow : r'.stack.below = above ++ f :: rest) :
      ∃ above' f' rest', r.stack.below = above' ++ f' :: rest' ∧
        f :: rest = (f' :: rest').map (·.amend a) := by
    rw [hs, funext hk] at hbelow
    obtain ⟨above', fs, hsplit, -, hfs⟩ := List.map_eq_append_iff.mp hbelow
    obtain ⟨f', rest', rfl, -, -⟩ := List.map_eq_cons_iff.mp hfs
    exact ⟨above', f', rest', hsplit, hfs.symm⟩
  -- On how the run has come to where it is; the frames above are general, since turns add to them
  -- and take from them.
  induction h generalizing above f rest with
  | start id => simp [Run.start, Stack.single] at hbelow
  | global global _ ih =>
    obtain ⟨above', f', rest', hsplit, hfs⟩ :=
      amended (a := .global global) (fun _ => rfl) rfl hbelow
    obtain ⟨l, l₀, as, hentering, hstays, hframes⟩ := ih hsplit
    refine ⟨l, l₀, _, hentering, hstays.global global, ?_⟩
    rw [hfs, hframes, Frame.map_amended_concat]
  | sid sid _ ih =>
    obtain ⟨above', f', rest', hsplit, hfs⟩ := amended (a := .sid sid) (fun _ => rfl) rfl hbelow
    obtain ⟨l, l₀, as, hentering, hstays, hframes⟩ := ih hsplit
    refine ⟨l, l₀, _, hentering, hstays.sid sid, ?_⟩
    rw [hfs, hframes, Frame.map_amended_concat]
  | restart _ hr _ =>
    obtain ⟨g, -, rfl⟩ := Run.restart_root hr
    simp [Stack.single] at hbelow
  | answer _ _ hr ih =>
    obtain ⟨_, _, _, _, -, -, -, rfl⟩ := Run.answer_node hr
    obtain ⟨l, l₀, as, hentering, hstays, hframes⟩ := ih hbelow
    exact ⟨l, l₀, as, hentering, hstays.answer hr, hframes⟩
  | @more token l' l'' _ hreached _ ht ih =>
    have stays {above : List Frame} (hbefore : l'.scene.run.stack.below = above ++ f :: rest) :
        ∃ l l₀ as, eng.Entering p l l₀ ∧ eng.Stays l₀.scene.run l''.scene.run as ∧
          f :: rest = l.scene.run.stack.frames.map (·.amended as) := by
      obtain ⟨l, l₀, as, hentering, hstays, hframes⟩ := ih hbefore
      refine ⟨l, l₀, as, hentering, hstays.more ht ?_, hframes⟩
      have hlength := congrArg List.length hframes
      rw [List.length_map, ← hentering.below] at hlength
      rw [← hlength, hbelow, List.length_append]
      exact Nat.le_add_left ..
    obtain ⟨hsame, -⟩ | hentered | ⟨-, g, hleft, -⟩ := frames_of_more ht
    · exact stays (hsame ▸ hbelow)
    · rw [hentered, Stack.frames] at hbelow
      cases above with
      | nil =>
        refine ⟨l', l'', [], ⟨⟨_, hreached⟩, ⟨token, ht⟩, hentered⟩, .here, ?_⟩
        simpa [Stack.frames] using hbelow.symm
      | cons g above => exact stays (List.cons.inj hbelow).2
    · rw [hbelow, ← List.cons_append] at hleft
      exact stays hleft
  | done _ _ ht ih =>
    obtain ⟨hs, -⟩ := stack_of_done ht
    rw [hs] at hbelow
    obtain ⟨l, l₀, as, hentering, hstays, hframes⟩ := ih hbelow
    exact ⟨l, l₀, as, hentering, hstays.done ht, hframes⟩

theorem endsCase_turn {f : Frame} {rest : List Frame} {as : List Amendment} {n : Node Pipe}
    {l : Loop σ} (hjump : f.jump = none) (hn : f.current? = some n)
    (hc : eng.isCancelled token l.scene.world = false) (hend : l.scene.run.current? = none)
    (hbelow : l.scene.run.stack.below = (f :: rest).map (·.amended as)) :
    eng.EndsCase n f rest as l (eng.turn token l) := by
  obtain ⟨s, left⟩ := l
  obtain ⟨data, hdata⟩ := f.amended_eq as
  have hj : (f.amended as).jump = none := by rw [hdata, hjump]
  have hn' : (f.amended as).current? = some n := by
    rw [hdata]
    exact hn
  have hpipe : (f.amended as).pipe = f.pipe := by rw [hdata]
  have hcursor : (f.amended as).cursor = f.cursor := by rw [hdata]
  rw [eng.turn_case hc hend hbelow, Run.closeCase_follow hj hn']
  cases hr : s.run.close eng.evaluator with
  | error e => exact .unmapped hr
  | ok r =>
    obtain ⟨goto, output⟩ := r
    dsimp only
    cases goto with
    | none =>
      refine .next hr ?_
      have hreturns := f.returns_record as n.name (s.run.stack.top.result output)
        (f.cursor + 1)
      rwa [Frame.next, Frame.goOn_eq, hcursor]
    | some target =>
      simp only [Frame.follow, hpipe, Frame.goOn_eq]
      cases hi : f.pipe.indexOf? target with
      | none =>
        refine .astray hr fun m hm hname => ?_
        have hnone := List.findIdx?_eq_none_iff.mp hi m hm
        simp [hname] at hnone
      | some i =>
        obtain ⟨hlt, hname, -⟩ := List.findIdx?_eq_some_iff_getElem.mp hi
        exact .jump hr (List.getElem?_eq_getElem hlt) (by simpa using hname)
          (f.returns_record as n.name (s.run.stack.top.result output) i)

/-- A case changes nothing in the frames below it but by its result. Every frame below the innermost
one of a run has entered a case and has only been amended since. From the turn that enters a case to
the turn that ends it, whatever its nodes do, and whether the run is paused, parked and answered,
all frames below are only amended, and the frame over them runs the case. The turn that ends the
case leaves the frame of the switch with the result, at the node that the case names or the next
one; if there is no node of that name the run fails. -/
theorem case_isolated (eng : Engine σ) (w : σ) {before after : List (Action σ)} {act : Action σ}
    {id : String} {p : Pipe} (hbegins : act.Begins (eng.play (.init w) before) id p) :
    let s := eng.play (.init w) (before ++ act :: after)
    (∀ run, s.HasRun run → run.id = id → ∃ log, eng.Reaches p run log) ∧
    (∀ run log, eng.Reaches p run log → ∀ above f rest, run.stack.below = above ++ f :: rest →
      ∃ l l₀ as, eng.Entering p l l₀ ∧ eng.Stays l₀.scene.run run as ∧
        f :: rest = l.scene.run.stack.frames.map (·.amended as)) ∧
    ∀ l l₀, eng.Entering p l l₀ →
      let frames := l.scene.run.stack.frames
      ∃ n, l.scene.run.current? = some n ∧ n.HasCase l₀.scene.run.stack.top.pipe ∧
      ∀ run as, eng.Stays l₀.scene.run run as →
        let atEnd := run.stack.below.length = frames.length ∧ run.current? = none
        (∃ g, g.pipe = l₀.scene.run.stack.top.pipe ∧
          g :: frames.map (·.amended as) <:+ run.stack.frames) ∧
        (∀ token v left l', eng.turn token ⟨⟨run, v⟩, left⟩ = .more l' →
          eng.Stays l₀.scene.run l'.scene.run as ∨ atEnd) ∧
        (atEnd → run.stack.top.pipe = l₀.scene.run.stack.top.pipe ∧
          ∀ token v left, eng.isCancelled token v = false →
            eng.EndsCase n l.scene.run.stack.top l.scene.run.stack.below as ⟨⟨run, v⟩, left⟩
              (eng.turn token ⟨⟨run, v⟩, left⟩)) := by
  intro s
  refine ⟨fun run hrun hid => eng.reaches_of_begins w hbegins hrun hid,
    fun run log hrun above f rest hbelow => hrun.entering hbelow, fun l l₀ hentering => ?_⟩
  intro frames
  have hframes : l₀.scene.run.stack.below = frames := hentering.below
  obtain ⟨n, hn, hcase⟩ := hentering.switch
  obtain ⟨log, hreached⟩ := hentering.reached
  refine ⟨n, hn, hcase, fun run as hstays => ⟨?_, fun token v left l' ht => ?_, ?_⟩⟩
  · rw [← hframes]
    exact hstays.frames
  · rw [← hframes]
    exact hstays.of_more (l := ⟨⟨run, v⟩, left⟩) ht
  · rintro ⟨hlength, hend⟩
    rw [← hframes] at hlength
    obtain ⟨hpipe, hbelow⟩ := hstays.innermost hlength
    rw [hframes] at hbelow
    exact ⟨hpipe, fun token v left hc =>
      endsCase_turn hreached.atRest.stack.innermost.jump hn hc hend hbelow⟩

end Engine

def guardedAnswer : System Nat :=
  countingEngine.play (.init 0)
    [.start "r" guardedPipe, .exec 0 [], .turn 0, .turn 0, .turn 0, .turn 0, .settle 0, .drop 0,
      .takeUp "r", .withGlobal 1 [("k", .int 1)], .resume 1 [.str "done"]]

theorem isolated_guardedAnswer :
    ∃ run n l l₀ as, guardedAnswer.HasRun run ∧ countingEngine.Entering guardedPipe l l₀ ∧
      countingEngine.Stays l₀.scene.run run as ∧
      countingEngine.EndsCase n l.scene.run.stack.top l.scene.run.stack.below as ⟨⟨run, 0⟩, 0⟩
        (countingEngine.turn none ⟨⟨run, 0⟩, 0⟩) ∧
      let after := (countingEngine.turn none ⟨⟨run, 0⟩, 0⟩).scene.run.stack
      after.below.length = 0 ∧ after.top.cursor = 1 ∧
        Keyed.get? after.top.data "pick" = some (.str "done") := by
  have hbegins : Action.Begins (System.init 0) (.start "r" guardedPipe) "r" guardedPipe :=
    .start (by simp [System.init])
  have hwork : ((guardedAnswer.hands 1).bind Hand.atWork?).map (fun run =>
      (run.id, run.stack.below.length, run.current?.isNone)) = some ("r", 1, true) := by
    decide +kernel
  have hnext : (((guardedAnswer.hands 1).bind Hand.atWork?).map fun run =>
      (countingEngine.turn none ⟨⟨run, 0⟩, 0⟩).scene.run.stack).map (fun after =>
        (after.below.length, after.top.cursor, Keyed.get? after.top.data "pick")) =
      some (0, 1, some (.str "done")) := by decide +kernel
  obtain ⟨run, hatWork, hshape⟩ := Option.map_eq_some_iff.mp hwork
  rw [hatWork] at hnext
  simp only [Option.map_some, Option.some.injEq, Prod.mk.injEq] at hshape hnext
  obtain ⟨hid, hlength, hend⟩ := hshape
  have hrun := System.hasRun_of_atWork hatWork
  obtain ⟨hreaches, hentered, hisolated⟩ := @Engine.case_isolated _ countingEngine 0 []
    [.exec 0 [], .turn 0, .turn 0, .turn 0, .turn 0, .settle 0, .drop 0, .takeUp "r",
      .withGlobal 1 [("k", .int 1)], .resume 1 [.str "done"]] _ _ _ hbegins
  obtain ⟨log, hlog⟩ := hreaches run hrun hid
  obtain ⟨f, hf⟩ := List.length_eq_one_iff.mp hlength
  obtain ⟨l, l₀, as, hentering, hstays, hframes⟩ := hentered run log hlog [] f [] hf
  obtain ⟨n, -, -, hcase⟩ := hisolated l l₀ hentering
  obtain ⟨-, -, hends⟩ := hcase run as hstays
  have hdepth : run.stack.below.length = l.scene.run.stack.frames.length := by
    rw [hf, hframes, List.length_map]
  obtain ⟨-, hturn⟩ := hends ⟨hdepth, Option.isNone_iff_eq_none.mp hend⟩
  exact ⟨run, n, l, l₀, as, hrun, hentering, hstays, hturn none 0 0 rfl, hnext⟩

end Pipework
