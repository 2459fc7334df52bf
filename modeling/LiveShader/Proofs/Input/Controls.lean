import LiveShader.Machine.Request
import LiveShader.Proofs.Uniform.Shown
import Mathlib
/-!
# Proofs.Input.Controls — what flags, mode, counter, arrows and buttons owe to the events

The controls are what keys and mouse buttons alone decide about the input.  `Controls.after` reads them off a trace,
event by event; `recount` says what they are by counting the events since the last reset.  Both agree on every trace
(`foldl_take_eq_recount`).
-/
namespace LiveShader

open Machine

/-! ## What an event says -/

namespace Window
namespace Event

/-- A key goes down that was not held. -/
def strikes (key : Key) : Event → Bool
  | .window (.keyboard (some k) true false) => decide (k = key)
  | _ => false

/-- A key goes down or is held. -/
def presses (key : Key) : Event → Bool
  | .window (.keyboard (some k) true _) => decide (k = key)
  | _ => false

/-- A key that flips a flag is struck. -/
def flips (i : Fin Uniform.flagCount) (e : Event) : Bool := e.strikes (.digit i) || e.strikes (.numpad i)

/-- Whether an arrow key is down, as far as an event tells. -/
def arrow? (d : Direction) : Event → Option Bool
  | .window (.keyboard (some (.arrow d')) pressed _) => if d' = d then some pressed else none
  | _ => none

/-- Whether a mouse button is down, as far as an event tells. -/
def button? (b : MouseSlot) : Event → Option Bool
  | .window (.mouseButton (some b') pressed) => if b' = b then some pressed else none
  | _ => none

/-- One up or one down, and no further than the integers of 32 bits go. -/
def count (n : Int) (e : Event) : Int :=
  if e.presses .bracketRight then min (n + 1) 2147483647
  else if e.presses .bracketLeft then max (n - 1) (-2147483648)
  else n

/-- The events behind the last reset. -/
def sinceReset (events : List Event) : List Event := events.rtakeWhile fun e => !e.strikes .f9

theorem sinceReset_concat (events : List Event) (e : Event) :
    sinceReset (events ++ [e]) = if e.strikes .f9 then [] else sinceReset events ++ [e] := by
  unfold sinceReset
  rw [List.rtakeWhile_concat]
  cases e.strikes .f9 <;> rfl

theorem count_bounds {n : Int} (h : -2147483648 ≤ n ∧ n ≤ 2147483647) (e : Event) :
    -2147483648 ≤ count n e ∧ count n e ≤ 2147483647 := by
  unfold count
  split
  · omega
  · split <;> omega

theorem foldl_count_bounds (events : List Event) :
    -2147483648 ≤ events.foldl count 0 ∧ events.foldl count 0 ≤ 2147483647 := by
  induction events using List.reverseRecOn with
  | nil => decide
  | append_singleton events e ih =>
    rw [List.foldl_append]
    exact count_bounds ih e

/-- An event that is of another window, of a key without an action or of a button that shaders do not see. -/
def isStray : Event → Bool
  | .foreign _ => true
  | .window (.mouseButton none _) => true
  | .window (.keyboard none _ _) | .window (.keyboard (some (.unbound _)) _ _) => true
  | _ => false

end Event
end Window

open Window (Event)

/-- The part of the input that keys and mouse buttons alone decide. -/
structure Controls where
  flags : Fin Uniform.flagCount → Bool := fun _ => false
  mode : Nat := 0
  increment : Int := 0
  arrows : Direction → Bool := fun _ => false
  buttons : MouseSlot → Bool := fun _ => false

def InputState.controls (s : InputState) : Controls where
  flags i := s.flags.get i
  mode := s.mode
  increment := s.increment
  arrows d := s.arrows.get d.index
  buttons b := s.buttons.get b.index

namespace Controls

/-! ## Event by event -/

/-- What an action does to the controls. -/
def act (c : Controls) : KeyAction → Controls
  | .resetInput => {}
  | .toggleFlag i => { c with flags := fun j => c.flags j ^^ decide (i = j) }
  | .cycleMode => { c with mode := (c.mode + 1) % InputState.modeCount }
  | .increment => { c with increment := InputState.saturate (c.increment + 1) }
  | .decrement => { c with increment := InputState.saturate (c.increment + -1) }
  | _ => c

/-- What a key does to the controls. -/
def takeKey (c : Controls) (key : Key) (pressed held : Bool) : Controls :=
  match key.action? false with
  | none => c
  | some (.pan d) => { c with arrows := fun d' => if d = d' then pressed else c.arrows d' }
  | some action => if !pressed || (held && !action.repeats) then c else c.act action

def take (c : Controls) : Event → Controls
  | .window (.keyboard (some key) pressed held) => c.takeKey key pressed held
  | .window (.mouseButton (some b) pressed) => { c with buttons := fun b' => if b = b' then pressed else c.buttons b' }
  | _ => c

def enter (c : Controls) : Entry → Controls
  | .event e => c.take e
  | .call _ => c

def after (c : Controls) (t : Trace) : Controls := t.foldl enter c

theorem after_append (c : Controls) (t u : Trace) : c.after (t ++ u) = (c.after t).after u := List.foldl_append

def isCall : Entry → Bool
  | .call _ => true
  | .event _ => false

def event? : Entry → Option Event
  | .event e => some e
  | .call _ => none

/-- A trace that leaves the controls alone. -/
def Ignores (t : Trace) : Prop := ∀ c : Controls, c.after t = c

theorem Ignores.append {t u : Trace} (ht : Ignores t) (hu : Ignores u) : Ignores (t ++ u) := by
  intro c
  rw [after_append, ht, hu]

theorem ignores_of_calls : ∀ {t : Trace}, t.all isCall = true → Ignores t
  | [], _, _ => rfl
  | .call _ :: t, h, c => by
    have hrest : Ignores t := ignores_of_calls h
    exact hrest c

/-- The events in a trace, in order. -/
def heard (t : Trace) : List Event := t.filterMap event?

theorem after_eq_foldl : ∀ (t : Trace) (c : Controls), c.after t = (heard t).foldl take c
  | [], _ => rfl
  | .call _ :: t, c => after_eq_foldl t c
  | .event e :: t, c => after_eq_foldl t (c.take e)

/-- Shift makes no difference to what a key does to the controls. -/
theorem takeKey_eq (c : Controls) (key : Key) (pressed held shift : Bool) :
    c.takeKey key pressed held =
      match key.action? shift with
      | none => c
      | some (.pan d) => { c with arrows := fun d' => if d = d' then pressed else c.arrows d' }
      | some action => if !pressed || (held && !action.repeats) then c else c.act action := by
  cases key with
  | f5 => cases shift <;> rfl
  | _ => rfl

/-! ## The controls of an input state -/

theorem index_direction_inj {d d' : Direction} : d.index.val = d'.index.val ↔ d = d' := by
  cases d <;> cases d' <;> decide

theorem index_button_inj {b b' : MouseSlot} : b.index.val = b'.index.val ↔ b = b' := by
  cases b <;> cases b' <;> decide

theorem controls_initial : InputState.initial.controls = {} := by
  simp [InputState.controls, Vector.get_eq_getElem, InputState.initial]

theorem controls_reset (s : InputState) : s.reset.controls = {} := controls_initial

theorem controls_toggleFlag (s : InputState) (i : Fin Uniform.flagCount) :
    (s.toggleFlag i).controls = s.controls.act (.toggleFlag i) := by
  have hflag : s.flag i = s.flags[i] := by simp [InputState.flag]
  simp only [InputState.controls, Vector.get_eq_getElem, InputState.toggleFlag, act, hflag, mk.injEq, and_true]
  funext j
  by_cases h : i = j
  · subst h
    simp
  · have hval : i.val ≠ j.val := fun e => h (Fin.ext e)
    simp [h, hval]

theorem controls_setArrow (s : InputState) (d : Direction) (pressed : Bool) :
    (s.setArrow d pressed).controls =
      { s.controls with arrows := fun d' => if d = d' then pressed else s.controls.arrows d' } := by
  simp [InputState.controls, Vector.get_eq_getElem, InputState.setArrow, Vector.getElem_set, index_direction_inj]

theorem controls_setButton (s : InputState) (b : MouseSlot) (pressed : Bool) :
    (s.setButton b pressed).controls =
      { s.controls with buttons := fun b' => if b = b' then pressed else s.controls.buttons b' } := by
  simp [InputState.controls, Vector.get_eq_getElem, InputState.setButton, Vector.getElem_set, index_button_inj]

/-- What a table shows of the controls: one for what is set, pressed or held, and zero for what is not. -/
structure Shown (c : Controls) (t : Uniform.Table) : Prop where
  flags : t.value .flags = .ints (List.ofFn fun i => if c.flags i then 1 else 0)
  mode : t.value .mode = .int c.mode
  increment : t.value .increment = .int c.increment
  arrows : t.value .keyPressed = .ints ([.up, .down, .left, .right].map fun d => if c.arrows d then 1 else 0)
  buttons : t.value .mousePressed = .ints ([.left, .right, .middle].map fun b => if c.buttons b then 1 else 0)

/-- **A table that shows an input shows its controls.** -/
theorem shown_of_input {s : InputState} {t : Uniform.Table} (h : s.Shown t) : s.controls.Shown t :=
  ⟨h.flags, h.mode, h.increment, h.arrows, h.buttons⟩

/-! ## By counting -/

/-- The controls after some events and no reset. -/
def recount (events : List Event) : Controls where
  flags i := events.countP (·.flips i) % 2 == 1
  mode := events.countP (·.strikes .letterM) % 3
  increment := events.foldl Event.count 0
  arrows d := (events.filterMap (·.arrow? d)).getLast? == some true
  buttons b := (events.filterMap (·.button? b)).getLast? == some true

/-- One event more, in terms of what the event says. -/
def step (c : Controls) (e : Event) : Controls where
  flags i := c.flags i ^^ e.flips i
  mode := if e.strikes .letterM then (c.mode + 1) % 3 else c.mode
  increment := e.count c.increment
  arrows d := (e.arrow? d).getD (c.arrows d)
  buttons b := (e.button? b).getD (c.buttons b)

theorem odd_concat (p : Event → Bool) (events : List Event) (e : Event) :
    ((events ++ [e]).countP p % 2 == 1) = ((events.countP p % 2 == 1) ^^ p e) := by
  rw [List.countP_append, List.countP_singleton]
  cases p e
  · simp
  · have hparity := Nat.mod_two_eq_zero_or_one (events.countP p)
    rcases hparity with h | h <;> simp [Nat.add_mod, h]

theorem last_concat (f : Event → Option Bool) (events : List Event) (e : Event) :
    (((events ++ [e]).filterMap f).getLast? == some true) =
      (f e).getD ((events.filterMap f).getLast? == some true) := by
  rw [List.filterMap_append]
  cases h : f e with
  | none => simp [h]
  | some b => cases b <;> simp [h]

theorem recount_concat (events : List Event) (e : Event) : recount (events ++ [e]) = (recount events).step e := by
  unfold recount step
  congr 1
  · funext i
    exact odd_concat _ events e
  · rw [List.countP_append, List.countP_singleton]
    split
    · exact (Nat.mod_add_mod _ _ _).symm
    · rfl
  · rw [List.foldl_append]
    rfl
  · funext d
    exact last_concat _ events e
  · funext b
    exact last_concat _ events e

theorem getD_ite {p : Prop} [Decidable p] (a b : Bool) : (if p then some a else none).getD b = if p then a else b := by
  split <;> rfl

/-- An event that says nothing leaves the controls alone. -/
theorem step_of_silent {c : Controls} {e : Event} (hflips : ∀ i, e.flips i = false) (hmode : e.strikes .letterM = false)
    (hcount : e.count c.increment = c.increment) (harrow : ∀ d, e.arrow? d = none) (hbutton : ∀ b, e.button? b = none) :
    c.step e = c := by
  simp [step, hflips, hmode, hcount, harrow, hbutton]

/-- **An event that is no reset does to the controls what it says.** -/
theorem take_eq_step {c : Controls} (hc : -2147483648 ≤ c.increment ∧ c.increment ≤ 2147483647) {e : Event}
    (he : e.strikes .f9 = false) : c.take e = c.step e := by
  have hup : InputState.saturate (c.increment + 1) = min (c.increment + 1) 2147483647 := by
    unfold InputState.saturate
    omega
  have hdown : InputState.saturate (c.increment + -1) = max (c.increment - 1) (-2147483648) := by
    unfold InputState.saturate
    omega
  match e with
  | .window (.keyboard (some key) pressed held) =>
    cases key <;> cases pressed <;> cases held <;>
      simp_all [take, takeKey, act, Key.action?, KeyAction.repeats, InputState.modeCount, step, Event.flips, Event.strikes,
        Event.presses, Event.count, Event.arrow?, Event.button?, getD_ite]
  | .window (.mouseButton (some b) pressed) =>
    simp [take, step, Event.flips, Event.strikes, Event.count, Event.presses, Event.arrow?, Event.button?, getD_ite]
  | .window (.mouseButton none _) | .window (.keyboard none _ _) | .window .closeRequested | .window (.resized _)
  | .window (.modifiersChanged _) | .window (.cursorMoved _ _) | .window (.wheelLines _ _) | .window (.wheelPixels _ _)
  | .window .redrawRequested | .window .unhandled | .foreign _ | .aboutToWait | .unhandled =>
    exact (step_of_silent (fun _ => rfl) rfl rfl (fun _ => rfl) fun _ => rfl).symm

theorem take_of_strikes_reset {c : Controls} : ∀ {e : Event}, e.strikes .f9 = true → c.take e = {}
  | .window (.keyboard (some key) true false), h => by
    have hkey : key = .f9 := of_decide_eq_true h
    subst hkey
    rfl

/-- **The controls after some events are those that a count of the events since the last reset gives.** -/
theorem foldl_take_eq_recount (events : List Event) : events.foldl take {} = recount (Event.sinceReset events) := by
  induction events using List.reverseRecOn with
  | nil => rfl
  | append_singleton events e ih =>
    rw [List.foldl_append, ih, Event.sinceReset_concat]
    cases he : e.strikes .f9 with
    | true => exact take_of_strikes_reset he
    | false =>
      rw [if_neg Bool.false_ne_true, recount_concat]
      exact take_eq_step (Event.foldl_count_bounds _) he

end Controls
end LiveShader
