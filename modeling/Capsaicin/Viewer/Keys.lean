/-
The keyboard and the mouse of the viewer. What they send goes through a queue to the task that
talks to the server; when the queue is full it is dropped.
-/

import Capsaicin.Client.Events
import Capsaicin.Library.Journal
import Capsaicin.Library.LossyQueue

namespace Capsaicin.Viewer

open Client (InputEvent)
open LossyQueue (Channel)

/-! ### Keys -/

inductive ElementState where
  | pressed
  | released
  deriving DecidableEq, Repr

inductive KeyCode where
  | escape | digit1 | digit2 | digit3 | digit4 | digit5 | digit6 | digit7 | digit8 | digit9
  | digit0 | minus | equal | backspace | tab | keyQ | keyW | keyE | keyR | keyT | keyY | keyU
  | keyI | keyO | keyP | bracketLeft | bracketRight | enter | controlLeft | keyA | keyS | keyD
  | keyF | keyG | keyH | keyJ | keyK | keyL | semicolon | quote | backquote | shiftLeft
  | backslash | keyZ | keyX | keyC | keyV | keyB | keyN | keyM | comma | period | slash
  | shiftRight | altLeft | space | capsLock | f1 | f2 | f3 | f4 | f5 | f6 | f7 | f8 | f9 | f10
  | controlRight | altRight | arrowUp | arrowLeft | arrowRight | arrowDown | home | end | pageUp
  | pageDown | insert | delete | superLeft | superRight
  | other (code : Nat)
  deriving DecidableEq, Repr

inductive PhysicalKey where
  | code (code : KeyCode)
  | unidentified
  deriving DecidableEq, Repr

structure KeyEvent where
  physicalKey : PhysicalKey
  state : ElementState
  deriving DecidableEq, Repr

def winitKeycodeToSpice : KeyCode → Option Nat
  | .escape => some 0x01
  | .digit1 => some 0x02
  | .digit2 => some 0x03
  | .digit3 => some 0x04
  | .digit4 => some 0x05
  | .digit5 => some 0x06
  | .digit6 => some 0x07
  | .digit7 => some 0x08
  | .digit8 => some 0x09
  | .digit9 => some 0x0a
  | .digit0 => some 0x0b
  | .minus => some 0x0c
  | .equal => some 0x0d
  | .backspace => some 0x0e
  | .tab => some 0x0f
  | .keyQ => some 0x10
  | .keyW => some 0x11
  | .keyE => some 0x12
  | .keyR => some 0x13
  | .keyT => some 0x14
  | .keyY => some 0x15
  | .keyU => some 0x16
  | .keyI => some 0x17
  | .keyO => some 0x18
  | .keyP => some 0x19
  | .bracketLeft => some 0x1a
  | .bracketRight => some 0x1b
  | .enter => some 0x1c
  | .controlLeft => some 0x1d
  | .keyA => some 0x1e
  | .keyS => some 0x1f
  | .keyD => some 0x20
  | .keyF => some 0x21
  | .keyG => some 0x22
  | .keyH => some 0x23
  | .keyJ => some 0x24
  | .keyK => some 0x25
  | .keyL => some 0x26
  | .semicolon => some 0x27
  | .quote => some 0x28
  | .backquote => some 0x29
  | .shiftLeft => some 0x2a
  | .backslash => some 0x2b
  | .keyZ => some 0x2c
  | .keyX => some 0x2d
  | .keyC => some 0x2e
  | .keyV => some 0x2f
  | .keyB => some 0x30
  | .keyN => some 0x31
  | .keyM => some 0x32
  | .comma => some 0x33
  | .period => some 0x34
  | .slash => some 0x35
  | .shiftRight => some 0x36
  | .altLeft => some 0x38
  | .space => some 0x39
  | .capsLock => some 0x3a
  | .f1 => some 0x3b
  | .f2 => some 0x3c
  | .f3 => some 0x3d
  | .f4 => some 0x3e
  | .f5 => some 0x3f
  | .f6 => some 0x40
  | .f7 => some 0x41
  | .f8 => some 0x42
  | .f9 => some 0x43
  | .f10 => some 0x44
  | .controlRight => some 0xe01d
  | .altRight => some 0xe038
  | .arrowUp => some 0xe048
  | .arrowLeft => some 0xe04b
  | .arrowRight => some 0xe04d
  | .arrowDown => some 0xe050
  | .home => some 0xe047
  | .end => some 0xe04f
  | .pageUp => some 0xe049
  | .pageDown => some 0xe051
  | .insert => some 0xe052
  | .delete => some 0xe053
  | .superLeft => some 0xe05b
  | .superRight => some 0xe05c
  | .other _ => none

/-- The break bit is set on the low byte. -/
def breakCode (scancode : Nat) : Nat :=
  (scancode &&& 0xFFFFFF00) ||| ((scancode &&& 0xFF) ||| 0x80)

/-- The scancode of a key, from either of its two codes. -/
def makeCode (code : Nat) : Nat := (code &&& 0xFFFFFF00) ||| (code &&& 0x7F)

def stateInput (scancode : Nat) : ElementState → InputEvent
  | .pressed => .keyDown scancode
  | .released => .keyUp (breakCode scancode)

def keyInput (event : KeyEvent) : Option InputEvent :=
  match event.physicalKey with
  | .unidentified => none
  | .code code => (winitKeycodeToSpice code).map fun scancode => stateInput scancode event.state

/-! ### The queue -/

structure Inputs where
  cursorX : Nat
  cursorY : Nat
  buttonsState : Nat
  inputTx : Channel InputEvent
  deriving DecidableEq, Repr

inductive MouseButton where
  | left
  | right
  | middle
  | other
  deriving DecidableEq, Repr

def spiceButton : MouseButton → Option (Nat × Nat)
  | .left => some (1, 1 <<< 0)
  | .right => some (3, 1 <<< 2)
  | .middle => some (2, 1 <<< 1)
  | .other => none

def CAPACITY : Nat := 256

namespace Inputs

def new : Inputs := { cursorX := 0, cursorY := 0, buttonsState := 0, inputTx := Channel.empty }

def sendInputNonblocking (inputs : Inputs) (event : InputEvent) : Inputs :=
  { inputs with inputTx := inputs.inputTx.trySend CAPACITY event }

def handleKey (inputs : Inputs) (event : KeyEvent) : Inputs :=
  match keyInput event with
  | none => inputs
  | some input => inputs.sendInputNonblocking input

/-- The position is that on the surface, scaled from the window in floating point. There is
none without a window or a surface. -/
def handleCursorMoved (inputs : Inputs) (position : Option (Nat × Nat)) : Inputs :=
  match position with
  | none => inputs
  | some (x, y) =>
      { inputs with cursorX := x, cursorY := y }.sendInputNonblocking
        (.mousePosition x y inputs.buttonsState 0)

def handleMouseButton (inputs : Inputs) (state : ElementState) (button : MouseButton) : Inputs :=
  match spiceButton button with
  | none => inputs
  | some (spiceBtn, mask) =>
      match state with
      | .pressed =>
          let buttons := inputs.buttonsState ||| mask
          { inputs with buttonsState := buttons }.sendInputNonblocking
            (.mousePress spiceBtn buttons)
      | .released =>
          let buttons := inputs.buttonsState &&& (0xFFFFFFFF ^^^ mask)
          { inputs with buttonsState := buttons }.sendInputNonblocking
            (.mouseRelease spiceBtn buttons)

/-- The task takes one event out of the queue and sends it to the guest. -/
def drain (inputs : Inputs) : Inputs := { inputs with inputTx := inputs.inputTx.drain }

end Inputs

inductive Step where
  | keyboardInput (event : KeyEvent)
  | cursorMoved (position : Option (Nat × Nat))
  | mouseInput (state : ElementState) (button : MouseButton)
  | drain
  deriving DecidableEq, Repr

def Inputs.step (inputs : Inputs) : Step → Inputs
  | .keyboardInput event => inputs.handleKey event
  | .cursorMoved position => inputs.handleCursorMoved position
  | .mouseInput state button => inputs.handleMouseButton state button
  | .drain => inputs.drain

def run (steps : List Step) : Inputs := steps.foldl Inputs.step Inputs.new

/-! ### What the guest and the user hold -/

/-- What an event tells the guest about a scancode. -/
def noted (scancode : Nat) : InputEvent → Option (Option Unit)
  | .keyDown code => if code = scancode then some (some ()) else none
  | .keyUp code => if makeCode code = scancode then some none else none
  | _ => none

/-- The last event about the scancode that the guest has got is a press. -/
def GuestHolds (delivered : List InputEvent) (scancode : Nat) : Prop :=
  Journal.current (noted scancode) delivered = some ()

def touched (code : KeyCode) : Step → Option (Option Unit)
  | .keyboardInput event =>
      if event.physicalKey = .code code then
        some (if event.state = .pressed then some () else none)
      else none
  | _ => none

/-- The key has been pressed, and not released since. -/
def Held (steps : List Step) (code : KeyCode) : Prop :=
  Journal.current (touched code) steps = some ()

/-- The guest holds the scancodes of the keys that are held. -/
def Follows (steps : List Step) : Prop :=
  ∀ scancode, GuestHolds (run steps).inputTx.delivered scancode ↔
    ∃ code, winitKeycodeToSpice code = some scancode ∧ Held steps code

/-- A key event that finds the queue full says no more than has been accepted about its key. -/
def Harmless (inputs : Inputs) : Step → Prop
  | .keyboardInput event => ∀ code scancode, event.physicalKey = .code code →
      winitKeycodeToSpice code = some scancode → CAPACITY ≤ inputs.inputTx.queue.length →
        (GuestHolds inputs.inputTx.accepted scancode ↔ event.state = .pressed)
  | _ => True

/-! ### The table of scancodes -/

def mappedKeys : List KeyCode :=
  [.escape, .digit1, .digit2, .digit3, .digit4, .digit5, .digit6, .digit7, .digit8, .digit9,
  .digit0, .minus, .equal, .backspace, .tab, .keyQ, .keyW, .keyE, .keyR, .keyT, .keyY, .keyU,
  .keyI, .keyO, .keyP, .bracketLeft, .bracketRight, .enter, .controlLeft, .keyA, .keyS, .keyD,
  .keyF, .keyG, .keyH, .keyJ, .keyK, .keyL, .semicolon, .quote, .backquote, .shiftLeft,
  .backslash, .keyZ, .keyX, .keyC, .keyV, .keyB, .keyN, .keyM, .comma, .period, .slash,
  .shiftRight, .altLeft, .space, .capsLock, .f1, .f2, .f3, .f4, .f5, .f6, .f7, .f8, .f9, .f10,
  .controlRight, .altRight, .arrowUp, .arrowLeft, .arrowRight, .arrowDown, .home, .end, .pageUp,
  .pageDown, .insert, .delete, .superLeft, .superRight]

theorem mem_mappedKeys {code : KeyCode} {scancode : Nat}
    (mapped : winitKeycodeToSpice code = some scancode) : code ∈ mappedKeys := by
  cases code with
  | other number => cases mapped
  | _ => simp [mappedKeys]

/-- No two keys have the same scancode. -/
theorem winitKeycodeToSpice_inj {code code' : KeyCode} {scancode : Nat}
    (mapped : winitKeycodeToSpice code = some scancode)
    (mapped' : winitKeycodeToSpice code' = some scancode) : code = code' := by
  have found : ∀ key ∈ mappedKeys,
      mappedKeys.find? (fun other => winitKeycodeToSpice other == winitKeycodeToSpice key) =
        some key := by
    decide +kernel
  have first := found code (mem_mappedKeys mapped)
  have second := found code' (mem_mappedKeys mapped')
  rw [mapped] at first
  rw [mapped', first] at second
  exact Option.some.inj second

theorem makeCode_mapped {code : KeyCode} {scancode : Nat}
    (mapped : winitKeycodeToSpice code = some scancode) :
    makeCode scancode = scancode ∧ makeCode (breakCode scancode) = scancode := by
  have every : ∀ key ∈ mappedKeys, ∀ found ∈ winitKeycodeToSpice key,
      makeCode found = found ∧ makeCode (breakCode found) = found := by
    decide +kernel
  exact every code (mem_mappedKeys mapped) scancode mapped

/-! ### Steps and runs -/

/-- What the guest will know about a scancode, once it has got all that was accepted. -/
def known (scancode : Nat) (inputs : Inputs) : Option Unit :=
  Journal.current (noted scancode) inputs.inputTx.accepted

def told (scancode : Nat) : Step → Option (Option Unit)
  | .keyboardInput event => (keyInput event).bind (noted scancode)
  | _ => none

variable {inputs : Inputs} {scancode : Nat}

theorem known_send (event : InputEvent)
    (heard : inputs.inputTx.queue.length < CAPACITY ∨
      (noted scancode event).getD (known scancode inputs) = known scancode inputs) :
    known scancode (inputs.sendInputNonblocking event) =
      (noted scancode event).getD (known scancode inputs) := by
  unfold known Inputs.sendInputNonblocking at *
  dsimp only
  by_cases room : inputs.inputTx.queue.length < CAPACITY
  · rw [Channel.accepted_trySend room, Journal.current_snoc]
  · rw [Channel.trySend_full room]
    exact (heard.resolve_left room).symm

theorem known_full (event : InputEvent) (full : ¬ inputs.inputTx.queue.length < CAPACITY) :
    known scancode (inputs.sendInputNonblocking event) = known scancode inputs := by
  unfold known Inputs.sendInputNonblocking
  rw [Channel.trySend_full full]

theorem noted_stateInput {code : KeyCode} {mapped : Nat}
    (found : winitKeycodeToSpice code = some mapped) (state : ElementState) :
    noted scancode (stateInput mapped state) =
      if mapped = scancode then some (if state = .pressed then some () else none) else none := by
  cases state with
  | pressed => rfl
  | released =>
      rw [stateInput, noted, (makeCode_mapped found).2]
      rfl

theorem keyInput_mapped {event : KeyEvent} {code : KeyCode} {mapped : Nat}
    (pressed : event.physicalKey = .code code) (found : winitKeycodeToSpice code = some mapped) :
    keyInput event = some (stateInput mapped event.state) := by
  unfold keyInput
  rw [pressed]
  dsimp only
  rw [found]
  rfl

theorem keyInput_cases (event : KeyEvent) :
    (∃ code mapped, event.physicalKey = .code code ∧ winitKeycodeToSpice code = some mapped) ∨
      keyInput event = none := by
  unfold keyInput
  cases event.physicalKey with
  | unidentified => exact Or.inr rfl
  | code code =>
      dsimp only
      cases found : winitKeycodeToSpice code with
      | none => exact Or.inr rfl
      | some mapped => exact Or.inl ⟨code, mapped, rfl, found⟩

theorem some_unit_iff {left right : Option Unit} (same : left = some () ↔ right = some ()) :
    left = right := by
  cases left with
  | none =>
      cases right with
      | none => rfl
      | some _ => exact absurd (same.mpr rfl) (by simp)
  | some _ => exact (same.mp rfl).symm

theorem known_eq_iff (state : ElementState) :
    known scancode inputs = (if state = .pressed then some () else none) ↔
      (GuestHolds inputs.inputTx.accepted scancode ↔ state = .pressed) := by
  change _ ↔ (known scancode inputs = some () ↔ _)
  cases state with
  | pressed => simp
  | released =>
      constructor
      · intro unknown
        rw [unknown]
        simp
      · intro same
        apply some_unit_iff
        rw [same]
        simp

theorem harmless_key (event : KeyEvent) :
    Harmless inputs (.keyboardInput event) ↔ ∀ scancode, known scancode (inputs.handleKey event) =
      (told scancode (.keyboardInput event)).getD (known scancode inputs) := by
  unfold Inputs.handleKey
  change _ ↔ ∀ scancode, _ = ((keyInput event).bind (noted scancode)).getD _
  rcases keyInput_cases event with ⟨code, mapped, pressed, found⟩ | silent
  · rw [keyInput_mapped pressed found]
    change _ ↔ ∀ scancode, _ = (noted scancode (stateInput mapped event.state)).getD _
    constructor
    · intro harmless scancode
      apply known_send
      by_cases room : inputs.inputTx.queue.length < CAPACITY
      · exact Or.inl room
      · have already := harmless code mapped pressed found (by omega)
        right
        rw [noted_stateInput found]
        by_cases own : mapped = scancode
        · subst own
          rw [if_pos rfl]
          exact ((known_eq_iff event.state).mpr already).symm
        · rw [if_neg own]
          rfl
    · intro knows code' scancode pressed' found' full
      rw [pressed] at pressed'
      cases pressed'
      rw [found] at found'
      cases found'
      have knew := knows mapped
      rw [known_full _ (by omega), noted_stateInput found, if_pos rfl] at knew
      exact (known_eq_iff event.state).mp knew
  · rw [silent]
    constructor
    · intro _harmless scancode
      rfl
    · intro _knows code scancode pressed found
      rw [keyInput_mapped pressed found] at silent
      cases silent

theorem harmless_iff (inputs : Inputs) (step : Step) :
    Harmless inputs step ↔ ∀ scancode, known scancode (inputs.step step) =
      (told scancode step).getD (known scancode inputs) := by
  cases step with
  | keyboardInput event => exact harmless_key event
  | cursorMoved position =>
      constructor
      · intro _harmless scancode
        cases position with
        | none => rfl
        | some found => exact known_send _ (Or.inr rfl)
      · intro _knows
        exact trivial
  | mouseInput state button =>
      constructor
      · intro _harmless scancode
        change known scancode (inputs.handleMouseButton state button) = _
        unfold Inputs.handleMouseButton
        cases spiceButton button with
        | none => rfl
        | some found =>
            cases state with
            | pressed => exact known_send _ (Or.inr rfl)
            | released => exact known_send _ (Or.inr rfl)
      · intro _knows
        exact trivial
  | drain =>
      constructor
      · intro _harmless scancode
        change Journal.current _ inputs.inputTx.drain.accepted = _
        rw [Channel.accepted_drain]
        rfl
      · intro _knows
        exact trivial

/-- A key is held if the last step that says something under its scancode is a press. -/
theorem told_mapped {code : KeyCode} (found : winitKeycodeToSpice code = some scancode)
    (steps : List Step) :
    Journal.current (told scancode) steps = some () ↔ Held steps code := by
  have same : told scancode = touched code := by
    funext step
    cases step with
    | keyboardInput event =>
        change (keyInput event).bind (noted scancode) =
          if event.physicalKey = .code code then _ else _
        by_cases own : event.physicalKey = .code code
        · rw [if_pos own, keyInput_mapped own found]
          change noted scancode (stateInput scancode event.state) = _
          rw [noted_stateInput found, if_pos rfl]
        · rw [if_neg own]
          rcases keyInput_cases event with ⟨other, mapped, pressed, found'⟩ | silent
          · rw [keyInput_mapped pressed found']
            change noted scancode (stateInput mapped event.state) = _
            rw [noted_stateInput found', if_neg]
            rintro rfl
            rw [winitKeycodeToSpice_inj found found'] at own
            exact own pressed
          · rw [silent]
            rfl
    | _ => rfl
  rw [same]
  rfl

theorem told_unmapped (steps : List Step)
    (free : ¬ ∃ code, winitKeycodeToSpice code = some scancode) :
    Journal.current (told scancode) steps = none := by
  have silent : ∀ step ∈ steps, told scancode step = none := by
    intro step _member
    cases step with
    | keyboardInput event =>
        change (keyInput event).bind (noted scancode) = none
        rcases keyInput_cases event with ⟨other, mapped, pressed, found⟩ | silent
        · rw [keyInput_mapped pressed found]
          change noted scancode (stateInput mapped event.state) = none
          rw [noted_stateInput found, if_neg]
          rintro rfl
          exact free ⟨other, found⟩
        · rw [silent]
          rfl
    | _ => rfl
  exact @Journal.current_silent _ _ _ [] steps silent

/-- With the queue empty, the guest follows if it knows what the steps said. -/
theorem follows_iff_known {steps : List Step} (idle : (run steps).inputTx.queue = []) :
    Follows steps ↔
      ∀ scancode, known scancode (run steps) = Journal.current (told scancode) steps := by
  have held (scancode : Nat) :
      (∃ code, winitKeycodeToSpice code = some scancode ∧ Held steps code) ↔
        Journal.current (told scancode) steps = some () := by
    constructor
    · rintro ⟨code, found, holds⟩
      exact (told_mapped found steps).mpr holds
    · intro holds
      by_cases mapped : ∃ code, winitKeycodeToSpice code = some scancode
      · rcases mapped with ⟨code, found⟩
        exact ⟨code, found, (told_mapped found steps).mp holds⟩
      · rw [told_unmapped steps mapped] at holds
        cases holds
  unfold Follows GuestHolds
  rw [Channel.delivered_eq idle]
  constructor
  · intro follows scancode
    exact some_unit_iff ((follows scancode).trans (held scancode))
  · intro knows scancode
    rw [held, ← knows]
    rfl

theorem run_drains (steps : List Step) (count : Nat) :
    (run (steps ++ List.replicate count .drain)).inputTx =
      Channel.drain^[count] (run steps).inputTx := by
  unfold run
  rw [List.foldl_append]
  generalize steps.foldl Inputs.step Inputs.new = inputs
  induction count generalizing inputs with
  | zero => rfl
  | succ count ih =>
      rw [List.replicate_succ, List.foldl_cons, ih, Function.iterate_succ_apply]
      rfl

theorem drains_agree (steps : List Step) (count scancode : Nat) :
    known scancode (run (steps ++ List.replicate count .drain)) = known scancode (run steps) ∧
      Journal.current (told scancode) (steps ++ List.replicate count .drain) =
        Journal.current (told scancode) steps := by
  constructor
  · unfold known
    rw [run_drains, Channel.accepted_drains]
  · apply Journal.current_silent
    intro step member
    rw [List.eq_of_mem_replicate member]
    rfl

/-- Whenever the queue is empty the guest holds what the user holds, at every moment of a run
and wherever the other task catches up with it, if and only if all steps are harmless. -/
theorem keys_follow_iff (steps : List Step) :
    (∀ before rest count, steps = before ++ rest →
        (run (before ++ List.replicate count .drain)).inputTx.queue = [] →
          Follows (before ++ List.replicate count .drain)) ↔
      ∀ before step rest, steps = before ++ step :: rest → Harmless (run before) step := by
  have agrees : (∀ before rest, steps = before ++ rest →
        ∀ scancode, known scancode (run before) = Journal.current (told scancode) before) ↔
      ∀ before step rest, steps = before ++ step :: rest → Harmless (run before) step := by
    simp only [harmless_iff]
    exact Journal.follows_iff fun _scancode => rfl
  rw [← agrees]
  constructor
  · intro follows before rest split scancode
    have caughtUp : (run (before ++
        List.replicate (run before).inputTx.queue.length .drain)).inputTx.queue = [] := by
      rw [run_drains, Channel.queue_drains, List.drop_length]
    have knows := (follows_iff_known caughtUp).mp (follows before rest _ split caughtUp) scancode
    rw [(drains_agree before _ scancode).1, (drains_agree before _ scancode).2] at knows
    exact knows
  · intro knows before rest count split idle
    apply (follows_iff_known idle).mpr
    intro scancode
    rw [(drains_agree before count scancode).1, (drains_agree before count scancode).2]
    exact knows before rest split scancode

/-- A key is pressed, the queue fills up, and the key is released. Then the other task takes all
that is in the queue. -/
def lostRelease : List Step :=
  .keyboardInput ⟨.code .keyA, .pressed⟩ ::
    List.replicate 255 (.keyboardInput ⟨.code .keyB, .pressed⟩) ++
      .keyboardInput ⟨.code .keyA, .released⟩ :: List.replicate 256 .drain

/-- The guest holds a key that nobody holds. -/
theorem key_stuck :
    (run lostRelease).inputTx.queue = [] ∧
      GuestHolds (run lostRelease).inputTx.delivered 0x1e ∧ ¬ Held lostRelease .keyA ∧
      ¬ Follows lostRelease := by
  have idle : (run lostRelease).inputTx.queue = [] := by decide +kernel
  have holds : GuestHolds (run lostRelease).inputTx.delivered 0x1e := by
    unfold GuestHolds
    decide +kernel
  have free : ¬ Held lostRelease .keyA := by
    unfold Held
    decide +kernel
  refine ⟨idle, holds, free, ?_⟩
  intro follows
  rcases (follows 0x1e).mp holds with ⟨code, found, held⟩
  rw [winitKeycodeToSpice_inj found (rfl : winitKeycodeToSpice .keyA = some 0x1e)] at held
  exact free held

end Capsaicin.Viewer
