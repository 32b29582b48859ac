/-
From the user's hands to the guest: what a server reads of the keys and the mouse of the
viewer.
-/

import Capsaicin.Client.InputsServer
import Capsaicin.Viewer.Keys
import Mathlib.Data.List.ReduceOption

namespace Capsaicin.Viewer

open Client (InputEvent Reply)
open Framing (Wake arrived events seen)
open LossyQueue
open Net (readMessages streamOf unread)

/-! ### What the user does -/

/-- What a step says about a button. -/
def clicked (button : MouseButton) : Step → Option (Option Unit)
  | .mouseInput state found =>
      if found = button then some (if state = .pressed then some () else none) else none
  | _ => none

/-- The button has been pressed, and not released since. -/
def ButtonHeld (steps : List Step) (button : MouseButton) : Prop :=
  Journal.current (clicked button) steps = some ()

instance (steps : List Step) (button : MouseButton) : Decidable (ButtonHeld steps button) :=
  inferInstanceAs (Decidable (_ = _))

def maskOf (left middle right : Bool) : Nat :=
  (if left then 1 else 0) + (if middle then 2 else 0) + if right then 4 else 0

def heldMask (steps : List Step) : Nat :=
  maskOf (ButtonHeld steps .left) (ButtonHeld steps .middle) (ButtonHeld steps .right)

/-- What a step means for the guest, behind all the steps before it. -/
def meant (before : List Step) (step : Step) : Option InputEvent :=
  match step with
  | .keyboardInput event => keyInput event
  | .cursorMoved position =>
      position.map fun place => .mousePosition place.1 place.2 (heldMask before) 0
  | .mouseInput .pressed button =>
      (spiceButton button).map fun found => .mousePress found.1 (heldMask (before ++ [step]))
  | .mouseInput .released button =>
      (spiceButton button).map fun found => .mouseRelease found.1 (heldMask (before ++ [step]))
  | .drain => none

def meantFrom (before : List Step) : List Step → List InputEvent
  | [] => []
  | step :: rest => (meant before step).toList ++ meantFrom (before ++ [step]) rest

/-- No step has found the queue full. -/
def Roomy (steps : List Step) : Prop :=
  ∀ before step after, steps = before ++ step :: after → (meant before step).isSome = true →
    (run before).inputTx.queue.length < CAPACITY

section Buttons

variable {before : List Step} {state : ElementState} {button : MouseButton}

theorem run_snoc (steps : List Step) (step : Step) :
    run (steps ++ [step]) = (run steps).step step :=
  List.foldl_concat _ _ _ _

theorem buttonHeld_snoc (step : Step) :
    ButtonHeld (before ++ [step]) button ↔
      (clicked button step).getD (Journal.current (clicked button) before) = some () := by
  rw [ButtonHeld, Journal.current_snoc]

theorem heldMask_still {step : Step} (still : ∀ button, clicked button step = none) :
    heldMask (before ++ [step]) = heldMask before := by
  have same (button : MouseButton) :
      ButtonHeld (before ++ [step]) button ↔ ButtonHeld before button := by
    rw [buttonHeld_snoc, still button]
    exact Iff.rfl
  simp only [heldMask, same]

theorem maskOf_clicked (state : ElementState) (left middle right : Bool) :
    let set (mask : Nat) : Nat :=
      match state with
      | .pressed => maskOf left middle right ||| mask
      | .released => maskOf left middle right &&& (0xFFFFFFFF ^^^ mask)
    maskOf (state = .pressed) middle right = set 1 ∧
      maskOf left (state = .pressed) right = set 2 ∧
      maskOf left middle (state = .pressed) = set 4 := by
  revert left middle right
  cases state <;> decide

theorem heldMask_clicked :
    heldMask (before ++ [.mouseInput state button]) =
      match spiceButton button with
      | none => heldMask before
      | some (_, mask) =>
          match state with
          | .pressed => heldMask before ||| mask
          | .released => heldMask before &&& (0xFFFFFFFF ^^^ mask) := by
  have other {found : MouseButton} (different : button ≠ found) :
      ButtonHeld (before ++ [.mouseInput state button]) found ↔ ButtonHeld before found := by
    rw [buttonHeld_snoc, clicked, if_neg different]
    exact Iff.rfl
  have own : ButtonHeld (before ++ [.mouseInput state button]) button ↔ state = .pressed := by
    rw [buttonHeld_snoc, clicked, if_pos rfl]
    cases state with
    | pressed => simp
    | released => simp
  unfold heldMask
  cases button with
  | left =>
      simp only [own, @other .middle (by simp), @other .right (by simp)]
      exact (maskOf_clicked state _ _ _).1
  | middle =>
      simp only [own, @other .left (by simp), @other .right (by simp)]
      exact (maskOf_clicked state _ _ _).2.1
  | right =>
      simp only [own, @other .left (by simp), @other .middle (by simp)]
      exact (maskOf_clicked state _ _ _).2.2
  | other =>
      simp only [@other .left (by simp), @other .middle (by simp), @other .right (by simp)]
      rfl

end Buttons

/-! ### One step -/

section Step

variable {before steps : List Step} {inputs : Inputs}

def admitted (inputs : Inputs) (sent : Option InputEvent) : List InputEvent :=
  if inputs.inputTx.queue.length < CAPACITY then sent.toList else []

theorem send_accepted (inputs : Inputs) (event : InputEvent) :
    (inputs.sendInputNonblocking event).inputTx.accepted =
      inputs.inputTx.accepted ++ admitted inputs (some event) := by
  unfold admitted
  by_cases room : inputs.inputTx.queue.length < CAPACITY
  · rw [if_pos room]
    exact Channel.accepted_trySend room
  · rw [if_neg room, List.append_nil]
    exact congrArg Channel.accepted (Channel.trySend_full room)

theorem admitted_none (inputs : Inputs) : admitted inputs none = [] := by simp [admitted]

theorem step_meant (mask : inputs.buttonsState = heldMask before) (step : Step) :
    (inputs.step step).buttonsState = heldMask (before ++ [step]) ∧
      (inputs.step step).inputTx.accepted =
        inputs.inputTx.accepted ++ admitted inputs (meant before step) := by
  cases step with
  | keyboardInput event =>
      rw [heldMask_still fun _button => rfl, ← mask]
      unfold Inputs.step Inputs.handleKey meant
      dsimp only
      cases keyInput event with
      | none =>
          rw [admitted_none, List.append_nil]
          exact ⟨rfl, rfl⟩
      | some input => exact ⟨rfl, send_accepted inputs input⟩
  | cursorMoved position =>
      rw [heldMask_still fun _button => rfl]
      cases position with
      | none =>
          refine ⟨mask, ?_⟩
          change inputs.inputTx.accepted = _ ++ admitted inputs none
          rw [admitted_none, List.append_nil]
      | some place =>
          refine ⟨mask, ?_⟩
          change _ = _ ++ admitted inputs (some (.mousePosition place.1 place.2 (heldMask before) 0))
          rw [← mask]
          exact send_accepted { inputs with cursorX := place.1, cursorY := place.2 } _
  | mouseInput state button =>
      have after := @heldMask_clicked before state button
      cases known : spiceButton button with
      | none =>
          rw [known] at after
          have same : inputs.step (.mouseInput state button) = inputs := by
            simp [Inputs.step, Inputs.handleMouseButton, known]
          have silent : meant before (.mouseInput state button) = none := by
            cases state <;> simp [meant, known]
          rw [same, silent, admitted_none, List.append_nil, after]
          exact ⟨mask, rfl⟩
      | some found =>
          obtain ⟨spiceBtn, bit⟩ := found
          rw [known] at after
          cases state with
          | pressed =>
              have same : inputs.step (.mouseInput .pressed button) =
                  ({ inputs with buttonsState := inputs.buttonsState ||| bit } :
                    Inputs).sendInputNonblocking (.mousePress spiceBtn (inputs.buttonsState ||| bit)) := by
                simp [Inputs.step, Inputs.handleMouseButton, known]
              have told : meant before (.mouseInput .pressed button) =
                  some (.mousePress spiceBtn (inputs.buttonsState ||| bit)) := by
                simp [meant, known, after, mask]
              rw [same, told, after, ← mask]
              exact ⟨rfl, send_accepted { inputs with buttonsState := _ } _⟩
          | released =>
              have same : inputs.step (.mouseInput .released button) =
                  ({ inputs with buttonsState := inputs.buttonsState &&& (0xFFFFFFFF ^^^ bit) } :
                    Inputs).sendInputNonblocking
                      (.mouseRelease spiceBtn (inputs.buttonsState &&& (0xFFFFFFFF ^^^ bit))) := by
                simp [Inputs.step, Inputs.handleMouseButton, known]
              have told : meant before (.mouseInput .released button) =
                  some (.mouseRelease spiceBtn (inputs.buttonsState &&& (0xFFFFFFFF ^^^ bit))) := by
                simp [meant, known, after, mask]
              rw [same, told, after, ← mask]
              exact ⟨rfl, send_accepted { inputs with buttonsState := _ } _⟩
  | drain =>
      rw [heldMask_still fun _button => rfl]
      refine ⟨mask, ?_⟩
      change inputs.inputTx.drain.accepted = _ ++ admitted inputs none
      rw [admitted_none, List.append_nil]
      exact Channel.accepted_drain _

theorem meantFrom_snoc (before steps : List Step) (step : Step) :
    meantFrom before (steps ++ [step]) =
      meantFrom before steps ++ (meant (before ++ steps) step).toList := by
  induction steps generalizing before with
  | nil => simp [meantFrom]
  | cons first rest ih =>
      rw [List.cons_append, meantFrom, ih, meantFrom, List.append_assoc]
      simp

/-! ### All steps -/

theorem run_mask (steps : List Step) : (run steps).buttonsState = heldMask steps := by
  induction steps using List.reverseRecOn with
  | nil => rfl
  | append_singleton steps step ih =>
      rw [run_snoc]
      exact (step_meant ih step).1

/-- The queue keeps the order of the user. -/
theorem run_order (steps : List Step) :
    (run steps).inputTx.accepted.Sublist (meantFrom [] steps) := by
  induction steps using List.reverseRecOn with
  | nil => exact List.Sublist.refl _
  | append_singleton steps step ih =>
      rw [run_snoc, (step_meant (run_mask steps) step).2, meantFrom_snoc, List.nil_append]
      apply ih.append
      unfold admitted
      split
      · exact List.Sublist.refl _
      · exact List.nil_sublist _

theorem run_roomy {steps : List Step} (roomy : Roomy steps) :
    (run steps).inputTx.accepted = meantFrom [] steps := by
  induction steps using List.reverseRecOn with
  | nil => rfl
  | append_singleton steps step ih =>
      have earlier : Roomy steps := by
        intro before found after same
        exact roomy before found (after ++ [step]) (by rw [same]; simp)
      rw [run_snoc, (step_meant (run_mask steps) step).2, meantFrom_snoc, List.nil_append, ih earlier]
      congr 1
      unfold admitted
      by_cases silent : meant steps step = none
      · simp [silent]
      · rw [if_pos (roomy steps step [] rfl (Option.isSome_iff_ne_none.mpr silent))]

end Step

/-! ### What fits the protocol -/

section Fits

variable {before steps : List Step} {step : Step} {event : InputEvent}

theorem heldMask_lt (steps : List Step) : heldMask steps < 256 ^ 4 := by
  unfold heldMask maskOf
  split <;> split <;> split <;> simp

theorem spiceButton_lt {button : MouseButton} {found : Nat × Nat}
    (known : spiceButton button = some found) : found.1 < 256 ^ 1 := by
  cases button with
  | other => cases known
  | _ =>
      cases known
      simp

theorem keyInput_fits {pressed : KeyEvent} (sent : keyInput pressed = some event) :
    event.Fits := by
  have every : ∀ key ∈ mappedKeys, ∀ found ∈ winitKeycodeToSpice key,
      found < 256 ^ 4 ∧ breakCode found < 256 ^ 4 := by
    decide +kernel
  rcases keyInput_cases pressed with ⟨code, mapped, own, found⟩ | silent
  · rw [keyInput_mapped own found] at sent
    have small := every code (mem_mappedKeys found) mapped found
    cases state : pressed.state with
    | pressed =>
        rw [state] at sent
        cases sent
        exact small.1
    | released =>
        rw [state] at sent
        cases sent
        exact small.2
  · rw [silent] at sent
    cases sent

theorem meant_fits (sent : meant before step = some event)
    (placed : ∀ x y, step = .cursorMoved (some (x, y)) → x < 256 ^ 4 ∧ y < 256 ^ 4) :
    event.Fits := by
  cases step with
  | keyboardInput pressed => exact keyInput_fits sent
  | cursorMoved position =>
      rcases Option.map_eq_some_iff.mp sent with ⟨⟨x, y⟩, moved, same⟩
      subst moved same
      exact ⟨(placed x y rfl).1, (placed x y rfl).2, heldMask_lt before, by simp⟩
  | mouseInput state button =>
      cases state with
      | pressed =>
          rcases Option.map_eq_some_iff.mp sent with ⟨found, known, same⟩
          subst same
          exact ⟨spiceButton_lt known, heldMask_lt _⟩
      | released =>
          rcases Option.map_eq_some_iff.mp sent with ⟨found, known, same⟩
          subst same
          exact ⟨spiceButton_lt known, heldMask_lt _⟩
  | drain => cases sent

theorem meantFrom_fits (sent : event ∈ meantFrom before steps)
    (placed : ∀ x y, .cursorMoved (some (x, y)) ∈ steps → x < 256 ^ 4 ∧ y < 256 ^ 4) :
    event.Fits := by
  induction steps generalizing before with
  | nil => cases sent
  | cons step rest ih =>
      rcases List.mem_append.mp sent with here | later
      · apply meant_fits (Option.mem_toList.mp here)
        rintro x y rfl
        exact placed x y List.mem_cons_self
      · exact ih later fun x y member => placed x y (List.mem_cons_of_mem _ member)

end Fits

/-! ### What the guest reads -/

theorem reduceOption_some (values : List InputEvent) :
    (values.map some).reduceOption = values := by
  simp [List.reduceOption]

/-- The user acts at the window while the other task takes events out of the queue and the task of
the inputs channel writes them, in any order; the bytes come to the server in any pieces. All that
the server reads of the user's input is what the user has done, in the user's order, each thing
with the buttons held at that moment; if the queue was never full, nothing before the last thing
read is missing. -/
theorem guest_reads_user {steps : List Step} {mini : Bool}
    {wakes : List (Wake UInt8 (Option InputEvent))} {peer : List (Wake UInt8 Empty)}
    {ahead : List UInt8}
    (placed : ∀ x y, .cursorMoved (some (x, y)) ∈ steps → x < 256 ^ 4 ∧ y < 256 ^ 4)
    (taken : events wakes <+: (run steps).inputTx.delivered.map some)
    (fewer : mini = false → (Client.writes (Client.inputsTurns mini wakes)).length < 2 ^ 64)
    (arrives : arrived peer ++ ahead =
      streamOf ((Net.Channel.new mini).writeAll (Client.writes (Client.inputsTurns mini wakes)))) :
    ∃ replies : List Reply, (readMessages (Net.Channel.new mini) peer).map
        (fun msg => Reply.ofMessage msg.msgType msg.body) = replies.map some ∧
      (replies.filterMap Reply.input?).Sublist (meantFrom [] steps) ∧
      (Roomy steps → replies.filterMap Reply.input? <+: meantFrom [] steps) ∧
      (Roomy steps → (run steps).inputTx.queue = [] →
        events wakes = (run steps).inputTx.delivered.map some →
        Client.inputsTask mini wakes ≠ none → ahead = [] →
        (∀ task, unread (Net.Channel.new mini) peer = some task → task.pending = []) →
        replies.filterMap Reply.input? = meantFrom [] steps) := by
  rcases Client.inputs_seen mini wakes with ⟨first, all⟩
  have accepted : (seen (Client.inputsTurns mini wakes)).reduceOption <+:
      (run steps).inputTx.accepted := by
    have taken' := (first.trans taken).filterMap id
    change _ <+: ((run steps).inputTx.delivered.map some).reduceOption at taken'
    rw [reduceOption_some] at taken'
    exact taken'.trans (List.prefix_append _ _)
  have fits : ∀ event, some event ∈ seen (Client.inputsTurns mini wakes) → event.Fits := by
    intro event member
    have among := accepted.mem (List.reduceOption_mem_iff.mpr member)
    exact meantFrom_fits ((run_order steps).mem among) placed
  rcases Client.told_read fits fewer arrives with ⟨task, count, after, read, done⟩
  have inputs := Client.replies_input (Client.inputsTurns mini wakes)
  refine ⟨_, read, ?_, ?_, ?_⟩
  · have part := ((List.take_prefix count _).filterMap Reply.input?).trans (inputs ▸ accepted)
    exact part.sublist.trans (run_order steps)
  · intro roomy
    have part := ((List.take_prefix count _).filterMap Reply.input?).trans (inputs ▸ accepted)
    rwa [run_roomy roomy] at part
  · intro roomy idle every running none read'
    rw [done none (read' task after), List.take_length, inputs, all running, every,
      reduceOption_some, Channel.delivered_eq idle, run_roomy roomy]

def dragged : List Step :=
  [.mouseInput .pressed .left, .drain, .cursorMoved (some (640, 480)),
    .keyboardInput ⟨.code .arrowUp, .released⟩, .mouseInput .released .left, .drain, .drain, .drain]

def draggedWakes : List (Wake UInt8 (Option InputEvent)) :=
  [.event (some (.mousePress 1 1)), .event (some (.mousePosition 640 480 1 0)),
    .event (some (.keyUp 0xe0c8)), .event (some (.mouseRelease 1 0))]

def draggedPeer : List (Wake UInt8 Empty) :=
  [.arrive (streamOf ((Net.Channel.new true).writeAll
      (Client.writes (Client.inputsTurns true draggedWakes)))), .read 3, .read 90, .read 90]

theorem guest_reads_user_dragged :
    ∃ replies : List Reply, (readMessages (Net.Channel.new true) draggedPeer).map
        (fun msg => Reply.ofMessage msg.msgType msg.body) = replies.map some ∧
      (replies.filterMap Reply.input?).Sublist (meantFrom [] dragged) ∧
      (Roomy dragged → replies.filterMap Reply.input? <+: meantFrom [] dragged) ∧
      (Roomy dragged → (run dragged).inputTx.queue = [] →
        events draggedWakes = (run dragged).inputTx.delivered.map some →
        Client.inputsTask true draggedWakes ≠ none → ([] : List UInt8) = [] →
        (∀ task, unread (Net.Channel.new true) draggedPeer = some task → task.pending = []) →
        replies.filterMap Reply.input? = meantFrom [] dragged) := by
  apply guest_reads_user
  · intro x y member
    have only : x = 640 ∧ y = 480 := by simpa [dragged] using member
    simp [only]
  · decide +kernel
  · simp
  · decide +kernel

end Capsaicin.Viewer
