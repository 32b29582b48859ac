/-
The viewer's task between the mailbox of the client and the window, and a guest seen through all
of it.
-/

import Capsaicin.Client.Mailbox
import Capsaicin.Viewer.Desktop

namespace Capsaicin.Viewer

open Client (Command Mail SpiceClient Producer mails)
open Mailbox (Box Move)

/-- The loop of `spice_task`: what it sends to the window for its mail. It ends when the
connection is closed. -/
def spiceTask : List Mail → List PaintMsg
  | [] => []
  | .event (.display event) :: rest => (displayEventToPaint event).toList ++ spiceTask rest
  | .event (.cursor _) :: rest => spiceTask rest
  | .event (.mouseMode _) :: rest => spiceTask rest
  | .closed :: _ => [.closed]

/-! ### What the window gets -/

/-- What the window has to paint for some mail. -/
def paintings (letters : List Mail) : List PaintMsg :=
  (letters.filterMap Mail.display?).filterMap displayEventToPaint

/-- The window gets the first of the paintings, all of them as long as nothing is closed. -/
theorem spiceTask_paints (letters : List Mail) :
    ∃ part, part <+: paintings letters ∧
      (spiceTask letters = part ∨ spiceTask letters = part ++ [.closed]) ∧
      (.closed ∉ letters → spiceTask letters = paintings letters ∧ part = paintings letters) := by
  induction letters with
  | nil => exact ⟨[], List.prefix_refl _, Or.inl rfl, fun _open => ⟨rfl, rfl⟩⟩
  | cons letter rest ih =>
      rcases ih with ⟨part, front, ends, all⟩
      have silent (skips : spiceTask (letter :: rest) = spiceTask rest)
          (none : paintings (letter :: rest) = paintings rest) :
          ∃ part, part <+: paintings (letter :: rest) ∧
            (spiceTask (letter :: rest) = part ∨ spiceTask (letter :: rest) = part ++ [.closed]) ∧
            (.closed ∉ letter :: rest → spiceTask (letter :: rest) = paintings (letter :: rest) ∧
              part = paintings (letter :: rest)) := by
        rw [skips, none]
        exact ⟨part, front, ends, fun opened => all fun later => opened (List.mem_cons_of_mem _ later)⟩
      cases letter with
      | closed =>
          refine ⟨[], List.nil_prefix, Or.inr rfl, ?_⟩
          intro opened
          exact absurd List.mem_cons_self opened
      | event event =>
          cases event with
          | cursor shown => exact silent rfl rfl
          | mouseMode mode => exact silent rfl rfl
          | display shown =>
              have here : paintings (.event (.display shown) :: rest) =
                  (displayEventToPaint shown).toList ++ paintings rest := by
                unfold paintings
                change (shown :: rest.filterMap Mail.display?).filterMap displayEventToPaint = _
                rw [List.filterMap_cons]
                cases displayEventToPaint shown <;> rfl
              refine ⟨(displayEventToPaint shown).toList ++ part, ?_, ?_, ?_⟩
              · rw [here]
                exact (List.prefix_append_right_inj _).mpr front
              · rcases ends with same | same
                · exact Or.inl (congrArg (_ ++ ·) same)
                · refine Or.inr ?_
                  rw [spiceTask, same, List.append_assoc]
              · intro opened
                obtain ⟨same, whole⟩ := all fun later => opened (List.mem_cons_of_mem _ later)
                rw [spiceTask, here, same, whole]
                exact ⟨rfl, rfl⟩

theorem spiceTask_closed (letters : List Mail) : .closed ∈ spiceTask letters ↔ .closed ∈ letters := by
  induction letters with
  | nil =>
      exact ⟨fun member => (List.not_mem_nil member).elim,
        fun member => (List.not_mem_nil member).elim⟩
  | cons letter rest ih =>
      cases letter with
      | closed => simp [spiceTask]
      | event event =>
          cases event with
          | cursor shown => simp [spiceTask, ih]
          | mouseMode mode => simp [spiceTask, ih]
          | display shown =>
              have never : displayEventToPaint shown ≠ some .closed := by
                unfold displayEventToPaint
                split
                · split <;> simp
                all_goals simp
              simp [spiceTask, ih, never]

theorem prefix_answers {α γ : Type} {answers : α → List γ} {asked : List α} {part : List γ}
    (few : ∀ one ∈ asked, (answers one).length ≤ 1) (front : part <+: asked.flatMap answers) :
    ∃ count, part = (asked.take count).flatMap answers := by
  induction asked generalizing part with
  | nil => exact ⟨0, List.prefix_nil.mp front⟩
  | cons one rest ih =>
      have later {part : List γ} (front : part <+: rest.flatMap answers) :=
        ih (fun other member => few other (List.mem_cons_of_mem one member)) front
      rw [List.flatMap_cons] at front
      cases single : answers one with
      | nil =>
          rw [single] at front
          rcases later front with ⟨count, same⟩
          exact ⟨count + 1, by rw [List.take_succ_cons, List.flatMap_cons, single, same]; rfl⟩
      | cons answer others =>
          have alone : others = [] := by
            have length := few one List.mem_cons_self
            rw [single, List.length_cons] at length
            exact List.length_eq_zero_iff.mp (by omega)
          subst alone
          rw [single] at front
          cases part with
          | nil => exact ⟨0, rfl⟩
          | cons first behind =>
              rcases List.cons_prefix_cons.mp front with ⟨rfl, front'⟩
              rcases later front' with ⟨count, same⟩
              exact ⟨count + 1, by rw [List.take_succ_cons, List.flatMap_cons, single, same]; rfl⟩

namespace ViewerApp

def paintsOf (effects : List Client.Effect) : List PaintMsg :=
  (Client.eventsOf effects).filterMap displayEventToPaint

theorem painting_eq (outputs : List (List Client.Effect)) :
    painting outputs = outputs.flatMap paintsOf := by
  unfold painting paintsOf
  rw [List.filterMap_flatMap]

theorem paintsOf_few {command : Command} {effects : List Client.Effect}
    (announced : Client.Announces command (Client.eventsOf effects)) :
    (paintsOf effects).length ≤ 1 := by
  unfold paintsOf
  generalize Client.eventsOf effects = events at announced
  cases announced with
  | aside unseen =>
      rw [unseen_paint unseen]
      exact Nat.zero_le _
  | _ => exact List.length_filterMap_le _ _

def guestClient : SpiceClient where
  currentMouseMode := 1
  main := ⟨true, []⟩
  dropped := true
  display := ⟨true, guestPieces⟩
  cursor :=
    ⟨true, [.arrive (Net.streamOf ((Net.Channel.new true).writeAll [(Proto.CursorMsg.HIDE, [])])),
      .read 6]⟩

def guestMoves : List (Move Producer) :=
  [.take, .send .display, .take, .send .cursor, .take, .send .display, .take, .send .main, .take,
    .send .display, .take]

end ViewerApp

end Capsaicin.Viewer
