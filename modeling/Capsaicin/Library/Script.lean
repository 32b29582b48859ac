/-
Straight-line programs over a byte stream, as trees of their reads and writes. An error
ends a program where it stands.
-/

import Capsaicin.Library.Duplex

namespace Duplex

inductive Script (β ε α : Type) where
  | done (result : Except ε α)
  | write (items : List β) (next : Script β ε α)
  | read (next : β → Script β ε α)

namespace Script

variable {β ε α γ : Type}

def bind : Script β ε α → (α → Script β ε γ) → Script β ε γ
  | .done (.ok value), after => after value
  | .done (.error reason), _ => .done (.error reason)
  | .write items next, after => .write items (next.bind after)
  | .read next, after => .read fun item => (next item).bind after

instance : Monad (Script β ε) where
  pure value := .done (.ok value)
  bind := bind

def send (items : List β) : Script β ε Unit := .write items (.done (.ok ()))

def receive : Nat → Script β ε (List β)
  | 0 => .done (.ok [])
  | count + 1 => .read fun item => (receive count).bind fun items => .done (.ok (item :: items))

def lift (result : Except ε α) : Script β ε α := .done result

def act : Script β ε α → Act β (Script β ε α) (Except ε α)
  | .done result => .done result
  | .write items next => .write items next
  | .read next => .read next

/-! ### The way of a program -/

variable {after : α → Script β ε γ} {ins outs : List β} {result : Except ε γ}

theorem bind_assoc {δ : Type} (script : Script β ε α) (after : α → Script β ε γ)
    (later : γ → Script β ε δ) :
    (script.bind after).bind later = script.bind fun value => (after value).bind later := by
  induction script with
  | done result =>
      cases result with
      | ok value => rfl
      | error reason => rfl
  | write items next ih => exact congrArg (Script.write items) ih
  | read next ih => exact congrArg Script.read (funext ih)

theorem bind_pure (script : Script β ε α) : (script >>= fun value => pure value) = script := by
  change (script.bind fun value => .done (.ok value)) = script
  induction script with
  | done result =>
      cases result with
      | ok value => rfl
      | error reason => rfl
  | write items next ih => exact congrArg (Script.write items) ih
  | read next ih => exact congrArg Script.read (funext ih)

theorem send_trail (items : List β) (after : Unit → Script β ε γ) :
    Trail act (send items >>= after) [] items (after ()) := by
  have one : Trail act (send items >>= after) [] (items ++ []) (after ()) :=
    .write rfl (.refl (after ()))
  rw [List.append_nil] at one
  exact one

theorem receive_trail (items : List β) (after : List β → Script β ε γ) :
    Trail act (receive items.length >>= after) items [] (after items) := by
  change Trail act ((receive items.length).bind after) items [] (after items)
  induction items generalizing after with
  | nil => exact .refl (after [])
  | cons item items ih =>
      apply Trail.read rfl
      rw [bind_assoc]
      exact ih fun items => after (item :: items)

/-! ### What an ended program has done -/

theorem done_ended {result : Except ε α} {last : Script β ε α}
    (trail : Trail act (.done result) ins outs last) :
    ins = [] ∧ outs = [] ∧ last = .done result := by
  cases trail with
  | refl => exact ⟨rfl, rfl, rfl⟩
  | write does _later => cases does
  | read does _later => cases does

theorem receive_ended {count : Nat} {after : List β → Script β ε γ}
    (trail : Trail act (receive count >>= after) ins outs (.done result)) :
    ∃ items rest, items.length = count ∧ ins = items ++ rest ∧
      Trail act (after items) rest outs (.done result) := by
  change Trail act ((receive count).bind after) ins outs (.done result) at trail
  induction count generalizing after ins with
  | zero => exact ⟨[], ins, rfl, rfl, trail⟩
  | succ count ih =>
      have reads : act ((receive (count + 1)).bind after) =
          .read fun item => ((receive count).bind fun items => .done (.ok (item :: items))).bind
            after := rfl
      cases trail with
      | write does _ =>
          rw [reads] at does
          cases does
      | read does later =>
          rw [reads] at does
          cases does
          dsimp only at later
          rw [bind_assoc] at later
          obtain ⟨items, rest, length, rfl, behind⟩ := ih later
          exact ⟨_ :: items, rest, congrArg (· + 1) length, rfl, behind⟩

theorem send_ended {items : List β} {after : Unit → Script β ε γ}
    (trail : Trail act (send items >>= after) ins outs (.done result)) :
    ∃ rest, outs = items ++ rest ∧ Trail act (after ()) ins rest (.done result) := by
  cases trail with
  | write does later =>
      cases does
      exact ⟨_, rfl, later⟩
  | read does later => cases does

theorem lift_ended {found : Except ε α} {value : γ}
    (trail : Trail act (lift found >>= after) ins outs (.done (.ok value))) :
    ∃ good, found = .ok good ∧ Trail act (after good) ins outs (.done (.ok value)) := by
  cases found with
  | ok good => exact ⟨good, rfl, trail⟩
  | error reason => cases (done_ended trail).2.2

/-! ### What a program has done so far -/

section Reached

variable {last : Script β ε γ}

/-- The program has not come to a good end. -/
def Unended (script : Script β ε γ) : Prop := ∀ value, script ≠ .done (.ok value)

theorem receive_reached {count : Nat} {after : List β → Script β ε γ}
    (trail : Trail act (receive count >>= after) ins outs last) :
    (ins.length < count ∧ outs = [] ∧ Unended last) ∨
      ∃ items rest, items.length = count ∧ ins = items ++ rest ∧
        Trail act (after items) rest outs last := by
  change Trail act ((receive count).bind after) ins outs last at trail
  induction count generalizing after ins with
  | zero => exact Or.inr ⟨[], ins, rfl, rfl, trail⟩
  | succ count ih =>
      have reads : act ((receive (count + 1)).bind after) =
          .read fun item => ((receive count).bind fun items => .done (.ok (item :: items))).bind
            after := rfl
      cases trail with
      | refl => exact Or.inl ⟨Nat.succ_pos count, rfl, fun _value => nofun⟩
      | write does _ =>
          rw [reads] at does
          cases does
      | read does later =>
          rw [reads] at does
          cases does
          dsimp only at later
          rw [bind_assoc] at later
          cases ih later with
          | inl waits => exact Or.inl ⟨Nat.succ_lt_succ waits.1, waits.2⟩
          | inr has =>
              obtain ⟨items, rest, length, rfl, behind⟩ := has
              exact Or.inr ⟨_ :: items, rest, congrArg (· + 1) length, rfl, behind⟩

theorem send_reached {items : List β} {after : Unit → Script β ε γ}
    (trail : Trail act (send items >>= after) ins outs last) :
    (ins = [] ∧ outs = [] ∧ Unended last) ∨
      ∃ rest, outs = items ++ rest ∧ Trail act (after ()) ins rest last := by
  cases trail with
  | refl => exact Or.inl ⟨rfl, rfl, fun _value => nofun⟩
  | write does later =>
      cases does
      exact Or.inr ⟨_, rfl, later⟩
  | read does later => cases does

theorem failed_reached {reason : ε} (trail : Trail act (.done (.error reason)) ins outs last) :
    ins = [] ∧ outs = [] ∧ Unended last := by
  obtain ⟨none, silent, rfl⟩ := done_ended trail
  exact ⟨none, silent, fun _value => nofun⟩

theorem lift_reached {found : Except ε α}
    (trail : Trail act (lift found >>= after) ins outs last) :
    (ins = [] ∧ outs = [] ∧ Unended last) ∨
      ∃ good, found = .ok good ∧ Trail act (after good) ins outs last := by
  cases found with
  | ok good => exact Or.inr ⟨good, rfl, trail⟩
  | error reason => exact Or.inl (failed_reached trail)

end Reached

end Script

end Duplex
