/-
Logs whose entries set or clear what is held under a key. What is held now is told by the last
entry about the key.
-/

import Mathlib.Data.List.AList
import Mathlib.Data.List.Induction

namespace Journal

variable {α β : Type}

/-- The last entry of a log that is about something. -/
def Last (about : β → Prop) (log : List β) (entry : β) : Prop :=
  ∃ before after, log = before ++ entry :: after ∧ ∀ later ∈ after, ¬ about later

/-- What is held behind a log. An entry tells nothing, that something is held, or that nothing
is. -/
def current (notes : β → Option (Option α)) (log : List β) : Option α :=
  log.foldl (fun held entry => (notes entry).getD held) none

variable {notes : β → Option (Option α)} {log later : List β}

@[simp] theorem current_nil : current notes [] = none := rfl

theorem current_snoc (log : List β) (entry : β) :
    current notes (log ++ [entry]) = (notes entry).getD (current notes log) := by
  rw [current, List.foldl_append]
  rfl

theorem current_told {entry : β} {held : Option α} (told : notes entry = some held) :
    current notes (log ++ [entry]) = held := by
  rw [current_snoc, told]
  rfl

theorem current_silent (silent : ∀ entry ∈ later, notes entry = none) :
    current notes (log ++ later) = current notes log := by
  induction later generalizing log with
  | nil => rw [List.append_nil]
  | cons entry rest ih =>
      have whole := @ih (log ++ [entry]) fun other member =>
        silent other (List.mem_cons_of_mem entry member)
      rw [current_snoc, silent entry List.mem_cons_self, List.append_assoc] at whole
      exact whole

theorem current_cleared (clear : ∀ entry ∈ later, notes entry = none ∨ notes entry = some none)
    (gone : current notes log = none ∨ ∃ entry ∈ later, notes entry = some none) :
    current notes (log ++ later) = none := by
  induction later generalizing log with
  | nil =>
      rcases gone with nothing | ⟨entry, impossible, _told⟩
      · rw [List.append_nil, nothing]
      · cases impossible
  | cons entry rest ih =>
      have others : ∀ other ∈ rest, notes other = none ∨ notes other = some none := by
        intro other member
        exact clear other (List.mem_cons_of_mem entry member)
      have whole : current notes ((log ++ [entry]) ++ rest) = none := by
        apply ih others
        rw [current_snoc]
        rcases clear entry List.mem_cons_self with silent | told
        · rw [silent]
          rcases gone with nothing | ⟨other, member, told⟩
          · exact Or.inl nothing
          · rcases List.mem_cons.mp member with rfl | behind
            · rw [silent] at told
              cases told
            · exact Or.inr ⟨other, behind, told⟩
        · rw [told]
          exact Or.inl rfl
      rw [List.append_assoc] at whole
      exact whole

theorem current_eq_some {about : β → Prop} (silent : ∀ entry, notes entry = none ↔ ¬ about entry)
    {value : α} :
    current notes log = some value ↔
      ∃ entry, notes entry = some (some value) ∧ Last about log entry := by
  constructor
  · intro held
    induction log using List.reverseRecOn with
    | nil => cases held
    | append_singleton rest entry ih =>
        rw [current_snoc] at held
        cases told : notes entry with
        | none =>
            rw [told] at held
            rcases ih held with ⟨found, sets, before, after, rfl, quiet⟩
            refine ⟨found, sets, before, after ++ [entry], by simp, ?_⟩
            intro other member
            rcases List.mem_append.mp member with earlier | last
            · exact quiet other earlier
            · rw [List.mem_singleton.mp last]
              exact (silent entry).mp told
        | some now =>
            rw [told] at held
            cases held
            exact ⟨entry, told, rest, [], rfl, fun other impossible => absurd impossible
              List.not_mem_nil⟩
  · rintro ⟨entry, sets, before, after, rfl, quiet⟩
    have split : before ++ entry :: after = (before ++ [entry]) ++ after := by simp
    rw [split, current_silent fun other member => (silent other).mpr (quiet other member),
      current_told sets]

theorem current_kept {sets : β → Option (Option α)}
    (same : ∀ entry value, notes entry = some (some value) → sets entry = some (some value))
    (silent : ∀ entry, notes entry = none → sets entry = none) {value : α}
    (held : current notes log = some value) : current sets log = some value := by
  induction log using List.reverseRecOn with
  | nil => cases held
  | append_singleton rest entry ih =>
      rw [current_snoc] at held ⊢
      cases told : notes entry with
      | none =>
          rw [told] at held
          rw [silent entry told]
          exact ih held
      | some now =>
          rw [told] at held
          change now = some value at held
          rw [same entry value (told.trans (congrArg some held))]
          rfl

/-- A machine whose state follows a log: it does so behind every prefix if every step does. -/
theorem follows_iff {σ κ : Type} {step : σ → β → σ} {start : σ} {shows : κ → σ → Option α}
    {notes : κ → β → Option (Option α)} (blank : ∀ key, shows key start = none) {log : List β} :
    (∀ before rest, log = before ++ rest →
        ∀ key, shows key (before.foldl step start) = current (notes key) before) ↔
      ∀ before entry rest, log = before ++ entry :: rest →
        ∀ key, shows key (step (before.foldl step start) entry) =
          (notes key entry).getD (shows key (before.foldl step start)) := by
  constructor
  · intro follows before entry rest split key
    have here := follows before (entry :: rest) split key
    have next := follows (before ++ [entry]) rest (by rw [split, List.append_cons]) key
    rw [List.foldl_append, current_snoc, ← here] at next
    exact next
  · intro steps before
    induction before using List.reverseRecOn with
    | nil =>
        intro rest _split key
        exact blank key
    | append_singleton before entry ih =>
        intro rest split key
        rw [← List.append_cons] at split
        have here := ih (entry :: rest) split key
        have next := steps before entry rest split key
        rw [List.foldl_append, current_snoc, ← here]
        exact next

/-! ### Tables that follow a log -/

section Tables

variable {κ : Type} [DecidableEq κ] (table : AList fun _ : κ => α) (key at' : κ)

theorem lookup_set (value : α) :
    (table.insert at' value).lookup key =
      (if at' = key then some (some value) else none).getD (table.lookup key) := by
  by_cases same : at' = key
  · rw [if_pos same, same, AList.lookup_insert]
    rfl
  · rw [if_neg same, AList.lookup_insert_ne (Ne.symm same)]
    rfl

theorem lookup_clear :
    (table.erase at').lookup key =
      (if at' = key then some none else none).getD (table.lookup key) := by
  by_cases same : at' = key
  · rw [if_pos same, same, AList.lookup_erase]
    rfl
  · rw [if_neg same, AList.lookup_erase_ne (Ne.symm same)]
    rfl

end Tables

end Journal
