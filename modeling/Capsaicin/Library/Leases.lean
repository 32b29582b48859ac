/-
Tasks that lease tokens from a common table. A task takes a token that nobody has, and
gives it back or loses it when it ends.
-/

import Mathlib.Data.Finset.Basic

namespace Leases

variable {τ α ε : Type}

/-- The tokens that are taken, and all tasks. -/
structure Table (τ α : Type) where
  live : Finset α
  tasks : List τ

variable (holds : τ → Option α)

def held (tasks : List τ) : List α := tasks.filterMap holds

/-- What a step of one task does: the token that it loses, if it loses one. -/
inductive Move [DecidableEq α] : Finset α → τ → Finset α → τ → Option α → Prop where
  | keep {live task next} : holds next = holds task → Move live task live next none
  | take {live task next token} :
      holds task = none → holds next = some token → token ∉ live →
        Move live task (insert token live) next none
  | give {live task next token} :
      holds task = some token → holds next = none → Move live task (live.erase token) next none
  | lose {live task next token} :
      holds task = some token → holds next = none → Move live task live next (some token)

/-- Each taken token has one task, or is one of those that were lost. -/
structure Sound (table : Table τ α) (lost : List α) : Prop where
  once : (held holds table.tasks ++ lost).Nodup
  known : ∀ token, token ∈ table.live ↔ token ∈ held holds table.tasks ++ lost

variable {holds}

theorem held_append (before behind : List τ) :
    held holds (before ++ behind) = held holds before ++ held holds behind :=
  List.filterMap_append

theorem held_cons (task : τ) (tasks : List τ) :
    held holds (task :: tasks) = (holds task).toList ++ held holds tasks := by
  unfold held
  cases token : holds task with
  | none => rw [List.filterMap_cons_none token, Option.toList_none, List.nil_append]
  | some token' => rw [List.filterMap_cons_some token, Option.toList_some, List.singleton_append]

private theorem held_split (before behind : List τ) (task : τ) :
    (held holds (before ++ task :: behind)).Perm
      ((holds task).toList ++ held holds (before ++ behind)) := by
  rw [held_append, held_cons, held_append]
  exact List.perm_append_comm_assoc _ _ _

theorem sound_empty : Sound holds { live := ∅, tasks := [] } [] where
  once := List.nodup_nil
  known := by simp [held]

theorem sound_enter {live : Finset α} {tasks : List τ} {lost : List α} {task : τ}
    (sound : Sound holds { live := live, tasks := tasks } lost) (free : holds task = none) :
    Sound holds { live := live, tasks := tasks ++ [task] } lost := by
  have same : held holds (tasks ++ [task]) = held holds tasks := by
    rw [held_append, held_cons, free]
    exact List.append_nil _
  obtain ⟨once, known⟩ := sound
  constructor
  · rw [same]
    exact once
  · rw [same]
    exact known

private theorem sound_split {live : Finset α} {before behind : List τ} {task : τ} {lost : List α} :
    Sound holds { live := live, tasks := before ++ task :: behind } lost ↔
      ((holds task).toList ++ (held holds (before ++ behind) ++ lost)).Nodup ∧
        ∀ token, token ∈ live ↔
          token ∈ (holds task).toList ++ (held holds (before ++ behind) ++ lost) := by
  have perm := (@held_split _ _ holds before behind task).append_right lost
  rw [List.append_assoc] at perm
  constructor
  · intro sound
    refine ⟨perm.nodup_iff.mp sound.once, fun token => ?_⟩
    rw [sound.known token, perm.mem_iff]
  · rintro ⟨once, known⟩
    refine ⟨perm.nodup_iff.mpr once, fun token => ?_⟩
    rw [known token, perm.mem_iff]

theorem sound_move [DecidableEq α] {live live' : Finset α} {before behind : List τ}
    {task next : τ} {lost : List α} {gone : Option α}
    (sound : Sound holds { live := live, tasks := before ++ task :: behind } lost)
    (move : Move holds live task live' next gone) :
    Sound holds { live := live', tasks := before ++ next :: behind } (gone.toList ++ lost) := by
  rw [sound_split] at sound ⊢
  obtain ⟨once, known⟩ := sound
  cases move with
  | keep same =>
      rw [same]
      exact ⟨once, known⟩
  | take free taken fresh =>
      rename_i token
      rw [free] at once known
      rw [taken]
      constructor
      · refine List.nodup_cons.mpr ⟨?_, once⟩
        intro member
        exact fresh ((known token).mpr member)
      · intro other
        rw [Finset.mem_insert, known other]
        exact List.mem_cons.symm
  | give had free =>
      rename_i token
      rw [had] at once known
      rw [free]
      obtain ⟨apart, rest⟩ := List.nodup_cons.mp once
      refine ⟨rest, fun other => ?_⟩
      rw [Finset.mem_erase, known other]
      constructor
      · rintro ⟨different, member⟩
        exact (List.mem_cons.mp member).resolve_left different
      · intro member
        refine ⟨?_, List.mem_cons_of_mem _ member⟩
        rintro rfl
        exact apart member
  | lose had free =>
      rename_i token
      rw [had] at once known
      rw [free]
      have moved : (token :: (held holds (before ++ behind) ++ lost)).Perm
          (held holds (before ++ behind) ++ (token :: lost)) := List.perm_middle.symm
      refine ⟨moved.nodup_iff.mp once, fun other => ?_⟩
      rw [known other]
      exact moved.mem_iff

theorem Sound.exact_iff {table : Table τ α} {lost : List α} (sound : Sound holds table lost) :
    (∀ token, token ∈ table.live ↔ token ∈ held holds table.tasks) ↔ lost = [] := by
  constructor
  · intro right
    apply List.eq_nil_iff_forall_not_mem.mpr
    intro token gone
    have member := (sound.known token).mpr (List.mem_append_right _ gone)
    exact (List.nodup_append.mp sound.once).2.2 token ((right token).mp member) token gone rfl
  · rintro rfl
    intro token
    rw [sound.known token, List.append_nil]

/-! ### Runs -/

section Run

variable (step : Table τ α → ε → Table τ α) (loses : Table τ α → ε → Bool)

def run (table : Table τ α) (events : List ε) : Table τ α := events.foldl step table

/-- No step of a run loses a token. -/
def Careful : Table τ α → List ε → Prop
  | _, [] => True
  | table, event :: rest => loses table event = false ∧ Careful (step table event) rest

instance decidableCareful : ∀ (table : Table τ α) (events : List ε),
    Decidable (Careful step loses table events)
  | _, [] => inferInstanceAs (Decidable True)
  | table, event :: rest =>
      @instDecidableAnd _ _ (inferInstanceAs (Decidable (loses table event = false)))
        (decidableCareful (step table event) rest)

/-- A step keeps the account of what was lost. -/
def Accounts (holds : τ → Option α) : Prop :=
  ∀ table lost event, Sound holds table lost →
    ∃ more, Sound holds (step table event) (more ++ lost) ∧ (more = [] ↔ loses table event = false)

variable {step loses}

theorem run_sound (accounts : Accounts step loses holds) {table : Table τ α} {lost : List α}
    {events : List ε} (sound : Sound holds table lost) :
    ∃ more, Sound holds (run step table events) (more ++ lost) ∧
      (more = [] ↔ Careful step loses table events) := by
  induction events generalizing table lost with
  | nil => exact ⟨[], sound, iff_of_true rfl trivial⟩
  | cons event rest ih =>
      obtain ⟨first, stepped, careful⟩ := accounts table lost event sound
      obtain ⟨more, ran, carefulRest⟩ := ih stepped
      refine ⟨more ++ first, ?_, ?_⟩
      · rw [List.append_assoc]
        exact ran
      · rw [List.append_eq_nil_iff, careful, carefulRest]
        exact and_comm

/-- From an empty table on, the table is right just when no step has lost a token. -/
theorem run_exact_iff (accounts : Accounts step loses holds) {events : List ε} :
    (∀ token, token ∈ (run step { live := ∅, tasks := [] } events).live ↔
        token ∈ held holds (run step { live := ∅, tasks := [] } events).tasks) ↔
      Careful step loses { live := ∅, tasks := [] } events := by
  obtain ⟨more, sound, careful⟩ := @run_sound _ _ _ _ _ _ accounts _ _ events sound_empty
  rw [List.append_nil] at sound
  rw [sound.exact_iff, careful]

end Run

end Leases
