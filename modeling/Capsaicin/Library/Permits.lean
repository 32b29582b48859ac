/-
A semaphore whose permits the tasks of a list hold. A permit is free, or a task has it.
-/

import Mathlib.Data.List.Basic

namespace Permits

variable {τ : Type} (holds : τ → Bool)

/-- Each of the permits is free or held. -/
def Balanced (total free : Nat) (tasks : List τ) : Prop := free + tasks.countP holds = total

variable {holds} {total free : Nat} {tasks : List τ} {task next : τ} {index : Nat}

theorem balanced_start (total : Nat) : @Balanced τ holds total total [] := rfl

theorem Balanced.acquire (balanced : Balanced holds total (free + 1) tasks)
    (taken : holds task = true) : Balanced holds total free (tasks ++ [task]) := by
  unfold Balanced at balanced ⊢
  rw [List.countP_append, List.countP_cons, if_pos taken, List.countP_nil]
  omega

private theorem count_set (there : tasks[index]? = some task) :
    (tasks.set index next).countP holds + (if holds task then 1 else 0) =
      tasks.countP holds + if holds next then 1 else 0 := by
  obtain ⟨within, here⟩ := List.getElem?_eq_some_iff.mp there
  have one := @List.countP_set _ holds tasks index next within
  have counted : (if holds task then 1 else 0) ≤ tasks.countP holds := by
    split
    · rename_i held
      exact List.countP_pos_iff.mpr ⟨task, List.mem_of_getElem? there, held⟩
    · exact Nat.zero_le _
  rw [here] at one
  omega

theorem Balanced.keep (balanced : Balanced holds total free tasks)
    (there : tasks[index]? = some task) (same : holds next = holds task) :
    Balanced holds total free (tasks.set index next) := by
  have count := @count_set _ holds _ _ next _ there
  unfold Balanced at balanced ⊢
  rw [same] at count
  omega

theorem Balanced.release (balanced : Balanced holds total free tasks)
    (there : tasks[index]? = some task) (held : holds task = true) (gone : holds next = false) :
    Balanced holds total (free + 1) (tasks.set index next) := by
  have count := @count_set _ holds _ _ next _ there
  unfold Balanced at balanced ⊢
  rw [if_pos held, gone, if_neg Bool.false_ne_true] at count
  omega

/-- No more tasks run than there are permits. -/
theorem Balanced.running_le (balanced : Balanced holds total free tasks) {runs : τ → Bool}
    (only : ∀ task ∈ tasks, runs task = true → holds task = true) :
    tasks.countP runs ≤ total := by
  have fewer : tasks.countP runs ≤ tasks.countP holds := List.countP_mono_left only
  unfold Balanced at balanced
  omega

end Permits
