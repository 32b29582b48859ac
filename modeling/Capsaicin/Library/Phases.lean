/-
Programs on two ends of a pair of streams that go through phases. What two ends do in one
phase they do within a longer program as well, behind all that has been written before.
-/

import Capsaicin.Library.Duplex

namespace Duplex

variable {β κ κ' μ μ' α α' γ γ' : Type}

/-- A program goes the way of another one, up to its result. -/
structure Embeds (act : κ → Act β κ α) (whole : κ' → Act β κ' α') (place : κ → κ') : Prop where
  write : ∀ {state items next}, act state = .write items next →
    whole (place state) = .write items (place next)
  read : ∀ {state next}, act state = .read next →
    whole (place state) = .read fun item => place (next item)

section Embeds

variable {act : κ → Act β κ α} {whole : κ' → Act β κ' α'} {place : κ → κ'}

/-- A longer program is within the shorter one, or that has a result and it goes on from there. -/
theorem Embeds.split (embeds : Embeds act whole place) {first : κ} {last : κ'} {ins outs : List β}
    (trail : Trail whole (place first) ins outs last) :
    (∃ state, last = place state ∧ Trail act first ins outs state) ∨
      ∃ state result before behind said told, act state = .done result ∧ ins = before ++ behind ∧
        outs = said ++ told ∧ Trail act first before said state ∧
        Trail whole (place state) behind told last := by
  generalize start_ : place first = start at trail
  induction trail generalizing first with
  | refl state =>
      subst start_
      exact Or.inl ⟨first, rfl, .refl first⟩
  | @write state next last items ins outs does later ih =>
      subst start_
      cases acts : act first with
      | done result =>
          exact Or.inr ⟨first, result, [], ins, [], items ++ outs, acts, rfl, rfl, .refl first,
            .write does later⟩
      | write items' next' =>
          rw [embeds.write acts] at does
          cases does
          rcases ih rfl with ⟨state, rfl, short⟩ |
            ⟨state, result, before, behind, said, told, ended, rfl, rfl, short, rest⟩
          · exact Or.inl ⟨state, rfl, .write acts short⟩
          · exact Or.inr ⟨state, result, before, behind, items ++ said, told, ended, rfl,
              (List.append_assoc _ _ _).symm, .write acts short, rest⟩
      | read next' =>
          rw [embeds.read acts] at does
          cases does
  | @read state next last item ins outs does later ih =>
      subst start_
      cases acts : act first with
      | done result =>
          exact Or.inr ⟨first, result, [], item :: ins, [], outs, acts, rfl, rfl, .refl first,
            .read does later⟩
      | write items' next' =>
          rw [embeds.write acts] at does
          cases does
      | read next' =>
          rw [embeds.read acts] at does
          cases does
          rcases ih rfl with ⟨state, rfl, short⟩ |
            ⟨state, result, before, behind, said, told, ended, rfl, rfl, short, rest⟩
          · exact Or.inl ⟨state, rfl, .read acts short⟩
          · exact Or.inr ⟨state, result, item :: before, behind, said, told, ended, rfl, rfl,
              .read acts short, rest⟩

theorem done_trail {act : κ → Act β κ α} {state last : κ} {result : α} {ins outs : List β}
    (does : act state = .done result) (trail : Trail act state ins outs last) :
    ins = [] ∧ outs = [] ∧ last = state := by
  cases trail with
  | refl => exact ⟨rfl, rfl, rfl⟩
  | write does' _later =>
      rw [does] at does'
      cases does'
  | read does' _later =>
      rw [does] at does'
      cases does'

end Embeds

def Pipe.within (place : κ → κ') (place' : μ → μ') (leftSent rightSent : List β)
    (pipe : Pipe β κ μ) : Pipe β κ' μ' where
  left := place pipe.left
  right := place' pipe.right
  leftSent := leftSent ++ pipe.leftSent
  rightSent := rightSent ++ pipe.rightSent
  leftGot := rightSent.length + pipe.leftGot
  rightGot := leftSent.length + pipe.rightGot

/-- Both sides have read all that there was. -/
structure Pipe.Drained (pipe : Pipe β κ μ) : Prop where
  left : pipe.leftGot = pipe.rightSent.length
  right : pipe.rightGot = pipe.leftSent.length

section Within

variable {act : κ → Act β κ α} {act' : μ → Act β μ γ} {whole : κ' → Act β κ' α'}
  {whole' : μ' → Act β μ' γ'} {place : κ → κ'} {place' : μ → μ'} {pipe next last : Pipe β κ μ}

private theorem behind_getElem? (before sent : List β) (got : Nat) :
    (before ++ sent)[before.length + got]? = sent[got]? := by
  rw [List.getElem?_append_right (Nat.le_add_right _ _), Nat.add_sub_cancel_left]

theorem leftStep_within (embeds : Embeds act whole place) (leftSent rightSent : List β)
    (stepped : leftStep act pipe = some next) :
    leftStep whole (pipe.within place place' leftSent rightSent) =
      some (next.within place place' leftSent rightSent) := by
  rcases leftStep_cases stepped with ⟨items, after, does, rfl⟩ | ⟨item, after, does, there, rfl⟩
  · rw [leftStep_write (embeds.write does)]
    simp [Pipe.within]
  · have same : (pipe.within place place' leftSent rightSent).rightSent[
        (pipe.within place place' leftSent rightSent).leftGot]? = some item := by
      rw [← there]
      exact behind_getElem? _ _ _
    rw [leftStep_read (embeds.read does) same]
    simp [Pipe.within, Nat.add_assoc]

theorem rightStep_within (embeds : Embeds act' whole' place') (leftSent rightSent : List β)
    (stepped : rightStep act' pipe = some next) :
    rightStep whole' (pipe.within place place' leftSent rightSent) =
      some (next.within place place' leftSent rightSent) := by
  rcases rightStep_cases stepped with ⟨items, after, does, rfl⟩ | ⟨item, after, does, there, rfl⟩
  · rw [rightStep_write (embeds.write does)]
    simp [Pipe.within]
  · have same : (pipe.within place place' leftSent rightSent).leftSent[
        (pipe.within place place' leftSent rightSent).rightGot]? = some item := by
      rw [← there]
      exact behind_getElem? _ _ _
    rw [rightStep_read (embeds.read does) same]
    simp [Pipe.within, Nat.add_assoc]

theorem Leads.within (left : Embeds act whole place) (right : Embeds act' whole' place')
    (leftSent rightSent : List β) (leads : Leads act act' pipe last) :
    Leads whole whole' (pipe.within place place' leftSent rightSent)
      (last.within place place' leftSent rightSent) := by
  obtain ⟨steps, run⟩ := leads
  refine ⟨steps, ?_⟩
  induction run with
  | nil pipe => exact .nil _
  | left stepped _rest ih => exact .left (leftStep_within left leftSent rightSent stepped) ih
  | right stepped _rest ih => exact .right (rightStep_within right leftSent rightSent stepped) ih

theorem Pipe.Drained.within (drained : pipe.Drained) (leftSent rightSent : List β) :
    (pipe.within place place' leftSent rightSent).Drained where
  left := by simp [Pipe.within, drained.left]
  right := by simp [Pipe.within, drained.right]

end Within

section Silent

variable {act : κ → Act β κ α} {act' : μ → Act β μ γ} {pipe : Pipe β κ μ}

theorem leads_left {after : κ} (does : act pipe.left = .write [] after) :
    Leads act act' pipe { pipe with left := after } := by
  refine ⟨1, .left ?_ (.nil _)⟩
  rw [leftStep_write does, List.append_nil]

theorem leads_right {after : μ} (does : act' pipe.right = .write [] after) :
    Leads act act' pipe { pipe with right := after } := by
  refine ⟨1, .right ?_ (.nil _)⟩
  rw [rightStep_write does, List.append_nil]

theorem Ends.leads {property : Pipe β κ μ → Prop} (ends : Ends act act' pipe property) :
    ∃ last, Leads act act' pipe last ∧ Stuck act act' last ∧ property last := by
  obtain ⟨bound, all⟩ := ends
  by_contra none
  -- a run of any length, since no run has come to its end
  have longer : ∀ steps, ∃ last, Run act act' steps pipe last := by
    intro steps
    induction steps with
    | zero => exact ⟨pipe, .nil pipe⟩
    | succ steps ih =>
        obtain ⟨last, run⟩ := ih
        cases left : leftStep act last with
        | some next => exact ⟨next, run.trans (.left left (.nil next))⟩
        | none =>
            cases right : rightStep act' last with
            | some next => exact ⟨next, run.trans (.right right (.nil next))⟩
            | none =>
                have stuck : Stuck act act' last := ⟨left, right⟩
                exact absurd ⟨last, ⟨steps, run⟩, stuck, (all steps last run).2 stuck⟩ none
  obtain ⟨last, run⟩ := longer (bound + 1)
  exact absurd (all (bound + 1) last run).1 (Nat.not_succ_le_self bound)

theorem rightStep_waits {next : β → μ} (does : act' pipe.right = .read next)
    (drained : pipe.Drained) : rightStep act' pipe = none := by
  rw [rightStep, does]
  dsimp only
  rw [drained.right, List.getElem?_eq_none (Nat.le_refl _)]
  rfl

end Silent

/-! ### Phase after phase -/

/-- From there on both sides can come to these states, whatever was said before. They leave
nothing unread. -/
def Meets (act : κ → Act β κ α) (act' : μ → Act β μ γ) (first : κ) (first' : μ) (last : κ)
    (last' : μ) : Prop :=
  ∀ pipe : Pipe β κ μ, pipe.left = first → pipe.right = first' → pipe.Drained →
    ∃ next, Leads act act' pipe next ∧ next.left = last ∧ next.right = last' ∧ next.Drained

section Meets

variable {act : κ → Act β κ α} {act' : μ → Act β μ γ} {first middle last : κ}
  {first' middle' last' : μ}

theorem Meets.trans (before : Meets act act' first first' middle middle')
    (behind : Meets act act' middle middle' last last') :
    Meets act act' first first' last last' := by
  intro pipe left right drained
  obtain ⟨one, leads, left₁, right₁, drained₁⟩ := before pipe left right drained
  obtain ⟨two, leads₂, left₂, right₂, drained₂⟩ := behind one left₁ right₁ drained₁
  exact ⟨two, leads.trans leads₂, left₂, right₂, drained₂⟩

theorem Meets.left (does : act first = .write [] last) :
    Meets act act' first first' last first' := by
  rintro pipe rfl rfl drained
  exact ⟨_, leads_left does, rfl, rfl, drained.left, drained.right⟩

theorem Meets.right (does : act' first' = .write [] last') :
    Meets act act' first first' first last' := by
  rintro pipe rfl rfl drained
  exact ⟨_, leads_right does, rfl, rfl, drained.left, drained.right⟩

theorem Meets.tell {items : List β} (tells : Trail act first [] items last)
    (hears : Trail act' first' items [] last') : Meets act act' first first' last last' := by
  intro pipe left right drained
  obtain ⟨left', right', leftSent, rightSent, leftGot, rightGot⟩ := pipe
  obtain ⟨read, read'⟩ := drained
  dsimp only at left right read read'
  subst left right read read'
  have one : Leads act act' ⟨left', right', leftSent, rightSent ++ [], rightSent.length, _⟩
      ⟨last, right', leftSent ++ items, rightSent ++ [], _, leftSent.length⟩ := turn_left tells
  have two : Leads act act' ⟨last, right', leftSent ++ items, rightSent, _, leftSent.length⟩
      ⟨last, last', leftSent ++ items, rightSent ++ [], (rightSent ++ []).length, _⟩ :=
    turn_right hears
  simp only [List.append_nil] at one two
  exact ⟨_, one.trans two, rfl, rfl, rfl, rfl⟩

theorem Meets.phase {whole : κ' → Act β κ' α'} {whole' : μ' → Act β μ' γ'} {place : κ → κ'}
    {place' : μ → μ'} {end_ : Pipe β κ μ} (embeds : Embeds act whole place)
    (embeds' : Embeds act' whole' place') (leads : Leads act act' (Pipe.start first first') end_)
    (drained : end_.Drained) :
    Meets whole whole' (place first) (place' first') (place end_.left) (place' end_.right) := by
  intro pipe left right read
  have lifted := leads.within embeds embeds' pipe.leftSent pipe.rightSent
  have same : (Pipe.start first first' : Pipe β κ μ).within place place' pipe.leftSent
      pipe.rightSent = pipe := by
    obtain ⟨left', right', leftSent, rightSent, leftGot, rightGot⟩ := pipe
    obtain ⟨read, read'⟩ := read
    dsimp only at left right read read' ⊢
    simp [Pipe.within, Pipe.start, read, read', left, right]
  rw [same] at lifted
  exact ⟨_, lifted, rfl, rfl, drained.within _ _⟩

/-- Every schedule comes to where the phases lead, if both sides stop there. -/
theorem Meets.ends (meets : Meets act act' first first' last last')
    (stops : ∀ pipe : Pipe β κ μ, pipe.left = last → pipe.right = last' → pipe.Drained →
      Stuck act act' pipe) :
    Ends act act' (Pipe.start first first')
      fun pipe => pipe.left = last ∧ pipe.right = last' ∧ pipe.Drained := by
  obtain ⟨next, ⟨steps, run⟩, left, right, drained⟩ := meets (Pipe.start first first') rfl rfl ⟨rfl, rfl⟩
  exact ends_of_run run (stops next left right drained) ⟨left, right, drained⟩

end Meets

end Duplex
