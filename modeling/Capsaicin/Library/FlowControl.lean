/-
Acknowledgement windows. A peer announces a window `w`; from then on it wants an
acknowledgement for every `w` messages that count. The library says when a receiver
with a single counter gives it that, if the receiver may miss an announcement or a
message.
-/

import Mathlib.Tactic.Linarith
import Capsaicin.Library.Reactive

namespace FlowControl

open Reactive (Throughout throughout_nil throughout_cons throughout_here)

/-- What a message means for the window. -/
inductive Kind where
  | announce (window : Nat)
  | countable
  | other
  deriving DecidableEq, Repr

/-! ### The law -/

structure Beat where
  kind : Kind
  acks : Nat
  deriving DecidableEq, Repr

/-- The last announced window, with what has happened since. -/
structure Tally where
  window : Nat
  counted : Nat
  acks : Nat
  deriving DecidableEq, Repr

def Tally.start : Tally := { window := 0, counted := 0, acks := 0 }

def Tally.next (tally : Tally) (beat : Beat) : Tally :=
  match beat.kind with
  | .announce window => { window := window, counted := 0, acks := 0 }
  | .countable => { tally with counted := tally.counted + 1, acks := tally.acks + beat.acks }
  | .other => { tally with acks := tally.acks + beat.acks }

/-- One acknowledgement for each full window. -/
def Tally.Level (tally : Tally) : Prop :=
  0 < tally.window → tally.acks = tally.counted / tally.window

/-- The number of acknowledgements is right at every moment. -/
def Honoured (log : List Beat) : Prop := Throughout Tally.next Tally.Level Tally.start log

/-! ### A counter that may miss something -/

/-- A message, and whether the receiver takes note of it. -/
structure Heed where
  kind : Kind
  noted : Bool
  deriving DecidableEq, Repr

/-- The last announced window and whether the receiver took note of it, with the
countable messages since and those of them that it did not take note of. -/
structure Ledger where
  window : Nat
  heard : Bool
  counted : Nat
  skipped : Nat
  deriving DecidableEq, Repr

def Ledger.start : Ledger := { window := 0, heard := false, counted := 0, skipped := 0 }

def Ledger.next (ledger : Ledger) (heed : Heed) : Ledger :=
  match heed.kind with
  | .announce window => { window := window, heard := heed.noted, counted := 0, skipped := 0 }
  | .countable =>
      { ledger with
        counted := ledger.counted + 1
        skipped := if heed.noted then ledger.skipped else ledger.skipped + 1 }
  | .other => ledger

/-- At a full window the receiver has missed nothing of it. -/
def Ledger.Complete (ledger : Ledger) : Prop :=
  0 < ledger.window → 0 < ledger.counted → ledger.window ∣ ledger.counted →
    ledger.heard = true ∧ ledger.skipped = 0

def Complete (heeds : List Heed) : Prop := Throughout Ledger.next Ledger.Complete Ledger.start heeds

/-- The window that the receiver knows and what is left of it. -/
structure Counter where
  window : Nat
  remaining : Nat
  deriving DecidableEq, Repr

def Counter.start : Counter := { window := 0, remaining := 0 }

def Counter.next (counter : Counter) (heed : Heed) : Counter × Nat :=
  if heed.noted then
    match heed.kind with
    | .announce window => ({ window := window, remaining := window }, 0)
    | .countable =>
        if 0 < counter.window then
          if counter.remaining - 1 = 0 then ({ counter with remaining := counter.window }, 1)
          else ({ counter with remaining := counter.remaining - 1 }, 0)
        else (counter, 0)
    | .other => (counter, 0)
  else (counter, 0)

def Counter.log (counter : Counter) : List Heed → List Beat
  | [] => []
  | heed :: rest =>
      { kind := heed.kind, acks := (counter.next heed).2 } :: (counter.next heed).1.log rest

/-- How counter, ledger and tally of the same messages relate. -/
structure Follows (counter : Counter) (ledger : Ledger) (tally : Tally) : Prop where
  window : tally.window = ledger.window
  counted : tally.counted = ledger.counted
  deaf : ledger.heard = false → counter.window = 0 ∧ tally.acks = 0
  heard : ledger.heard = true → counter.window = ledger.window ∧
    (0 < ledger.window → ∃ noted, noted + ledger.skipped = ledger.counted ∧
      tally.acks = noted / ledger.window ∧
      counter.remaining = ledger.window - noted % ledger.window)

section Follows

variable {counter : Counter} {ledger : Ledger} {tally : Tally}

theorem Follows.start : Follows Counter.start Ledger.start Tally.start where
  window := rfl
  counted := rfl
  deaf := fun _ => ⟨rfl, rfl⟩
  heard := fun impossible => by cases impossible

theorem Follows.complete (follows : Follows counter ledger tally) (level : tally.Level) :
    ledger.Complete := by
  intro positive some full
  have due := level (follows.window ▸ positive)
  rw [follows.window, follows.counted] at due
  have many : 0 < ledger.counted / ledger.window :=
    Nat.div_pos (Nat.le_of_dvd some full) positive
  cases heard : ledger.heard with
  | false =>
      have none := (follows.deaf heard).2
      omega
  | true =>
      obtain ⟨noted, total, acks, _remaining⟩ := (follows.heard heard).2 positive
      refine ⟨rfl, ?_⟩
      have least : ledger.counted ≤ noted := by
        calc ledger.counted = ledger.counted / ledger.window * ledger.window :=
              (Nat.div_mul_cancel full).symm
          _ = noted / ledger.window * ledger.window := by rw [← due, acks]
          _ ≤ noted := Nat.div_mul_le_self noted ledger.window
      omega

private theorem count_down {window : Nat} (noted : Nat) (positive : 0 < window) :
    (window - noted % window - 1 = 0 ∧ (noted + 1) / window = noted / window + 1 ∧
        (noted + 1) % window = 0) ∨
      (window - noted % window - 1 ≠ 0 ∧ (noted + 1) / window = noted / window ∧
        (noted + 1) % window = noted % window + 1) := by
  have small := Nat.mod_lt noted positive
  by_cases last : noted % window + 1 = window
  · have full : window ∣ noted + 1 := by
      rw [Nat.dvd_iff_mod_eq_zero, Nat.add_mod]
      rcases Nat.lt_or_ge 1 window with large | one
      · rw [Nat.mod_eq_of_lt large, last, Nat.mod_self]
      · have single : window = 1 := by omega
        rw [single]
        exact Nat.mod_one _
    left
    refine ⟨by omega, ?_, Nat.mod_eq_zero_of_dvd full⟩
    exact Nat.succ_div_of_dvd full
  · have rest : (noted + 1) % window = noted % window + 1 := by
      rw [Nat.add_mod, Nat.mod_eq_of_lt (show 1 < window by omega)]
      exact Nat.mod_eq_of_lt (by omega)
    right
    refine ⟨by omega, ?_, rest⟩
    apply Nat.succ_div_of_not_dvd
    intro full
    have zero := Nat.mod_eq_zero_of_dvd full
    change (noted + 1) % window = 0 at zero
    omega

theorem Counter.next_noted {noted : Nat} (known : 0 < counter.window)
    (remaining : counter.remaining = counter.window - noted % counter.window) :
    counter.next { kind := .countable, noted := true } =
      ({ counter with remaining := counter.window - (noted + 1) % counter.window },
        (noted + 1) / counter.window - noted / counter.window) := by
  rcases count_down noted known with ⟨due, quotient, rest⟩ | ⟨early, quotient, rest⟩
  · simp only [Counter.next, if_pos known, remaining, due, if_true, quotient, rest, Nat.sub_zero,
      Nat.add_sub_cancel_left]
  · simp only [Counter.next, if_pos known, remaining, early, if_true, if_false, quotient, rest,
      Nat.sub_self, Nat.sub_add_eq]

private theorem Follows.noted (follows : Follows counter ledger tally) :
    Follows (counter.next { kind := .countable, noted := true }).1
      (ledger.next { kind := .countable, noted := true })
      (tally.next
        { kind := .countable, acks := (counter.next { kind := .countable, noted := true }).2 }) := by
  have counted : tally.counted + 1 = ledger.counted + 1 := by rw [follows.counted]
  by_cases known : 0 < counter.window
  · have heard : ledger.heard = true := by
      cases heard : ledger.heard with
      | true => rfl
      | false =>
          have none := (follows.deaf heard).1
          omega
    obtain ⟨same, tracks⟩ := follows.heard heard
    obtain ⟨noted, total, acks, remaining⟩ := tracks (same ▸ known)
    rw [Counter.next_noted known (same ▸ remaining)]
    refine ⟨follows.window, counted, ?_, ?_⟩
    · intro impossible
      exact absurd (heard.symm.trans impossible) (by decide)
    · intro _heard
      refine ⟨same, fun _positive => ⟨noted + 1, ?_, ?_, ?_⟩⟩
      · change noted + 1 + ledger.skipped = ledger.counted + 1
        omega
      · change tally.acks + ((noted + 1) / counter.window - noted / counter.window) =
          (noted + 1) / ledger.window
        have more : noted / ledger.window ≤ (noted + 1) / ledger.window :=
          Nat.div_le_div_right (Nat.le_succ noted)
        rw [acks, same]
        omega
      · change counter.window - (noted + 1) % counter.window =
          ledger.window - (noted + 1) % ledger.window
        rw [same]
  · have idle : counter.next { kind := .countable, noted := true } = (counter, 0) := by
      simp only [Counter.next, if_neg known, if_true]
    rw [idle]
    refine ⟨follows.window, counted, follows.deaf, ?_⟩
    intro heard
    have same := (follows.heard heard).1
    exact ⟨same, fun positive => absurd (same ▸ positive) known⟩

theorem Follows.next (follows : Follows counter ledger tally) (heed : Heed)
    (hears : ∀ window, heed.kind = .announce window → heed.noted = false → counter.window = 0) :
    Follows (counter.next heed).1 (ledger.next heed)
      (tally.next { kind := heed.kind, acks := (counter.next heed).2 }) := by
  obtain ⟨kind, noted⟩ := heed
  cases kind with
  | announce window =>
      cases noted with
      | false =>
          refine ⟨rfl, rfl, fun _ => ⟨hears window rfl rfl, rfl⟩, ?_⟩
          intro impossible
          cases impossible
      | true =>
          refine ⟨rfl, rfl, ?_, ?_⟩
          · intro impossible
            cases impossible
          · intro _heard
            refine ⟨rfl, fun positive => ⟨0, rfl, (Nat.zero_div _).symm, ?_⟩⟩
            change window = window - 0 % window
            rw [Nat.zero_mod, Nat.sub_zero]
  | other =>
      have still : counter.next { kind := .other, noted := noted } = (counter, 0) := by
        cases noted with
        | false => rfl
        | true => rfl
      rw [still]
      exact ⟨follows.window, follows.counted, follows.deaf, follows.heard⟩
  | countable =>
      cases noted with
      | false =>
          have counted : tally.counted + 1 = ledger.counted + 1 := by rw [follows.counted]
          refine ⟨follows.window, counted, follows.deaf, ?_⟩
          intro heard
          obtain ⟨same, tracks⟩ := follows.heard heard
          refine ⟨same, fun positive => ?_⟩
          obtain ⟨noted, total, acks, remaining⟩ := tracks positive
          refine ⟨noted, ?_, acks, remaining⟩
          change noted + (ledger.skipped + 1) = ledger.counted + 1
          omega
      | true =>
          exact follows.noted

theorem Follows.level {heed : Heed}
    (follows : Follows (counter.next heed).1 (ledger.next heed)
      (tally.next { kind := heed.kind, acks := (counter.next heed).2 }))
    (before : tally.Level) (complete : (ledger.next heed).Complete) :
    (tally.next { kind := heed.kind, acks := (counter.next heed).2 }).Level := by
  obtain ⟨kind, noted⟩ := heed
  intro positive
  cases kind with
  | announce window => exact (Nat.zero_div window).symm
  | other =>
      have silent : (counter.next { kind := .other, noted := noted }).2 = 0 := by
        cases noted with
        | false => rfl
        | true => rfl
      change tally.acks + (counter.next { kind := .other, noted := noted }).2 =
        tally.counted / tally.window
      rw [silent]
      exact before positive
  | countable =>
      have window := follows.window
      have counted := follows.counted
      generalize due : (counter.next { kind := .countable, noted := noted }).2 = sent at follows ⊢
      generalize ledger.next { kind := .countable, noted := noted } = ledger' at *
      change tally.window = ledger'.window at window
      change tally.counted + 1 = ledger'.counted at counted
      change 0 < tally.window at positive
      change tally.acks + sent = (tally.counted + 1) / tally.window
      have level := before positive
      by_cases full : tally.window ∣ tally.counted + 1
      · obtain ⟨heard, none⟩ :=
          complete (window ▸ positive) (counted ▸ Nat.succ_pos _) (window ▸ counted ▸ full)
        obtain ⟨noted, total, acks, _remaining⟩ := (follows.heard heard).2 (window ▸ positive)
        change tally.acks + sent = noted / ledger'.window at acks
        rw [acks, window, counted, ← total, none, Nat.add_zero]
      · have same : (tally.counted + 1) / tally.window = tally.counted / tally.window :=
          Nat.succ_div_of_not_dvd full
        rw [same]
        cases heard : ledger'.heard with
        | false =>
            have none : tally.acks + sent = 0 := (follows.deaf heard).2
            omega
        | true =>
            obtain ⟨noted, total, acks, _remaining⟩ := (follows.heard heard).2 (window ▸ positive)
            change tally.acks + sent = noted / ledger'.window at acks
            have most : noted / ledger'.window ≤ tally.counted / tally.window := by
              rw [← same, window, counted]
              exact Nat.div_le_div_right (by omega)
            omega

end Follows

/-- An announcement that the receiver misses finds it without a window. -/
def Counter.Attends (counter : Counter) : List Heed → Prop
  | [] => True
  | heed :: rest =>
      (∀ window, heed.kind = .announce window → heed.noted = false → counter.window = 0) ∧
        (counter.next heed).1.Attends rest

theorem throughout_iff {counter : Counter} {ledger : Ledger} {tally : Tally} {heeds : List Heed}
    (follows : Follows counter ledger tally) (level : tally.Level) (attends : counter.Attends heeds) :
    Throughout Tally.next Tally.Level tally (counter.log heeds) ↔
      Throughout Ledger.next Ledger.Complete ledger heeds := by
  induction heeds generalizing counter ledger tally with
  | nil =>
      rw [Counter.log, throughout_nil, throughout_nil]
      exact iff_of_true level (follows.complete level)
  | cons heed rest ih =>
      have followsNext := follows.next heed attends.1
      rw [Counter.log, throughout_cons, throughout_cons]
      constructor
      · rintro ⟨_level, later⟩
        have levelNext := throughout_here later
        exact ⟨follows.complete level, (ih followsNext levelNext attends.2).mp later⟩
      · rintro ⟨_complete, later⟩
        have levelNext := followsNext.level level (throughout_here later)
        exact ⟨level, (ih followsNext levelNext attends.2).mpr later⟩

theorem attends_of_split {counter : Counter} {early late : List Heed} (idle : counter.window = 0)
    (missed : ∀ heed ∈ early, ∀ window, heed.kind = .announce window → heed.noted = false)
    (heard : ∀ heed ∈ late, ∀ window, heed.kind = .announce window → heed.noted = true) :
    counter.Attends (early ++ late) := by
  induction early generalizing counter with
  | nil =>
      clear missed idle
      rw [List.nil_append]
      induction late generalizing counter with
      | nil => trivial
      | cons heed rest ih =>
          refine ⟨?_, ih fun other member => heard other (List.mem_cons_of_mem heed member)⟩
          intro window announced unheard
          have noted := heard heed List.mem_cons_self window announced
          rw [unheard] at noted
          cases noted
  | cons heed rest ih =>
      refine ⟨fun _ _ _ => idle, ?_⟩
      have still : (counter.next heed).1.window = 0 := by
        obtain ⟨kind, noted⟩ := heed
        cases noted with
        | false => exact idle
        | true =>
            cases kind with
            | announce window => cases missed _ List.mem_cons_self window rfl
            | countable =>
                simp only [Counter.next, idle, Nat.lt_irrefl, if_false, if_true]
            | other => exact idle
      exact ih still fun other member => missed other (List.mem_cons_of_mem heed member)

/-- A receiver that misses the early announcements and hears the late ones honours
the windows exactly when no full window was missed in part. -/
theorem honoured_iff {early late : List Heed}
    (missed : ∀ heed ∈ early, ∀ window, heed.kind = .announce window → heed.noted = false)
    (heard : ∀ heed ∈ late, ∀ window, heed.kind = .announce window → heed.noted = true) :
    Honoured (Counter.start.log (early ++ late)) ↔ Complete (early ++ late) := by
  apply throughout_iff Follows.start
  · intro impossible
    exact absurd impossible (Nat.lt_irrefl 0)
  · exact attends_of_split rfl missed heard

/-! ### A receiver that acknowledges nothing -/

/-- The last announced window with the countable messages since. -/
structure Span where
  window : Nat
  counted : Nat
  deriving DecidableEq, Repr

def Span.start : Span := { window := 0, counted := 0 }

def Span.next (span : Span) : Kind → Span
  | .announce window => { window := window, counted := 0 }
  | .countable => { span with counted := span.counted + 1 }
  | .other => span

def spanOf (kinds : List Kind) : Span := kinds.foldl Span.next Span.start

theorem spanOf_append (kinds : List Kind) (kind : Kind) :
    spanOf (kinds ++ [kind]) = (spanOf kinds).next kind := by
  rw [spanOf, spanOf, List.foldl_append]
  rfl

/-- The message fills a window. -/
def Span.Fills (span : Span) (kind : Kind) : Prop :=
  kind = .countable ∧ 0 < span.window ∧ span.window ∣ span.counted + 1

instance (span : Span) (kind : Kind) : Decidable (span.Fills kind) :=
  inferInstanceAs (Decidable (_ ∧ _))

/-- A counter that has heard everything since the last announcement. -/
structure Counter.InStep (counter : Counter) (span : Span) : Prop where
  window : counter.window = span.window
  remaining : 0 < span.window → counter.remaining = span.window - span.counted % span.window

theorem Counter.InStep.start : Counter.start.InStep Span.start where
  window := rfl
  remaining := fun impossible => absurd impossible (Nat.lt_irrefl 0)

/-- A counter in step stays in step, and acknowledges exactly what fills a window. -/
theorem Counter.InStep.next {counter : Counter} {span : Span} (inStep : counter.InStep span)
    (kind : Kind) :
    (counter.next { kind := kind, noted := true }).1.InStep (span.next kind) ∧
      (counter.next { kind := kind, noted := true }).2 = if span.Fills kind then 1 else 0 := by
  cases kind with
  | announce window =>
      refine ⟨⟨rfl, fun _positive => ?_⟩, ?_⟩
      · change window = window - 0 % window
        rw [Nat.zero_mod, Nat.sub_zero]
      · rw [if_neg (fun fills => by cases fills.1)]
        rfl
  | other =>
      refine ⟨inStep, ?_⟩
      rw [if_neg (fun fills => by cases fills.1)]
      rfl
  | countable =>
      by_cases known : 0 < counter.window
      · have positive : 0 < span.window := inStep.window ▸ known
        have remaining := inStep.remaining positive
        rw [← inStep.window] at remaining
        rw [Counter.next_noted known remaining]
        refine ⟨⟨inStep.window, fun _positive => ?_⟩, ?_⟩
        · change counter.window - (span.counted + 1) % counter.window =
            span.window - (span.counted + 1) % span.window
          rw [inStep.window]
        · dsimp only
          rw [inStep.window]
          by_cases full : span.window ∣ span.counted + 1
          · rw [if_pos ⟨rfl, positive, full⟩, Nat.succ_div_of_dvd full,
              Nat.add_sub_cancel_left]
          · rw [if_neg fun fills => full fills.2.2, Nat.succ_div_of_not_dvd full, Nat.sub_self]
      · have idle : counter.next { kind := .countable, noted := true } = (counter, 0) := by
          simp only [Counter.next, if_neg known, if_true]
        rw [idle]
        have none : ¬ 0 < span.window := inStep.window ▸ known
        refine ⟨⟨inStep.window, fun positive => absurd positive none⟩, ?_⟩
        rw [if_neg fun fills => none fills.2.1]

def Span.Open (span : Span) : Prop := 0 < span.window → span.counted < span.window

def NeverFull (kinds : List Kind) : Prop := Throughout Span.next Span.Open Span.start kinds

theorem honoured_iff_neverFull {log : List Beat} (silent : ∀ beat ∈ log, beat.acks = 0) :
    Honoured log ↔ NeverFull (log.map Beat.kind) := by
  have generally : ∀ (span : Span) (tally : Tally), tally.window = span.window →
      tally.counted = span.counted → tally.acks = 0 →
      (Throughout Tally.next Tally.Level tally log ↔
        Throughout Span.next Span.Open span (log.map Beat.kind)) := by
    intro span tally window counted none
    have here (tally : Tally) (span : Span) (window : tally.window = span.window)
        (counted : tally.counted = span.counted) (none : tally.acks = 0) :
        tally.Level ↔ span.Open := by
      unfold Tally.Level Span.Open
      rw [window, counted, none]
      constructor
      · intro level positive
        exact (Nat.div_eq_zero_iff_lt positive).mp (level positive).symm
      · intro room positive
        exact ((Nat.div_eq_zero_iff_lt positive).mpr (room positive)).symm
    induction log generalizing span tally with
    | nil =>
        rw [List.map_nil, throughout_nil, throughout_nil]
        exact here tally span window counted none
    | cons beat rest ih =>
        have quiet := silent beat List.mem_cons_self
        rw [List.map_cons, throughout_cons, throughout_cons, here tally span window counted none]
        apply and_congr_right
        intro _open
        apply ih fun other member => silent other (List.mem_cons_of_mem beat member)
        · obtain ⟨kind, acks⟩ := beat
          cases kind with
          | announce window => rfl
          | countable => exact window
          | other => exact window
        · obtain ⟨kind, acks⟩ := beat
          cases kind with
          | announce window => rfl
          | countable => exact congrArg (· + 1) counted
          | other => exact counted
        · obtain ⟨kind, acks⟩ := beat
          change acks = 0 at quiet
          subst quiet
          cases kind with
          | announce window => rfl
          | countable => exact none
          | other => exact none
  exact generally Span.start Tally.start rfl rfl rfl

end FlowControl
