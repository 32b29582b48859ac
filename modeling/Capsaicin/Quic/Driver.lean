/-
The row drivers. Every encoder and decoder of the codec cuts its rows into the
same wait-mask segments and walks them in the same way; what differs is how one
pixel and one run are coded. The walk is written once over a `Coder`, and so are
the rules that carry a relation between two coders, or an invariant of one, from
single pixels to whole passes.
-/

import Capsaicin.Quic.Model
import Mathlib.Data.List.Forall2

namespace Capsaicin.Quic

open Program (Coupled Keeps Parting Same Triple step view)

/-- The state of a pass over an image: the bit stream, the shared coding state,
the channels, the finished rows (nearest first) and the current one. -/
structure Pass (δ ρ : Type) where
  coder : δ
  state : CommonState
  chans : List ChannelDecoder
  above : List ρ
  cur : ρ
  deriving DecidableEq, Repr

abbrev Coding (δ ρ : Type) := Program.Code QuicError (Pass δ ρ)

/-- What the row driver calls. `assertsOrder` marks the segment functions that
open with `debug_assert!(end > start)`. -/
structure Coder (δ ρ : Type) where
  family : Family
  assertsOrder : Bool
  first : Coding δ ρ Unit
  pixel : Nat → Coding δ ρ Unit
  escapes : Option ρ → ρ → Nat → Int → Except QuicFault Bool
  run : Nat → Nat → Coding δ ρ Nat

section Walk

variable {δ ρ : Type}

def Pass.prev (pass : Pass δ ρ) : Option ρ := pass.above.head?

def Pass.withState (pass : Pass δ ρ) (state : CommonState) : Pass δ ρ := { pass with state := state }

def fail (fault : QuicFault) {α : Type} : Coding δ ρ α := step fun _pass => .error fault

def getState : Coding δ ρ CommonState := view fun pass => .ok pass.state

def onState {α : Type} (change : CommonState → α × CommonState) : Coding δ ρ α :=
  step fun pass => .ok ((change pass.state).1, pass.withState (change pass.state).2)

def wrappingSub (left right : Nat) : Nat := (left + 2 ^ 32 - right) % 2 ^ 32

def setWaitcnt (waitcnt : Nat) : Coding δ ρ Unit :=
  onState fun state => ((), { state with waitcnt := waitcnt })

def nextWait (waitmask : Nat) : Coding δ ρ Nat :=
  onState fun state => (state.tabrand.1 &&& waitmask, state.tabrand.2)

/-- `update_models_at` and `update_alpha_model_at`: every channel of the pass. -/
def updateModelsAt (family : Family) (idx : Nat) : Coding δ ρ Unit :=
  step fun pass => do
    let chans ← pass.chans.mapM (ChannelDecoder.updateAt family pass.state idx)
    .ok ((), { pass with chans := chans })

/-- The inner loop over `count` pixels from `j` on; `some j` is an escape at `j`. -/
def scan (coder : Coder δ ρ) (runIndex : Int) : Nat → Nat → Coding δ ρ (Option Nat)
  | 0, _ => pure none
  | count + 1, j => do
      let escape ← view fun pass => coder.escapes pass.prev pass.cur j runIndex
      if escape then pure (some j)
      else do
        coder.pixel j
        scan coder runIndex count (j + 1)

/-- The escape branch: the run at `j`, with its end and the wait count behind it. -/
def doRun (coder : Coder δ ρ) (stop stopidx j : Nat) : Coding δ ρ (Nat × Nat) := do
  setWaitcnt (wrappingSub stopidx j)
  let runEnd ← coder.run j stop
  let state ← getState
  pure (runEnd, state.waitcnt)

def updateAndWait (family : Family) (waitmask stopidx : Nat) : Coding δ ρ Nat := do
  updateModelsAt family stopidx
  nextWait waitmask

/-- What the labelled loop of a segment function does when an inner loop stops:
behind an escape it goes on after the run, at `stopidx` it updates the models,
and at the end of the segment it leaves. `next i stopidx run_index` is the loop. -/
def resume (coder : Coder δ ρ) (waitmask stop stopidx : Nat) (runIndex : Int)
    (next : Nat → Nat → Int → Coding δ ρ Unit) : Option Nat → Coding δ ρ Unit
  | some j => do
      let reached ← doRun coder stop stopidx j
      if reached.1 = stop then pure () else next reached.1 (reached.1 + reached.2) j
  | none =>
      if stopidx < stop then do
        let wait ← updateAndWait coder.family waitmask stopidx
        next (stopidx + 1) (stopidx + 1 + wait) runIndex
      else setWaitcnt (wrappingSub stopidx stop)

/-- The labelled loop. While `stopidx < end` its inner loop ends at `stopidx`, after
that at the end of the segment. The sums of a position and a wait stay far below the
size of `u32`, as the widths that are accepted and the waits do. -/
def segLoop (coder : Coder δ ρ) (waitmask stop : Nat) :
    Nat → Nat → Nat → Int → Coding δ ρ Unit
  | 0, _, _, _ => fail .fuel
  | fuel + 1, i, stopidx, runIndex => do
      let found ← scan coder runIndex ((if stopidx < stop then stopidx + 1 else stop) - i) i
      resume coder waitmask stop stopidx runIndex (segLoop coder waitmask stop fuel) found

/-- The countdown after the first pixel of a row. -/
def firstWait (family : Family) (waitmask : Nat) : Coding δ ρ Unit := do
  let state ← getState
  if state.waitcnt > 0 then setWaitcnt (state.waitcnt - 1)
  else do
    let wait ← nextWait waitmask
    setWaitcnt wait
    updateModelsAt family 0

/-- One segment. The loop gets a bound that no run reaches (`segLoop_coupled`). -/
def seg (coder : Coder δ ρ) (start stop : Nat) : Coding δ ρ Unit := do
  if coder.assertsOrder = true ∧ stop ≤ start then fail (.panic .assertion)
  else do
    let state ← getState
    let waitmask := bppmask state.wmidx
    if start = 0 then do
      coder.first
      firstWait coder.family waitmask
      let state ← getState
      segLoop coder waitmask stop (2 * stop + 2) 1 (1 + state.waitcnt) (-1)
    else segLoop coder waitmask stop (2 * stop + 2) start (start + state.waitcnt) (-1)

def CommonState.nextWm (state : CommonState) : CommonState :=
  { ({ state with wmidx := state.wmidx + 1 }).setWmTrigger with wmileft := DEFWMINEXT }

def segAny (coder : Coder δ ρ) (pos length : Nat) : Coding δ ρ Unit :=
  if length > 0 then seg coder pos (pos + length) else pure ()

/-- The `while` of a row function. No segment writes `wmileft`. -/
def rowLoop (coder : Coder δ ρ) : Nat → Nat → Nat → Coding δ ρ (Nat × Nat)
  | 0, _, _ => fail .fuel
  | fuel + 1, pos, remaining => do
      let state ← getState
      if DEFWMIMAX > state.wmidx ∧ state.wmileft ≤ remaining then do
        segAny coder pos state.wmileft
        onState fun state => ((), state.nextWm)
        rowLoop coder fuel (pos + state.wmileft) (remaining - state.wmileft)
      else pure (pos, remaining)

def row (coder : Coder δ ρ) (width : Nat) : Coding δ ρ Unit := do
  let reached ← rowLoop coder (DEFWMIMAX + 1) 0 width
  if reached.2 > 0 then do
    seg coder reached.1 (reached.1 + reached.2)
    onState fun state =>
      ((), if DEFWMIMAX > state.wmidx then
          { state with wmileft := wrappingSub state.wmileft reached.2 }
        else state)
  else pure ()

def openRow (fresh : ρ) : Coding δ ρ Unit := step fun pass => .ok ((), { pass with cur := fresh })

/-- The end of a row: `prev_minus1 = correlate_row[0]` in each channel. -/
def closeRow : Coding δ ρ Unit :=
  step fun pass => do
    let chans ← pass.chans.mapM ChannelDecoder.latch
    .ok ((), { pass with chans := chans, above := pass.cur :: pass.above })

/-- A phase: all rows of an image from the top. -/
def phase (coder : Coder δ ρ) (width : Nat) : List ρ → Coding δ ρ Unit
  | [] => pure ()
  | fresh :: rest => do
      openRow fresh
      row coder width
      closeRow
      phase coder width rest

end Walk

/-! ### What no step of a coder undoes -/

/-- A property of the pass that each operation of the coder keeps, and that does not
look at the coding state or the channels. -/
structure Coder.Steady {δ ρ : Type} (kept : Pass δ ρ → Prop) (coder : Coder δ ρ) : Prop where
  retime : ∀ {pass} (state : CommonState), kept pass → kept (pass.withState state)
  remodel : ∀ {pass} (chans : List ChannelDecoder), kept pass → kept { pass with chans := chans }
  first : Keeps kept coder.first
  pixel : ∀ j, Keeps kept (coder.pixel j)
  run : ∀ j stop, Keeps kept (coder.run j stop)

section Steady

variable {δ ρ : Type} {kept : Pass δ ρ → Prop}

theorem fail_keeps {α : Type} (fault : QuicFault) : Keeps kept (fail fault : Coding δ ρ α) := by
  apply Keeps.step
  intro pass value last start ran
  cases ran

variable {coder : Coder δ ρ} (steady : coder.Steady kept)

include steady

theorem Coder.Steady.onState {α : Type} (change : CommonState → α × CommonState) :
    Keeps kept (onState change) := by
  apply Keeps.step
  intro pass value last start ran
  cases ran
  exact steady.retime _ start

theorem Coder.Steady.models (family : Family) (idx : Nat) :
    Keeps kept (updateModelsAt family idx) := by
  apply Keeps.step
  intro pass value last start ran
  obtain ⟨chans, _updated, returned⟩ := Program.bind_eq_ok.mp ran
  cases returned
  exact steady.remodel chans start

theorem Coder.Steady.scan (runIndex : Int) (count j : Nat) :
    Keeps kept (scan coder runIndex count j) := by
  induction count generalizing j with
  | zero => exact Keeps.pure none
  | succ count ih =>
      unfold Quic.scan
      apply Keeps.bind (Keeps.view _)
      intro escape
      cases escape with
      | true => exact Keeps.pure (some j)
      | false => exact Keeps.bind (steady.pixel j) fun _ => ih (j + 1)

theorem Coder.Steady.doRun (stop stopidx j : Nat) : Keeps kept (doRun coder stop stopidx j) :=
  Keeps.bind (steady.onState _) fun _ => Keeps.bind (steady.run j stop) fun _ =>
    Keeps.bind (Keeps.view _) fun _ => Keeps.pure _

theorem Coder.Steady.updateAndWait (family : Family) (waitmask stopidx : Nat) :
    Keeps kept (updateAndWait family waitmask stopidx) :=
  Keeps.bind (steady.models _ _) fun _ => steady.onState _

theorem Coder.Steady.resume (waitmask stop stopidx : Nat) (runIndex : Int)
    {next : Nat → Nat → Int → Coding δ ρ Unit}
    (later : ∀ i stopidx runIndex, Keeps kept (next i stopidx runIndex)) (found : Option Nat) :
    Keeps kept (resume coder waitmask stop stopidx runIndex next found) := by
  cases found with
  | some j =>
      apply Keeps.bind (steady.doRun stop stopidx j)
      intro reached
      split
      · exact Keeps.pure ()
      · exact later _ _ _
  | none =>
      rw [Quic.resume]
      split
      · exact Keeps.bind (steady.updateAndWait _ _ _) fun wait => later _ _ _
      · exact steady.onState _

theorem Coder.Steady.segLoop (waitmask stop fuel i stopidx : Nat) (runIndex : Int) :
    Keeps kept (segLoop coder waitmask stop fuel i stopidx runIndex) := by
  induction fuel generalizing i stopidx runIndex with
  | zero => exact fail_keeps .fuel
  | succ fuel ih =>
      exact Keeps.bind (steady.scan runIndex _ i) fun found =>
        steady.resume waitmask stop stopidx runIndex ih found

theorem Coder.Steady.firstWait (family : Family) (waitmask : Nat) :
    Keeps kept (firstWait family waitmask) := by
  unfold Quic.firstWait
  apply Keeps.bind (Keeps.view _)
  intro state
  split
  · exact steady.onState _
  · apply Keeps.bind (steady.onState _)
    intro wait
    exact Keeps.bind (steady.onState _) fun _ => steady.models _ _

theorem Coder.Steady.firstLoop (family : Family) (waitmask stop fuel i : Nat) (runIndex : Int) :
    Keeps kept (do
      Quic.firstWait family waitmask
      let state ← getState
      Quic.segLoop coder waitmask stop fuel i (i + state.waitcnt) runIndex) :=
  Keeps.bind (steady.firstWait _ _) fun _ =>
    Keeps.bind (Keeps.view _) fun _ => steady.segLoop _ _ _ _ _ _

theorem Coder.Steady.seg (start stop : Nat) : Keeps kept (seg coder start stop) := by
  unfold Quic.seg
  split
  · exact fail_keeps _
  · apply Keeps.bind (Keeps.view _)
    intro state
    dsimp only
    split
    · exact Keeps.bind steady.first fun _ => steady.firstLoop _ _ _ _ _ _
    · exact steady.segLoop _ _ _ _ _ _

theorem Coder.Steady.segAny (pos length : Nat) : Keeps kept (segAny coder pos length) := by
  unfold Quic.segAny
  split
  · exact steady.seg _ _
  · exact Keeps.pure ()

theorem Coder.Steady.rowLoop (fuel pos remaining : Nat) :
    Keeps kept (rowLoop coder fuel pos remaining) := by
  induction fuel generalizing pos remaining with
  | zero => exact fail_keeps .fuel
  | succ fuel ih =>
      unfold Quic.rowLoop
      apply Keeps.bind (Keeps.view _)
      intro state
      split
      · exact Keeps.bind (steady.segAny _ _) fun _ => Keeps.bind (steady.onState _) fun _ => ih _ _
      · exact Keeps.pure _

theorem Coder.Steady.row (width : Nat) : Keeps kept (row coder width) := by
  unfold Quic.row
  apply Keeps.bind (steady.rowLoop _ _ _)
  intro reached
  split
  · exact Keeps.bind (steady.seg _ _) fun _ => steady.onState _
  · exact Keeps.pure ()

end Steady

section SteadyCoder

variable {δ ρ : Type} {kept : δ → Prop}

theorem openRow_keeps (fresh : ρ) :
    Keeps (fun pass : Pass δ ρ => kept pass.coder) (openRow fresh) := by
  apply Keeps.step
  intro pass value last start ran
  cases ran
  exact start

theorem closeRow_keeps : Keeps (fun pass : Pass δ ρ => kept pass.coder) closeRow := by
  apply Keeps.step
  intro pass value last start ran
  obtain ⟨chans, _latched, returned⟩ := Program.bind_eq_ok.mp ran
  cases returned
  exact start

theorem Coder.Steady.phase {coder : Coder δ ρ} (steady : coder.Steady fun pass => kept pass.coder)
    (width : Nat) (rows : List ρ) :
    Keeps (fun pass => kept pass.coder) (phase coder width rows) := by
  induction rows with
  | nil => exact Keeps.pure ()
  | cons fresh rest ih =>
      exact Keeps.bind (openRow_keeps fresh) fun _ =>
        Keeps.bind (steady.row width) fun _ => Keeps.bind closeRow_keeps fun _ => ih

end SteadyCoder

theorem phase_rows {δ ρ : Type} {coder : Coder δ ρ} {becomes : ρ → ρ → Prop}
    (steady : ∀ (fresh : ρ) (above : List ρ),
      coder.Steady fun pass => becomes fresh pass.cur ∧ pass.above = above)
    (width : Nat) {rows : List ρ} (begins : ∀ fresh ∈ rows, becomes fresh fresh) (above : List ρ) :
    Triple (fun pass => pass.above = above) (phase coder width rows)
      (fun _ pass => ∃ done, List.Forall₂ becomes rows done ∧ pass.above = done.reverse ++ above)
      fun _ _ => True := by
  induction rows generalizing above with
  | nil => exact Triple.pure () fun _pass start => ⟨[], .nil, start⟩
  | cons fresh rest ih =>
      have opened : Triple (fun pass => pass.above = above) (openRow (δ := δ) fresh)
          (fun _ pass => becomes fresh pass.cur ∧ pass.above = above) fun _ _ => True := by
        apply Triple.step
        · intro pass value last start ran
          cases ran
          exact ⟨begins fresh List.mem_cons_self, start⟩
        · exact fun _pass _fault _start _ran => True.intro
      have walked : Triple (fun pass => becomes fresh pass.cur ∧ pass.above = above)
          (row coder width) (fun _ pass => becomes fresh pass.cur ∧ pass.above = above)
          fun _ _ => True :=
        ((steady fresh above).row width).relax fun _fault _pass _kept => True.intro
      have closed : Triple (fun pass => becomes fresh pass.cur ∧ pass.above = above)
          (closeRow (δ := δ)) (fun _ pass => ∃ cur, becomes fresh cur ∧ pass.above = cur :: above)
          fun _ _ => True := by
        apply Triple.step
        · intro pass value last start ran
          obtain ⟨chans, _latched, returned⟩ := Program.bind_eq_ok.mp ran
          cases returned
          exact ⟨pass.cur, start.1, congrArg (pass.cur :: ·) start.2⟩
        · exact fun _pass _fault _start _ran => True.intro
      refine opened.bind fun _ => walked.bind fun _ => closed.bind fun _ => ?_
      rintro pass ⟨cur, become, start⟩
      have later := ih (fun other member => begins other (List.mem_cons_of_mem fresh member))
        (cur :: above)
      refine (later.conseq (fun _pass start => start) ?_) pass start
      rintro _ last ⟨done, behind, reached⟩
      refine ⟨cur :: done, .cons become behind, ?_⟩
      rw [reached, List.reverse_cons, List.append_assoc]
      rfl

theorem phase_above {δ ρ : Type} {coder : Coder δ ρ}
    (steady : ∀ (cur : ρ) (above : List ρ),
      coder.Steady fun pass => pass.cur = cur ∧ pass.above = above)
    (width : Nat) (rows above : List ρ) :
    Triple (fun pass => pass.above = above) (phase coder width rows)
      (fun _ pass => pass.above = rows.reverse ++ above) fun _ _ => True := by
  refine (@phase_rows _ _ _ (fun fresh cur => cur = fresh) steady width rows
    (fun _fresh _member => rfl) above).conseq (fun _pass start => start) ?_
  rintro _ pass ⟨done, same, reached⟩
  have whole : rows = done := by
    clear reached
    induction same with
    | nil => rfl
    | cons first _rest ih => rw [first, ih]
  rw [reached, whole]

/-! ### Two coders side by side -/

section Coupling

variable {δ δ' ρ ρ' : Type}

def onCoder (parting : Parting QuicFault QuicFault δ δ') :
    Parting QuicFault QuicFault (Pass δ ρ) (Pass δ' ρ') where
  stopped fault fault' source target := parting.stopped fault fault' source.coder target.coder
  lostLeft source := parting.lostLeft source.coder
  lostRight target := parting.lostRight target.coder

/-- Two coders that walk rows of `width` pixels together. `related clock k` holds
when the pixels before `k` of the current row are done, `idle clock` between
rows; `blank` relates two rows about to be coded. -/
structure Paired (parting : Parting QuicFault QuicFault δ δ') (left : Coder δ ρ)
    (right : Coder δ' ρ') (width : Nat)
    (related : Clock → Nat → Pass δ ρ → Pass δ' ρ' → Prop)
    (idle : Clock → Pass δ ρ → Pass δ' ρ' → Prop) (blank : ρ → ρ' → Prop) : Prop where
  steadyLeft : left.Steady fun pass => parting.lostLeft pass.coder
  steadyRight : right.Steady fun pass => parting.lostRight pass.coder
  common : ∀ {clock k source target}, related clock k source target →
    source.state = target.state ∧ source.state.clock = clock
  retime : ∀ {clock k source target} (state : CommonState), related clock k source target →
    source.state.SameMelc state →
    related state.clock k (source.withState state) (target.withState state)
  escapes : ∀ {clock j source target} (runIndex : Int), 0 < j → j < width →
    related clock j source target → ∃ answer,
      left.escapes source.prev source.cur j runIndex = .ok answer ∧
      right.escapes target.prev target.cur j runIndex = .ok answer ∧
      (answer = true → runIndex ≠ j)
  first : ∀ clock, 0 < width → Coupled (onCoder parting) (related clock 0) left.first right.first
    fun _ => related clock 1
  pixel : ∀ clock j, 0 < j → j < width → Coupled (onCoder parting) (related clock j) (left.pixel j)
    (right.pixel j) fun _ => related clock (j + 1)
  run : ∀ clock j stop, 0 < j → j < stop → stop ≤ width →
    Coupled (onCoder parting) (related clock j) (left.run j stop) (right.run j stop)
      fun runEnd source target =>
        (j ≤ runEnd ∧ runEnd ≤ stop) ∧ related clock runEnd source target
  models : ∀ clock idx, idx < width → Coupled (onCoder parting) (related clock (idx + 1))
    (updateModelsAt left.family idx) (updateModelsAt right.family idx)
    fun _ => related clock (idx + 1)
  opened : ∀ {clock source target fresh fresh'}, idle clock source target → blank fresh fresh' →
    related clock 0 { source with cur := fresh } { target with cur := fresh' }
  closed : ∀ clock, Coupled (onCoder parting) (related clock width) closeRow closeRow
    fun _ => idle clock

variable {parting : Parting QuicFault QuicFault δ δ'} {left : Coder δ ρ} {right : Coder δ' ρ'}
  {width : Nat} {related : Clock → Nat → Pass δ ρ → Pass δ' ρ' → Prop}
  {idle : Clock → Pass δ ρ → Pass δ' ρ' → Prop} {blank : ρ → ρ' → Prop}

theorem onState_coupled {α : Type} {before : Pass δ ρ → Pass δ' ρ' → Prop}
    {after : α → Pass δ ρ → Pass δ' ρ' → Prop} (change : CommonState → α × CommonState)
    (follow : ∀ source target, before source target → source.state = target.state ∧
      after (change source.state).1 (source.withState (change source.state).2)
        (target.withState (change source.state).2)) :
    Coupled (onCoder parting) before (onState change) (onState change) after := by
  intro source target start
  obtain ⟨same, related⟩ := follow source target start
  refine Parting.ends_ok rfl ?_ related
  rw [← same]

/-- Where an inner loop from `i` to `last` stops. -/
def ScanEnd (at_ : Nat → Pass δ ρ → Pass δ' ρ' → Prop) (i last : Nat) (runIndex : Int) :
    Option Nat → Pass δ ρ → Pass δ' ρ' → Prop
  | none => at_ last
  | some k => fun source target => (i ≤ k ∧ k < last ∧ runIndex ≠ k) ∧ at_ k source target

section Paired

variable (paired : Paired parting left right width related idle blank)

include paired

theorem Paired.change {α : Type} {clock clock' : Clock} {k : Nat}
    (change : CommonState → α × CommonState)
    (melc : ∀ state : CommonState, state.SameMelc (change state).2)
    (schedule : ∀ state : CommonState, state.clock = clock → (change state).2.clock = clock') :
    Coupled (onCoder parting) (related clock k) (onState change) (onState change)
      fun _ => related clock' k := by
  apply onState_coupled
  intro source target start
  obtain ⟨same, atClock⟩ := paired.common start
  refine ⟨same, ?_⟩
  have moved := paired.retime (change source.state).2 start (melc source.state)
  rw [schedule source.state atClock] at moved
  exact moved

theorem Paired.adjust {α : Type} {clock : Clock} {k : Nat} (change : CommonState → α × CommonState)
    (melc : ∀ state : CommonState, state.SameMelc (change state).2)
    (schedule : ∀ state : CommonState, (change state).2.clock = state.clock) :
    Coupled (onCoder parting) (related clock k) (onState change) (onState change)
      fun _ => related clock k :=
  paired.change change melc fun state current => (schedule state).trans current

theorem Paired.setWaitcnt {clock : Clock} {k : Nat} (waitcnt : Nat) :
    Coupled (onCoder parting) (related clock k) (setWaitcnt waitcnt) (setWaitcnt waitcnt)
      fun _ => related clock k :=
  paired.adjust _ (fun _state => ⟨rfl, rfl, rfl⟩) fun _state => rfl

theorem Paired.nextWait {clock : Clock} {k : Nat} (waitmask : Nat) :
    Coupled (onCoder parting) (related clock k) (nextWait waitmask) (nextWait waitmask)
      fun _ => related clock k :=
  paired.adjust _ (fun _state => ⟨rfl, rfl, rfl⟩) fun _state => rfl

theorem Paired.getState {clock : Clock} {k : Nat} :
    Coupled (onCoder parting) (related clock k) getState getState
      fun state source target => state.clock = clock ∧ related clock k source target := by
  apply Coupled.view
  intro source target start
  obtain ⟨same, atClock⟩ := paired.common start
  exact ⟨source.state, rfl, congrArg Except.ok same.symm, atClock, start⟩

theorem Paired.scan (clock : Clock) (runIndex : Int) {count j : Nat} (positive : 0 < j)
    (inside : j + count ≤ width) :
    Coupled (onCoder parting) (related clock j) (scan left runIndex count j)
      (scan right runIndex count j) (ScanEnd (related clock) j (j + count) runIndex) := by
  induction count generalizing j with
  | zero => exact Coupled.pure none fun _source _target start => start
  | succ count ih =>
      have answered : Coupled (onCoder parting) (related clock j)
          (view fun pass => left.escapes pass.prev pass.cur j runIndex)
          (view fun pass => right.escapes pass.prev pass.cur j runIndex)
          fun answer source target => (answer = true → runIndex ≠ j) ∧ related clock j source target := by
        apply Coupled.view
        intro source target start
        obtain ⟨answer, leftAnswer, rightAnswer, fresh⟩ :=
          paired.escapes runIndex positive (by omega) start
        exact ⟨answer, leftAnswer, rightAnswer, fresh, start⟩
      unfold Quic.scan
      apply answered.bind
      · intro answer
        cases answer with
        | true => exact Keeps.pure _
        | false => exact Keeps.bind (paired.steadyLeft.pixel j) fun _ => paired.steadyLeft.scan _ _ _
      · intro answer
        cases answer with
        | true => exact Keeps.pure _
        | false => exact Keeps.bind (paired.steadyRight.pixel j) fun _ => paired.steadyRight.scan _ _ _
      · intro answer
        cases answer with
        | true =>
            apply Coupled.pure
            intro source target start
            exact ⟨⟨Nat.le_refl j, by omega, start.1 rfl⟩, start.2⟩
        | false =>
            have pixel := (paired.pixel clock j positive (by omega)).weaken
              fun source target (start : (false = true → runIndex ≠ j) ∧
                related clock j source target) => start.2
            apply pixel.bind (fun _ => paired.steadyLeft.scan _ _ _)
              (fun _ => paired.steadyRight.scan _ _ _)
            intro _
            apply (ih (Nat.succ_pos j) (by omega)).strengthen
            intro found source target reached
            cases found with
            | none =>
                rw [show j + (count + 1) = j + 1 + count by omega]
                exact reached
            | some k =>
                obtain ⟨⟨lower, upper, fresh⟩, done⟩ := reached
                exact ⟨⟨by omega, by omega, fresh⟩, done⟩

theorem Paired.doRun {clock : Clock} {stop stopidx j : Nat} (positive : 0 < j) (inside : j < stop)
    (fits : stop ≤ width) :
    Coupled (onCoder parting) (related clock j) (doRun left stop stopidx j)
      (doRun right stop stopidx j) fun reached source target =>
        (j ≤ reached.1 ∧ reached.1 ≤ stop) ∧ related clock reached.1 source target := by
  apply (paired.setWaitcnt _).bind
  · exact fun _ => Keeps.bind (paired.steadyLeft.run j stop) fun _ =>
      Keeps.bind (Keeps.view _) fun _ => Keeps.pure _
  · exact fun _ => Keeps.bind (paired.steadyRight.run j stop) fun _ =>
      Keeps.bind (Keeps.view _) fun _ => Keeps.pure _
  intro _
  apply (paired.run clock j stop positive inside fits).bind
  · exact fun _ => Keeps.bind (Keeps.view _) fun _ => Keeps.pure _
  · exact fun _ => Keeps.bind (Keeps.view _) fun _ => Keeps.pure _
  intro runEnd
  apply Coupled.fact
  intro bounds
  apply paired.getState.bind (fun _ => Keeps.pure _) (fun _ => Keeps.pure _)
  intro state
  exact Coupled.pure _ fun source target met => ⟨bounds, met.2⟩

theorem Paired.updateAndWait {clock : Clock} (waitmask : Nat) {stopidx : Nat}
    (inside : stopidx < width) :
    Coupled (onCoder parting) (related clock (stopidx + 1))
      (updateAndWait left.family waitmask stopidx) (updateAndWait right.family waitmask stopidx)
      fun _ => related clock (stopidx + 1) :=
  (paired.models clock stopidx inside).bind (fun _ => paired.steadyLeft.onState _)
    (fun _ => paired.steadyRight.onState _) fun _ => paired.nextWait waitmask

/-- One pass of the labelled loop, given what the later ones do. Each pass moves on,
or ends a run of length zero whose position then bars the next escape. -/
theorem Paired.resume {clock : Clock} (waitmask : Nat) {stop i stopidx : Nat} {runIndex : Int}
    (positive : 0 < i) (fits : stop ≤ width) (ahead : i ≤ stopidx)
    {next : Nat → Nat → Int → Coding δ ρ Unit} {next' : Nat → Nat → Int → Coding δ' ρ' Unit}
    (keepLeft : ∀ i stopidx runIndex,
      Keeps (fun pass => parting.lostLeft pass.coder) (next i stopidx runIndex))
    (keepRight : ∀ i stopidx runIndex,
      Keeps (fun pass => parting.lostRight pass.coder) (next' i stopidx runIndex))
    (later : ∀ (i' stopidx' : Nat) (runIndex' : Int), i ≤ i' → i' ≤ stop → i' ≤ stopidx' →
      2 * (stop - i') + (if runIndex' = i' then 0 else 1) <
        2 * (stop - i) + (if runIndex = i then 0 else 1) →
      Coupled (onCoder parting) (related clock i') (next i' stopidx' runIndex')
        (next' i' stopidx' runIndex') fun _ => related clock stop)
    {last : Nat} (lastEq : (if stopidx < stop then stopidx + 1 else stop) = last)
    (found : Option Nat) :
    Coupled (onCoder parting) (ScanEnd (related clock) i last runIndex found)
      (resume left waitmask stop stopidx runIndex next found)
      (resume right waitmask stop stopidx runIndex next' found) fun _ => related clock stop := by
  cases found with
  | some j =>
      apply Coupled.fact
      rintro ⟨lower, upper, fresh⟩
      have inside : j < stop := by
        rw [← lastEq] at upper
        split at upper <;> omega
      apply (paired.doRun (by omega) inside fits).bind
      · intro reached
        split
        · exact Keeps.pure ()
        · exact keepLeft _ _ _
      · intro reached
        split
        · exact Keeps.pure ()
        · exact keepRight _ _ _
      intro reached
      apply Coupled.fact
      rintro ⟨onward, bounded⟩
      split
      · rename_i finished
        exact Coupled.pure () fun _source _target done => finished ▸ done
      · apply later _ _ _ (by omega) bounded (Nat.le_add_right _ _)
        by_cases still : reached.1 = j
        · rw [still, if_pos rfl]
          by_cases here : j = i
          · rw [here, if_neg (here ▸ fresh)]
            exact Nat.lt_succ_self _
          · omega
        · split <;> omega
  | none =>
      simp only [Quic.resume]
      split
      · rename_i early
        have final : last = stopidx + 1 := by rw [← lastEq, if_pos early]
        rw [final]
        apply (paired.updateAndWait waitmask (by omega)).bind
        · exact fun _ => keepLeft _ _ _
        · exact fun _ => keepRight _ _ _
        intro wait
        apply later _ _ _ (by omega) early (Nat.le_add_right _ _)
        split <;> omega
      · rename_i late
        have final : last = stop := by rw [← lastEq, if_neg late]
        rw [final]
        exact paired.setWaitcnt _

theorem Paired.segLoop {clock : Clock} (waitmask : Nat) {stop fuel i stopidx : Nat}
    (runIndex : Int) (positive : 0 < i) (inside : i ≤ stop) (fits : stop ≤ width)
    (ahead : i ≤ stopidx) (enough : 2 * (stop - i) + (if runIndex = i then 0 else 1) < fuel) :
    Coupled (onCoder parting) (related clock i) (segLoop left waitmask stop fuel i stopidx runIndex)
      (segLoop right waitmask stop fuel i stopidx runIndex) fun _ => related clock stop := by
  induction fuel generalizing i stopidx runIndex with
  | zero => exact absurd enough (Nat.not_lt_zero _)
  | succ fuel ih =>
      obtain ⟨last, lastEq⟩ : ∃ last, (if stopidx < stop then stopidx + 1 else stop) = last := ⟨_, rfl⟩
      have lastLe : last ≤ stop := by
        rw [← lastEq]
        split <;> omega
      have lastGe : i ≤ last := by
        rw [← lastEq]
        split <;> omega
      have scanned := paired.scan clock runIndex positive (show i + (last - i) ≤ width by omega)
      rw [show i + (last - i) = last by omega] at scanned
      unfold Quic.segLoop
      rw [lastEq]
      apply scanned.bind
      · exact paired.steadyLeft.resume _ _ _ _ (paired.steadyLeft.segLoop _ _ _)
      · exact paired.steadyRight.resume _ _ _ _ (paired.steadyRight.segLoop _ _ _)
      · apply paired.resume waitmask positive fits ahead (paired.steadyLeft.segLoop _ _ _)
          (paired.steadyRight.segLoop _ _ _) ?_ lastEq
        intro i' stopidx' runIndex' lower upper ahead' less
        exact ih runIndex' (by omega) upper ahead' (by omega)

theorem Paired.firstWait {clock : Clock} (waitmask : Nat) (some : 0 < width) :
    Coupled (onCoder parting) (related clock 1) (firstWait left.family waitmask)
      (firstWait right.family waitmask) fun _ => related clock 1 := by
  unfold Quic.firstWait
  apply paired.getState.bind
  · intro state
    split
    · exact paired.steadyLeft.onState _
    · exact Keeps.bind (paired.steadyLeft.onState _) fun _ =>
        Keeps.bind (paired.steadyLeft.onState _) fun _ => paired.steadyLeft.models _ _
  · intro state
    split
    · exact paired.steadyRight.onState _
    · exact Keeps.bind (paired.steadyRight.onState _) fun _ =>
        Keeps.bind (paired.steadyRight.onState _) fun _ => paired.steadyRight.models _ _
  intro state
  apply Coupled.fact
  intro _atClock
  split
  · exact paired.setWaitcnt _
  · apply (paired.nextWait waitmask).bind
    · exact fun _ => Keeps.bind (paired.steadyLeft.onState _) fun _ => paired.steadyLeft.models _ _
    · exact fun _ => Keeps.bind (paired.steadyRight.onState _) fun _ => paired.steadyRight.models _ _
    intro wait
    exact (paired.setWaitcnt wait).bind (fun _ => paired.steadyLeft.models _ _)
      (fun _ => paired.steadyRight.models _ _) fun _ => paired.models clock 0 some

omit paired in
/-- The bound given to the loop of a segment is enough. -/
private theorem segment_bound {i stop : Nat} (runIndex : Int) (positive : 0 < i) :
    2 * (stop - i) + (if runIndex = i then 0 else 1) < 2 * stop + 2 := by
  split <;> omega

theorem Paired.seg {clock : Clock} {start stop : Nat} (some : start < stop) (fits : stop ≤ width) :
    Coupled (onCoder parting) (related clock start) (seg left start stop) (seg right start stop)
      fun _ => related clock stop := by
  have ordered : ∀ asserts : Bool, ¬(asserts = true ∧ stop ≤ start) :=
    fun _asserts broken => absurd broken.2 (Nat.not_le.mpr some)
  unfold Quic.seg
  rw [if_neg (ordered _), if_neg (ordered _)]
  apply paired.getState.bind
  · intro state
    dsimp only
    split
    · exact Keeps.bind paired.steadyLeft.first fun _ => paired.steadyLeft.firstLoop _ _ _ _ _ _
    · exact paired.steadyLeft.segLoop _ _ _ _ _ _
  · intro state
    dsimp only
    split
    · exact Keeps.bind paired.steadyRight.first fun _ => paired.steadyRight.firstLoop _ _ _ _ _ _
    · exact paired.steadyRight.segLoop _ _ _ _ _ _
  intro state
  apply Coupled.fact
  intro _atClock
  dsimp only
  split
  · rename_i first
    subst first
    apply (paired.first clock (by omega)).bind
    · exact fun _ => paired.steadyLeft.firstLoop _ _ _ _ _ _
    · exact fun _ => paired.steadyRight.firstLoop _ _ _ _ _ _
    intro _
    apply (paired.firstWait _ (by omega)).bind
    · exact fun _ => Keeps.bind (Keeps.view _) fun _ => paired.steadyLeft.segLoop _ _ _ _ _ _
    · exact fun _ => Keeps.bind (Keeps.view _) fun _ => paired.steadyRight.segLoop _ _ _ _ _ _
    intro _
    apply paired.getState.bind
    · exact fun _ => paired.steadyLeft.segLoop _ _ _ _ _ _
    · exact fun _ => paired.steadyRight.segLoop _ _ _ _ _ _
    intro state
    apply Coupled.fact
    intro _atClock
    exact paired.segLoop _ _ (by omega) some fits (Nat.le_add_right _ _)
      (segment_bound _ (by omega))
  · exact paired.segLoop _ _ (by omega) (Nat.le_of_lt some) fits (Nat.le_add_right _ _)
      (segment_bound _ (by omega))

theorem Paired.segAny {clock : Clock} {pos length : Nat} (fits : pos + length ≤ width) :
    Coupled (onCoder parting) (related clock pos) (segAny left pos length) (segAny right pos length)
      fun _ => related clock (pos + length) := by
  unfold Quic.segAny
  split
  · exact paired.seg (by omega) fits
  · rename_i none
    have empty : length = 0 := by omega
    subst empty
    exact Coupled.pure () fun _source _target start => start

def Clock.next (clock : Clock) : Clock :=
  ({ CommonState.default with
      wmTrigger := clock.wmTrigger
      wmidx := clock.wmidx
      wmileft := clock.wmileft } : CommonState).nextWm.clock

omit paired in
theorem CommonState.nextWm_clock (state : CommonState) : state.nextWm.clock = state.clock.next := rfl

theorem Paired.nextWm {clock : Clock} {k : Nat} :
    Coupled (onCoder parting) (related clock k) (onState fun state => ((), state.nextWm))
      (onState fun state => ((), state.nextWm)) fun _ => related clock.next k := by
  apply paired.change _ fun _state => ⟨rfl, rfl, rfl⟩
  intro state current
  rw [CommonState.nextWm_clock, current]

theorem Paired.rowLoop {clock : Clock} {fuel pos remaining : Nat}
    (total : pos + remaining = width) (enough : DEFWMIMAX - clock.wmidx < fuel) :
    Coupled (onCoder parting) (related clock pos) (rowLoop left fuel pos remaining)
      (rowLoop right fuel pos remaining) fun reached source target =>
        reached.1 + reached.2 = width ∧ ∃ clock', related clock' reached.1 source target := by
  induction fuel generalizing clock pos remaining with
  | zero => exact absurd enough (Nat.not_lt_zero _)
  | succ fuel ih =>
      unfold Quic.rowLoop
      apply paired.getState.bind
      · intro state
        split
        · exact Keeps.bind (paired.steadyLeft.segAny _ _) fun _ =>
            Keeps.bind (paired.steadyLeft.onState _) fun _ => paired.steadyLeft.rowLoop _ _ _
        · exact Keeps.pure _
      · intro state
        split
        · exact Keeps.bind (paired.steadyRight.segAny _ _) fun _ =>
            Keeps.bind (paired.steadyRight.onState _) fun _ => paired.steadyRight.rowLoop _ _ _
        · exact Keeps.pure _
      intro state
      apply Coupled.fact
      intro atClock
      have index : state.wmidx = clock.wmidx := congrArg Clock.wmidx atClock
      split
      · rename_i more
        apply (paired.segAny (by omega)).bind
        · exact fun _ => Keeps.bind (paired.steadyLeft.onState _) fun _ =>
            paired.steadyLeft.rowLoop _ _ _
        · exact fun _ => Keeps.bind (paired.steadyRight.onState _) fun _ =>
            paired.steadyRight.rowLoop _ _ _
        intro _
        apply paired.nextWm.bind
        · exact fun _ => paired.steadyLeft.rowLoop _ _ _
        · exact fun _ => paired.steadyRight.rowLoop _ _ _
        intro _
        apply ih (by omega)
        change DEFWMIMAX - (clock.wmidx + 1) < fuel
        omega
      · exact Coupled.pure _ fun _source _target start => ⟨total, clock, start⟩

theorem Paired.row {clock : Clock} :
    Coupled (onCoder parting) (related clock 0) (row left width) (row right width)
      fun _ source target => ∃ clock', related clock' width source target := by
  unfold Quic.row
  apply (paired.rowLoop (Nat.zero_add width) (by unfold DEFWMIMAX; omega)).bind
  · intro reached
    split
    · exact Keeps.bind (paired.steadyLeft.seg _ _) fun _ => paired.steadyLeft.onState _
    · exact Keeps.pure _
  · intro reached
    split
    · exact Keeps.bind (paired.steadyRight.seg _ _) fun _ => paired.steadyRight.onState _
    · exact Keeps.pure _
  intro reached
  apply Coupled.fact
  intro total
  apply Coupled.exists
  intro clock
  split
  · rename_i more
    apply (paired.seg (Nat.lt_add_of_pos_right more) (Nat.le_of_eq total)).bind
    · exact fun _ => paired.steadyLeft.onState _
    · exact fun _ => paired.steadyRight.onState _
    intro _
    rw [total]
    apply onState_coupled
    intro source target start
    refine ⟨(paired.common start).1, _, paired.retime _ start ?_⟩
    dsimp only
    split <;> exact ⟨rfl, rfl, rfl⟩
  · rename_i none
    have whole : reached.1 = width := by omega
    rw [whole]
    exact Coupled.pure () fun _source _target start => ⟨clock, start⟩

theorem Paired.phase {rows : List ρ} {rows' : List ρ'} (blanks : List.Forall₂ blank rows rows')
    (clock : Clock) :
    Coupled (onCoder parting) (idle clock) (phase left width rows) (phase right width rows')
      fun _ source target => ∃ clock', idle clock' source target := by
  induction blanks generalizing clock with
  | nil => exact Coupled.pure () fun _source _target start => ⟨clock, start⟩
  | @cons fresh fresh' rest rest' fits _blanks ih =>
      have opened : Coupled (onCoder parting) (idle clock) (openRow fresh) (openRow fresh')
          fun _ => related clock 0 :=
        fun source target start => Parting.ends_ok rfl rfl (paired.opened start fits)
      unfold Quic.phase
      apply opened.bind
      · exact fun _ => Keeps.bind (paired.steadyLeft.row _) fun _ =>
          Keeps.bind closeRow_keeps fun _ => paired.steadyLeft.phase _ _
      · exact fun _ => Keeps.bind (paired.steadyRight.row _) fun _ =>
          Keeps.bind closeRow_keeps fun _ => paired.steadyRight.phase _ _
      intro _
      apply paired.row.bind
      · exact fun _ => Keeps.bind closeRow_keeps fun _ => paired.steadyLeft.phase _ _
      · exact fun _ => Keeps.bind closeRow_keeps fun _ => paired.steadyRight.phase _ _
      intro _
      apply Coupled.exists
      intro clock'
      exact (paired.closed clock').bind (fun _ => paired.steadyLeft.phase _ _)
        (fun _ => paired.steadyRight.phase _ _) fun _ => ih clock'

end Paired

end Coupling

/-! ### One coder and an invariant -/

section Invariant

variable {δ ρ : Type}

/-- A coder that keeps an invariant of its pass, or stops in `stopped`. -/
structure Guarded (coder : Coder δ ρ) (width : Nat) (stopped : QuicFault → δ → Prop)
    (inv : Clock → Nat → Pass δ ρ → Prop) (idle : Clock → Pass δ ρ → Prop) (blank : ρ → Prop) :
    Prop where
  clock : ∀ {clock k pass}, inv clock k pass → pass.state.clock = clock
  retime : ∀ {clock k pass} (state : CommonState), inv clock k pass →
    pass.state.SameMelc state → inv state.clock k (pass.withState state)
  escapes : ∀ {clock j pass} (runIndex : Int), 0 < j → j < width → inv clock j pass →
    ∃ answer, coder.escapes pass.prev pass.cur j runIndex = .ok answer ∧
      (answer = true → runIndex ≠ j)
  first : ∀ clock, 0 < width → Triple (inv clock 0) coder.first (fun _ => inv clock 1)
    fun fault pass => stopped fault pass.coder
  pixel : ∀ clock j, 0 < j → j < width → Triple (inv clock j) (coder.pixel j)
    (fun _ => inv clock (j + 1)) fun fault pass => stopped fault pass.coder
  run : ∀ clock j stop, 0 < j → j < stop → stop ≤ width → Triple (inv clock j) (coder.run j stop)
    (fun runEnd pass => (j ≤ runEnd ∧ runEnd ≤ stop) ∧ inv clock runEnd pass)
    fun fault pass => stopped fault pass.coder
  models : ∀ clock idx, idx < width → Triple (inv clock (idx + 1)) (updateModelsAt coder.family idx)
    (fun _ => inv clock (idx + 1)) fun fault pass => stopped fault pass.coder
  opened : ∀ {clock pass fresh}, idle clock pass → blank fresh →
    inv clock 0 { pass with cur := fresh }
  closed : ∀ clock, Triple (inv clock width) closeRow (fun _ => idle clock)
    fun fault pass => stopped fault pass.coder

variable {coder : Coder δ ρ} {width : Nat} {stopped : QuicFault → δ → Prop}
  {inv : Clock → Nat → Pass δ ρ → Prop} {idle : Clock → Pass δ ρ → Prop} {blank : ρ → Prop}

theorem steady_never (coder : Coder δ ρ) : coder.Steady fun _ => False where
  retime := fun _state never => never.elim
  remodel := fun _chans never => never.elim
  first := fun _pass never => never.elim
  pixel := fun _j _pass never => never.elim
  run := fun _j _stop _pass never => never.elim

theorem Guarded.paired (guarded : Guarded coder width stopped inv idle blank) :
    Paired (Parting.diagonal stopped) coder coder width (fun clock k => Same (inv clock k))
      (fun clock => Same (idle clock)) fun fresh fresh' => fresh = fresh' ∧ blank fresh where
  steadyLeft := steady_never coder
  steadyRight := steady_never coder
  common := by
    rintro clock k source target ⟨rfl, holds⟩
    exact ⟨rfl, guarded.clock holds⟩
  retime := by
    rintro clock k source target state ⟨rfl, holds⟩ melc
    exact ⟨rfl, guarded.retime state holds melc⟩
  escapes := by
    rintro clock j source target runIndex positive inside ⟨rfl, holds⟩
    obtain ⟨answer, answered, fresh⟩ := guarded.escapes runIndex positive inside holds
    exact ⟨answer, answered, answered, fresh⟩
  first := fun clock some => (guarded.first clock some).coupled
  pixel := fun clock j positive inside => (guarded.pixel clock j positive inside).coupled
  run := fun clock j stop positive inside fits => by
    apply (guarded.run clock j stop positive inside fits).coupled.strengthen
    rintro runEnd source target ⟨rfl, bounds, holds⟩
    exact ⟨bounds, rfl, holds⟩
  models := fun clock idx inside => (guarded.models clock idx inside).coupled
  opened := by
    rintro clock source target fresh fresh' ⟨rfl, holds⟩ ⟨rfl, fits⟩
    exact ⟨rfl, guarded.opened holds fits⟩
  closed := fun clock => (guarded.closed clock).coupled

/-- The invariant of a guarded coder holds after a phase, which never runs out of a
loop bound unless `stopped` allows it. -/
theorem Guarded.phase (guarded : Guarded coder width stopped inv idle blank) {rows : List ρ}
    (blanks : ∀ fresh ∈ rows, blank fresh) (clock : Clock) :
    Triple (idle clock) (phase coder width rows) (fun _ pass => ∃ clock', idle clock' pass)
      fun fault pass => stopped fault pass.coder := by
  have paired : List.Forall₂ (fun fresh fresh' => fresh = fresh' ∧ blank fresh) rows rows :=
    List.forall₂_same.mpr fun fresh member => ⟨rfl, blanks fresh member⟩
  apply Coupled.triple
  apply (guarded.paired.phase paired clock).strengthen
  rintro _ source target ⟨clock', rfl, holds⟩
  exact ⟨rfl, clock', holds⟩

end Invariant

end Capsaicin.Quic
