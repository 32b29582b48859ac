/-
How the row drivers cut their rows. The wait-mask schedule is a function of the number
of pixels behind it, so the five drivers make the same segment calls.
-/

import Capsaicin.Quic.RoundTrip
import Capsaicin.Quic.Trace

namespace Capsaicin.Quic

open Program (Keeps Triple step view)

/-! ### The schedule -/

/-- What is left of the current wait mask behind `done` pixels. -/
def leftOf (done : Nat) : Nat := DEFWMINEXT - done % DEFWMINEXT

/-- The schedule behind `done` pixels: a new mask every 2048 of them, up to the last. -/
def clockAfter (done : Nat) : Clock :=
  { wmTrigger := BESTTRIGTAB.getD (min DEFWMIMAX (done / DEFWMINEXT)) 0
    wmidx := min DEFWMIMAX (done / DEFWMINEXT)
    wmileft := if done / DEFWMINEXT < DEFWMIMAX then leftOf done else DEFWMINEXT }

theorem leftOf_pos (done : Nat) : 0 < leftOf done := by
  unfold leftOf DEFWMINEXT
  omega

theorem clockAfter_next {done : Nat} (counting : done / DEFWMINEXT < DEFWMIMAX) :
    (clockAfter done).next = clockAfter (done + leftOf done) := by
  have index : (done + leftOf done) / DEFWMINEXT = done / DEFWMINEXT + 1 := by
    unfold leftOf DEFWMINEXT
    omega
  have fresh : leftOf (done + leftOf done) = DEFWMINEXT := by
    unfold leftOf DEFWMINEXT
    omega
  have here : min DEFWMIMAX (done / DEFWMINEXT) = done / DEFWMINEXT := by omega
  have there : min DEFWMIMAX (done / DEFWMINEXT + 1) = done / DEFWMINEXT + 1 := by omega
  have low : ¬done / DEFWMINEXT + 1 > 10 := by
    unfold DEFWMIMAX at counting
    omega
  unfold clockAfter
  rw [index, fresh, here, there, ite_self]
  simp only [Clock.next, CommonState.nextWm, CommonState.setWmTrigger, CommonState.clock, if_neg low]

theorem clockAfter_within {done count : Nat} (short : count < leftOf done) :
    clockAfter (done + count) = { clockAfter done with
      wmileft := if done / DEFWMINEXT < DEFWMIMAX then leftOf done - count else DEFWMINEXT } := by
  have index : (done + count) / DEFWMINEXT = done / DEFWMINEXT := by
    unfold leftOf DEFWMINEXT at *
    omega
  have rest : leftOf (done + count) = leftOf done - count := by
    unfold leftOf DEFWMINEXT at *
    omega
  unfold clockAfter
  rw [index, rest]

theorem clockAfter_late {done count : Nat} (late : DEFWMIMAX ≤ done / DEFWMINEXT) :
    clockAfter (done + count) = clockAfter done := by
  have later : DEFWMIMAX ≤ (done + count) / DEFWMINEXT :=
    Nat.le_trans late (Nat.div_le_div_right (Nat.le_add_right done count))
  unfold clockAfter
  rw [Nat.min_eq_left late, Nat.min_eq_left later, if_neg (Nat.not_lt.mpr late),
    if_neg (Nat.not_lt.mpr later)]

/-! ### The cuts of a row -/

/-- The segments of what remains of a row at `pos`, behind `done` pixels in all. -/
def segments (done pos remaining : Nat) : List (Nat × Nat) :=
  if done / DEFWMINEXT < DEFWMIMAX ∧ leftOf done ≤ remaining then
    (pos, pos + leftOf done) ::
      segments (done + leftOf done) (pos + leftOf done) (remaining - leftOf done)
  else if remaining > 0 then [(pos, pos + remaining)]
  else []
termination_by remaining
decreasing_by
  have some := leftOf_pos done
  omega

/-- The cuts of a row of `width` pixels behind `done` others. -/
def rowCuts (done width : Nat) : List (Nat × Nat) := segments done 0 width

/-- Non-empty intervals, each beginning where the one before ends, from `start` to `stop`. -/
def Tiles (stop : Nat) : Nat → List (Nat × Nat) → Prop
  | start, [] => start = stop
  | start, cut :: rest => cut.1 = start ∧ start < cut.2 ∧ Tiles stop cut.2 rest

theorem segments_tile (done pos remaining : Nat) :
    Tiles (pos + remaining) pos (segments done pos remaining) := by
  induction done, pos, remaining using segments.induct with
  | case1 done pos remaining more ih =>
      have some := leftOf_pos done
      have stop : pos + leftOf done + (remaining - leftOf done) = pos + remaining := by omega
      rw [stop] at ih
      rw [segments, if_pos more]
      exact ⟨rfl, by dsimp only; omega, ih⟩
  | case2 done pos remaining stopped some =>
      rw [segments, if_neg stopped, if_pos some]
      exact ⟨rfl, by dsimp only; omega, rfl⟩
  | case3 done pos remaining stopped none =>
      have empty : remaining = 0 := by omega
      rw [segments, if_neg stopped, if_neg none, empty]
      rfl

/-! ### Running the cuts -/

section Cuts

variable {δ ρ : Type}

def CommonState.spent (state : CommonState) (count : Nat) : CommonState :=
  if state.wmileft = count then state.nextWm else { state with wmileft := state.wmileft - count }

/-- The countdown behind a segment; it stops where the subtraction would wrap. -/
def spend (count : Nat) : Coding δ ρ Unit :=
  step fun pass =>
    if DEFWMIMAX ≤ pass.state.wmidx then .ok ((), pass)
    else if pass.state.wmileft < count then .error (.panic .overflow)
    else .ok ((), pass.withState (pass.state.spent count))

def runCuts (seg : Nat → Nat → Coding δ ρ Unit) : List (Nat × Nat) → Coding δ ρ Unit
  | [] => pure ()
  | cut :: rest => do
      seg cut.1 cut.2
      spend (cut.2 - cut.1)
      runCuts seg rest

/-- A program that leaves the schedule alone, whatever it stands at. -/
def KeepsClock {α : Type} (program : Coding δ ρ α) : Prop :=
  ∀ clock : Clock, Keeps (fun pass => pass.state.clock = clock) program

/-- What the row driver calls of a coder leaves the schedule to the driver. -/
structure Coder.Timeless (coder : Coder δ ρ) : Prop where
  first : KeepsClock coder.first
  pixel : ∀ j, KeepsClock (coder.pixel j)
  run : ∀ j stop, KeepsClock (coder.run j stop)

theorem onState_keepsClock {α : Type} {change : CommonState → α × CommonState}
    (kept : ∀ state : CommonState, (change state).2.clock = state.clock) :
    KeepsClock (onState change : Coding δ ρ α) := by
  intro clock
  apply Keeps.step
  intro pass value last start ran
  cases ran
  exact (kept pass.state).trans start

theorem updateModelsAt_keepsClock (family : Family) (idx : Nat) :
    KeepsClock (updateModelsAt family idx : Coding δ ρ Unit) := by
  intro clock
  apply Keeps.step
  intro pass value last start ran
  obtain ⟨chans, _updated, returned⟩ := Program.bind_eq_ok.mp ran
  cases returned
  exact start

theorem setWaitcnt_keepsClock (waitcnt : Nat) :
    KeepsClock (setWaitcnt waitcnt : Coding δ ρ Unit) :=
  onState_keepsClock fun _state => rfl

theorem nextWait_keepsClock (waitmask : Nat) : KeepsClock (nextWait waitmask : Coding δ ρ Nat) :=
  onState_keepsClock fun _state => rfl

theorem firstWait_keepsClock (family : Family) (waitmask : Nat) :
    KeepsClock (firstWait family waitmask : Coding δ ρ Unit) := by
  intro clock
  apply Keeps.bind (Keeps.view _)
  intro state
  split
  · exact setWaitcnt_keepsClock _ clock
  · apply Keeps.bind (nextWait_keepsClock waitmask clock)
    intro wait
    exact Keeps.bind (setWaitcnt_keepsClock wait clock) fun _ =>
      updateModelsAt_keepsClock family 0 clock

variable {coder : Coder δ ρ} (timeless : coder.Timeless)

include timeless

theorem Coder.Timeless.scan (runIndex : Int) (count j : Nat) :
    KeepsClock (scan coder runIndex count j) := by
  intro clock
  induction count generalizing j with
  | zero => exact Keeps.pure none
  | succ count ih =>
      apply Keeps.bind (Keeps.view _)
      intro escape
      cases escape with
      | true => exact Keeps.pure (some j)
      | false => exact Keeps.bind (timeless.pixel j clock) fun _ => ih (j + 1)

theorem Coder.Timeless.resume (waitmask stop stopidx : Nat) (runIndex : Int)
    {next : Nat → Nat → Int → Coding δ ρ Unit}
    (later : ∀ i stopidx runIndex, KeepsClock (next i stopidx runIndex)) (found : Option Nat) :
    KeepsClock (resume coder waitmask stop stopidx runIndex next found) := by
  intro clock
  cases found with
  | some j =>
      have ran : Keeps (fun pass => pass.state.clock = clock) (doRun coder stop stopidx j) :=
        Keeps.bind (setWaitcnt_keepsClock _ clock) fun _ =>
          Keeps.bind (timeless.run j stop clock) fun _ =>
            Keeps.bind (Keeps.view _) fun _ => Keeps.pure _
      apply Keeps.bind ran
      intro reached
      split
      · exact Keeps.pure ()
      · exact later _ _ _ clock
  | none =>
      rw [Quic.resume]
      split
      · apply Keeps.bind
        · exact Keeps.bind (updateModelsAt_keepsClock _ _ clock) fun _ =>
            nextWait_keepsClock _ clock
        · exact fun _wait => later _ _ _ clock
      · exact setWaitcnt_keepsClock _ clock

theorem Coder.Timeless.segLoop (waitmask stop fuel i stopidx : Nat) (runIndex : Int) :
    KeepsClock (segLoop coder waitmask stop fuel i stopidx runIndex) := by
  induction fuel generalizing i stopidx runIndex with
  | zero => exact fun _clock => fail_keeps .fuel
  | succ fuel ih =>
      intro clock
      exact Keeps.bind (timeless.scan runIndex _ i clock) fun found =>
        timeless.resume waitmask stop stopidx runIndex ih found clock

theorem Coder.Timeless.seg (start stop : Nat) : KeepsClock (seg coder start stop) := by
  intro clock
  unfold Quic.seg
  split
  · exact fail_keeps _
  · apply Keeps.bind (Keeps.view _)
    intro state
    dsimp only
    split
    · apply Keeps.bind (timeless.first clock)
      intro _
      apply Keeps.bind (firstWait_keepsClock _ _ clock)
      intro _
      exact Keeps.bind (Keeps.view _) fun _ => timeless.segLoop _ _ _ _ _ _ clock
    · exact timeless.segLoop _ _ _ _ _ _ clock

omit timeless in
theorem wmileft_counting {done : Nat} {state : CommonState} (start : state.clock = clockAfter done)
    (counting : done / DEFWMINEXT < DEFWMIMAX) : state.wmileft = leftOf done := by
  have entry := congrArg Clock.wmileft start
  rw [clockAfter, if_pos counting] at entry
  exact entry

omit timeless in
theorem spend_whole {done : Nat} {pass : Pass δ ρ} (start : pass.state.clock = clockAfter done)
    (counting : done / DEFWMINEXT < DEFWMIMAX) :
    spend (leftOf done) pass = .ok () (pass.withState pass.state.nextWm) := by
  have index : pass.state.wmidx = min DEFWMIMAX (done / DEFWMINEXT) := congrArg Clock.wmidx start
  have left := wmileft_counting start counting
  apply Program.run_step_ok
  rw [if_neg (by omega), if_neg (by omega), CommonState.spent, if_pos left]

def CommonState.rested (state : CommonState) (count : Nat) : CommonState :=
  if DEFWMIMAX > state.wmidx then { state with wmileft := wrappingSub state.wmileft count }
  else state

omit timeless in
/-- The end of a row inside a mask: the wrapping subtraction of the source does not wrap. -/
theorem spend_rest {done count : Nat} {pass : Pass δ ρ}
    (start : pass.state.clock = clockAfter done)
    (inside : done / DEFWMINEXT < DEFWMIMAX → count < leftOf done) :
    spend count pass = .ok () (pass.withState (pass.state.rested count)) ∧
      (pass.state.rested count).clock = clockAfter (done + count) := by
  have index : pass.state.wmidx = min DEFWMIMAX (done / DEFWMINEXT) := congrArg Clock.wmidx start
  by_cases counting : done / DEFWMINEXT < DEFWMIMAX
  · have short := inside counting
    have left := wmileft_counting start counting
    have low : leftOf done ≤ DEFWMINEXT := Nat.sub_le _ _
    have plain : wrappingSub (leftOf done) count = leftOf done - count := by
      have sum : leftOf done + 2 ^ 32 - count = leftOf done - count + 2 ^ 32 := by omega
      unfold wrappingSub
      rw [sum, Nat.add_mod_right, Nat.mod_eq_of_lt]
      unfold DEFWMINEXT at low
      omega
    have rested : pass.state.rested count =
        { pass.state with wmileft := leftOf done - count } := by
      rw [CommonState.rested, if_pos (by omega), left, plain]
    constructor
    · apply Program.run_step_ok
      rw [if_neg (by omega), if_neg (by omega), CommonState.spent, if_neg (by omega), rested, left]
    · rw [rested, clockAfter_within short, if_pos counting, ← start]
      rfl
  · have late : DEFWMIMAX ≤ done / DEFWMINEXT := Nat.le_of_not_lt counting
    have rested : pass.state.rested count = pass.state := by
      rw [CommonState.rested, if_neg (by omega)]
    constructor
    · apply Program.run_step_ok
      rw [if_pos (by omega), rested]
      rfl
    · rw [rested, clockAfter_late late]
      exact start

def rowTail (coder : Coder δ ρ) (reached : Nat × Nat) : Coding δ ρ Unit :=
  if reached.2 > 0 then do
    seg coder reached.1 (reached.1 + reached.2)
    onState fun state => ((), state.rested reached.2)
  else pure ()

omit timeless in
theorem row_eq (coder : Coder δ ρ) (width : Nat) :
    row coder width = rowLoop coder (DEFWMIMAX + 1) 0 width >>= rowTail coder := rfl

omit timeless in
theorem rowLoop_stop {fuel done pos remaining : Nat} {pass : Pass δ ρ}
    (start : pass.state.clock = clockAfter done)
    (stopped : ¬(done / DEFWMINEXT < DEFWMIMAX ∧ leftOf done ≤ remaining)) :
    rowLoop coder (fuel + 1) pos remaining pass = .ok (pos, remaining) pass := by
  have index : pass.state.wmidx = min DEFWMIMAX (done / DEFWMINEXT) := congrArg Clock.wmidx start
  have left : pass.state.wmileft =
      if done / DEFWMINEXT < DEFWMIMAX then leftOf done else DEFWMINEXT :=
    congrArg Clock.wmileft start
  have looked : (getState : Coding δ ρ CommonState) pass = .ok pass.state pass := rfl
  have ends : ¬(DEFWMIMAX > pass.state.wmidx ∧ pass.state.wmileft ≤ remaining) := by
    rintro ⟨more, fits⟩
    have counting : done / DEFWMINEXT < DEFWMIMAX := by omega
    rw [left, if_pos counting] at fits
    exact stopped ⟨counting, fits⟩
  rw [rowLoop, Program.run_bind_ok looked, if_neg ends]
  rfl

theorem Coder.Timeless.rowLoop_cuts {fuel done pos remaining : Nat} {pass : Pass δ ρ}
    (start : pass.state.clock = clockAfter done)
    (enough : DEFWMIMAX - done / DEFWMINEXT < fuel) :
    (rowLoop coder fuel pos remaining >>= rowTail coder) pass =
      runCuts (Quic.seg coder) (segments done pos remaining) pass := by
  induction done, pos, remaining using segments.induct generalizing fuel pass with
  | case1 done pos remaining more ih =>
      obtain ⟨fuel, rfl⟩ : ∃ less, fuel = less + 1 := ⟨fuel - 1, by omega⟩
      have some := leftOf_pos done
      have index : pass.state.wmidx = min DEFWMIMAX (done / DEFWMINEXT) :=
        congrArg Clock.wmidx start
      have left : pass.state.wmileft = leftOf done := by
        have entry := congrArg Clock.wmileft start
        rw [clockAfter, if_pos more.1] at entry
        exact entry
      have continues : DEFWMIMAX > pass.state.wmidx ∧ pass.state.wmileft ≤ remaining := by
        rw [index, left]
        omega
      have looked : (getState : Coding δ ρ CommonState) pass = .ok pass.state pass := rfl
      have width : pos + leftOf done - pos = leftOf done := by omega
      rw [segments, if_pos more, runCuts]
      dsimp only
      rw [width]
      cases ran : Quic.seg coder pos (pos + leftOf done) pass with
      | error fault last =>
          have stopped : rowLoop coder (fuel + 1) pos remaining pass = .error fault last := by
            rw [rowLoop, Program.run_bind_ok looked, if_pos continues, left, segAny, if_pos some]
            exact Program.run_bind_error ran
          rw [Program.run_bind_error stopped, Program.run_bind_error ran]
      | ok value last =>
          have kept := timeless.seg pos (pos + leftOf done) (clockAfter done) pass start
          rw [ran] at kept
          have moved : (last.withState last.state.nextWm).state.clock =
              clockAfter (done + leftOf done) := by
            rw [← clockAfter_next more.1, ← kept]
            rfl
          have walked : rowLoop coder (fuel + 1) pos remaining pass =
              rowLoop coder fuel (pos + leftOf done) (remaining - leftOf done)
                (last.withState last.state.nextWm) := by
            rw [rowLoop, Program.run_bind_ok looked, if_pos continues, left, segAny, if_pos some]
            exact (Program.run_bind_ok ran).trans (Program.run_bind_ok rfl)
          have later : (done + leftOf done) / DEFWMINEXT = done / DEFWMINEXT + 1 := by
            unfold leftOf DEFWMINEXT
            omega
          rw [Program.run_bind_congr walked, Program.run_bind_ok ran,
            Program.run_bind_ok (spend_whole kept more.1)]
          exact ih moved (by omega)
  | case2 done pos remaining stopped some =>
      obtain ⟨fuel, rfl⟩ : ∃ less, fuel = less + 1 := ⟨fuel - 1, by omega⟩
      have width : pos + remaining - pos = remaining := by omega
      rw [Program.run_bind_ok (rowLoop_stop start stopped), segments, if_neg stopped, if_pos some,
        rowTail, if_pos some, runCuts]
      dsimp only
      rw [width]
      cases ran : Quic.seg coder pos (pos + remaining) pass with
      | error fault last => rw [Program.run_bind_error ran, Program.run_bind_error ran]
      | ok value last =>
          have kept := timeless.seg pos (pos + remaining) (clockAfter done) pass start
          rw [ran] at kept
          have inside : done / DEFWMINEXT < DEFWMIMAX → remaining < leftOf done :=
            fun counting => Nat.lt_of_not_le fun fits => stopped ⟨counting, fits⟩
          rw [Program.run_bind_ok ran, Program.run_bind_ok ran,
            Program.run_bind_ok (spend_rest kept inside).1]
          rfl
  | case3 done pos remaining stopped none =>
      obtain ⟨fuel, rfl⟩ : ∃ less, fuel = less + 1 := ⟨fuel - 1, by omega⟩
      rw [Program.run_bind_ok (rowLoop_stop start stopped), segments, if_neg stopped,
        if_neg none, rowTail, if_neg none]
      rfl

/-- A row makes exactly the segment calls of its cuts. -/
theorem Coder.Timeless.row_cuts {done : Nat} (width : Nat) {pass : Pass δ ρ}
    (start : pass.state.clock = clockAfter done) :
    row coder width pass = runCuts (Quic.seg coder) (rowCuts done width) pass := by
  rw [row_eq]
  exact timeless.rowLoop_cuts start (Nat.lt_succ_of_le (Nat.sub_le _ _))

theorem Coder.Timeless.runCuts_clock (done pos remaining : Nat) :
    Triple (fun pass => pass.state.clock = clockAfter done)
      (runCuts (Quic.seg coder) (segments done pos remaining))
      (fun _ pass => pass.state.clock = clockAfter (done + remaining)) fun _ _ => True := by
  have segment : ∀ start stop done, Triple (fun pass => pass.state.clock = clockAfter done)
      (Quic.seg coder start stop) (fun _ pass => pass.state.clock = clockAfter done)
      fun _ _ => True :=
    fun start stop done =>
      (timeless.seg start stop (clockAfter done)).relax fun _fault _pass _kept => True.intro
  induction done, pos, remaining using segments.induct with
  | case1 done pos remaining more ih =>
      have width : pos + leftOf done - pos = leftOf done := by omega
      have total : done + leftOf done + (remaining - leftOf done) = done + remaining := by omega
      have spent : Triple (fun pass : Pass δ ρ => pass.state.clock = clockAfter done)
          (spend (leftOf done)) (fun _ pass => pass.state.clock = clockAfter (done + leftOf done))
          fun _ _ => True := by
        intro pass start
        rw [spend_whole start more.1]
        change pass.state.clock.next = clockAfter (done + leftOf done)
        rw [start, clockAfter_next more.1]
      rw [segments, if_pos more, runCuts]
      dsimp only
      rw [width]
      rw [total] at ih
      exact (segment _ _ done).bind fun _ => spent.bind fun _ => ih
  | case2 done pos remaining stopped some =>
      have width : pos + remaining - pos = remaining := by omega
      have inside : done / DEFWMINEXT < DEFWMIMAX → remaining < leftOf done :=
        fun counting => Nat.lt_of_not_le fun fits => stopped ⟨counting, fits⟩
      have spent : Triple (fun pass : Pass δ ρ => pass.state.clock = clockAfter done)
          (spend remaining) (fun _ pass => pass.state.clock = clockAfter (done + remaining))
          fun _ _ => True := by
        intro pass start
        rw [(spend_rest start inside).1]
        exact (spend_rest start inside).2
      rw [segments, if_neg stopped, if_pos some, runCuts]
      dsimp only
      rw [width]
      exact (segment _ _ done).bind fun _ => spent.bind fun _ =>
        Triple.pure () fun _pass reached => reached
  | case3 done pos remaining stopped none =>
      have empty : remaining = 0 := by omega
      rw [segments, if_neg stopped, if_neg none, empty]
      exact Triple.pure () fun _pass start => start

end Cuts

/-! ### The five drivers -/

theorem decodeStateRun_clock {reader reader' : BitReader} {state state' : CommonState}
    {runlen : Nat} (decoded : decodeStateRun reader state = .ok (runlen, reader', state')) :
    state'.clock = state.clock := by
  obtain ⟨ones, shown, within⟩ := reader.exists_showsOnes
  rcases decodeStateRun_eq state shown within with ⟨_room, read⟩ | ⟨_past, reason, stopped⟩
  · rw [read] at decoded
    cases decoded
    exact state.risen_fall_clock ones
  · rw [stopped] at decoded
    cases decoded

theorem framed_clock {ρ : Type} (layout : Layout ρ) (clock : Clock) :
    Framed layout fun pass => pass.state.clock = clock where
  noted := fun _bpc _l _window start => start
  moved := fun _len _chans start => start
  written := fun start _written => start
  cleared := fun start _cleared => start

theorem planeDecoder_timeless {ρ : Type} (layout : Layout ρ) (bpc : Nat) (assertsOrder : Bool)
    (lanes : List (Nat × Nat)) : (planeDecoder layout bpc assertsOrder lanes).Timeless where
  first := fun clock => (framed_clock layout clock).decodePixel _ lanes 0
  pixel := fun j clock => (framed_clock layout clock).decodePixel _ lanes j
  run := fun j _stop _clock => Keeps.pure j

theorem rgb32Decoder_timeless : rgb32Decoder.Timeless where
  first := fun clock => (framed_clock bgra clock).decodePixel _ rgbLanes 0
  pixel := by
    intro j clock
    have noted : Keeps (fun pass : Pass Tracer (List UInt8) => pass.state.clock = clock)
        (note fun pass => .pixel pass.above.length j) := by
      apply Keeps.step
      intro pass value last start ran
      cases ran
      exact start
    apply Keeps.bind noted
    intro _
    split
    · exact fail_keeps _
    · exact (framed_clock bgra clock).decodePixel _ rgbLanes j
  run := by
    intro j stop clock
    have noted : Keeps (fun pass : Pass Tracer (List UInt8) => pass.state.clock = clock)
        (note (runEvent · j stop)) := by
      apply Keeps.step
      intro pass value last start ran
      cases ran
      exact start
    apply Keeps.bind noted
    intro _
    apply Keeps.step
    intro pass value last start ran
    obtain ⟨decoded, read, ran⟩ := Program.bind_eq_ok.mp ran
    obtain ⟨reached, _ended, ran⟩ := Program.bind_eq_ok.mp ran
    obtain ⟨cur, _copied, ran⟩ := Program.bind_eq_ok.mp ran
    cases ran
    exact (decodeStateRun_clock read).trans start

theorem rgb32Encoder_timeless : rgb32Encoder.Timeless where
  first := fun _clock => encodeLanes_keeps (fun _writer _chans _more start => start) 0 rgbLanes
  pixel := fun j _clock => encodeLanes_keeps (fun _writer _chans _more start => start) j rgbLanes
  run := fun j stop _clock =>
    encodeRun_keeps (fun _writer _state _more same start => same.trans start) j stop

/-- `k` rows have gone through a row function from the first schedule on. What stands
between two rows leaves the schedule alone. -/
inductive AfterRows {δ ρ : Type} (row : Nat → Coding δ ρ Unit) (width : Nat) :
    Nat → Pass δ ρ → Prop where
  | start {pass : Pass δ ρ} (first : pass.state.clock = CommonState.default.clock) :
      AfterRows row width 0 pass
  | next {k : Nat} {pass pass' last : Pass δ ρ} (before : AfterRows row width k pass)
      (between : pass'.state.clock = pass.state.clock) (ran : row width pass' = .ok () last) :
      AfterRows row width (k + 1) last

/-- A row function over its segment function, behind `k` rows of `width` pixels: the schedule
is that of `k * width` pixels, and the next row makes exactly the calls of its cuts, from any pass
that stands at this schedule. -/
structure CutsAlike {δ ρ : Type} (seg : Nat → Nat → Coding δ ρ Unit)
    (row : Nat → Coding δ ρ Unit) (width k : Nat) (pass : Pass δ ρ) : Prop where
  wmidx : pass.state.wmidx = min 6 (k * width / 2048)
  wmTrigger : pass.state.wmTrigger = BESTTRIGTAB.getD pass.state.wmidx 0
  wmileft : pass.state.wmidx < 6 → pass.state.wmileft = 2048 - k * width % 2048
  calls : ∀ pass' : Pass δ ρ, pass'.state.clock = pass.state.clock →
    row width pass' = runCuts seg (rowCuts (k * width) width) pass'

theorem Coder.Timeless.afterRows {δ ρ : Type} {coder : Coder δ ρ} (timeless : coder.Timeless)
    {width k : Nat} {pass : Pass δ ρ} (rows : AfterRows (row coder) width k pass) :
    pass.state.clock = clockAfter (k * width) := by
  induction rows with
  | start first =>
      rw [Nat.zero_mul]
      exact first
  | @next k pass pass' last before between ran ih =>
      have start : pass'.state.clock = clockAfter (k * width) := between.trans ih
      have reached := timeless.runCuts_clock (k * width) 0 width pass' start
      have called := timeless.row_cuts width start
      rw [ran] at called
      rw [rowCuts] at called
      rw [← called] at reached
      rw [Nat.succ_mul]
      exact reached

theorem Coder.Timeless.cutsAlike {δ ρ : Type} {coder : Coder δ ρ} (timeless : coder.Timeless)
    {width k : Nat} {pass : Pass δ ρ} (rows : AfterRows (row coder) width k pass) :
    CutsAlike (Quic.seg coder) (row coder) width k pass := by
  have start := timeless.afterRows rows
  have index : pass.state.wmidx = min 6 (k * width / 2048) := congrArg Clock.wmidx start
  constructor
  · exact index
  · rw [index]
    exact congrArg Clock.wmTrigger start
  · intro counting
    have left := congrArg Clock.wmileft start
    have more : k * width / 2048 < 6 := by omega
    exact left.trans (if_pos more)
  · intro pass' between
    exact timeless.row_cuts width (between.trans start)

theorem closeRow_keepsClock {δ ρ : Type} : KeepsClock (closeRow : Coding δ ρ Unit) := by
  intro clock
  apply Keeps.step
  intro pass value last start ran
  obtain ⟨chans, _latched, returned⟩ := Program.bind_eq_ok.mp ran
  cases returned
  exact start

theorem AfterRows.phase {δ ρ : Type} {coder : Coder δ ρ} {width k : Nat} {rows : List ρ}
    {before pass last : Pass δ ρ} (reached : AfterRows (row coder) width k before)
    (between : pass.state.clock = before.state.clock)
    (ran : Quic.phase coder width rows pass = .ok () last) :
    ∃ behind, AfterRows (row coder) width (k + rows.length) behind ∧
      last.state.clock = behind.state.clock := by
  induction rows generalizing k before pass with
  | nil =>
      cases ran
      exact ⟨before, reached, between⟩
  | cons fresh rest ih =>
      have opened : openRow fresh pass = .ok () { pass with cur := fresh } := rfl
      rw [Quic.phase, Program.run_bind_ok opened] at ran
      cases walked : row coder width { pass with cur := fresh } with
      | error fault stopped =>
          rw [Program.run_bind_error walked] at ran
          cases ran
      | ok value next =>
          rw [Program.run_bind_ok walked] at ran
          cases closed : closeRow next with
          | error fault stopped =>
              rw [Program.run_bind_error closed] at ran
              cases ran
          | ok value closedRow =>
              rw [Program.run_bind_ok closed] at ran
              have kept := closeRow_keepsClock next.state.clock next rfl
              rw [closed] at kept
              have start : ({ pass with cur := fresh } : Pass δ ρ).state.clock = before.state.clock :=
                between
              obtain ⟨behind, after, same⟩ := ih (.next reached start walked) kept ran
              refine ⟨behind, ?_, same⟩
              rw [List.length_cons, Nat.add_comm rest.length, ← Nat.add_assoc]
              exact after

/-- All row drivers cut their rows the same way, into segments that tile the row. -/
theorem rows_cut_alike (width k : Nat) :
    Tiles width 0 (rowCuts (k * width) width) ∧
      (∀ pass, AfterRows compressRowRgb32 width k pass →
        CutsAlike compressSegRgb32 compressRowRgb32 width k pass) ∧
      (∀ pass, AfterRows decompressRowRgb32 width k pass →
        CutsAlike decompressSegRgb32 decompressRowRgb32 width k pass) ∧
      (∀ pass, AfterRows decompressAlphaRow width k pass →
        CutsAlike decompressAlphaSeg decompressAlphaRow width k pass) ∧
      (∀ pass, AfterRows decompressGrayRow width k pass →
        CutsAlike decompressGraySeg decompressGrayRow width k pass) ∧
      (∀ pass, AfterRows decompressRgb16Row width k pass →
        CutsAlike decompressRgb16Seg decompressRgb16Row width k pass) := by
  constructor
  · have tile := segments_tile (k * width) 0 width
    rw [Nat.zero_add] at tile
    exact tile
  · refine ⟨?_, ?_, ?_, ?_, ?_⟩
    · exact fun pass rows => rgb32Encoder_timeless.cutsAlike rows
    · exact fun pass rows => rgb32Decoder_timeless.cutsAlike rows
    · exact fun pass rows => (planeDecoder_timeless _ _ _ _).cutsAlike rows
    · exact fun pass rows => (planeDecoder_timeless _ _ _ _).cutsAlike rows
    · exact fun pass rows => (planeDecoder_timeless _ _ _ _).cutsAlike rows

/-- Three rows of 1000 pixels through the encoder, the last of which is cut at its column 48. -/
theorem rows_cut_alike_third : ∃ pass, AfterRows compressRowRgb32 1000 3 pass ∧
    CutsAlike compressSegRgb32 compressRowRgb32 1000 3 pass ∧
    rowCuts (2 * 1000) 1000 = [(0, 48), (48, 1000)] := by
  have full : ∀ row ∈ List.replicate 3 (List.replicate 4000 0), FullRow 1000 row := by
    intro row member
    rw [List.eq_of_mem_replicate member]
    exact List.length_replicate
  obtain ⟨last, ran, _sound, _above⟩ := encoder_returns (by decide) full
  obtain ⟨pass, rows, _clock⟩ := AfterRows.phase (.start rfl) rfl ran
  refine ⟨pass, rows, (rows_cut_alike 1000 3).2.1 pass rows, ?_⟩
  simp [rowCuts, segments, leftOf, DEFWMINEXT, DEFWMIMAX]

/-- A row of three segments, in the middle of a mask. -/
example : rowCuts 1000 5000 = [(0, 1048), (1048, 3096), (3096, 5000)] := by
  simp [rowCuts, segments, leftOf, DEFWMINEXT, DEFWMIMAX]

end Capsaicin.Quic
