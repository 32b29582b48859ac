/-
Loops that wait for a frame of a byte stream and for an event at the same time, and
that start the read anew whenever an event comes first. The library says when such a
loop reads the frames that were sent.
-/

import Mathlib.Algebra.Ring.Nat
import Capsaicin.Library.Reactive

namespace Framing

open Reactive (Turn Machine trace final Always)

variable {β ρ μ ε σ ω : Type}

/-! ### Readers -/

/-- What comes of one more byte. -/
inductive Fed (ρ μ : Type) where
  | more (reading : ρ)
  | done (message : μ)
  | failed
  deriving DecidableEq, Repr

/-- A reader takes its frame byte by byte. No message weighs more than the bytes that
were taken for it. -/
structure FrameReader (β ρ μ : Type) where
  start : ρ
  feed : ρ → β → Fed ρ μ
  taken : ρ → Nat
  weight : μ → Nat
  taken_zero : ∀ {reading}, taken reading = 0 ↔ reading = start
  taken_more : ∀ {reading byte next}, feed reading byte = .more next →
    taken next ≤ taken reading + 1
  weight_done : ∀ {reading byte message}, feed reading byte = .done message →
    weight message ≤ taken reading + 1

namespace FrameReader

/-- Takes up to `count` bytes of those that are there, and none behind a frame. -/
def pull (reader : FrameReader β ρ μ) : Nat → ρ → List β → Fed ρ μ × List β
  | 0, reading, pending => (.more reading, pending)
  | _ + 1, reading, [] => (.more reading, [])
  | count + 1, reading, byte :: pending =>
      match reader.feed reading byte with
      | .more next => reader.pull count next pending
      | .done message => (.done message, pending)
      | .failed => (.failed, pending)

/-- From `reading` on, these bytes are just what is missing of a message. -/
inductive Spells (reader : FrameReader β ρ μ) : ρ → List β → μ → Prop where
  | more {reading byte next bytes message} :
      reader.feed reading byte = .more next → Spells reader next bytes message →
        Spells reader reading (byte :: bytes) message
  | done {reading byte message} :
      reader.feed reading byte = .done message → Spells reader reading [byte] message

/-- From `reading` on, a stream is read as these messages and ends with the last one. -/
inductive Reads (reader : FrameReader β ρ μ) : ρ → List β → List μ → Prop where
  | nil : Reads reader reader.start [] []
  | more {reading byte next stream messages} :
      reader.feed reading byte = .more next → Reads reader next stream messages →
        Reads reader reading (byte :: stream) messages
  | done {reading byte message stream messages} :
      reader.feed reading byte = .done message → Reads reader reader.start stream messages →
        Reads reader reading (byte :: stream) (message :: messages)

theorem spells_reads {reader : FrameReader β ρ μ} {reading : ρ} {bytes stream : List β}
    {message : μ} {messages : List μ} (spells : reader.Spells reading bytes message)
    (reads : reader.Reads reader.start stream messages) :
    reader.Reads reading (bytes ++ stream) (message :: messages) := by
  induction spells with
  | more fed _spells ih => exact .more fed ih
  | done fed => exact .done fed reads

theorem reads_nil {reader : FrameReader β ρ μ} {reading : ρ} {messages : List μ}
    (reads : reader.Reads reading [] messages) : reading = reader.start ∧ messages = [] := by
  cases reads with
  | nil => exact ⟨rfl, rfl⟩

def Behind (reader : FrameReader β ρ μ) (fed : Fed ρ μ) (stream : List β)
    (messages : List μ) : Prop :=
  match fed with
  | .more next => reader.Reads next stream messages
  | .done message => ∃ rest, messages = message :: rest ∧ reader.Reads reader.start stream rest
  | .failed => False

theorem reads_cons {reader : FrameReader β ρ μ} {reading : ρ} {byte : β} {stream : List β}
    {messages : List μ} :
    reader.Reads reading (byte :: stream) messages ↔
      reader.Behind (reader.feed reading byte) stream messages := by
  constructor
  · intro reads
    cases reads with
    | more fedMore later =>
        rw [fedMore]
        exact later
    | done fedDone later =>
        rw [fedDone]
        exact ⟨_, rfl, later⟩
  · intro behind
    cases fed : reader.feed reading byte with
    | more next =>
        rw [fed] at behind
        exact .more fed behind
    | done message =>
        rw [fed] at behind
        obtain ⟨rest, rfl, later⟩ := behind
        exact .done fed later
    | failed =>
        rw [fed] at behind
        exact behind.elim

theorem pull_reads {reader : FrameReader β ρ μ} {count : Nat} {reading : ρ}
    {pending future left : List β} {messages : List μ} {fed : Fed ρ μ}
    (reads : reader.Reads reading (pending ++ future) messages)
    (pulled : reader.pull count reading pending = (fed, left)) :
    reader.Behind fed (left ++ future) messages := by
  induction count generalizing reading pending with
  | zero =>
      rw [pull] at pulled
      cases pulled
      exact reads
  | succ count ih =>
      cases pending with
      | nil =>
          rw [pull] at pulled
          cases pulled
          exact reads
      | cons byte pending =>
          rw [pull] at pulled
          rw [List.cons_append, reads_cons] at reads
          cases fedOne : reader.feed reading byte with
          | more next =>
              rw [fedOne] at pulled reads
              exact ih reads pulled
          | done message =>
              rw [fedOne] at pulled reads
              cases pulled
              exact reads
          | failed =>
              rw [fedOne] at reads
              exact reads.elim

/-- The bytes that a read stands for. -/
def load (reader : FrameReader β ρ μ) : Fed ρ μ → Nat
  | .more reading => reader.taken reading
  | .done message => reader.weight message
  | .failed => 0

theorem pull_load {reader : FrameReader β ρ μ} {count : Nat} {reading : ρ}
    {pending left : List β} {fed : Fed ρ μ}
    (pulled : reader.pull count reading pending = (fed, left)) :
    reader.load fed + left.length ≤ reader.taken reading + pending.length := by
  induction count generalizing reading pending with
  | zero =>
      rw [pull] at pulled
      cases pulled
      exact Nat.le_refl _
  | succ count ih =>
      cases pending with
      | nil =>
          rw [pull] at pulled
          cases pulled
          exact Nat.le_refl _
      | cons byte pending =>
          rw [pull] at pulled
          rw [List.length_cons]
          cases fedOne : reader.feed reading byte with
          | more next =>
              rw [fedOne] at pulled
              have step := reader.taken_more fedOne
              have bound := ih pulled
              omega
          | done message =>
              rw [fedOne] at pulled
              cases pulled
              have step := reader.weight_done fedOne
              rw [load]
              omega
          | failed =>
              rw [fedOne] at pulled
              cases pulled
              rw [load]
              omega

end FrameReader

/-! ### The loop -/

/-- What the loop is woken with: a message or an event. -/
inductive Input (μ ε : Type) where
  | message (msg : μ)
  | event (evt : ε)
  deriving DecidableEq, Repr

def Input.message? : Input μ ε → Option μ
  | .message msg => some msg
  | .event _ => none

def Input.event? : Input μ ε → Option ε
  | .message _ => none
  | .event evt => some evt

/-- What happens around the loop: bytes arrive, the read is given some of them, or an
event is there first. -/
inductive Wake (β ε : Type) where
  | arrive (chunk : List β)
  | read (count : Nat)
  | event (evt : ε)
  deriving DecidableEq, Repr

def Wake.chunk : Wake β ε → List β
  | .arrive chunk => chunk
  | .read _ => []
  | .event _ => []

def Wake.event? : Wake β ε → Option ε
  | .arrive _ => none
  | .read _ => none
  | .event evt => some evt

def arrived (wakes : List (Wake β ε)) : List β := wakes.flatMap Wake.chunk

def events (wakes : List (Wake β ε)) : List ε := wakes.filterMap Wake.event?

/-- The bytes that have arrived and were not taken, the read in flight and the state of
the loop. -/
structure Task (β ρ σ : Type) where
  pending : List β
  reading : ρ
  loop : σ
  deriving DecidableEq, Repr

def Task.start (reader : FrameReader β ρ μ) (state : σ) : Task β ρ σ :=
  { pending := [], reading := reader.start, loop := state }

/-- The loop over the read and the events. An event drops the read with the bytes that
it has taken. -/
def selectLoop (reader : FrameReader β ρ μ) (loop : Machine σ (Input μ ε) ω) :
    Machine (Task β ρ σ) (Wake β ε) (Turn (Input μ ε) ω) := fun task wake =>
  match wake with
  | .arrive chunk => ([], some { task with pending := task.pending ++ chunk })
  | .read count =>
      match reader.pull count task.reading task.pending with
      | (.more reading, pending) => ([], some { task with pending := pending, reading := reading })
      | (.done message, pending) =>
          ([{ input := .message message, output := (loop task.loop (.message message)).1 }],
            (loop task.loop (.message message)).2.map fun state =>
              { pending := pending, reading := reader.start, loop := state })
      | (.failed, _) => ([], none)
  | .event evt =>
      ([{ input := .event evt, output := (loop task.loop (.event evt)).1 }],
        (loop task.loop (.event evt)).2.map fun state =>
          { task with reading := reader.start, loop := state })

def turns (reader : FrameReader β ρ μ) (loop : Machine σ (Input μ ε) ω) (task : Task β ρ σ)
    (wakes : List (Wake β ε)) : List (Turn (Input μ ε) ω) :=
  (trace (selectLoop reader loop) task wakes).flatMap Turn.output

def received (turns : List (Turn (Input μ ε) ω)) : List μ :=
  turns.filterMap fun turn => turn.input.message?

def seen (turns : List (Turn (Input μ ε) ω)) : List ε :=
  turns.filterMap fun turn => turn.input.event?

/-- No event comes while a frame is partly read. -/
def Calm (reader : FrameReader β ρ μ) (task : Task β ρ σ) (wake : Wake β ε) : Prop :=
  ∀ evt, wake = .event evt → task.reading = reader.start

def Undisturbed (reader : FrameReader β ρ μ) (loop : Machine σ (Input μ ε) ω)
    (task : Task β ρ σ) (wakes : List (Wake β ε)) : Prop :=
  Always (selectLoop reader loop) (Calm reader) task wakes

section Run

variable {reader : FrameReader β ρ μ} {loop : Machine σ (Input μ ε) ω} {task next : Task β ρ σ}
  {wake : Wake β ε} {rest : List (Wake β ε)}

theorem turns_some (stepped : (selectLoop reader loop task wake).2 = some next) :
    turns reader loop task (wake :: rest) =
      (selectLoop reader loop task wake).1 ++ turns reader loop next rest := by
  unfold turns
  rw [trace]
  split
  · rename_i output later same
    rw [same] at stepped ⊢
    cases stepped
    rfl
  · rename_i output same
    rw [same] at stepped
    cases stepped

theorem turns_none (stopped : (selectLoop reader loop task wake).2 = none) :
    turns reader loop task (wake :: rest) = (selectLoop reader loop task wake).1 := by
  unfold turns
  rw [trace]
  split
  · rename_i output later same
    rw [same] at stopped
    cases stopped
  · rename_i output same
    rw [same]
    exact List.append_nil _

/-! ### What the loop does -/

theorem read_more {count : Nat} {reading : ρ} {pending : List β}
    (pulled : reader.pull count task.reading task.pending = (.more reading, pending)) :
    selectLoop reader loop task (.read count) =
      ([], some { task with pending := pending, reading := reading }) := by
  rw [selectLoop, pulled]

theorem read_done {count : Nat} {message : μ} {pending : List β}
    (pulled : reader.pull count task.reading task.pending = (.done message, pending)) :
    selectLoop reader loop task (.read count) =
      ([{ input := .message message, output := (loop task.loop (.message message)).1 }],
        (loop task.loop (.message message)).2.map fun state =>
          { pending := pending, reading := reader.start, loop := state }) := by
  rw [selectLoop, pulled]

theorem read_failed {count : Nat} {pending : List β}
    (pulled : reader.pull count task.reading task.pending = (.failed, pending)) :
    selectLoop reader loop task (.read count) = ([], none) := by
  rw [selectLoop, pulled]

theorem selectLoop_cases (reader : FrameReader β ρ μ) (loop : Machine σ (Input μ ε) ω)
    (task : Task β ρ σ) (wake : Wake β ε) :
    ((selectLoop reader loop task wake).1 = [] ∧
        ∀ next, (selectLoop reader loop task wake).2 = some next → next.loop = task.loop) ∨
      ∃ input, (selectLoop reader loop task wake).1 =
          [{ input := input, output := (loop task.loop input).1 }] ∧
        (selectLoop reader loop task wake).2.map Task.loop = (loop task.loop input).2 := by
  cases wake with
  | arrive chunk =>
      left
      refine ⟨rfl, fun next same => ?_⟩
      cases same
      rfl
  | read count =>
      cases pulled : reader.pull count task.reading task.pending with
      | mk fed pending =>
          cases fed with
          | more reading =>
              rw [read_more pulled]
              left
              refine ⟨rfl, fun next same => ?_⟩
              cases same
              rfl
          | done message =>
              rw [read_done pulled]
              right
              refine ⟨.message message, rfl, ?_⟩
              cases (loop task.loop (.message message)).2 with
              | none => rfl
              | some state => rfl
          | failed =>
              rw [read_failed pulled]
              left
              refine ⟨rfl, fun next impossible => ?_⟩
              cases impossible
  | event evt =>
      right
      refine ⟨.event evt, rfl, ?_⟩
      rw [selectLoop]
      cases (loop task.loop (.event evt)).2 with
      | none => rfl
      | some state => rfl

theorem turns_trace (task : Task β ρ σ) (wakes : List (Wake β ε)) :
    turns reader loop task wakes =
      trace loop task.loop ((turns reader loop task wakes).map Turn.input) := by
  induction wakes generalizing task with
  | nil => rfl
  | cons wake rest ih =>
      rcases selectLoop_cases reader loop task wake with ⟨silent, same⟩ | ⟨input, turned, state⟩
      · cases stepped : (selectLoop reader loop task wake).2 with
        | none =>
            rw [turns_none stepped, silent]
            rfl
        | some next =>
            rw [turns_some stepped, silent, List.nil_append, ← same next stepped]
            exact ih next
      · cases stepped : (selectLoop reader loop task wake).2 with
        | none =>
            rw [stepped] at state
            rw [turns_none stepped, turned, List.map_singleton, trace]
            split
            · rename_i output later took
              rw [took] at state
              cases state
            · rename_i output took
              rw [took]
        | some next =>
            rw [stepped] at state
            rw [turns_some stepped, turned, List.singleton_append, List.map_cons, trace]
            split
            · rename_i output later took
              rw [took] at state
              have kept : next.loop = later := Option.some.inj state
              rw [took, ← kept, ← ih next]
            · rename_i output took
              rw [took] at state
              cases state

theorem arrived_snoc (wakes : List (Wake β ε)) (chunk : List β) :
    arrived (wakes ++ [.arrive chunk]) = arrived wakes ++ chunk := by
  simp [arrived, Wake.chunk]

theorem final_arrive (task : Task β ρ σ) (wakes : List (Wake β ε)) (chunk : List β) :
    final (selectLoop reader loop) task (wakes ++ [.arrive chunk]) =
      (final (selectLoop reader loop) task wakes).map fun behind =>
        { behind with pending := behind.pending ++ chunk } := by
  induction wakes generalizing task with
  | nil => rfl
  | cons wake rest ih =>
      rw [List.cons_append, final, final]
      cases (selectLoop reader loop task wake).2 with
      | none => rfl
      | some next => exact ih next

theorem turns_arrive (task : Task β ρ σ) (wakes : List (Wake β ε)) (chunk : List β) :
    turns reader loop task (wakes ++ [.arrive chunk]) = turns reader loop task wakes := by
  induction wakes generalizing task with
  | nil => rfl
  | cons wake rest ih =>
      rw [List.cons_append]
      cases stepped : (selectLoop reader loop task wake).2 with
      | none => rw [turns_none stepped, turns_none stepped]
      | some next => rw [turns_some stepped, turns_some stepped, ih next]

/-! ### What the loop loses -/

/-- The bytes that the loop holds while it runs. -/
def held (reader : FrameReader β ρ μ) : Option (Task β ρ σ) → Nat
  | some task => reader.taken task.reading + task.pending.length
  | none => 0

/-- The bytes that a step drops with the read in flight. -/
def lost (reader : FrameReader β ρ μ) (task : Task β ρ σ) : Wake β ε → Nat
  | .event _ => reader.taken task.reading
  | .arrive _ => 0
  | .read _ => 0

theorem calm_of_lost (none : lost reader task wake = 0) : Calm reader task wake := by
  intro evt same
  subst same
  exact reader.taken_zero.mp none

private theorem held_le {loopState : Option σ} {pending : List β} :
    held reader (loopState.map fun state =>
      ({ pending := pending, reading := reader.start, loop := state } : Task β ρ σ)) ≤
        pending.length := by
  cases loopState with
  | none => exact Nat.zero_le _
  | some state =>
      have fresh : reader.taken reader.start = 0 := reader.taken_zero.mpr rfl
      change reader.taken reader.start + pending.length ≤ pending.length
      omega

theorem step_weight (reader : FrameReader β ρ μ) (loop : Machine σ (Input μ ε) ω)
    (task : Task β ρ σ) (wake : Wake β ε) :
    ((received (selectLoop reader loop task wake).1).map reader.weight).sum +
        lost reader task wake + held reader (selectLoop reader loop task wake).2 ≤
      held reader (some task) + wake.chunk.length := by
  cases wake with
  | arrive chunk =>
      change 0 + 0 + (reader.taken task.reading + (task.pending ++ chunk).length) ≤
        reader.taken task.reading + task.pending.length + chunk.length
      rw [List.length_append]
      omega
  | read count =>
      cases pulled : reader.pull count task.reading task.pending with
      | mk fed pending =>
          have bound := reader.pull_load pulled
          cases fed with
          | more reading =>
              rw [read_more pulled]
              change 0 + 0 + (reader.taken reading + pending.length) ≤
                reader.taken task.reading + task.pending.length + 0
              rw [FrameReader.load] at bound
              omega
          | done message =>
              rw [read_done pulled]
              rw [FrameReader.load] at bound
              exact Nat.le_trans (Nat.add_le_add_left held_le _) bound
          | failed =>
              rw [read_failed pulled]
              exact Nat.zero_le _
  | event evt =>
      have dropped : 0 + reader.taken task.reading = reader.taken task.reading := Nat.zero_add _
      exact Nat.le_trans (Nat.add_le_add_left held_le _) (Nat.le_of_eq (congrArg (· + _) dropped))

private theorem weight_append (reader : FrameReader β ρ μ)
    (first later : List (Turn (Input μ ε) ω)) :
    ((received (first ++ later)).map reader.weight).sum =
      ((received first).map reader.weight).sum + ((received later).map reader.weight).sum := by
  rw [received, List.filterMap_append, List.map_append, List.sum_append]
  rfl

private theorem length_arrived (wake : Wake β ε) (rest : List (Wake β ε)) :
    (arrived (wake :: rest)).length = wake.chunk.length + (arrived rest).length := by
  rw [arrived, List.flatMap_cons, List.length_append]
  rfl

theorem turns_weight (task : Task β ρ σ) (wakes : List (Wake β ε)) :
    ((received (turns reader loop task wakes)).map reader.weight).sum ≤
      held reader (some task) + (arrived wakes).length := by
  induction wakes generalizing task with
  | nil => exact Nat.zero_le _
  | cons wake rest ih =>
      have step := step_weight reader loop task wake
      rw [length_arrived]
      cases stepped : (selectLoop reader loop task wake).2 with
      | none =>
          rw [turns_none stepped]
          omega
      | some next =>
          rw [stepped] at step
          have later := ih next
          rw [turns_some stepped, weight_append]
          omega

/-- A loop that has read all the bytes that there were was never disturbed. -/
theorem undisturbed_of_weight {wakes : List (Wake β ε)}
    (whole : held reader (some task) + (arrived wakes).length ≤
      ((received (turns reader loop task wakes)).map reader.weight).sum) :
    Undisturbed reader loop task wakes := by
  induction wakes generalizing task with
  | nil => trivial
  | cons wake rest ih =>
      have step := step_weight reader loop task wake
      rw [length_arrived] at whole
      cases stepped : (selectLoop reader loop task wake).2 with
      | none =>
          rw [turns_none stepped] at whole
          refine ⟨calm_of_lost (by omega), fun next same => ?_⟩
          rw [stepped] at same
          cases same
      | some next =>
          have later := @turns_weight _ _ _ _ _ _ reader loop next rest
          rw [turns_some stepped, weight_append] at whole
          rw [stepped] at step
          refine ⟨calm_of_lost (by omega), fun other same => ?_⟩
          rw [stepped] at same
          cases same
          exact ih (by omega)

/-! ### What the loop reads -/

/-- A loop that is never disturbed and goes on after every event reads the messages of the
stream one after the other, up to one that it stops at. -/
theorem undisturbed_cases {wakes : List (Wake β ε)} {messages : List μ}
    (undisturbed : Undisturbed reader loop task wakes)
    (reads : reader.Reads task.reading (task.pending ++ arrived wakes) messages)
    (onEvent : ∀ evt ∈ events wakes, ∀ state, (loop state (.event evt)).2 ≠ none) :
    (∃ behind rest, final (selectLoop reader loop) task wakes = some behind ∧
        reader.Reads behind.reading behind.pending rest ∧
        received (turns reader loop task wakes) ++ rest = messages ∧
        seen (turns reader loop task wakes) = events wakes) ∨
      ∃ first message rest state, received (turns reader loop task wakes) = first ++ [message] ∧
        messages = first ++ message :: rest ∧ (loop state (.message message)).2 = none := by
  induction wakes generalizing task messages with
  | nil =>
      left
      refine ⟨task, messages, rfl, ?_, rfl, rfl⟩
      rw [← List.append_nil task.pending]
      exact reads
  | cons wake rest ih =>
      obtain ⟨calm, later⟩ := undisturbed
      cases wake with
      | arrive chunk =>
          have stepped : (selectLoop reader loop task (.arrive chunk)).2 =
              some { task with pending := task.pending ++ chunk } := rfl
          rw [turns_some stepped, final]
          apply ih (later _ stepped) _ onEvent
          rw [List.append_assoc]
          exact reads
      | read count =>
          cases pulled : reader.pull count task.reading task.pending with
          | mk fed pending =>
              have remains := reader.pull_reads reads pulled
              cases fed with
              | more reading =>
                  have step := @read_more _ _ _ _ _ _ reader loop task _ _ _ pulled
                  have stepped := congrArg Prod.snd step
                  have silent := congrArg Prod.fst step
                  rw [turns_some stepped, silent, final, stepped]
                  exact ih (later _ stepped) remains onEvent
              | done message =>
                  obtain ⟨messages, rfl, remains⟩ := remains
                  have step := @read_done _ _ _ _ _ _ reader loop task _ _ _ pulled
                  have turned := congrArg Prod.fst step
                  cases ran : (loop task.loop (.message message)).2 with
                  | none =>
                      rw [ran] at step
                      have stopped := congrArg Prod.snd step
                      right
                      rw [turns_none stopped, turned]
                      exact ⟨[], message, messages, task.loop, rfl, rfl, ran⟩
                  | some state =>
                      rw [ran] at step
                      have stepped := congrArg Prod.snd step
                      rw [turns_some stepped, turned, final, stepped]
                      rcases ih (later _ stepped) remains onEvent with
                        ⟨behind, rest, ended, tail, read, saw⟩ |
                        ⟨first, last, rest, state, read, split, stopped⟩
                      · left
                        exact ⟨behind, rest, ended, tail, congrArg (message :: ·) read, saw⟩
                      · right
                        exact ⟨message :: first, last, rest, state, congrArg (message :: ·) read,
                          congrArg (message :: ·) split, stopped⟩
              | failed => exact remains.elim
      | event evt =>
          cases ran : (loop task.loop (.event evt)).2 with
          | none => exact absurd ran (onEvent evt List.mem_cons_self task.loop)
          | some state =>
              have stepped : (selectLoop reader loop task (.event evt)).2 =
                  some { task with reading := reader.start, loop := state } := by
                rw [selectLoop, ran]
                rfl
              rw [calm evt rfl] at reads
              rw [turns_some stepped, final, stepped]
              rcases ih (later _ stepped) reads
                  (fun other member => onEvent other (List.mem_cons_of_mem evt member)) with
                ⟨behind, rest, ended, tail, read, saw⟩ | stops
              · left
                exact ⟨behind, rest, ended, tail, read, congrArg (evt :: ·) saw⟩
              · right
                exact stops

theorem undisturbed_reads {wakes : List (Wake β ε)} {messages : List μ}
    (undisturbed : Undisturbed reader loop task wakes)
    (reads : reader.Reads task.reading (task.pending ++ arrived wakes) messages)
    (onMessage : ∀ message ∈ messages, ∀ state, (loop state (.message message)).2 ≠ none)
    (onEvent : ∀ evt ∈ events wakes, ∀ state, (loop state (.event evt)).2 ≠ none) :
    ∃ behind rest, final (selectLoop reader loop) task wakes = some behind ∧
      reader.Reads behind.reading behind.pending rest ∧
      received (turns reader loop task wakes) ++ rest = messages ∧
      seen (turns reader loop task wakes) = events wakes := by
  rcases undisturbed_cases undisturbed reads onEvent with runs |
    ⟨first, message, rest, state, _read, rfl, stopped⟩
  · exact runs
  · exact absurd stopped (onMessage message (by simp) state)

theorem undisturbed_reads_all {wakes : List (Wake β ε)} {messages : List μ}
    (undisturbed : Undisturbed reader loop task wakes)
    (reads : reader.Reads task.reading (task.pending ++ arrived wakes) messages)
    (onMessage : ∀ message ∈ messages, ∀ state, (loop state (.message message)).2 ≠ none)
    (onEvent : ∀ evt ∈ events wakes, ∀ state, (loop state (.event evt)).2 ≠ none)
    (finished : ∀ behind, final (selectLoop reader loop) task wakes = some behind →
      behind.pending = []) :
    ∃ state, final (selectLoop reader loop) task wakes = some (Task.start reader state) ∧
      received (turns reader loop task wakes) = messages ∧
      seen (turns reader loop task wakes) = events wakes := by
  obtain ⟨behind, rest, ended, tail, read, saw⟩ :=
    undisturbed_reads undisturbed reads onMessage onEvent
  have empty := finished behind ended
  obtain ⟨pending, reading, state⟩ := behind
  dsimp only at empty tail
  rw [empty] at tail ended
  obtain ⟨fresh, none⟩ := reader.reads_nil tail
  rw [none, List.append_nil] at read
  rw [fresh] at ended
  exact ⟨state, ended, read, saw⟩

theorem reads_first {loop : Machine σ (Input μ Empty) ω} {wakes : List (Wake β Empty)}
    {ahead : List β} {messages : List μ} (state : σ)
    (reads : reader.Reads reader.start (arrived wakes ++ ahead) messages)
    (onMessage : ∀ message ∈ messages, ∀ state, (loop state (.message message)).2 ≠ none) :
    ∃ behind rest, final (selectLoop reader loop) (Task.start reader state) wakes = some behind ∧
      received (turns reader loop (Task.start reader state) wakes) ++ rest = messages ∧
      (ahead = [] → behind.pending = [] → rest = []) := by
  -- the bytes that have not arrived yet change nothing as long as nobody reads them
  have undisturbed : Undisturbed reader loop (Task.start reader state) (wakes ++ [.arrive ahead]) :=
    Reactive.always_of (fun _task _wake evt => evt.elim) _ _
  rw [← arrived_snoc] at reads
  obtain ⟨last, rest, ended, tail, read, _saw⟩ := undisturbed_reads undisturbed reads onMessage
    (fun evt => evt.elim)
  rw [final_arrive, Option.map_eq_some_iff] at ended
  obtain ⟨behind, after, rfl⟩ := ended
  rw [turns_arrive] at read
  refine ⟨behind, rest, after, read, ?_⟩
  intro none empty
  dsimp only at tail
  rw [none, empty, List.append_nil] at tail
  exact (reader.reads_nil tail).2

theorem events_cons (wake : Wake β ε) (rest : List (Wake β ε)) :
    events (wake :: rest) = wake.event?.toList ++ events rest := by
  cases wake with
  | arrive chunk => rfl
  | read count => rfl
  | event evt => rfl

theorem event_mem_split {wakes : List (Wake β ε)} {evt : ε} (member : evt ∈ events wakes) :
    ∃ before after, wakes = before ++ .event evt :: after := by
  obtain ⟨wake, among, same⟩ := List.mem_filterMap.mp member
  cases wake with
  | arrive chunk => cases same
  | read count => cases same
  | event other =>
      cases same
      exact List.append_of_mem among

theorem step_seen (task : Task β ρ σ) (wake : Wake β ε) :
    seen (selectLoop reader loop task wake).1 = wake.event?.toList := by
  cases wake with
  | arrive chunk => rfl
  | read count =>
      cases pulled : reader.pull count task.reading task.pending with
      | mk fed pending =>
          cases fed with
          | more reading =>
              rw [read_more pulled]
              rfl
          | done message =>
              rw [read_done pulled]
              rfl
          | failed =>
              rw [read_failed pulled]
              rfl
  | event evt => rfl

theorem seen_some (stepped : (selectLoop reader loop task wake).2 = some next) :
    seen (turns reader loop task (wake :: rest)) =
      wake.event?.toList ++ seen (turns reader loop next rest) := by
  rw [turns_some stepped, ← step_seen task wake]
  exact List.filterMap_append

theorem seen_none (stopped : (selectLoop reader loop task wake).2 = none) :
    seen (turns reader loop task (wake :: rest)) = wake.event?.toList := by
  rw [turns_none stopped, step_seen]

theorem seen_events (task : Task β ρ σ) (wakes : List (Wake β ε)) :
    seen (turns reader loop task wakes) <+: events wakes ∧
      (final (selectLoop reader loop) task wakes ≠ none →
        seen (turns reader loop task wakes) = events wakes) := by
  induction wakes generalizing task with
  | nil => exact ⟨List.prefix_rfl, fun _runs => rfl⟩
  | cons wake rest ih =>
      rw [events_cons]
      cases stepped : (selectLoop reader loop task wake).2 with
      | none =>
          rw [seen_none stepped, final, stepped]
          exact ⟨List.prefix_append _ _, fun runs => absurd rfl runs⟩
      | some next =>
          rw [seen_some stepped, final, stepped]
          obtain ⟨first, all⟩ := ih next
          exact ⟨(List.prefix_append_right_inj _).mpr first, fun runs => by rw [all runs]⟩

/-- All events are seen exactly when none comes to a loop that has stopped. -/
theorem seen_all_iff (task : Task β ρ σ) (wakes : List (Wake β ε)) :
    seen (turns reader loop task wakes) = events wakes ↔
      ∀ before evt after, wakes = before ++ .event evt :: after →
        final (selectLoop reader loop) task before ≠ none := by
  induction wakes generalizing task with
  | nil =>
      constructor
      · intro _saw before evt after split
        exact absurd split.symm (List.append_ne_nil_of_right_ne_nil _ (List.cons_ne_nil _ _))
      · intro _attended
        rfl
  | cons wake rest ih =>
      rw [events_cons]
      cases stepped : (selectLoop reader loop task wake).2 with
      | none =>
          rw [seen_none stepped]
          constructor
          · intro saw before evt after split
            have silent : events rest = [] := List.append_right_eq_self.mp saw.symm
            cases before with
            | nil => exact Option.some_ne_none task
            | cons first before =>
                obtain ⟨_same, rfl⟩ := List.cons.inj split
                have member : evt ∈ events (before ++ .event evt :: after) :=
                  List.mem_filterMap.mpr ⟨.event evt, by simp, rfl⟩
                exact absurd (silent ▸ member) List.not_mem_nil
          · intro attended
            have silent : events rest = [] := by
              apply List.eq_nil_iff_forall_not_mem.mpr
              intro evt member
              obtain ⟨before, after, rfl⟩ := event_mem_split member
              apply attended (wake :: before) evt after rfl
              rw [final, stepped]
            rw [silent, List.append_nil]
      | some next =>
          rw [seen_some stepped, List.append_cancel_left_eq, ih next]
          constructor
          · intro attended before evt after split
            cases before with
            | nil => exact Option.some_ne_none task
            | cons first before =>
                cases split
                rw [final, stepped]
                exact attended before evt after rfl
          · intro attended before evt after split
            have runs := attended (wake :: before) evt after (congrArg (wake :: ·) split)
            rw [final, stepped] at runs
            exact runs

theorem received_goes_on {inputs : List (Input μ ε)} {state : σ} {first rest : List μ} {message : μ}
    (split : received (trace loop state inputs) = first ++ message :: rest) (more : rest ≠ []) :
    ∃ state, (loop state (.message message)).2 ≠ none := by
  induction inputs generalizing state first with
  | nil => exact absurd split.symm (List.append_ne_nil_of_right_ne_nil _ (List.cons_ne_nil _ _))
  | cons input inputs ih =>
      rw [trace] at split
      rcases ran : loop state input with ⟨output, behind⟩
      rw [ran] at split
      cases behind with
      | none =>
          -- the only turn has one message at most
          have one := List.length_filterMap_le (fun turn => turn.input.message?)
            [({ input := input, output := output } : Turn (Input μ ε) ω)]
          have some := List.length_pos_iff.mpr more
          change (received [({ input := input, output := output } : Turn (Input μ ε) ω)]).length ≤ 1
            at one
          change received [({ input := input, output := output } : Turn (Input μ ε) ω)] = _ at split
          rw [split, List.length_append, List.length_cons] at one
          omega
      | some next =>
          cases input with
          | event evt => exact ih split
          | message other =>
              cases first with
              | nil =>
                  obtain ⟨rfl, _later⟩ := List.cons.inj split
                  refine ⟨state, ?_⟩
                  rw [ran]
                  exact Option.some_ne_none next
              | cons head first => exact ih (List.cons.inj split).2

/-! ### What is read at all -/

/-- What a reader keeps of its state, and what that says of its messages. -/
structure FrameReader.Admits (reader : FrameReader β ρ μ) (kept : ρ → Prop) (good : μ → Prop) :
    Prop where
  start : kept reader.start
  more : ∀ {reading byte next}, kept reading → reader.feed reading byte = .more next → kept next
  done : ∀ {reading byte message}, kept reading → reader.feed reading byte = .done message →
    good message

section Admits

variable {kept : ρ → Prop} {good : μ → Prop}

def Fed.Admitted (kept : ρ → Prop) (good : μ → Prop) : Fed ρ μ → Prop
  | .more reading => kept reading
  | .done message => good message
  | .failed => True

theorem FrameReader.Admits.feed (admits : reader.Admits kept good) {reading : ρ}
    (fine : kept reading) (byte : β) : (reader.feed reading byte).Admitted kept good := by
  cases fed : reader.feed reading byte with
  | more next => exact admits.more fine fed
  | done message => exact admits.done fine fed
  | failed => exact True.intro

theorem FrameReader.Admits.pull (admits : reader.Admits kept good) (count : Nat) {reading : ρ}
    (pending : List β) (fine : kept reading) :
    (reader.pull count reading pending).1.Admitted kept good := by
  induction count generalizing reading pending with
  | zero => exact fine
  | succ count ih =>
      cases pending with
      | nil => exact fine
      | cons byte pending =>
          have one := admits.feed fine byte
          rw [FrameReader.pull]
          cases fed : reader.feed reading byte with
          | more next =>
              rw [fed] at one
              exact ih pending one
          | done message =>
              rw [fed] at one
              exact one
          | failed => exact True.intro

theorem FrameReader.Admits.step (admits : reader.Admits kept good)
    (loop : Machine σ (Input μ ε) ω) (fine : kept task.reading) (wake : Wake β ε) :
    (∀ message ∈ received (selectLoop reader loop task wake).1, good message) ∧
      ∀ next, (selectLoop reader loop task wake).2 = some next → kept next.reading := by
  have silent : ∀ message ∈ received ([] : List (Turn (Input μ ε) ω)), good message :=
    fun _message member => absurd member List.not_mem_nil
  have restarted (pending : List β) (state : Option σ) (next : Task β ρ σ)
      (same : (state.map fun state =>
        ({ pending := pending, reading := reader.start, loop := state } : Task β ρ σ)) =
          some next) : kept next.reading := by
    obtain ⟨_state, _ran, rfl⟩ := Option.map_eq_some_iff.mp same
    exact admits.start
  cases wake with
  | arrive chunk =>
      refine ⟨silent, fun next same => ?_⟩
      cases same
      exact fine
  | event evt => exact ⟨silent, restarted task.pending _⟩
  | read count =>
      have judged := admits.pull count task.pending fine
      cases pulled : reader.pull count task.reading task.pending with
      | mk fed pending =>
          rw [pulled] at judged
          cases fed with
          | more reading =>
              rw [read_more pulled]
              refine ⟨silent, fun next same => ?_⟩
              cases same
              exact judged
          | done message =>
              rw [read_done pulled]
              refine ⟨fun other member => ?_, restarted pending _⟩
              rw [List.mem_singleton.mp member]
              exact judged
          | failed =>
              rw [read_failed pulled]
              exact ⟨silent, fun next impossible => absurd impossible.symm (Option.some_ne_none next)⟩

theorem FrameReader.Admits.received (admits : reader.Admits kept good) {wakes : List (Wake β ε)}
    (fine : kept task.reading) : ∀ message ∈ received (turns reader loop task wakes),
      good message := by
  induction wakes generalizing task with
  | nil => exact fun _message member => absurd member List.not_mem_nil
  | cons wake rest ih =>
      obtain ⟨here, keeps⟩ := admits.step loop fine wake
      cases stepped : (selectLoop reader loop task wake).2 with
      | none =>
          rw [turns_none stepped]
          exact here
      | some next =>
          rw [turns_some stepped]
          intro message member
          change message ∈ List.filterMap _ (_ ++ _) at member
          rw [List.filterMap_append] at member
          rcases List.mem_append.mp member with now | later
          · exact here message now
          · exact ih (keeps next stepped) message later

end Admits

end Run

end Framing
