/-
Stateful programs that may stop early. A program is a function from a state to
a value and a state, or to a fault and the state it stopped in.

`Triple` bounds where one run can end, on both exits. `Coupled` runs two programs
side by side: they return the same value in related states, or fault together,
or one of them has reached a state from which the comparison is given up. A
triple is a program coupled with itself.
-/

import Mathlib.Algebra.Group.Nat.Defs
import Mathlib.Data.List.Basic

namespace Program

/-- Where a checked build aborts instead of returning. -/
inductive Panic where
  | index
  | overflow
  | assertion
  deriving DecidableEq, Repr

/-- How a program can stop early. `fuel` is not an outcome of any source: it
marks a loop bound of a model that was chosen too small. -/
inductive Fault (ε : Type) where
  | error (reason : ε)
  | panic (kind : Panic)
  | fuel
  deriving DecidableEq, Repr

abbrev Code (ε σ : Type) := EStateM (Fault ε) σ

variable {ε φ ψ σ τ α β γ : Type}

/-- One step computed from the whole state. A fault leaves the state as it was. -/
def step (act : σ → Except (Fault ε) (α × σ)) : Code ε σ α := fun state =>
  match act state with
  | .ok (value, final) => .ok value final
  | .error fault => .error fault state

def view (read : σ → Except (Fault ε) α) : Code ε σ α :=
  step fun state => (read state).map fun value => (value, state)

/-- A read that panics where the source's index check does. -/
def index (items : List α) (position : Nat) : Except (Fault ε) α :=
  match items[position]? with
  | some item => .ok item
  | none => .error (.panic .index)

def assign (items : List α) (position : Nat) (item : α) : Except (Fault ε) (List α) :=
  if position < items.length then .ok (items.set position item) else .error (.panic .index)

def access (result : Option α) : Except (Fault ε) α :=
  match result with
  | some value => .ok value
  | none => .error (.panic .index)

def range (items : List α) (start stop : Nat) : Except (Fault ε) (List α) :=
  if start ≤ stop ∧ stop ≤ items.length then .ok ((items.drop start).take (stop - start))
  else .error (.panic .index)

def checkU32 (value : Nat) : Except (Fault ε) Nat :=
  if value < 2 ^ 32 then .ok value else .error (.panic .overflow)

def checkI32 (value : Int) : Except (Fault ε) Int :=
  if -2147483648 ≤ value ∧ value < 2147483648 then .ok value else .error (.panic .overflow)

theorem range_eq_ok {items found : List α} {start stop : Nat} :
    range (ε := ε) items start stop = .ok found ↔
      start ≤ stop ∧ stop ≤ items.length ∧ found = (items.drop start).take (stop - start) := by
  unfold range
  by_cases inside : start ≤ stop ∧ stop ≤ items.length
  · rw [if_pos inside, Except.ok.injEq, eq_comm]
    exact ⟨fun same => ⟨inside.1, inside.2, same⟩, fun all => all.2.2⟩
  · rw [if_neg inside]
    constructor
    · intro impossible
      cases impossible
    · intro all
      exact absurd ⟨all.1, all.2.1⟩ inside

theorem checkU32_eq_ok {value result : Nat} :
    checkU32 (ε := ε) value = .ok result ↔ value < 2 ^ 32 ∧ result = value := by
  unfold checkU32
  by_cases small : value < 2 ^ 32
  · rw [if_pos small, Except.ok.injEq, eq_comm]
    exact ⟨fun same => ⟨small, same⟩, fun both => both.2⟩
  · rw [if_neg small]
    constructor
    · intro impossible
      cases impossible
    · intro both
      exact absurd both.1 small

theorem checkI32_eq_ok {value result : Int} :
    checkI32 (ε := ε) value = .ok result ↔
      -2147483648 ≤ value ∧ value < 2147483648 ∧ result = value := by
  unfold checkI32
  by_cases small : -2147483648 ≤ value ∧ value < 2147483648
  · rw [if_pos small, Except.ok.injEq, eq_comm]
    exact ⟨fun same => ⟨small.1, small.2, same⟩, fun all => all.2.2⟩
  · rw [if_neg small]
    constructor
    · intro impossible
      cases impossible
    · intro all
      exact absurd ⟨all.1, all.2.1⟩ small

theorem index_eq_ok {items : List α} {position : Nat} {item : α} :
    index (ε := ε) items position = .ok item ↔ items[position]? = some item := by
  unfold index
  cases items[position]? with
  | none => simp only [reduceCtorEq]
  | some found => simp only [Except.ok.injEq, Option.some.injEq]

theorem index_of_lt {items : List α} {position : Nat} (inRange : position < items.length) :
    index (ε := ε) items position = .ok items[position] :=
  index_eq_ok.mpr (List.getElem?_eq_getElem inRange)

theorem assign_of_lt {items : List α} {position : Nat} (item : α)
    (inRange : position < items.length) :
    assign (ε := ε) items position item = .ok (items.set position item) :=
  if_pos inRange

theorem assign_eq_ok {items changed : List α} {position : Nat} {item : α} :
    assign (ε := ε) items position item = .ok changed ↔
      position < items.length ∧ changed = items.set position item := by
  unfold assign
  by_cases inside : position < items.length
  · rw [if_pos inside, Except.ok.injEq, eq_comm]
    exact ⟨fun same => ⟨inside, same⟩, fun both => both.2⟩
  · rw [if_neg inside]
    constructor
    · intro impossible
      cases impossible
    · intro both
      exact absurd both.1 inside

theorem access_some (value : α) : access (ε := ε) (some value) = .ok value := rfl

theorem access_eq_ok {result : Option α} {value : α}
    (found : access (ε := ε) result = .ok value) : result = some value := by
  cases result with
  | none => cases found
  | some item =>
      cases found
      rfl

theorem foldlM_still {body : σ → α → Except φ σ} {items : List α} {state : σ}
    (still : ∀ item ∈ items, body state item = .ok state) :
    items.foldlM body state = .ok state := by
  induction items with
  | nil => rfl
  | cons item rest ih =>
      rw [List.foldlM_cons, still item List.mem_cons_self]
      exact ih fun other member => still other (List.mem_cons_of_mem item member)

theorem bind_ok {first : Except φ α} {next : α → Except φ β} {value : α}
    (ran : first = .ok value) : (first >>= next) = next value := by
  rw [ran]
  rfl

theorem bind_eq_ok {first : Except φ α} {next : α → Except φ β} {result : β} :
    (first >>= next) = .ok result ↔ ∃ value, first = .ok value ∧ next value = .ok result := by
  cases first with
  | error fault =>
      constructor
      · intro impossible
        cases impossible
      · rintro ⟨_value, impossible, _rest⟩
        cases impossible
  | ok value =>
      constructor
      · intro rest
        exact ⟨value, rfl, rest⟩
      · rintro ⟨found, same, rest⟩
        cases same
        exact rest

/-- A computation that ends, returns only what `after` says, and aborts only where `hurt`
says it may. -/
def Within (computation : Except (Fault ε) α) (after : α → Prop) (hurt : Prop) : Prop :=
  match computation with
  | .ok value => after value
  | .error (.error _) => True
  | .error (.panic _) => hurt
  | .error .fuel => False

section Within

variable {first : Except (Fault ε) α} {next : α → Except (Fault ε) β} {after : α → Prop}
  {finish : β → Prop} {hurt : Prop}

theorem Within.bind (start : Within first after hurt)
    (rest : ∀ value, after value → Within (next value) finish hurt) :
    Within (first >>= next) finish hurt := by
  cases first with
  | ok value => exact rest value start
  | error fault =>
      cases fault with
      | error reason => exact trivial
      | panic kind => exact start
      | fuel => exact start.elim

theorem Within.weaken {after' : α → Prop} {hurt' : Prop} (holds : Within first after hurt)
    (returns : ∀ value, after value → after' value) (aborts : hurt → hurt') :
    Within first after' hurt' := by
  cases first with
  | ok value => exact returns value holds
  | error fault =>
      cases fault with
      | error reason => exact trivial
      | panic kind => exact aborts holds
      | fuel => exact holds.elim

theorem Within.of_ok {value : α} (returned : first = .ok value) (holds : after value) :
    Within first after hurt := by
  rw [returned]
  exact holds

theorem index_within (items : List α) (position : Nat) :
    Within (index (ε := ε) items position) (fun item => items[position]? = some item) True := by
  unfold index
  cases found : items[position]? with
  | none => exact trivial
  | some item => exact rfl

theorem assign_within (items : List α) (position : Nat) (item : α) :
    Within (assign (ε := ε) items position item) (fun changed => changed = items.set position item)
      True := by
  unfold assign
  split
  · exact rfl
  · exact trivial

theorem access_within (result : Option α) :
    Within (access (ε := ε) result) (fun value => result = some value) True := by
  cases result with
  | none => exact trivial
  | some value => exact rfl

theorem Within.returned {value : α} (holds : Within first after hurt) (ran : first = .ok value) :
    after value := by
  rw [ran] at holds
  exact holds

theorem Within.stopped {fault : Fault ε} (holds : Within first after hurt)
    (ran : first = .error fault) : fault ≠ .fuel := by
  rw [ran] at holds
  rintro rfl
  exact holds

theorem Within.known (holds : Within first after hurt) :
    Within first (fun value => first = .ok value ∧ after value) hurt := by
  cases first with
  | ok value => exact ⟨rfl, holds⟩
  | error fault =>
      cases fault with
      | error reason => exact trivial
      | panic kind => exact holds
      | fuel => exact holds

theorem mapM_within {items : List α} {act : α → Except (Fault ε) β} {result : β → Prop}
    (each : ∀ item ∈ items, Within (act item) result hurt) :
    Within (items.mapM act)
      (fun values => values.length = items.length ∧ ∀ value ∈ values, result value) hurt := by
  induction items with
  | nil => exact ⟨rfl, fun _value member => absurd member List.not_mem_nil⟩
  | cons item rest ih =>
      rw [List.mapM_cons]
      refine (each item List.mem_cons_self).bind fun value holds => ?_
      refine (ih fun other member => each other (List.mem_cons_of_mem item member)).bind ?_
      rintro values ⟨lengths, holdsRest⟩
      refine ⟨congrArg Nat.succ lengths, fun other member => ?_⟩
      rcases List.mem_cons.mp member with here | later
      · exact here ▸ holds
      · exact holdsRest other later

/-- A computation that returns an error or what `after` says. -/
def Ends (computation : Except (Fault ε) α) (after : α → Prop) : Prop :=
  (∃ reason, computation = .error (.error reason)) ∨ ∃ value, computation = .ok value ∧ after value

def Aborts (computation : Except (Fault ε) α) : Prop := ∃ kind, computation = .error (.panic kind)

theorem Aborts.bind (aborts : Aborts first) : Aborts (first >>= next) := by
  rcases aborts with ⟨kind, rfl⟩
  exact ⟨kind, rfl⟩

theorem Aborts.behind {value : α} (returned : first = .ok value) (aborts : Aborts (next value)) :
    Aborts (first >>= next) := by
  rw [bind_ok returned]
  exact aborts

theorem Aborts.not_ends (aborts : Aborts first) : ¬ Ends first after := by
  rcases aborts with ⟨kind, rfl⟩
  rintro (⟨reason, impossible⟩ | ⟨value, impossible, _holds⟩)
  · cases impossible
  · cases impossible

theorem index_aborts {items : List α} {position : Nat} (outside : items.length ≤ position) :
    Aborts (index (ε := ε) items position) := by
  unfold index
  rw [List.getElem?_eq_none outside]
  exact ⟨.index, rfl⟩

theorem Within.ends (holds : Within first after hurt) (calm : ¬ Aborts first) :
    Ends first after := by
  cases first with
  | ok value => exact Or.inr ⟨value, rfl, holds⟩
  | error fault =>
      cases fault with
      | error reason => exact Or.inl ⟨reason, rfl⟩
      | panic kind => exact absurd ⟨kind, rfl⟩ calm
      | fuel => exact holds.elim

/-- A bound on what may abort is the exact one where it does. -/
theorem Within.ends_iff (holds : Within first after hurt) (aborts : hurt → Aborts first) :
    Ends first after ↔ ¬ hurt := by
  constructor
  · intro ends hurts
    exact (aborts hurts).not_ends ends
  · intro well
    apply holds.ends
    rintro ⟨kind, rfl⟩
    exact well holds

end Within

/-- Whatever a computation returns is as `after` says. -/
def Returns (computation : Except φ α) (after : α → Prop) : Prop :=
  ∀ value, computation = .ok value → after value

section Returns

variable {first : Except φ α} {next : α → Except φ β} {after : α → Prop} {finish : β → Prop}

theorem Returns.ok {value : α} (holds : after value) : Returns (.ok value : Except φ α) after := by
  intro other same
  cases same
  exact holds

theorem Returns.error (fault : φ) : Returns (.error fault : Except φ α) after := by
  intro value impossible
  cases impossible

theorem Returns.bind (start : Returns first after)
    (rest : ∀ value, after value → Returns (next value) finish) : Returns (first >>= next) finish := by
  intro result ran
  obtain ⟨value, returned, behind⟩ := bind_eq_ok.mp ran
  exact rest value (start value returned) result behind

theorem Returns.skip (rest : ∀ value, Returns (next value) finish) :
    Returns (first >>= next) finish := by
  intro result ran
  obtain ⟨value, _returned, behind⟩ := bind_eq_ok.mp ran
  exact rest value result behind

theorem Returns.ite {condition : Prop} [Decidable condition] {second : Except φ α}
    (yes : condition → Returns first after) (no : ¬ condition → Returns second after) :
    Returns (if condition then first else second) after := by
  split
  · exact yes ‹_›
  · exact no ‹_›

theorem assign_returns {items : List α} (position : Nat) (item : α) {size : Nat}
    (sized : items.length = size) :
    Returns (assign (ε := ε) items position item) fun changed => changed.length = size := by
  unfold assign
  refine .ite (fun _inside => .ok ?_) fun _outside => .error _
  rw [List.length_set, sized]

theorem Returns.foldlM {σ : Type} {keeps : σ → Prop} {body : σ → α → Except φ σ}
    (step : ∀ state item, keeps state → Returns (body state item) keeps) {items : List α}
    {state : σ} (start : keeps state) : Returns (items.foldlM body state) keeps := by
  induction items generalizing state with
  | nil => exact .ok start
  | cons item rest ih =>
      rw [List.foldlM_cons]
      exact (step state item start).bind fun next kept => ih kept

end Returns

theorem mapM_ok {items : List α} {act : α → Except φ β} {result : β → Prop}
    (each : ∀ item ∈ items, ∃ value, act item = .ok value ∧ result value) :
    ∃ values, items.mapM act = .ok values ∧ values.length = items.length ∧
      ∀ value ∈ values, result value := by
  induction items with
  | nil => exact ⟨[], rfl, rfl, fun _value member => absurd member List.not_mem_nil⟩
  | cons item rest ih =>
      obtain ⟨value, acted, holds⟩ := each item List.mem_cons_self
      obtain ⟨values, actedRest, lengths, holdsRest⟩ :=
        ih fun other member => each other (List.mem_cons_of_mem item member)
      refine ⟨value :: values, ?_, congrArg Nat.succ lengths, ?_⟩
      · rw [List.mapM_cons, bind_ok acted, bind_ok actedRest]
        rfl
      · intro other member
        rcases List.mem_cons.mp member with first | later
        · exact first ▸ holds
        · exact holdsRest other later

theorem run_bind_ok {program : EStateM ψ σ α} {next : α → EStateM ψ σ β}
    {before after : σ} {value : α} (ran : program before = .ok value after) :
    (program >>= next) before = next value after := by
  change EStateM.bind program next before = next value after
  unfold EStateM.bind
  rw [ran]

theorem run_bind_error {program : EStateM ψ σ α} {next : α → EStateM ψ σ β}
    {before after : σ} {fault : ψ} (stopped : program before = .error fault after) :
    (program >>= next) before = .error fault after := by
  change EStateM.bind program next before = .error fault after
  unfold EStateM.bind
  rw [stopped]

theorem run_bind_congr {first second : EStateM ψ σ α} {left right : σ}
    (same : first left = second right) (next : α → EStateM ψ σ β) :
    (first >>= next) left = (second >>= next) right := by
  cases ran : second right with
  | ok value last => rw [run_bind_ok ran, run_bind_ok (same.trans ran)]
  | error fault last => rw [run_bind_error ran, run_bind_error (same.trans ran)]

theorem run_step_ok {act : σ → Except (Fault ε) (α × σ)} {before after : σ} {value : α}
    (ran : act before = .ok (value, after)) : step act before = .ok value after := by
  unfold step
  rw [ran]

theorem run_step_error {act : σ → Except (Fault ε) (α × σ)} {before : σ} {fault : Fault ε}
    (stopped : act before = .error fault) : step act before = .error fault before := by
  unfold step
  rw [stopped]

theorem run_step_last {act : σ → Except (Fault ε) (α × σ)} {before : σ}
    (last : Except (Fault ε) β) (finish : β → α × σ)
    (ran : act before = last >>= fun item => .ok (finish item)) :
    (∀ item, last = .ok item → step act before = .ok (finish item).1 (finish item).2) ∧
      ∀ fault, last = .error fault → step act before = .error fault before := by
  constructor
  · intro item returned
    rw [returned] at ran
    exact run_step_ok ran
  · intro fault stopped
    rw [stopped] at ran
    exact run_step_error ran

theorem run_view_ok {read : σ → Except (Fault ε) α} {before : σ} {value : α}
    (ran : read before = .ok value) : view read before = .ok value before := by
  apply run_step_ok
  rw [ran]
  rfl

theorem run_view_error {read : σ → Except (Fault ε) α} {before : σ} {fault : Fault ε}
    (stopped : read before = .error fault) : view read before = .error fault before := by
  apply run_step_error
  rw [stopped]
  rfl

/-! ### Triples -/

/-- From a state with `before`, the program returns in `after` or stops in
`stopped`. -/
def Triple (before : σ → Prop) (program : EStateM ψ σ α)
    (after : α → σ → Prop) (stopped : ψ → σ → Prop) : Prop :=
  ∀ state, before state →
    match program state with
    | .ok value final => after value final
    | .error fault final => stopped fault final

section Triple

variable {before : σ → Prop} {program : EStateM ψ σ α} {next : α → EStateM ψ σ β}
  {after : α → σ → Prop} {final : β → σ → Prop} {stopped : ψ → σ → Prop}

theorem Triple.conseq {before' : σ → Prop} {after' : α → σ → Prop}
    (holds : Triple before program after stopped)
    (weaker : ∀ state, before' state → before state)
    (stronger : ∀ value state, after value state → after' value state) :
    Triple before' program after' stopped := by
  intro state start
  have result := holds state (weaker state start)
  cases ran : program state with
  | ok value last =>
      rw [ran] at result
      exact stronger value last result
  | error reason last =>
      rw [ran] at result
      exact result

theorem Triple.bind (first : Triple before program after stopped)
    (second : ∀ value, Triple (after value) (next value) final stopped) :
    Triple before (program >>= next) final stopped := by
  intro state start
  have result := first state start
  cases ran : program state with
  | ok value last =>
      rw [ran] at result
      rw [run_bind_ok ran]
      exact second value last result
  | error reason last =>
      rw [ran] at result
      rw [run_bind_error ran]
      exact result

theorem Triple.pure (value : α) (holds : ∀ state, before state → after value state) :
    Triple before (Pure.pure value : EStateM ψ σ α) after stopped :=
  fun state start => holds state start

theorem Triple.relax {stopped' : ψ → σ → Prop} (holds : Triple before program after stopped)
    (weaker : ∀ fault state, stopped fault state → stopped' fault state) :
    Triple before program after stopped' := by
  intro state start
  have result := holds state start
  cases ran : program state with
  | ok value last =>
      rw [ran] at result
      exact result
  | error fault last =>
      rw [ran] at result
      exact weaker fault last result

theorem Triple.step {act : σ → Except (Fault ε) (α × σ)} {stopped : Fault ε → σ → Prop}
    (returned : ∀ state value last, before state → act state = .ok (value, last) → after value last)
    (failed : ∀ state fault, before state → act state = .error fault → stopped fault state) :
    Triple before (Program.step act) after stopped := by
  intro state start
  unfold Program.step
  cases ran : act state with
  | ok result => exact returned state result.1 result.2 start ran
  | error fault => exact failed state fault start ran

theorem Triple.view {read : σ → Except (Fault ε) α} {stopped : Fault ε → σ → Prop}
    (holds : ∀ state, before state → (∀ value, read state = .ok value → after value state) ∧
      ∀ fault, read state = .error fault → stopped fault state) :
    Triple before (Program.view read) after stopped := by
  intro state start
  have result := holds state start
  cases ran : read state with
  | ok value =>
      rw [run_view_ok ran]
      exact result.1 value ran
  | error fault =>
      rw [run_view_error ran]
      exact result.2 fault ran

end Triple

theorem Triple.within {before : σ → Prop} {act : σ → Except (Fault ε) (α × σ)}
    {after : α → σ → Prop} {stopped : Fault ε → σ → Prop}
    (acts : ∀ state, before state → Within (act state) (fun result => after result.1 result.2) True)
    (stops : ∀ fault state, before state → fault ≠ .fuel → stopped fault state) :
    Triple before (Program.step act) after stopped := by
  apply Triple.step
  · exact fun state _value _last start ran => (acts state start).returned ran
  · exact fun state fault start ran => stops fault state start ((acts state start).stopped ran)

/-- Whatever the program does, a state with `kept` stays one. -/
def Keeps (kept : σ → Prop) (program : EStateM ψ σ α) : Prop :=
  Triple kept program (fun _ => kept) fun _ => kept

theorem Keeps.bind {kept : σ → Prop} {program : EStateM ψ σ α} {next : α → EStateM ψ σ β}
    (first : Keeps kept program) (second : ∀ value, Keeps kept (next value)) :
    Keeps kept (program >>= next) := Triple.bind first second

theorem Keeps.pure {kept : σ → Prop} (value : α) :
    Keeps kept (Pure.pure value : EStateM ψ σ α) := Triple.pure value fun _state holds => holds

theorem Keeps.step {kept : σ → Prop} {act : σ → Except (Fault ε) (α × σ)}
    (keep : ∀ state value last, kept state → act state = .ok (value, last) → kept last) :
    Keeps kept (Program.step act) := Triple.step keep fun _state _fault holds _ran => holds

theorem Keeps.view {kept : σ → Prop} (read : σ → Except (Fault ε) α) :
    Keeps kept (Program.view read) :=
  Triple.view fun _state holds => ⟨fun _value _read => holds, fun _fault _read => holds⟩

def lastState : EStateM.Result φ σ α → σ
  | .ok _ state => state
  | .error _ state => state

theorem Keeps.lastState {kept : σ → Prop} {program : EStateM φ σ α} (keep : Keeps kept program)
    {state : σ} (start : kept state) : kept (lastState (program state)) := by
  have result := keep state start
  cases ran : program state with
  | ok value last =>
      rw [ran] at result
      exact result
  | error fault last =>
      rw [ran] at result
      exact result

/-! ### Two programs side by side -/

/-- How two coupled runs may end other than by returning in related states: they
`stopped` together, or one of them is lost. -/
structure Parting (φ ψ σ τ : Type) where
  stopped : φ → ψ → σ → τ → Prop
  lostLeft : σ → Prop
  lostRight : τ → Prop

def Parting.Lost (parting : Parting φ ψ σ τ) (source : σ) (target : τ) : Prop :=
  parting.lostLeft source ∨ parting.lostRight target

def Parting.Ends (parting : Parting φ ψ σ τ) (after : α → σ → τ → Prop) :
    EStateM.Result φ σ α → EStateM.Result ψ τ α → Prop
  | .ok value source, .ok value' target =>
      (value = value' ∧ after value source target) ∨ parting.Lost source target
  | .error fault source, .error fault' target =>
      parting.stopped fault fault' source target ∨ parting.Lost source target
  | .ok _ source, .error _ target => parting.Lost source target
  | .error _ source, .ok _ target => parting.Lost source target

theorem Parting.ends_of_lost {parting : Parting φ ψ σ τ} {after : α → σ → τ → Prop}
    {leftEnd : EStateM.Result φ σ α} {rightEnd : EStateM.Result ψ τ α}
    (lost : parting.Lost (lastState leftEnd) (lastState rightEnd)) :
    parting.Ends after leftEnd rightEnd := by
  cases leftEnd with
  | ok value source =>
      cases rightEnd with
      | ok value' target => exact Or.inr lost
      | error fault target => exact lost
  | error fault source =>
      cases rightEnd with
      | ok value' target => exact lost
      | error fault' target => exact Or.inr lost

/-- From related states the two programs end together. -/
def Coupled (parting : Parting φ ψ σ τ) (before : σ → τ → Prop) (left : EStateM φ σ α)
    (right : EStateM ψ τ α) (after : α → σ → τ → Prop) : Prop :=
  ∀ source target, before source target → parting.Ends after (left source) (right target)

section Coupled

variable {parting : Parting φ ψ σ τ} {before : σ → τ → Prop} {left : EStateM φ σ α}
  {right : EStateM ψ τ α} {after : α → σ → τ → Prop} {leftNext : α → EStateM φ σ β}
  {rightNext : α → EStateM ψ τ β} {final : β → σ → τ → Prop}

/-- What runs next must not find a lost state again. -/
theorem Coupled.bind (first : Coupled parting before left right after)
    (keepLeft : ∀ value, Keeps parting.lostLeft (leftNext value))
    (keepRight : ∀ value, Keeps parting.lostRight (rightNext value))
    (second : ∀ value, Coupled parting (after value) (leftNext value) (rightNext value) final) :
    Coupled parting before (left >>= leftNext) (right >>= rightNext) final := by
  intro source target start
  have ends := first source target start
  cases ranLeft : left source with
  | ok value source' =>
      rw [ranLeft] at ends
      rw [run_bind_ok ranLeft]
      cases ranRight : right target with
      | ok value' target' =>
          rw [ranRight] at ends
          rw [run_bind_ok ranRight]
          rcases ends with ⟨same, related⟩ | lostLeft | lostRight
          · subst same
            exact second value source' target' related
          · exact Parting.ends_of_lost (Or.inl ((keepLeft value).lastState lostLeft))
          · exact Parting.ends_of_lost (Or.inr ((keepRight value').lastState lostRight))
      | error fault target' =>
          rw [ranRight] at ends
          rw [run_bind_error ranRight]
          rcases ends with lostLeft | lostRight
          · exact Parting.ends_of_lost (Or.inl ((keepLeft value).lastState lostLeft))
          · exact Parting.ends_of_lost (Or.inr lostRight)
  | error fault source' =>
      rw [ranLeft] at ends
      rw [run_bind_error ranLeft]
      cases ranRight : right target with
      | ok value' target' =>
          rw [ranRight] at ends
          rw [run_bind_ok ranRight]
          rcases ends with lostLeft | lostRight
          · exact Parting.ends_of_lost (Or.inl lostLeft)
          · exact Parting.ends_of_lost (Or.inr ((keepRight value').lastState lostRight))
      | error fault' target' =>
          rw [ranRight] at ends
          rw [run_bind_error ranRight]
          exact ends

theorem Coupled.pure (value : α)
    (related : ∀ source target, before source target → after value source target) :
    Coupled parting before (Pure.pure value) (Pure.pure value) after :=
  fun source target start => Or.inl ⟨rfl, related source target start⟩

theorem Coupled.weaken {before' : σ → τ → Prop} (holds : Coupled parting before left right after)
    (weaker : ∀ source target, before' source target → before source target) :
    Coupled parting before' left right after :=
  fun source target start => holds source target (weaker source target start)

theorem Coupled.strengthen {after' : α → σ → τ → Prop}
    (holds : Coupled parting before left right after)
    (stronger : ∀ value source target, after value source target → after' value source target) :
    Coupled parting before left right after' := by
  intro source target start
  have ends := holds source target start
  cases ranLeft : left source with
  | ok value source' =>
      rw [ranLeft] at ends
      cases ranRight : right target with
      | ok value' target' =>
          rw [ranRight] at ends
          exact ends.imp (fun met => ⟨met.1, stronger _ _ _ met.2⟩) id
      | error fault target' =>
          rw [ranRight] at ends
          exact ends
  | error fault source' =>
      rw [ranLeft] at ends
      cases ranRight : right target with
      | ok value' target' =>
          rw [ranRight] at ends
          exact ends
      | error fault' target' =>
          rw [ranRight] at ends
          exact ends

theorem Coupled.fact {fact : Prop} (holds : fact → Coupled parting before left right after) :
    Coupled parting (fun source target => fact ∧ before source target) left right after :=
  fun source target start => holds start.1 source target start.2

theorem Coupled.ahead {first : EStateM ψ τ γ} {next : γ → EStateM ψ τ α} {middle : σ → τ → Prop}
    (value : γ) (moves : ∀ source target, before source target →
      ∃ target', first target = .ok value target' ∧ middle source target')
    (rest : Coupled parting middle left (next value) after) :
    Coupled parting before left (first >>= next) after := by
  intro source target start
  obtain ⟨target', moved, met⟩ := moves source target start
  rw [run_bind_ok moved]
  exact rest source target' met

theorem Coupled.exists {ι : Type} {before : ι → σ → τ → Prop}
    (holds : ∀ choice, Coupled parting (before choice) left right after) :
    Coupled parting (fun source target => ∃ choice, before choice source target) left right after :=
  fun source target start => start.elim fun choice chosen => holds choice source target chosen

theorem Parting.ends_ok {ε ε' : Type} {parting : Parting (Fault ε) (Fault ε') σ τ}
    {leftAct : σ → Except (Fault ε) (α × σ)} {rightAct : τ → Except (Fault ε') (α × τ)}
    {source source' : σ} {target target' : τ} {value : α}
    (ranLeft : leftAct source = .ok (value, source'))
    (ranRight : rightAct target = .ok (value, target'))
    (related : after value source' target') :
    parting.Ends after (Program.step leftAct source) (Program.step rightAct target) := by
  rw [run_step_ok ranLeft, run_step_ok ranRight]
  exact Or.inl ⟨rfl, related⟩

theorem Coupled.view {ε ε' : Type} {parting : Parting (Fault ε) (Fault ε') σ τ}
    {leftRead : σ → Except (Fault ε) α} {rightRead : τ → Except (Fault ε') α}
    (agree : ∀ source target, before source target → ∃ value, leftRead source = .ok value ∧
      rightRead target = .ok value ∧ after value source target) :
    Coupled parting before (Program.view leftRead) (Program.view rightRead) after := by
  intro source target start
  obtain ⟨value, readLeft, readRight, related⟩ := agree source target start
  rw [run_view_ok readLeft, run_view_ok readRight]
  exact Or.inl ⟨rfl, related⟩

/-- Two computations that stop at the same fault, or return what is related. -/
inductive Agree (related : α → β → Prop) : Except φ α → Except φ β → Prop
  | ok {value : α} {value' : β} (meets : related value value') :
      Agree related (.ok value) (.ok value')
  | error (fault : φ) : Agree related (.error fault) (.error fault)

theorem Agree.both {δ : Type} {related : γ → δ → Prop} (first : Except φ α)
    {leftNext : α → Except φ γ} {rightNext : α → Except φ δ}
    (rest : ∀ value, first = .ok value → Agree related (leftNext value) (rightNext value)) :
    Agree related (first >>= leftNext) (first >>= rightNext) := by
  cases first with
  | ok value => exact rest value rfl
  | error fault => exact .error fault

def Parting.alike : Parting φ φ σ τ where
  stopped fault fault' _ _ := fault = fault'
  lostLeft := fun _ => False
  lostRight := fun _ => False

theorem Keeps.never (program : EStateM φ σ α) : Keeps (fun _ => False) program :=
  fun _state never => never.elim

theorem Agree.coupled {ε : Type} {parting : Parting (Fault ε) (Fault ε) σ τ}
    {leftAct : σ → Except (Fault ε) (α × σ)} {rightAct : τ → Except (Fault ε) (α × τ)}
    (stops : ∀ fault source target, parting.stopped fault fault source target)
    (acts : ∀ source target, before source target →
      Agree (fun left right => left.1 = right.1 ∧ after left.1 left.2 right.2) (leftAct source)
        (rightAct target)) :
    Coupled parting before (Program.step leftAct) (Program.step rightAct) after := by
  intro source target start
  have ends := acts source target start
  unfold Program.step
  generalize leftAct source = left at ends ⊢
  generalize rightAct target = right at ends ⊢
  cases ends with
  | ok meets => exact Or.inl meets
  | error fault => exact Or.inl (stops fault source target)

/-- The parting of a program from itself: the two runs are one. -/
def Parting.diagonal (stopped : φ → σ → Prop) : Parting φ φ σ σ where
  stopped fault fault' source _ := fault = fault' ∧ stopped fault source
  lostLeft := fun _ => False
  lostRight := fun _ => False

def Same (holds : σ → Prop) (source target : σ) : Prop := source = target ∧ holds source

theorem Coupled.triple {program : EStateM φ σ α} {start : σ → Prop} {finish : α → σ → Prop}
    {stopped : φ → σ → Prop}
    (holds : Coupled (Parting.diagonal stopped) (Same start) program program
      fun value => Same (finish value)) :
    Triple start program finish stopped := by
  intro state begun
  have ends := holds state state ⟨rfl, begun⟩
  cases ran : program state with
  | ok value last =>
      rw [ran] at ends
      rcases ends with ⟨_same, _states, finished⟩ | lost | lost
      · exact finished
      · exact lost.elim
      · exact lost.elim
  | error fault last =>
      rw [ran] at ends
      rcases ends with ⟨_same, stop⟩ | lost | lost
      · exact stop
      · exact lost.elim
      · exact lost.elim

theorem Triple.coupled {program : EStateM φ σ α} {start : σ → Prop} {finish : α → σ → Prop}
    {stopped : φ → σ → Prop} (holds : Triple start program finish stopped) :
    Coupled (Parting.diagonal stopped) (Same start) program program
      fun value => Same (finish value) := by
  intro source target start
  rcases start with ⟨rfl, begun⟩
  have result := holds source begun
  cases ran : program source with
  | ok value last =>
      rw [ran] at result
      exact Or.inl ⟨rfl, rfl, result⟩
  | error fault last =>
      rw [ran] at result
      exact Or.inl ⟨rfl, result⟩

end Coupled

end Program
