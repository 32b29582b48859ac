/-
Readers that pass on the rest of their input, and how they compose. A reader is exact on
an encoding when it takes all of it, whatever follows, and fails on every shorter piece;
it is faithful to an encoder when it takes nothing but encodings.
-/

import Mathlib.Data.List.Basic

namespace Codec

variable {ε β α γ : Type}

abbrev Reader (β ε : Type) := StateT (List β) (Except ε)

theorem bind_ok {first : Reader β ε α} {next : α → Reader β ε γ} {buf rest : List β} {value : α}
    (ran : first buf = .ok (value, rest)) : (first >>= next) buf = next value rest := by
  change (StateT.bind first next) buf = next value rest
  unfold StateT.bind
  rw [ran]
  rfl

theorem bind_error {first : Reader β ε α} {next : α → Reader β ε γ} {buf : List β} {reason : ε}
    (stopped : first buf = .error reason) : (first >>= next) buf = .error reason := by
  change (StateT.bind first next) buf = .error reason
  unfold StateT.bind
  rw [stopped]
  rfl

theorem bind_eq_ok {first : Reader β ε α} {next : α → Reader β ε γ} {buf rest : List β}
    {value : γ} (ran : (first >>= next) buf = .ok (value, rest)) :
    ∃ item middle, first buf = .ok (item, middle) ∧ next item middle = .ok (value, rest) := by
  cases started : first buf with
  | error reason =>
      rw [bind_error started] at ran
      cases ran
  | ok result =>
      rw [bind_ok started] at ran
      exact ⟨result.1, result.2, rfl, ran⟩

/-! ### Exact readers -/

/-- The reader takes `bytes` as `value`, and nothing less. -/
structure Exact (reader : Reader β ε α) (bytes : List β) (value : α) : Prop where
  whole : ∀ rest, reader (bytes ++ rest) = .ok (value, rest)
  cut : ∀ short, short <+: bytes → short ≠ bytes → ∃ reason, reader short = .error reason

theorem Exact.pure (value : α) : Exact (Pure.pure value : Reader β ε α) [] value where
  whole := fun _rest => rfl
  cut := fun _short within differs => absurd (List.prefix_nil.mp within) differs

theorem Exact.bind {first : Reader β ε α} {next : α → Reader β ε γ} {bytes more : List β}
    {item : α} {value : γ} (here : Exact first bytes item) (behind : Exact (next item) more value) :
    Exact (first >>= next) (bytes ++ more) value where
  whole := by
    intro rest
    rw [List.append_assoc, bind_ok (here.whole (more ++ rest))]
    exact behind.whole rest
  cut := by
    intro short within differs
    rcases List.prefix_or_prefix_of_prefix within (List.prefix_append bytes more) with inside | past
    · by_cases whole : short = bytes
      · subst whole
        have some : more ≠ [] := by
          intro empty
          exact differs (by rw [empty, List.append_nil])
        have ran := here.whole []
        rw [List.append_nil] at ran
        rw [bind_ok ran]
        exact behind.cut [] List.nil_prefix (Ne.symm some)
      · obtain ⟨reason, stopped⟩ := here.cut short inside whole
        exact ⟨reason, bind_error stopped⟩
    · obtain ⟨tail, rfl⟩ := past
      have tailWithin := (List.prefix_append_right_inj bytes).mp within
      rw [bind_ok (here.whole tail)]
      exact behind.cut tail tailWithin fun same => differs (by rw [same])

theorem Exact.skip {first : Reader β ε α} {next : α → Reader β ε γ} {bytes : List β} {item : α}
    {value : γ} (here : Exact first [] item) (behind : Exact (next item) bytes value) :
    Exact (first >>= next) bytes value := here.bind behind

theorem Exact.map {first : Reader β ε α} (make : α → γ) {bytes : List β} {item : α}
    (here : Exact first bytes item) :
    Exact (first >>= fun item => Pure.pure (make item)) bytes (make item) := by
  have whole := @Exact.bind ε β α γ first (fun item => Pure.pure (make item)) bytes [] item
    (make item) here (Exact.pure (make item))
  rw [List.append_nil] at whole
  exact whole

/-! ### Faithful readers -/

/-- Whatever the reader takes is the encoding of what it returns. -/
def Faithful (reader : Reader β ε α) (encode : α → List β) : Prop :=
  ∀ buf value rest, reader buf = .ok (value, rest) → buf = encode value ++ rest

theorem Faithful.step {first : Reader β ε α} {next : α → Reader β ε γ} {encode : α → List β}
    (faithful : Faithful first encode) {buf rest : List β} {value : γ}
    (ran : (first >>= next) buf = .ok (value, rest)) :
    ∃ item middle, buf = encode item ++ middle ∧ next item middle = .ok (value, rest) := by
  obtain ⟨item, middle, started, went⟩ := bind_eq_ok ran
  exact ⟨item, middle, faithful buf item middle started, went⟩

/-! ### Canonical readers -/

/-- What the reader takes: the values that fit, each from its encoding and nothing else. -/
def Canonical (reader : Reader β ε α) (encode : α → List β) (fits : α → Prop) : Prop :=
  ∀ buf value rest, reader buf = .ok (value, rest) ↔ fits value ∧ buf = encode value ++ rest

theorem Canonical.bind_iff {first : Reader β ε α} {next : α → Reader β ε γ} {encode : α → List β}
    {fits : α → Prop} (here : Canonical first encode fits) {buf rest : List β} {whole : γ} :
    (first >>= next) buf = .ok (whole, rest) ↔
      ∃ item middle, fits item ∧ buf = encode item ++ middle ∧
        next item middle = .ok (whole, rest) := by
  constructor
  · intro ran
    rcases bind_eq_ok ran with ⟨item, middle, started, went⟩
    rcases (here buf item middle).mp started with ⟨inside, split⟩
    exact ⟨item, middle, inside, split, went⟩
  · rintro ⟨item, middle, inside, rfl, went⟩
    rw [bind_ok ((here _ item middle).mpr ⟨inside, rfl⟩), went]

theorem Canonical.field {first : Reader β ε α} {next : α → Reader β ε γ} {encode : α → List β}
    {fits : α → Prop} {encode' : γ → List β} {known fits' : γ → Prop} (part : γ → α)
    (here : Canonical first encode fits)
    (behind : ∀ item, Canonical (next item) encode'
      fun whole => (known whole ∧ part whole = item) ∧ fits' whole) :
    Canonical (first >>= next) (fun whole => encode (part whole) ++ encode' whole)
      fun whole => known whole ∧ fits (part whole) ∧ fits' whole := by
  intro buf whole rest
  constructor
  · intro ran
    rcases here.bind_iff.mp ran with ⟨item, middle, inside, rfl, went⟩
    rcases (behind item middle whole rest).mp went with ⟨⟨⟨before, rfl⟩, others⟩, rfl⟩
    exact ⟨⟨before, inside, others⟩, (List.append_assoc _ _ _).symm⟩
  · rintro ⟨⟨before, inside, others⟩, rfl⟩
    have went := (behind _ (encode' whole ++ rest) whole rest).mpr ⟨⟨⟨before, rfl⟩, others⟩, rfl⟩
    exact here.bind_iff.mpr ⟨part whole, _, inside, List.append_assoc _ _ _, went⟩

theorem Canonical.done {known : γ → Prop} {value : γ} (all : ∀ whole, known whole ↔ whole = value) :
    Canonical (Pure.pure value : Reader β ε γ) (fun _ => []) fun whole => known whole ∧ True := by
  intro buf whole rest
  constructor
  · intro ran
    cases ran
    exact ⟨⟨(all value).mpr rfl, trivial⟩, rfl⟩
  · rintro ⟨⟨same, _trivial⟩, rfl⟩
    rw [(all whole).mp same]
    rfl

theorem Canonical.start {reader : Reader β ε α} {encode : α → List β} {fits : α → Prop}
    (canonical : Canonical reader encode fun value => True ∧ fits value) :
    Canonical reader encode fits := by
  intro buf value rest
  simpa using canonical buf value rest

theorem Canonical.congr {reader : Reader β ε α} {encode encode' : α → List β}
    {fits fits' : α → Prop} (canonical : Canonical reader encode fits)
    (written : ∀ value, encode' value = encode value) (same : ∀ value, fits' value ↔ fits value) :
    Canonical reader encode' fits' := by
  intro buf value rest
  rw [written, same]
  exact canonical buf value rest

theorem Canonical.map {first : Reader β ε α} {encode : α → List β} {fits : α → Prop}
    {fits' : γ → Prop} {make : α → γ} {back : γ → α} (here : Canonical first encode fits)
    (there : ∀ value, fits value → fits' (make value) ∧ back (make value) = value)
    (again : ∀ value, fits' value → fits (back value) ∧ make (back value) = value) :
    Canonical (first >>= fun item => Pure.pure (make item)) (fun value => encode (back value))
      fits' := by
  intro buf value rest
  constructor
  · intro ran
    rcases here.bind_iff.mp ran with ⟨item, middle, inside, rfl, made⟩
    rcases there item inside with ⟨inside', same⟩
    cases made
    refine ⟨inside', ?_⟩
    dsimp only
    rw [same]
  · rintro ⟨inside, rfl⟩
    rcases again value inside with ⟨inside', same⟩
    apply here.bind_iff.mpr
    refine ⟨_, rest, inside', rfl, ?_⟩
    rw [same]
    rfl

/-- A reader is as good as its parts: what fits is read back, nothing shorter is. -/
theorem Canonical.exact {reader : Reader β ε α} {encode : α → List β} {fits : α → Prop}
    (canonical : Canonical reader encode fits) {value : α} (fit : fits value) :
    Exact reader (encode value) value where
  whole := fun rest => (canonical _ value rest).mpr ⟨fit, rfl⟩
  cut := by
    intro short within differs
    cases ran : reader short with
    | error reason => exact ⟨reason, rfl⟩
    | ok result =>
        rcases result with ⟨other, rest⟩
        rcases (canonical short other rest).mp ran with ⟨fit', split⟩
        rcases within with ⟨tail, whole⟩
        have again := (canonical (encode value) other (rest ++ tail)).mpr
          ⟨fit', by rw [← whole, split, List.append_assoc]⟩
        have first := (canonical (encode value) value []).mpr ⟨fit, (List.append_nil _).symm⟩
        rw [first] at again
        injection again with same
        injection same with _value nothing
        have empty : tail = [] := (List.append_eq_nil_iff.mp nothing.symm).2
        rw [empty, List.append_nil] at whole
        exact absurd whole differs

end Codec
