/-
Back-reference coding over any alphabet. A token appends literal items, or copies
items from a distance back in what has been produced so far; a copy may overlap its
own output. A decoder writes the same items into a buffer with one slot an item.
-/

import Mathlib.Algebra.Ring.Nat
import Mathlib.Data.List.Forall2
import Capsaicin.Library.ByteCode

namespace Lz77

open ByteCode (Ahead)

variable {α β φ τ : Type}

inductive Token (α : Type) where
  | literal (items : List α)
  | copy (len dist : Nat)
  deriving Repr

/-- `len` items, each the one `dist` places before it. -/
def copyBack (dist : Nat) : Nat → List α → Option (List α)
  | 0, produced => some produced
  | len + 1, produced =>
      match produced[produced.length - dist]? with
      | some item => copyBack dist len (produced ++ [item])
      | none => none

def Token.extend (produced : List α) : Token α → Option (List α)
  | .literal items => some (produced ++ items)
  | .copy len dist =>
      if dist = 0 ∨ produced.length < dist then none else copyBack dist len produced

/-- The naive expansion of a list of tokens of any kind behind what has been produced. -/
def expandBy (extend : List α → τ → Option (List α)) (produced : List α) : List τ → Option (List α)
  | [] => some produced
  | token :: rest =>
      match extend produced token with
      | some longer => expandBy extend longer rest
      | none => none

def expand : List α → List (Token α) → Option (List α) := expandBy Token.extend

example : expand [] [.literal [1, 2], .copy 5 2] = some [1, 2, 1, 2, 1, 2, 1] := by decide

theorem copyBack_length {dist len : Nat} {produced result : List α}
    (copied : copyBack dist len produced = some result) : result.length = produced.length + len := by
  induction len generalizing produced with
  | zero =>
      cases copied
      rfl
  | succ len ih =>
      rw [copyBack] at copied
      cases found : produced[produced.length - dist]? with
      | none =>
          rw [found] at copied
          cases copied
      | some item =>
          rw [found] at copied
          rw [ih copied, List.length_append, List.length_singleton]
          omega

theorem copyBack_some {dist len : Nat} {produced : List α} (positive : 0 < dist)
    (back : dist ≤ produced.length) : ∃ result, copyBack dist len produced = some result := by
  induction len generalizing produced with
  | zero => exact ⟨produced, rfl⟩
  | succ len ih =>
      have there : produced.length - dist < produced.length := by omega
      rw [copyBack, List.getElem?_eq_getElem there]
      apply ih
      rw [List.length_append]
      omega

theorem extend_copy {produced result : List α} {len dist : Nat}
    (extended : (Token.copy len dist).extend produced = some result) :
    0 < dist ∧ dist ≤ produced.length ∧ copyBack dist len produced = some result := by
  rw [Token.extend] at extended
  by_cases outside : dist = 0 ∨ produced.length < dist
  · rw [if_pos outside] at extended
    cases extended
  · rw [if_neg outside] at extended
    exact ⟨by omega, by omega, extended⟩

theorem expandBy_cons {extend : List α → τ → Option (List α)} {produced result : List α} {token : τ}
    {rest : List τ} (expanded : expandBy extend produced (token :: rest) = some result) :
    ∃ longer, extend produced token = some longer ∧ expandBy extend longer rest = some result := by
  rw [expandBy] at expanded
  cases extended : extend produced token with
  | none =>
      rw [extended] at expanded
      cases expanded
  | some longer =>
      rw [extended] at expanded
      exact ⟨longer, rfl, expanded⟩

def Token.size : Token α → Nat
  | .literal items => items.length
  | .copy len _ => len

theorem extend_size {token : Token α} {produced result : List α}
    (extended : token.extend produced = some result) :
    result.length = produced.length + token.size := by
  cases token with
  | literal items =>
      cases extended
      exact List.length_append
  | copy len dist => exact copyBack_length (extend_copy extended).2.2

theorem expand_size {tokens : List (Token α)} {produced result : List α}
    (expanded : expand produced tokens = some result) :
    result.length = produced.length + (tokens.map Token.size).sum := by
  induction tokens generalizing produced with
  | nil =>
      cases expanded
      rfl
  | cons token rest ih =>
      obtain ⟨longer, extended, expandedRest⟩ := expandBy_cons expanded
      rw [ih expandedRest, extend_size extended, List.map_cons, List.sum_cons, Nat.add_assoc]

/-! ### Buffers -/

section Buffer

variable (shows : β → Nat → α → Prop)

/-- The first slots of the buffer show what has been produced. -/
def Filled (buffer : β) (produced : List α) : Prop :=
  ∀ k item, produced[k]? = some item → shows buffer k item

/-- A write of one slot: the others stay, and the buffer stays one that `fits`. -/
structure Puts (fits : β → Prop) (dst : Nat) (item : α) (buffer buffer' : β) : Prop where
  here : shows buffer' dst item
  elsewhere : ∀ k other, k ≠ dst → shows buffer k other → shows buffer' k other
  fits : fits buffer'

variable {shows} {fits : β → Prop}

theorem Filled.nil (buffer : β) : Filled shows buffer [] := fun _k _item found => by cases found

theorem Filled.push {buffer buffer' : β} {produced : List α} {item : α}
    (filled : Filled shows buffer produced)
    (puts : Puts shows fits produced.length item buffer buffer') :
    Filled shows buffer' (produced ++ [item]) := by
  intro k other found
  by_cases before : k < produced.length
  · rw [List.getElem?_append_left before] at found
    exact puts.elsewhere k other (Nat.ne_of_lt before) (filled k other found)
  · rw [List.getElem?_append_right (Nat.not_lt.mp before)] at found
    obtain ⟨inRange, last⟩ := List.getElem?_eq_some_iff.mp found
    have here : k = produced.length := by
      rw [List.length_singleton] at inRange
      omega
    subst here
    simp only [Nat.sub_self, List.getElem_cons_zero] at last
    rw [← last]
    exact puts.here

/-- The slots `dst` to `dst + len`, each copied from as far back as the first. -/
def copyRun (copyOne : Nat → Nat → β → Except φ β) (src dst : Nat) : Nat → β → Except φ β
  | 0, buffer => .ok buffer
  | len + 1, buffer => do
      let buffer ← copyOne src dst buffer
      copyRun copyOne (src + 1) (dst + 1) len buffer

/-- The slots `dst` to `dst + count`, each taken from the input at `ip` on. -/
def takeRun (takeOne : Nat → Nat → β → Except φ (Nat × β)) : Nat → Nat → Nat → β → Except φ (Nat × β)
  | 0, ip, _, buffer => .ok (ip, buffer)
  | count + 1, ip, dst, buffer => do
      let (ip, buffer) ← takeOne ip dst buffer
      takeRun takeOne count ip (dst + 1) buffer

theorem takeRun_ok {takeOne : Nat → Nat → β → Except φ (Nat × β)} {room : Nat} {input : List UInt8}
    {bytes : α → List UInt8}
    (takes : ∀ {ip dst buffer item}, fits buffer → dst < room → Ahead input ip (bytes item) →
      ∃ buffer', takeOne ip dst buffer = .ok (ip + (bytes item).length, buffer') ∧
        Puts shows fits dst item buffer buffer')
    {items produced : List α} {ip : Nat} {buffer : β} (filled : Filled shows buffer produced)
    (fit : fits buffer) (ahead : Ahead input ip (items.flatMap bytes))
    (inside : produced.length + items.length ≤ room) :
    ∃ buffer', takeRun takeOne items.length ip produced.length buffer =
        .ok (ip + (items.flatMap bytes).length, buffer') ∧
      fits buffer' ∧ Filled shows buffer' (produced ++ items) := by
  induction items generalizing produced ip buffer with
  | nil =>
      rw [List.append_nil]
      exact ⟨buffer, rfl, fit, filled⟩
  | cons item rest ih =>
      rw [List.flatMap_cons] at ahead ⊢
      rw [List.length_cons] at inside
      obtain ⟨here, behind⟩ := ahead.split
      obtain ⟨next, took, puts⟩ := takes fit (show produced.length < room by omega) here
      have longer : (produced ++ [item]).length = produced.length + 1 := by
        rw [List.length_append, List.length_singleton]
      obtain ⟨buffer', ran, fit', filled'⟩ :=
        ih (filled.push puts) puts.fits behind (by rw [longer]; omega)
      rw [List.append_assoc, List.singleton_append] at filled'
      refine ⟨buffer', ?_, fit', filled'⟩
      rw [List.length_cons, takeRun, Program.bind_ok took]
      rw [longer, Nat.add_assoc, ← List.length_append] at ran
      exact ran

theorem copyRun_ok {copyOne : Nat → Nat → β → Except φ β} {room : Nat}
    (copies : ∀ {src dst buffer item}, fits buffer → dst < room → shows buffer src item →
      ∃ buffer', copyOne src dst buffer = .ok buffer' ∧ Puts shows fits dst item buffer buffer')
    {dist len : Nat} {produced result : List α} {buffer : β} (filled : Filled shows buffer produced)
    (fit : fits buffer) (back : dist ≤ produced.length)
    (copied : copyBack dist len produced = some result) (inside : result.length ≤ room) :
    ∃ buffer', copyRun copyOne (produced.length - dist) produced.length len buffer = .ok buffer' ∧
      fits buffer' ∧ Filled shows buffer' result := by
  induction len generalizing produced buffer with
  | zero =>
      cases copied
      exact ⟨buffer, rfl, fit, filled⟩
  | succ len ih =>
      have total := copyBack_length copied
      rw [copyBack] at copied
      cases found : produced[produced.length - dist]? with
      | none =>
          rw [found] at copied
          cases copied
      | some item =>
          rw [found] at copied
          obtain ⟨next, wrote, puts⟩ :=
            copies fit (show produced.length < room by omega) (filled _ item found)
          have longer : (produced ++ [item]).length = produced.length + 1 := by
            rw [List.length_append, List.length_singleton]
          obtain ⟨buffer', ran, fit', filled'⟩ :=
            ih (filled.push puts) puts.fits (by rw [longer]; omega) copied
          refine ⟨buffer', ?_, fit', filled'⟩
          rw [copyRun, Program.bind_ok wrote]
          rw [longer, show produced.length + 1 - dist = produced.length - dist + 1 by omega] at ran
          exact ran

theorem copyRun_fits {copyOne : Nat → Nat → β → Except φ β} {room : Nat}
    (copies : ∀ {src dst buffer}, fits buffer → src < room → dst < room →
      ∃ buffer', copyOne src dst buffer = .ok buffer' ∧ fits buffer')
    {src dst len : Nat} {buffer : β} (fit : fits buffer) (source : src + len ≤ room)
    (target : dst + len ≤ room) :
    ∃ buffer', copyRun copyOne src dst len buffer = .ok buffer' ∧ fits buffer' := by
  induction len generalizing src dst buffer with
  | zero => exact ⟨buffer, rfl, fit⟩
  | succ len ih =>
      obtain ⟨next, wrote, fitNext⟩ := copies fit (by omega : src < room) (by omega : dst < room)
      obtain ⟨last, ran, fitLast⟩ := @ih (src + 1) (dst + 1) next fitNext (by omega) (by omega)
      refine ⟨last, ?_, fitLast⟩
      rw [copyRun, Program.bind_ok wrote]
      exact ran

theorem takeRun_fits {takeOne : Nat → Nat → β → Except φ (Nat × β)} {room size : Nat}
    {input : List UInt8}
    (takes : ∀ {ip dst buffer bytes}, fits buffer → dst < room → bytes.length = size →
      Ahead input ip bytes → ∃ buffer', takeOne ip dst buffer = .ok (ip + size, buffer') ∧
        fits buffer')
    {count ip dst : Nat} {buffer : β} {bytes : List UInt8} (fit : fits buffer)
    (inside : dst + count ≤ room) (whole : bytes.length = size * count)
    (ahead : Ahead input ip bytes) :
    ∃ buffer', takeRun takeOne count ip dst buffer = .ok (ip + bytes.length, buffer') ∧
      fits buffer' := by
  induction count generalizing ip dst buffer bytes with
  | zero =>
      rw [whole]
      exact ⟨buffer, rfl, fit⟩
  | succ count ih =>
      rw [Nat.mul_succ] at whole
      have first : (bytes.take size).length = size := by
        rw [List.length_take]
        omega
      rw [← List.take_append_drop size bytes] at ahead
      obtain ⟨here, behind⟩ := ahead.split
      rw [first] at behind
      obtain ⟨next, took, fitNext⟩ := takes fit (by omega : dst < room) first here
      have rest : (bytes.drop size).length = size * count := by
        rw [List.length_drop]
        omega
      obtain ⟨last, ran, fitLast⟩ := @ih (ip + size) (dst + 1) next _ fitNext (by omega) rest behind
      have position : ip + size + (bytes.drop size).length = ip + bytes.length := by
        rw [rest]
        omega
      rw [position] at ran
      refine ⟨last, ?_, fitLast⟩
      rw [takeRun, Program.bind_ok took]
      exact ran

theorem takeRun_within {ε : Type} {takeOne : Nat → Nat → β → Except (Program.Fault ε) (Nat × β)}
    {room size : Nat} {input : List UInt8} {hurt : Prop}
    (takes : ∀ {ip dst buffer}, fits buffer → dst < room →
      Program.Within (takeOne ip dst buffer)
        (fun result => fits result.2 ∧ result.1 = ip + size ∧
          ∃ bytes, bytes.length = size ∧ Ahead input ip bytes) hurt)
    {count ip dst : Nat} {buffer : β} (fit : fits buffer) (inside : dst + count ≤ room) :
    Program.Within (takeRun takeOne count ip dst buffer)
      (fun result => fits result.2 ∧ result.1 = ip + size * count ∧
        ∃ bytes, bytes.length = size * count ∧ Ahead input ip bytes) hurt := by
  induction count generalizing ip dst buffer with
  | zero => exact ⟨fit, rfl, [], rfl, List.nil_prefix⟩
  | succ count ih =>
      rw [takeRun]
      refine (takes fit (by omega)).bind ?_
      rintro ⟨behind, next⟩ ⟨fitNext, position, first, firstLength, here⟩
      dsimp only at fitNext position ⊢
      subst position
      refine (@ih (ip + size) (dst + 1) next fitNext (by omega)).weaken ?_ id
      rintro ⟨last, result⟩ ⟨fitLast, position, rest, restLength, later⟩
      refine ⟨fitLast, ?_, first ++ rest, ?_, ?_⟩
      · rw [position, Nat.mul_succ]
        omega
      · rw [List.length_append, firstLength, restLength, Nat.mul_succ, Nat.add_comm]
      · rw [← firstLength] at later
        exact here.append later

theorem takeRun_shows {ε : Type} {takeOne : Nat → Nat → β → Except (Program.Fault ε) (Nat × β)}
    {room : Nat} {input : List UInt8} {bytes : α → List UInt8} {hurt : Prop}
    (takes : ∀ {ip dst buffer}, fits buffer → dst < room →
      Program.Within (takeOne ip dst buffer)
        (fun result => ∃ item, Ahead input ip (bytes item) ∧
          result.1 = ip + (bytes item).length ∧ Puts shows fits dst item buffer result.2) hurt)
    {count ip : Nat} {produced : List α} {buffer : β} (filled : Filled shows buffer produced)
    (fit : fits buffer) (inside : produced.length + count ≤ room) :
    Program.Within (takeRun takeOne count ip produced.length buffer)
      (fun result => ∃ items, items.length = count ∧ Ahead input ip (items.flatMap bytes) ∧
        result.1 = ip + (items.flatMap bytes).length ∧ fits result.2 ∧
        Filled shows result.2 (produced ++ items)) hurt := by
  induction count generalizing produced ip buffer with
  | zero =>
      refine ⟨[], rfl, List.nil_prefix, rfl, fit, ?_⟩
      rw [List.append_nil]
      exact filled
  | succ count ih =>
      rw [takeRun]
      refine (takes fit (by omega)).bind ?_
      intro taken there
      obtain ⟨item, here, position, puts⟩ := there
      have longer : (produced ++ [item]).length = produced.length + 1 := by
        rw [List.length_append, List.length_singleton]
      have rest := @ih taken.1 (produced ++ [item]) taken.2 (filled.push puts) puts.fits
        (by rw [longer]; omega)
      rw [longer] at rest
      refine rest.weaken ?_ id
      intro last reached
      obtain ⟨items, few, behind, positionEnd, fitEnd, filledEnd⟩ := reached
      rw [position] at behind
      rw [List.append_assoc, List.singleton_append] at filledEnd
      refine ⟨item :: items, congrArg Nat.succ few, ?_, ?_, fitEnd, filledEnd⟩
      · rw [List.flatMap_cons]
        exact here.append behind
      · rw [positionEnd, position, List.flatMap_cons, List.length_append, Nat.add_assoc]

theorem copyRun_returns {copyOne : Nat → Nat → β → Except φ β}
    (copies : ∀ src dst buffer, fits buffer → Program.Returns (copyOne src dst buffer) fits)
    {src dst len : Nat} {buffer : β} (fit : fits buffer) :
    Program.Returns (copyRun copyOne src dst len buffer) fits := by
  induction len generalizing src dst buffer with
  | zero => exact .ok fit
  | succ len ih => exact (copies src dst buffer fit).bind fun next fitNext => ih fitNext

theorem takeRun_returns {takeOne : Nat → Nat → β → Except φ (Nat × β)}
    (takes : ∀ ip dst buffer, fits buffer →
      Program.Returns (takeOne ip dst buffer) fun result => fits result.2)
    {count ip dst : Nat} {buffer : β} (fit : fits buffer) :
    Program.Returns (takeRun takeOne count ip dst buffer) fun result => fits result.2 := by
  induction count generalizing ip dst buffer with
  | zero => exact .ok fit
  | succ count ih => exact (takes ip dst buffer fit).bind fun result fitNext => ih fitNext

/-! ### The main loop -/

/-- The position in the input, the number of items written, and the output. -/
structure Cursor (β : Type) where
  ip : Nat
  op : Nat
  out : β
  deriving DecidableEq, Repr

def decodeLoop (step : Cursor β → Except φ (Cursor β)) (outOfFuel : φ) (total : Nat) :
    Nat → Cursor β → Except φ (Cursor β)
  | 0, _ => .error outOfFuel
  | fuel + 1, cursor =>
      if cursor.op < total then do
        let cursor ← step cursor
        decodeLoop step outOfFuel total fuel cursor
      else .ok cursor

theorem decodeLoop_returns {step : Cursor β → Except φ (Cursor β)} {outOfFuel : φ} {total : Nat}
    {fits : β → Prop}
    (steps : ∀ cursor, fits cursor.out → Program.Returns (step cursor) fun next => fits next.out)
    {fuel : Nat} {cursor : Cursor β} (fit : fits cursor.out) :
    Program.Returns (decodeLoop step outOfFuel total fuel cursor) fun last => fits last.out := by
  induction fuel generalizing cursor with
  | zero => exact .error _
  | succ fuel ih =>
      rw [decodeLoop]
      refine .ite (fun _more => ?_) fun _done => .ok fit
      exact (steps cursor fit).bind fun next fitNext => ih fitNext

/-- Where the steps of the loop start. -/
def visited (step : Cursor β → Except φ (Cursor β)) (total : Nat) :
    Nat → Cursor β → List (Cursor β)
  | 0, _ => []
  | fuel + 1, cursor =>
      if cursor.op < total then
        cursor ::
          match step cursor with
          | .ok next => visited step total fuel next
          | .error _ => []
      else []

theorem decodeLoop_congr {step step' : Cursor β → Except φ (Cursor β)} {outOfFuel : φ}
    {total fuel : Nat} {cursor : Cursor β}
    (same : ∀ reached ∈ visited step total fuel cursor, step reached = step' reached) :
    decodeLoop step outOfFuel total fuel cursor = decodeLoop step' outOfFuel total fuel cursor := by
  induction fuel generalizing cursor with
  | zero => rfl
  | succ fuel ih =>
      rw [decodeLoop, decodeLoop]
      by_cases more : cursor.op < total
      · rw [visited, if_pos more] at same
        have first := same cursor List.mem_cons_self
        rw [if_pos more, if_pos more, ← first]
        cases stepped : step cursor with
        | error fault => rfl
        | ok next =>
            rw [stepped] at same
            exact ih fun reached member => same reached (List.mem_cons_of_mem cursor member)
      · rw [if_neg more, if_neg more]

theorem decodeLoop_follows {step step' : Cursor β → Except φ (Cursor β)} {outOfFuel : φ}
    {total fuel : Nat} {cursor last : Cursor β}
    (follows : ∀ cursor next, step cursor = .ok next → step' cursor = .ok next)
    (ran : decodeLoop step outOfFuel total fuel cursor = .ok last) :
    decodeLoop step' outOfFuel total fuel cursor = .ok last := by
  induction fuel generalizing cursor with
  | zero => cases ran
  | succ fuel ih =>
      rw [decodeLoop] at ran ⊢
      by_cases more : cursor.op < total
      · rw [if_pos more] at ran ⊢
        obtain ⟨next, stepped, rest⟩ := Program.bind_eq_ok.mp ran
        rw [Program.bind_ok (follows cursor next stepped)]
        exact ih rest
      · rw [if_neg more] at ran ⊢
        exact ran

/-- The decoder has written exactly what has been produced. -/
structure Reached (shows : β → Nat → α → Prop) (fits : β → Prop) (cursor : Cursor β)
    (produced : List α) : Prop where
  op : cursor.op = produced.length
  fits : fits cursor.out
  filled : Filled shows cursor.out produced

section Loop

variable {step : Cursor β → Except φ (Cursor β)} {total : Nat} {input : List UInt8}
  {encodes : τ → List UInt8 → Prop} {extend : List α → τ → Option (List α)}

/-- What a decoder owes for each token: from where it has written what was produced
it reads the encoding and writes what the token appends. -/
def Decodes (step : Cursor β → Except φ (Cursor β)) (total : Nat) (input : List UInt8)
    (shows : β → Nat → α → Prop) (fits : β → Prop) (encodes : τ → List UInt8 → Prop)
    (extend : List α → τ → Option (List α)) : Prop :=
  ∀ token bytes produced longer cursor, encodes token bytes →
    extend produced token = some longer → longer.length ≤ total →
    Reached shows fits cursor produced → Ahead input cursor.ip bytes →
    ∃ cursor', step cursor = .ok cursor' ∧ cursor'.ip = cursor.ip + bytes.length ∧
      Reached shows fits cursor' longer

/-- A token appends something and takes some bytes. -/
def Grows (encodes : τ → List UInt8 → Prop) (extend : List α → τ → Option (List α)) : Prop :=
  ∀ token bytes produced longer, encodes token bytes → extend produced token = some longer →
    produced.length < longer.length ∧ 0 < bytes.length

/-- The tokens that are there at a position of the input, one behind the other, until enough
items are produced. -/
inductive Parse (encodes : τ → List UInt8 → Prop) (extend : List α → τ → Option (List α))
    (total : Nat) (input : List UInt8) : Nat → List α → List τ → Nat → List α → Prop
  | done {ip : Nat} {produced : List α} (full : total ≤ produced.length) :
      Parse encodes extend total input ip produced [] ip produced
  | token {ip last : Nat} {produced longer result : List α} {token : τ} {bytes : List UInt8}
      {rest : List τ} (more : produced.length < total) (encoded : encodes token bytes)
      (ahead : Ahead input ip bytes) (extended : extend produced token = some longer)
      (inside : longer.length ≤ total)
      (behind : Parse encodes extend total input (ip + bytes.length) longer rest last result) :
      Parse encodes extend total input ip produced (token :: rest) last result

def PrefixFree (encodes : τ → List UInt8 → Prop) : Prop :=
  ∀ token token' bytes bytes' input ip, encodes token bytes → encodes token' bytes' →
    Ahead input ip bytes → Ahead input ip bytes' → token = token' ∧ bytes = bytes'

section Parse

variable {ip last last' : Nat} {produced result result' : List α} {tokens tokens' : List τ}

theorem Parse.size (parse : Parse encodes extend total input ip produced tokens last result)
    (start : produced.length ≤ total) : result.length = total := by
  induction parse with
  | done full => exact Nat.le_antisymm start full
  | token _more _encoded _ahead _extended inside _behind ih => exact ih inside

theorem Parse.expanded (parse : Parse encodes extend total input ip produced tokens last result) :
    expandBy extend produced tokens = some result := by
  induction parse with
  | done _full => rfl
  | token _more _encoded _ahead extended _inside _behind ih =>
      rw [expandBy, extended]
      exact ih

theorem Parse.encoded (parse : Parse encodes extend total input ip produced tokens last result) :
    ∃ pieces, List.Forall₂ encodes tokens pieces ∧ Ahead input ip pieces.flatten ∧
      last = ip + pieces.flatten.length := by
  induction parse with
  | done _full => exact ⟨[], .nil, List.nil_prefix, rfl⟩
  | token _more encoded ahead _extended _inside _behind ih =>
      obtain ⟨pieces, others, later, position⟩ := ih
      refine ⟨_ :: pieces, .cons encoded others, ahead.append later, ?_⟩
      rw [position, List.flatten_cons, List.length_append, Nat.add_assoc]

theorem Parse.unique (unique : PrefixFree encodes)
    (parse : Parse encodes extend total input ip produced tokens last result)
    (parse' : Parse encodes extend total input ip produced tokens' last' result') :
    tokens = tokens' := by
  induction parse generalizing tokens' with
  | done full =>
      cases parse' with
      | done _full => rfl
      | token more _encoded _ahead _extended _inside _behind =>
          exact absurd more (Nat.not_lt.mpr full)
  | token more encoded ahead extended _inside _behind ih =>
      cases parse' with
      | done full => exact absurd more (Nat.not_lt.mpr full)
      | token _more encoded' ahead' extended' _inside' behind' =>
          obtain ⟨sameToken, sameBytes⟩ := unique _ _ _ _ _ _ encoded encoded' ahead ahead'
          subst sameToken
          subst sameBytes
          rw [extended] at extended'
          cases extended'
          rw [ih behind']

theorem Parse.congr {extend' : List α → τ → Option (List α)}
    (parse : Parse encodes extend total input ip produced tokens last result)
    (same : ∀ token ∈ tokens, ∀ produced, extend produced token = extend' produced token) :
    Parse encodes extend' total input ip produced tokens last result := by
  induction parse with
  | done full => exact .done full
  | token more encoded ahead extended inside _behind ih =>
      rw [same _ List.mem_cons_self] at extended
      exact .token more encoded ahead extended inside
        (ih fun other member => same other (List.mem_cons_of_mem _ member))

/-- A decoder reads a parse to its end. -/
theorem decodeLoop_parse (outOfFuel : φ)
    (decodes : Decodes step total input shows fits encodes extend)
    (some : ∀ token bytes, encodes token bytes → bytes ≠ []) {cursor : Cursor β} {fuel : Nat}
    (parse : Parse encodes extend total input cursor.ip produced tokens last result)
    (reached : Reached shows fits cursor produced) (enough : input.length < cursor.ip + fuel)
    (positive : 0 < fuel) :
    ∃ cursor', decodeLoop step outOfFuel total fuel cursor = .ok cursor' ∧ cursor'.ip = last ∧
      Reached shows fits cursor' result := by
  generalize start : cursor.ip = ip at parse
  induction parse generalizing cursor fuel with
  | done full =>
      obtain ⟨fuel, rfl⟩ := Nat.exists_eq_succ_of_ne_zero (Nat.ne_of_gt positive)
      refine ⟨cursor, ?_, start, reached⟩
      rw [decodeLoop, if_neg (by rw [reached.op]; exact Nat.not_lt.mpr full)]
  | token more encoded ahead extended inside _behind ih =>
      obtain ⟨fuel, rfl⟩ := Nat.exists_eq_succ_of_ne_zero (Nat.ne_of_gt positive)
      rw [← start] at ahead
      obtain ⟨next, stepped, position, reached'⟩ :=
        decodes _ _ _ _ _ encoded extended inside reached ahead
      have present := some _ _ encoded
      have room := ahead.inside present
      have longer := List.length_pos_iff.mpr present
      obtain ⟨cursor', ran, ended, reachedEnd⟩ :=
        @ih next fuel reached' (by omega) (by omega) (by rw [position, start])
      refine ⟨cursor', ?_, ended, reachedEnd⟩
      rw [decodeLoop, if_pos (by rw [reached.op]; exact more), Program.bind_ok stepped]
      exact ran

/-- A decoder whose every step finds a token, or stops, finds a parse. -/
theorem decodeLoop_within {ε : Type} {hurt : Prop}
    {step : Cursor β → Except (Program.Fault ε) (Cursor β)}
    (decodes : Decodes step total input shows fits encodes extend)
    (some : ∀ token bytes, encodes token bytes → bytes ≠ [])
    (finds : ∀ cursor produced, Reached shows fits cursor produced → produced.length < total →
      Program.Within (step cursor)
        (fun _ => ∃ token bytes longer, encodes token bytes ∧ Ahead input cursor.ip bytes ∧
          extend produced token = .some longer ∧ longer.length ≤ total) hurt)
    {cursor : Cursor β} {fuel : Nat} (reached : Reached shows fits cursor produced)
    (enough : input.length < cursor.ip + fuel) (positive : 0 < fuel) :
    Program.Within (decodeLoop step .fuel total fuel cursor)
      (fun last => ∃ tokens result,
        Parse encodes extend total input cursor.ip produced tokens last.ip result ∧
        Reached shows fits last result) hurt := by
  induction fuel generalizing cursor produced with
  | zero => exact absurd positive (Nat.lt_irrefl 0)
  | succ fuel ih =>
      rw [decodeLoop]
      by_cases more : produced.length < total
      · rw [if_pos (by rw [reached.op]; exact more)]
        have found := finds cursor produced reached more
        cases stepped : step cursor with
        | error fault =>
            rw [stepped] at found
            cases fault with
            | error reason => exact trivial
            | panic kind => exact found
            | fuel => exact found.elim
        | ok next =>
            rw [stepped] at found
            obtain ⟨token, bytes, longer, encoded, ahead, extended, inside⟩ := found
            obtain ⟨next', again, position, reached'⟩ :=
              decodes _ _ _ _ _ encoded extended inside reached ahead
            rw [stepped] at again
            cases again
            have present := some _ _ encoded
            have room := ahead.inside present
            have grown := List.length_pos_iff.mpr present
            refine (@ih longer next reached' (by omega) (by omega)).weaken ?_ id
            intro last behind
            obtain ⟨tokens, result, parse, reachedEnd⟩ := behind
            rw [position] at parse
            exact ⟨token :: tokens, result,
              .token more encoded ahead extended inside parse, reachedEnd⟩
      · rw [if_neg (by rw [reached.op]; exact more)]
        exact ⟨[], produced, .done (Nat.not_lt.mp more), reached⟩

end Parse

theorem expandBy_length_le (grows : Grows encodes extend) {tokens : List τ}
    {pieces : List (List UInt8)} {produced result : List α}
    (encoded : List.Forall₂ encodes tokens pieces)
    (expanded : expandBy extend produced tokens = some result) :
    produced.length ≤ result.length := by
  induction encoded generalizing produced with
  | nil =>
      cases expanded
      exact Nat.le_refl _
  | cons first _rest ih =>
      obtain ⟨longer, extended, expandedRest⟩ := expandBy_cons expanded
      exact Nat.le_trans (Nat.le_of_lt (grows _ _ _ _ first extended).1) (ih expandedRest)

theorem Parse.of_expanded (grows : Grows encodes extend) {tokens : List τ}
    {pieces : List (List UInt8)} {produced result : List α} {ip : Nat}
    (encoded : List.Forall₂ encodes tokens pieces)
    (expanded : expandBy extend produced tokens = some result) (size : result.length = total)
    (ahead : Ahead input ip pieces.flatten) :
    Parse encodes extend total input ip produced tokens (ip + pieces.flatten.length) result := by
  induction encoded generalizing produced ip with
  | nil =>
      cases expanded
      exact .done (Nat.le_of_eq size.symm)
  | cons first rest ih =>
      obtain ⟨longer, extended, expandedRest⟩ := expandBy_cons expanded
      have forward := grows _ _ _ _ first extended
      have bound := expandBy_length_le grows rest expandedRest
      rw [List.flatten_cons] at ahead
      obtain ⟨here, behind⟩ := ahead.split
      have later := ih expandedRest behind
      rw [Nat.add_assoc, ← List.length_append] at later
      rw [List.flatten_cons]
      exact .token (by omega) first here extended (by omega) later

theorem decodeLoop_ok (outOfFuel : φ) (decodes : Decodes step total input shows fits encodes extend)
    (grows : Grows encodes extend) (some : ∀ token bytes, encodes token bytes → bytes ≠ [])
    {tokens : List τ} {pieces : List (List UInt8)} {produced result : List α} {cursor : Cursor β}
    {fuel : Nat} (encoded : List.Forall₂ encodes tokens pieces)
    (expanded : expandBy extend produced tokens = .some result) (size : result.length = total)
    (reached : Reached shows fits cursor produced) (ahead : Ahead input cursor.ip pieces.flatten)
    (enough : input.length < cursor.ip + fuel) (positive : 0 < fuel) :
    ∃ cursor', decodeLoop step outOfFuel total fuel cursor = .ok cursor' ∧
      cursor'.ip = cursor.ip + pieces.flatten.length ∧ Reached shows fits cursor' result :=
  decodeLoop_parse outOfFuel decodes some (Parse.of_expanded grows encoded expanded size ahead)
    reached enough positive

end Loop

end Buffer

end Lz77
