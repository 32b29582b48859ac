/-
What a session's dictionary holds after any run: the newest part of its history that is
within the budget.
-/

import Capsaicin.Glz.Window
import Capsaicin.Library.Recency

namespace Capsaicin.Glz

open Recency (total without push trim)

/-! ### Runs in any order of iteration -/

inductive WindowOp where
  | insert (id : Nat) (pixels : List UInt8) (bpp : Nat)
  | clear
  deriving DecidableEq, Repr

abbrev Item := Nat × WindowEntry

def itemSize (item : Item) : Nat := item.2.pixels.length

namespace GlzWindow

def Over (window : GlzWindow) : Prop :=
  window.bytesUsed > window.capacityBytes ∧ 1 < window.images.entries.length

/-- The eviction loop, where the map may be iterated in any order: the victim is one of
the entries with the least number. Each `saturating_sub` leaves its two sides behind. -/
inductive Evicts : GlzWindow → List (Nat × Nat) → GlzWindow → Prop where
  | stop {window} : ¬ window.Over → Evicts window [] window
  | drop {window victim entry subs last} :
      window.Over → window.get victim = some entry →
        (∀ other entry', window.get other = some entry' → entry.seq ≤ entry'.seq) →
          Evicts (window.remove victim) subs last →
            Evicts window ((window.bytesUsed, entry.pixels.length) :: subs) last

def store (window : GlzWindow) (id : Nat) (pixels : List UInt8) (bpp : Nat) : GlzWindow where
  images := (window.remove id).images.insert id
    { pixels := pixels
      bpp := bpp
      seq := window.nextSeq }
  bytesUsed := (window.remove id).bytesUsed + pixels.length
  capacityBytes := window.capacityBytes
  nextSeq := (window.nextSeq + 1) % 2 ^ 64

def replaced (window : GlzWindow) (id : Nat) : List (Nat × Nat) :=
  match window.get id with
  | some old => [(window.bytesUsed, old.pixels.length)]
  | none => []

inductive Runs : GlzWindow → List WindowOp → List (Nat × Nat) → GlzWindow → Prop where
  | nil (window) : Runs window [] [] window
  | insert {window id pixels bpp subs next ops more last} :
      Evicts (window.store id pixels bpp) subs next → Runs next ops more last →
        Runs window (.insert id pixels bpp :: ops) (window.replaced id ++ subs ++ more) last
  | clear {window ops subs last} :
      Runs window.clear ops subs last → Runs window (.clear :: ops) subs last

/-! ### The order of the model -/

def apply (window : GlzWindow) : WindowOp → GlzWindow
  | .insert id pixels bpp => window.insert id pixels bpp
  | .clear => window.clear

section Order

variable {window : GlzWindow} {id : Nat} {entry : WindowEntry}

theorem length_remove (present : window.get id = some entry) :
    (window.remove id).images.entries.length + 1 = window.images.entries.length := by
  rw [get] at present
  rw [remove, present]
  have member : id ∈ window.images.keys := AList.lookup_isSome.mp (by rw [present]; rfl)
  have lengths : ∀ images : AList fun _ : Nat => WindowEntry,
      images.entries.length = images.keys.length := fun images => (List.length_map _).symm
  rw [lengths, lengths, AList.keys_erase, List.length_erase_of_mem member]
  exact Nat.sub_add_cancel (List.length_pos_of_mem member)

theorem get_of_mem {item : Sigma fun _ : Nat => WindowEntry}
    (member : item ∈ window.images.entries) : window.get item.1 = some item.2 :=
  AList.mem_lookup_iff.mpr member

theorem oldest_least {victim : Nat} (oldest : window.oldest = some victim) :
    ∃ entry, window.get victim = some entry ∧
      ∀ other entry', window.get other = some entry' → entry.seq ≤ entry'.seq := by
  obtain ⟨item, least, rfl⟩ := Option.map_eq_some_iff.mp oldest
  refine ⟨item.2, get_of_mem (List.argmin_mem least), ?_⟩
  intro other entry' present
  have member : ⟨other, entry'⟩ ∈ window.images.entries := AList.mem_lookup_iff.mp present
  exact @List.le_of_mem_argmin _ _ _ (fun entry => entry.2.seq) _ _ _ member least

theorem oldest_some (several : 1 < window.images.entries.length) :
    ∃ victim, window.oldest = some victim := by
  unfold oldest
  cases found : window.images.entries.argmin fun entry => entry.2.seq with
  | none =>
      rw [List.argmin_eq_none] at found
      rw [found] at several
      cases several
  | some item => exact ⟨item.1, rfl⟩

theorem evict_evicts {fuel : Nat} (enough : window.images.entries.length ≤ fuel) :
    ∃ subs, Evicts window subs (evict fuel window) := by
  induction fuel generalizing window with
  | zero =>
      refine ⟨[], .stop ?_⟩
      rintro ⟨_heavy, several⟩
      omega
  | succ fuel ih =>
      by_cases full : window.Over
      · obtain ⟨victim, oldest⟩ := oldest_some full.2
        obtain ⟨entry, present, least⟩ := oldest_least oldest
        have shorter := length_remove present
        obtain ⟨subs, evicts⟩ := @ih (window.remove victim) (by omega)
        refine ⟨(window.bytesUsed, entry.pixels.length) :: subs, .drop full present least ?_⟩
        have goesOn : evict (fuel + 1) window = evict fuel (window.remove victim) := by
          rw [evict, oldest]
          exact if_pos full
        rw [goesOn]
        exact evicts
      · have calm : evict (fuel + 1) window = window := if_neg full
        rw [calm]
        exact ⟨[], .stop full⟩

/-- The model of an insertion is one of its runs. -/
theorem insert_evicts (window : GlzWindow) (id : Nat) (pixels : List UInt8) (bpp : Nat) :
    ∃ subs, Evicts (window.store id pixels bpp) subs (window.insert id pixels bpp) := by
  apply evict_evicts
  change ((window.remove id).images.insert id _).entries.length ≤ _
  rw [AList.entries_insert, List.length_cons]
  exact Nat.succ_le_succ (List.kerase_sublist id _).length_le

theorem runs_exec (window : GlzWindow) (ops : List WindowOp) :
    ∃ subs, Runs window ops subs (ops.foldl apply window) := by
  induction ops generalizing window with
  | nil => exact ⟨[], .nil window⟩
  | cons op ops ih =>
      cases op with
      | insert id pixels bpp =>
          obtain ⟨first, evicts⟩ := insert_evicts window id pixels bpp
          obtain ⟨rest, runs⟩ := ih (window.insert id pixels bpp)
          exact ⟨_, .insert evicts runs⟩
      | clear =>
          obtain ⟨rest, runs⟩ := ih window.clear
          exact ⟨rest, .clear runs⟩

end Order

/-! ### The same as a queue -/

/-- A window holds the items of a queue, numbered in their order. -/
structure Tracks (window : GlzWindow) (next : Nat) (queue : List Item) : Prop where
  mem : ∀ id entry, window.get id = some entry ↔ (id, entry) ∈ queue
  keys : (queue.map Prod.fst).Nodup
  sorted : queue.Pairwise fun first second => first.2.seq < second.2.seq
  numbered : ∀ item ∈ queue, item.2.seq < next
  nextSeq : window.nextSeq = next
  bytes : window.bytesUsed = total itemSize queue

section Tracks

variable {window last : GlzWindow} {next id bpp : Nat} {queue before behind : List Item}
  {entry : WindowEntry} {pixels : List UInt8} {subs : List (Nat × Nat)}

theorem tracks_new (capacityBytes : Nat) : Tracks (new capacityBytes) 0 [] where
  mem := by simp [get, new]
  keys := List.nodup_nil
  sorted := List.Pairwise.nil
  numbered := by simp
  nextSeq := rfl
  bytes := rfl

theorem Tracks.clear (tracks : Tracks window next queue) : Tracks window.clear next [] where
  mem := by simp [get, GlzWindow.clear]
  keys := List.nodup_nil
  sorted := List.Pairwise.nil
  numbered := by simp
  nextSeq := tracks.nextSeq
  bytes := rfl

theorem Tracks.perm (tracks : Tracks window next queue) :
    (window.images.entries.map fun entry => (entry.1, entry.2)).Perm queue := by
  have once : (window.images.entries.map fun entry => (entry.1, entry.2)).Nodup := by
    refine (window.images.nodupKeys.nodup).map ?_
    rintro ⟨first, firstEntry⟩ ⟨second, secondEntry⟩ same
    cases same
    rfl
  rw [List.perm_ext_iff_of_nodup once (List.Nodup.of_map _ tracks.keys)]
  rintro ⟨other, found⟩
  rw [← tracks.mem other found, get, ← Option.mem_def, AList.mem_lookup_iff, List.mem_map]
  constructor
  · rintro ⟨⟨_, _⟩, member, same⟩
    cases same
    exact member
  · intro member
    exact ⟨⟨other, found⟩, member, rfl⟩

theorem Tracks.length (tracks : Tracks window next queue) :
    window.images.entries.length = queue.length := by
  rw [← tracks.perm.length_eq, List.length_map]

theorem remove_absent (absent : window.get id = none) : window.remove id = window := by
  rw [get] at absent
  rw [remove, absent]

theorem get_remove_of_ne {other : Nat} (different : other ≠ id) :
    (window.remove id).get other = window.get other := by
  unfold remove
  split
  · exact AList.lookup_erase_ne different
  · rfl

theorem get_remove_self : (window.remove id).get id = none := by
  unfold remove
  split
  · exact AList.lookup_erase id window.images
  · assumption

theorem Tracks.remove (tracks : Tracks window next queue) (present : window.get id = some entry) :
    Tracks (window.remove id) next (without Prod.fst queue id) ∧
      entry.pixels.length ≤ window.bytesUsed ∧
      (window.remove id).capacityBytes = window.capacityBytes := by
  obtain ⟨before, behind, rfl⟩ := List.append_of_mem ((tracks.mem id entry).mp present)
  have split : without Prod.fst (before ++ (id, entry) :: behind) id = before ++ behind :=
    Recency.without_split tracks.keys
  have removed : window.remove id =
      { window with
        images := window.images.erase id
        bytesUsed := window.bytesUsed - entry.pixels.length } := by
    rw [get] at present
    rw [GlzWindow.remove, present]
  have bytes := tracks.bytes
  rw [Recency.total_append, Recency.total_cons, itemSize] at bytes
  dsimp only at bytes
  refine ⟨⟨?_, Recency.keys_without tracks.keys, tracks.sorted.filter _, ?_, ?_, ?_⟩, ?_, ?_⟩
  · intro other entry'
    rw [Recency.mem_without]
    by_cases same : other = id
    · subst same
      rw [get_remove_self]
      exact iff_of_false (fun impossible => by cases impossible) (fun both => both.2 rfl)
    · rw [get_remove_of_ne same, tracks.mem other entry']
      exact (and_iff_left same).symm
  · intro item member
    exact tracks.numbered item (Recency.mem_without.mp member).1
  · rw [removed]
    exact tracks.nextSeq
  · rw [split, removed, Recency.total_append]
    dsimp only
    omega
  · omega
  · rw [removed]

theorem Tracks.store (tracks : Tracks window next queue) (few : next + 1 < 2 ^ 64) :
    Tracks (window.store id pixels bpp) (next + 1)
        (push Prod.fst queue (id, { pixels := pixels, bpp := bpp, seq := next })) ∧
      ∀ sub ∈ window.replaced id, sub.2 ≤ sub.1 := by
  have kept : Tracks (window.remove id) next (without Prod.fst queue id) ∧
      ∀ sub ∈ window.replaced id, sub.2 ≤ sub.1 := by
    unfold replaced
    cases present : window.get id with
    | none =>
        have absent : ∀ item ∈ queue, item.1 ≠ id := by
          rintro ⟨other, entry⟩ member rfl
          rw [(tracks.mem _ entry).mpr member] at present
          cases present
        rw [remove_absent present, Recency.without_absent absent]
        exact ⟨tracks, by simp⟩
    | some old =>
        obtain ⟨removed, within, _capacity⟩ := tracks.remove present
        exact ⟨removed, by simpa using within⟩
  obtain ⟨removed, within⟩ := kept
  refine ⟨⟨?_, Recency.keys_push tracks.keys, ?_, ?_, ?_, ?_⟩, within⟩
  · intro other entry
    rw [push, List.mem_append, List.mem_singleton, ← removed.mem other entry, ← tracks.nextSeq]
    unfold GlzWindow.store
    by_cases same : other = id
    · subst same
      rw [get_remove_self, get]
      dsimp only
      rw [AList.lookup_insert]
      simp [eq_comm]
    · rw [get]
      dsimp only
      rw [AList.lookup_insert_ne same]
      simp [get, same]
  · rw [push, List.pairwise_append]
    refine ⟨removed.sorted, List.pairwise_singleton _ _, ?_⟩
    intro item member newest isNewest
    rw [List.mem_singleton.mp isNewest]
    exact removed.numbered item member
  · intro item member
    rw [push, List.mem_append, List.mem_singleton] at member
    rcases member with old | rfl
    · exact Nat.lt_succ_of_lt (removed.numbered item old)
    · exact Nat.lt_succ_self next
  · change (window.nextSeq + 1) % 2 ^ 64 = next + 1
    rw [tracks.nextSeq]
    exact Nat.mod_eq_of_lt few
  · change (window.remove id).bytesUsed + pixels.length = _
    rw [removed.bytes, push, Recency.total_append]
    rfl

theorem Tracks.oldest {first : Item} {victim : Nat}
    (tracks : Tracks window next (first :: queue)) (present : window.get victim = some entry)
    (least : ∀ other entry', window.get other = some entry' → entry.seq ≤ entry'.seq) :
    first = (victim, entry) := by
  rcases List.mem_cons.mp ((tracks.mem victim entry).mp present) with front | later
  · exact front.symm
  · have before := (List.pairwise_cons.mp tracks.sorted).1 _ later
    have after := least first.1 first.2 ((tracks.mem first.1 first.2).mpr List.mem_cons_self)
    exact absurd before (Nat.not_lt.mpr after)

/-- Whatever the order of the map, the eviction loop trims the queue. -/
theorem Tracks.evicts (tracks : Tracks window next queue) (evicts : Evicts window subs last) :
    Tracks last next (trim itemSize window.capacityBytes queue) ∧
      last.capacityBytes = window.capacityBytes ∧ ∀ sub ∈ subs, sub.2 ≤ sub.1 := by
  induction evicts generalizing queue with
  | @stop window calm =>
      refine ⟨?_, rfl, by simp⟩
      unfold Over at calm
      rw [tracks.length, tracks.bytes] at calm
      by_cases short : queue.length ≤ 1
      · rw [Recency.trim_short short]
        exact tracks
      · rw [Recency.trim_all (by omega)]
        exact tracks
  | @drop window victim entry subs last full present least _evicts ih =>
      obtain ⟨heavy, several⟩ := full
      rw [tracks.length] at several
      rw [tracks.bytes] at heavy
      cases queue with
      | nil => cases several
      | cons first rest =>
          have front := tracks.oldest present least
          subst front
          have more : rest ≠ [] := by
            rintro rfl
            exact absurd several (Nat.lt_irrefl 1)
          have split : without Prod.fst ((victim, entry) :: rest) victim = rest :=
            @Recency.without_split _ _ _ Prod.fst [] rest (victim, entry) tracks.keys
          obtain ⟨removed, within, capacity⟩ := tracks.remove present
          rw [split] at removed
          obtain ⟨ended, sameCapacity, subsWithin⟩ := ih removed
          rw [Recency.trim_drop heavy more, ← capacity]
          refine ⟨ended, sameCapacity, ?_⟩
          rw [List.forall_mem_cons]
          exact ⟨within, subsWithin⟩

end Tracks

/-! ### One insertion -/

/-- The new image is there, next to others that were there before. They all stay when
there is room, and otherwise no more of them goes than has to. -/
structure Inserted (window last : GlzWindow) (id : Nat) (pixels : List UInt8) (bpp : Nat) :
    Prop where
  present : ∃ seq, last.get id = some { pixels := pixels, bpp := bpp, seq := seq }
  within : last.bytesUsed ≤ last.capacityBytes ∨ last.images.entries.length = 1
  others : ∀ other entry, other ≠ id → last.get other = some entry → window.get other = some entry
  fits : (window.remove id).bytesUsed + pixels.length ≤ window.capacityBytes →
    ∀ other, other ≠ id → last.get other = window.get other
  stops : ∀ victim entry, victim ≠ id → window.get victim = some entry → last.get victim = none →
    (∀ other newer, other ≠ id → window.get other = some newer → entry.seq < newer.seq →
      last.get other = some newer) →
        last.capacityBytes < last.bytesUsed + entry.pixels.length

section Insert

variable {window last : GlzWindow} {next id bpp : Nat} {queue : List Item} {pixels : List UInt8}
  {subs : List (Nat × Nat)}

theorem Tracks.absent {other : Nat} (tracks : Tracks window next queue)
    (gone : window.get other = none) : ∀ entry, (other, entry) ∉ queue := by
  intro entry member
  rw [(tracks.mem other entry).mpr member] at gone
  cases gone

private theorem mem_push {queue : List Item} {entry : WindowEntry} {other : Nat}
    {found : WindowEntry} (different : other ≠ id) :
    (other, found) ∈ push Prod.fst queue (id, entry) ↔ (other, found) ∈ queue := by
  rw [push, List.mem_append, List.mem_singleton, Recency.mem_without]
  constructor
  · rintro (⟨member, _⟩ | same)
    · exact member
    · exact absurd (congrArg Prod.fst same) different
  · intro member
    exact Or.inl ⟨member, different⟩

private theorem split_at_victim {whole kept : List Item} {victim : Item} {newest : WindowEntry}
    (keys : (whole.map Prod.fst).Nodup)
    (sorted : whole.Pairwise fun first second => first.2.seq < second.2.seq)
    (suffix : kept <:+ whole) (newestKept : (id, newest) ∈ kept) (member : victim ∈ whole)
    (gone : victim ∉ kept)
    (stay : ∀ item ∈ whole, item.1 ≠ id → victim.2.seq < item.2.seq → item ∈ kept) :
    ∃ front, whole = front ++ victim :: kept := by
  obtain ⟨front, rfl⟩ := suffix
  rw [List.map_append, List.nodup_append] at keys
  have apart : ∀ item ∈ front, ∀ other ∈ kept, item.1 ≠ other.1 := fun item early other late =>
    keys.2.2 _ (List.mem_map_of_mem early) _ (List.mem_map_of_mem late)
  obtain ⟨before, behind, rfl⟩ := List.append_of_mem ((List.mem_append.mp member).resolve_right gone)
  cases behind with
  | nil => exact ⟨before, by rw [List.append_assoc]; rfl⟩
  | cons item behind =>
      exfalso
      have early : item ∈ before ++ victim :: item :: behind := by simp
      have later : victim.2.seq < item.2.seq := by
        have tail := (List.pairwise_append.mp (List.pairwise_append.mp sorted).1).2.1
        exact (List.pairwise_cons.mp tail).1 item List.mem_cons_self
      have keptItem := stay item (List.mem_append_left _ early) (apart item early _ newestKept) later
      exact apart item early item keptItem rfl

theorem Tracks.insert (tracks : Tracks window next queue) (few : next + 1 < 2 ^ 64)
    (evicts : Evicts (window.store id pixels bpp) subs last) :
    Inserted window last id pixels bpp := by
  obtain ⟨stored, _within⟩ := @Tracks.store window next id bpp queue pixels tracks few
  obtain ⟨ended, capacity, _subs⟩ := stored.evicts evicts
  generalize newest : ({ pixels := pixels, bpp := bpp, seq := next } : WindowEntry) = entry at *
  generalize pushed : push Prod.fst queue (id, entry) = whole at *
  have suffix := @Recency.trim_suffix _ itemSize (window.store id pixels bpp).capacityBytes whole
  obtain ⟨front, newestLast⟩ : ∃ front,
      trim itemSize (window.store id pixels bpp).capacityBytes whole = front ++ [(id, entry)] := by
    rw [← pushed, push]
    exact Recency.trim_concat _ _
  have here : (id, entry) ∈ trim itemSize (window.store id pixels bpp).capacityBytes whole := by
    rw [newestLast]
    simp
  refine ⟨⟨next, ?_⟩, ?_, ?_, ?_, ?_⟩
  · rw [newest]
    exact (ended.mem id entry).mpr here
  · rw [ended.bytes, capacity, ended.length]
    rcases @Recency.trim_within _ itemSize (window.store id pixels bpp).capacityBytes whole with
      fits | single
    · exact Or.inl fits
    · refine Or.inr (Nat.le_antisymm single ?_)
      exact List.length_pos_of_mem here
  · intro other found different present
    have member := suffix.subset ((ended.mem other found).mp present)
    rw [← pushed, mem_push different] at member
    exact (tracks.mem other found).mpr member
  · intro room other different
    have all : trim itemSize (window.store id pixels bpp).capacityBytes whole = whole := by
      apply Recency.trim_all
      rw [← stored.bytes]
      exact room
    apply Option.ext
    intro found
    rw [ended.mem other found, all, ← pushed, mem_push different]
    exact (tracks.mem other found).symm
  · intro victim found different present gone stay
    have member : (victim, found) ∈ whole := by
      rw [← pushed, mem_push different]
      exact (tracks.mem victim found).mp present
    have newerStay : ∀ item ∈ whole, item.1 ≠ id → found.seq < item.2.seq →
        item ∈ trim itemSize (window.store id pixels bpp).capacityBytes whole := by
      rintro ⟨other, newer⟩ inWhole apart later
      rw [← pushed, mem_push apart] at inWhole
      exact (ended.mem other newer).mp
        (stay other newer apart ((tracks.mem other newer).mpr inWhole) later)
    obtain ⟨early, split⟩ := @split_at_victim id _ _ (victim, found) entry stored.keys
      stored.sorted suffix here member (ended.absent gone found) newerStay
    have heavy := Recency.trim_stops split
    rw [itemSize] at heavy
    rw [ended.bytes, capacity]
    dsimp only at heavy
    omega

end Insert

/-! ### Whole runs -/

/-- The next number and what was inserted last under each id since the last `clear`, in
the order of these insertions. -/
def note (state : Nat × List Item) : WindowOp → Nat × List Item
  | .insert id pixels bpp =>
      (state.1 + 1, push Prod.fst state.2 (id, { pixels := pixels, bpp := bpp, seq := state.1 }))
  | .clear => (state.1, [])

def lastInserted (ops : List WindowOp) : List Item := (ops.foldl note (0, [])).2

def inserts (ops : List WindowOp) : Nat := ops.countP fun op => op ≠ .clear

/-- What a window of some capacity tracks. -/
def remember (cap : Nat) (state : Nat × List Item) (op : WindowOp) : Nat × List Item :=
  ((note state op).1, trim itemSize cap (note state op).2)

section Runs

variable {window last : GlzWindow} {cap : Nat} {state state' : Nat × List Item}
  {ops : List WindowOp} {subs : List (Nat × Nat)}

theorem Tracks.runs (tracks : Tracks window state.1 state.2) (size : window.capacityBytes = cap)
    (few : state.1 + inserts ops < 2 ^ 64) (runs : Runs window ops subs last) :
    Tracks last (ops.foldl (remember cap) state).1 (ops.foldl (remember cap) state).2 ∧
      last.capacityBytes = cap ∧ ∀ sub ∈ subs, sub.2 ≤ sub.1 := by
  induction runs generalizing state with
  | nil window => exact ⟨tracks, size, by simp⟩
  | @insert window id pixels bpp subs next ops more last evicts _runs ih =>
      have one : inserts (.insert id pixels bpp :: ops) = inserts ops + 1 := by
        simp [inserts]
      rw [one] at few
      obtain ⟨stored, replaced⟩ :=
        @Tracks.store window state.1 id bpp state.2 pixels tracks (by omega)
      obtain ⟨ended, capacity, evicted⟩ := stored.evicts evicts
      have same : (window.store id pixels bpp).capacityBytes = cap := size
      rw [same] at ended capacity
      have rest := @ih (remember cap state (.insert id pixels bpp)) ended capacity (by
        simp only [remember, note]
        omega)
      refine ⟨rest.1, rest.2.1, ?_⟩
      intro sub member
      rcases List.mem_append.mp member with first | later
      · rcases List.mem_append.mp first with old | victim
        · exact replaced sub old
        · exact evicted sub victim
      · exact rest.2.2 sub later
  | @clear window ops subs last _runs ih =>
      have none : inserts (.clear :: ops) = inserts ops := by
        simp [inserts]
      rw [none] at few
      exact @ih (remember cap state .clear) tracks.clear size few

theorem remember_suffix (numbers : state.1 = state'.1) (suffix : state.2 <:+ state'.2) :
    (ops.foldl (remember cap) state).2 <:+ (ops.foldl note state').2 := by
  induction ops generalizing state state' with
  | nil => exact suffix
  | cons op ops ih =>
      refine ih ?_ ?_
      · cases op with
        | insert id pixels bpp => exact congrArg (· + 1) numbers
        | clear => exact numbers
      · refine (Recency.trim_suffix _).trans ?_
        cases op with
        | insert id pixels bpp =>
            rw [note, note, numbers]
            exact Recency.push_suffix suffix _
        | clear => exact List.suffix_rfl

theorem remember_count (ops : List WindowOp) :
    (ops.foldl (remember cap) state).1 = state.1 + inserts ops := by
  induction ops generalizing state with
  | nil => rfl
  | cons op ops ih =>
      rw [List.foldl_cons, ih]
      cases op with
      | insert id pixels bpp =>
          simp only [remember, note, inserts, ne_eq, reduceCtorEq, not_false_eq_true, decide_true,
            List.countP_cons_of_pos]
          omega
      | clear => simp [remember, note, inserts]

theorem Runs.insert_last {middle : GlzWindow} {id bpp : Nat} {pixels : List UInt8}
    {evicted : List (Nat × Nat)} (runs : Runs window ops subs middle)
    (evicts : Evicts (middle.store id pixels bpp) evicted last) :
    ∃ subs', Runs window (ops ++ [.insert id pixels bpp]) subs' last := by
  induction runs with
  | nil window => exact ⟨_, .insert evicts (.nil last)⟩
  | insert before _later ih =>
      rcases ih evicts with ⟨behind, later⟩
      exact ⟨_, .insert before later⟩
  | clear _later ih =>
      rcases ih evicts with ⟨behind, later⟩
      exact ⟨_, .clear later⟩

theorem runs_concat {op : WindowOp} (runs : Runs window (ops ++ [op]) subs last) :
    ∃ front back middle, Runs window ops front middle ∧ Runs middle [op] back last := by
  induction ops generalizing window subs with
  | nil => exact ⟨[], subs, window, .nil window, runs⟩
  | cons first ops ih =>
      cases runs with
      | insert evicts later =>
          obtain ⟨front, back, middle, before, behind⟩ := ih later
          exact ⟨_, back, middle, .insert evicts before, behind⟩
      | clear later =>
          obtain ⟨front, back, middle, before, behind⟩ := ih later
          exact ⟨front, back, middle, .clear before, behind⟩

/-- A window that starts empty tracks what its history remembers. -/
theorem Runs.tracks {capacity : Nat} (runs : Runs (new capacity) ops subs window)
    (few : inserts ops < 2 ^ 64) :
    Tracks window (ops.foldl (remember (max capacity 1024)) (0, [])).1
        (ops.foldl (remember (max capacity 1024)) (0, [])).2 ∧
      window.capacityBytes = max capacity 1024 ∧ ∀ sub ∈ subs, sub.2 ≤ sub.1 := by
  have start : Tracks (new capacity) (0, ([] : List Item)).1 (0, ([] : List Item)).2 :=
    tracks_new capacity
  have count : (0, ([] : List Item)).1 + inserts ops < 2 ^ 64 := by
    rw [Nat.zero_add]
    exact few
  exact start.runs (rfl : (new capacity).capacityBytes = max capacity 1024) count runs

theorem Runs.inserts_next {middle : GlzWindow} {capacity id bpp : Nat} {pixels : List UInt8}
    {evicted : List (Nat × Nat)} (runs : Runs (new capacity) ops subs middle)
    (few : inserts ops + 1 < 2 ^ 64) (evicts : Evicts (middle.store id pixels bpp) evicted last) :
    Inserted middle last id pixels bpp := by
  obtain ⟨tracks, _capacity, _within⟩ := runs.tracks (Nat.lt_of_succ_lt few)
  refine tracks.insert ?_ evicts
  rw [remember_count, Nat.zero_add]
  exact few

end Runs

/-- A window is the part of its history that is within its budget. Whatever order the map
is iterated in, the counter is exact, no subtraction saturates, and each insertion leaves
the new image and as many of the others as there is room for. -/
theorem window_exact {capacity : Nat} {ops : List WindowOp} {subs : List (Nat × Nat)}
    {window : GlzWindow} (few : inserts ops < 2 ^ 64) (runs : Runs (new capacity) ops subs window) :
    (∀ sub ∈ subs, sub.2 ≤ sub.1) ∧ window.capacityBytes = max capacity 1024 ∧
      window.bytesUsed = (window.images.entries.map fun entry => entry.2.pixels.length).sum ∧
      (∃ kept, kept <:+ lastInserted ops ∧
        ∀ id entry, window.get id = some entry ↔ (id, entry) ∈ kept) ∧
      (∀ others other, Runs (new capacity) ops others other →
        (∀ id, other.get id = window.get id) ∧ other.bytesUsed = window.bytesUsed ∧
          other.nextSeq = window.nextSeq) ∧
      ∀ before id pixels bpp, ops = before ++ [.insert id pixels bpp] →
        ∃ front prior, Runs (new capacity) before front prior ∧
          Inserted prior window id pixels bpp := by
  obtain ⟨tracks, capacityBytes, within⟩ := runs.tracks few
  refine ⟨within, capacityBytes, ?_, ⟨_, remember_suffix rfl List.suffix_rfl, tracks.mem⟩, ?_, ?_⟩
  · rw [tracks.bytes, total, ← (tracks.perm.map itemSize).sum_nat, List.map_map]
    rfl
  · intro others other ran
    obtain ⟨alike, _capacity, _within⟩ := ran.tracks few
    refine ⟨fun id => ?_, alike.bytes.trans tracks.bytes.symm,
      alike.nextSeq.trans tracks.nextSeq.symm⟩
    apply Option.ext
    intro entry
    rw [alike.mem id entry, tracks.mem id entry]
  · rintro before id pixels bpp rfl
    obtain ⟨front, back, prior, ran, one⟩ := runs_concat runs
    have fewer : inserts (before ++ [.insert id pixels bpp]) = inserts before + 1 := by
      simp [inserts]
    rw [fewer] at few
    refine ⟨front, prior, ran, ?_⟩
    cases one with
    | insert evicts later =>
        cases later
        exact ran.inserts_next few evicts

def sampleOps : List WindowOp :=
  [.insert 1 (List.replicate 512 1) 4, .insert 2 (List.replicate 512 2) 4,
    .insert 3 (List.replicate 512 3) 4, .insert 2 (List.replicate 100 4) 4]

theorem window_exact_sample :
    inserts sampleOps < 2 ^ 64 ∧
      ∃ kept, kept <:+ lastInserted sampleOps ∧
        ∀ id entry, (sampleOps.foldl apply (new 8)).get id = some entry ↔ (id, entry) ∈ kept := by
  have few : inserts sampleOps < 2 ^ 64 := by decide
  obtain ⟨subs, runs⟩ := runs_exec (new 8) sampleOps
  exact ⟨few, (window_exact few runs).2.2.2.1⟩

end GlzWindow

end Capsaicin.Glz
