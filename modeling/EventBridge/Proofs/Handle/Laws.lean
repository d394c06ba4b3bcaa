import EventBridge.Handle.Table

/-! # Laws of a handle table

  What each operation of a table does to what handles stand for, and to how many things are held.

  * `insert_cases` and `release_cases` say once what the two operations can do; nothing after them
    looks into the definitions.
  * `Issued table handle` holds of every handle that the table has given out. It never stops to
    hold, so it also covers the handles that are released.
  * A handle that is issued keeps what it stands for until it is released itself
    (`resolve_insert_of_issued`, `resolve_release_of_ne`).
-/

namespace EventBridge.HandleTable

variable {α : Type}

/-! ### What the operations can do -/

/-- The slot that an insertion fills: one that was free, or a new one if none was. -/
theorem insert_cases (table : HandleTable α) (a : α) :
    (∃ slot old, table.slots[slot]? = some old ∧ old.held = none ∧
      table.insert a = (⟨table.id, slot, table.nextGeneration⟩,
        { table with
          slots := table.slots.set slot ⟨table.nextGeneration, some a⟩
          nextGeneration := table.nextGeneration + 1 })) ∨
    ((∀ old ∈ table.slots, old.held.isSome) ∧
      table.insert a = (⟨table.id, table.slots.length, table.nextGeneration⟩,
        { table with
          slots := table.slots ++ [⟨table.nextGeneration, some a⟩]
          nextGeneration := table.nextGeneration + 1 })) := by
  cases hfree : table.freeSlot with
  | some slot =>
    left
    obtain ⟨hlt, hnone, -⟩ := List.findIdx?_eq_some_iff_getElem.1 hfree
    refine ⟨slot, table.slots[slot], List.getElem?_eq_getElem hlt, ?_, ?_⟩
    · exact Option.isNone_iff_eq_none.1 hnone
    · simp only [insert, hfree]
  | none =>
    right
    refine ⟨?_, ?_⟩
    · intro old hold
      have hnone := List.findIdx?_eq_none_iff.1 hfree old hold
      cases hheld : old.held with
      | none => simp [hheld] at hnone
      | some b => rfl
    · simp only [insert, hfree]

/-- A release empties the slot of the handle if the handle is of the generation in it, and does
    nothing otherwise. -/
theorem release_cases (table : HandleTable α) (handle : Handle) :
    (∃ old, handle.table = table.id ∧ table.slots[handle.slot]? = some old ∧
      old.generation = handle.generation ∧
      table.release handle = (old.held,
        { table with slots := table.slots.set handle.slot ⟨old.generation, none⟩ })) ∨
    (table.release handle = (none, table) ∧
      (handle.table = table.id →
        ∀ old, table.slots[handle.slot]? = some old → old.generation ≠ handle.generation)) := by
  by_cases htable : handle.table = table.id
  · cases hslot : table.slots[handle.slot]? with
    | none => exact .inr ⟨by simp [release, htable, hslot], by simp⟩
    | some old =>
      by_cases hgen : old.generation = handle.generation
      · exact .inl ⟨old, htable, rfl, hgen, by simp [release, htable, hslot, hgen]⟩
      · refine .inr ⟨by simp [release, htable, hslot, hgen], ?_⟩
        intro _ other hother
        rw [Option.some.inj hother] at hgen
        exact hgen
  · exact .inr ⟨release_of_table_ne table handle htable, fun h => absurd h htable⟩

/-- What a slot says about a handle of a generation. -/
def Slot.answer (slot : Slot α) (generation : Nat) : Except Misuse α :=
  match slot.held with
  | some a => if slot.generation = generation then .ok a else .error .stale
  | none => .error .stale

/-- A slot answers for handles of its own generation only. -/
theorem Slot.generation_of_answer {slot : Slot α} {generation : Nat} {a : α}
    (h : slot.answer generation = .ok a) : slot.generation = generation := by
  unfold Slot.answer at h
  split at h
  · split at h
    · assumption
    · cases h
  · cases h

/-- A handle of the table stands for what its slot says. -/
theorem resolve_of_slot {table : HandleTable α} {handle : Handle} {old : Slot α}
    (htable : handle.table = table.id) (hslot : table.slots[handle.slot]? = some old) :
    table.resolve handle = old.answer handle.generation := by
  simp only [resolve, htable, hslot, ne_eq, not_true_eq_false, if_false]
  rfl

/-- A handle of another table stands for nothing here. -/
theorem resolve_of_table_ne {table : HandleTable α} {handle : Handle}
    (htable : handle.table ≠ table.id) : table.resolve handle = .error .foreign := by
  simp [resolve, htable]

/-- A handle stands for the same in two tables that agree on its slot. -/
theorem resolve_congr {table other : HandleTable α} {handle : Handle} (hid : other.id = table.id)
    (hslot : other.slots[handle.slot]? = table.slots[handle.slot]?) :
    other.resolve handle = table.resolve handle := by
  simp only [resolve, hid, hslot]

/-! ### Handles that were given out -/

/-- A handle that the table has given out at some time. -/
structure Issued (table : HandleTable α) (handle : Handle) : Prop where
  ofTable : handle.table = table.id
  inSlots : handle.slot < table.slots.length
  ofPast : handle.generation < table.nextGeneration

@[simp] theorem id_insert (table : HandleTable α) (a : α) : (table.insert a).2.id = table.id := by
  obtain ⟨slot, old, -, -, h⟩ | ⟨-, h⟩ := insert_cases table a <;> rw [h]

@[simp] theorem id_release (table : HandleTable α) (handle : Handle) :
    (table.release handle).2.id = table.id := by
  obtain ⟨old, -, -, -, h⟩ | ⟨h, -⟩ := release_cases table handle <;> rw [h]

@[simp] theorem nextGeneration_insert (table : HandleTable α) (a : α) :
    (table.insert a).2.nextGeneration = table.nextGeneration + 1 := by
  obtain ⟨slot, old, -, -, h⟩ | ⟨-, h⟩ := insert_cases table a <;> rw [h]

@[simp] theorem nextGeneration_release (table : HandleTable α) (handle : Handle) :
    (table.release handle).2.nextGeneration = table.nextGeneration := by
  obtain ⟨old, -, -, -, h⟩ | ⟨h, -⟩ := release_cases table handle <;> rw [h]

@[simp] theorem length_slots_release (table : HandleTable α) (handle : Handle) :
    (table.release handle).2.slots.length = table.slots.length := by
  obtain ⟨old, -, -, -, h⟩ | ⟨h, -⟩ := release_cases table handle <;> rw [h]
  simp

/-- An insertion takes no slot away. -/
theorem length_slots_le_insert (table : HandleTable α) (a : α) :
    table.slots.length ≤ (table.insert a).2.slots.length := by
  obtain ⟨slot, old, -, -, h⟩ | ⟨-, h⟩ := insert_cases table a <;> rw [h] <;> simp

/-- A new handle is issued. -/
theorem issued_insert_self (table : HandleTable α) (a : α) :
    (table.insert a).2.Issued (table.insert a).1 := by
  obtain ⟨slot, old, hslot, -, h⟩ | ⟨-, h⟩ := insert_cases table a <;> rw [h]
  · have hlt : slot < table.slots.length := (List.getElem?_eq_some_iff.1 hslot).1
    exact ⟨rfl, by simpa using hlt, Nat.lt_succ_self _⟩
  · exact ⟨rfl, by simp, Nat.lt_succ_self _⟩

/-- A handle stays issued when a thing is put in. -/
theorem Issued.insert {table : HandleTable α} {handle : Handle} (h : table.Issued handle) (a : α) :
    (table.insert a).2.Issued handle where
  ofTable := by rw [id_insert]; exact h.ofTable
  inSlots := Nat.lt_of_lt_of_le h.inSlots (length_slots_le_insert table a)
  ofPast := by rw [nextGeneration_insert]; exact Nat.lt_succ_of_lt h.ofPast

/-- A handle stays issued when one is released. -/
theorem Issued.release {table : HandleTable α} {handle : Handle} (h : table.Issued handle)
    (other : Handle) : (table.release other).2.Issued handle where
  ofTable := by rw [id_release]; exact h.ofTable
  inSlots := by rw [length_slots_release]; exact h.inSlots
  ofPast := by rw [nextGeneration_release]; exact h.ofPast

/-- A new handle is none of those that were issued before. -/
theorem Issued.ne_insert {table : HandleTable α} {handle : Handle} (h : table.Issued handle)
    (a : α) : handle ≠ (table.insert a).1 := by
  intro heq
  have hgen := h.ofPast
  rw [heq, insert_generation] at hgen
  exact absurd hgen (Nat.lt_irrefl _)

/-! ### What handles stand for -/

/-- Putting a thing in changes nothing for the handles that are issued, even where it takes the
    slot that one of them had. -/
theorem resolve_insert_of_issued {table : HandleTable α} {handle : Handle}
    (h : table.Issued handle) (a : α) :
    (table.insert a).2.resolve handle = table.resolve handle := by
  obtain ⟨slot, old, hslot, hnone, hins⟩ | ⟨-, hins⟩ := insert_cases table a <;> rw [hins]
  · by_cases heq : slot = handle.slot
    · -- The slot is used again, under a generation that the handle is not of.
      subst heq
      have hgen : table.nextGeneration ≠ handle.generation := Nat.ne_of_gt h.ofPast
      rw [resolve_of_slot h.ofTable hslot]
      refine Eq.trans (resolve_of_slot h.ofTable (List.getElem?_set_self h.inSlots)) ?_
      simp [Slot.answer, hnone, hgen]
    · exact resolve_congr rfl (List.getElem?_set_ne heq)
  · exact resolve_congr rfl (List.getElem?_append_left h.inSlots)

/-- Releasing one handle changes nothing for any other. -/
theorem resolve_release_of_ne (table : HandleTable α) {handle other : Handle}
    (hne : other ≠ handle) : (table.release handle).2.resolve other = table.resolve other := by
  obtain ⟨old, htable, hslot, hgen, hrel⟩ | ⟨hrel, -⟩ := release_cases table handle <;> rw [hrel]
  by_cases hother : other.table = table.id
  · by_cases heq : handle.slot = other.slot
    · -- Of two handles to one slot at most one is of the generation in it.
      have hold : old.generation ≠ other.generation := by
        intro h
        apply hne
        cases handle
        cases other
        simp_all
      have hlt : handle.slot < table.slots.length := (List.getElem?_eq_some_iff.1 hslot).1
      rw [heq] at hslot hlt
      rw [resolve_of_slot hother hslot, heq]
      refine Eq.trans (resolve_of_slot hother (List.getElem?_set_self hlt)) ?_
      cases hheld : old.held <;> simp [Slot.answer, hheld, hold]
    · exact resolve_congr rfl (List.getElem?_set_ne heq)
  · rw [resolve_of_table_ne hother]
    exact resolve_of_table_ne hother

/-- A handle is stale from its release on. -/
theorem Issued.resolve_release {table : HandleTable α} {handle : Handle}
    (h : table.Issued handle) : (table.release handle).2.resolve handle = .error .stale := by
  obtain ⟨old, htable, hslot, hgen, hrel⟩ | ⟨hrel, hstale⟩ := release_cases table handle <;>
    rw [hrel]
  · exact Eq.trans (resolve_of_slot htable (List.getElem?_set_self h.inSlots)) rfl
  · have hslot := List.getElem?_eq_getElem h.inSlots
    have hne := hstale h.ofTable _ hslot
    refine Eq.trans (resolve_of_slot h.ofTable hslot) ?_
    unfold Slot.answer
    split
    · exact if_neg hne
    · rfl

/-- A release takes out what its handle stands for. -/
theorem release_of_resolve_ok {table : HandleTable α} {handle : Handle} {a : α}
    (h : table.resolve handle = .ok a) : (table.release handle).1 = some a := by
  by_cases htable : handle.table = table.id
  · cases hslot : table.slots[handle.slot]? with
    | none => simp [resolve, htable, hslot] at h
    | some old =>
      rw [resolve_of_slot htable hslot] at h
      unfold Slot.answer at h
      split at h
      · next b hheld =>
        split at h
        · next hgen =>
          cases h
          simp [release, htable, hslot, hgen, hheld]
        · cases h
      · cases h
  · rw [resolve_of_table_ne htable] at h
    cases h

/-- A release through a handle that stands for nothing changes nothing. -/
theorem release_of_resolve_error {table : HandleTable α} {handle : Handle} {cause : Misuse}
    (h : table.resolve handle = .error cause) : table.release handle = (none, table) := by
  obtain ⟨old, htable, hslot, hgen, hrel⟩ | ⟨hrel, -⟩ := release_cases table handle
  · rw [resolve_of_slot htable hslot] at h
    cases hheld : old.held with
    | some a => simp [Slot.answer, hheld, hgen] at h
    | none =>
      -- The slot is empty already, and is set to what it is.
      have hsame : (⟨old.generation, none⟩ : Slot α) = old := by rw [← hheld]
      obtain ⟨hlt, hget⟩ := List.getElem?_eq_some_iff.1 hslot
      have hset : table.slots.set handle.slot old = table.slots := by
        rw [← hget]
        exact List.set_getElem_self hlt
      rw [hrel, hheld, hsame, hset]
  · exact hrel

/-- In the slot that an insertion takes no handle stood for anything. -/
theorem resolve_ne_ok_of_slot_insert {table : HandleTable α} {a : α} {handle : Handle}
    (hslot : handle.slot = (table.insert a).1.slot) (b : α) : table.resolve handle ≠ .ok b := by
  by_cases htable : handle.table = table.id
  · obtain ⟨slot, old, hold, hnone, hins⟩ | ⟨-, hins⟩ := insert_cases table a <;>
      rw [hins] at hslot <;> dsimp only at hslot
    · rw [resolve_of_slot htable (hslot ▸ hold)]
      simp [Slot.answer, hnone]
    · simp [resolve, htable, hslot]
  · simp [resolve_of_table_ne htable]

/-- In that slot only the new handle stands for something after it. -/
theorem resolve_insert_of_slot_eq {table : HandleTable α} {a : α} {handle : Handle}
    (hslot : handle.slot = (table.insert a).1.slot) (hne : handle ≠ (table.insert a).1) (b : α) :
    (table.insert a).2.resolve handle ≠ .ok b := by
  have hnew := resolve_insert table a
  by_cases htable : handle.table = (table.insert a).2.id
  · have htable' := (issued_insert_self table a).ofTable
    obtain ⟨old, hold⟩ : ∃ old, (table.insert a).2.slots[(table.insert a).1.slot]? = some old :=
      ⟨_, List.getElem?_eq_getElem (issued_insert_self table a).inSlots⟩
    rw [resolve_of_slot htable' hold] at hnew
    rw [← hslot] at hold
    rw [resolve_of_slot htable hold]
    -- One slot answers both, so both handles are of its generation.
    intro hok
    have hgen := (Slot.generation_of_answer hnew).symm.trans (Slot.generation_of_answer hok)
    apply hne
    cases handle
    cases h : (table.insert a).1
    simp_all
  · simp [resolve_of_table_ne htable]

/-- In every other slot nothing changes. -/
theorem resolve_insert_of_slot_ne {table : HandleTable α} {a : α} {handle : Handle}
    (hslot : handle.slot ≠ (table.insert a).1.slot) :
    (table.insert a).2.resolve handle = table.resolve handle := by
  obtain ⟨slot, old, -, -, hins⟩ | ⟨-, hins⟩ := insert_cases table a <;> rw [hins] at hslot ⊢
  · exact resolve_congr rfl (List.getElem?_set_ne (Ne.symm hslot))
  · refine resolve_congr rfl ?_
    rcases Nat.lt_or_gt_of_ne hslot with hlt | hgt
    · exact List.getElem?_append_left hlt
    · rw [List.getElem?_eq_none (Nat.le_of_lt hgt), List.getElem?_eq_none]
      simp only [List.length_append, List.length_singleton]
      exact hgt

/-- Putting a thing in and releasing its handle leaves what every handle stands for, even a handle
    that the table has not given out. -/
theorem resolve_release_insert_ok_iff (table : HandleTable α) (a b : α) (handle : Handle) :
    ((table.insert a).2.release (table.insert a).1).2.resolve handle = .ok b ↔
      table.resolve handle = .ok b := by
  by_cases hnew : handle = (table.insert a).1
  · have hbefore := resolve_ne_ok_of_slot_insert (congrArg Handle.slot hnew) b
    rw [hnew, (issued_insert_self table a).resolve_release, ← hnew]
    simp [hbefore]
  · rw [resolve_release_of_ne _ hnew]
    by_cases hslot : handle.slot = (table.insert a).1.slot
    · have hbefore := resolve_ne_ok_of_slot_insert hslot b
      have hafter := resolve_insert_of_slot_eq hslot hnew b
      simp [hbefore, hafter]
    · rw [resolve_insert_of_slot_ne hslot]

/-! ### How many things are held -/

/-- Filling a free slot adds one to what is held, and emptying a used one takes one away. -/
theorem countP_set_held {slots : List (Slot α)} {i : Nat} {old : Slot α}
    (hslot : slots[i]? = some old) (new : Slot α) :
    (slots.set i new).countP (·.held.isSome) + (if old.held.isSome then 1 else 0) =
      slots.countP (·.held.isSome) + (if new.held.isSome then 1 else 0) := by
  obtain ⟨hlt, hget⟩ := List.getElem?_eq_some_iff.1 hslot
  have hle : (if old.held.isSome then 1 else 0) ≤ slots.countP (·.held.isSome) := by
    split
    · next h => exact List.countP_pos_iff.2 ⟨old, hget ▸ List.getElem_mem hlt, h⟩
    · exact Nat.zero_le _
  rw [List.countP_set hlt, hget]
  omega

/-- What is live is what the slots hold. -/
theorem live_eq_countP (table : HandleTable α) :
    table.live = table.slots.countP (·.held.isSome) := List.countP_eq_length_filter.symm

/-- Putting a thing in makes one more live. -/
theorem live_insert (table : HandleTable α) (a : α) : (table.insert a).2.live = table.live + 1 := by
  rw [live_eq_countP, live_eq_countP]
  obtain ⟨slot, old, hslot, hnone, hins⟩ | ⟨-, hins⟩ := insert_cases table a <;> rw [hins]
  · have hcount := countP_set_held hslot ⟨table.nextGeneration, some a⟩
    simpa [hnone] using hcount
  · simp

/-- Releasing a handle makes one less live if it stood for something. -/
theorem live_release_of_resolve_ok {table : HandleTable α} {handle : Handle} {a : α}
    (h : table.resolve handle = .ok a) : (table.release handle).2.live + 1 = table.live := by
  rw [live_eq_countP, live_eq_countP]
  have hout := release_of_resolve_ok h
  obtain ⟨old, -, hslot, -, hrel⟩ | ⟨hrel, -⟩ := release_cases table handle
  · rw [hrel] at hout ⊢
    have hheld : old.held = some a := hout
    have hcount := countP_set_held hslot ⟨old.generation, none⟩
    simpa [hheld] using hcount
  · rw [hrel] at hout
    cases hout

/-- A table has a new slot only when all are in use. -/
theorem length_slots_insert (table : HandleTable α) (a : α) :
    (table.insert a).2.slots.length = max table.slots.length (table.live + 1) := by
  rw [live_eq_countP]
  obtain ⟨slot, old, hslot, hnone, hins⟩ | ⟨hall, hins⟩ := insert_cases table a <;> rw [hins]
  · have hcount := countP_set_held hslot ⟨table.nextGeneration, some a⟩
    have hle := List.countP_le_length (p := (·.held.isSome))
      (l := table.slots.set slot ⟨table.nextGeneration, some a⟩)
    simp only [hnone, Option.isSome_none, Option.isSome_some, List.length_set] at hcount hle ⊢
    simp only [Bool.false_eq_true, if_false, if_true] at hcount
    omega
  · have hcount : table.slots.countP (·.held.isSome) = table.slots.length :=
      List.countP_eq_length.2 hall
    simp only [List.length_append, List.length_singleton, hcount]
    omega

/-- In a table that holds nothing, every handle that it has given out is stale. -/
theorem Issued.resolve_of_live_eq_zero {table : HandleTable α} {handle : Handle}
    (h : table.Issued handle) (hlive : table.live = 0) : table.resolve handle = .error .stale := by
  obtain ⟨old, hslot⟩ : ∃ old, table.slots[handle.slot]? = some old :=
    ⟨_, List.getElem?_eq_getElem h.inSlots⟩
  rw [resolve_of_slot h.ofTable hslot]
  have hheld : old.held = none := by
    rw [live, List.length_eq_zero_iff, List.filter_eq_nil_iff] at hlive
    have hnot := hlive old (List.mem_of_getElem? hslot)
    cases hheld : old.held with
    | none => rfl
    | some a => simp [hheld] at hnot
  simp only [Slot.answer, hheld]

end EventBridge.HandleTable
