import EventBridge.Proofs.Handle.Laws
import Mathlib.Data.List.Induction
import Mathlib.Data.List.Nodup
import Mathlib.Order.Bounds.Basic

/-! # How large a table of handles grows

  A table gets a new slot only when all that it has are in use. So it is as large as the most that
  it has held at once, however often its slots were used again in between.

  * A `History` is a table since it was made, with the handles that it gave out. A release may go
    through any handle at all: one in use, one that is released, or one of another table.
  * `slots_step` says what one change does to the size; `isGreatest_everLive` follows a history with
    it.
  * `History.Kept` ties what is live to the handles that were given out, and `Compact` is what comes
    of both.
-/

namespace EventBridge.HandleTable

variable {α : Type}

/-- What happens to a table. -/
inductive Change (α : Type) where
  | insert (a : α)
  | release (handle : Handle)

/-- A table, and the handles that it has given out. -/
structure History (α : Type) where
  table : HandleTable α
  issued : List Handle

namespace History

/-- A table in which nothing has been put. -/
def begin (id : Nat) : History α := ⟨empty id, []⟩

/-- What a change makes of a table. -/
def step (history : History α) : Change α → History α
  | .insert a => ⟨(history.table.insert a).2, history.issued ++ [(history.table.insert a).1]⟩
  | .release handle => { history with table := (history.table.release handle).2 }

/-- What changes make of a new table, one after the other. -/
def run (id : Nat) (changes : List (Change α)) : History α := changes.foldl step (begin id)

theorem run_concat (id : Nat) (changes : List (Change α)) (change : Change α) :
    run id (changes ++ [change]) = (run id changes).step change := List.foldl_concat ..

/-- The handles that stand for something. -/
def inUse (history : History α) : List Handle :=
  history.issued.filter fun handle => (history.table.resolve handle).isOk

/-- How many things were live at some time of a history. -/
def everLive (id : Nat) (changes : List (Change α)) : Set Nat :=
  {live | ∃ earlier, earlier <+: changes ∧ (run id earlier).table.live = live}

/-! ### The size -/

/-- No more is live than there are slots. -/
theorem live_le_slots (table : HandleTable α) : table.live ≤ table.slots.length := by
  rw [live_eq_countP]
  exact List.countP_le_length

/-- A change makes a table larger only if more is live after it than there were slots. -/
theorem slots_step (history : History α) (change : Change α) :
    (history.step change).table.slots.length =
      max history.table.slots.length (history.step change).table.live := by
  cases change with
  | insert a =>
    simp only [step]
    rw [length_slots_insert, live_insert]
  | release handle =>
    have hlive := live_le_slots (history.table.release handle).2
    simp only [step]
    rw [length_slots_release] at hlive ⊢
    exact (Nat.max_eq_left hlive).symm

theorem everLive_nil (id : Nat) : everLive id ([] : List (Change α)) = {0} := by
  ext live
  simp only [everLive, List.prefix_nil, Set.mem_ofPred_eq, Set.mem_singleton_iff]
  constructor
  · rintro ⟨earlier, rfl, rfl⟩
    rfl
  · rintro rfl
    exact ⟨[], rfl, rfl⟩

theorem everLive_concat (id : Nat) (changes : List (Change α)) (change : Change α) :
    everLive id (changes ++ [change]) =
      Insert.insert ((run id changes).step change).table.live (everLive id changes) := by
  ext live
  simp only [everLive, Set.mem_ofPred_eq, Set.mem_insert_iff, List.prefix_concat_iff]
  constructor
  · rintro ⟨earlier, rfl | hearlier, rfl⟩
    · left
      rw [run_concat]
    · exact .inr ⟨earlier, hearlier, rfl⟩
  · rintro (rfl | ⟨earlier, hearlier, rfl⟩)
    · exact ⟨changes ++ [change], .inl rfl, by rw [run_concat]⟩
    · exact ⟨earlier, .inr hearlier, rfl⟩

/-- The number of slots is the greatest number of things that were ever live at once. -/
theorem isGreatest_everLive (id : Nat) (changes : List (Change α)) :
    IsGreatest (everLive id changes) (run id changes).table.slots.length := by
  induction changes using List.reverseRecOn with
  | nil =>
    rw [everLive_nil]
    exact isGreatest_singleton
  | append_singleton changes change ih =>
    rw [everLive_concat, run_concat, slots_step, max_comm]
    exact ih.insert _

/-! ### What is live, by handles -/

/-- What is live in a table is what the handles stand for that it has given out. -/
structure Kept (history : History α) : Prop where
  issued : ∀ handle ∈ history.issued, history.table.Issued handle
  known : ∀ handle a, history.table.resolve handle = .ok a → handle ∈ history.issued
  generations : (history.issued.map Handle.generation).Nodup
  live : history.table.live = history.inUse.length

variable {history : History α}

theorem kept_begin (id : Nat) : (begin id : History α).Kept where
  issued := by simp [begin]
  known := by
    intro handle a h
    simp [begin, empty, resolve] at h
  generations := List.nodup_nil
  live := rfl

theorem Kept.insert (h : history.Kept) (a : α) : (history.step (.insert a)).Kept where
  issued := by
    intro handle hmem
    rcases List.mem_append.1 hmem with hmem | hmem
    · exact (h.issued handle hmem).insert a
    · obtain rfl := List.mem_singleton.1 hmem
      exact issued_insert_self history.table a
  known := by
    intro handle b hresolve
    by_cases hnew : handle = (history.table.insert a).1
    · exact List.mem_append_right _ (List.mem_singleton.2 hnew)
    · -- In the slot that is taken only the new handle stands for something.
      have hslot : handle.slot ≠ (history.table.insert a).1.slot :=
        fun heq => resolve_insert_of_slot_eq heq hnew b hresolve
      rw [step, resolve_insert_of_slot_ne hslot] at hresolve
      exact List.mem_append_left _ (h.known handle b hresolve)
  generations := by
    rw [step, List.map_append, List.map_singleton, List.nodup_append]
    refine ⟨h.generations, List.nodup_singleton _, ?_⟩
    intro generation hmem other hother
    obtain ⟨handle, hhandle, rfl⟩ := List.mem_map.1 hmem
    obtain rfl := List.mem_singleton.1 hother
    rw [insert_generation]
    exact Nat.ne_of_lt (h.issued handle hhandle).ofPast
  live := by
    -- Every handle from before stands for what it stood for, and the new one for the new thing.
    have hold : history.issued.filter (fun handle =>
        ((history.table.insert a).2.resolve handle).isOk) = history.inUse :=
      List.filter_congr fun handle hmem => by rw [resolve_insert_of_issued (h.issued handle hmem)]
    have hnew : ((history.table.insert a).2.resolve (history.table.insert a).1).isOk = true := by
      rw [resolve_insert]
      rfl
    have hused : (history.step (.insert a)).inUse =
        history.inUse ++ [(history.table.insert a).1] := by
      rw [inUse, step, List.filter_append, hold, List.filter_singleton, hnew, cond_true]
    rw [hused, List.length_append, List.length_singleton, ← h.live]
    exact live_insert history.table a

theorem Kept.nodup (h : history.Kept) : history.issued.Nodup := h.generations.of_map _

/-- A release through a handle in use takes that handle out of those in use. -/
theorem Kept.inUse_release (h : history.Kept) {handle : Handle} {a : α}
    (hresolve : history.table.resolve handle = .ok a) :
    (history.step (.release handle)).inUse = history.inUse.erase handle := by
  have hissued := h.issued handle (h.known handle a hresolve)
  have hnodup : history.inUse.Nodup := h.nodup.filter _
  rw [hnodup.erase_eq_filter, inUse, inUse, List.filter_filter]
  refine List.filter_congr fun other _ => ?_
  by_cases hother : other = handle
  · rw [step, hother, hissued.resolve_release]
    simp [Except.isOk, Except.toBool]
  · rw [step, resolve_release_of_ne history.table hother]
    simp [hother]

theorem Kept.release (h : history.Kept) (handle : Handle) :
    (history.step (.release handle)).Kept := by
  cases hresolve : history.table.resolve handle with
  | error cause =>
    -- A handle that stands for nothing changes nothing.
    rw [step, release_of_resolve_error hresolve]
    exact h
  | ok a =>
    have hmem := h.known handle a hresolve
    refine ⟨fun other hother => (h.issued other hother).release handle, ?_, h.generations, ?_⟩
    · intro other b hother
      by_cases hsame : other = handle
      · rw [step, hsame, (h.issued handle hmem).resolve_release] at hother
        cases hother
      · rw [step, resolve_release_of_ne history.table hsame] at hother
        exact h.known other b hother
    · have hlive := live_release_of_resolve_ok hresolve
      have hused : handle ∈ history.inUse := by
        rw [inUse, List.mem_filter, hresolve]
        exact ⟨hmem, rfl⟩
      have hlength := List.length_erase_add_one hused
      rw [h.inUse_release hresolve]
      rw [h.live] at hlive
      simp only [step]
      omega

theorem Kept.step (h : history.Kept) (change : Change α) : (history.step change).Kept := by
  cases change with
  | insert a => exact h.insert a
  | release handle => exact h.release handle

theorem kept_run (id : Nat) (changes : List (Change α)) : (run id changes).Kept := by
  induction changes using List.reverseRecOn with
  | nil => exact kept_begin id
  | append_singleton changes change ih =>
    rw [run_concat]
    exact ih.step change

/-! ### Both together -/

/-- A handle that stands for something is of its slot's generation. -/
theorem exists_slot_of_resolve {table : HandleTable α} {handle : Handle} {a : α}
    (h : table.resolve handle = .ok a) :
    ∃ slot, handle.table = table.id ∧ table.slots[handle.slot]? = some slot ∧
      slot.generation = handle.generation := by
  by_cases htable : handle.table = table.id
  · cases hslot : table.slots[handle.slot]? with
    | none => simp [resolve, htable, hslot] at h
    | some slot =>
      rw [resolve_of_slot htable hslot] at h
      exact ⟨slot, htable, rfl, Slot.generation_of_answer h⟩
  · rw [resolve_of_table_ne htable] at h
    cases h

/-- So two handles to one slot are the same if both stand for something. -/
theorem eq_of_slot_eq {table : HandleTable α} {handle other : Handle} {a b : α}
    (h : table.resolve handle = .ok a) (h' : table.resolve other = .ok b)
    (heq : handle.slot = other.slot) : handle = other := by
  obtain ⟨slot, htable, hslot, hgeneration⟩ := exists_slot_of_resolve h
  obtain ⟨slot', htable', hslot', hgeneration'⟩ := exists_slot_of_resolve h'
  rw [heq, hslot'] at hslot
  obtain rfl := Option.some.inj hslot
  cases handle
  cases other
  simp_all

/-- The handles in use have each a slot of its own. -/
theorem Kept.nodup_slots (h : history.Kept) : (history.inUse.map Handle.slot).Nodup := by
  have hnodup : history.inUse.Nodup := h.nodup.filter _
  refine hnodup.map_on ?_
  intro handle hmem other hother heq
  have hresolves : ∀ handle ∈ history.inUse, ∃ a, history.table.resolve handle = .ok a := by
    intro handle hmem
    have hok := (List.mem_filter.1 hmem).2
    cases hresolve : history.table.resolve handle with
    | ok a => exact ⟨a, rfl⟩
    | error cause =>
      rw [hresolve] at hok
      cases hok
  obtain ⟨a, ha⟩ := hresolves handle hmem
  obtain ⟨b, hb⟩ := hresolves other hother
  exact eq_of_slot_eq ha hb heq

/-- A table is no larger than it has to be for what was put into it and released. -/
structure Compact (id : Nat) (changes : List (Change α)) : Prop where
  /-- There are as many slots as the most things that were ever live at once. -/
  slots : IsGreatest (everLive id changes) (run id changes).table.slots.length
  /-- Every handle that was given out has its slot among them, in use or not. -/
  inSlots : ∀ handle ∈ (run id changes).issued, handle.slot < (run id changes).table.slots.length
  /-- What is live has one handle each, out of those that were given out. -/
  live : (run id changes).table.live = (run id changes).inUse.length
  /-- No two of them share a slot. -/
  distinctSlots : ((run id changes).inUse.map Handle.slot).Nodup
  /-- No two handles share a generation, in use or not. -/
  distinctGenerations : ((run id changes).issued.map Handle.generation).Nodup

theorem compact (id : Nat) (changes : List (Change α)) : Compact id changes where
  slots := isGreatest_everLive id changes
  inSlots := fun handle hmem => ((kept_run id changes).issued handle hmem).inSlots
  live := (kept_run id changes).live
  distinctSlots := (kept_run id changes).nodup_slots
  distinctGenerations := (kept_run id changes).generations

-- The third thing takes the slot of the first.
example : (run 1 [.insert 'a', .insert 'b', .release ⟨1, 0, 1⟩, .insert 'c']).table.slots =
    [⟨3, some 'c'⟩, ⟨2, some 'b'⟩] := rfl

end History

end EventBridge.HandleTable
