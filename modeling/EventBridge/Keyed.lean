/-! # Keyed lists

Lists of entries by key, where the first entry of a key counts. Targets, open connections and the
places of a file tree are kept this way.

* `erase` takes every entry of a key out, `put` sets one.
* `lookup_erase` and `lookup_put` say what a look-up finds after each.
* To put something under a new key and to erase the key again comes to nothing.
-/

namespace EventBridge.Keyed

variable {κ α : Type} [BEq κ]

/-- The entries apart from those of a key. -/
def erase (key : κ) (entries : List (κ × α)) : List (κ × α) :=
  entries.filter fun entry => entry.1 != key

/-- The entries with a key set to a value. -/
def put (key : κ) (value : α) (entries : List (κ × α)) : List (κ × α) :=
  (key, value) :: erase key entries

variable [LawfulBEq κ]

/-- An erased key has no value, and all other keys keep theirs. -/
theorem lookup_erase (key other : κ) (entries : List (κ × α)) :
    (erase key entries).lookup other = if other == key then none else entries.lookup other := by
  induction entries with
  | nil => simp [erase]
  | cons entry rest ih =>
    obtain ⟨k, v⟩ := entry
    unfold erase at ih ⊢
    by_cases hk : k = key
    · -- The entry goes.
      subst hk
      by_cases ho : other = k
      · simpa [ho] using ih
      · simp [List.lookup_cons, beq_false_of_ne ho, ih]
    · -- The entry stays, and is found first if it is the one looked for.
      by_cases ho : other = k
      · subst ho
        simp [hk]
      · simp [hk, List.lookup_cons, beq_false_of_ne ho, ih]

/-- A key that is put has its new value, and all other keys keep theirs. -/
theorem lookup_put (key other : κ) (value : α) (entries : List (κ × α)) :
    (put key value entries).lookup other =
      if other == key then some value else entries.lookup other := by
  by_cases h : other = key
  · simp [put, h]
  · simp [put, List.lookup_cons, beq_false_of_ne h, lookup_erase]

/-- There is nothing to erase for a key without a value. -/
theorem erase_of_lookup_eq_none {key : κ} {entries : List (κ × α)} (h : entries.lookup key = none) :
    erase key entries = entries := by
  refine List.filter_eq_self.2 fun entry hentry => ?_
  have hne := List.lookup_eq_none_iff.1 h entry hentry
  rwa [bne_comm]

/-- To erase a key undoes what was put under it. -/
theorem erase_put (key : κ) (value : α) (entries : List (κ × α)) :
    erase key (put key value entries) = erase key entries := by
  simp [erase, put]

end EventBridge.Keyed
