/-! # Header fields

The header fields of a request or a response: names with values, each name once, in the order of
the names by code points. A field given again takes the place of the earlier one.

* `Headers.lookup_insert`: what a name has after an insertion.
-/

namespace EventBridge.Http

/-- Fields in ascending order of their names. -/
structure Headers where
  fields : List (String × String)
  ascending : fields.Pairwise fun a b => a.1 < b.1
  deriving DecidableEq

namespace Headers

/-- Puts a field in its place, over one of the same name. -/
def insertField (name value : String) : List (String × String) → List (String × String)
  | [] => [(name, value)]
  | (n, v) :: rest =>
    if name < n then (name, value) :: (n, v) :: rest
    else if name = n then (name, value) :: rest
    else (n, v) :: insertField name value rest

/-- What is there after an insertion was inserted or was there before. -/
theorem mem_insertField {name value : String} {fields : List (String × String)}
    {x : String × String} (h : x ∈ insertField name value fields) :
    x = (name, value) ∨ x ∈ fields := by
  induction fields with
  | nil => simpa [insertField] using h
  | cons head rest ih =>
    obtain ⟨n, v⟩ := head
    unfold insertField at h
    split at h
    · simpa using h
    · split at h
      · rcases List.mem_cons.1 h with h | h
        · exact .inl h
        · exact .inr (List.mem_cons_of_mem _ h)
      · rcases List.mem_cons.1 h with h | h
        · exact .inr (h ▸ List.mem_cons_self)
        · exact (ih h).imp_right (List.mem_cons_of_mem _)

/-- An insertion keeps the names in ascending order. -/
theorem pairwise_insertField (name value : String) {fields : List (String × String)}
    (h : fields.Pairwise fun a b => a.1 < b.1) :
    (insertField name value fields).Pairwise fun a b => a.1 < b.1 := by
  induction fields with
  | nil => simp [insertField]
  | cons head rest ih =>
    obtain ⟨n, v⟩ := head
    obtain ⟨hn, hrest⟩ := List.pairwise_cons.1 h
    unfold insertField
    split
    · next hlt =>
      refine List.pairwise_cons.2 ⟨fun x hx => ?_, h⟩
      rcases List.mem_cons.1 hx with rfl | hx
      · exact hlt
      · exact String.lt_trans hlt (hn x hx)
    · next hle =>
      split
      · next heq =>
        subst heq
        exact List.pairwise_cons.2 ⟨hn, hrest⟩
      · next hne =>
        refine List.pairwise_cons.2 ⟨fun x hx => ?_, ih hrest⟩
        rcases mem_insertField hx with rfl | hx
        · exact Std.lt_of_le_of_ne (Std.not_lt.1 hle) (Ne.symm hne)
        · exact hn x hx

/-- No fields. -/
def empty : Headers := ⟨[], List.Pairwise.nil⟩

instance : Inhabited Headers := ⟨empty⟩

/-- Sets the field of a name. -/
def insert (headers : Headers) (name value : String) : Headers :=
  ⟨insertField name value headers.fields, pairwise_insertField name value headers.ascending⟩

/-- The fields given, the last of a name where it is given more than once. -/
def ofList (fields : List (String × String)) : Headers :=
  fields.foldl (fun headers field => headers.insert field.1 field.2) empty

/-- How many fields there are. -/
def size (headers : Headers) : Nat := headers.fields.length

/-- The value of a name. -/
def lookup (headers : Headers) (name : String) : Option String := headers.fields.lookup name

instance : Repr Headers := ⟨fun headers _ => repr headers.fields⟩

/-- An insertion sets the value of its name and of no other. -/
theorem lookup_insert (headers : Headers) (name value key : String) :
    (headers.insert name value).lookup key =
      if key = name then some value else headers.lookup key := by
  obtain ⟨fields, ascending⟩ := headers
  show (insertField name value fields).lookup key = if key = name then some value
    else fields.lookup key
  clear ascending
  induction fields with
  | nil =>
    by_cases h : key = name
    · simp [insertField, h]
    · have hb : (key == name) = false := beq_false_of_ne h
      simp [insertField, h, hb]
  | cons head rest ih =>
    obtain ⟨n, v⟩ := head
    unfold insertField
    split
    · by_cases h : key = name
      · simp [h]
      · have hb : (key == name) = false := beq_false_of_ne h
        simp [List.lookup_cons, h, hb]
    · split
      · next heq =>
        subst heq
        by_cases h : key = name
        · simp [h]
        · have hb : (key == name) = false := beq_false_of_ne h
          simp [List.lookup_cons, h, hb]
      · next hne =>
        by_cases h : key = n
        · subst h
          simp [Ne.symm hne]
        · have hb : (key == n) = false := beq_false_of_ne h
          simp [List.lookup_cons, hb, ih]

end Headers

end EventBridge.Http
