import EventBridge.Proofs.Toml.Document
import EventBridge.Proofs.Toml.Regular

/-! # What a value says

  Two documents may say the same in different ways: with other lines between, under other headers,
  and with the keys of a table in another order.

  * `Datum` is what is left of a value when all that is left out. A table is a function from names.
  * `Value.datum` takes it from a value; `entryDatum?_eq` does so for the entries of a table.
  * What a datum tells of its value is in `datum_eq_string_iff` and the lemmas behind it, and what
    changes it in `entryDatum?_perm`, `entryDatum?_congr` and `entryDatum?_replace`.
-/

namespace EventBridge.Toml

/-- A value apart from its places, from how its tables came about, and from the order of keys. -/
inductive Datum where
  | string (value : String)
  | integer (value : Int)
  | float (value : Real64)
  | boolean (value : Bool)
  | datetime
  | array (items : List Datum)
  | table (datum? : String → Option Datum)

mutual

/-- What a value says. -/
def Value.datum : Value → Datum
  | .string _ s => .string s
  | .integer _ n => .integer n
  | .float _ x => .float x
  | .boolean _ b => .boolean b
  | .datetime _ => .datetime
  | .array _ items | .tables _ items => .array (data items)
  | .table _ _ entries => .table (entryDatum? entries)

/-- What each of some values says. -/
def data : List Value → List Datum
  | [] => []
  | item :: rest => item.datum :: data rest

/-- What the first entry of a name says. -/
def entryDatum? : List (Key × Value) → String → Option Datum
  | [], _ => none
  | (key, value) :: rest, name =>
    if key.name = name then some value.datum else entryDatum? rest name

end

/-- What a setting says. -/
def Setting.datum : Setting → Datum
  | .text value => .string value
  | .number value => .integer value
  | .switch value => .boolean value

/-! ### Tables -/

/-- A table with nothing in it. -/
def Datum.nothing : String → Option Datum := fun _ => none

/-- A table with one key. -/
def Datum.only (name : String) (content : Datum) : String → Option Datum :=
  fun other => if name = other then some content else none

@[simp] theorem Datum.only_self (name : String) (content : Datum) :
    only name content name = some content := if_pos rfl

theorem Datum.only_of_ne {name other : String} (content : Datum) (h : name ≠ other) :
    only name content other = none := if_neg h

theorem entryDatum?_cons (key : Key) (value : Value) (rest : Entries) (name : String) :
    entryDatum? ((key, value) :: rest) name =
      if key.name = name then some value.datum else entryDatum? rest name := rfl

theorem entryDatum?_singleton (key : Key) (value : Value) :
    entryDatum? [(key, value)] = Datum.only key.name value.datum := rfl

theorem entryDatum?_eq (entries : Entries) (name : String) :
    entryDatum? entries name = (entries.get? name).map Value.datum := by
  induction entries with
  | nil => rfl
  | cons entry rest ih =>
    obtain ⟨key, value⟩ := entry
    rw [entryDatum?_cons]
    split
    · next h => simp [Entries.get?, h]
    · next h =>
      rw [ih]
      simp [Entries.get?, h]

theorem entryDatum?_of_some {entries : Entries} {name : String} {value : Value}
    (h : entries.get? name = some value) : entryDatum? entries name = some value.datum := by
  rw [entryDatum?_eq, h, Option.map_some]

theorem entryDatum?_of_none {entries : Entries} {name : String} (h : entries.get? name = none) :
    entryDatum? entries name = none := by
  rw [entryDatum?_eq, h, Option.map_none]

/-- Where each key is there once, every entry is the one of its name. -/
theorem Entries.Regular.get?_of_mem {entries : Entries} (h : entries.Regular) {key : Key}
    {value : Value} (hmem : (key, value) ∈ entries) : entries.get? key.name = some value := by
  obtain ⟨hdistinct, -⟩ := h
  induction entries with
  | nil => cases hmem
  | cons entry rest ih =>
    rw [List.map_cons, List.nodup_cons] at hdistinct
    rcases List.mem_cons.1 hmem with rfl | hrest
    · simp [Entries.get?]
    · have hne : entry.1.name ≠ key.name := by
        intro heq
        exact hdistinct.1 (heq ▸ List.mem_map_of_mem hrest)
      have hfound := ih hrest hdistinct.2
      simpa [Entries.get?, hne] using hfound

/-! ### What a datum tells of its value -/

theorem data_eq_nil_iff {items : List Value} : data items = [] ↔ items = [] := by
  cases items <;> simp [data]

variable {value : Value}

theorem datum_eq_string_iff {s : String} :
    value.datum = .string s ↔ ∃ span, value = .string span s := by
  cases value <;> simp [Value.datum]

theorem datum_eq_integer_iff {n : Int} :
    value.datum = .integer n ↔ ∃ span, value = .integer span n := by
  cases value <;> simp [Value.datum]

theorem datum_eq_boolean_iff {b : Bool} :
    value.datum = .boolean b ↔ ∃ span, value = .boolean span b := by
  cases value <;> simp [Value.datum]

theorem datum_eq_array_nil_iff :
    value.datum = .array [] ↔
      (∃ span, value = .array span []) ∨ ∃ span, value = .tables span [] := by
  cases value <;> simp [Value.datum, data_eq_nil_iff]

theorem datum_eq_table_iff {datum? : String → Option Datum} :
    value.datum = .table datum? ↔
      ∃ span origin entries, value = .table span origin entries ∧
        entryDatum? entries = datum? := by
  cases value <;> simp [Value.datum]

/-- Nothing is said by no entries only. -/
theorem entryDatum?_eq_nothing_iff {entries : Entries} :
    entryDatum? entries = Datum.nothing ↔ entries = [] := by
  constructor
  · intro h
    cases entries with
    | nil => rfl
    | cons entry rest =>
      have hname := congrFun h entry.1.name
      rw [entryDatum?_cons, if_pos rfl] at hname
      cases hname
  · rintro rfl
    rfl

/-- One key is said by one entry only, if no key is there twice. -/
theorem entryDatum?_eq_only {entries : Entries} (hregular : entries.Regular) {name : String}
    {content : Datum} (h : entryDatum? entries = Datum.only name content) :
    ∃ key value, entries = [(key, value)] ∧ key.name = name ∧ value.datum = content := by
  have hnames : ∀ entry ∈ entries, entry.1.name = name := by
    intro entry hentry
    by_contra hne
    have hnone := congrFun h entry.1.name
    rw [entryDatum?_of_some (hregular.get?_of_mem hentry),
      Datum.only_of_ne _ (Ne.symm hne)] at hnone
    cases hnone
  match entries with
  | [] =>
    have hsome := congrFun h name
    rw [Datum.only_self] at hsome
    cases hsome
  | [(key, value)] =>
    obtain rfl : key.name = name := hnames (key, value) List.mem_cons_self
    refine ⟨key, value, rfl, rfl, ?_⟩
    have hsame := congrFun h key.name
    rw [entryDatum?_singleton, Datum.only_self, Datum.only_self] at hsame
    exact Option.some.inj hsame
  | first :: second :: rest =>
    have hfirst := hnames first List.mem_cons_self
    have hsecond := hnames second (List.mem_cons_of_mem _ List.mem_cons_self)
    have hdistinct := hregular.distinct
    simp [hfirst, hsecond] at hdistinct

/-! ### Changes that leave alone what is said -/

variable {entries others : Entries}

/-- The order of keys does not matter. -/
theorem entryDatum?_perm (hdistinct : (entries.map fun entry => entry.1.name).Nodup)
    (h : entries.Perm others) : entryDatum? entries = entryDatum? others := by
  induction h with
  | nil => rfl
  | @cons entry rest rest' _ ih =>
    have hrest := ih (List.nodup_cons.1 hdistinct).2
    funext name
    rw [entryDatum?_cons, entryDatum?_cons, hrest]
  | swap first second rest =>
    have hne : second.1.name ≠ first.1.name :=
      fun heq => (List.nodup_cons.1 hdistinct).1 (List.mem_cons.2 (.inl heq))
    funext name
    rw [entryDatum?_cons, entryDatum?_cons, entryDatum?_cons, entryDatum?_cons]
    split
    · next hsecond => rw [if_neg fun hfirst => hne (hsecond.trans hfirst.symm)]
    · rfl
  | trans hfirst _ ihfirst ihsecond =>
    exact (ihfirst hdistinct).trans (ihsecond ((hfirst.map _).nodup_iff.1 hdistinct))

/-- Nor do the places and the spelling of what is said. -/
theorem entryDatum?_congr
    (h : List.Forall₂ (fun entry other => entry.1.name = other.1.name ∧
      entry.2.datum = other.2.datum) entries others) :
    entryDatum? entries = entryDatum? others := by
  induction h with
  | nil => rfl
  | cons hfirst _ ih =>
    funext name
    rw [entryDatum?_cons, entryDatum?_cons, hfirst.1, hfirst.2, ih]

/-- To replace a value changes what is said of its key. -/
theorem entryDatum?_replace {name : String} {old : Value} (value : Value)
    (h : entries.get? name = some old) :
    entryDatum? (entries.replace name value) =
      Function.update (entryDatum? entries) name (some value.datum) := by
  induction entries with
  | nil => cases h
  | cons entry rest ih =>
    obtain ⟨key, first⟩ := entry
    funext other
    unfold Entries.replace
    split
    · next hkey =>
      subst hkey
      by_cases hother : key.name = other
      · subst hother
        rw [Function.update_self, entryDatum?_cons, if_pos rfl]
      · rw [Function.update_of_ne (Ne.symm hother), entryDatum?_cons, entryDatum?_cons,
          if_neg hother, if_neg hother]
    · next hkey =>
      have hrest : Entries.get? rest name = some old := by
        simpa [Entries.get?, hkey] using h
      by_cases hother : key.name = other
      · rw [Function.update_of_ne fun heq => hkey (hother.trans heq), entryDatum?_cons,
          entryDatum?_cons, if_pos hother, if_pos hother]
      · rw [entryDatum?_cons, if_neg hother, ih hrest]
        by_cases hname : other = name
        · subst hname
          rw [Function.update_self, Function.update_self]
        · rw [Function.update_of_ne hname, Function.update_of_ne hname, entryDatum?_cons,
            if_neg hother]

end EventBridge.Toml
