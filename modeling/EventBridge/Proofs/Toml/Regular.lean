import EventBridge.Proofs.Result
import EventBridge.Toml.Reader

/-! # What a document is made of

  In whatever order the lines of a document put its tables together, every table has each of its
  keys once, and every integer has 64 bits.

  * `Value.Regular` says so of a value and of all that is in it, `Entries.Regular` of the entries of
    a table.
  * `Edit.Keeps` is what a change at the end of a way needs for that. `regular_editAt` carries it
    back along the way, and so through everything that a line can do to a draft.
  * `regular_parse` is the statement about documents.
-/

namespace EventBridge.Toml

/-! ### Regular values -/

/-- Tables have each key once and integers have 64 bits, at every depth. -/
inductive Value.Regular : Value → Prop where
  | string (span : Span) (s : String) : Regular (.string span s)
  | integer (span : Span) {n : Int} : fits64 n = true → Regular (.integer span n)
  | float (span : Span) (x : Real64) : Regular (.float span x)
  | boolean (span : Span) (b : Bool) : Regular (.boolean span b)
  | datetime (span : Span) : Regular (.datetime span)
  | array (span : Span) {items : List Value} :
    (∀ item ∈ items, Regular item) → Regular (.array span items)
  | tables (span : Option Span) {items : List Value} :
    (∀ item ∈ items, Regular item) → Regular (.tables span items)
  | table (span : Option Span) (origin : Origin) {entries : Entries} :
    (entries.map fun entry => entry.1.name).Nodup → (∀ entry ∈ entries, Regular entry.2) →
    Regular (.table span origin entries)

/-- The same of the entries of a table. -/
structure Entries.Regular (entries : Entries) : Prop where
  distinct : (entries.map fun entry => entry.1.name).Nodup
  values : ∀ entry ∈ entries, entry.2.Regular

theorem Value.regular_table_iff {span : Option Span} {origin : Origin} {entries : Entries} :
    (Value.table span origin entries).Regular ↔ entries.Regular := by
  constructor
  · rintro (_ | _ | _ | _ | _ | _ | _ | ⟨_, _, hdistinct, hvalues⟩)
    exact ⟨hdistinct, hvalues⟩
  · intro h
    exact .table span origin h.distinct h.values

theorem Value.Regular.items {span : Option Span} {items : List Value}
    (h : (Value.tables span items).Regular) : ∀ item ∈ items, item.Regular := by
  cases h with
  | tables _ hitems => exact hitems

/-! ### Entries -/

namespace Entries

variable {entries : Entries} {name : String} {value : Value}

theorem get?_eq_none_iff : entries.get? name = none ↔ ∀ entry ∈ entries, entry.1.name ≠ name := by
  simp [get?]

/-- What is found under a name is the value of an entry of that name. -/
theorem mem_of_get? (h : entries.get? name = some value) :
    ∃ key, key.name = name ∧ (key, value) ∈ entries := by
  obtain ⟨⟨key, _⟩, hfind, rfl⟩ := Option.map_eq_some_iff.1 h
  exact ⟨key, by simpa using List.find?_some hfind, List.mem_of_find?_eq_some hfind⟩

/-- To replace a value leaves the names as they are. -/
theorem names_replace (entries : Entries) (name : String) (value : Value) :
    (entries.replace name value).map (fun entry => entry.1.name) =
      entries.map fun entry => entry.1.name := by
  induction entries with
  | nil => rfl
  | cons entry rest ih =>
    obtain ⟨key, old⟩ := entry
    unfold replace
    split
    · rfl
    · rw [List.map_cons, List.map_cons, ih]

/-- The values after a replacement are the new one and some of those before. -/
theorem mem_replace {entry : Key × Value} (h : entry ∈ entries.replace name value) :
    entry.2 = value ∨ entry ∈ entries := by
  induction entries with
  | nil => cases h
  | cons first rest ih =>
    obtain ⟨key, old⟩ := first
    unfold replace at h
    split at h
    · rcases List.mem_cons.1 h with rfl | hrest
      · exact .inl rfl
      · exact .inr (List.mem_cons_of_mem _ hrest)
    · rcases List.mem_cons.1 h with rfl | hrest
      · exact .inr List.mem_cons_self
      · exact (ih hrest).imp_right (List.mem_cons_of_mem _)

theorem regular_nil : Entries.Regular [] := ⟨.nil, nofun⟩

theorem Regular.get? (h : entries.Regular) (hget : entries.get? name = some value) :
    value.Regular := by
  obtain ⟨key, -, hmem⟩ := mem_of_get? hget
  exact h.values _ hmem

/-- An entry of a new name goes behind the others. -/
theorem Regular.concat (h : entries.Regular) {key : Key} (hkey : entries.get? key.name = none)
    (hvalue : value.Regular) : Entries.Regular (entries ++ [(key, value)]) where
  distinct := by
    rw [List.map_append, List.map_singleton]
    refine List.nodup_append.2 ⟨h.distinct, by simp, ?_⟩
    rintro name hname other hother rfl
    obtain ⟨entry, hentry, rfl⟩ := List.mem_map.1 hname
    exact get?_eq_none_iff.1 hkey entry hentry (List.mem_singleton.1 hother)
  values := by
    intro entry hentry
    rcases List.mem_append.1 hentry with hold | hnew
    · exact h.values entry hold
    · rw [List.mem_singleton.1 hnew]
      exact hvalue

theorem Regular.replace (h : entries.Regular) (name : String) (hvalue : value.Regular) :
    (entries.replace name value).Regular where
  distinct := by
    rw [names_replace]
    exact h.distinct
  values := by
    intro entry hentry
    rcases mem_replace hentry with hnew | hold
    · rwa [hnew]
    · exact h.values entry hold

theorem Regular.filter (h : entries.Regular) (p : Key × Value → Bool) :
    Entries.Regular (entries.filter p) where
  distinct := h.distinct.sublist (List.filter_sublist.map _)
  values := fun entry hentry => h.values entry (List.mem_filter.1 hentry).1

end Entries

/-! ### Changes at the end of a way -/

/-- A change that keeps entries regular. -/
def Edit.Keeps (edit : Edit) : Prop :=
  ∀ origin entries after, entries.Regular → edit origin entries = .ok after → after.Regular

/-- The tables on the way stay regular if the one at its end does. -/
theorem regular_editAt {dotted : Bool} {edit : Edit} (hedit : edit.Keeps) {passed : List String}
    {path : List Key} {origin : Origin} {entries after : Entries} (h : entries.Regular)
    (hafter : editAt dotted edit passed path origin entries = .ok after) : after.Regular := by
  induction path generalizing passed origin entries after with
  | nil => exact hedit origin entries after h hafter
  | cons key path ih =>
    unfold editAt at hafter
    dsimp only at hafter
    split at hafter
    · next hnone =>
      -- The way leads on through a table that is made for it.
      obtain ⟨inner, hinner, hafter⟩ := ok_of_bind hafter
      cases hafter
      exact h.concat hnone (Value.regular_table_iff.2 (ih Entries.regular_nil hinner))
    · cases hafter
    · next span origin inner _ hget =>
      split at hafter
      · obtain ⟨changed, hchanged, hafter⟩ := ok_of_bind hafter
        cases hafter
        have hinner : Entries.Regular inner := Value.regular_table_iff.1 (h.get? hget)
        exact h.replace key.name (Value.regular_table_iff.2 (ih hinner hchanged))
      · cases hafter
    · next span items hget =>
      have hitems := (h.get? hget).items
      split at hafter
      · next last origin inner before hreverse =>
        obtain ⟨changed, hchanged, hafter⟩ := ok_of_bind hafter
        cases hafter
        have hmem : ∀ item, item ∈ items ↔ item ∈ Value.table last origin inner :: before := by
          intro item
          rw [← hreverse, List.mem_reverse]
        have hinner : Entries.Regular inner :=
          Value.regular_table_iff.1 (hitems _ ((hmem _).2 List.mem_cons_self))
        refine h.replace key.name (.tables span fun item hitem => ?_)
        rcases List.mem_cons.1 (List.mem_reverse.1 hitem) with rfl | hbefore
        · exact Value.regular_table_iff.2 (ih hinner hchanged)
        · exact hitems item ((hmem item).2 (List.mem_cons_of_mem _ hbefore))
      · cases hafter
    · cases hafter

/-- A key is added where there is none of its name. -/
theorem regular_addKey {table : Option (List String)} {path : List Key} {key : Key} {value : Value}
    {entries after : Entries} (h : entries.Regular) (hvalue : value.Regular)
    (hafter : addKey table path key value entries = .ok after) : after.Regular := by
  refine regular_editAt ?_ h hafter
  intro origin inner after hinner hafter
  dsimp only at hafter
  split at hafter
  · cases hafter
  · split at hafter
    · cases hafter
    · next hnone =>
      cases hafter
      exact hinner.concat (Option.not_isSome_iff_eq_none.1 hnone) hvalue

/-! ### Drafts -/

/-- The tables that are complete are regular, and so is the one that is not. -/
structure Draft.Regular (draft : Draft) : Prop where
  root : draft.root.Regular
  current : draft.current.entries.Regular

theorem Draft.Regular.close {draft : Draft} (h : draft.Regular) {root : Entries} {span : Span}
    (hclose : draft.close = .ok (root, span)) : root.Regular := by
  unfold Draft.close at hclose
  dsimp only at hclose
  split at hclose
  · cases hclose
    exact h.current
  · next parents key _ =>
    obtain ⟨changed, hchanged, hpair⟩ := ok_of_map hclose
    cases hpair
    refine regular_editAt ?_ h.root hchanged
    intro origin inner after hinner hafter
    have htable : ∀ span origin, (Value.table span origin draft.current.entries).Regular :=
      fun _ _ => Value.regular_table_iff.2 h.current
    dsimp only at hafter
    split at hafter
    · next hnone =>
      split at hafter
      · cases hafter
        refine hinner.concat hnone (.tables _ fun item hitem => ?_)
        rw [List.mem_singleton.1 hitem]
        exact htable _ _
      · cases hafter
        exact hinner.concat hnone (htable _ _)
    · next hget =>
      split at hafter
      · cases hafter
        refine hinner.replace key.name (.tables _ fun item hitem => ?_)
        rcases List.mem_append.1 hitem with hold | hnew
        · exact (hinner.get? hget).items item hold
        · rw [List.mem_singleton.1 hnew]
          exact htable _ _
      · cases hafter
    · cases hafter

/-- The entries at the end of a way are those of a table of the document. -/
theorem regular_lookup {path : List Key} {entries found : Entries} (h : entries.Regular)
    (hfound : takeImplied.lookup path entries = some found) : found.Regular := by
  induction path generalizing entries with
  | nil =>
    cases hfound
    exact h
  | cons key path ih =>
    unfold takeImplied.lookup at hfound
    split at hfound
    · next hget => exact ih (Value.regular_table_iff.1 (h.get? hget)) hfound
    · next hget =>
      split at hfound
      · next hlast =>
        have hmem := (h.get? hget).items _ (List.mem_of_getLast? hlast)
        exact ih (Value.regular_table_iff.1 hmem) hfound
      · cases hfound
    · cases hfound

theorem regular_takeImplied {parents : List Key} {key : Key} {root rest entries : Entries}
    (h : root.Regular) (htake : takeImplied parents key root = .ok (rest, entries)) :
    rest.Regular ∧ entries.Regular := by
  unfold takeImplied at htake
  obtain ⟨same, hsame, htake⟩ := ok_of_bind htake
  obtain ⟨others, hothers, htake⟩ := ok_of_bind htake
  cases htake
  have hroot : same.Regular := by
    refine regular_editAt ?_ h hsame
    intro origin inner after hinner hafter
    obtain ⟨_, -, rfl⟩ := ok_of_map hafter
    exact hinner
  constructor
  · refine regular_editAt ?_ hroot hothers
    intro origin inner after hinner hafter
    cases hafter
    exact hinner.filter _
  · split
    · next hlookup =>
      have hinner := regular_lookup hroot hlookup
      split
      · next hget => exact Value.regular_table_iff.1 (hinner.get? hget)
      · exact Entries.regular_nil
    · exact Entries.regular_nil

theorem Draft.Regular.begin {draft next : Draft} (h : draft.Regular) {path : List Key}
    {listed : Bool} {span : Span} (hnext : draft.begin path listed span = .ok next) :
    next.Regular := by
  unfold Draft.begin at hnext
  obtain ⟨⟨root, rootSpan⟩, hclose, hnext⟩ := ok_of_bind hnext
  have hroot := h.close hclose
  dsimp only at hnext
  split at hnext
  · cases hnext
    exact h
  · split at hnext
    · obtain ⟨same, hsame, hnext⟩ := ok_of_bind hnext
      cases hnext
      refine ⟨regular_editAt ?_ hroot hsame, Entries.regular_nil⟩
      intro origin inner after hinner hafter
      dsimp only at hafter
      split at hafter
      · cases hafter
        exact hinner
      · cases hafter
        exact hinner
      · cases hafter
    · obtain ⟨⟨rest, entries⟩, htake, hnext⟩ := ok_of_bind hnext
      cases hnext
      obtain ⟨hrest, hentries⟩ := regular_takeImplied hroot htake
      exact ⟨hrest, hentries⟩

theorem Draft.Regular.add {draft next : Draft} (h : draft.Regular) {path : List Key} {key : Key}
    {value : Value} (hvalue : value.Regular) (hnext : draft.add path key value = .ok next) :
    next.Regular := by
  unfold Draft.add at hnext
  obtain ⟨entries, hentries, hnext⟩ := ok_of_bind hnext
  cases hnext
  exact ⟨h.root, regular_addKey h.current hvalue hentries⟩

/-! ### Values -/

theorem fits64_of_inRange {n m : Int} (h : inRange n = some m) : fits64 m = true := by
  unfold inRange at h
  split at h
  · next hfits =>
    cases h
    exact hfits
  · cases h

theorem fits64_of_based {base : Nat} {digit? : Char → Option Nat} {cs rest : List Char} {n : Int}
    (h : based base digit? cs = some (n, rest)) : fits64 n = true := by
  obtain ⟨_, -, h⟩ := Option.bind_eq_some_iff.1 h
  obtain ⟨_, hrange, h⟩ := Option.bind_eq_some_iff.1 h
  cases h
  exact fits64_of_inRange hrange

/-- Integers are read up to 64 bits, of whatever base they are. -/
theorem fits64_of_integer {cs rest : List Char} {n : Int} (h : integer cs = some (n, rest)) :
    fits64 n = true := by
  unfold integer at h
  split at h
  · exact fits64_of_based h
  · exact fits64_of_based h
  · exact fits64_of_based h
  · obtain ⟨_, -, h⟩ := Option.bind_eq_some_iff.1 h
    obtain ⟨_, hrange, h⟩ := Option.bind_eq_some_iff.1 h
    cases h
    exact fits64_of_inRange hrange

/-- A reader of values of which each is regular. -/
def ReadsRegular (read : List Char → Except SyntaxError (Value × List Char)) : Prop :=
  ∀ cs value rest, read cs = .ok (value, rest) → value.Regular

theorem readsRegular_numeric : ReadsRegular numeric := by
  intro cs value rest h
  unfold numeric at h
  dsimp only at h
  split at h
  · cases h
    exact .datetime _
  · split at h
    · cases h
      exact .float _ _
    · split at h
      · next hinteger =>
        cases h
        exact .integer _ (fits64_of_integer hinteger)
      · cases h

theorem readsRegular_scalar : ReadsRegular scalar := by
  intro cs value rest h
  unfold scalar at h
  dsimp only at h
  split at h
  · obtain ⟨⟨text, after⟩, -, h⟩ := ok_of_bind h
    cases h
    exact .string _ _
  · obtain ⟨⟨text, after⟩, -, h⟩ := ok_of_bind h
    cases h
    exact .string _ _
  · split at h
    · cases h
      exact .boolean _ _
    · cases h
  · split at h
    · cases h
      exact .boolean _ _
    · cases h
  · split at h
    · cases h
      exact .float _ _
    · cases h
  · split at h
    · cases h
      exact .float _ _
    · cases h
  · split at h
    · exact readsRegular_numeric _ _ _ h
    · split at h <;> cases h
  · cases h

section Nested

variable {read : List Char → Except SyntaxError (Value × List Char)}

/-- The items of an array are regular if what is read for each of them is. -/
theorem regular_items (hread : ReadsRegular read) {fuel : Nat} {cs rest : List Char}
    {found : List Value} (h : items read fuel cs = .ok (found, rest)) :
    ∀ item ∈ found, item.Regular := by
  induction fuel generalizing cs found rest with
  | zero => cases h
  | succ fuel ih =>
    unfold items at h
    obtain ⟨before, -, h⟩ := ok_of_bind h
    split at h
    · cases h
      exact nofun
    · obtain ⟨⟨first, after⟩, hfirst, h⟩ := ok_of_bind h
      have hregular := hread _ _ _ hfirst
      obtain ⟨behind, -, h⟩ := ok_of_bind h
      split at h
      · obtain ⟨⟨others, last⟩, hothers, h⟩ := ok_of_bind h
        cases h
        exact List.forall_mem_cons.2 ⟨hregular, ih hothers⟩
      · cases h
        exact List.forall_mem_singleton.2 hregular
      · cases h

/-- So are the entries of a table between braces. -/
theorem regular_pairs (hread : ReadsRegular read) {fuel : Nat} {cs rest : List Char}
    {entries found : Entries} (hentries : entries.Regular)
    (h : pairs read fuel entries cs = .ok (found, rest)) : found.Regular := by
  induction fuel generalizing cs entries found rest with
  | zero => cases h
  | succ fuel ih =>
    unfold pairs at h
    obtain ⟨⟨path, key, afterKey⟩, -, h⟩ := ok_of_bind h
    obtain ⟨afterSign, -, h⟩ := ok_of_bind h
    obtain ⟨⟨value, afterValue⟩, hvalue, h⟩ := ok_of_bind h
    have hregular := hread _ _ _ hvalue
    dsimp only at h
    split at h
    · next added hadd =>
      have hadded : Entries.Regular added := regular_addKey hentries hregular hadd
      rw [pure_eq_ok, ok_bind] at h
      split at h
      · exact ih hadded h
      · cases h
        exact hadded
      · cases h
    · cases h

end Nested

/-- Values are regular at every depth. -/
theorem readsRegular_readValue (depth : Nat) : ReadsRegular (readValue depth) := by
  induction depth with
  | zero =>
    intro cs value rest h
    unfold readValue at h
    split at h
    · cases h
    · cases h
    · exact readsRegular_scalar _ _ _ h
  | succ depth ih =>
    intro cs value rest h
    unfold readValue at h
    split at h
    · obtain ⟨⟨found, after⟩, hfound, h⟩ := ok_of_bind h
      cases h
      exact .array _ (regular_items ih hfound)
    · dsimp only at h
      split at h
      · cases h
        exact Value.regular_table_iff.2 Entries.regular_nil
      · obtain ⟨⟨found, after⟩, hfound, h⟩ := ok_of_bind h
        cases h
        exact Value.regular_table_iff.2 (regular_pairs ih Entries.regular_nil hfound)
    · exact readsRegular_scalar _ _ _ h

/-! ### Lines and documents -/

/-- What a line does to the document is done to the draft. -/
theorem ok_of_placed {α : Type} {line : List Char} {label : String} {result : Except Conflict α}
    {a : α} (h : placed line label result = .ok a) : result = .ok a := by
  unfold placed at h
  split at h
  · rw [Except.ok.inj h]
  · cases h

variable {draft next : Draft} {cs rest : List Char}

theorem Draft.Regular.entryLine (h : draft.Regular)
    (hline : entryLine draft cs = .ok (next, rest)) : next.Regular := by
  unfold Toml.entryLine at hline
  obtain ⟨⟨path, key, afterKey⟩, -, hline⟩ := ok_of_bind hline
  obtain ⟨afterSign, -, hline⟩ := ok_of_bind hline
  obtain ⟨⟨value, afterValue⟩, hvalue, hline⟩ := ok_of_bind hline
  obtain ⟨afterLine, -, hline⟩ := ok_of_bind hline
  obtain ⟨added, hadded, hline⟩ := ok_of_bind hline
  cases hline
  exact h.add (readsRegular_readValue _ _ _ _ hvalue) (ok_of_placed hadded)

theorem Draft.Regular.headerLine (h : draft.Regular)
    (hline : headerLine draft cs = .ok (next, rest)) : next.Regular := by
  unfold Toml.headerLine at hline
  dsimp only at hline
  obtain ⟨⟨path, afterPath⟩, -, hline⟩ := ok_of_bind hline
  dsimp only at hline
  -- Whichever brackets close the header, the rest of the line follows.
  split at hline
  case h_3 => cases hline
  case h_4 => cases hline
  all_goals
    rw [pure_eq_ok, ok_bind] at hline
    split at hline
    · rw [pure_eq_ok, ok_bind] at hline
      obtain ⟨begun, hbegun, hline⟩ := ok_of_bind hline
      cases hline
      exact h.begin (ok_of_placed hbegun)
    · cases hline

/-- A draft stays regular line by line. -/
theorem Draft.Regular.readLines {fuel : Nat} (h : draft.Regular)
    (hlines : readLines fuel draft cs = .ok next) : next.Regular := by
  induction fuel generalizing draft cs with
  | zero =>
    cases hlines
    exact h
  | succ fuel ih =>
    unfold Toml.readLines at hlines
    split at hlines
    · cases hlines
      exact h
    · obtain ⟨after, -, hlines⟩ := ok_of_bind hlines
      exact ih h hlines
    · obtain ⟨⟨begun, after⟩, hbegun, hlines⟩ := ok_of_bind hlines
      exact ih (h.headerLine hbegun) hlines
    · split at hlines
      · exact ih h hlines
      · obtain ⟨⟨added, after⟩, hadded, hlines⟩ := ok_of_bind hlines
        exact ih (h.entryLine hadded) hlines

/-- A document is a table, and regular. -/
theorem regular_parse {text : String} {document : Value} (h : parse text = .ok document) :
    ∃ span root, document = .table (some span) .explicit root ∧
      Entries.Regular root := by
  unfold parse at h
  dsimp only at h
  obtain ⟨draft, hdraft, h⟩ := ok_of_bind h
  obtain ⟨⟨root, span⟩, hclose, h⟩ := ok_of_bind h
  cases h
  have hempty : ∀ span, (Draft.mk [] span ⟨[], false, span, []⟩).Regular :=
    fun _ => ⟨Entries.regular_nil, Entries.regular_nil⟩
  exact ⟨span, root, rfl, ((hempty _).readLines hdraft).close (ok_of_placed hclose)⟩

end EventBridge.Toml
