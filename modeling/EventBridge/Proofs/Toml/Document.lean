import EventBridge.Proofs.Toml.Strings
import Mathlib.Data.List.Forall2
import Mathlib.Data.List.TakeDrop

/-! # Reading back documents

  A document of tables whose keys are set to texts, numbers and truth values is read as those tables
  with those settings.

  * A `Setting` is what a key is set to, `Setting.text?` how it is written, and `Setting.at` the
    value that the reader makes of it. Where a value stands in the text does not matter here.
  * `numeric_decimal`: digits alone are a number, no date, no time and no float.
  * A line adds its setting to the draft (`entryLine_setting`), a header closes one table and opens
    the next (`headerLine_opens`).
  * `readLines_settings` and `readLines_tables` are the loops over the lines of a table and over the
    tables; what holds of the draft between the lines is `Draft.Holds`.
-/

namespace EventBridge.Toml

open Text (digit10? decimal ofDigits spanDigits numeral_toDigits digitsOf_ten spanDigits_append
  decimal_cons)

variable {text cs rest : List Char} {ds : List Nat}

/-! ### Numbers -/

/-- Behind as many digits as asked for there are the other digits. -/
theorem exactly_digits {count v : Nat} {more : List Char}
    (htext : text.map digit10? = ds.map some)
    (h : exactly count (text ++ '\n' :: rest) = some (v, more)) :
    more = text.drop count ++ '\n' :: rest := by
  by_cases hcount : count ≤ text.length
  · have hdrop : (text ++ '\n' :: rest).drop count = text.drop count ++ '\n' :: rest :=
      List.drop_append_of_le_length hcount
    unfold exactly at h
    simp only at h
    split at h
    · obtain ⟨-, hmore⟩ := Prod.mk.inj (Option.some.inj h)
      rw [← hmore, hdrop]
    · cases h
  · -- There are not so many.
    have hlength : text.length = ds.length := by
      simpa using congrArg List.length htext
    have hspan : spanDigits digit10? ((text ++ '\n' :: rest).take count) =
        (ds, ('\n' :: rest).take (count - text.length)) := by
      rw [List.take_append, List.take_of_length_le (by omega)]
      refine spanDigits_append htext ?_
      rw [show count - text.length = count - text.length - 1 + 1 by omega]
      simp [digit10?]
    have hfew : ¬ds.length = count := by omega
    simp [exactly, hspan, hfew] at h

/-- Among digits, and at the end of their line, there is no such mark. -/
theorem expect_digits (mark : Char) (htext : text.map digit10? = ds.map some)
    (hmark : digit10? mark = none) (hfeed : mark ≠ '\n') (count : Nat) :
    expect mark (text.drop count ++ '\n' :: rest) = none := by
  have hdrop : (text.drop count).map digit10? = (ds.drop count).map some := by
    rw [List.map_drop, htext, List.map_drop]
  cases hmore : text.drop count with
  | nil => simp [expect, hfeed.symm]
  | cons c cs =>
    rw [hmore] at hdrop
    have hne : c ≠ mark := by
      rintro rfl
      cases hds : ds.drop count with
      | nil => simp [hds] at hdrop
      | cons d others => simp [hds, hmark] at hdrop
    simp [expect, hne]

/-- Digits alone are no date and no time. -/
theorem dateTime?_digits (htext : text.map digit10? = ds.map some) :
    dateTime? (text ++ '\n' :: rest) = none := by
  have hdate : date? (text ++ '\n' :: rest) = none := by
    unfold date?
    cases hyear : exactly 4 (text ++ '\n' :: rest) with
    | none => rfl
    | some found =>
      obtain ⟨year, more⟩ := found
      obtain rfl := exactly_digits htext hyear
      simp [expect_digits '-' htext (by decide) (by decide)]
  have htime : time? (text ++ '\n' :: rest) = none := by
    unfold time? part
    cases hhour : exactly 2 (text ++ '\n' :: rest) with
    | none => rfl
    | some found =>
      obtain ⟨hour, more⟩ := found
      obtain rfl := exactly_digits htext hhour
      have hmark : expect ':' (text.drop 2 ++ '\n' :: rest) = none :=
        expect_digits ':' htext (by decide) (by decide) 2
      by_cases hrange : hour ≤ 23
      · simp [hrange, hmark]
      · simp [hrange]
  simp [dateTime?, hdate, htime]

theorem moreDigits_digits (htext : text.map digit10? = ds.map some) :
    moreDigits digit10? (text ++ '\n' :: rest) = some (ds, '\n' :: rest) := by
  induction text generalizing ds with
  | nil =>
    obtain rfl : ds = [] := by simpa using htext.symm
    simp [moreDigits, digit10?]
  | cons c text ih =>
    obtain ⟨d, ds, rfl⟩ : ∃ d ds', ds = d :: ds' := by
      cases ds with
      | nil => simp at htext
      | cons d ds => exact ⟨d, ds, rfl⟩
    obtain ⟨hc, htext⟩ : digit10? c = some d ∧ text.map digit10? = ds.map some := by
      simpa using htext
    have hgroup : c ≠ '_' := by
      rintro rfl
      simp [digit10?] at hc
    simp [moreDigits, hgroup, hc, ih htext]

/-- The digits of a number are read as they stand; a zero in front is the only one. -/
theorem wholeDigits_decimal (n : Nat) (rest : List Char) :
    ∃ ds, wholeDigits (decimal n ++ '\n' :: rest) = some (ds, '\n' :: rest) ∧
      ofDigits 10 ds = n := by
  obtain ⟨ds, htext, hnumeral⟩ := numeral_toDigits (by decide) digitsOf_ten n
  obtain ⟨c, cs, hchars, -⟩ := decimal_cons n
  refine ⟨ds, ?_, hnumeral.value⟩
  rw [show Nat.toDigits 10 n = c :: cs from hchars] at htext
  rw [hchars]
  obtain ⟨d, ds, rfl⟩ := List.exists_cons_of_ne_nil hnumeral.ne_nil
  obtain ⟨hc, hcs⟩ : digit10? c = some d ∧ cs.map digit10? = ds.map some := by
    simpa using htext
  by_cases hzero : c = '0'
  · subst hzero
    obtain rfl : 0 = d := Option.some.inj hc
    obtain ⟨-, rfl⟩ := List.cons.inj (hnumeral.plain rfl)
    obtain rfl : cs = [] := by simpa using hcs
    rfl
  · simp [wholeDigits, hzero, grouped, hc, moreDigits_digits hcs]

/-- A digit is no sign, and no letter of a word. -/
theorem ne_of_digit {c mark : Char} (h : (digit10? c).isSome) (hmark : digit10? mark = none) :
    c ≠ mark := by
  rintro rfl
  simp [hmark] at h

/-- There is no sign in front of a number. -/
theorem signed_decimal (n : Nat) (rest : List Char) :
    signed (decimal n ++ rest) = (false, decimal n ++ rest) := by
  obtain ⟨c, cs, hchars, hc⟩ := decimal_cons n
  have hminus : c ≠ '-' := ne_of_digit hc (by decide)
  have hplus : c ≠ '+' := ne_of_digit hc (by decide)
  rw [hchars]
  simp [signed, hminus, hplus]

/-- A number without fraction and exponent is no float. -/
theorem float_decimal (n : Nat) (rest : List Char) :
    float (decimal n ++ '\n' :: rest) = none := by
  obtain ⟨ds, hds, -⟩ := wholeDigits_decimal n rest
  have hspecial : special false (decimal n ++ '\n' :: rest) = none := by
    obtain ⟨c, cs, hchars, hc⟩ := decimal_cons n
    have hi : c ≠ 'i' := ne_of_digit hc (by decide)
    have hn : c ≠ 'n' := ne_of_digit hc (by decide)
    rw [hchars]
    simp [special, hi, hn]
  simp [float, signed_decimal, hspecial, hds]

/-- An integer in base 10 does not begin like one of another base. -/
theorem integer_of_plain (h : ∀ mark ∈ ['x', 'o', 'b'], ∀ more, cs ≠ '0' :: mark :: more) :
    integer cs =
      (do let (negative, rest) := signed cs
          let (digits, rest) ← wholeDigits rest
          let n : Int := ofDigits 10 digits
          let n ← inRange (if negative then -n else n)
          return (n, rest)) := by
  unfold integer
  -- The mark of another base is behind a zero.
  split
  · exact absurd rfl (h 'x' (by simp) _)
  · exact absurd rfl (h 'o' (by simp) _)
  · exact absurd rfl (h 'b' (by simp) _)
  · rfl

/-- A letter does not follow the first digit of a number. -/
theorem decimal_plain (n : Nat) (rest : List Char) :
    ∀ mark ∈ ['x', 'o', 'b'], ∀ more, decimal n ++ '\n' :: rest ≠ '0' :: mark :: more := by
  intro mark hmark more heq
  have hletter : digit10? mark = none ∧ mark ≠ '\n' := by
    simp only [List.mem_cons, List.not_mem_nil, or_false] at hmark
    rcases hmark with rfl | rfl | rfl <;> decide
  obtain ⟨ds, htext, -⟩ := numeral_toDigits (by decide) digitsOf_ten n
  have hnone : expect mark ((decimal n).drop 1 ++ '\n' :: rest) = none :=
    expect_digits mark htext hletter.1 hletter.2 1
  obtain ⟨c, cs, hchars, -⟩ := decimal_cons n
  rw [hchars] at heq hnone
  have hmore : cs ++ '\n' :: rest = mark :: more := (List.cons.inj heq).2
  simp [hmore, expect] at hnone

theorem integer_decimal {n : Nat} (hn : (n : Int) ≤ Int64.maxValue.toInt) (rest : List Char) :
    integer (decimal n ++ '\n' :: rest) = some ((n : Int), '\n' :: rest) := by
  obtain ⟨ds, hds, hvalue⟩ := wholeDigits_decimal n rest
  have hrange : inRange (n : Int) = some (n : Int) := by
    simp [inRange, fits64, hn]
  rw [integer_of_plain (decimal_plain n rest), signed_decimal]
  simp [hds, hvalue, hrange]

/-- Digits alone are a number. -/
theorem numeric_decimal {n : Nat} (hn : (n : Int) ≤ Int64.maxValue.toInt) (rest : List Char) :
    ∃ span, numeric (decimal n ++ '\n' :: rest) = .ok (.integer span n, '\n' :: rest) := by
  obtain ⟨ds, htext, -⟩ := numeral_toDigits (by decide) digitsOf_ten n
  have hdate : dateTime? (decimal n ++ '\n' :: rest) = none := dateTime?_digits htext
  exact ⟨_, by simp only [numeric, hdate, float_decimal, integer_decimal hn]; rfl⟩

/-! ### Settings -/

/-- What a key of a table is set to. -/
inductive Setting where
  | text (value : String)
  | number (value : Nat)
  | switch (value : Bool)

/-- The text of a setting, unless its number has none. -/
def Setting.text? : Setting → Option String
  | .text value => some (stringText value)
  | .number value => naturalText? value
  | .switch value => some (booleanText value)

/-- The setting as a value that stands somewhere. -/
def Setting.at (span : Span) : Setting → Value
  | .text value => .string span value
  | .number value => .integer span value
  | .switch value => .boolean span value

theorem scalar_numeric {c : Char} (hc : (digit10? c).isSome) (cs : List Char) :
    scalar (c :: cs) = numeric (c :: cs) := by
  have hquote : c ≠ '\x22' := ne_of_digit hc (by decide)
  have hsingle : c ≠ '\'' := ne_of_digit hc (by decide)
  have ht : c ≠ 't' := ne_of_digit hc (by decide)
  have hf : c ≠ 'f' := ne_of_digit hc (by decide)
  have hi : c ≠ 'i' := ne_of_digit hc (by decide)
  have hn : c ≠ 'n' := ne_of_digit hc (by decide)
  simp [scalar, hc]

/-- A setting is read back from its text. -/
theorem scalar_setting {setting : Setting} {text : String} (h : setting.text? = some text)
    (rest : List Char) :
    ∃ span, scalar (text.toList ++ '\n' :: rest) = .ok (setting.at span, '\n' :: rest) := by
  cases setting with
  | text value =>
    obtain rfl := Option.some.inj h
    exact scalar_stringText value rest
  | number n =>
    obtain ⟨hn, rfl⟩ : (n : Int) ≤ Int64.maxValue.toInt ∧ toString n = text := by
      simpa [Setting.text?, naturalText?] using h
    obtain ⟨span, hread⟩ := numeric_decimal hn rest
    have htext : (toString n).toList = decimal n := String.toList_ofList
    obtain ⟨c, cs, hchars, hc⟩ := decimal_cons n
    refine ⟨span, ?_⟩
    rw [htext]
    rw [hchars] at hread ⊢
    exact (scalar_numeric hc _).trans hread
  | switch value =>
    obtain rfl := Option.some.inj h
    cases value with
    | true => exact ⟨_, rfl⟩
    | false => exact ⟨_, rfl⟩

/-- Neither a blank nor the bracket of an array or a table begins a value without parts. -/
theorem scalar_begins {value : Value} (h : scalar cs = .ok (value, rest)) :
    ∃ c more, cs = c :: more ∧ isSpace c = false ∧ c ≠ '[' ∧ c ≠ '\x7b' := by
  cases cs with
  | nil => cases h
  | cons c more =>
    have hwrong : ∀ mark ∈ [' ', '\t', '[', '\x7b'], c ≠ mark := by
      intro mark hmark
      rintro rfl
      simp only [List.mem_cons, List.not_mem_nil, or_false] at hmark
      rcases hmark with rfl | rfl | rfl | rfl
      all_goals cases h
    refine ⟨c, more, rfl, ?_, hwrong '[' (by simp), hwrong '\x7b' (by simp)⟩
    simp [isSpace, hwrong ' ' (by simp), hwrong '\t' (by simp)]

theorem skipSpaces_cons {c : Char} (h : isSpace c = false) (cs : List Char) :
    skipSpaces (c :: cs) = c :: cs := by
  simp [skipSpaces, h]

/-- A value without parts is read behind the blank that follows the sign. -/
theorem readValue_of_scalar {depth : Nat} {value : Value} (h : scalar cs = .ok (value, rest)) :
    readValue depth (skipSpaces (' ' :: cs)) = .ok (value, rest) := by
  obtain ⟨c, more, rfl, hspace, hbracket, hbrace⟩ := scalar_begins h
  have hskip : skipSpaces (' ' :: c :: more) = c :: more := skipSpaces_cons hspace more
  rw [hskip]
  simp [readValue, hbracket, hbrace, h]

/-! ### Keys -/

/-- A name that is a key without quotes. -/
structure Bare (name : String) : Prop where
  ne_nil : name.toList ≠ []
  plain : ∀ c ∈ name.toList, inKey c = true

instance (name : String) : Decidable (Bare name) :=
  decidable_of_iff (name.toList ≠ [] ∧ name.toList.all inKey = true)
    ⟨fun ⟨hne, hall⟩ => ⟨hne, List.all_eq_true.1 hall⟩,
      fun h => ⟨h.ne_nil, List.all_eq_true.2 h.plain⟩⟩

theorem ne_of_inKey {c mark : Char} (h : inKey c = true) (hmark : inKey mark = false) :
    c ≠ mark := by
  rintro rfl
  simp [hmark] at h

theorem isSpace_of_inKey {c : Char} (h : inKey c = true) : isSpace c = false := by
  have hblank : c ≠ ' ' := ne_of_inKey h (by decide)
  have htab : c ≠ '\t' := ne_of_inKey h (by decide)
  simp [isSpace, hblank, htab]

theorem Bare.cons {name : String} (h : Bare name) :
    ∃ c cs, name.toList = c :: cs ∧ inKey c = true := by
  obtain ⟨c, cs, hchars⟩ := List.exists_cons_of_ne_nil h.ne_nil
  exact ⟨c, cs, hchars, h.plain c (by simp [hchars])⟩

/-- A bare name ends where something else than a key goes on. -/
theorem simpleKey_bare {name : String} (hname : Bare name)
    (hrest : ∀ c ∈ rest.head?, inKey c = false) :
    ∃ span, simpleKey (name.toList ++ rest) = .ok (⟨name, span⟩, rest) := by
  have hspan : (name.toList ++ rest).span inKey = (name.toList, rest) := by
    have hends : rest.takeWhile inKey = [] ∧ rest.dropWhile inKey = rest := by
      cases rest with
      | nil => simp
      | cons d rest =>
        have hd : inKey d = false := hrest d rfl
        simp [hd]
    rw [List.span_eq_takeWhile_dropWhile, List.takeWhile_append_of_pos hname.plain,
      List.dropWhile_append_of_pos hname.plain, hends.1, hends.2, List.append_nil]
  obtain ⟨c, cs, hchars, hc⟩ := hname.cons
  have hquote : c ≠ '\x22' := ne_of_inKey hc (by decide)
  have hsingle : c ≠ '\'' := ne_of_inKey hc (by decide)
  have hofList : String.ofList (c :: cs) = name := by
    rw [← hchars, String.ofList_toList]
  rw [hchars] at hspan ⊢
  refine ⟨⟨(c :: cs ++ rest).length, rest.length⟩, ?_⟩
  simp only [simpleKey, hspan]
  split
  · next heq => exact absurd (List.cons.inj heq).1 hquote
  · next heq => exact absurd (List.cons.inj heq).1 hsingle
  · simp [hofList]

/-- A key of one part, up to what follows it behind blanks. -/
theorem keyParts_bare {name : String} (hname : Bare name) (depth : Nat) (rest : List Char)
    (hrest : ∀ c ∈ rest.head?, inKey c = false) (hpoint : ∀ more, skipSpaces rest ≠ '.' :: more) :
    ∃ span, keyParts (depth + 1) (name.toList ++ rest) =
      .ok ([⟨name, span⟩], skipSpaces rest) := by
  obtain ⟨span, hkey⟩ := simpleKey_bare hname hrest
  have hskip : skipSpaces (name.toList ++ rest) = name.toList ++ rest := by
    obtain ⟨c, cs, hchars, hc⟩ := hname.cons
    rw [hchars]
    exact skipSpaces_cons (isSpace_of_inKey hc) _
  refine ⟨span, ?_⟩
  simp only [keyParts, hskip, hkey, ok_bind]
  rfl

/-! ### Drafts -/

/-- A table by its name and its settings, in order. -/
abbrev Table := String × List (String × Setting)

/-- The entries have these names, in this order, and their values hold what is said of them. -/
def Entries.Name {β : Type} (entries : Entries) (Holds : Value → β → Prop)
    (named : List (String × β)) : Prop :=
  List.Forall₂ (fun entry n => entry.1.name = n.1 ∧ Holds entry.2 n.2) entries named

/-- The value is a setting, wherever it stands. -/
def Value.Sets (value : Value) (setting : Setting) : Prop := ∃ span, value = setting.at span

/-- The value is a table under a header of its own with these settings. -/
def Value.Lists (value : Value) (settings : List (String × Setting)) : Prop :=
  ∃ span entries, value = .table span .explicit entries ∧ Entries.Name entries Value.Sets settings

section Named

variable {β : Type} {Holds : Value → β → Prop} {entries : Entries} {named : List (String × β)}

theorem Entries.Name.get?_eq_none (h : entries.Name Holds named) {name : String}
    (hname : name ∉ named.map Prod.fst) : entries.get? name = none := by
  simp only [Entries.get?, Option.map_eq_none_iff]
  induction h with
  | nil => rfl
  | @cons entry n entries named hentry _ ih =>
    obtain ⟨hne, hname⟩ : name ≠ n.1 ∧ name ∉ named.map Prod.fst := by simpa using hname
    have hother : ¬entry.1.name = name := by
      rw [hentry.1]
      exact hne.symm
    simp [hother, ih hname]

/-- The value of a name is what is said of it. -/
theorem Entries.Name.get? (h : entries.Name Holds named) (name : String) {b : β}
    (hlookup : named.lookup name = some b) :
    ∃ value, entries.get? name = some value ∧ Holds value b := by
  induction h with
  | nil => cases hlookup
  | @cons entry n entries named hentry _ ih =>
    obtain ⟨n, c⟩ := n
    obtain ⟨hname, hvalue⟩ := hentry
    by_cases hne : name = n
    · subst hne
      obtain rfl : c = b := by simpa using hlookup
      exact ⟨entry.2, by simp [Entries.get?, hname], hvalue⟩
    · obtain ⟨value, hget, hholds⟩ := ih (by
        simpa [List.lookup_cons, beq_false_of_ne hne] using hlookup)
      have hother : ¬entry.1.name = name := by
        rw [hname]
        exact Ne.symm hne
      exact ⟨value, by simpa [Entries.get?, hother] using hget, hholds⟩

theorem Entries.Name.concat (h : entries.Name Holds named) {key : Key} {value : Value} {b : β}
    (hvalue : Holds value b) :
    Entries.Name (entries ++ [(key, value)]) Holds (named ++ [(key.name, b)]) :=
  List.rel_append h (.cons ⟨rfl, hvalue⟩ .nil)

end Named

/-- Between two lines: the tables that are closed, and the one that is open. -/
structure Draft.Holds (draft : Draft) (closed : List Table) (now : Table) : Prop where
  root : draft.root.Name Value.Lists closed
  path : ∃ span, draft.current.path = [⟨now.1, span⟩]
  single : draft.current.listed = false
  entries : draft.current.entries.Name Value.Sets now.2

/-- The tables that there are once the open one is closed. -/
def Draft.Closes (draft : Draft) (tables : List Table) : Prop :=
  ∃ root span, draft.close = .ok (root, span) ∧ root.Name Value.Lists tables

variable {draft : Draft} {closed : List Table} {now : Table}

/-- A table is closed under its name, behind the others. -/
theorem Draft.Holds.closes (h : draft.Holds closed now) (hname : now.1 ∉ closed.map Prod.fst) :
    draft.Closes (closed ++ [now]) := by
  obtain ⟨span, hpath⟩ := h.path
  have hnone := h.root.get?_eq_none hname
  refine ⟨draft.root ++ [(⟨now.1, span⟩,
    .table (some draft.current.span) .explicit draft.current.entries)], draft.rootSpan, ?_, ?_⟩
  · simp [Draft.close, hpath, splitPath, editAt, hnone, h.single, Except.map]
  · exact h.root.concat ⟨_, _, rfl, h.entries⟩

/-- A header opens a table of a new name. -/
theorem Draft.Closes.begins (h : draft.Closes closed) (key : Key)
    (hname : key.name ∉ closed.map Prod.fst) (span : Span) :
    ∃ next, draft.begin [key] false span = .ok next ∧ next.Holds closed (key.name, []) := by
  obtain ⟨root, rootSpan, hclose, hroot⟩ := h
  -- There is no table of the name yet, so none is taken out to be gone on with.
  have hnone := hroot.get?_eq_none hname
  have hothers : (root.filter fun entry => entry.1.name != key.name) = root := by
    refine List.filter_eq_self.2 fun entry hentry => ?_
    simp only [Entries.get?, Option.map_eq_none_iff, List.find?_eq_none] at hnone
    simpa using hnone entry hentry
  have htake : takeImplied [] key root = .ok (root, []) := by
    simp [takeImplied, editAt, hnone, Except.map, hothers, takeImplied.lookup]
  refine ⟨⟨root, rootSpan, ⟨[key], false, span, []⟩⟩, ?_, ?_⟩
  · simp [Draft.begin, hclose, splitPath, htake]
  · exact ⟨hroot, ⟨key.span, rfl⟩, rfl, .nil⟩

/-- A line adds a setting of a new name. -/
theorem Draft.Holds.adds (h : draft.Holds closed now) (key : Key)
    (hname : key.name ∉ now.2.map Prod.fst) (setting : Setting) (span : Span) :
    ∃ next, draft.add [] key (setting.at span) = .ok next ∧
      next.Holds closed (now.1, now.2 ++ [(key.name, setting)]) := by
  have hnone := h.entries.get?_eq_none hname
  have hadd : addKey (some (names draft.current.path)) [] key (setting.at span)
      draft.current.entries = .ok (draft.current.entries ++ [(key, setting.at span)]) := by
    simp [addKey, editAt, hnone]
  refine ⟨_, by simp only [Draft.add, hadd, ok_bind]; rfl, ?_⟩
  exact ⟨h.root, h.path, h.single, h.entries.concat ⟨span, rfl⟩⟩

/-! ### Lines -/

variable {fuel : Nat} {name line : String} {setting : Setting} {next : Draft}

theorem lineRest_feed (rest : List Char) : lineRest ('\n' :: rest) = .ok rest := rfl

/-- The line of a setting adds the setting. -/
theorem entryLine_setting (hbare : Bare name) (hline : setting.text? = some line)
    (h : draft.Holds closed now) (hname : name ∉ now.2.map Prod.fst) (rest : List Char) :
    ∃ next, entryLine draft ((entryText name line).toList ++ rest) = .ok (next, rest) ∧
      next.Holds closed (now.1, now.2 ++ [(name, setting)]) := by
  have hchars : (entryText name line).toList ++ rest =
      name.toList ++ (' ' :: '=' :: ' ' :: (line.toList ++ '\n' :: rest)) := by
    simp [entryText]
  have hsign : skipSpaces (' ' :: '=' :: ' ' :: (line.toList ++ '\n' :: rest)) =
      '=' :: ' ' :: (line.toList ++ '\n' :: rest) := rfl
  obtain ⟨keySpan, hkey⟩ := keyParts_bare hbare (depthLimit - 2)
    (' ' :: '=' :: ' ' :: (line.toList ++ '\n' :: rest))
    (by simp [inKey]) (by simp [hsign])
  obtain ⟨span, hvalue⟩ := scalar_setting hline rest
  obtain ⟨next, hadd, hnext⟩ := h.adds ⟨name, keySpan⟩ hname setting span
  refine ⟨next, ?_, hnext⟩
  have hread : readKey ((entryText name line).toList ++ rest) =
      .ok ([], ⟨name, keySpan⟩, '=' :: ' ' :: (line.toList ++ '\n' :: rest)) := by
    have hdepth : depthLimit - 1 = depthLimit - 2 + 1 := rfl
    simp only [readKey, hdepth, hchars, hkey, hsign, ok_bind]
    rfl
  simp only [entryLine, hread, ok_bind, equals, readValue_of_scalar hvalue, lineRest_feed, hadd,
    placed]
  rfl

/-- The line of a header opens its table. -/
theorem headerLine_opens (hbare : Bare name) (h : draft.Closes closed)
    (hname : name ∉ closed.map Prod.fst) (rest : List Char) :
    ∃ next, headerLine draft ((headerText name).toList ++ rest) = .ok (next, rest) ∧
      next.Holds closed (name, []) := by
  have hchars : (headerText name).toList ++ rest =
      '[' :: (name.toList ++ (']' :: '\n' :: rest)) := by
    simp [headerText]
  have hbracket : skipSpaces (']' :: '\n' :: rest) = ']' :: '\n' :: rest := rfl
  obtain ⟨keySpan, hkey⟩ := keyParts_bare hbare (depthLimit - 2) (']' :: '\n' :: rest)
    (by simp [inKey]) (by simp [hbracket])
  obtain ⟨c, cs, hname', hc⟩ := hbare.cons
  have hsingle : c ≠ '[' := ne_of_inKey hc (by decide)
  obtain ⟨next, hbegin, hnext⟩ := h.begins ⟨name, keySpan⟩ hname
    ⟨((headerText name).toList ++ rest).length, ('\n' :: rest).length⟩
  refine ⟨next, ?_, hnext⟩
  rw [hchars] at hbegin ⊢
  have hdepth : depthLimit - 1 = depthLimit - 2 + 1 := rfl
  rw [hname'] at hkey hbegin ⊢
  simp only [List.cons_append, List.length_cons, List.length_append] at hkey hbegin ⊢
  simp [headerLine, hsingle, hdepth, hkey, hbracket, lineRest_feed, placed, hbegin]

/-! ### The loops -/

/-- The text of settings, line by line. -/
inductive SettingsText : List (String × Setting) → List Char → Prop where
  | nil : SettingsText [] []
  | cons {name line : String} {setting : Setting} {settings : List (String × Setting)}
    {cs : List Char} : setting.text? = some line → SettingsText settings cs →
    SettingsText ((name, setting) :: settings) ((entryText name line).toList ++ cs)

/-- The text of tables, with an empty line between them. -/
inductive TablesText : List Table → List Char → Prop where
  | one {t : Table} {cs : List Char} : SettingsText t.2 cs →
    TablesText [t] ((headerText t.1).toList ++ cs)
  | cons {t : Table} {tables : List Table} {cs others : List Char} : SettingsText t.2 cs →
    TablesText tables others →
    TablesText (t :: tables) ((headerText t.1).toList ++ cs ++ '\n' :: others)

/-- Names that are different and need no quotes. -/
structure PlainNames (names : List String) : Prop where
  nodup : names.Nodup
  bare : ∀ name ∈ names, Bare name

/-- A name is not among those before it. -/
theorem PlainNames.notMem {before after : List String} (h : PlainNames (before ++ name :: after)) :
    name ∉ before := by
  have hnodup := h.nodup
  rw [List.nodup_append] at hnodup
  exact fun hmem => hnodup.2.2 name hmem name List.mem_cons_self rfl

/-- A line of a bare key is an entry. -/
theorem readLines_entry (hbare : Bare name)
    (hline : entryLine draft ((entryText name line).toList ++ rest) = .ok (next, rest)) :
    readLines (fuel + 1) draft ((entryText name line).toList ++ rest) =
      readLines fuel next rest := by
  obtain ⟨c, cs, hchars, hc⟩ := hbare.cons
  have htext : ∃ more, (entryText name line).toList ++ rest = c :: more := by
    simp [entryText, hchars]
  obtain ⟨more, hmore⟩ := htext
  have hcomment : c ≠ '#' := ne_of_inKey hc (by decide)
  have hheader : c ≠ '[' := ne_of_inKey hc (by decide)
  have hfeed : c ≠ '\n' := ne_of_inKey hc (by decide)
  have hreturn : c ≠ '\r' := ne_of_inKey hc (by decide)
  rw [hmore] at hline ⊢
  simp [readLines, skipSpaces_cons (isSpace_of_inKey hc), newline?, hcomment, hheader, hfeed,
    hreturn, hline]

theorem readLines_header
    (hline : headerLine draft ((headerText name).toList ++ rest) = .ok (next, rest)) :
    readLines (fuel + 1) draft ((headerText name).toList ++ rest) = readLines fuel next rest := by
  have htext : ∃ more, (headerText name).toList ++ rest = '[' :: more := by
    simp [headerText]
  obtain ⟨more, hmore⟩ := htext
  have hskip : skipSpaces ('[' :: more) = '[' :: more := rfl
  rw [hmore] at hline ⊢
  simp [readLines, hskip, hline]

theorem readLines_feed :
    readLines (fuel + 1) draft ('\n' :: rest) = readLines fuel draft rest := rfl

/-- The lines of a table give it their settings. -/
theorem readLines_settings {settings : List (String × Setting)} (h : SettingsText settings cs)
    (hdraft : draft.Holds closed now) (hnames : PlainNames ((now.2 ++ settings).map Prod.fst))
    (hfuel : (cs ++ rest).length < fuel) :
    ∃ fuel' next, readLines fuel draft (cs ++ rest) = readLines fuel' next rest ∧
      rest.length < fuel' ∧ next.Holds closed (now.1, now.2 ++ settings) := by
  induction h generalizing draft now fuel with
  | nil => exact ⟨fuel, draft, rfl, hfuel, by simpa using hdraft⟩
  | @cons name line setting settings cs hline _ ih =>
    obtain ⟨fuel, rfl⟩ : ∃ f, fuel = f + 1 := ⟨fuel - 1, by omega⟩
    have hbare : Bare name := hnames.bare name (by simp)
    -- No line before has set this name.
    have hnew : name ∉ now.2.map Prod.fst := by
      rw [List.map_append] at hnames
      exact hnames.notMem
    obtain ⟨next, hentry, hnext⟩ := entryLine_setting hbare hline hdraft hnew (cs ++ rest)
    -- A line is not empty, so there is a step for each of the lines.
    have hmore : (cs ++ rest).length < fuel := by
      have hlong : 0 < (entryText name line).toList.length := by
        simp only [entryText, String.toList_append, List.length_append]
        exact Nat.lt_of_lt_of_le (by decide) (Nat.le_add_left _ _)
      simp only [List.length_append] at hfuel ⊢
      omega
    obtain ⟨fuel', last, hread, hfuel', hlast⟩ := ih hnext (by simpa using hnames) hmore
    refine ⟨fuel', last, ?_, hfuel', by simpa using hlast⟩
    rw [List.append_assoc, readLines_entry hbare hentry, hread]

/-- A table of a new name with its settings is read up to what follows. -/
theorem readLines_table {t : Table} (h : SettingsText t.2 cs) (hdraft : draft.Closes closed)
    (hbare : Bare t.1) (hname : t.1 ∉ closed.map Prod.fst)
    (hnames : PlainNames (t.2.map Prod.fst)) (rest : List Char)
    (hfuel : ((headerText t.1).toList ++ cs ++ rest).length < fuel) :
    ∃ fuel' next, readLines fuel draft ((headerText t.1).toList ++ cs ++ rest) =
        readLines fuel' next rest ∧
      rest.length < fuel' ∧ next.Closes (closed ++ [t]) := by
  obtain ⟨fuel, rfl⟩ : ∃ f, fuel = f + 1 := ⟨fuel - 1, by omega⟩
  obtain ⟨opened, hheader, hopened⟩ := headerLine_opens hbare hdraft hname (cs ++ rest)
  have hmore : (cs ++ rest).length < fuel := by
    have hlong : 0 < (headerText t.1).toList.length := by
      simp [headerText]
    simp only [List.length_append] at hfuel ⊢
    omega
  obtain ⟨fuel', next, hread, hfuel', hnext⟩ := readLines_settings h hopened hnames hmore
  refine ⟨fuel', next, ?_, hfuel', hnext.closes hname⟩
  rw [List.append_assoc, readLines_header hheader, hread]

/-- The names of tables and of their settings are different and need no quotes. -/
structure PlainTables (tables : List Table) : Prop where
  names : PlainNames (tables.map Prod.fst)
  settings : ∀ t ∈ tables, PlainNames (t.2.map Prod.fst)

/-- What `readLines_table` asks of a table behind others. -/
theorem PlainTables.head {t : Table} {tables : List Table}
    (h : PlainTables (closed ++ t :: tables)) :
    Bare t.1 ∧ t.1 ∉ closed.map Prod.fst ∧ PlainNames (t.2.map Prod.fst) := by
  have hnames := h.names
  rw [List.map_append] at hnames
  exact ⟨hnames.bare t.1 (by simp), hnames.notMem, h.settings t (by simp)⟩

/-- The text of tables gives them to the document. -/
theorem readLines_tables {tables : List Table} (h : TablesText tables cs)
    (hdraft : draft.Closes closed) (hplain : PlainTables (closed ++ tables))
    (hfuel : cs.length < fuel) :
    ∃ next, readLines fuel draft cs = .ok next ∧ next.Closes (closed ++ tables) := by
  induction h generalizing draft closed fuel with
  | @one t cs hsettings =>
    obtain ⟨hbare, hname, hnames⟩ := hplain.head
    obtain ⟨fuel', next, hread, -, hnext⟩ :=
      readLines_table hsettings hdraft hbare hname hnames [] (by simpa using hfuel)
    rw [List.append_nil] at hread
    refine ⟨next, ?_, hnext⟩
    rw [hread]
    cases fuel' <;> rfl
  | @cons t tables cs others hsettings _ ih =>
    obtain ⟨hbare, hname, hnames⟩ := hplain.head
    obtain ⟨fuel', next, hread, hfuel', hnext⟩ :=
      readLines_table hsettings hdraft hbare hname hnames ('\n' :: others) hfuel
    obtain ⟨fuel', rfl⟩ : ∃ f, fuel' = f + 1 := ⟨fuel' - 1, by omega⟩
    obtain ⟨last, hothers, hlast⟩ := ih hnext (by simpa using hplain) (by simpa using hfuel')
    refine ⟨last, ?_, by simpa using hlast⟩
    rw [hread, readLines_feed, hothers]

/-- The first header begins the text. -/
theorem TablesText.begins {tables : List Table} (h : TablesText tables cs) :
    ∃ more, cs = '[' :: more := by
  cases h with
  | one => simp [headerText]
  | cons => simp [headerText]

/-- A document of tables is read as these tables with these settings. -/
theorem parse_tables {tables : List Table} {document : String}
    (h : TablesText tables document.toList) (hplain : PlainTables tables) :
    ∃ span entries, parse document = .ok (.table span .explicit entries) ∧
      Entries.Name entries Value.Lists tables := by
  have hstart : ∀ span, (Draft.mk [] span ⟨[], false, span, []⟩).Closes [] := by
    intro span
    exact ⟨[], span, rfl, .nil⟩
  obtain ⟨more, hmore⟩ := h.begins
  have hmark : '[' ≠ byteOrderMark := by decide
  rw [hmore] at h
  have hfuel : ('[' :: more).length < more.length + 2 := by simp
  obtain ⟨draft, hread, root, span, hclose, hroot⟩ :=
    readLines_tables h (hstart ⟨more.length + 1, more.length + 1⟩) hplain hfuel
  refine ⟨some span, root, ?_, hroot⟩
  simp [parse, hmore, hmark, hread, hclose, placed]

end EventBridge.Toml
