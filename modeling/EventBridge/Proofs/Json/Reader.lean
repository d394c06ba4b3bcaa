import EventBridge.Json.Printer
import EventBridge.Json.Reader
import EventBridge.Proofs.Result
import EventBridge.Proofs.Text.Digits

/-! # Reading back JSON

  The text of a value is read as that value: by the reader that takes it off the front of a text, as
  is needed for values inside a line, and by `Json.parse` for a text of its own (`parse_render`).

  * `stringBody_escaped`: a string is read back whatever its characters are.
  * A number is read back if it fits the 64 bits that the reader has for it, which `Number.Exact`
    says, and if nothing that belongs to a number follows it, which `Delimited` says.
  * `Fits depth value`: the value nests less deep than the reader goes, and its numbers are exact.
  * `readValue_chars` is by induction on the depth. The loops over items and members have their own
    induction, on the list.
-/

namespace EventBridge.Json

open Text (digit10? hexadecimal decimal ofDigits Stops spanDigits_decimal decimal_cons)

variable {rest : List Char}

/-! ### Strings -/

/-- The four hexadecimal digits of a character below the space. -/
def unitDigits (n : Nat) : List Char :=
  List.replicate (4 - (hexadecimal n).length) '0' ++ hexadecimal n

/-- The number of four hexadecimal digits. -/
def unitOf? : List Char → Option Nat
  | [a, b, c, d] => unit? a b c d
  | _ => none

theorem unitOf?_unitDigits : ∀ n < 32, unitOf? (unitDigits n) = some n := by
  decide

theorem stringBody_unit {digits : List Char} {n : Nat} (hdigits : unitOf? digits = some n)
    (hn : n < 32) (rest : List Char) :
    stringBody ('\\' :: 'u' :: digits ++ rest) = prepend (Char.ofNat n) (stringBody rest) := by
  match digits, hdigits with
  | [a, b, c, d], hdigits =>
    have hunit : unit? a b c d = some n := hdigits
    have hlow : n < 0xD800 ∨ 0xE000 ≤ n := by omega
    simp [stringBody, hunit, hlow]

theorem stringBody_letter {letter c : Char} (h : letter? letter = some c) :
    stringBody ('\\' :: letter :: rest) = prepend c (stringBody rest) := by
  have hu : letter ≠ 'u' := by
    rintro rfl
    simp [letter?] at h
  simp [stringBody, hu, h]

theorem stringBody_plain {c : Char} (hquote : c ≠ '\x22') (hbackslash : c ≠ '\\')
    (hhigh : ¬c < ' ') : stringBody (c :: rest) = prepend c (stringBody rest) := by
  simp [stringBody, hquote, hbackslash, hhigh]

/-- An escaped character is read as the character. -/
theorem stringBody_escapeChar (c : Char) :
    stringBody (escapeChar c ++ rest) = prepend c (stringBody rest) := by
  unfold escapeChar
  -- Seven characters have a letter for their escape.
  iterate 7
    split
    · next h =>
      subst h
      exact stringBody_letter rfl
  split
  · -- A control character has four digits.
    next hlow =>
    have hlt : c.toNat < 32 := hlow
    have hread := stringBody_unit (unitOf?_unitDigits _ hlt) hlt rest
    rwa [Char.ofNat_toNat] at hread
  · -- A character that stands for itself.
    next hquote hbackslash _ _ _ _ _ hhigh => exact stringBody_plain hquote hbackslash hhigh

/-- The characters of a string are read up to its closing quote. -/
theorem stringBody_escaped (text rest : List Char) :
    stringBody (text.flatMap escapeChar ++ '\x22' :: rest) = .ok (text, rest) := by
  induction text with
  | nil => simp [stringBody]
  | cons c text ih =>
    rw [List.flatMap_cons, List.append_assoc, stringBody_escapeChar, ih]
    rfl

/-- What follows the opening quote of a string. -/
def quotedRest (text : String) (rest : List Char) : List Char :=
  text.toList.flatMap escapeChar ++ '\x22' :: rest

theorem stringChars_append (text : String) (rest : List Char) :
    stringChars text ++ rest = '\x22' :: quotedRest text rest := by
  simp [stringChars, quotedRest]

@[simp] theorem stringRest_quotedRest (text : String) (rest : List Char) :
    stringRest (quotedRest text rest) = .ok (text, rest) := by
  simp [stringRest, quotedRest, stringBody_escaped]

/-! ### Numbers -/

/-- A number that its digits give back. Doubles are not among them. -/
def Number.Exact : Number → Prop
  | .natural n => n < UInt64.size
  | .negative n => 0 < n ∧ n ≤ 2 ^ 63
  | .real _ => False

/-- Nothing that belongs to a value goes on here: the end, or what follows an item or a member. -/
def Delimited (cs : List Char) : Prop := ∀ c ∈ cs.head?, c = ',' ∨ c = ']' ∨ c = '\x7d'

@[simp] theorem delimited_nil : Delimited [] := by
  simp [Delimited]

@[simp] theorem delimited_cons (c : Char) (cs : List Char) :
    Delimited (c :: cs) ↔ c = ',' ∨ c = ']' ∨ c = '\x7d' := by
  simp [Delimited]

theorem Delimited.stops (h : Delimited rest) : Stops digit10? rest := by
  intro c hc
  rcases h c hc with rfl | rfl | rfl
  all_goals decide

/-- Digits before a delimiter have no fraction and no exponent. -/
theorem numberRest_of_delimited (negative : Bool) (digits : List Nat) (h : Delimited rest) :
    numberRest negative digits rest = (whole negative digits).map fun n => (n, rest) := by
  have hwhole : ∀ x : Except Malformed Number,
      (do let n ← x; return (n, rest)) = x.map fun n => (n, rest) := by
    intro x
    cases x <;> rfl
  unfold numberRest
  cases rest with
  | nil => exact hwhole _
  | cons c cs =>
    rcases (delimited_cons c cs).1 h with rfl | rfl | rfl
    all_goals exact hwhole _

/-- The digits of a number, behind a sign or without one, are read as a whole number. -/
theorem readNumber_decimal (n : Nat) (h : Delimited rest) :
    ∃ digits, ofDigits 10 digits = n ∧
      readNumber (decimal n ++ rest) = (whole false digits).map (fun n => (n, rest)) ∧
      readNumber ('-' :: decimal n ++ rest) = (whole true digits).map fun n => (n, rest) := by
  obtain ⟨digits, hspan, hnumeral⟩ := spanDigits_decimal n h.stops
  refine ⟨digits, hnumeral.value, ?_, ?_⟩
  · obtain ⟨c, cs, hchars, hc⟩ := decimal_cons n
    have hsign : c ≠ '-' := by
      rintro rfl
      simp [digit10?] at hc
    rw [hchars] at hspan ⊢
    rw [← numberRest_of_delimited false digits h]
    obtain ⟨d, rfl⟩ | ⟨d, others, rfl⟩ := hnumeral.single_or_positive
    all_goals simp_all [readNumber]
  · rw [← numberRest_of_delimited true digits h]
    obtain ⟨d, rfl⟩ | ⟨d, others, rfl⟩ := hnumeral.single_or_positive
    all_goals simp [readNumber, hspan]

/-- An exact number is read back. -/
theorem readNumber_chars {n : Number} (hn : n.Exact) (h : Delimited rest) :
    readNumber (n.chars ++ rest) = .ok (n, rest) := by
  cases n with
  | natural n =>
    obtain ⟨digits, hvalue, hread, -⟩ := readNumber_decimal n h
    have hlt : n < UInt64.size := hn
    have hwhole : whole false digits = .ok (.natural n) := by
      simp [whole, hvalue, hlt]
    show readNumber (decimal n ++ rest) = _
    rw [hread, hwhole]
    rfl
  | negative n =>
    obtain ⟨digits, hvalue, -, hread⟩ := readNumber_decimal n h
    obtain ⟨hpos, hle⟩ : 0 < n ∧ n ≤ 2 ^ 63 := hn
    have hwhole : whole true digits = .ok (.negative n) := by
      have hlt : n < UInt64.size := by
        show n < 2 ^ 64
        omega
      have hmin : (n : Int) ≤ 9223372036854775808 := by omega
      simp [whole, hvalue, hlt, hpos, hmin]
    show readNumber ('-' :: decimal n ++ rest) = _
    rw [hread, hwhole]
    rfl
  | real x => exact hn.elim

/-! ### Values -/

/-- The value nests less deep than `depth`, and its numbers are exact. -/
def Fits : Nat → Json → Prop
  | 0, _ => False
  | _ + 1, .null | _ + 1, .bool _ | _ + 1, .string _ => True
  | _ + 1, .number n => n.Exact
  | depth + 1, .array items => 0 < depth ∧ ∀ item ∈ items, Fits depth item
  | depth + 1, .object members => 0 < depth ∧ ∀ m ∈ members, Fits depth m.2

/-- A value starts here: no gap, and no bracket that closes an array. -/
def Starts (cs : List Char) : Prop := ∃ c rest, cs = c :: rest ∧ isGap c = false ∧ c ≠ ']'

theorem Starts.append {cs : List Char} (h : Starts cs) (rest : List Char) :
    Starts (cs ++ rest) := by
  obtain ⟨c, cs, rfl, hc⟩ := h
  exact ⟨c, cs ++ rest, rfl, hc⟩

@[simp] theorem starts_cons (c : Char) (cs : List Char) :
    Starts (c :: cs) ↔ isGap c = false ∧ c ≠ ']' := by
  simp [Starts]

@[simp] theorem skipGaps_cons {c : Char} (h : isGap c = false) (cs : List Char) :
    skipGaps (c :: cs) = c :: cs := by
  simp [skipGaps, h]

theorem Starts.skipGaps {cs : List Char} (h : Starts cs) : skipGaps cs = cs := by
  obtain ⟨c, cs, rfl, hc, -⟩ := h
  exact skipGaps_cons hc cs

/-- The first character of a number. -/
def IsNumeric (c : Char) : Prop := c = '-' ∨ (digit10? c).isSome

theorem Number.chars_cons {n : Number} (hn : n.Exact) :
    ∃ c cs, n.chars = c :: cs ∧ IsNumeric c := by
  cases n with
  | natural n =>
    obtain ⟨c, cs, hchars, hc⟩ := decimal_cons n
    exact ⟨c, cs, hchars, .inr hc⟩
  | negative n => exact ⟨'-', decimal n, rfl, .inl rfl⟩
  | real x => exact hn.elim

/-- No word, string, array or object begins with the character, and no gap. -/
theorem IsNumeric.ne {c d : Char} (h : IsNumeric c) (hd : d ≠ '-') (hdigit : digit10? d = none) :
    c ≠ d := by
  rintro rfl
  rcases h with h | h
  · exact hd h
  · simp [hdigit] at h

theorem IsNumeric.starts {c : Char} (h : IsNumeric c) (cs : List Char) : Starts (c :: cs) := by
  have hblank : c ≠ ' ' := h.ne (by decide) (by decide)
  have hline : c ≠ '\n' := h.ne (by decide) (by decide)
  have htab : c ≠ '\t' := h.ne (by decide) (by decide)
  have hreturn : c ≠ '\r' := h.ne (by decide) (by decide)
  have hbracket : c ≠ ']' := h.ne (by decide) (by decide)
  simp [isGap, hblank, hline, htab, hreturn, hbracket]

/-- A numeric character at the front makes the value a number. -/
theorem readValue_numeric {depth : Nat} {c : Char} {cs : List Char} (h : IsNumeric c) :
    readValue (depth + 1) (c :: cs) =
      (do let (n, rest) ← readNumber (c :: cs); return (.number n, rest)) := by
  have hquote : c ≠ '\x22' := h.ne (by decide) (by decide)
  have hbracket : c ≠ '[' := h.ne (by decide) (by decide)
  have hbrace : c ≠ '\x7b' := h.ne (by decide) (by decide)
  have hn : c ≠ 'n' := h.ne (by decide) (by decide)
  have ht : c ≠ 't' := h.ne (by decide) (by decide)
  have hf : c ≠ 'f' := h.ne (by decide) (by decide)
  have hnumeric : c = '-' ∨ (digit10? c).isSome := h
  unfold readValue
  rw [(h.starts cs).skipGaps]
  simp [hn, ht, hf, hnumeric]

theorem starts_chars {depth : Nat} {value : Json} (h : Fits depth value) : Starts value.chars := by
  cases depth with
  | zero => exact h.elim
  | succ depth =>
  cases value with
  | null => simp [chars, isGap]
  | bool value => cases value <;> simp [chars, isGap]
  | string text => simp [chars, stringChars, isGap]
  | array items => simp [chars, isGap]
  | object members => simp [chars, isGap]
  | number n =>
    obtain ⟨c, cs, hchars, hc⟩ := Number.chars_cons (show n.Exact from h)
    show Starts n.chars
    rw [hchars]
    exact hc.starts cs

/-! ### Items -/

variable {read : List Char → Except Malformed (Json × List Char)} {fuel : Nat}

/-- The reader takes the value off the front of a text. -/
structure ReadsBack (read : List Char → Except Malformed (Json × List Char)) (value : Json) :
    Prop where
  starts : Starts value.chars
  read : ∀ rest, Delimited rest → read (value.chars ++ rest) = .ok (value, rest)

theorem arrayItems_last {cs : List Char} {value : Json} (h : read cs = .ok (value, ']' :: rest)) :
    arrayItems read (fuel + 1) cs = .ok ([value], rest) := by
  simp only [arrayItems, h, ok_bind]
  rfl

theorem arrayItems_next {cs more : List Char} {value : Json} {values : List Json}
    (h : read cs = .ok (value, ',' :: more)) (hstarts : Starts more)
    (hmore : arrayItems read fuel more = .ok (values, rest)) :
    arrayItems read (fuel + 1) cs = .ok (value :: values, rest) := by
  obtain ⟨c, more, rfl, hc, hbracket⟩ := hstarts
  simp [arrayItems, isGap, h, skipGaps_cons hc, hbracket, hmore]

theorem itemsChars_cons (item next : Json) (items : List Json) :
    itemsChars (item :: next :: items) = item.chars ++ ',' :: itemsChars (next :: items) := by
  simp [itemsChars]

/-- Items are fewer than the characters of their text and one more. -/
theorem length_le_itemsChars (items : List Json) :
    items.length ≤ (itemsChars items).length + 1 := by
  induction items with
  | nil => simp
  | cons item items ih =>
    cases items with
    | nil => simp
    | cons next items =>
      simp only [itemsChars_cons, List.length_append, List.length_cons] at ih ⊢
      omega

theorem starts_itemsChars {item : Json} (h : Starts item.chars) (items : List Json) :
    Starts (itemsChars (item :: items)) := by
  cases items with
  | nil => exact h
  | cons next items => exact h.append _

/-- Items are read up to the bracket that closes them. -/
theorem arrayItems_itemsChars {items : List Json} (hne : items ≠ [])
    (hitems : ∀ item ∈ items, ReadsBack read item) (hfuel : items.length ≤ fuel) :
    arrayItems read fuel (itemsChars items ++ ']' :: rest) = .ok (items, rest) := by
  induction items generalizing fuel with
  | nil => exact absurd rfl hne
  | cons item items ih =>
    obtain ⟨fuel, rfl⟩ : ∃ f, fuel = f + 1 := ⟨fuel - 1, by simp at hfuel; omega⟩
    have hitem := (hitems item (by simp)).read
    cases items with
    | nil => exact arrayItems_last (hitem (']' :: rest) (by simp))
    | cons next items =>
      rw [itemsChars_cons, List.append_assoc]
      refine arrayItems_next (hitem (',' :: (itemsChars (next :: items) ++ ']' :: rest)) (by simp))
        ?_ ?_
      · exact (starts_itemsChars (hitems next (by simp)).starts items).append _
      · refine ih (by simp) (fun x hx => hitems x (List.mem_cons_of_mem _ hx)) ?_
        simp at hfuel ⊢
        omega

/-! ### Members -/

/-- The text of a member, up to what follows its value. -/
def memberChars (name : String) (value : Json) (rest : List Char) : List Char :=
  stringChars name ++ ':' :: (value.chars ++ rest)

@[simp] theorem readName_memberChars (name : String) (value : Json) (rest : List Char) :
    readName (memberChars name value rest) = .ok (name, ':' :: (value.chars ++ rest)) := by
  rw [memberChars, stringChars_append]
  exact stringRest_quotedRest name _

@[simp] theorem readColon_cons (cs : List Char) : readColon (':' :: cs) = .ok cs := rfl

theorem membersChars_single (name : String) (value : Json) :
    membersChars [(name, value)] ++ rest = memberChars name value rest := by
  simp [membersChars, memberChars]

theorem membersChars_cons (name : String) (value : Json) (next : String × Json)
    (members : List (String × Json)) :
    membersChars ((name, value) :: next :: members) ++ rest =
      memberChars name value (',' :: (membersChars (next :: members) ++ rest)) := by
  simp [membersChars, memberChars]

/-- Members begin with the quote of a name. -/
theorem membersChars_quote (m : String × Json) (members : List (String × Json))
    (rest : List Char) : ∃ cs, membersChars (m :: members) ++ rest = '\x22' :: cs := by
  cases members with
  | nil => exact ⟨_, rfl⟩
  | cons next members => exact ⟨_, rfl⟩

/-- Members are fewer than the characters of their text. -/
theorem length_le_membersChars (members : List (String × Json)) :
    members.length ≤ (membersChars members).length := by
  induction members with
  | nil => simp
  | cons m members ih =>
    cases members with
    | nil => simp [membersChars, stringChars]
    | cons next members =>
      simp only [membersChars, stringChars, List.length_append, List.length_cons] at ih ⊢
      omega

theorem objectMembers_last {name : String} {value : Json} (h : ReadsBack read value) :
    objectMembers read (fuel + 1) (memberChars name value ('\x7d' :: rest)) =
      .ok ([(name, value)], rest) := by
  have hvalue := h.read ('\x7d' :: rest) (by simp)
  simp only [objectMembers, readName_memberChars, readColon_cons, hvalue, ok_bind]
  rfl

theorem objectMembers_next {name : String} {value : Json} {m : String × Json}
    {members : List (String × Json)} (h : ReadsBack read value)
    (hmore : objectMembers read fuel (membersChars (m :: members) ++ '\x7d' :: rest) =
      .ok (m :: members, rest)) :
    objectMembers read (fuel + 1)
        (memberChars name value (',' :: (membersChars (m :: members) ++ '\x7d' :: rest))) =
      .ok ((name, value) :: m :: members, rest) := by
  have hvalue := h.read (',' :: (membersChars (m :: members) ++ '\x7d' :: rest)) (by simp)
  simp only [objectMembers, readName_memberChars, readColon_cons, hvalue, ok_bind]
  obtain ⟨cs, hcs⟩ := membersChars_quote m members ('\x7d' :: rest)
  rw [hcs] at hmore ⊢
  simp [isGap, hmore]

/-- Members are read up to the brace that closes them. -/
theorem objectMembers_membersChars {members : List (String × Json)} (hne : members ≠ [])
    (hmembers : ∀ m ∈ members, ReadsBack read m.2) (rest : List Char)
    (hfuel : members.length ≤ fuel) :
    objectMembers read fuel (membersChars members ++ '\x7d' :: rest) = .ok (members, rest) := by
  induction members generalizing fuel with
  | nil => exact absurd rfl hne
  | cons m members ih =>
    obtain ⟨name, value⟩ := m
    obtain ⟨fuel, rfl⟩ : ∃ f, fuel = f + 1 := ⟨fuel - 1, by simp at hfuel; omega⟩
    have hvalue : ReadsBack read value := hmembers _ List.mem_cons_self
    cases members with
    | nil =>
      rw [membersChars_single]
      exact objectMembers_last hvalue
    | cons next members =>
      rw [membersChars_cons]
      refine objectMembers_next hvalue (ih (by simp) (fun x hx => ?_) ?_)
      · exact hmembers x (List.mem_cons_of_mem _ hx)
      · simp at hfuel ⊢
        omega

/-! ### Any value -/

theorem word_append (letters rest : List Char) (value : Json) :
    word letters value (letters ++ rest) = .ok (value, rest) := by
  simp [word]

theorem readValue_array {depth : Nat} (hdepth : 0 < depth) {cs : List Char} (hstarts : Starts cs)
    {items : List Json} (h : arrayItems (readValue depth) (cs.length + 1) cs = .ok (items, rest)) :
    readValue (depth + 1) ('[' :: cs) = .ok (.array items, rest) := by
  obtain ⟨c, cs, rfl, hc, hbracket⟩ := hstarts
  have hdepth' : depth ≠ 0 := by omega
  simp only [List.length_cons] at h
  simp [readValue, isGap, skipGaps_cons hc, hbracket, hdepth', h]

theorem readValue_object {depth : Nat} (hdepth : 0 < depth) {cs : List Char}
    {members : List (String × Json)}
    (h : objectMembers (readValue depth) (cs.length + 2) ('\x22' :: cs) = .ok (members, rest)) :
    readValue (depth + 1) ('\x7b' :: '\x22' :: cs) = .ok (.object members, rest) := by
  have hdepth' : depth ≠ 0 := by omega
  simp [readValue, isGap, hdepth', h]

/-- A value is read back under as many levels as it fits in. -/
theorem readValue_chars {depth : Nat} {value : Json} (h : Fits depth value) :
    ReadsBack (readValue depth) value := by
  induction depth generalizing value with
  | zero => exact h.elim
  | succ depth ih =>
  refine ⟨starts_chars h, fun rest hrest => ?_⟩
  -- What is below an array or an object fits in one level less, so `ih` reads it back.
  cases value with
  | null => exact word_append ['n', 'u', 'l', 'l'] rest .null
  | bool value =>
    cases value with
    | true => exact word_append ['t', 'r', 'u', 'e'] rest (.bool true)
    | false => exact word_append ['f', 'a', 'l', 's', 'e'] rest (.bool false)
  | number n =>
    have hn : n.Exact := h
    obtain ⟨c, cs, hchars, hc⟩ := n.chars_cons hn
    have hread := readNumber_chars hn hrest
    simp only [chars]
    rw [hchars] at hread ⊢
    simp only [List.cons_append] at hread ⊢
    rw [readValue_numeric hc, hread]
    rfl
  | string text =>
    simp only [chars, stringChars_append]
    simp [readValue, isGap]
  | array items =>
    obtain ⟨hdepth, hitems⟩ : 0 < depth ∧ ∀ item ∈ items, Fits depth item := h
    simp only [chars, List.cons_append, List.append_assoc, List.nil_append]
    cases items with
    | nil => exact if_neg (by omega)
    | cons item items =>
      have hstarts := starts_itemsChars (starts_chars (hitems item (by simp))) items
      refine readValue_array hdepth (hstarts.append _) ?_
      refine arrayItems_itemsChars (by simp) (fun x hx => ih (hitems x hx)) ?_
      have hlength := length_le_itemsChars (item :: items)
      simp only [List.length_append, List.length_cons] at hlength ⊢
      omega
  | object members =>
    obtain ⟨hdepth, hmembers⟩ : 0 < depth ∧ ∀ m ∈ members, Fits depth m.2 := h
    simp only [chars, List.cons_append, List.append_assoc, List.nil_append]
    cases members with
    | nil => exact if_neg (by omega)
    | cons m members =>
      -- The reader looks for the quote of a first name before it asks for members.
      obtain ⟨cs, hcs⟩ := membersChars_quote m members ('\x7d' :: rest)
      have hlength := length_le_membersChars (m :: members)
      have hcount : (m :: members).length ≤ cs.length + 2 := by
        have := congrArg List.length hcs
        simp only [List.length_append, List.length_cons] at this hlength ⊢
        omega
      have hread := objectMembers_membersChars (by simp)
        (fun x hx => ih (hmembers x hx)) rest hcount
      rw [hcs] at hread ⊢
      exact readValue_object hdepth hread

@[simp] theorem ended_nil : ended [] = .ok () := rfl

/-- The text of a value is read as that value. -/
theorem parse_render {value : Json} (h : Fits depthLimit value) :
    parse value.render = .ok value := by
  have hread := (readValue_chars h).read [] delimited_nil
  rw [List.append_nil] at hread
  rw [parse, render, String.toList_ofList, hread, ok_bind]
  simp only [ended_nil, ok_bind, pure_eq_ok]

end EventBridge.Json
