import EventBridge.Json.Reader
import EventBridge.Proofs.Result

/-! # What the JSON reader has read

  Where a value is read, its first characters say how.

  * `Begins` has a case for each form of a value. Of a text and of an object it says what is read
    behind the quote and the brace.
  * `Behind` is what stands behind a member: the end of the object, or a comma and more members.
-/

namespace EventBridge.Json

variable {depth fuel : Nat} {cs rest : List Char} {members : List (String × Json)}

/-! ### Values -/

theorem value_of_word {letters : List Char} {asked value : Json}
    (h : word letters asked cs = .ok (value, rest)) : value = asked := by
  unfold word at h
  split at h
  · cases h
    rfl
  · split at h <;> cases h

/-- How a value begins. Of texts and objects it is said how they are read from there on. -/
inductive Begins (depth : Nat) (cs rest : List Char) : Json → Prop where
  | string {s : String} {body : List Char} : skipGaps cs = '\x22' :: body →
    stringRest body = .ok (s, rest) → Begins depth cs rest (.string s)
  | empty {body : List Char} : skipGaps cs = '\x7b' :: body → skipGaps body = '\x7d' :: rest →
    Begins depth cs rest (.object [])
  | object {members : List (String × Json)} {body : List Char} : skipGaps cs = '\x7b' :: body →
    (∀ end?, skipGaps body ≠ '\x7d' :: end?) →
    objectMembers (readValue depth) ((skipGaps body).length + 1) (skipGaps body) =
      .ok (members, rest) →
    Begins depth cs rest (.object members)
  | array (items : List Json) : Begins depth cs rest (.array items)
  | number (n : Number) : Begins depth cs rest (.number n)
  | bool (b : Bool) : Begins depth cs rest (.bool b)
  | null : Begins depth cs rest .null

theorem begins_of_readValue {value : Json} (h : readValue (depth + 1) cs = .ok (value, rest)) :
    Begins depth cs rest value := by
  rw [readValue] at h
  split at h
  · cases h
  · next body hbody =>
    obtain ⟨⟨text, left⟩, hstring, hvalue⟩ := ok_of_bind h
    cases hvalue
    exact .string hbody hstring
  · split at h
    · cases h
    · split at h
      · cases h
        exact .array []
      · obtain ⟨⟨items, left⟩, -, hvalue⟩ := ok_of_bind h
        cases hvalue
        exact .array items
  · next body hbody =>
    split at h
    · cases h
    · split at h
      · next hempty =>
        cases h
        exact .empty hbody hempty
      · next hmore =>
        obtain ⟨⟨found, left⟩, hmembers, hvalue⟩ := ok_of_bind h
        cases hvalue
        exact .object hbody hmore hmembers
  · -- A word or a number.
    split at h
    · cases value_of_word h
      exact .null
    · split at h
      · cases value_of_word h
        exact .bool true
      · split at h
        · cases value_of_word h
          exact .bool false
        · split at h
          · obtain ⟨⟨n, left⟩, -, hvalue⟩ := ok_of_bind h
            cases hvalue
            exact .number n
          · cases h

/-- A value is a text if it begins as one. -/
theorem readValue_string_iff {s : String} :
    readValue (depth + 1) cs = .ok (.string s, rest) ↔
      ∃ body, skipGaps cs = '\x22' :: body ∧ stringRest body = .ok (s, rest) := by
  constructor
  · intro h
    cases begins_of_readValue h with
    | string hbody hstring => exact ⟨_, hbody, hstring⟩
  · rintro ⟨body, hbody, hstring⟩
    simp [readValue, hbody, hstring]

/-! ### Members -/

section Members

variable {item : List Char → Except Malformed (Json × List Char)}

/-- What is left of an object behind a member, for a reader that has so many members left. -/
inductive Behind (item : List Char → Except Malformed (Json × List Char)) (fuel : Nat) :
    List Char → List (String × Json) → List Char → Prop where
  | last {cs rest : List Char} : skipGaps cs = '\x7d' :: rest → Behind item fuel cs [] rest
  | more {cs more rest : List Char} {members : List (String × Json)} :
    skipGaps cs = ',' :: more → (∀ end?, skipGaps more ≠ '\x7d' :: end?) →
    objectMembers item fuel (skipGaps more) = .ok (members, rest) →
    Behind item fuel cs members rest

/-- Members are read one by one. -/
theorem behind_of_objectMembers
    (h : objectMembers item (fuel + 1) cs = .ok (members, rest)) :
    ∃ name value tail afterName afterColon afterValue,
      readName cs = .ok (name, afterName) ∧ readColon afterName = .ok afterColon ∧
      item afterColon = .ok (value, afterValue) ∧
      members = (name, value) :: tail ∧ Behind item fuel afterValue tail rest := by
  rw [objectMembers] at h
  obtain ⟨⟨name, afterName⟩, hname, h⟩ := ok_of_bind h
  obtain ⟨afterColon, hcolon, h⟩ := ok_of_bind h
  obtain ⟨⟨value, afterValue⟩, hvalue, h⟩ := ok_of_bind h
  dsimp only at h
  split at h
  · next more hcomma =>
    split at h
    · cases h
    · next hmore =>
      obtain ⟨⟨tail, rest'⟩, htail, h⟩ := ok_of_bind h
      cases h
      exact ⟨name, value, tail, afterName, afterColon, afterValue, hname, hcolon, hvalue, rfl,
        .more hcomma hmore htail⟩
  · next hbrace =>
    cases h
    exact ⟨name, value, [], afterName, afterColon, afterValue, hname, hcolon, hvalue, rfl,
      .last hbrace⟩
  · cases h

end Members

end EventBridge.Json
