import EventBridge.Proofs.Json.Inversion
import EventBridge.Proofs.Trace.Meaning

/-! # What a line means

  A line that is an object is read from left to right, with the kind of the event at any place. What
  it comes to is what its members mean.

  * `readKind_eq_ok_iff`: what is read for a kind is the name of a kind as a value.
  * `readMembers_eq_ok_iff`: where an object is read with its members, the kind and the other
    members are told apart, by induction on the reader's way through them.
  * `parse_eq_ok_iff`: an object is read as the event that its members mean, so the values of the
    known names settle it (`SameKnown.means_iff`).
-/

namespace EventBridge.Trace

open Json (objectMembers readColon readName readValue skipGaps)

/-! ### The kind -/

theorem ofName?_eq_some_iff {name : String} {kind : Kind} :
    Kind.ofName? name = some kind ↔ name = kind.name := by
  constructor
  · intro h
    have hname := List.find?_some h
    exact (eq_of_beq hname).symm
  · rintro rfl
    exact Kind.ofName?_name kind

variable {depth fuel : Nat} {cs rest rest' : List Char} {kind : Kind} {kind? kind?' : Option Kind}
  {members others : Members} {event : Event}

/-- What is read for a kind is the name of one. -/
theorem readKind_eq_ok_iff :
    readKind cs = .ok (kind, rest) ↔
      readValue (depth + 1) cs = .ok (.string kind.name, rest) := by
  rw [Json.readValue_string_iff]
  constructor
  · intro h
    unfold readKind at h
    split at h
    · next body hbody =>
      obtain ⟨⟨name, rest'⟩, hstring, hkind⟩ := ok_of_bind h
      cases hname : Kind.ofName? name with
      | none =>
        simp only [hname] at hkind
        cases hkind
      | some other =>
        simp only [hname] at hkind
        cases hkind
        rw [ofName?_eq_some_iff.1 hname] at hstring
        exact ⟨body, hbody, ok_of_lift hstring⟩
    · cases h
    · cases h
    · obtain ⟨_, -, herror⟩ := ok_of_bind h
      cases herror
  · rintro ⟨body, hbody, hstring⟩
    simp [readKind, hbody, hstring, lift, Kind.ofName?_name]

/-! ### The members -/

/-- What follows a member whose value is read. -/
def continued (fuel : Nat) (kind? : Option Kind) (member : Members) (cs : List Char) :
    Except ReadError (Option Kind × Members × List Char) :=
  match skipGaps cs with
  | ',' :: rest =>
    match skipGaps rest with
    | '\x7d' :: _ => .error (.malformed .trailingComma)
    | rest => do
      let (kind?, members, rest) ← readMembers fuel kind? rest
      return (kind?, member ++ members, rest)
  | '\x7d' :: rest => .ok (kind?, member, rest)
  | rest => .error (.malformed (Json.unexpected rest))

/-- Reading a member that is not the kind. -/
theorem readMembers_of_ne {name : String} (hname : name ≠ tagName)
    {afterName afterColon : List Char} {value : Json} (h : readName cs = .ok (name, afterName))
    (hcolon : readColon afterName = .ok afterColon)
    (hvalue : readValue (Json.depthLimit - 1) afterColon = .ok (value, rest)) :
    readMembers (fuel + 1) kind? cs = continued fuel kind? [(name, value)] rest := by
  simp only [readMembers, h, hcolon, hvalue, lift, ok_bind, if_neg hname]
  rfl

theorem readMembers_of_tag {afterName afterColon : List Char}
    (h : readName cs = .ok (tagName, afterName)) (hcolon : readColon afterName = .ok afterColon) :
    readMembers (fuel + 1) none cs =
      readKind afterColon >>= fun (kind, rest) => continued fuel (some kind) [] rest := by
  simp only [readMembers, h, hcolon, lift, ok_bind, if_true]
  rfl

theorem readMembers_of_second_tag {afterName : List Char}
    (h : readName cs = .ok (tagName, afterName)) :
    readMembers (fuel + 1) (some kind) cs = .error (.mismatch (.duplicateField tagName)) := by
  simp only [readMembers, h, lift, ok_bind, if_true]
  rfl

theorem continued_of_more {member : Members} {more : List Char} (hcomma : skipGaps cs = ',' :: more)
    (hmore : ∀ end?, skipGaps more ≠ '\x7d' :: end?) :
    continued fuel kind? member cs =
      readMembers fuel kind? (skipGaps more) >>= fun (kind?, members, rest) =>
        .ok (kind?, member ++ members, rest) := by
  simp only [continued, hcomma]
  rfl

/-- The kinds that are among the values of the tag, where one may be known already. -/
inductive Tagged : Option Kind → List Json → Option Kind → Prop where
  | none {kind? : Option Kind} : Tagged kind? [] kind?
  | one {kind : Kind} : Tagged none [.string kind.name] (some kind)

theorem tagged_cons_iff {value : Json} {values : List Json} :
    Tagged kind? (value :: values) kind?' ↔
      kind? = none ∧ ∃ kind, value = .string kind.name ∧ Tagged (some kind) values kind?' := by
  constructor
  · rintro ⟨⟩
    exact ⟨rfl, _, rfl, .none⟩
  · rintro ⟨rfl, kind, rfl, ⟨⟩⟩
    exact .one

theorem tagged_nil_iff : Tagged kind? [] kind?' ↔ kind?' = kind? := by
  constructor
  · rintro ⟨⟩
    rfl
  · rintro rfl
    exact .none

theorem tagged_none_iff {values : List Json} :
    Tagged none values (some kind) ↔ values = [.string kind.name] := by
  constructor
  · rintro ⟨⟩
    rfl
  · rintro rfl
    exact .one

/-- The members that are not the kind. -/
def untagged (members : Members) : Members := members.filter fun m => m.1 != tagName

theorem untagged_cons_tag (value : Json) (members : Members) :
    untagged ((tagName, value) :: members) = untagged members := by
  simp [untagged]

theorem untagged_cons_of_ne {name : String} (h : name ≠ tagName) (value : Json)
    (members : Members) :
    untagged ((name, value) :: members) = (name, value) :: untagged members := by
  simp [untagged, h]

/-- Where the members of an object are read, the kind and the others are told apart. -/
theorem readMembers_eq_ok_iff
    (h : objectMembers (readValue (Json.depthLimit - 1)) fuel cs = .ok (members, rest)) :
    readMembers fuel kind? cs = .ok (kind?', others, rest') ↔
      Tagged kind? (valuesOf members tagName) kind?' ∧ others = untagged members ∧
        rest' = rest := by
  induction fuel generalizing cs kind? members rest others rest' with
  | zero => cases h
  | succ fuel ih =>
    obtain ⟨name, value, tail, afterName, afterColon, afterValue, hname, hcolon, hvalue, rfl,
      hbehind⟩ := Json.behind_of_objectMembers h
    -- What is behind the member is read as the rest of the members says.
    have hcontinued : ∀ (kind? : Option Kind) (member : Members),
        continued fuel kind? member afterValue = .ok (kind?', others, rest') ↔
          Tagged kind? (valuesOf tail tagName) kind?' ∧ others = member ++ untagged tail ∧
            rest' = rest := by
      intro kind? member
      cases hbehind with
      | last hbrace =>
        simp only [continued, hbrace, valuesOf_nil, tagged_nil_iff, untagged, List.filter_nil,
          List.append_nil, Except.ok.injEq, Prod.mk.injEq, eq_comm]
      | more hcomma hmore htail =>
        rw [continued_of_more hcomma hmore, bind_eq_ok_iff]
        constructor
        · rintro ⟨⟨found?, found, left⟩, hread, hok⟩
          cases hok
          obtain ⟨htagged, rfl, rfl⟩ := (ih htail).1 hread
          exact ⟨htagged, rfl, rfl⟩
        · rintro ⟨htagged, rfl, rfl⟩
          exact ⟨_, (ih htail).2 ⟨htagged, rfl, rfl⟩, rfl⟩
    by_cases htag : name = tagName
    · subst htag
      rw [valuesOf_cons_self, untagged_cons_tag, tagged_cons_iff]
      cases kind? with
      | some kind =>
        rw [readMembers_of_second_tag hname]
        refine iff_of_false ?_ ?_
        · rintro ⟨⟩
        · intro hall
          cases hall.1.1
      | none =>
        rw [readMembers_of_tag hname hcolon, bind_eq_ok_iff]
        constructor
        · rintro ⟨⟨kind, afterKind⟩, hkind, hrest⟩
          -- The kind is read where the value is, and they end at the same place.
          have hsame := hvalue.symm.trans (readKind_eq_ok_iff.1 hkind)
          cases hsame
          obtain ⟨htagged, hothers, hleft⟩ := (hcontinued _ _).1 hrest
          exact ⟨⟨rfl, kind, rfl, htagged⟩, hothers, hleft⟩
        · rintro ⟨⟨-, kind, rfl, htagged⟩, hothers, hleft⟩
          exact ⟨(kind, afterValue), readKind_eq_ok_iff.2 hvalue,
            (hcontinued _ _).2 ⟨htagged, hothers, hleft⟩⟩
    · rw [readMembers_of_ne htag hname hcolon hvalue, valuesOf_cons_of_ne htag,
        untagged_cons_of_ne htag]
      exact hcontinued kind? [(name, value)]

/-! ### The line -/

/-- What the members of an object mean as an event: its kind is named once, and each of its fields
    has the values that it must have. -/
structure Means (members : Members) (event : Event) : Prop where
  tag : valuesOf members tagName = [.string event.name]
  filled : event.Filled members

theorem name_ne_tagName {f : Field} (hf : f ∈ kind.fields) : f.name ≠ tagName := by
  revert f
  cases kind <;> simp [Kind.fields, field, optionalField, tagName]

/-- The name of a field has the same values with the kind and without it. -/
theorem valuesOf_untagged {f : Field} (hf : f ∈ kind.fields) (members : Members) :
    valuesOf (untagged members) f.name = valuesOf members f.name := by
  refine valuesOf_filter (fun m hm => ?_) members
  rw [hm]
  exact bne_iff_ne.2 (name_ne_tagName hf)

theorem filled_untagged_iff : event.Filled (untagged members) ↔ event.Filled members := by
  have hsame := fun f (hf : f ∈ event.kind.fields) => valuesOf_untagged hf members
  constructor
  · exact fun h => filled_of_perm h fun f hf => .of_eq (hsame f hf).symm
  · exact fun h => filled_of_perm h fun f hf => .of_eq (hsame f hf)

/-- An object is read as an event that its members mean, up to where the object ends. -/
theorem readEvent_eq_ok_iff
    (h : readValue Json.depthLimit cs = .ok (.object members, rest)) :
    readEvent cs = .ok (event, rest') ↔ Means members event ∧ rest' = rest := by
  cases Json.begins_of_readValue h with
  | empty hbody hempty =>
    -- Nothing names a kind.
    simp only [readEvent, hbody, hempty]
    refine iff_of_false ?_ ?_
    · rintro ⟨⟩
    · intro hmeans
      cases hmeans.1.tag
  | object hbody hmore hmembers =>
    simp only [readEvent, hbody]
    rw [bind_eq_ok_iff]
    constructor
    · rintro ⟨⟨kind?, others, left⟩, hread, hevent⟩
      obtain ⟨htagged, rfl, rfl⟩ := (readMembers_eq_ok_iff hmembers).1 hread
      cases kind? with
      | none => cases hevent
      | some kind =>
        obtain ⟨found, hfound, hok⟩ := ok_of_bind hevent
        cases hok
        obtain ⟨rfl, hfilled⟩ := ofMembers_eq_ok_iff.1 (ok_of_liftMismatch hfound)
        exact ⟨⟨tagged_none_iff.1 htagged, filled_untagged_iff.1 hfilled⟩, rfl⟩
    · rintro ⟨⟨htag, hfilled⟩, rfl⟩
      have hread := (readMembers_eq_ok_iff hmembers).2 ⟨tagged_none_iff.2 htag, rfl, rfl⟩
      have hevent := ofMembers_eq_ok_iff.2 ⟨rfl, filled_untagged_iff.2 hfilled⟩
      refine ⟨_, hread, ?_⟩
      simp only [hevent, liftMismatch, ok_bind, pure_eq_ok]

section Lines

variable {text text' : String} {members' : Members}

/-- A line that is an object is read as an event if its members mean it. -/
theorem parse_eq_ok_iff (h : Json.parse text = .ok (.object members)) :
    Event.parse text = .ok event ↔ Means members event := by
  obtain ⟨⟨value, rest⟩, hvalue, h⟩ := ok_of_bind h
  obtain ⟨_, hended, h⟩ := ok_of_bind h
  cases h
  unfold Event.parse
  rw [bind_eq_ok_iff]
  constructor
  · rintro ⟨⟨found, left⟩, hread, hok⟩
    obtain ⟨_, -, hok⟩ := ok_of_bind hok
    cases hok
    exact ((readEvent_eq_ok_iff hvalue).1 hread).1
  · intro hmeans
    refine ⟨_, (readEvent_eq_ok_iff hvalue).2 ⟨hmeans, rfl⟩, ?_⟩
    simp only [hended, lift, ok_bind, pure_eq_ok]

/-- Members that are good for an event of a kind. -/
structure Complete (members : Members) (kind : Kind) : Prop where
  tag : valuesOf members tagName = [.string kind.name]
  suits : ∀ f ∈ kind.fields, Suits f (valuesOf members f.name)

theorem exists_means_iff : (∃ event, Means members event) ↔ ∃ kind, Complete members kind := by
  constructor
  · rintro ⟨event, htag, hfilled⟩
    exact ⟨event.kind, htag, suits_of_filled hfilled⟩
  · rintro ⟨kind, htag, hsuits⟩
    obtain ⟨event, rfl, hfilled⟩ := exists_filled hsuits
    exact ⟨event, htag, hfilled⟩

/-- The kind that members name, if they name one and name it once. -/
def kindOf? (members : Members) : Option Kind :=
  match valuesOf members tagName with
  | [.string name] => Kind.ofName? name
  | _ => none

theorem kindOf?_of_tag (h : valuesOf members tagName = [.string kind.name]) :
    kindOf? members = some kind := by
  simp only [kindOf?, h, Kind.ofName?_name]

/-- The name has a meaning among the members: it is that of the kind, or of a field of the kind that
    they name. -/
def known (members : Members) (name : String) : Bool :=
  name == tagName || (kindOf? members).any fun kind => (kind.fields.map Field.name).contains name

/-- The members have the same meaning: those with a known name are the same, in some order. -/
def SameKnown (members members' : Members) : Prop :=
  (members'.filter fun m => known members m.1).Perm (members.filter fun m => known members m.1)

theorem SameKnown.perm_valuesOf (h : SameKnown members members') {name : String}
    (hname : known members name = true) :
    (valuesOf members' name).Perm (valuesOf members name) := by
  have hvalues := Trace.perm_valuesOf h name
  rwa [valuesOf_filter fun m hm => hm ▸ hname, valuesOf_filter fun m hm => hm ▸ hname] at hvalues

theorem known_tagName (members : Members) : known members tagName = true := rfl

theorem known_field (htag : valuesOf members tagName = [.string kind.name]) {f : Field}
    (hf : f ∈ kind.fields) : known members f.name = true := by
  have hmem : (kind.fields.map Field.name).contains f.name = true :=
    List.contains_iff_mem.2 (List.mem_map_of_mem hf)
  simp only [known, kindOf?_of_tag htag, Option.any_some, hmem, Bool.or_true]

theorem SameKnown.means_iff (h : SameKnown members members') :
    Means members' event ↔ Means members event := by
  have htags := h.perm_valuesOf (known_tagName members)
  constructor
  · -- Both name the same kind, and so the same names are known to both.
    rintro ⟨htag, hfilled⟩
    rw [htag] at htags
    have htag' := (List.singleton_perm.1 htags).symm
    exact ⟨htag', filled_of_perm hfilled fun f hf => (h.perm_valuesOf (known_field htag' hf)).symm⟩
  · rintro ⟨htag, hfilled⟩
    rw [htag] at htags
    exact ⟨List.perm_singleton.1 htags,
      filled_of_perm hfilled fun f hf => h.perm_valuesOf (known_field htag hf)⟩

/-- A line that is an object means the set of its known members. It is read as an event if its kind
    is named once and the values of every field of that kind are good for it, and the event is the
    one that has these values. So their order is free, and so are the members that have no
    meaning. -/
theorem lines_mean_their_members (h : Json.parse text = .ok (.object members)) :
    (∀ event, Event.parse text = .ok event ↔ Means members event) ∧
      ((∃ event, Event.parse text = .ok event) ↔ ∃ kind, Complete members kind) ∧
      (∀ kind : Kind, ∀ f ∈ kind.fields,
        (f.accepts .null = .ok () ↔ f.optional = true ∧ f.name ∉ ["protocol", "headers"]) ∧
        (f.name = "code" → ∀ value,
          f.accepts value = .ok () ↔ ∃ n < 2 ^ 32, value = .number (.natural n))) ∧
      ∀ text' members', Json.parse text' = .ok (.object members') → SameKnown members members' →
        (Event.parse text').toOption = (Event.parse text).toOption := by
  have hmeans : ∀ event, Event.parse text = .ok event ↔ Means members event :=
    fun _ => parse_eq_ok_iff h
  refine ⟨hmeans, ?_, fun _ f hf => ⟨accepts_null_iff hf, accepts_code_iff hf⟩, ?_⟩
  · exact (exists_congr hmeans).trans exists_means_iff
  · intro text' members' h' hsame
    refine toOption_congr fun event => ?_
    rw [parse_eq_ok_iff h', hsame.means_iff, hmeans]

/-- The kind at the end, or the kind first and members without a meaning between. -/
theorem trigger_down_in_any_order :
    Json.parse "\x7b\"liid\":\"A\",\"event\":\"trigger_down\"\x7d" =
        .ok (.object [("liid", .string "A"), ("event", .string "trigger_down")]) ∧
      (Event.parse
          "\x7b\"event\":\"trigger_down\",\"note\":1,\"liid\":\"A\",\"note\":null\x7d").toOption =
        (Event.parse "\x7b\"liid\":\"A\",\"event\":\"trigger_down\"\x7d").toOption ∧
      Event.parse "\x7b\"liid\":\"A\",\"event\":\"trigger_down\"\x7d" = .ok (.triggerDown "A") := by
  have h : Json.parse "\x7b\"liid\":\"A\",\"event\":\"trigger_down\"\x7d" =
      .ok (.object [("liid", .string "A"), ("event", .string "trigger_down")]) := rfl
  obtain ⟨-, -, -, hagree⟩ := lines_mean_their_members h
  -- The two members that are known have changed places.
  exact ⟨h, hagree _ _ rfl (List.Perm.swap _ _ _), rfl⟩

end Lines

end EventBridge.Trace
