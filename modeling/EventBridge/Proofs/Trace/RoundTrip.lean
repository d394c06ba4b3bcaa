import EventBridge.Proofs.Json.Reader
import EventBridge.Proofs.Net.Address
import EventBridge.Trace.Event.Printer
import EventBridge.Trace.Event.Reader
import Mathlib.Data.List.Forall2

/-! # Reading back events

  The line of an event is read as that event, whatever its texts, addresses and header fields are
  and whichever of its optional fields are there.

  * What a field accepts of the value that was written for it comes first, one equation for each
    kind of field.
  * A line has the fields of its kind in the order of declaration, and every field accepts its
    member: `members_answer`. So the check of the members goes through.
  * `readMembers_membersChars` reads the members behind the kind, by induction on them.
-/

namespace EventBridge.Trace

open Document (Mismatch)
open Engine (Protocol)
open Http (Headers)
open Json (stringChars memberChars membersChars ReadsBack Fits)
open Net (Ip Endpoint)

/-! ### Values of fields -/

@[simp] theorem readText_string (s : String) : readText (.string s) = .ok s := rfl

@[simp] theorem readAddress_text (x : Ip) : readAddress (.string x.text) = .ok x := by
  simp [readAddress, Ip.parse?_text]

@[simp] theorem readEndpoint_text (x : Endpoint) : readEndpoint (.string x.text) = .ok x := by
  simp [readEndpoint, Endpoint.parse?_text]

@[simp] theorem readProtocol_name (protocol : Protocol) :
    readProtocol (.string protocol.name) = .ok protocol := by
  cases protocol <;> rfl

@[simp] theorem readCode_ofNat (code : UInt32) : readCode (Json.ofNat code.toNat) = .ok code := by
  have hlt : code.toNat < UInt32.size := code.toNat_lt
  simp [readCode, Json.ofNat, hlt]

/-- A value that may be absent is read back if the reader takes what is written when it is not. -/
theorem readOptional_optionalString {α : Type} {read : Json → Except Mismatch α}
    (text : α → String) (h : ∀ a, read (.string (text a)) = .ok a) (value : Option α) :
    readOptional read (Event.optionalString (value.map text)) = .ok value := by
  cases value with
  | none => rfl
  | some a => simp [Event.optionalString, readOptional, h]

@[simp] theorem readOptional_text (value : Option String) :
    readOptional readText (Event.optionalString value) = .ok value := by
  simpa using readOptional_optionalString id readText_string value

@[simp] theorem readOptional_address (value : Option Ip) :
    readOptional readAddress (Event.optionalString (value.map Ip.text)) = .ok value :=
  readOptional_optionalString Ip.text readAddress_text value

/-! ### Header fields -/

/-- A field behind all others in the order of names is added at the end. -/
theorem insertField_last {name value : String} {fields : List (String × String)}
    (h : ∀ f ∈ fields, f.1 < name) :
    Headers.insertField name value fields = fields ++ [(name, value)] := by
  induction fields with
  | nil => rfl
  | cons f fields ih =>
    obtain ⟨n, v⟩ := f
    have hn : n < name := h (n, v) List.mem_cons_self
    have hbefore : ¬name < n := fun hlt => String.lt_irrefl n (String.lt_trans hn hlt)
    have hne : name ≠ n := by
      rintro rfl
      exact String.lt_irrefl _ hn
    simp [Headers.insertField, hbefore, hne, ih fun f hf => h f (List.mem_cons_of_mem _ hf)]

/-- The member that is written for a header field. -/
def headerMember (field : String × String) : String × Json := (field.1, .string field.2)

/-- Fields in the order of their names are read one behind the other. -/
theorem readFields_headerMembers (fields : List (String × String)) (headers : Headers)
    (h : (headers.fields ++ fields).Pairwise fun a b => a.1 < b.1) :
    readFields (fields.map headerMember) headers = .ok ⟨headers.fields ++ fields, h⟩ := by
  induction fields generalizing headers with
  | nil => simp [readFields]
  | cons f fields ih =>
    obtain ⟨name, value⟩ := f
    -- The order of the names puts the field behind those that are there.
    have hlast : ∀ f ∈ headers.fields, f.1 < name := fun f hf =>
      (List.pairwise_append.1 h).2.2 f hf _ List.mem_cons_self
    have hinsert : (headers.insert name value).fields = headers.fields ++ [(name, value)] :=
      insertField_last hlast
    have hmore : ((headers.insert name value).fields ++ fields).Pairwise
        fun a b => a.1 < b.1 := by
      rw [hinsert]
      simpa using h
    have hrest := ih (headers.insert name value) hmore
    simp only [List.map_cons, headerMember, readFields, readText_string, ok_bind]
    rw [hrest]
    simp [hinsert]

@[simp] theorem readHeaders_headersJson (headers : Headers) :
    readHeaders (Event.headersJson headers) = .ok headers := by
  have hread := readFields_headerMembers headers.fields Headers.empty headers.ascending
  exact hread

/-! ### Members -/

/-- The member has the name of the field, and the field accepts its value. -/
structure Answers (f : Field) (m : String × Json) : Prop where
  name : m.1 = f.name
  accepts : f.accepts m.2 = .ok ()

@[simp] theorem answers_field {α : Type} (read : Json → Except Mismatch α) (asked name : String)
    (value : Json) :
    Answers (field asked read) (name, value) ↔ name = asked ∧ ∃ a, read value = .ok a := by
  constructor
  · rintro ⟨hname, haccepts⟩
    refine ⟨hname, ?_⟩
    simp only [field] at haccepts
    cases hread : read value with
    | ok a => exact ⟨a, rfl⟩
    | error e => simp [hread, Except.map] at haccepts
  · rintro ⟨rfl, a, hread⟩
    exact ⟨rfl, by simp [field, hread]⟩

@[simp] theorem answers_optionalField {α : Type} (read : Json → Except Mismatch α)
    (asked name : String) (value : Json) :
    Answers (optionalField asked read) (name, value) ↔ name = asked ∧ ∃ a, read value = .ok a := by
  rw [← answers_field]
  exact ⟨fun ⟨hname, haccepts⟩ => ⟨hname, haccepts⟩, fun ⟨hname, haccepts⟩ => ⟨hname, haccepts⟩⟩

theorem nodup_fields (kind : Kind) : (kind.fields.map Field.name).Nodup := by
  cases kind <;> simp [Kind.fields, field, optionalField]

theorem find?_name {fields : List Field} (h : (fields.map Field.name).Nodup) {f : Field}
    (hf : f ∈ fields) : (fields.find? fun g => g.name == f.name) = some f := by
  induction fields with
  | nil => cases hf
  | cons g fields ih =>
    obtain ⟨hg, hfields⟩ := List.nodup_cons.1 h
    rcases List.mem_cons.1 hf with rfl | hf
    · simp
    · have hne : g.name ≠ f.name := by
        intro heq
        exact hg (heq ▸ List.mem_map_of_mem hf)
      simp [hne, ih hfields hf]

/-- Members that answer fields, each of them once, pass the check. -/
theorem check_answered {fields asked : List Field} {members : Members} {seen : List String}
    (h : List.Forall₂ Answers asked members) (hfields : (fields.map Field.name).Nodup)
    (hasked : asked ⊆ fields) (honce : (asked.map Field.name).Nodup)
    (hseen : ∀ f ∈ asked, f.name ∉ seen) : check fields seen members = .ok () := by
  induction h generalizing seen with
  | nil => rfl
  | @cons f m asked members hm hmembers ih =>
    obtain ⟨name, value⟩ := m
    obtain ⟨rfl, haccepts⟩ := hm
    obtain ⟨hf, honce⟩ := List.nodup_cons.1 honce
    have hnew : f.name ∉ seen := hseen f List.mem_cons_self
    -- Names are given once, so the rest is not among those seen.
    have hrest : check fields (f.name :: seen) members = .ok () := by
      refine ih (fun g hg => hasked (List.mem_cons_of_mem _ hg)) honce fun g hg => ?_
      have hne : g.name ≠ f.name := by
        intro heq
        exact hf (heq ▸ List.mem_map_of_mem hg)
      simp [hne, hseen g (List.mem_cons_of_mem _ hg)]
    simp [check, find?_name hfields (hasked List.mem_cons_self), hnew, haccepts, hrest]

/-- A line has the fields of its kind in the order of declaration, each with a value for it. -/
theorem members_answer (event : Event) :
    List.Forall₂ Answers event.kind.fields event.members := by
  cases event <;> simp [Event.kind, Kind.fields, Event.members]

/-- The members of a line make its event. -/
theorem build_members (event : Event) : build event.members event.kind = .ok event := by
  cases event <;>
    simp [Event.kind, Event.members, build, required, optional, optionalText, payload,
      List.lookup_cons]

theorem ofMembers_members (event : Event) : ofMembers event.kind event.members = .ok event := by
  have hcheck : check event.kind.fields [] event.members = .ok () :=
    check_answered (members_answer event) (nodup_fields _) (fun _ h => h) (nodup_fields _)
      (by simp)
  simp [ofMembers, hcheck, build_members]

/-- The values on a line nest no deeper than an object of texts. -/
theorem fits_members (event : Event) {depth : Nat} (h : 1 < depth) :
    ∀ m ∈ event.members, Fits depth m.2 := by
  obtain ⟨depth, rfl⟩ : ∃ d, depth = d + 2 := ⟨depth - 2, by omega⟩
  have hstring : ∀ s, Fits (depth + 2) (.string s) := fun _ => trivial
  have hoptional : ∀ value, Fits (depth + 2) (Event.optionalString value) := by
    intro value
    cases value <;> trivial
  have hheaders : ∀ headers, Fits (depth + 2) (Event.headersJson headers) := by
    intro headers
    refine ⟨by omega, fun m hm => ?_⟩
    obtain ⟨f, -, rfl⟩ := List.mem_map.1 hm
    trivial
  have hcode : ∀ code : UInt32, Fits (depth + 2) (Json.ofNat code.toNat) := by
    intro code
    have hlt : code.toNat < 2 ^ 32 := code.toNat_lt
    show code.toNat < 2 ^ 64
    omega
  cases event <;> simp [Event.members, hstring, hoptional, hheaders, hcode]

/-! ### The line -/

/-- No member but the kind has the name of the kind. -/
theorem tagName_notMem (event : Event) : ∀ m ∈ event.members, m.1 ≠ tagName := by
  cases event <;> simp [Event.members, tagName]

theorem members_ne_nil (event : Event) : event.members ≠ [] := by
  cases event <;> simp [Event.members]

variable {kind : Kind} {fuel : Nat} {name : String} {value : Json} {m : String × Json}
  {members : Members} {rest : List Char}

theorem readKind_name (kind : Kind) (rest : List Char) :
    readKind (stringChars kind.name ++ rest) = .ok (kind, rest) := by
  simp [readKind, Json.stringChars_append, Json.isGap, lift, Kind.ofName?_name]

theorem readMembers_last (kind? : Option Kind) (hname : name ≠ tagName)
    (h : ReadsBack (Json.readValue (Json.depthLimit - 1)) value) :
    readMembers (fuel + 1) kind? (memberChars name value ('\x7d' :: rest)) =
      .ok (kind?, [(name, value)], rest) := by
  have hvalue := h.read ('\x7d' :: rest) (by simp)
  simp only [readMembers, Json.readName_memberChars, Json.readColon_cons, lift, hvalue, ok_bind,
    if_neg hname]
  rfl

theorem readMembers_next (kind? : Option Kind) (hname : name ≠ tagName)
    (h : ReadsBack (Json.readValue (Json.depthLimit - 1)) value)
    (hmore : readMembers fuel kind? (membersChars (m :: members) ++ '\x7d' :: rest) =
      .ok (kind?, m :: members, rest)) :
    readMembers (fuel + 1) kind?
        (memberChars name value (',' :: (membersChars (m :: members) ++ '\x7d' :: rest))) =
      .ok (kind?, (name, value) :: m :: members, rest) := by
  have hvalue := h.read (',' :: (membersChars (m :: members) ++ '\x7d' :: rest)) (by simp)
  simp only [readMembers, Json.readName_memberChars, Json.readColon_cons, lift, hvalue, ok_bind,
    if_neg hname]
  obtain ⟨cs, hcs⟩ := Json.membersChars_quote m members ('\x7d' :: rest)
  rw [hcs] at hmore ⊢
  simp [Json.isGap, hmore]

theorem readMembers_tag (kind : Kind)
    (hmore : readMembers fuel (some kind) (membersChars (m :: members) ++ '\x7d' :: rest) =
      .ok (some kind, m :: members, rest)) :
    readMembers (fuel + 1) none (memberChars tagName (.string kind.name)
        (',' :: (membersChars (m :: members) ++ '\x7d' :: rest))) =
      .ok (some kind, m :: members, rest) := by
  simp only [readMembers, Json.readName_memberChars, Json.readColon_cons, Json.chars, lift,
    readKind_name, ok_bind, if_pos]
  obtain ⟨cs, hcs⟩ := Json.membersChars_quote m members ('\x7d' :: rest)
  rw [hcs] at hmore ⊢
  simp [Json.isGap, hmore]

/-- Behind the kind the members are read as they stand. -/
theorem readMembers_membersChars (kind? : Option Kind) (hne : members ≠ [])
    (hnames : ∀ m ∈ members, m.1 ≠ tagName)
    (hfits : ∀ m ∈ members, Fits (Json.depthLimit - 1) m.2) (hfuel : members.length ≤ fuel)
    (rest : List Char) :
    readMembers fuel kind? (membersChars members ++ '\x7d' :: rest) =
      .ok (kind?, members, rest) := by
  induction members generalizing fuel with
  | nil => exact absurd rfl hne
  | cons m members ih =>
    obtain ⟨name, value⟩ := m
    obtain ⟨fuel, rfl⟩ : ∃ f, fuel = f + 1 := ⟨fuel - 1, by simp at hfuel; omega⟩
    have hname : name ≠ tagName := hnames _ List.mem_cons_self
    have hvalue := Json.readValue_chars (hfits _ List.mem_cons_self)
    cases members with
    | nil =>
      rw [Json.membersChars_single]
      exact readMembers_last kind? hname hvalue
    | cons next members =>
      rw [Json.membersChars_cons]
      refine readMembers_next kind? hname hvalue (ih (by simp) (fun x hx => ?_) (fun x hx => ?_) ?_)
      · exact hnames x (List.mem_cons_of_mem _ hx)
      · exact hfits x (List.mem_cons_of_mem _ hx)
      · simp at hfuel ⊢
        omega

theorem readEvent_of_members {cs : List Char} {event : Event}
    (h : readMembers (cs.length + 2) none ('\x22' :: cs) = .ok (some kind, members, rest))
    (hevent : ofMembers kind members = .ok event) :
    readEvent ('\x7b' :: '\x22' :: cs) = .ok (event, rest) := by
  simp [readEvent, Json.isGap, h, hevent, liftMismatch]

/-- An event is read off the front of its line. -/
theorem readEvent_render (event : Event) : readEvent event.render.toList = .ok (event, []) := by
  have hevent := ofMembers_members event
  have hnames := tagName_notMem event
  have hfits : ∀ m ∈ event.members, Fits (Json.depthLimit - 1) m.2 :=
    fits_members event (by decide)
  obtain ⟨m, members, hmembers⟩ := List.exists_cons_of_ne_nil (members_ne_nil event)
  -- The kind comes first, and then the members.
  have hline : event.render.toList =
      '\x7b' :: memberChars tagName (.string event.name)
        (',' :: (membersChars (m :: members) ++ ['\x7d'])) := by
    simp only [Event.render, Event.toJson, Json.render, String.toList_ofList, Json.chars, hmembers]
    exact congrArg _ (Json.membersChars_cons _ _ _ _)
  rw [hmembers] at hevent hnames hfits
  -- The reader bounds its loop by the length of the text, which is enough for the members.
  obtain ⟨cs, hcs⟩ : ∃ cs, memberChars tagName (.string event.name)
      (',' :: (membersChars (m :: members) ++ ['\x7d'])) = '\x22' :: cs := ⟨_, rfl⟩
  have hcount : (m :: members).length ≤ cs.length + 1 := by
    have hlength := Json.length_le_membersChars (m :: members)
    have htotal := congrArg List.length hcs
    simp only [memberChars, List.length_append, List.length_cons] at hlength htotal ⊢
    omega
  have hread := readMembers_tag event.kind
    (readMembers_membersChars (some event.kind) (by simp) hnames hfits hcount [])
  rw [hline, hcs]
  exact readEvent_of_members (hcs ▸ hread) hevent

/-- The line of an event is read as the event, so no two events have the same line. -/
theorem Event.render_reads_back :
    (∀ event : Event, Event.parse event.render = .ok event) ∧ Function.Injective Event.render := by
  have hparse : ∀ event : Event, Event.parse event.render = .ok event := by
    intro event
    rw [Event.parse, readEvent_render, ok_bind]
    simp only [Json.ended_nil, lift, ok_bind, pure_eq_ok]
  refine ⟨hparse, fun event other heq => ?_⟩
  have hevent := hparse event
  rw [heq, hparse other] at hevent
  exact (Except.ok.inj hevent).symm

end EventBridge.Trace
