import EventBridge.Proofs.Trace.Members
import EventBridge.Proofs.Trace.RoundTrip

/-! # What the members of an object mean

  The event that members make depends on the values that each name has among them, and on nothing
  else about them: `valuesOf` are these values.

  * For each type of a field there is a relation between a JSON value and what it stands for, and an
    equation that says that the reader of the field goes by it.
  * `Event.slots` says of each field of an event which values its name must have: one value that
    stands for what the event has, or, where the field can be absent, none.
  * `ofMembers_eq_ok_iff` is how the members of a kind are read, and `exists_filled` when they can
    be.
-/

namespace EventBridge.Trace

open Document (Mismatch)
open Engine (Protocol)
open Http (Headers)
open Net (Ip Endpoint)

/-! ### The values of a name -/

/-- The values that the members of a name have, in their order. -/
def valuesOf (members : Members) (name : String) : List Json :=
  (members.filter fun m => m.1 == name).map Prod.snd

@[simp] theorem valuesOf_nil (name : String) : valuesOf [] name = [] := rfl

theorem valuesOf_cons_self (name : String) (value : Json) (members : Members) :
    valuesOf ((name, value) :: members) name = value :: valuesOf members name := by
  simp [valuesOf]

theorem valuesOf_cons_of_ne {name other : String} (h : other ≠ name) (value : Json)
    (members : Members) : valuesOf ((other, value) :: members) name = valuesOf members name := by
  simp [valuesOf, h]

theorem lookup_eq_head? (members : Members) (name : String) :
    members.lookup name = (valuesOf members name).head? := by
  induction members with
  | nil => rfl
  | cons m members ih =>
    obtain ⟨other, value⟩ := m
    by_cases h : other = name
    · subst h
      rw [valuesOf_cons_self, List.lookup_cons_self]
      rfl
    · have hb : (name == other) = false := beq_false_of_ne (Ne.symm h)
      rw [valuesOf_cons_of_ne h, List.lookup_cons, hb, ih]

/-- What is left out among members of other names changes nothing. -/
theorem valuesOf_filter {p : String × Json → Bool} {name : String}
    (h : ∀ m : String × Json, m.1 = name → p m = true) (members : Members) :
    valuesOf (members.filter p) name = valuesOf members name := by
  unfold valuesOf
  rw [List.filter_filter]
  refine congrArg (List.map Prod.snd) (List.filter_congr fun m _ => ?_)
  by_cases hname : m.1 = name
  · simp [hname, h m hname]
  · simp [hname]

theorem perm_valuesOf {members members' : Members} (h : members.Perm members') (name : String) :
    (valuesOf members name).Perm (valuesOf members' name) :=
  (h.filter _).map _

theorem eq_of_perm_of_length_le_one {α : Type} {xs ys : List α} (h : xs.Perm ys)
    (hone : ys.length ≤ 1) : xs = ys := by
  match ys, hone with
  | [], _ => exact h.eq_nil
  | [y], _ => exact List.perm_singleton.1 h

/-! ### What a value stands for -/

/-- A text. -/
def TextIs (value : Json) (s : String) : Prop := value = .string s

/-- An address, as a text. -/
def AddressIs (value : Json) (x : Ip) : Prop := ∃ s, value = .string s ∧ Ip.parse? s = some x

/-- An address with a port, as a text. -/
def EndpointIs (value : Json) (x : Endpoint) : Prop :=
  ∃ s, value = .string s ∧ Endpoint.parse? s = some x

/-- A protocol, by its name or by an object of that name without content. -/
inductive ProtocolIs : Json → Protocol → Prop where
  | name (protocol : Protocol) : ProtocolIs (.string protocol.name) protocol
  | null (protocol : Protocol) : ProtocolIs (.object [(protocol.name, .null)]) protocol
  | empty (protocol : Protocol) : ProtocolIs (.object [(protocol.name, .object [])]) protocol

/-- Header fields, as an object of texts. Of those of one name the last counts. -/
def HeadersIs (value : Json) (headers : Headers) : Prop :=
  ∃ fields : List (String × String),
    value = .object (fields.map headerMember) ∧ headers = Headers.ofList fields

/-- A natural number that has 32 bits. -/
def CodeIs (value : Json) (code : UInt32) : Prop := value = .number (.natural code.toNat)

/-- What may be left open, by `null`. -/
def OptionalIs {α : Type} (is : Json → α → Prop) (value : Json) : Option α → Prop
  | none => value = .null
  | some a => value ≠ .null ∧ is value a

/-- A reader takes the values that stand for something for that, and refuses all others. -/
def ReadsAs {α : Type} (read : Json → Except Mismatch α) (is : Json → α → Prop) : Prop :=
  ∀ value a, read value = .ok a ↔ is value a

theorem readsAs_text : ReadsAs readText TextIs := by
  intro value s
  cases value <;> simp [readText, TextIs]

theorem readsAs_address : ReadsAs readAddress AddressIs := by
  intro value x
  unfold AddressIs
  cases value with
  | string s => cases h : Ip.parse? s <;> simp [readAddress, h]
  | _ => simp [readAddress]

theorem readsAs_endpoint : ReadsAs readEndpoint EndpointIs := by
  intro value x
  unfold EndpointIs
  cases value with
  | string s => cases h : Endpoint.parse? s <;> simp [readEndpoint, h]
  | _ => simp [readEndpoint]

theorem protocolOfName_eq_ok_iff {name : String} {protocol : Protocol} :
    protocolOfName name = .ok protocol ↔ name = protocol.name := by
  unfold protocolOfName
  split
  · next htcp =>
    subst htcp
    cases protocol <;> simp [Protocol.name]
  · next htcp =>
    split
    · next hudp =>
      subst hudp
      cases protocol <;> simp [Protocol.name]
    · next hudp => cases protocol <;> simp [Protocol.name, htcp, hudp]

theorem readsAs_protocol : ReadsAs readProtocol ProtocolIs := by
  intro value protocol
  constructor
  · intro h
    unfold readProtocol at h
    split at h
    · cases protocolOfName_eq_ok_iff.1 h
      exact .name protocol
    · obtain ⟨other, hname, hcontent⟩ := ok_of_bind h
      obtain rfl := protocolOfName_eq_ok_iff.1 hname
      split at hcontent
      · cases hcontent
        exact .null _
      · cases hcontent
        exact .empty _
      · cases hcontent
    · cases h
    · cases h
  · intro h
    cases h <;> cases protocol <;> rfl

theorem readFields_eq_ok_iff {members : Members} {headers headers' : Headers} :
    readFields members headers = .ok headers' ↔
      ∃ fields : List (String × String), members = fields.map headerMember ∧
        headers' = fields.foldl (fun headers field => headers.insert field.1 field.2) headers := by
  induction members generalizing headers with
  | nil =>
    constructor
    · rintro ⟨⟩
      exact ⟨[], rfl, rfl⟩
    · rintro ⟨fields, hmembers, rfl⟩
      cases List.map_eq_nil_iff.1 hmembers.symm
      rfl
  | cons m members ih =>
    obtain ⟨name, value⟩ := m
    rw [readFields, bind_eq_ok_iff]
    constructor
    · rintro ⟨text, htext, hrest⟩
      obtain ⟨fields, rfl, hheaders⟩ := ih.1 hrest
      cases (readsAs_text _ _).1 htext
      exact ⟨(name, text) :: fields, rfl, hheaders⟩
    · rintro ⟨fields, hmembers, hheaders⟩
      cases fields with
      | nil => cases hmembers
      | cons field fields =>
        obtain ⟨hfield, hrest⟩ := List.cons.inj hmembers
        cases hfield
        exact ⟨field.2, rfl, ih.2 ⟨fields, hrest, hheaders⟩⟩

theorem readsAs_headers : ReadsAs readHeaders HeadersIs := by
  intro value headers
  unfold HeadersIs
  cases value with
  | object members => simp [readHeaders, readFields_eq_ok_iff, Headers.ofList]
  | _ => simp [readHeaders]

theorem readsAs_code : ReadsAs readCode CodeIs := by
  intro value code
  unfold CodeIs
  constructor
  · intro h
    unfold readCode at h
    split at h
    · next n =>
      split at h
      · next hn =>
        cases h
        rw [UInt32.toNat_ofNat_of_lt' hn]
      · cases h
    · cases h
    · cases h
  · rintro rfl
    exact readCode_ofNat code

theorem readsAs_optional {α : Type} {read : Json → Except Mismatch α} {is : Json → α → Prop}
    (h : ReadsAs read is) : ReadsAs (readOptional read) (OptionalIs is) := by
  intro value result
  by_cases hnull : value = .null
  · subst hnull
    cases result <;> simp [readOptional, OptionalIs]
  · have hread : readOptional read value = (read value).map some := by
      cases value with
      | null => exact absurd rfl hnull
      | _ => rfl
    rw [hread]
    cases result with
    | none =>
      refine iff_of_false ?_ hnull
      intro hmap
      obtain ⟨a, -, hsome⟩ := ok_of_map hmap
      cases hsome
    | some a =>
      refine Iff.trans ?_ (and_iff_right hnull).symm
      rw [← h value a]
      constructor
      · intro hmap
        obtain ⟨a', ha', hsome⟩ := ok_of_map hmap
        cases hsome
        exact ha'
      · intro ha
        rw [ha]
        rfl

/-! ### Fields -/

/-- A name has one value, which stands for something. -/
def Once {α : Type} (is : Json → α → Prop) (a : α) (values : List Json) : Prop :=
  ∃ value, values = [value] ∧ is value a

/-- A name has one value, which stands for something, or no value, which stands for something
    else. -/
def AtMostOnce {α : Type} (is : Json → α → Prop) (absent a : α) (values : List Json) : Prop :=
  values = [] ∧ a = absent ∨ Once is a values

/-- The values of a name are good for a field. -/
structure Suits (f : Field) (values : List Json) : Prop where
  once : values.length ≤ 1
  present : f.optional = false → values ≠ []
  accepts : ∀ value ∈ values, f.accepts value = .ok ()

section Fields

variable {α : Type} {read : Json → Except Mismatch α} {is : Json → α → Prop} {members : Members}
  {values : List Json}

theorem accepts_field_iff (h : ReadsAs read is) (name : String)
    (value : Json) : (field name read).accepts value = .ok () ↔ ∃ a, is value a := by
  show (read value).map (fun _ => ()) = .ok () ↔ _
  constructor
  · intro hmap
    obtain ⟨a, ha, -⟩ := ok_of_map hmap
    exact ⟨a, (h value a).1 ha⟩
  · rintro ⟨a, ha⟩
    rw [(h value a).2 ha]
    rfl

theorem suits_field_iff (h : ReadsAs read is) (name : String) :
    Suits (field name read) values ↔ ∃ a, Once is a values := by
  constructor
  · rintro ⟨honce, hpresent, haccepts⟩
    match values, honce with
    | [], _ => exact absurd rfl (hpresent rfl)
    | [value], _ =>
      obtain ⟨a, ha⟩ := (accepts_field_iff h name value).1 (haccepts value List.mem_cons_self)
      exact ⟨a, value, rfl, ha⟩
  · rintro ⟨a, value, rfl, ha⟩
    refine ⟨Nat.le_refl 1, fun _ => List.cons_ne_nil _ _, ?_⟩
    intro other hmem
    rw [List.mem_singleton.1 hmem]
    exact (accepts_field_iff h name value).2 ⟨a, ha⟩

theorem suits_optionalField_iff (h : ReadsAs read is) (name : String)
    (absent : α) :
    Suits (optionalField name read) values ↔ ∃ a, AtMostOnce is absent a values := by
  constructor
  · rintro ⟨honce, -, haccepts⟩
    match values, honce with
    | [], _ => exact ⟨absent, .inl ⟨rfl, rfl⟩⟩
    | [value], _ =>
      obtain ⟨a, ha⟩ := (accepts_field_iff h name value).1 (haccepts value List.mem_cons_self)
      exact ⟨a, .inr ⟨value, rfl, ha⟩⟩
  · rintro ⟨a, ⟨rfl, -⟩ | hone⟩
    · exact ⟨Nat.zero_le 1, nofun, fun _ hmem => absurd hmem List.not_mem_nil⟩
    · have hsuits := (suits_field_iff h name).2 ⟨a, hone⟩
      exact ⟨hsuits.once, nofun, hsuits.accepts⟩

/-- Of a name that has one value at most, that value is taken. -/
theorem ReadsAs.required_iff (h : ReadsAs read is) {name : String} {a : α}
    (hone : (valuesOf members name).length ≤ 1) :
    required members name read = .ok a ↔ Once is a (valuesOf members name) := by
  unfold required
  rw [lookup_eq_head?]
  match valuesOf members name, hone with
  | [], _ => exact iff_of_false nofun nofun
  | [value], _ => simp [Once, h value a]

theorem ReadsAs.optional_iff (h : ReadsAs read is) {name : String} {absent a : α}
    (hone : (valuesOf members name).length ≤ 1) :
    optional members name absent read = .ok a ↔
      AtMostOnce is absent a (valuesOf members name) := by
  unfold optional
  rw [lookup_eq_head?]
  match valuesOf members name, hone with
  | [], _ => simp [AtMostOnce, Once, eq_comm]
  | [value], _ => simp [AtMostOnce, Once, h value a]

theorem Once.length_le_one {a : α} (hone : Once is a values) : values.length ≤ 1 := by
  obtain ⟨value, rfl, -⟩ := hone
  exact Nat.le_refl 1

theorem AtMostOnce.length_le_one {absent a : α} (hone : AtMostOnce is absent a values) :
    values.length ≤ 1 := by
  rcases hone with ⟨rfl, -⟩ | hone
  · exact Nat.zero_le 1
  · exact hone.length_le_one

theorem ReadsAs.required (h : ReadsAs read is) {name : String} {a : α}
    (hone : Once is a (valuesOf members name)) : required members name read = .ok a :=
  (h.required_iff hone.length_le_one).2 hone

theorem ReadsAs.optional (h : ReadsAs read is) {name : String} {absent a : α}
    (hone : AtMostOnce is absent a (valuesOf members name)) :
    optional members name absent read = .ok a :=
  (h.optional_iff hone.length_le_one).2 hone

end Fields

/-- What is left open by `null` are the texts and addresses that may be absent. -/
theorem accepts_null_iff {kind : Kind} {f : Field} (hf : f ∈ kind.fields) :
    f.accepts .null = .ok () ↔ f.optional = true ∧ f.name ∉ ["protocol", "headers"] := by
  revert f
  cases kind <;>
    simp [Kind.fields, field, optionalField, readOptional, readText, readAddress, readEndpoint,
      readProtocol, readHeaders, readCode, Except.map]

theorem accepts_code_iff {kind : Kind} {f : Field} (hf : f ∈ kind.fields) (hname : f.name = "code")
    (value : Json) :
    f.accepts value = .ok () ↔ ∃ n < 2 ^ 32, value = .number (.natural n) := by
  obtain rfl : f = field "code" readCode := by
    revert hname f
    cases kind <;> simp [Kind.fields, field, optionalField]
  rw [accepts_field_iff readsAs_code]
  constructor
  · rintro ⟨code, hcode⟩
    exact ⟨code.toNat, code.toNat_lt, hcode⟩
  · rintro ⟨n, hn, rfl⟩
    exact ⟨UInt32.ofNat n, by rw [CodeIs, UInt32.toNat_ofNat_of_lt' hn]⟩

/-! ### The check -/

/-- The values of a name pass the check behind members of some names. -/
structure Passes (f : Field) (seen : List String) (values : List Json) : Prop where
  new : values ≠ [] → f.name ∉ seen
  once : values.length ≤ 1
  accepts : ∀ value ∈ values, f.accepts value = .ok ()

/-- Fields that go by the same name are the same. -/
theorem eq_of_name_eq {fields : List Field} (hfields : (fields.map Field.name).Nodup) {f g : Field}
    (hf : f ∈ fields) (hg : g ∈ fields) (hname : f.name = g.name) : f = g := by
  have hfind := find?_name hfields hf
  rw [hname, find?_name hfields hg] at hfind
  exact (Option.some.inj hfind).symm

/-- A value of a field passes with the others if it is the only one, and new. -/
theorem passes_cons_self {f : Field} {seen : List String} {value : Json} {values : List Json} :
    Passes f seen (value :: values) ↔
      f.name ∉ seen ∧ f.accepts value = .ok () ∧ Passes f (f.name :: seen) values := by
  constructor
  · rintro ⟨hnew, honce, haccepts⟩
    obtain rfl : values = [] := List.eq_nil_of_length_eq_zero (by simpa using honce)
    exact ⟨hnew (List.cons_ne_nil _ _), haccepts value List.mem_cons_self,
      fun hne => absurd rfl hne, Nat.zero_le 1, fun _ hmem => absurd hmem List.not_mem_nil⟩
  · rintro ⟨hnew, haccepts, hrest⟩
    -- The name is among those seen now, so it has no values any more.
    obtain rfl : values = [] := by
      refine Classical.byContradiction fun hne => ?_
      exact hrest.new hne List.mem_cons_self
    refine ⟨fun _ => hnew, Nat.le_refl 1, fun other hmem => ?_⟩
    rw [List.mem_singleton.1 hmem]
    exact haccepts

theorem passes_seen_cons_of_ne {f : Field} {name : String} (hne : f.name ≠ name)
    {seen : List String} {values : List Json} :
    Passes f (name :: seen) values ↔ Passes f seen values := by
  have hmem : f.name ∉ name :: seen ↔ f.name ∉ seen := by simp [hne]
  constructor
  · rintro ⟨hnew, honce, haccepts⟩
    exact ⟨fun hvalues => hmem.1 (hnew hvalues), honce, haccepts⟩
  · rintro ⟨hnew, honce, haccepts⟩
    exact ⟨fun hvalues => hmem.2 (hnew hvalues), honce, haccepts⟩

/-- The check goes by the values of each field. -/
theorem check_eq_ok_iff {fields : List Field} (hfields : (fields.map Field.name).Nodup)
    {members : Members} {seen : List String} :
    check fields seen members = .ok () ↔
      ∀ f ∈ fields, Passes f seen (valuesOf members f.name) := by
  induction members generalizing seen with
  | nil =>
    refine iff_of_true rfl fun f _ => ?_
    exact ⟨fun hne => absurd rfl hne, Nat.zero_le 1, fun _ hmem => absurd hmem List.not_mem_nil⟩
  | cons m members ih =>
    obtain ⟨name, value⟩ := m
    rw [check]
    cases hfind : fields.find? fun f => f.name == name with
    | none =>
      -- The name is that of no field.
      have hne : ∀ f ∈ fields, name ≠ f.name := by
        intro f hf heq
        have := List.find?_eq_none.1 hfind f hf
        simp [heq] at this
      dsimp only
      rw [ih]
      refine forall₂_congr fun f hf => ?_
      rw [valuesOf_cons_of_ne (hne f hf)]
    | some f =>
      have hf : f ∈ fields := List.mem_of_find?_eq_some hfind
      obtain rfl : f.name = name := by simpa using List.find?_some hfind
      have hother : ∀ g ∈ fields, g ≠ f → f.name ≠ g.name := by
        intro g hg hne heq
        exact hne (eq_of_name_eq hfields hg hf heq.symm)
      -- One field has this value in front of its others, all the others have theirs.
      have hall : (∀ g ∈ fields, Passes g seen (valuesOf ((f.name, value) :: members) g.name)) ↔
          f.name ∉ seen ∧ f.accepts value = .ok () ∧
            ∀ g ∈ fields, Passes g (f.name :: seen) (valuesOf members g.name) := by
        constructor
        · intro hpasses
          have hself := hpasses f hf
          rw [valuesOf_cons_self, passes_cons_self] at hself
          refine ⟨hself.1, hself.2.1, fun g hg => ?_⟩
          by_cases hgf : g = f
          · rw [hgf]
            exact hself.2.2
          · have hpass := hpasses g hg
            rw [valuesOf_cons_of_ne (hother g hg hgf)] at hpass
            exact (passes_seen_cons_of_ne (hother g hg hgf).symm).2 hpass
        · rintro ⟨hnew, haccepts, hrest⟩ g hg
          by_cases hgf : g = f
          · rw [hgf, valuesOf_cons_self, passes_cons_self]
            exact ⟨hnew, haccepts, hrest f hf⟩
          · rw [valuesOf_cons_of_ne (hother g hg hgf)]
            exact (passes_seen_cons_of_ne (hother g hg hgf).symm).1 (hrest g hg)
      rw [hall]
      dsimp only
      by_cases hseen : f.name ∈ seen
      · rw [if_pos (List.contains_iff_mem.2 hseen)]
        refine iff_of_false ?_ fun h => h.1 hseen
        rintro ⟨⟩
      · rw [if_neg (fun h => hseen (List.contains_iff_mem.1 h)), bind_eq_ok_iff, ih.symm]
        constructor
        · rintro ⟨_, haccepts, hrest⟩
          exact ⟨hseen, haccepts, hrest⟩
        · rintro ⟨-, haccepts, hrest⟩
          exact ⟨(), haccepts, hrest⟩

/-! ### Events -/

/-- The names of the fields of a payload, and the values that each must have. -/
def Payload.slots (payload : Payload) (text base64 : String) :
    List (String × (List Json → Prop)) :=
  [(text, AtMostOnce (OptionalIs TextIs) none payload.text),
    (base64, AtMostOnce (OptionalIs TextIs) none payload.base64)]

/-- The names of the fields of an event, and the values that each must have. -/
def Event.slots : Event → List (String × (List Json → Prop))
  | .target liid address | .triggerUp liid address =>
    [("liid", Once TextIs liid), ("address", Once AddressIs address)]
  | .triggerDown liid => [("liid", Once TextIs liid)]
  | .connectionUp conn source destination protocol liid trigger layer =>
    [("conn", Once TextIs conn), ("src", Once EndpointIs source),
      ("dest", Once EndpointIs destination), ("protocol", AtMostOnce ProtocolIs .tcp protocol),
      ("liid", AtMostOnce (OptionalIs TextIs) none liid),
      ("trigger", AtMostOnce (OptionalIs AddressIs) none trigger),
      ("layer", AtMostOnce (OptionalIs TextIs) none layer)]
  | .data conn payload | .datagram conn payload =>
    ("conn", Once TextIs conn) :: payload.slots "payload" "payload_base64"
  | .httpRequest conn method url headers body =>
    ("conn", Once TextIs conn) :: ("method", Once TextIs method) :: ("url", Once TextIs url) ::
      ("headers", AtMostOnce HeadersIs Headers.empty headers) ::
      body.slots "body" "body_base64"
  | .httpResponse conn code status headers body =>
    ("conn", Once TextIs conn) :: ("code", Once CodeIs code) :: ("status", Once TextIs status) ::
      ("headers", AtMostOnce HeadersIs Headers.empty headers) ::
      body.slots "body" "body_base64"
  | .connectionDown conn => [("conn", Once TextIs conn)]

/-- Members give each field of an event the values that it must have. -/
def Event.Filled (event : Event) (members : Members) : Prop :=
  ∀ slot ∈ event.slots, slot.2 (valuesOf members slot.1)

section Reading

variable {members : Members} {event : Event} {kind : Kind} {name text base64 : String}

theorem optionalText_of_atMostOnce {s : Option String}
    (h : AtMostOnce (OptionalIs TextIs) none s (valuesOf members name)) :
    optionalText members name = .ok s := (readsAs_optional readsAs_text).optional h

theorem payload_of_filled {p : Payload}
    (h : ∀ slot ∈ p.slots text base64, slot.2 (valuesOf members slot.1)) :
    payload members text base64 = .ok p := by
  have htext := optionalText_of_atMostOnce (h _ List.mem_cons_self)
  have hbase64 := optionalText_of_atMostOnce (h _ (List.mem_cons_of_mem _ List.mem_cons_self))
  simp only [payload, htext, hbase64, ok_bind]
  rfl

theorem filled_of_payload {p : Payload} (htext : (valuesOf members text).length ≤ 1)
    (hbase64 : (valuesOf members base64).length ≤ 1)
    (h : payload members text base64 = .ok p) :
    ∀ slot ∈ p.slots text base64, slot.2 (valuesOf members slot.1) := by
  obtain ⟨first, hfirst, h⟩ := ok_of_bind h
  obtain ⟨second, hsecond, h⟩ := ok_of_bind h
  cases h
  have hreads := readsAs_optional readsAs_text
  simp [Payload.slots, (hreads.optional_iff htext).1 hfirst,
    (hreads.optional_iff hbase64).1 hsecond]

/-- Members that fill the fields of an event make the event. -/
theorem build_of_filled (h : event.Filled members) : build members event.kind = .ok event := by
  unfold Event.Filled at h
  cases event with
  | target liid address | triggerUp liid address =>
    simp only [Event.slots, List.forall_mem_cons] at h
    obtain ⟨hliid, haddress, -⟩ := h
    simp [Event.kind, build, readsAs_text.required hliid, readsAs_address.required haddress]
  | triggerDown liid =>
    simp only [Event.slots, List.forall_mem_cons] at h
    obtain ⟨hliid, -⟩ := h
    simp [Event.kind, build, readsAs_text.required hliid]
  | connectionUp conn source destination protocol liid trigger layer =>
    simp only [Event.slots, List.forall_mem_cons] at h
    obtain ⟨hconn, hsource, hdestination, hprotocol, hliid, htrigger, hlayer, -⟩ := h
    simp [Event.kind, build, readsAs_text.required hconn, readsAs_endpoint.required hsource,
      readsAs_endpoint.required hdestination, readsAs_protocol.optional hprotocol,
      optionalText_of_atMostOnce hliid, (readsAs_optional readsAs_address).optional htrigger,
      optionalText_of_atMostOnce hlayer]
  | data conn payload | datagram conn payload =>
    simp only [Event.slots, List.forall_mem_cons] at h
    obtain ⟨hconn, hpayload⟩ := h
    simp [Event.kind, build, readsAs_text.required hconn, payload_of_filled hpayload]
  | httpRequest conn method url headers body =>
    simp only [Event.slots, List.forall_mem_cons] at h
    obtain ⟨hconn, hmethod, hurl, hheaders, hbody⟩ := h
    simp [Event.kind, build, readsAs_text.required hconn, readsAs_text.required hmethod,
      readsAs_text.required hurl, readsAs_headers.optional hheaders, payload_of_filled hbody]
  | httpResponse conn code status headers body =>
    simp only [Event.slots, List.forall_mem_cons] at h
    obtain ⟨hconn, hcode, hstatus, hheaders, hbody⟩ := h
    simp [Event.kind, build, readsAs_text.required hconn, readsAs_code.required hcode,
      readsAs_text.required hstatus, readsAs_headers.optional hheaders, payload_of_filled hbody]
  | connectionDown conn =>
    simp only [Event.slots, List.forall_mem_cons] at h
    obtain ⟨hconn, -⟩ := h
    simp [Event.kind, build, readsAs_text.required hconn]

/-- An event that is made has the values of its members, where no field has more than one. -/
theorem filled_of_build (hone : ∀ f ∈ kind.fields, (valuesOf members f.name).length ≤ 1)
    (h : build members kind = .ok event) : event.Filled members := by
  unfold Event.Filled
  cases kind with
  | target | triggerUp =>
    simp only [Kind.fields, field, List.forall_mem_cons] at hone
    obtain ⟨honeLiid, honeAddress, -⟩ := hone
    obtain ⟨liid, hliid, h⟩ := ok_of_bind h
    obtain ⟨address, haddress, h⟩ := ok_of_bind h
    cases h
    simp only [Event.slots, List.forall_mem_cons]
    exact ⟨(readsAs_text.required_iff honeLiid).1 hliid,
      (readsAs_address.required_iff honeAddress).1 haddress, List.forall_mem_nil _⟩
  | triggerDown =>
    simp only [Kind.fields, field, List.forall_mem_cons] at hone
    obtain ⟨honeLiid, -⟩ := hone
    obtain ⟨liid, hliid, h⟩ := ok_of_bind h
    cases h
    simp only [Event.slots, List.forall_mem_cons]
    exact ⟨(readsAs_text.required_iff honeLiid).1 hliid, List.forall_mem_nil _⟩
  | connectionUp =>
    simp only [Kind.fields, field, optionalField, List.forall_mem_cons] at hone
    obtain ⟨honeConn, honeSource, honeDestination, honeProtocol, honeLiid, honeTrigger, honeLayer,
      -⟩ := hone
    obtain ⟨conn, hconn, h⟩ := ok_of_bind h
    obtain ⟨source, hsource, h⟩ := ok_of_bind h
    obtain ⟨destination, hdestination, h⟩ := ok_of_bind h
    obtain ⟨protocol, hprotocol, h⟩ := ok_of_bind h
    obtain ⟨liid, hliid, h⟩ := ok_of_bind h
    obtain ⟨trigger, htrigger, h⟩ := ok_of_bind h
    obtain ⟨layer, hlayer, h⟩ := ok_of_bind h
    cases h
    have htext := readsAs_optional readsAs_text
    have haddress := readsAs_optional readsAs_address
    simp only [Event.slots, List.forall_mem_cons]
    exact ⟨(readsAs_text.required_iff honeConn).1 hconn,
      (readsAs_endpoint.required_iff honeSource).1 hsource,
      (readsAs_endpoint.required_iff honeDestination).1 hdestination,
      (readsAs_protocol.optional_iff honeProtocol).1 hprotocol,
      (htext.optional_iff honeLiid).1 hliid, (haddress.optional_iff honeTrigger).1 htrigger,
      (htext.optional_iff honeLayer).1 hlayer, List.forall_mem_nil _⟩
  | data | datagram =>
    simp only [Kind.fields, field, optionalField, List.forall_mem_cons] at hone
    obtain ⟨honeConn, honeText, honeBase64, -⟩ := hone
    obtain ⟨conn, hconn, h⟩ := ok_of_bind h
    obtain ⟨payload, hpayload, h⟩ := ok_of_bind h
    cases h
    simp only [Event.slots, List.forall_mem_cons]
    exact ⟨(readsAs_text.required_iff honeConn).1 hconn,
      filled_of_payload honeText honeBase64 hpayload⟩
  | httpRequest =>
    simp only [Kind.fields, field, optionalField, List.forall_mem_cons] at hone
    obtain ⟨honeConn, honeMethod, honeUrl, honeHeaders, honeText, honeBase64, -⟩ := hone
    obtain ⟨conn, hconn, h⟩ := ok_of_bind h
    obtain ⟨method, hmethod, h⟩ := ok_of_bind h
    obtain ⟨url, hurl, h⟩ := ok_of_bind h
    obtain ⟨headers, hheaders, h⟩ := ok_of_bind h
    obtain ⟨body, hbody, h⟩ := ok_of_bind h
    cases h
    simp only [Event.slots, List.forall_mem_cons]
    exact ⟨(readsAs_text.required_iff honeConn).1 hconn,
      (readsAs_text.required_iff honeMethod).1 hmethod,
      (readsAs_text.required_iff honeUrl).1 hurl,
      (readsAs_headers.optional_iff honeHeaders).1 hheaders,
      filled_of_payload honeText honeBase64 hbody⟩
  | httpResponse =>
    simp only [Kind.fields, field, optionalField, List.forall_mem_cons] at hone
    obtain ⟨honeConn, honeCode, honeStatus, honeHeaders, honeText, honeBase64, -⟩ := hone
    obtain ⟨conn, hconn, h⟩ := ok_of_bind h
    obtain ⟨code, hcode, h⟩ := ok_of_bind h
    obtain ⟨status, hstatus, h⟩ := ok_of_bind h
    obtain ⟨headers, hheaders, h⟩ := ok_of_bind h
    obtain ⟨body, hbody, h⟩ := ok_of_bind h
    cases h
    simp only [Event.slots, List.forall_mem_cons]
    exact ⟨(readsAs_text.required_iff honeConn).1 hconn,
      (readsAs_code.required_iff honeCode).1 hcode,
      (readsAs_text.required_iff honeStatus).1 hstatus,
      (readsAs_headers.optional_iff honeHeaders).1 hheaders,
      filled_of_payload honeText honeBase64 hbody⟩
  | connectionDown =>
    simp only [Kind.fields, field, List.forall_mem_cons] at hone
    obtain ⟨honeConn, -⟩ := hone
    obtain ⟨conn, hconn, h⟩ := ok_of_bind h
    cases h
    simp only [Event.slots, List.forall_mem_cons]
    exact ⟨(readsAs_text.required_iff honeConn).1 hconn, List.forall_mem_nil _⟩

/-- A field and the name and values that an event asks for belong together. -/
structure Matches (f : Field) (slot : String × (List Json → Prop)) : Prop where
  name : slot.1 = f.name
  suits : ∀ values, slot.2 values → Suits f values

theorem matches_field {α : Type} {read : Json → Except Mismatch α} {is : Json → α → Prop}
    (h : ReadsAs read is) (name : String) (a : α) :
    Matches (field name read) (name, Once is a) :=
  ⟨rfl, fun _ hone => (suits_field_iff h name).2 ⟨a, hone⟩⟩

theorem matches_optionalField {α : Type} {read : Json → Except Mismatch α} {is : Json → α → Prop}
    (h : ReadsAs read is) (name : String) (absent a : α) :
    Matches (optionalField name read) (name, AtMostOnce is absent a) :=
  ⟨rfl, fun _ hone => (suits_optionalField_iff h name absent).2 ⟨a, hone⟩⟩

/-- An event asks for values of the fields of its kind, and of no others. -/
theorem fields_match_slots (event : Event) :
    (∀ f ∈ event.kind.fields, ∃ slot ∈ event.slots, Matches f slot) ∧
      ∀ slot ∈ event.slots, ∃ f ∈ event.kind.fields, Matches f slot := by
  have htext := readsAs_optional readsAs_text
  have haddress := readsAs_optional readsAs_address
  cases event <;>
    simp [Event.kind, Kind.fields, Event.slots, Payload.slots, matches_field readsAs_text,
      matches_field readsAs_address, matches_field readsAs_endpoint, matches_field readsAs_code,
      matches_optionalField readsAs_protocol, matches_optionalField readsAs_headers,
      matches_optionalField htext, matches_optionalField haddress]

theorem suits_of_filled (h : event.Filled members) :
    ∀ f ∈ event.kind.fields, Suits f (valuesOf members f.name) := by
  intro f hf
  obtain ⟨slot, hslot, hname, hsuits⟩ := (fields_match_slots event).1 f hf
  rw [← hname]
  exact hsuits _ (h slot hslot)

/-- The event depends on the values of its fields, and not on their order: no field has two. -/
theorem filled_of_perm {members' : Members} (h : event.Filled members)
    (hperm : ∀ f ∈ event.kind.fields, (valuesOf members' f.name).Perm (valuesOf members f.name)) :
    event.Filled members' := by
  intro slot hslot
  obtain ⟨f, hf, hname, hsuits⟩ := (fields_match_slots event).2 slot hslot
  have hvalues := h slot hslot
  have hsame := hperm f hf
  rw [← hname] at hsame
  rwa [eq_of_perm_of_length_le_one hsame (hsuits _ hvalues).once]

/-- Members with good values for the fields of a kind make an event of that kind. -/
theorem exists_filled (h : ∀ f ∈ kind.fields, Suits f (valuesOf members f.name)) :
    ∃ event : Event, event.kind = kind ∧ event.Filled members := by
  have hopenText := readsAs_optional readsAs_text
  have hopenAddress := readsAs_optional readsAs_address
  unfold Event.Filled
  cases kind <;>
    simp only [Kind.fields, List.forall_mem_cons, suits_field_iff readsAs_text,
      suits_field_iff readsAs_address, suits_field_iff readsAs_endpoint,
      suits_field_iff readsAs_code, suits_optionalField_iff readsAs_protocol _ Protocol.tcp,
      suits_optionalField_iff readsAs_headers _ Headers.empty,
      suits_optionalField_iff hopenText _ none, suits_optionalField_iff hopenAddress _ none] at h
  case target =>
    obtain ⟨⟨liid, hliid⟩, ⟨address, haddress⟩, -⟩ := h
    exact ⟨.target liid address, rfl, by simpa [Event.slots] using ⟨hliid, haddress⟩⟩
  case triggerUp =>
    obtain ⟨⟨liid, hliid⟩, ⟨address, haddress⟩, -⟩ := h
    exact ⟨.triggerUp liid address, rfl, by simpa [Event.slots] using ⟨hliid, haddress⟩⟩
  case triggerDown =>
    obtain ⟨⟨liid, hliid⟩, -⟩ := h
    exact ⟨.triggerDown liid, rfl, List.forall_mem_singleton.2 hliid⟩
  case connectionUp =>
    obtain ⟨⟨conn, hconn⟩, ⟨source, hsource⟩, ⟨destination, hdestination⟩, ⟨protocol, hprotocol⟩,
      ⟨liid, hliid⟩, ⟨trigger, htrigger⟩, ⟨layer, hlayer⟩, -⟩ := h
    refine ⟨.connectionUp conn source destination protocol liid trigger layer, rfl, ?_⟩
    simpa [Event.slots] using
      ⟨hconn, hsource, hdestination, hprotocol, hliid, htrigger, hlayer⟩
  case data =>
    obtain ⟨⟨conn, hconn⟩, ⟨text, htext⟩, ⟨base64, hbase64⟩, -⟩ := h
    refine ⟨.data conn ⟨text, base64⟩, rfl, ?_⟩
    simpa [Event.slots, Payload.slots] using ⟨hconn, htext, hbase64⟩
  case datagram =>
    obtain ⟨⟨conn, hconn⟩, ⟨text, htext⟩, ⟨base64, hbase64⟩, -⟩ := h
    refine ⟨.datagram conn ⟨text, base64⟩, rfl, ?_⟩
    simpa [Event.slots, Payload.slots] using ⟨hconn, htext, hbase64⟩
  case httpRequest =>
    obtain ⟨⟨conn, hconn⟩, ⟨method, hmethod⟩, ⟨url, hurl⟩, ⟨headers, hheaders⟩, ⟨text, htext⟩,
      ⟨base64, hbase64⟩, -⟩ := h
    refine ⟨.httpRequest conn method url headers ⟨text, base64⟩, rfl, ?_⟩
    simpa [Event.slots, Payload.slots] using ⟨hconn, hmethod, hurl, hheaders, htext, hbase64⟩
  case httpResponse =>
    obtain ⟨⟨conn, hconn⟩, ⟨code, hcode⟩, ⟨status, hstatus⟩, ⟨headers, hheaders⟩, ⟨text, htext⟩,
      ⟨base64, hbase64⟩, -⟩ := h
    refine ⟨.httpResponse conn code status headers ⟨text, base64⟩, rfl, ?_⟩
    simpa [Event.slots, Payload.slots] using ⟨hconn, hcode, hstatus, hheaders, htext, hbase64⟩
  case connectionDown =>
    obtain ⟨⟨conn, hconn⟩, -⟩ := h
    exact ⟨.connectionDown conn, rfl, List.forall_mem_singleton.2 hconn⟩

theorem passes_of_suits {f : Field} {values : List Json} (h : Suits f values) :
    Passes f [] values :=
  ⟨fun _ => List.not_mem_nil, h.once, h.accepts⟩

/-- The event of a kind that members make is the one whose fields they fill. -/
theorem ofMembers_eq_ok_iff :
    ofMembers kind members = .ok event ↔ event.kind = kind ∧ event.Filled members := by
  unfold ofMembers
  rw [bind_eq_ok_iff]
  constructor
  · rintro ⟨_, hcheck, hbuild⟩
    have hpasses := (check_eq_ok_iff (nodup_fields kind)).1 hcheck
    exact ⟨kind_of_build hbuild, filled_of_build (fun f hf => (hpasses f hf).once) hbuild⟩
  · rintro ⟨rfl, hfilled⟩
    refine ⟨(), (check_eq_ok_iff (nodup_fields _)).2 fun f hf => ?_, build_of_filled hfilled⟩
    exact passes_of_suits (suits_of_filled hfilled f hf)

end Reading

end EventBridge.Trace
