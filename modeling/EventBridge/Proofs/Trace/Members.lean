import EventBridge.Proofs.Result
import EventBridge.Trace.Event.Reader

/-! # What a line gives to its event

  A line names its values, or has them in the order of declaration. `membersOf` are the values by
  name in either case, and `parse_eq_build` says that an event that is read is made of them. What a
  field is that a line leaves out can then be read off the way events are made.
-/

namespace EventBridge.Trace

open Document (Mismatch)
open Engine (Protocol)
open Json (Malformed skipGaps)

/-! ### Steps that go through -/

theorem ok_of_liftMismatch {α : Type} {x : Except Mismatch α} {a : α}
    (h : liftMismatch x = .ok a) : x = .ok a := by
  cases x with
  | ok b => exact congrArg Except.ok (Except.ok.inj h)
  | error e => cases h

theorem ok_of_lift {α : Type} {x : Except Malformed α} {a : α} (h : lift x = .ok a) :
    x = .ok a := by
  cases x with
  | ok b => exact congrArg Except.ok (Except.ok.inj h)
  | error e => cases h

/-! ### Members of a line -/

/-- The kind that a line names and the members that it has: those of its object, or the items of its
    array under the names of the fields. -/
def membersOf (text : String) : Option (Kind × Members) :=
  match skipGaps text.toList with
  | '\x7b' :: rest =>
    match readMembers ((skipGaps rest).length + 1) none (skipGaps rest) with
    | .ok (some kind, members, _) => some (kind, members)
    | _ => none
  | '[' :: rest =>
    match readKind (skipGaps rest) with
    | .ok (kind, rest) =>
      match readItems rest with
      | .ok (items, _) => some (kind, (kind.fields.map Field.name).zip items)
      | .error _ => none
    | .error _ => none
  | _ => none

theorem membersOf_object {text : String} {rest after : List Char} {kind : Kind}
    {members : Members} (htext : skipGaps text.toList = '\x7b' :: rest)
    (hmembers : readMembers ((skipGaps rest).length + 1) none (skipGaps rest) =
      .ok (some kind, members, after)) : membersOf text = some (kind, members) := by
  simp only [membersOf, htext, hmembers]

theorem membersOf_array {text : String} {rest between after : List Char} {kind : Kind}
    {items : List Json} (htext : skipGaps text.toList = '[' :: rest)
    (hkind : readKind (skipGaps rest) = .ok (kind, between))
    (hitems : readItems between = .ok (items, after)) :
    membersOf text = some (kind, (kind.fields.map Field.name).zip items) := by
  simp only [membersOf, htext, hkind, hitems]

/-- Items that are accepted get the names of the fields. -/
theorem members_of_nameItems {kind : Kind} {index : Nat} {fields : List Field}
    {items : List Json} {members : Members}
    (h : nameItems kind index fields items = .ok members) :
    members = (fields.map Field.name).zip items := by
  induction fields generalizing index items members with
  | nil =>
    rw [nameItems] at h
    cases h
    rfl
  | cons f fields ih =>
    cases items with
    | nil =>
      rw [nameItems] at h
      split at h
      · rw [ih h, List.zip_nil_right, List.zip_nil_right]
      · cases h
    | cons value rest =>
      rw [nameItems] at h
      obtain ⟨_, -, h⟩ := ok_of_bind h
      obtain ⟨others, hothers, h⟩ := ok_of_bind h
      cases h
      rw [ih hothers]
      rfl

/-- An event that is read is made of the members of its line. -/
theorem parse_eq_build {text : String} {event : Event} (h : Event.parse text = .ok event) :
    ∃ kind members, membersOf text = some (kind, members) ∧ build members kind = .ok event := by
  obtain ⟨⟨found, rest⟩, hread, h⟩ := ok_of_bind h
  obtain ⟨_, -, h⟩ := ok_of_bind h
  cases h
  unfold readEvent at hread
  split at hread
  · -- An object.
    next rest' hcs =>
    split at hread
    · cases hread
    · obtain ⟨⟨kind?, members, rest''⟩, hmembers, hread⟩ := ok_of_bind hread
      cases kind? with
      | none => cases hread
      | some kind =>
        obtain ⟨event', hevent, hread⟩ := ok_of_bind hread
        cases hread
        obtain ⟨_, -, hbuild⟩ := ok_of_bind (ok_of_liftMismatch hevent)
        exact ⟨kind, members, membersOf_object hcs hmembers, hbuild⟩
  · -- An array.
    next rest' hcs =>
    split at hread
    · cases hread
    · obtain ⟨⟨kind, rest''⟩, hkind, hread⟩ := ok_of_bind hread
      obtain ⟨⟨items, _⟩, hitems, hread⟩ := ok_of_bind hread
      obtain ⟨event', hevent, hread⟩ := ok_of_bind hread
      cases hread
      obtain ⟨members, hnamed, hbuild⟩ := ok_of_bind (ok_of_liftMismatch hevent)
      dsimp only at hbuild
      split at hbuild
      · cases hbuild
      · refine ⟨kind, members, ?_, hbuild⟩
        rw [members_of_nameItems hnamed]
        exact membersOf_array hcs hkind hitems
  · obtain ⟨_, -, hread⟩ := ok_of_bind hread
    cases hread

/-- The event that is made is of the kind that it is made for. -/
theorem kind_of_build {members : Members} {kind : Kind} {event : Event}
    (h : build members kind = .ok event) : event.kind = kind := by
  cases kind <;> simp only [build, bind, Except.bind, pure, Except.pure] at h
  all_goals
    repeat' split at h
    all_goals cases h
  all_goals rfl

/-! ### The protocol of a connection -/

/-- The protocol that members give to a connection: `tcp` if they have none. -/
inductive GivesProtocol (members : Members) : Protocol → Prop where
  | absent : members.lookup "protocol" = none → GivesProtocol members .tcp
  | present {value : Json} {protocol : Protocol} : members.lookup "protocol" = some value →
    readProtocol value = .ok protocol → GivesProtocol members protocol

theorem givesProtocol_of_build {members : Members} {name : String}
    {source destination : Net.Endpoint} {protocol : Protocol} {liid : Option String}
    {trigger : Option Net.Ip} {layer : Option String}
    (h : build members .connectionUp =
      .ok (.connectionUp name source destination protocol liid trigger layer)) :
    GivesProtocol members protocol := by
  unfold build at h
  obtain ⟨_, -, h⟩ := ok_of_bind h
  obtain ⟨_, -, h⟩ := ok_of_bind h
  obtain ⟨_, -, h⟩ := ok_of_bind h
  obtain ⟨given, hgiven, h⟩ := ok_of_bind h
  obtain ⟨_, -, h⟩ := ok_of_bind h
  obtain ⟨_, -, h⟩ := ok_of_bind h
  obtain ⟨_, -, h⟩ := ok_of_bind h
  cases h
  unfold optional at hgiven
  split at hgiven
  · next value hvalue => exact .present hvalue hgiven
  · next habsent =>
    cases hgiven
    exact .absent habsent

/-- The line of a connection names its protocol, or it is `tcp`. -/
theorem parse_protocol {text : String} {name : String} {source destination : Net.Endpoint}
    {protocol : Protocol} {liid : Option String} {trigger : Option Net.Ip} {layer : Option String}
    (h : Event.parse text =
      .ok (.connectionUp name source destination protocol liid trigger layer)) :
    ∃ members, membersOf text = some (.connectionUp, members) ∧
      GivesProtocol members protocol := by
  obtain ⟨kind, members, hmembers, hbuild⟩ := parse_eq_build h
  obtain rfl : Kind.connectionUp = kind := kind_of_build hbuild
  exact ⟨members, hmembers, givesProtocol_of_build hbuild⟩

end EventBridge.Trace
