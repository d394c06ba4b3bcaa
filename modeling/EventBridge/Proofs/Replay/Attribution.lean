import EventBridge.Proofs.Replay.Numbering
import EventBridge.Proofs.Trace.Members

/-! # What scripts hear about a connection

  A script can ask where a connection comes from and goes to, and why it is captured. All of that is
  settled when the connection opens: by its line, and by the targets that were registered before.

  * `attribution` is why a connection is captured, from the events before it and its line.
    `Leading.liidFor_eq` ties it to the targets that the engine keeps.
  * `answers` are the texts that scripts get. `answer_newContext` says that the engine gives them
    for the context of a new connection, and `Attributed` that it does so in all its calls.
-/

namespace EventBridge.Replay

open Engine (Context Live Protocol Root Transport)
open Net (Endpoint Ip)
open Script (Native Value)
open Trace (Event)

/-! ### Why a connection is captured -/

/-- What an event registers an address under, if it does. -/
def registers (address : Ip) : Event → Option String
  | .target liid other => if other = address then some liid else none
  | _ => none

/-- The identifier that an address was last registered under. -/
def registered (events : List Event) (address : Ip) : Option String :=
  events.reverse.findSome? (registers address)

/-- Why a connection is captured: as its line says, or else for its source, or else for its
    destination, if these have been registered. A trigger without an identifier counts for
    nothing. -/
def attribution (earlier : List Event) (source destination : Endpoint) (liid : Option String)
    (trigger : Option Ip) : Root :=
  match liid with
  | some liid => ⟨liid, trigger⟩
  | none =>
    match registered earlier source.ip with
    | some liid => ⟨liid, some source.ip⟩
    | none =>
      match registered earlier destination.ip with
      | some liid => ⟨liid, some destination.ip⟩
      | none => ⟨"", none⟩

/-- The last event is looked at first. -/
theorem registered_concat (events : List Event) (event : Event) (address : Ip) :
    registered (events ++ [event]) address =
      (registers address event).or (registered events address) := by
  unfold registered
  rw [List.reverse_concat, List.findSome?_cons]
  cases registers address event <;> rfl

/-- What happens on a connection leaves the scene as it is. -/
theorem eq_of_leads_onConnection {scene after : Scene} {name : String}
    {what : Except EventError Dispatch.Traffic}
    {result : Except EventError (Option Dispatch.Outcome)}
    (h : (scene.onConnection name what).Leads scene result after) : after = scene := by
  unfold Scene.onConnection at h
  split at h <;> cases h <;> rfl

/-- An event registers what it says, and keeps all other targets. -/
theorem liidFor_of_leads {scene after : Scene} {event : Event}
    {result : Except EventError (Option Dispatch.Outcome)}
    (h : (scene.course event).Leads scene result after) (address : Ip) :
    after.engine.liidFor address =
      (registers address event).or (scene.engine.liidFor address) := by
  have hsame : after = scene →
      after.engine.liidFor address = scene.engine.liidFor address := by
    rintro rfl
    rfl
  unfold Scene.course at h
  cases event with
  | target liid other =>
    cases h
    refine (scene.engine.liidFor_addTarget other address liid).trans ?_
    by_cases hother : other = address
    · subst hother
      simp only [registers, beq_self_eq_true, if_true, Option.some_or]
    · simp only [registers, hother, beq_false_of_ne (Ne.symm hother), if_false, Option.none_or,
        Bool.false_eq_true]
  | connectionUp name source destination protocol liid trigger layer =>
    dsimp only at h
    split at h
    · refine hsame ?_
      cases h
      rfl
    · -- A new context takes numbers, and no targets.
      generalize hnew : makeContext _ source destination protocol liid trigger layer = made at h
      obtain ⟨context, engine, opened⟩ := made
      obtain ⟨-, hafter⟩ := makeContext_eq hnew
      have hmade : engine.targets = scene.engine.targets := by rw [hafter]
      have htargets : after.engine.targets = scene.engine.targets := by
        cases h <;> exact hmade
      exact congrArg (List.lookup address) htargets
  | connectionDown name =>
    dsimp only at h
    have hkeeps : after.engine = scene.engine := by
      split at h <;> cases h <;> rfl
    exact congrArg (fun engine : Engine => engine.liidFor address) hkeeps
  | triggerUp | triggerDown =>
    refine hsame ?_
    cases h <;> rfl
  | data | datagram | httpRequest | httpResponse => exact hsame (eq_of_leads_onConnection h)

/-- The engine keeps what was registered last. -/
theorem Leading.liidFor_eq {entries : List Entry} {scene : Scene} (h : Leading entries scene)
    (address : Ip) :
    scene.engine.liidFor address = registered (entries.map Entry.event) address := by
  induction h with
  | start => rfl
  | @next entries entry _ _ ih =>
    rw [List.map_append, List.map_singleton, registered_concat, ← ih]
    exact liidFor_of_leads (leads_apply entry.before entry.event) address

theorem newRoot_eq_attribution {engine : Engine} {earlier : List Event}
    (h : ∀ address, engine.liidFor address = registered earlier address)
    (source destination : Endpoint) (liid : Option String) (trigger : Option Ip) :
    newRoot engine source destination liid trigger =
      attribution earlier source destination liid trigger := by
  cases liid with
  | some liid => rfl
  | none =>
    simp only [newRoot, attribution, Engine.rootFor, h]
    cases registered earlier source.ip with
    | some liid => rfl
    | none => cases registered earlier destination.ip <;> rfl

/-! ### What scripts hear -/

/-- An end of a connection with its layers, the outermost first. -/
def describeEnd (protocol : Protocol) (layer : Option String) (endpoint : Endpoint) : String :=
  endpoint.ip.family ++ ":" ++ endpoint.ip.text ++ " " ++ protocol.name ++ ":" ++
    toString endpoint.port.toNat ++
    match layer with
    | some layer => " " ++ layer
    | none => ""

/-- A text that may be missing, as a value. -/
def textOrNil (text : Option String) : Value := (text.map Value.ofText).getD .nil

/-- What the questions about a connection give. -/
def answers (number : Nat) (transport : Transport) (layer : Option String) : Native → List Value
  | .describeSource =>
    [Value.ofText (describeEnd transport.protocol layer transport.source)]
  | .describeDestination =>
    [Value.ofText (describeEnd transport.protocol layer transport.destination)]
  | .liid => [Value.ofText transport.root.liid]
  | .contextId => [Value.ofText (toString number)]
  | .networkInfo => [Value.ofText transport.source.ip.text,
      Value.ofText transport.destination.ip.text, Value.ofText transport.protocol.name]
  | .triggerInfo => [textOrNil (transport.root.trigger.map Ip.text),
      textOrNil (transport.root.trigger.map Ip.family)]

/-- A flow is the nearest flow, also under a layer. -/
theorem transport?_newContext (number : Nat) (transport : Transport) (layer : Option String) :
    (newContext number transport layer).transport? = some transport := by
  cases layer <;> rfl

theorem describe_newContext (pick : Transport → Endpoint) (number : Nat) (transport : Transport)
    (layer : Option String) :
    (newContext number transport layer).describe pick =
      describeEnd transport.protocol layer (pick transport) := by
  have htwo : ∀ a b : String, " ".intercalate [a, b] = a ++ " " ++ b := fun _ _ => rfl
  have hthree : ∀ a b c : String, " ".intercalate [a, b, c] = a ++ " " ++ b ++ " " ++ c :=
    fun _ _ _ => rfl
  cases layer with
  | none =>
    simp [newContext, Context.describe, Context.chain, Context.words, describeEnd, htwo,
      String.append_assoc]
  | some layer =>
    simp [newContext, Context.describe, Context.chain, Context.words, describeEnd, hthree,
      String.append_assoc]

/-- The engine has an answer to every question about a new connection. -/
theorem answer_newContext (engine : Engine) (number : Nat) (transport : Transport)
    (layer : Option String) (native : Native) :
    native.answer (Live.of engine (newContext number transport layer)) =
      .ok (answers (newContext number transport layer).id transport layer native) := by
  have hflow := transport?_newContext number transport layer
  have hroot : engine.root (newContext number transport layer) = transport.root := by
    simp only [Engine.root, hflow]
  cases native with
  | describeSource =>
    have htext := describe_newContext Transport.source number transport layer
    simp only [Native.answer, Live.of, Engine.describeSource, htext, answers]
  | describeDestination =>
    have htext := describe_newContext Transport.destination number transport layer
    simp only [Native.answer, Live.of, Engine.describeDestination, htext, answers]
  | liid => simp only [Native.answer, Live.of, hroot, answers]
  | contextId => rfl
  | networkInfo =>
    have hnetwork : engine.network (newContext number transport layer) =
        .ok ⟨transport.protocol, transport.source, transport.destination⟩ := by
      cases layer <;> rfl
    simp only [Native.answer, Live.of, hnetwork, answers]
    rfl
  | triggerInfo =>
    simp only [Native.answer, Live.of, hroot, answers]
    cases transport.root.trigger <;> rfl

/-- What the questions about a connection give in all its calls: it is settled by the line that has
    opened it and by the targets that were registered before that, and by nothing else. -/
def Attributed (entries : List Entry) : Prop :=
  ∀ name i j up entry source destination protocol liid trigger layer,
    PartOf entries name i j → entries[i]? = some up → entries[j]? = some entry →
    up.event = .connectionUp name source destination protocol liid trigger layer →
    ∀ question ∈ entry.inquiries,
      question.reply = .ok (answers up.number
        ⟨protocol, source, destination,
          attribution ((entries.take i).map Entry.event) source destination liid trigger⟩
        layer question.native)

theorem Leading.attributed {entries : List Entry} {scene : Scene} (h : Leading entries scene) :
    Attributed entries := by
  intro name i j up entry source destination protocol liid trigger layer hpart hup hentry hevent
    question hmem
  obtain ⟨called, hcalled, -, hlive⟩ := hpart.calls
  cases hentry.symm.trans hcalled
  obtain ⟨live, hlive⟩ := Option.isSome_iff_exists.1 hlive
  obtain ⟨made, hmade, hcontext⟩ := h.context_eq hpart hup hentry hlive
  obtain ⟨opened, hopened, hopens⟩ := hpart.opens
  cases hup.symm.trans hopened
  have hroot := newRoot_eq_attribution (h.take hup).liidFor_eq source destination liid trigger
  cases up.acts with
  | staying notOpens => exact absurd hopens (notOpens name)
  | closing _ closes => exact absurd closes hopens.not_closes
  | opening event _ _ call context =>
    rw [hevent] at event
    cases event
    cases hmade.symm.trans call
    have hnumber := Entry.number_of_live hmade
    rw [context] at hcontext hnumber
    rw [h.reply_of_inquiry hentry hlive hmem, ← hcontext, answer_newContext, hnumber, ← hroot]
    rfl

/-- The family of a trigger is missing exactly if its address is, and is that of the address
    otherwise. -/
theorem family_matches (number : Nat) (transport : Transport) (layer : Option String) :
    ∃ address family, answers number transport layer .triggerInfo = [address, family] ∧
      (family = .nil ↔ address = .nil) ∧
      ∀ ip, transport.root.trigger = some ip →
        address = Value.ofText ip.text ∧ family = Value.ofText ip.family := by
  refine ⟨_, _, rfl, ?_, ?_⟩
  · cases transport.root.trigger <;> simp [textOrNil, Value.ofText]
  · rintro ip hip
    rw [hip]
    exact ⟨rfl, rfl⟩

/-- The line of a connection names its protocol, or the connection is one over tcp. -/
theorem protocol_of_line {line : List UInt8} {name : String} {source destination : Endpoint}
    {protocol : Protocol} {liid : Option String} {trigger : Option Ip} {layer : Option String}
    (h : Reading.of line =
      .event (.connectionUp name source destination protocol liid trigger layer)) :
    ∃ text members, Text.Utf8.decode? line = some text ∧
      Trace.membersOf (Text.trim text) = some (.connectionUp, members) ∧
      Trace.GivesProtocol members protocol := by
  unfold Reading.of at h
  split at h
  · cases h
  · next text htext =>
    split at h
    · cases h
    · split at h
      · next event hparse =>
        cases h
        obtain ⟨members, hmembers, hgives⟩ := Trace.parse_protocol hparse
        exact ⟨text, members, htext, hmembers, hgives⟩
      · cases h

/-- Whatever the trace and the scripts, and whenever the script is read again: a script that asks in
    a call about a connection gets an answer, and the same one in all calls from the opening of the
    connection to its closing. What it is was settled before the handler for the opening ran. The
    calls are all that the dispatcher is used for. -/
theorem Staging.scripts_hear_attribution (staging : Staging) (trace : List UInt8) (n : Nat) :
    (∀ (native : Native) (args : List Value) (contexts : Script.Contexts) (m : Script.Machine),
      native.Noted args contexts m) ∧
    Dispatched (staging.entries trace n) ∧
    NotesKept (staging.entries trace n) ∧
    (∀ (j : Nat) (entry : Entry), (staging.entries trace n)[j]? = some entry →
      entry.live?.isSome → ∃ name i, PartOf (staging.entries trace n) name i j) ∧
    Attributed (staging.entries trace n) ∧
    (∀ (number : Nat) (transport : Transport) (layer : Option String),
      ∃ address family, answers number transport layer .triggerInfo = [address, family] ∧
        (family = .nil ↔ address = .nil) ∧
        ∀ ip, transport.root.trigger = some ip →
          address = Value.ofText ip.text ∧ family = Value.ofText ip.family) ∧
    ∀ (line : List UInt8) (name : String) (source destination : Endpoint) (protocol : Protocol)
      (liid : Option String) (trigger : Option Ip) (layer : Option String),
      Reading.of line =
          .event (.connectionUp name source destination protocol liid trigger layer) →
        ∃ text members, Text.Utf8.decode? line = some text ∧
          Trace.membersOf (Text.trim text) = some (.connectionUp, members) ∧
          Trace.GivesProtocol members protocol := by
  have hleading := staging.leading_entries trace n
  refine ⟨Native.noted, dispatched _, hleading.notesKept, ?_, hleading.attributed, family_matches,
    fun _ _ _ _ _ _ _ _ => protocol_of_line⟩
  intro j entry hentry hlive
  obtain ⟨name, i, -, hpart, -⟩ := hleading.numbered.incarnation j entry hentry hlive
  exact ⟨name, i, hpart⟩

end EventBridge.Replay
