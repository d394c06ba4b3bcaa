import EventBridge.Proofs.Dispatch.Arguments
import EventBridge.Proofs.Text.Base64
import EventBridge.Replay.Apply

/-! # What a payload carries

  An event can have its payload as a text or in base64. Both are ways to write bytes, and it is the
  bytes that the handler of the event gets.

  * `Carrier` is an event without its payload, of any of the four kinds that have one. What comes of
    it on an open connection depends on the bytes of its payload: `apply_event`.
  * `payloadBytes_base64_iff` says which bytes a payload in base64 is taken for: those whose base64
    text it is, and none if it is no such text.
  * `HandsOn` follows the bytes from the line to the handler, and `Carries` is what there is to say
    of every payload that an event can have.
-/

namespace EventBridge.Replay

open Dispatch (Occurrence Shared Traffic)
open Engine (Context Live)
open Script (Value)
open Text (Base64.text)
open Trace (Event Payload)

/-! ### Events that carry bytes -/

/-- An event without its payload. -/
inductive Carrier where
  | data
  | datagram
  | request (method url : String) (headers : Http.Headers)
  | response (code : UInt32) (status : String) (headers : Http.Headers)

namespace Carrier

/-- The event on a connection with a payload. -/
def event (name : String) (payload : Payload) : Carrier → Event
  | .data => .data name payload
  | .datagram => .datagram name payload
  | .request method url headers => .httpRequest name method url headers payload
  | .response code status headers => .httpResponse name code status headers payload

/-- What happens on the connection if the payload is taken for some bytes. -/
def traffic (bytes : ByteArray) : Carrier → Traffic
  | .data => .data bytes
  | .datagram => .datagram bytes
  | .request method url headers => .request method url headers bytes
  | .response code status headers => .response code status headers bytes

end Carrier

theorem body?_traffic (live : Live) (carrier : Carrier) (bytes : ByteArray) :
    Occurrence.body? (.traffic live (carrier.traffic bytes)) = some bytes := by
  cases carrier <;> rfl

variable {replay : Replay} {carrier : Carrier} {name : String} {context : Context}

/-- On an open connection all of the payload that counts is its bytes. -/
theorem apply_event (hopen : replay.connection? name = some context) (payload : Payload) :
    replay.apply (carrier.event name payload) =
      match payloadBytes payload with
      | .ok bytes =>
        replay.dispatch (.traffic (Live.of replay.engine context) (carrier.traffic bytes))
      | .error e => replay.rejected e := by
  -- The four kinds differ in what they make of the bytes, and in nothing before that.
  have hon : replay.apply (carrier.event name payload) =
      replay.onConnection name ((payloadBytes payload).map fun bytes => carrier.traffic bytes) := by
    cases carrier <;> rfl
  rw [hon]
  unfold onConnection
  rw [hopen]
  cases payloadBytes payload with
  | ok bytes => rfl
  | error e => rfl

/-! ### The bytes of a payload -/

theorem payloadBytes_text (text : String) (other : Option String) :
    payloadBytes ⟨some text, other⟩ = .ok text.toUTF8 := rfl

theorem payloadBytes_base64_iff {s : String} {bytes : ByteArray} :
    payloadBytes ⟨none, some s⟩ = .ok bytes ↔ s = Base64.text bytes := by
  rw [← Text.Base64.decode_utf8_iff]
  unfold payloadBytes
  dsimp only
  cases Text.Base64.decode (Text.Utf8.encode s) with
  | error cause => exact iff_of_false nofun nofun
  | ok list =>
    constructor
    · intro h
      cases h
      rfl
    · intro h
      cases h
      rfl

/-- A payload in base64 that is taken for no bytes is a bad payload. -/
theorem badPayload_of_ne_text {s : String} (h : ∀ bytes, s ≠ Base64.text bytes) :
    ∃ cause, payloadBytes ⟨none, some s⟩ = .error (.badPayload cause) := by
  cases hdecode : Text.Base64.decode (Text.Utf8.encode s) with
  | ok list =>
    have hbytes : payloadBytes ⟨none, some s⟩ = .ok ⟨list.toArray⟩ := by
      unfold payloadBytes
      dsimp only
      rw [hdecode]
    exact absurd (payloadBytes_base64_iff.1 hbytes) (h _)
  | error cause =>
    refine ⟨cause, ?_⟩
    unfold payloadBytes
    dsimp only
    rw [hdecode]

/-! ### From the line to the handler -/

/-- What is dispatched is a dispatch of the dispatcher in use. -/
theorem dispatch_eq (replay : Replay) (occurrence : Occurrence) :
    replay.dispatch occurrence =
      (((replay.shared.dispatcher.dispatch occurrence).1.map some).mapError .bridge,
        { replay with
          shared := { replay.shared with
            dispatcher := (replay.shared.dispatcher.dispatch occurrence).2.1 } },
        (replay.shared.dispatcher.dispatch occurrence).2.2) := by
  unfold dispatch Shared.dispatch
  generalize replay.shared.dispatcher.dispatch occurrence = dispatched
  obtain ⟨_ | _, _, _⟩ := dispatched <;> rfl

/-- An event hands bytes on. -/
structure HandsOn (replay : Replay) (carrier : Carrier) (context : Context) (event : Event)
    (bytes : ByteArray) : Prop where
  /-- It is what happens on the connection, with those bytes. -/
  applied : replay.apply event =
    replay.dispatch (.traffic (Live.of replay.engine context) (carrier.traffic bytes))
  /-- All of that is what the dispatcher in use does. -/
  dispatched :
    let d := replay.shared.dispatcher
    let occurrence := .traffic (Live.of replay.engine context) (carrier.traffic bytes)
    replay.dispatch occurrence =
      (((d.dispatch occurrence).1.map some).mapError .bridge,
        { replay with shared := { replay.shared with dispatcher := (d.dispatch occurrence).2.1 } },
        (d.dispatch occurrence).2.2)
  /-- The handler that is found for it is called with the bytes for its last argument if everything
      is within the limits. Otherwise it is not called. -/
  handed :
    let d := replay.shared.dispatcher
    let occurrence := .traffic (Live.of replay.engine context) (carrier.traffic bytes)
    ∀ handler i table, d.found? occurrence = some (handler, i) → handler.isCallable = true →
      d.interpreter.contexts = some table →
      d.dispatch occurrence = d.settled occurrence (d.attempt occurrence) ∧
      (occurrence.Fits d.interpreter.limits →
        d.attempt occurrence = d.calledWith occurrence handler i table ∧
        (occurrence.delivery table i.machine).arguments.getLast? = some (.string bytes)) ∧
      (¬ occurrence.Fits d.interpreter.limits →
        ∃ cause, d.attempt occurrence = d.refusedFor occurrence i table cause)

theorem handsOn (hopen : replay.connection? name = some context) {payload : Payload}
    {bytes : ByteArray} (hbytes : payloadBytes payload = .ok bytes) :
    replay.HandsOn carrier context (carrier.event name payload) bytes where
  applied := by rw [apply_event hopen, hbytes]
  dispatched := dispatch_eq replay _
  handed := by
    intro d occurrence handler i table hfound hcallable hcontexts
    -- Within the limits the body is the last argument; beyond them nothing is called.
    have hready : d.Ready := Option.isSome_iff_exists.2 ⟨table, hcontexts⟩
    refine ⟨hready.dispatch_eq_settled occurrence, ?_, ?_⟩
    · intro hfits
      have hlast := (occurrence.intact table i.machine).body bytes (body?_traffic _ carrier bytes)
      exact ⟨Dispatch.Dispatcher.attempt_of_fits hfound hcallable hcontexts hfits, hlast⟩
    · intro hnot
      obtain ⟨cause, hexceeds⟩ := Occurrence.exceeds_of_not_fits hnot
      exact ⟨cause, Dispatch.Dispatcher.attempt_of_exceeds hfound hcontexts hexceeds⟩

/-- What an event comes to on an open connection, for every payload that it can have. -/
structure Carries (replay : Replay) (carrier : Carrier) (name : String) (context : Context) :
    Prop where
  /-- Every sequence of bytes can be written in base64. -/
  base64 : ∀ bytes, replay.HandsOn carrier context
    (carrier.event name ⟨none, some (Base64.text bytes)⟩) bytes
  /-- A text stands for its bytes, whatever there is in base64. -/
  text : ∀ text other, replay.HandsOn carrier context
    (carrier.event name ⟨some text, other⟩) text.toUTF8
  /-- Without either there are no bytes. -/
  empty : replay.HandsOn carrier context (carrier.event name ⟨none, none⟩) ByteArray.empty
  /-- It makes no difference in which of the two ways bytes are written. -/
  same : ∀ bytes text other, text.toUTF8 = bytes →
    replay.apply (carrier.event name ⟨some text, other⟩) =
      replay.apply (carrier.event name ⟨none, some (Base64.text bytes)⟩)
  /-- What is in base64 is the one text of the bytes that are handed on, or else it is the text of
      no bytes and turned down. -/
  canonical : ∀ s,
    (∃ bytes, s = Base64.text bytes ∧
      replay.HandsOn carrier context (carrier.event name ⟨none, some s⟩) bytes) ∨
    ((∀ bytes, s ≠ Base64.text bytes) ∧ ∃ cause,
      replay.apply (carrier.event name ⟨none, some s⟩) = (.error (.badPayload cause), replay, []))

/-- A payload is its bytes: it comes to the same as a text and in base64, base64 is read in its one
    form only, and the handler of the event gets the bytes as they are. -/
theorem payloads_carry_bytes (replay : Replay) (carrier : Carrier) {name : String}
    {context : Context} (hopen : replay.connection? name = some context) :
    replay.Carries carrier name context where
  base64 := fun _ => handsOn hopen (payloadBytes_base64_iff.2 rfl)
  text := fun text other => handsOn hopen (payloadBytes_text text other)
  empty := handsOn hopen rfl
  same := by
    intro bytes text other htext
    have hbase64 : payloadBytes ⟨none, some (Base64.text bytes)⟩ = .ok bytes :=
      payloadBytes_base64_iff.2 rfl
    rw [apply_event hopen, apply_event hopen, hbase64, payloadBytes_text, htext]
  canonical := by
    intro s
    -- The string is the text of some bytes, or of none.
    by_cases h : ∃ bytes, s = Base64.text bytes
    · left
      obtain ⟨bytes, hs⟩ := h
      exact ⟨bytes, hs, handsOn hopen (payloadBytes_base64_iff.2 hs)⟩
    · right
      have hne : ∀ bytes, s ≠ Base64.text bytes := not_exists.1 h
      obtain ⟨cause, hbad⟩ := badPayload_of_ne_text hne
      refine ⟨hne, cause, ?_⟩
      rw [apply_event hopen, hbad]
      rfl

/-- Two bytes as a text and in base64, and a text that has a bit too many for them. -/
theorem payloads_carry_two_bytes :
    let scripting : Config.Scripting := ⟨"monitor.lua", "cybermon", 16777216, 1024, .log, false⟩
    let script := "[[\"set\",\"data\",\x7b\"fn\":[]\x7d]]"
    let up : Event :=
      .connectionUp "a" (.v4 ⟨10, 0, 0, 1⟩ 1) (.v4 ⟨10, 0, 0, 2⟩ 2) .tcp none none none
    ∃ shared context, (Shared.start scripting (.text script.toUTF8.data.toList)).1 = .ok shared ∧
      let replay := ((new shared).apply up).2.1
      replay.connection? "a" = some context ∧
        replay.apply (.data "a" ⟨some "hi", some "?"⟩) =
          replay.apply (.data "a" ⟨none, some "aGk="⟩) ∧
        ∃ cause, replay.apply (.data "a" ⟨none, some "aGl="⟩) =
          (.error (.badPayload cause), replay, []) := by
  intro scripting script up
  have hstart : (Shared.start scripting (.text script.toUTF8.data.toList)).1.toOption.any
      (fun shared => (((new shared).apply up).2.1.connection? "a").isSome) = true := by
    decide +kernel
  have htext : Base64.text "hi".toUTF8 = "aGk=" := by decide
  have hspare : (Text.Base64.decode (Text.Utf8.encode "aGl=")).isOk = false := by decide
  obtain ⟨shared, hshared, hopen⟩ := (Option.any_eq_true _ _).mp hstart
  obtain ⟨context, hopen⟩ := Option.isSome_iff_exists.1 hopen
  have hcarries := payloads_carry_bytes _ .data hopen
  refine ⟨shared, context, Host.eq_ok_of_toOption hshared, hopen, ?_, ?_⟩
  · rw [← htext]
    exact hcarries.same "hi".toUTF8 "hi" (some "?") rfl
  · rcases hcarries.canonical "aGl=" with ⟨bytes, hbytes, -⟩ | ⟨-, hrefused⟩
    · rw [Text.Base64.decode_utf8_iff.2 hbytes] at hspare
      cases hspare
    · exact hrefused

end EventBridge.Replay
