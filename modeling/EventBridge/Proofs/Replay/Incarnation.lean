import EventBridge.Proofs.Dispatch.Inquiry
import EventBridge.Proofs.Replay.Independence
import EventBridge.Proofs.Replay.Lifecycle

/-! # Incarnations of a connection

  A name that was closed can be opened again. An incarnation of a connection is one opening of its
  name with the calls that are made about it until it is closed; the script can be read again
  meanwhile.

  * `Staging.entries` are the events of a run as far as some line. All that is used of them is
    `Leading`: each event finds the scene that the one before it has left, and a dispatcher that is
    ready.
  * `PartOf` says which opening a call belongs to. `Leading.partOf` has one for every call, and that
    the call is about the context that was made at the opening.
  * `makeContext_eq` is that context.
-/

namespace EventBridge.Replay

open Dispatch (Occurrence Traffic)
open Engine (Context Layer Live Node Root Transport)
open Log (Line)
open Script (Native Question)
open Trace (Event)

/-! ### The events of a run -/

/-- Events that are applied one after the other from the start on, and the scene after the last of
    them. From one to the next the dispatcher can be replaced. -/
inductive Leading : List Entry → Scene → Prop where
  | start : Leading [] ⟨Engine.initial, []⟩
  | next {entries : List Entry} {entry : Entry} : Leading entries entry.before.scene →
    entry.before.shared.Ready → Leading (entries ++ [entry]) entry.after.scene

/-- What stands where in a list with one more at the end. -/
theorem getElem?_concat_eq_some {entries : List Entry} {last entry : Entry} {i : Nat} :
    (entries ++ [last])[i]? = some entry ↔
      entries[i]? = some entry ∨ i = entries.length ∧ last = entry := by
  rcases Nat.lt_trichotomy i entries.length with hlt | rfl | hgt
  · simp [List.getElem?_append_left hlt, Nat.ne_of_lt hlt]
  · simp
  · have hle : entries.length ≤ i := Nat.le_of_lt hgt
    have hbeyond : (entries ++ [last]).length ≤ i := by
      rw [List.length_append, List.length_singleton]
      exact hgt
    rw [List.getElem?_eq_none hle, List.getElem?_eq_none hbeyond]
    simp [Nat.ne_of_gt hgt]

namespace Staging

/-- The event that a line of a run brings, and the replay that it is applied to. No event comes of a
    line that is blank or none, or after what has ended the run. -/
def entry? (staging : Staging) (trace : List UInt8) (n : Nat) : Option Entry :=
  match (staging.upTo trace n).1, (traceLines trace)[n]?.map Reading.of with
  | .ok _, some (.event event) => some ⟨(staging.before trace n).counting, event⟩
  | _, _ => none

/-- The events of a run as far as some line. -/
def entries (staging : Staging) (trace : List UInt8) : Nat → List Entry
  | 0 => []
  | n + 1 => staging.entries trace n ++ (staging.entry? trace n).toList

variable (staging : Staging) (trace : List UInt8) (n : Nat)

theorem ready_before : (staging.before trace n).shared.Ready :=
  ready_reloaded (ready_upTo (Dispatch.Shared.ready_of_start staging.started).1 n) _

/-- One more line: its event leads from one scene to the next, and without an event the scene
    stays. -/
theorem scene_upTo_succ :
    (staging.upTo trace (n + 1)).2.scene =
      match staging.entry? trace n with
      | some entry => entry.after.scene
      | none => (staging.upTo trace n).2.scene := by
  unfold entry?
  cases hline : (traceLines trace)[n]? with
  | none =>
    have hsame : staging.upTo trace (n + 1) = staging.upTo trace n := upTo_succ_of_none hline
    rw [hsame]
    cases (staging.upTo trace n).1 <;> rfl
  | some line =>
    cases hgoes : (staging.upTo trace n).1 with
    | error e =>
      have hsame : staging.upTo trace (n + 1) = staging.upTo trace n := upTo_succ_of_error hgoes
      rw [hsame]
    | ok _ =>
      have hnext : (staging.upTo trace (n + 1)).2 =
          ((staging.before trace n).runLine (n + 1) line).2.1 := by
        unfold before
        unfold upTo at hgoes ⊢
        rw [upTo_succ hline]
        generalize Replay.upTo staging.requests (Replay.new staging.shared) trace n = stage
          at hgoes ⊢
        obtain ⟨result, stage⟩ := stage
        cases hgoes
        rfl
      rw [hnext, runLine_eq, Option.map_some]
      cases Reading.of line with
      | event event =>
        obtain ⟨hscene, -⟩ := (staging.before trace n).runEvent_counting (n + 1) event
        rw [hscene]
        show _ = ((staging.before trace n).counting.apply event).2.1.scene
        rw [counting, apply_recount]
        rfl
      | _ => rfl

/-- The events of a run are such events. -/
theorem leading_entries :
    Leading (staging.entries trace n) (staging.upTo trace n).2.scene := by
  induction n with
  | zero => exact .start
  | succ n ih =>
    rw [scene_upTo_succ, entries]
    cases hentry : staging.entry? trace n with
    | none =>
      rw [Option.toList_none, List.append_nil]
      exact ih
    | some entry =>
      have hbefore : entry.before = (staging.before trace n).counting := by
        unfold entry? at hentry
        split at hentry <;> cases hentry
        rfl
      refine .next ?_ ?_
      · rw [hbefore]
        exact ih
      · rw [hbefore]
        exact staging.ready_before trace n

end Staging

/-! ### Openings -/

/-- The root of a new flow: what the event gives, or else what the targets say. -/
def newRoot (engine : Engine) (source destination : Net.Endpoint) (liid : Option String)
    (trigger : Option Net.Ip) : Root :=
  match liid with
  | some liid => ⟨liid, trigger⟩
  | none => engine.rootFor source.ip destination.ip

/-- The context of a new connection. Its flow has the next number, and a layer the one after
    that. -/
def newContext (number : Nat) (transport : Transport) : Option String → Context
  | none => ⟨⟨number, .flow transport⟩, []⟩
  | some layer => ⟨⟨number + 1, .application layer⟩, [⟨number, .flow transport⟩]⟩

/-- How many numbers a new connection takes. -/
def numbersFor : Option String → Nat
  | none => 1
  | some _ => 2

theorem makeContext_eq {engine after : Engine} {source destination : Net.Endpoint}
    {protocol : Engine.Protocol} {liid : Option String} {trigger : Option Net.Ip}
    {layer : Option String} {context : Context} {lines : List Line}
    (h : makeContext engine source destination protocol liid trigger layer =
      (context, after, lines)) :
    context = newContext engine.nextId
        ⟨protocol, source, destination, newRoot engine source destination liid trigger⟩ layer ∧
      after = { engine with nextId := engine.nextId + numbersFor layer } := by
  unfold makeContext at h
  cases liid <;> cases layer <;> cases h <;> exact ⟨rfl, rfl⟩

namespace Entry

/-- The event opens an incarnation of a connection. Its handler may fail. -/
def Opens (entry : Entry) (name : String) : Prop := entry.IsUp name ∧ ¬ entry.Rejected

/-- The event closes the incarnation that is open. -/
def Closes (entry : Entry) (name : String) : Prop := entry.IsDown name ∧ ¬ entry.Rejected

/-- What a handler was called about. -/
def live? (entry : Entry) : Option Live := entry.called.bind Occurrence.live?

/-- What that handler has asked about it. -/
def inquiries (entry : Entry) : List Question :=
  match entry.called with
  | some occurrence => entry.before.shared.dispatcher.inquiries occurrence
  | none => []

variable {entry : Entry} {name : String}

/-- What a handler is called about comes with its root, whatever event it is. -/
theorem live_eq {live : Live} (h : entry.live? = some live) :
    live = Live.of live.engine live.context := by
  have htakes := entry.before.scene.takes_course entry.event
  unfold live? called at h
  generalize entry.before.scene.course entry.event = course at htakes h
  generalize entry.event = event at htakes
  cases htakes with
  | rejected | target => cases h
  | trigger _ hlive =>
    rw [Course.occurrence?, Option.bind_some, hlive] at h
    cases h
  | exchange | up | down =>
    cases h
    rfl

/-- What an entry does to the connections and to the numbers, and what its call is about: the three
    kinds of entries. -/
inductive Acts (entry : Entry) : Prop where
  /-- It is about an open connection, about none, or turned down. -/
  | staying (opens : ∀ name, ¬ entry.Opens name) (closes : ∀ name, ¬ entry.Closes name)
    (connections : ∀ name, entry.after.connection? name = entry.before.connection? name)
    (numbers : entry.after.engine.nextId = entry.before.engine.nextId)
    (call : ∀ live, entry.live? = some live → ∃ name, about? entry.event = some name ∧
      entry.before.connection? name = some live.context)
  | opening {name : String} {source destination : Net.Endpoint} {protocol : Engine.Protocol}
    {liid : Option String} {trigger : Option Net.Ip} {layer : Option String} {live : Live}
    (event : entry.event = .connectionUp name source destination protocol liid trigger layer)
    (opens : entry.Opens name)
    (engine : entry.after.engine = { entry.before.engine with
      nextId := entry.before.engine.nextId + numbersFor layer })
    (call : entry.live? = some live)
    (context : live.context = newContext entry.before.engine.nextId ⟨protocol, source, destination,
      newRoot entry.before.engine source destination liid trigger⟩ layer)
    (connections : ∀ other context, entry.after.connection? other = some context →
      other = name ∧ context = live.context ∨
        other ≠ name ∧ entry.before.connection? other = some context)
  | closing {name : String} {live : Live} (event : entry.event = .connectionDown name)
    (closes : entry.Closes name)
    (engine : entry.after.engine = entry.before.engine)
    (call : entry.live? = some live)
    (known : entry.before.connection? name = some live.context)
    (connections : ∀ other context, entry.after.connection? other = some context →
      other ≠ name ∧ entry.before.connection? other = some context)

/-- An event that turns no connection opens and closes none. -/
theorem not_turns (h : ¬ TurnsConnection entry.event) (name : String) :
    ¬ entry.Opens name ∧ ¬ entry.Closes name :=
  ⟨fun hopens => h (turns (.inl hopens.1)).1, fun hcloses => h (turns (.inr hcloses.1)).1⟩

/-- An event opens connections of the name that it has. -/
theorem Opens.name_eq {other : String} (h : entry.Opens name) (h' : entry.Opens other) :
    other = name := by
  have habout := (turns (.inl h.1)).2
  rw [(turns (.inl h'.1)).2] at habout
  exact Option.some.inj habout

theorem Opens.not_closes {other : String} (h : entry.Opens name) : ¬ entry.Closes other := by
  rintro ⟨hdown, -⟩
  obtain ⟨hup, -⟩ := h
  unfold IsUp at hup
  unfold IsDown at hdown
  cases hevent : entry.event with
  | connectionUp =>
    rw [hevent] at hdown
    exact hdown
  | _ =>
    rw [hevent] at hup
    exact hup

theorem Closes.name_eq {other : String} (h : entry.Closes name) (h' : entry.Closes other) :
    other = name := by
  have habout := (turns (.inr h.1)).2
  rw [(turns (.inr h'.1)).2] at habout
  exact Option.some.inj habout

/-- A dispatch that is made is no rejection, whatever comes of it. -/
theorem not_rejected_of_leads {occurrence : Occurrence} {through failed scene after : Scene}
    {lines : List Line} {result : Except EventError (Option Dispatch.Outcome)}
    (h : (Course.call occurrence through failed lines).Leads scene result after)
    (hresult : entry.result = result) : ¬ entry.Rejected := by
  cases h with
  | through => exact not_rejected_of_ok hresult
  | failed => exact not_rejected_of_bridge hresult

/-- An event that turns no connection leaves them and the numbers alone, if its course does. -/
theorem Acts.of_not_turns (h : ¬ TurnsConnection entry.event)
    (connections : ∀ name, entry.after.connection? name = entry.before.connection? name)
    (numbers : entry.after.engine.nextId = entry.before.engine.nextId)
    (call : ∀ live, entry.live? = some live → ∃ name, about? entry.event = some name ∧
      entry.before.connection? name = some live.context) : entry.Acts :=
  .staying (fun name => (not_turns h name).1) (fun name => (not_turns h name).2) connections numbers
    call

/-- Every entry is of one of the three kinds. -/
theorem acts (entry : Entry) : entry.Acts := by
  have htakes := entry.before.scene.takes_course entry.event
  have hleads : (entry.before.scene.course entry.event).Leads entry.before.scene entry.result
      entry.after.scene := leads_apply entry.before entry.event
  have hlive : entry.live? =
      (entry.before.scene.course entry.event).occurrence?.bind Occurrence.live? := rfl
  generalize entry.before.scene.course entry.event = course at htakes hleads hlive
  generalize hevent : entry.event = event at htakes
  generalize hresult : entry.result = result at hleads
  generalize hafter : entry.after.scene = after at hleads
  -- From here on the entry stands for what is known of it.
  have hconnection : ∀ name, entry.after.connection? name = after.connection? name :=
    fun name => congrArg (·.connection? name) hafter
  have hengine : entry.after.engine = after.engine := congrArg Scene.engine hafter
  cases htakes with
  | @rejected _ cause hcause =>
    cases hleads
    have hrejected : entry.Rejected := ⟨cause, hresult, hcause⟩
    refine .staying (fun _ h => h.2 hrejected) (fun _ h => h.2 hrejected) hconnection ?_ ?_
    · exact congrArg Engine.nextId hengine
    · intro live hsome
      rw [hlive] at hsome
      cases hsome
  | target liid address =>
    cases hleads
    have hturns : ¬ TurnsConnection entry.event := by
      rw [hevent]
      exact id
    refine .of_not_turns hturns hconnection ?_ ?_
    · rw [hengine]
      rfl
    · intro live hsome
      rw [hlive] at hsome
      cases hsome
  | @trigger _ occurrence hturns hnone =>
    have hsame : after = entry.before.scene := by cases hleads <;> rfl
    subst hsame
    rw [← hevent] at hturns
    refine .of_not_turns hturns hconnection ?_ ?_
    · exact congrArg Engine.nextId hengine
    · intro live hsome
      rw [hlive] at hsome
      exact absurd (hnone.symm.trans hsome) nofun
  | @exchange _ name context what hturns habout hname hwhat =>
    have hsame : after = entry.before.scene := by cases hleads <;> rfl
    subst hsame
    rw [← hevent] at hturns habout
    refine .of_not_turns hturns hconnection ?_ ?_
    · exact congrArg Engine.nextId hengine
    · intro live hsome
      rw [hlive] at hsome
      cases hsome
      exact ⟨name, habout, hname⟩
  | @up name _ _ _ _ _ _ context engine _ hname hmade =>
    obtain ⟨hcontext, hafterEngine⟩ := makeContext_eq hmade
    have hup : entry.IsUp name := by
      unfold IsUp
      rw [hevent]
    refine .opening hevent ⟨hup, not_rejected_of_leads hleads hresult⟩ ?_ hlive hcontext ?_
    · rw [hengine]
      cases hleads <;> exact hafterEngine
    · intro other found hfound
      rw [hconnection] at hfound
      cases hleads with
      | through => exact Scene.connection?_of_openConnection hfound
      | failed =>
        -- The name was not open before, and is not open now.
        refine .inr ⟨?_, hfound⟩
        rintro rfl
        exact absurd (hname.symm.trans hfound) nofun
  | @down name context hname =>
    have hdown : entry.IsDown name := by
      unfold IsDown
      rw [hevent]
    have hclosed : after = entry.before.scene.closeConnection name := by cases hleads <;> rfl
    have hnot := not_rejected_of_leads hleads hresult
    subst hclosed
    refine .closing hevent ⟨hdown, hnot⟩ hengine hlive hname ?_
    intro other found hfound
    rw [hconnection] at hfound
    exact Scene.connection?_of_closeConnection hfound

end Entry

/-! ### The incarnation of a call -/

/-- Entry `j` is a call about the incarnation of a name that entry `i` opens: the name is neither
    opened again nor closed between them. -/
structure PartOf (entries : List Entry) (name : String) (i j : Nat) : Prop where
  le : i ≤ j
  opens : ∃ up, entries[i]? = some up ∧ up.Opens name
  calls : ∃ entry, entries[j]? = some entry ∧ about? entry.event = some name ∧ entry.live?.isSome
  latest : ∀ k entry, i < k → k ≤ j → entries[k]? = some entry → ¬ entry.Opens name
  still : ∀ k entry, i ≤ k → k < j → entries[k]? = some entry → ¬ entry.Closes name

namespace PartOf

variable {entries : List Entry} {name : String} {i i' j : Nat}

/-- A call is about one incarnation. -/
theorem unique (h : PartOf entries name i j) (h' : PartOf entries name i' j) : i = i' := by
  obtain ⟨up, hup, hopens⟩ := h.opens
  obtain ⟨up', hup', hopens'⟩ := h'.opens
  rcases Nat.lt_trichotomy i i' with hlt | heq | hgt
  · exact absurd hopens' (h.latest i' up' hlt h'.le hup')
  · exact heq
  · exact absurd hopens (h'.latest i up hgt h.le hup)

/-- What comes later has no part in it. -/
theorem concat (h : PartOf entries name i j) (entry : Entry) :
    PartOf (entries ++ [entry]) name i j := by
  obtain ⟨up, hup, hopens⟩ := h.opens
  obtain ⟨called, hcalled, habout⟩ := h.calls
  have hj : j < entries.length := (List.getElem?_eq_some_iff.1 hcalled).1
  refine ⟨h.le, ⟨up, getElem?_concat_eq_some.2 (.inl hup), hopens⟩,
    ⟨called, getElem?_concat_eq_some.2 (.inl hcalled), habout⟩, ?_, ?_⟩
  · intro k other hlt hle hother
    rcases getElem?_concat_eq_some.1 hother with hother | ⟨rfl, -⟩
    · exact h.latest k other hlt hle hother
    · exact absurd hj (Nat.not_lt_of_le hle)
  · intro k other hle hlt hother
    rcases getElem?_concat_eq_some.1 hother with hother | ⟨rfl, -⟩
    · exact h.still k other hle hlt hother
    · exact absurd hj (Nat.lt_asymm hlt)

end PartOf

/-- Entry `i` has opened a connection with a context, and the name was neither opened again nor
    closed since. -/
structure OpenedAt (entries : List Entry) (name : String) (context : Context) (i : Nat) :
    Prop where
  opens : ∃ up, entries[i]? = some up ∧ up.Opens name ∧ up.live?.map Live.context = some context
  since : ∀ k entry, i < k → entries[k]? = some entry → ¬ entry.Opens name
  still : ∀ k entry, i ≤ k → entries[k]? = some entry → ¬ entry.Closes name

namespace OpenedAt

variable {entries : List Entry} {entry : Entry} {name : String} {context : Context} {i : Nat}

theorem concat (h : OpenedAt entries name context i) (hopens : ¬ entry.Opens name)
    (hcloses : ¬ entry.Closes name) : OpenedAt (entries ++ [entry]) name context i := by
  obtain ⟨up, hup, hrest⟩ := h.opens
  refine ⟨⟨up, getElem?_concat_eq_some.2 (.inl hup), hrest⟩, ?_, ?_⟩
  · intro k other hlt hother
    rcases getElem?_concat_eq_some.1 hother with hother | ⟨-, rfl⟩
    · exact h.since k other hlt hother
    · exact hopens
  · intro k other hle hother
    rcases getElem?_concat_eq_some.1 hother with hother | ⟨-, rfl⟩
    · exact h.still k other hle hother
    · exact hcloses

/-- The entry that opens it is the last one. -/
theorem last (hopens : entry.Opens name) (hcontext : entry.live?.map Live.context = some context) :
    OpenedAt (entries ++ [entry]) name context entries.length := by
  refine ⟨⟨entry, by simp, hopens, hcontext⟩, ?_, ?_⟩
  · intro k other hlt hother
    rcases getElem?_concat_eq_some.1 hother with hother | ⟨rfl, -⟩
    · exact absurd (List.getElem?_eq_some_iff.1 hother).1 (Nat.lt_asymm hlt)
    · exact absurd hlt (Nat.lt_irrefl _)
  · intro k other hle hother
    rcases getElem?_concat_eq_some.1 hother with hother | ⟨-, rfl⟩
    · exact absurd (List.getElem?_eq_some_iff.1 hother).1 (Nat.not_lt_of_le hle)
    · exact hopens.not_closes

/-- A call about it that comes next is part of it. -/
theorem partOf (h : OpenedAt entries name context i) (habout : about? entry.event = some name)
    (hlive : entry.live?.isSome) (hopens : ¬ entry.Opens name) :
    PartOf (entries ++ [entry]) name i entries.length := by
  obtain ⟨up, hup, hopensUp, -⟩ := h.opens
  have hi : i < entries.length := (List.getElem?_eq_some_iff.1 hup).1
  refine ⟨Nat.le_of_lt hi, ⟨up, getElem?_concat_eq_some.2 (.inl hup), hopensUp⟩,
    ⟨entry, by simp, habout, hlive⟩, ?_, ?_⟩
  · intro k other hlt hle hother
    rcases getElem?_concat_eq_some.1 hother with hother | ⟨-, rfl⟩
    · exact h.since k other hlt hother
    · exact hopens
  · intro k other hle hlt hother
    rcases getElem?_concat_eq_some.1 hother with hother | ⟨rfl, -⟩
    · exact h.still k other hle hother
    · exact absurd hlt (Nat.lt_irrefl _)

end OpenedAt

namespace Leading

variable {entries : List Entry} {scene : Scene}

/-- Every open connection was opened by an entry. -/
theorem openedAt (h : Leading entries scene) {name : String} {context : Context}
    (hname : scene.connection? name = some context) :
    ∃ i, OpenedAt entries name context i := by
  induction h generalizing name context with
  | start => cases hname
  | @next entries entry _ _ ih =>
    -- What the entry does not turn is as before.
    have hkeep : ¬ entry.Opens name → ¬ entry.Closes name →
        entry.before.connection? name = some context →
        ∃ i, OpenedAt (entries ++ [entry]) name context i := by
      intro hopens hcloses hbefore
      obtain ⟨i, hi⟩ := ih hbefore
      exact ⟨i, hi.concat hopens hcloses⟩
    rw [connection?_scene] at hname
    cases entry.acts with
    | staying opens closes connections =>
      exact hkeep (opens name) (closes name) (connections name ▸ hname)
    | opening event opens engine call _ connections =>
      rcases connections name context hname with ⟨rfl, rfl⟩ | ⟨hne, hbefore⟩
      · exact ⟨entries.length, .last opens (by rw [call, Option.map_some])⟩
      · exact hkeep (fun h => hne (opens.name_eq h)) opens.not_closes hbefore
    | closing event closes engine call _ connections =>
      obtain ⟨hne, hbefore⟩ := connections name context hname
      exact hkeep (fun h => h.not_closes closes) (fun h => hne (closes.name_eq h)) hbefore

/-- Every call about a connection is part of one incarnation, and is about the context that was made
    at its opening. -/
theorem partOf (h : Leading entries scene) {j : Nat} {entry : Entry} {live : Live}
    (hentry : entries[j]? = some entry) (hlive : entry.live? = some live) :
    ∃ name i up made, PartOf entries name i j ∧ entries[i]? = some up ∧ up.live? = some made ∧
      made.context = live.context := by
  induction h with
  | start => cases hentry
  | @next entries last hbefore _ ih =>
    rcases getElem?_concat_eq_some.1 hentry with hearlier | ⟨rfl, rfl⟩
    · obtain ⟨name, i, up, made, hpart, hup, hmade⟩ := ih hearlier
      exact ⟨name, i, up, made, hpart.concat last, getElem?_concat_eq_some.2 (.inl hup), hmade⟩
    · -- The call is about a connection that is open, or that opens with it.
      have hopen : ∀ name, last.before.connection? name = some live.context →
          about? last.event = some name → ¬ last.Opens name →
          ∃ name i up made, PartOf (entries ++ [last]) name i entries.length ∧
            (entries ++ [last])[i]? = some up ∧ up.live? = some made ∧
            made.context = live.context := by
        intro name hname habout hopens
        obtain ⟨i, hi⟩ := hbefore.openedAt hname
        obtain ⟨up, hup, -, hmap⟩ := hi.opens
        obtain ⟨made, hmade, hcontext⟩ := Option.map_eq_some_iff.1 hmap
        exact ⟨name, i, up, made, hi.partOf habout (by rw [hlive]; rfl) hopens,
          getElem?_concat_eq_some.2 (.inl hup), hmade, hcontext⟩
      cases last.acts with
      | staying opens closes connections numbers call =>
        obtain ⟨name, habout, hname⟩ := call live hlive
        exact hopen name hname habout (opens name)
      | @opening name _ _ _ _ _ _ made event opens engine call =>
        have hlast : (entries ++ [last])[entries.length]? = some last := by simp
        have habout : about? last.event = some name := by
          rw [event]
          rfl
        refine ⟨name, entries.length, last, live, ⟨Nat.le_refl _, ⟨last, hlast, opens⟩,
          ⟨last, hlast, habout, by rw [hlive]; rfl⟩, ?_, ?_⟩, hlast, hlive, rfl⟩
        · exact fun k _ hlt hle => absurd hlt (Nat.not_lt_of_le hle)
        · exact fun k _ hle hlt => absurd hlt (Nat.not_lt_of_le hle)
      | @closing name known event closes engine call hknown =>
        rw [hlive] at call
        cases call
        refine hopen name hknown ?_ fun h => h.not_closes closes
        rw [event]
        rfl

end Leading

end EventBridge.Replay
