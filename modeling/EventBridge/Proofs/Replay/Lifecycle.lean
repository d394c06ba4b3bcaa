import EventBridge.Proofs.Replay.Stages

/-! # The life of a connection

  Events are applied one after the other, also after failures. What has become of the connections is
  read off the events and what each has come to.

  * An `Entry` is an event with the replay that it was applied to, and a `history` has the entries
    of all events so far.
  * `OpenBy` says when a name is open, and `Proper` what a context is called about: its beginning,
    some exchanges, its end.
  * `Tracks` is the invariant: the entries so far against the scene that they have led to. The
    contexts that are open are those whose calls are `Underway`. It holds at the start, and
    `Tracks.step` has the six kinds of courses that an event can take.
-/

namespace EventBridge.Replay

open Dispatch (Occurrence Outcome Shared Traffic)
open Engine (Context Live)
open Log (Line)
open Trace (Event)

/-! ### Histories -/

/-- An event and the replay that it is applied to. -/
structure Entry where
  before : Replay
  event : Event

namespace Entry

/-- What has come of the event. -/
def result (entry : Entry) : Except EventError (Option Outcome) :=
  (entry.before.apply entry.event).1

/-- The replay after the event. -/
def after (entry : Entry) : Replay := (entry.before.apply entry.event).2.1

/-- What the dispatcher was called for. -/
def called (entry : Entry) : Option Occurrence :=
  (entry.before.scene.course entry.event).occurrence?

/-- The event was turned down. -/
def Rejected (entry : Entry) : Prop := ∃ cause, entry.result = .error cause ∧ cause.IsRejection

/-- The event went through. -/
def Accepted (entry : Entry) : Prop := ∃ outcome, entry.result = .ok outcome

theorem Rejected.not_accepted {entry : Entry} (h : entry.Rejected) : ¬ entry.Accepted := by
  rintro ⟨outcome, hok⟩
  obtain ⟨cause, herror, -⟩ := h
  rw [hok] at herror
  cases herror

/-- The event is one that opens connections of a name. -/
def IsUp (entry : Entry) (name : String) : Prop :=
  match entry.event with
  | .connectionUp other .. => other = name
  | _ => False

/-- The event is one that closes connections of a name. -/
def IsDown (entry : Entry) (name : String) : Prop :=
  match entry.event with
  | .connectionDown other => other = name
  | _ => False

/-- What a handler was called with about the context of a number. -/
def call? (entry : Entry) (id : Nat) : Option Traffic :=
  match entry.called with
  | some (.traffic live what) => if live.context.id = id then some what else none
  | _ => none

/-- Which events turn a connection, and which one. -/
theorem turns {entry : Entry} {name : String} (h : entry.IsUp name ∨ entry.IsDown name) :
    TurnsConnection entry.event ∧ about? entry.event = some name := by
  unfold IsUp IsDown at h
  cases hevent : entry.event with
  | connectionUp other =>
    rw [hevent] at h
    rcases h with rfl | h
    · exact ⟨trivial, rfl⟩
    · exact h.elim
  | connectionDown other =>
    rw [hevent] at h
    rcases h with h | rfl
    · exact h.elim
    · exact ⟨trivial, rfl⟩
  | _ =>
    rw [hevent] at h
    exact (or_self_iff.1 h).elim

theorem call?_of_called {entry : Entry} {live : Live} {what : Traffic}
    (h : entry.called = some (.traffic live what)) (id : Nat) :
    entry.call? id = if live.context.id = id then some what else none := by
  unfold call?
  rw [h]

theorem call?_of_no_context {entry : Entry}
    (h : ∀ occurrence, entry.called = some occurrence → occurrence.live? = none) (id : Nat) :
    entry.call? id = none := by
  unfold call?
  cases hcalled : entry.called with
  | none => rfl
  | some occurrence =>
    cases occurrence with
    | traffic live what => cases h _ hcalled
    | _ => rfl

theorem not_rejected_of_ok {entry : Entry} {outcome : Option Outcome}
    (h : entry.result = .ok outcome) : ¬ entry.Rejected :=
  fun hrejected => hrejected.not_accepted ⟨outcome, h⟩

/-- A failure of a handler is no rejection. -/
theorem not_rejected_of_bridge {entry : Entry} {cause : BridgeError}
    (h : entry.result = .error (.bridge cause)) : ¬ entry.Rejected := by
  rintro ⟨cause', herror, hcause⟩
  rw [h] at herror
  cases herror
  exact hcause

end Entry

/-- The entries of events that are applied one after the other. -/
def history (replay : Replay) : List Event → List Entry
  | [] => []
  | event :: rest => ⟨replay, event⟩ :: history (replay.apply event).2.1 rest

/-- The replay after events that are applied one after the other. -/
def afterEvents (replay : Replay) : List Event → Replay
  | [] => replay
  | event :: rest => afterEvents (replay.apply event).2.1 rest

/-- What handlers were called with about the context of a number. -/
def callsAbout (id : Nat) (entries : List Entry) : List Traffic :=
  entries.filterMap (·.call? id)

theorem callsAbout_concat (id : Nat) (entries : List Entry) (entry : Entry) :
    callsAbout id (entries ++ [entry]) = callsAbout id entries ++ (entry.call? id).toList := by
  unfold callsAbout
  rw [List.filterMap_append, List.filterMap_cons, List.filterMap_nil]
  cases entry.call? id <;> rfl

/-! ### Names that are open -/

/-- The last event that opens a connection of the name, and was not turned down, went through; and
    no event that closes it came after that, unless it was turned down. -/
def OpenBy (name : String) (entries : List Entry) : Prop :=
  ∃ earlier up later, entries = earlier ++ up :: later ∧ up.IsUp name ∧ up.Accepted ∧
    ∀ entry ∈ later, entry.IsUp name ∨ entry.IsDown name → entry.Rejected

theorem not_openBy_nil (name : String) : ¬ OpenBy name [] := by
  rintro ⟨earlier, up, later, h, -⟩
  cases earlier <;> cases h

/-- The last entry decides if it opens the connection, and else may only not take it back. -/
theorem openBy_concat (name : String) (entries : List Entry) (entry : Entry) :
    OpenBy name (entries ++ [entry]) ↔
      entry.IsUp name ∧ entry.Accepted ∨
        OpenBy name entries ∧ (entry.IsUp name ∨ entry.IsDown name → entry.Rejected) := by
  constructor
  · rintro ⟨earlier, up, later, heq, hup, hok, hlater⟩
    rcases List.eq_nil_or_concat later with rfl | ⟨between, last, rfl⟩
    · -- The opening is the last entry itself.
      obtain ⟨-, hlast⟩ := List.append_inj' heq rfl
      cases hlast
      exact .inl ⟨hup, hok⟩
    · rw [List.concat_eq_append] at heq hlater
      rw [← List.cons_append, ← List.append_assoc] at heq
      obtain ⟨hentries, hlast⟩ := List.append_inj' heq rfl
      cases hlast
      have hbetween := fun other hmem => hlater other (List.mem_append_left _ hmem)
      exact .inr ⟨⟨earlier, up, between, hentries, hup, hok, hbetween⟩, hlater entry (by simp)⟩
  · rintro (⟨hup, hok⟩ | ⟨⟨earlier, up, later, rfl, hup, hok, hlater⟩, hentry⟩)
    · exact ⟨entries, entry, [], rfl, hup, hok, fun _ hmem => absurd hmem List.not_mem_nil⟩
    · refine ⟨earlier, up, later ++ [entry], by simp, hup, hok, ?_⟩
      intro other hother
      rcases List.mem_append.1 hother with hmem | hmem
      · exact hlater other hmem
      · rw [List.mem_singleton.1 hmem]
        exact hentry

/-- An entry that does not turn the connection of a name leaves it as it was. -/
theorem openBy_concat_of_rejected {name : String} {entry : Entry}
    (h : entry.IsUp name ∨ entry.IsDown name → entry.Rejected) (entries : List Entry) :
    OpenBy name (entries ++ [entry]) ↔ OpenBy name entries := by
  rw [openBy_concat]
  constructor
  · rintro (⟨hup, hok⟩ | ⟨hopen, -⟩)
    · exact absurd hok (h (.inl hup)).not_accepted
    · exact hopen
  · exact fun hopen => .inr ⟨hopen, h⟩

/-- An entry that turns the connection of a name, and neither is turned down nor opens it, leaves it
    closed. -/
theorem not_openBy_concat {name : String} {entry : Entry}
    (hturns : entry.IsUp name ∨ entry.IsDown name) (hrejected : ¬ entry.Rejected)
    (hopens : ¬ (entry.IsUp name ∧ entry.Accepted)) (entries : List Entry) :
    ¬ OpenBy name (entries ++ [entry]) := by
  rw [openBy_concat]
  rintro (hopen | ⟨-, hturn⟩)
  · exact hopens hopen
  · exact hrejected (hturn hturns)

/-! ### What a context is called about -/

/-- The beginning and some exchanges. -/
def Underway (calls : List Traffic) : Prop :=
  ∃ exchanges, (∀ what ∈ exchanges, IsExchange what) ∧ calls = .up :: exchanges

/-- The beginning, some exchanges and the end, as far as it has come. -/
def Proper (calls : List Traffic) : Prop :=
  ∃ exchanges, (∀ what ∈ exchanges, IsExchange what) ∧ calls <+: .up :: exchanges ++ [.down]

theorem proper_nil : Proper [] := ⟨[], nofun, List.nil_prefix⟩

theorem underway_up : Underway [.up] := ⟨[], nofun, rfl⟩

variable {calls : List Traffic}

theorem Underway.proper (h : Underway calls) : Proper calls := by
  obtain ⟨exchanges, hexchanges, rfl⟩ := h
  exact ⟨exchanges, hexchanges, List.prefix_append _ _⟩

theorem Underway.exchange (h : Underway calls) {what : Traffic} (hwhat : IsExchange what) :
    Underway (calls ++ [what]) := by
  obtain ⟨exchanges, hexchanges, rfl⟩ := h
  refine ⟨exchanges ++ [what], fun other hother => ?_, rfl⟩
  rcases List.mem_append.1 hother with hmem | hmem
  · exact hexchanges other hmem
  · rw [List.mem_singleton.1 hmem]
    exact hwhat

theorem Underway.down (h : Underway calls) : Proper (calls ++ [.down]) := by
  obtain ⟨exchanges, hexchanges, rfl⟩ := h
  exact ⟨exchanges, hexchanges, List.prefix_rfl⟩

/-- A new context takes a number that none had before. -/
theorem id_makeContext {engine after : Engine} {source destination : Net.Endpoint}
    {protocol : Engine.Protocol} {liid : Option String} {trigger : Option Net.Ip}
    {layer : Option String} {context : Context} {lines : List Line}
    (h : makeContext engine source destination protocol liid trigger layer =
      (context, after, lines)) :
    engine.nextId ≤ context.id ∧ context.id < after.nextId := by
  unfold makeContext at h
  -- A layer has the number after that of its flow.
  cases liid with
  | some liid =>
    cases layer with
    | some layer =>
      cases h
      exact ⟨Nat.le_succ _, Nat.lt_succ_self _⟩
    | none =>
      cases h
      exact ⟨Nat.le_refl _, Nat.lt_succ_self _⟩
  | none =>
    cases layer with
    | some layer =>
      cases h
      exact ⟨Nat.le_succ _, Nat.lt_succ_self _⟩
    | none =>
      cases h
      exact ⟨Nat.le_refl _, Nat.lt_succ_self _⟩

/-! ### The invariant -/

/-- The entries so far, against the scene that they have led to. -/
structure Tracks (entries : List Entry) (scene : Scene) : Prop where
  opened : ∀ name, (scene.connection? name).isSome ↔ OpenBy name entries
  proper : ∀ id, Proper (callsAbout id entries)
  underway : ∀ {name context}, scene.connection? name = some context →
    Underway (callsAbout context.id entries)
  /-- No handler has been called about a context to come. -/
  fresh : ∀ {id}, scene.engine.nextId ≤ id → callsAbout id entries = []
  distinct : ∀ {name other context context'}, scene.connection? name = some context →
    scene.connection? other = some context' → context.id = context'.id → name = other

theorem tracks_initial : Tracks [] ⟨Engine.initial, []⟩ where
  opened name := ⟨nofun, fun h => absurd h (not_openBy_nil name)⟩
  proper _ := proper_nil
  underway := nofun
  fresh _ := rfl
  distinct := nofun

namespace Tracks

variable {entries : List Entry} {entry : Entry} {scene : Scene} {name : String} {context : Context}

/-- An open connection has a number that was given before. -/
theorem id_lt (h : Tracks entries scene) (hname : scene.connection? name = some context) :
    context.id < scene.engine.nextId := by
  refine Nat.lt_of_not_le fun hle => ?_
  obtain ⟨exchanges, -, hcalls⟩ := h.underway hname
  rw [h.fresh hle] at hcalls
  cases hcalls

/-- An entry without a call, and without a say in which names are open. -/
theorem quiet (h : Tracks entries scene) (hcalled : ∀ id, entry.call? id = none)
    (hturns : ∀ name, entry.IsUp name ∨ entry.IsDown name → entry.Rejected) {after : Scene}
    (hconnection : ∀ name, after.connection? name = scene.connection? name)
    (hnext : after.engine.nextId = scene.engine.nextId) : Tracks (entries ++ [entry]) after := by
  have hcalls : ∀ id, callsAbout id (entries ++ [entry]) = callsAbout id entries := by
    intro id
    rw [callsAbout_concat, hcalled, Option.toList_none, List.append_nil]
  constructor
  · intro name
    rw [hconnection, openBy_concat_of_rejected (hturns name)]
    exact h.opened name
  · intro id
    rw [hcalls]
    exact h.proper id
  · intro name context hname
    rw [hcalls]
    rw [hconnection] at hname
    exact h.underway hname
  · intro id hid
    rw [hcalls]
    rw [hnext] at hid
    exact h.fresh hid
  · intro name other context context' hname hother
    rw [hconnection] at hname hother
    exact h.distinct hname hother

/-- An entry that calls a handler about a context. What it does to the open connections is for each
    kind of event to say. -/
theorem calling (h : Tracks entries scene) {what : Traffic}
    (hcalled : ∀ id, entry.call? id = if context.id = id then some what else none)
    (hproper : Proper (callsAbout context.id entries ++ [what])) {after : Scene}
    (hnext : scene.engine.nextId ≤ after.engine.nextId) (hid : context.id < after.engine.nextId)
    (hopened : ∀ name, (after.connection? name).isSome ↔ OpenBy name (entries ++ [entry]))
    (hsame : ∀ {other context'}, after.connection? other = some context' →
      context'.id = context.id → Underway (callsAbout context.id entries ++ [what]))
    (hothers : ∀ {other context'}, after.connection? other = some context' →
      context'.id ≠ context.id → scene.connection? other = some context')
    (hone : ∀ {first second context₁ context₂}, after.connection? first = some context₁ →
      after.connection? second = some context₂ → context₁.id = context.id →
      context₂.id = context.id → first = second) :
    Tracks (entries ++ [entry]) after := by
  -- What is called about this context has grown by one, and about others it is as before.
  have hcalls : callsAbout context.id (entries ++ [entry]) =
      callsAbout context.id entries ++ [what] := by
    rw [callsAbout_concat, hcalled, if_pos rfl, Option.toList_some]
  have hcallsOther : ∀ {id}, id ≠ context.id →
      callsAbout id (entries ++ [entry]) = callsAbout id entries := by
    intro id hne
    rw [callsAbout_concat, hcalled, if_neg hne.symm, Option.toList_none, List.append_nil]
  constructor
  · exact hopened
  · intro id
    by_cases hne : id = context.id
    · rw [hne, hcalls]
      exact hproper
    · rw [hcallsOther hne]
      exact h.proper id
  · intro other context' hother
    by_cases hne : context'.id = context.id
    · rw [hne, hcalls]
      exact hsame hother hne
    · rw [hcallsOther hne]
      exact h.underway (hothers hother hne)
  · intro id hle
    rw [hcallsOther (Nat.ne_of_gt (Nat.lt_of_lt_of_le hid hle))]
    exact h.fresh (Nat.le_trans hnext hle)
  · intro first second context₁ context₂ hfirst hsecond heq
    by_cases hne : context₁.id = context.id
    · exact hone hfirst hsecond hne (heq.symm.trans hne)
    · exact h.distinct (hothers hfirst hne) (hothers hsecond fun hid => hne (heq.trans hid)) heq

/-- Something happens on an open connection. -/
theorem exchange (h : Tracks entries scene) (hname : scene.connection? name = some context)
    {what : Traffic} (hwhat : IsExchange what)
    (hcalled : ∀ id, entry.call? id = if context.id = id then some what else none)
    (hturns : ∀ name, ¬ (entry.IsUp name ∨ entry.IsDown name)) :
    Tracks (entries ++ [entry]) scene := by
  have hunderway := (h.underway hname).exchange hwhat
  refine h.calling hcalled hunderway.proper (Nat.le_refl _) (h.id_lt hname) ?_
    (fun _ _ => hunderway) (fun hother _ => hother) ?_
  · intro other
    rw [openBy_concat_of_rejected fun hturn => absurd hturn (hturns other)]
    exact h.opened other
  · exact fun hfirst hsecond hid hid' => h.distinct hfirst hsecond (hid.trans hid'.symm)

/-- A connection is opened. -/
theorem opening (h : Tracks entries scene) (hid : scene.engine.nextId ≤ context.id)
    (hcalled : ∀ id, entry.call? id = if context.id = id then some .up else none)
    (hup : entry.IsUp name) (haccepted : entry.Accepted)
    (hturns : ∀ other, entry.IsUp other ∨ entry.IsDown other → other = name) {after : Scene}
    (hnext : context.id < after.engine.nextId)
    (hlookup : ∀ other, after.connection? other =
      if other == name then some context else scene.connection? other) :
    Tracks (entries ++ [entry]) after := by
  have hcalls : callsAbout context.id entries = [] := h.fresh hid
  -- Of all names only this one has the new number.
  have hname : ∀ {other context'}, after.connection? other = some context' →
      context'.id = context.id → other = name := by
    intro other context' hother hsame
    by_cases hne : other = name
    · exact hne
    · rw [hlookup, beq_false_of_ne hne] at hother
      exact absurd (h.id_lt hother) (Nat.not_lt_of_le (hsame ▸ hid))
  refine h.calling hcalled ?_ (Nat.le_of_lt (Nat.lt_of_le_of_lt hid hnext)) hnext ?_ ?_ ?_ ?_
  · rw [hcalls]
    exact underway_up.proper
  · intro other
    by_cases hne : other = name
    · rw [hlookup, hne, openBy_concat]
      simp only [beq_self_eq_true, if_true, Option.isSome_some, true_iff]
      exact .inl ⟨hup, haccepted⟩
    · rw [hlookup, beq_false_of_ne hne,
        openBy_concat_of_rejected fun hturn => absurd (hturns other hturn) hne]
      exact h.opened other
  · intro other context' _ _
    rw [hcalls]
    exact underway_up
  · intro other context' hother hne
    rw [hlookup] at hother
    split at hother
    · cases hother
      exact absurd rfl hne
    · exact hother
  · intro first second context₁ context₂ hfirst hsecond hsame hsame'
    rw [hname hfirst hsame, hname hsecond hsame']

/-- The handler for the opening of a connection fails, and the failure is returned. The number of
    the context is used up. -/
theorem notOpening (h : Tracks entries scene) (hclosed : scene.connection? name = none)
    (hid : scene.engine.nextId ≤ context.id)
    (hcalled : ∀ id, entry.call? id = if context.id = id then some .up else none)
    (hup : entry.IsUp name) (haccepted : ¬ entry.Accepted) (hrejected : ¬ entry.Rejected)
    (hturns : ∀ other, entry.IsUp other ∨ entry.IsDown other → other = name) {after : Scene}
    (hnext : context.id < after.engine.nextId)
    (hlookup : ∀ other, after.connection? other = scene.connection? other) :
    Tracks (entries ++ [entry]) after := by
  have hcalls : callsAbout context.id entries = [] := h.fresh hid
  have hne : ∀ {other context'}, after.connection? other = some context' →
      context'.id ≠ context.id := by
    intro other context' hother hsame
    rw [hlookup] at hother
    exact absurd (h.id_lt hother) (Nat.not_lt_of_le (hsame ▸ hid))
  refine h.calling hcalled ?_ (Nat.le_of_lt (Nat.lt_of_le_of_lt hid hnext)) hnext ?_ ?_ ?_ ?_
  · rw [hcalls]
    exact underway_up.proper
  · intro other
    rw [hlookup]
    by_cases hother : other = name
    · rw [hother, hclosed]
      have hnot := not_openBy_concat (.inl hup) hrejected (fun hok => haccepted hok.2) entries
      exact ⟨nofun, fun hopen => absurd hopen hnot⟩
    · rw [openBy_concat_of_rejected fun hturn => absurd (hturns other hturn) hother]
      exact h.opened other
  · intro other context' hother hsame
    exact absurd hsame (hne hother)
  · intro other context' hother _
    rwa [hlookup] at hother
  · intro first second context₁ context₂ hfirst _ hsame _
    exact absurd hsame (hne hfirst)

/-- A connection is closed, however its handler ends. -/
theorem closing (h : Tracks entries scene) (hname : scene.connection? name = some context)
    (hcalled : ∀ id, entry.call? id = if context.id = id then some .down else none)
    (hdown : entry.IsDown name) (hup : ¬ entry.IsUp name) (hrejected : ¬ entry.Rejected)
    (hturns : ∀ other, entry.IsUp other ∨ entry.IsDown other → other = name) :
    Tracks (entries ++ [entry]) (scene.closeConnection name) := by
  -- The context that is closed has no other name.
  have hne : ∀ {other context'}, (scene.closeConnection name).connection? other =
      some context' → context'.id ≠ context.id := by
    intro other context' hother hsame
    obtain ⟨hne, hstill⟩ := Scene.connection?_of_closeConnection hother
    exact hne (h.distinct hstill hname hsame)
  refine h.calling hcalled (h.underway hname).down (Nat.le_refl _) (h.id_lt hname) ?_
    (fun hother hsame => absurd hsame (hne hother))
    (fun hother _ => (Scene.connection?_of_closeConnection hother).2)
    (fun hfirst _ hsame _ => absurd hsame (hne hfirst))
  intro other
  rw [Scene.connection?_closeConnection]
  by_cases hother : other = name
  · have hnot := not_openBy_concat (.inr hdown) hrejected (fun hopens => hup hopens.1) entries
    simp only [hother, beq_self_eq_true, if_true, Option.isSome_none, Bool.false_eq_true, false_iff]
    exact hnot
  · rw [beq_false_of_ne hother,
      openBy_concat_of_rejected fun hturn => absurd (hturns other hturn) hother]
    exact h.opened other

/-- An event, by the course that it takes and where that leads. -/
theorem step {replay : Replay} (h : Tracks entries replay.scene) (event : Event) :
    Tracks (entries ++ [⟨replay, event⟩]) (replay.apply event).2.1.scene := by
  have htakes := replay.scene.takes_course event
  have hleads := leads_apply replay event
  have hcalled : (Entry.mk replay event).called = (replay.scene.course event).occurrence? := rfl
  have hevent : (Entry.mk replay event).event = event := rfl
  have hresult : (Entry.mk replay event).result = (replay.apply event).1 := rfl
  -- From here on the entry stands for what is known of it.
  generalize Entry.mk replay event = entry at hcalled hevent hresult ⊢
  generalize replay.scene.course event = course at htakes hleads hcalled
  generalize (replay.apply event).1 = result at hleads hresult
  generalize (replay.apply event).2.1.scene = after at hleads ⊢
  generalize replay.scene = scene at h htakes hleads
  cases htakes with
  | @rejected _ cause hcause =>
    cases hleads
    refine h.quiet (Entry.call?_of_no_context ?_) (fun _ _ => ⟨cause, hresult, hcause⟩)
      (fun _ => rfl) rfl
    intro occurrence hoccurs
    rw [hcalled] at hoccurs
    cases hoccurs
  | target liid address =>
    cases hleads
    refine h.quiet (Entry.call?_of_no_context ?_) ?_ (fun _ => rfl) rfl
    · intro occurrence hoccurs
      rw [hcalled] at hoccurs
      cases hoccurs
    · intro name hturn
      have hturns := (Entry.turns hturn).1
      rw [hevent] at hturns
      exact hturns.elim
  | @trigger _ occurrence hturns hlive =>
    -- Both ends of the call are where it began.
    have hafter : after = scene := by cases hleads <;> rfl
    rw [hafter]
    refine h.quiet (Entry.call?_of_no_context ?_) ?_ (fun _ => rfl) rfl
    · intro other hoccurs
      rw [hcalled] at hoccurs
      cases hoccurs
      exact hlive
    · intro name hturn
      exact absurd (hevent ▸ (Entry.turns hturn).1) hturns
  | @exchange _ name context what hturns _ hname hwhat =>
    have hafter : after = scene := by cases hleads <;> rfl
    rw [hafter]
    refine h.exchange hname hwhat (Entry.call?_of_called hcalled) fun name hturn => ?_
    exact hturns (hevent ▸ (Entry.turns hturn).1)
  | @up name _ _ _ _ _ _ context engine _ hname hmade =>
    obtain ⟨hid, hnext⟩ := id_makeContext hmade
    have hup : entry.IsUp name := by
      unfold Entry.IsUp
      rw [hevent]
    have hturns : ∀ other, entry.IsUp other ∨ entry.IsDown other → other = name := by
      intro other hturn
      have habout := (Entry.turns hturn).2
      rw [hevent] at habout
      exact (Option.some.inj habout).symm
    cases hleads with
    | through _ _ _ _ outcome =>
      exact h.opening hid (Entry.call?_of_called hcalled) hup ⟨_, hresult⟩ hturns hnext
        fun other => Scene.connection?_openConnection _ name other context
    | failed _ _ _ _ cause =>
      have haccepted : ¬ entry.Accepted := by
        rintro ⟨outcome, hok⟩
        rw [hresult] at hok
        cases hok
      exact h.notOpening hname hid (Entry.call?_of_called hcalled) hup haccepted
        (Entry.not_rejected_of_bridge hresult) hturns hnext fun _ => rfl
  | @down name context hname =>
    have hdown : entry.IsDown name := by
      unfold Entry.IsDown
      rw [hevent]
    have hup : ¬ entry.IsUp name := by
      unfold Entry.IsUp
      rw [hevent]
      exact id
    have hturns : ∀ other, entry.IsUp other ∨ entry.IsDown other → other = name := by
      intro other hturn
      have habout := (Entry.turns hturn).2
      rw [hevent] at habout
      exact (Option.some.inj habout).symm
    have hafter : after = scene.closeConnection name := by cases hleads <;> rfl
    have hrejected : ¬ entry.Rejected := by
      cases hleads with
      | through => exact Entry.not_rejected_of_ok hresult
      | failed => exact Entry.not_rejected_of_bridge hresult
    rw [hafter]
    exact h.closing hname (Entry.call?_of_called hcalled) hdown hup hrejected hturns

/-- Any number of events. -/
theorem history {replay : Replay} (h : Tracks entries replay.scene) (events : List Event) :
    Tracks (entries ++ replay.history events) (replay.afterEvents events).scene := by
  induction events generalizing entries replay with
  | nil =>
    unfold Replay.history
    rw [List.append_nil]
    exact h
  | cons event events ih =>
    rw [Replay.history, Replay.afterEvents, List.append_cons]
    exact ih (h.step event)

end Tracks

/-! ### The lives of all connections -/

/-- All calls but the one at the beginning are about the connection that the event names, which was
    open when it came. -/
theorem Entry.known_of_called {entry : Entry} {live : Live} {what : Traffic}
    (h : entry.called = some (.traffic live what)) (hwhat : what ≠ .up) :
    ∃ name, about? entry.event = some name ∧
      entry.before.connection? name = some live.context := by
  have htakes := entry.before.scene.takes_course entry.event
  unfold called at h
  generalize entry.before.scene.course entry.event = course at htakes h
  generalize hevent : entry.event = event at htakes
  cases htakes with
  | rejected | target => cases h
  | trigger _ hlive =>
    cases h
    cases hlive
  | @exchange _ name context _ _ habout hname _ =>
    cases h
    exact ⟨name, habout, hname⟩
  | up =>
    cases h
    exact absurd rfl hwhat
  | @down name context hname =>
    cases h
    exact ⟨name, rfl, hname⟩

/-- A name is not open after an event that closes it. -/
theorem Entry.closed_of_down {entry : Entry} {name : String}
    (h : entry.event = .connectionDown name) : entry.after.connection? name = none := by
  have hleads := leads_apply entry.before (.connectionDown name)
  unfold after
  rw [h, ← connection?_scene]
  generalize (entry.before.apply (.connectionDown name)).1 = result at hleads
  generalize (entry.before.apply (.connectionDown name)).2.1.scene = after at hleads ⊢
  generalize entry.before.scene = scene at hleads
  unfold Scene.course at hleads
  dsimp only at hleads
  cases hname : scene.connection? name with
  | none =>
    rw [hname] at hleads
    cases hleads
    exact hname
  | some context =>
    rw [hname] at hleads
    have hafter : after = scene.closeConnection name := by cases hleads <;> rfl
    rw [hafter, Scene.connection?_closeConnection, beq_self_eq_true, if_pos rfl]

/-- What the dispatcher is called for is all that happens to it, whichever it is. -/
theorem Entry.shared_after (entry : Entry) (shared : Shared) :
    ({ entry.before with shared := shared }.apply entry.event).2.1.shared =
      match entry.called with
      | none => shared
      | some occurrence => (shared.dispatch occurrence).2.1 :=
  shared_apply { entry.before with shared := shared } entry.event

/-- The calls that entries tell of are all that happens to a dispatcher, whichever it is. -/
def Dispatched (entries : List Entry) : Prop :=
  ∀ entry ∈ entries, ∀ shared : Shared,
    ({ entry.before with shared := shared }.apply entry.event).2.1.shared =
      match entry.called with
      | none => shared
      | some occurrence => (shared.dispatch occurrence).2.1

theorem dispatched (entries : List Entry) : Dispatched entries :=
  fun entry _ => entry.shared_after

/-- What the entries of some events say of the connections, and of the calls that were made. -/
structure Lifecycle (entries : List Entry) (final : Replay) : Prop where
  /-- Which names are open at the end. -/
  opened : ∀ name, (final.connection? name).isSome ↔ OpenBy name entries
  /-- What handlers were called with about each context. -/
  proper : ∀ id, Proper (callsAbout id entries)
  /-- Apart from those at the beginning, calls are about connections that were open. -/
  known : ∀ entry ∈ entries, ∀ live what, entry.called = some (.traffic live what) → what ≠ .up →
    ∃ name, about? entry.event = some name ∧ entry.before.connection? name = some live.context
  /-- No two names have a context in common. -/
  distinct : ∀ name other context context', final.connection? name = some context →
    final.connection? other = some context' → context.id = context'.id → name = other
  closed : ∀ entry ∈ entries, ∀ name, entry.event = .connectionDown name →
    entry.after.connection? name = none
  /-- No other calls were made. -/
  dispatched : Dispatched entries

/-- Whatever the script and the policy, and whatever events fail, all connections have a proper
    life. -/
theorem connections_live_properly (shared : Shared) (events : List Event) :
    Lifecycle ((new shared).history events) ((new shared).afterEvents events) := by
  have hinitial : Tracks [] (new shared).scene := tracks_initial
  have htracks := hinitial.history events
  rw [List.nil_append] at htracks
  exact {
    opened := htracks.opened
    proper := htracks.proper
    known := fun entry _ live what h hwhat => entry.known_of_called h hwhat
    distinct := fun name other context context' => htracks.distinct
    closed := fun entry _ name h => entry.closed_of_down h
    dispatched := dispatched _ }

end EventBridge.Replay
