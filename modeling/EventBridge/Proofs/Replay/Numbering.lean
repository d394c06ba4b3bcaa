import EventBridge.Proofs.Replay.Incarnation

/-! # The numbers of contexts

  Every context has a number, and scripts know a connection by the number of its context. A run
  hands out the numbers in order, whichever handlers fail and however often the script is read
  again.

  * `Numbered` is what of that is shown: how many numbers each event takes, and what a script hears
    when it asks for the number.
  * `Leading.before_le` has the order of the numbers: those that an event takes lie before all that
    later events find.
-/

namespace EventBridge.Replay

open Engine (Context Live Node)
open Script (Native Value)
open Trace (Event)

/-! ### What scripts hear -/

/-- Numbers are told apart by their texts. -/
theorem ofText_toString_inj {m n : Nat}
    (h : Value.ofText (toString m) = Value.ofText (toString n)) : m = n := by
  have htext : m.repr = n.repr := Value.ofText_inj h
  rw [Nat.repr_eq_ofList_toDigits, Nat.repr_eq_ofList_toDigits, String.ofList_inj] at htext
  rw [← Nat.ofDigitChars_ten_toDigits (n := m), htext, Nat.ofDigitChars_ten_toDigits]

namespace Entry

/-- The number of the context that a handler was called about. -/
def number (entry : Entry) : Nat := (entry.live?.map fun live => live.context.id).getD 0

/-- The numbers of that context and of what it is layered on, its own first. -/
def numbers (entry : Entry) : List Nat :=
  (entry.live?.map fun live => live.context.chain.map Node.id).getD []

variable {entry : Entry} {live : Live}

theorem number_of_live (h : entry.live? = some live) : entry.number = live.context.id := by
  simp only [number, h, Option.map_some, Option.getD_some]

theorem numbers_of_live (h : entry.live? = some live) :
    entry.numbers = live.context.chain.map Node.id := by
  simp only [numbers, h, Option.map_some, Option.getD_some]

/-- An opening takes the next number for its flow, and one more for its layer. -/
theorem Opens.numbers {name : String} (h : entry.Opens name) :
    ∃ source destination protocol liid trigger layer,
      entry.event = .connectionUp name source destination protocol liid trigger layer ∧
      entry.after.engine.nextId = entry.before.engine.nextId + numbersFor layer ∧
      (entry.numbers = match layer with
        | none => [entry.before.engine.nextId]
        | some _ => [entry.before.engine.nextId + 1, entry.before.engine.nextId]) ∧
      entry.number + 1 = entry.before.engine.nextId + numbersFor layer := by
  cases entry.acts with
  | staying opens => exact absurd h (opens name)
  | @opening other source destination protocol liid trigger layer live event opens engine call
      context =>
    obtain rfl := opens.name_eq h
    refine ⟨source, destination, protocol, liid, trigger, layer, event, ?_, ?_, ?_⟩
    · rw [engine]
    · rw [numbers_of_live call, context]
      cases layer <;> rfl
    · rw [number_of_live call, context]
      cases layer <;> rfl
  | closing event closes => exact absurd closes h.not_closes

/-- An event that opens nothing takes no number, whether it was turned down or not. -/
theorem nextId_of_not_opens (h : ∀ name, ¬ entry.Opens name) :
    entry.after.engine.nextId = entry.before.engine.nextId := by
  cases entry.acts with
  | staying opens closes connections numbers => exact numbers
  | opening event opens => exact absurd opens (h _)
  | closing event closes engine => rw [engine]

theorem nextId_le (entry : Entry) :
    entry.before.engine.nextId ≤ entry.after.engine.nextId := by
  cases entry.acts with
  | staying opens closes connections numbers => exact Nat.le_of_eq numbers.symm
  | opening event opens engine =>
    rw [engine]
    exact Nat.le_add_right _ _
  | closing event closes engine => exact Nat.le_of_eq (congrArg Engine.nextId engine.symm)

end Entry

/-- What is asked in a call is noted, all of it: the notes after the call are those of the look-up,
    and then what is asked. -/
def NotesKept (entries : List Entry) : Prop :=
  ∀ entry ∈ entries, ∀ occurrence, entry.called = some occurrence →
    let dispatcher := entry.before.shared.dispatcher
    (dispatcher.dispatch occurrence).2.1.interpreter.machine.questions.toList =
      (dispatcher.lookUp occurrence).2.machine.questions.toList ++ dispatcher.asked occurrence

/-! ### Along a run -/

namespace Leading

variable {entries : List Entry} {scene : Scene}

/-- An event finds the scene that the one before it has left, and the first one the scene of the
    start. -/
theorem take (h : Leading entries scene) {i : Nat} {entry : Entry}
    (hentry : entries[i]? = some entry) : Leading (entries.take i) entry.before.scene := by
  induction h with
  | start => cases hentry
  | @next entries last hbefore _ ih =>
    rcases getElem?_concat_eq_some.1 hentry with hearlier | ⟨rfl, rfl⟩
    · have hi : i < entries.length := (List.getElem?_eq_some_iff.1 hearlier).1
      rw [List.take_append_of_le_length (Nat.le_of_lt hi)]
      exact ih hearlier
    · rw [List.take_left]
      exact hbefore

theorem scene_eq (h : Leading entries scene) :
    scene = match entries.getLast? with
      | some last => last.after.scene
      | none => ⟨Engine.initial, []⟩ := by
  cases h with
  | start => rfl
  | next => rw [List.getLast?_concat]

theorem ready (h : Leading entries scene) {i : Nat} {entry : Entry}
    (hentry : entries[i]? = some entry) : entry.before.shared.Ready := by
  induction h with
  | start => cases hentry
  | next _ hready ih =>
    rcases getElem?_concat_eq_some.1 hentry with hearlier | ⟨-, rfl⟩
    · exact ih hearlier
    · exact hready

/-- The numbers of an event lie before all that are found later. -/
theorem after_le (h : Leading entries scene) {i : Nat} {entry : Entry}
    (hentry : entries[i]? = some entry) : entry.after.engine.nextId ≤ scene.engine.nextId := by
  induction h with
  | start => cases hentry
  | @next entries last _ _ ih =>
    rcases getElem?_concat_eq_some.1 hentry with hearlier | ⟨-, rfl⟩
    · exact Nat.le_trans (ih hearlier) last.nextId_le
    · exact Nat.le_refl _

theorem before_le (h : Leading entries scene) {i j : Nat} {entry later : Entry} (hlt : i < j)
    (hentry : entries[i]? = some entry) (hlater : entries[j]? = some later) :
    entry.after.engine.nextId ≤ later.before.engine.nextId := by
  refine (h.take hlater).after_le (i := i) ?_
  rw [List.getElem?_take_of_lt hlt]
  exact hentry

/-- A call of an incarnation is about the context that was made when that was opened. -/
theorem context_eq (h : Leading entries scene) {name : String} {i j : Nat} {up entry : Entry}
    {live : Live} (hpart : PartOf entries name i j) (hup : entries[i]? = some up)
    (hentry : entries[j]? = some entry) (hlive : entry.live? = some live) :
    ∃ made, up.live? = some made ∧ made.context = live.context := by
  obtain ⟨name', i', up', made, hpart', hup', hmade, hcontext⟩ := h.partOf hentry hlive
  -- The event of the call has one name, and the name one incarnation at that moment.
  obtain ⟨called, hcalled, habout, -⟩ := hpart.calls
  obtain ⟨called', hcalled', habout', -⟩ := hpart'.calls
  cases hcalled.symm.trans hcalled'
  cases habout.symm.trans habout'
  cases hpart.unique hpart'
  cases hup.symm.trans hup'
  exact ⟨made, hmade, hcontext⟩

theorem notesKept (h : Leading entries scene) : NotesKept entries := by
  intro entry hmem occurrence _
  obtain ⟨i, hentry⟩ := List.getElem?_of_mem hmem
  exact Dispatch.Dispatcher.Ready.questions_dispatch (h.ready hentry) occurrence

/-- What a handler asks is answered by the context alone, and so in the same way at every call. -/
theorem reply_of_inquiry (h : Leading entries scene) {j : Nat} {entry : Entry} {live : Live}
    (hentry : entries[j]? = some entry) (hlive : entry.live? = some live)
    {question : Script.Question} (hmem : question ∈ entry.inquiries) :
    question.reply =
      (question.native.answer (Live.of live.engine live.context)).mapError .engine := by
  unfold Entry.inquiries at hmem
  unfold Entry.live? at hlive
  cases hcalled : entry.called with
  | none =>
    rw [hcalled] at hlive
    cases hlive
  | some occurrence =>
    rw [hcalled] at hlive hmem
    have hlive' : entry.live? = some live := by
      rw [Entry.live?, hcalled]
      exact hlive
    rw [← Entry.live_eq hlive']
    exact Dispatch.Dispatcher.Ready.reply_of_inquiry (h.ready hentry) hlive hmem

end Leading

/-! ### All numbers of a run -/

/-- What the events of a run do with the numbers of contexts, and what scripts hear of them. -/
structure Numbered (entries : List Entry) : Prop where
  /-- Every call about a connection is part of one incarnation, between its opening and its
      closing. -/
  incarnation : ∀ j entry, entries[j]? = some entry → entry.live?.isSome →
    ∃ name i, about? entry.event = some name ∧ PartOf entries name i j ∧
      ∀ i', PartOf entries name i' j → i' = i
  /-- In all calls of an incarnation scripts hear the number that its opening has taken. -/
  heard : ∀ name i j up entry, PartOf entries name i j → entries[i]? = some up →
    entries[j]? = some entry → ∀ question ∈ entry.inquiries, question.native = .contextId →
      question.reply = .ok [Value.ofText (toString up.number)]
  /-- Two incarnations, of one name or of two, have numbers with different texts. -/
  different : ∀ (i i' : Nat) (up up' : Entry) (name name' : String), i ≠ i' →
    entries[i]? = some up → up.Opens name → entries[i']? = some up' → up'.Opens name' →
      Value.ofText (toString up.number) ≠ Value.ofText (toString up'.number)
  /-- Later openings have greater numbers, also where a handler has failed. -/
  increasing : ∀ (i i' : Nat) (up up' : Entry) (name name' : String), i < i' →
    entries[i]? = some up → up.Opens name → entries[i']? = some up' → up'.Opens name' →
      up.number < up'.number
  /-- A connection without a layer takes the next number. -/
  flow : ∀ up ∈ entries, ∀ name source destination protocol liid trigger,
    up.Opens name →
    up.event = .connectionUp name source destination protocol liid trigger none →
      up.numbers = [up.before.engine.nextId] ∧ up.number = up.before.engine.nextId ∧
        up.after.engine.nextId = up.before.engine.nextId + 1
  /-- A connection with a layer takes two: that of the flow, and then that of the layer, which is
      the one that scripts hear. -/
  layered : ∀ up ∈ entries, ∀ name source destination protocol liid trigger layer, up.Opens name →
    up.event = .connectionUp name source destination protocol liid trigger (some layer) →
      up.numbers = [up.before.engine.nextId + 1, up.before.engine.nextId] ∧
        up.number = up.before.engine.nextId + 1 ∧
        up.after.engine.nextId = up.before.engine.nextId + 2
  /-- No other event takes a number, and so no connection that is turned down as open. -/
  others : ∀ entry ∈ entries, (∀ name, ¬ entry.Opens name) →
    entry.after.engine.nextId = entry.before.engine.nextId
  /-- Nothing but the events takes a number. -/
  successive : ∀ i entry next, entries[i]? = some entry → entries[i + 1]? = some next →
    next.before.engine = entry.after.engine
  first : ∀ entry, entries[0]? = some entry → entry.before.engine = Engine.initial

theorem Leading.increasing {entries : List Entry} {scene : Scene} (h : Leading entries scene)
    {i i' : Nat} {up up' : Entry} {name name' : String} (hlt : i < i')
    (hup : entries[i]? = some up) (hopens : up.Opens name) (hup' : entries[i']? = some up')
    (hopens' : up'.Opens name') : up.number < up'.number := by
  have hbetween := h.before_le hlt hup hup'
  obtain ⟨_, _, _, _, _, layer, -, hafter, -, hnumber⟩ := hopens.numbers
  obtain ⟨_, _, _, _, _, layer', -, -, -, hnumber'⟩ := hopens'.numbers
  have hpositive : 0 < numbersFor layer' := by cases layer' <;> exact Nat.succ_pos _
  omega

theorem Leading.numbered {entries : List Entry} {scene : Scene} (h : Leading entries scene) :
    Numbered entries where
  incarnation := by
    intro j entry hentry hlive
    obtain ⟨live, hlive⟩ := Option.isSome_iff_exists.1 hlive
    obtain ⟨name, i, _, _, hpart, -⟩ := h.partOf hentry hlive
    obtain ⟨called, hcalled, habout, -⟩ := hpart.calls
    cases hentry.symm.trans hcalled
    exact ⟨name, i, habout, hpart, fun i' hpart' => hpart'.unique hpart⟩
  heard := by
    intro name i j up entry hpart hup hentry question hmem hnative
    obtain ⟨called, hcalled, -, hlive⟩ := hpart.calls
    cases hentry.symm.trans hcalled
    obtain ⟨live, hlive⟩ := Option.isSome_iff_exists.1 hlive
    obtain ⟨made, hmade, hcontext⟩ := h.context_eq hpart hup hentry hlive
    rw [h.reply_of_inquiry hentry hlive hmem, hnative, Entry.number_of_live hmade, hcontext]
    rfl
  different := by
    intro i i' up up' name name' hne hup hopens hup' hopens' htext
    have hnumber := ofText_toString_inj htext
    rcases Nat.lt_or_gt_of_ne hne with hlt | hgt
    · exact Nat.ne_of_lt (h.increasing hlt hup hopens hup' hopens') hnumber
    · exact Nat.ne_of_gt (h.increasing hgt hup' hopens' hup hopens) hnumber
  increasing := fun i i' up up' name name' hlt hup hopens hup' hopens' =>
    h.increasing hlt hup hopens hup' hopens'
  flow := by
    intro up _ name _ _ _ _ _ hopens hevent
    obtain ⟨_, _, _, _, _, layer, hevent', hafter, hnumbers, hnumber⟩ := hopens.numbers
    rw [hevent] at hevent'
    cases hevent'
    exact ⟨hnumbers, Nat.succ.inj hnumber, hafter⟩
  layered := by
    intro up _ name _ _ _ _ _ layer hopens hevent
    obtain ⟨_, _, _, _, _, layer, hevent', hafter, hnumbers, hnumber⟩ := hopens.numbers
    rw [hevent] at hevent'
    cases hevent'
    exact ⟨hnumbers, Nat.succ.inj hnumber, hafter⟩
  others := fun entry _ hopens => Entry.nextId_of_not_opens hopens
  successive := by
    intro i entry next hentry hnext
    have hi : i < entries.length := (List.getElem?_eq_some_iff.1 hentry).1
    have hscene := (h.take hnext).scene_eq
    rw [List.getLast?_take, if_neg (Nat.succ_ne_zero i), Nat.add_sub_cancel, hentry,
      Option.some_or] at hscene
    exact congrArg Scene.engine hscene
  first := by
    intro entry hentry
    have hscene := (h.take hentry).scene_eq
    rw [List.take_zero] at hscene
    exact congrArg Scene.engine hscene

/-- Whatever the trace and the scripts, and whenever the script is read again: contexts are numbered
    in the order in which they are made, and a script that asks for the number of its context hears
    that of the incarnation which it is called about. All that it asks in a call is noted, it is
    given what the notes say, and there are no other calls. -/
theorem Staging.contexts_are_numbered (staging : Staging) (trace : List UInt8) (n : Nat) :
    (∀ (native : Native) (args : List Value) (contexts : Script.Contexts) (m : Script.Machine),
      native.Noted args contexts m) ∧
    Dispatched (staging.entries trace n) ∧
    NotesKept (staging.entries trace n) ∧
    Numbered (staging.entries trace n) := by
  have hleading := staging.leading_entries trace n
  exact ⟨Native.noted, dispatched _, hleading.notesKept, hleading.numbered⟩

end EventBridge.Replay
