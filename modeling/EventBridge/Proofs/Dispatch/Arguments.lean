import EventBridge.Proofs.Dispatch.Inquiry

/-! # What a handler is called with

  When a handler is found, two things can happen: what the event carries is within the limits, and
  the handler is called once with all of it; or it is not, and the dispatch fails before the script
  has anything of it.

  * `Occurrence.delivery` is what the call is made of: the arguments in their order, the contexts
    that handles reach during it, and the machine with what was made for the script.
  * `Occurrence.Fits` and `Occurrence.Exceeds` are the two cases; header fields are looked at before
    a body.
  * `attempt_of_fits` and `attempt_of_exceeds` have all that comes of a dispatch in each of them.
  * `attend_in_turn`: that the limits are looked at before anything is put on the stack makes no
    difference that a script or the host could see.
-/

namespace EventBridge

open Engine (Live)
open Host (exec)
open Log (Line)
open Script (Contexts Machine Table Value)

/-! ### Calls of the host -/

namespace Host

/-- A call of a value with arguments on top of it is a call of that value with those arguments, and
    leaves what was below. -/
theorem exec_call_without_results {callee : Value} {values : List Value}
    (hsmall : values.length + 1 < UInt64.size) {i : Interpreter} {base : List Value}
    (hstack : i.stack = base ++ callee :: values) :
    exec (call (UInt64.ofNat values.length) (.fixed 0)) i =
      (((callOf callee values i.contexts i.machine).1.mapError inCall).map fun _ => (),
        { i with
          machine := (callOf callee values i.contexts i.machine).2
          stack := base }) := by
  have hwide : (UInt64.ofNat values.length).toNat = values.length :=
    UInt64.toNat_ofNat_of_lt' (Nat.lt_of_succ_lt hsmall)
  rw [exec_call_of_stack (by rwa [hwide]) _ hstack hwide.symm, exec_calling]
  dsimp only
  cases callOf callee values i.contexts i.machine with
  | mk result machine =>
    cases result with
    | error fault => rfl
    | ok returned =>
      have hkept : base ++ ResultCount.take returned (.fixed 0) = base := by
        simp [ResultCount.take]
      dsimp only
      rw [hkept]
      rfl

/-! ### Limits -/

/-- A computation that leaves the limits as they are. -/
def KeepsLimits {α : Type} (computation : Host α) : Prop :=
  ∀ i, (exec computation i).2.limits = i.limits

theorem KeepsLimits.pure {α : Type} (a : α) : KeepsLimits (Pure.pure a) := fun _ => rfl

theorem KeepsLimits.bind {α β : Type} {computation : Host α} {next : α → Host β}
    (h : KeepsLimits computation) (hnext : ∀ a, KeepsLimits (next a)) :
    KeepsLimits (computation >>= next) := by
  intro i
  have hlimits := h i
  rw [exec_bind]
  cases hexec : exec computation i with
  | mk result i' =>
    rw [hexec] at hlimits
    cases result with
    | ok a => exact (hnext a i').trans hlimits
    | error e => exact hlimits

theorem keepsLimits_script {α : Type} (wrap : Script.Fault → BridgeError)
    (computation : Script.Eval α) : KeepsLimits (script wrap computation) := by
  intro i
  rw [exec_script]

theorem keepsLimits_getGlobal (name : String) : KeepsLimits (getGlobal name) :=
  (keepsLimits_script _ _).bind fun _ _ => rfl

theorem keepsLimits_peek (index : Int32) : KeepsLimits (peek index) := by
  intro i
  rw [exec_peek]

theorem keepsLimits_isNil (index : Int32) : KeepsLimits (isNil index) :=
  (keepsLimits_peek index).bind fun _ => .pure _

theorem keepsLimits_pop (n : Nat) : KeepsLimits (pop n) := by
  intro i
  rw [exec_pop]
  split <;> rfl

theorem keepsLimits_remove (index : Int32) : KeepsLimits (remove index) := by
  intro i
  rw [exec_remove]
  split <;> rfl

theorem keepsLimits_getField (index : Int32) (name : String) :
    KeepsLimits (getField index name) := by
  refine (keepsLimits_peek index).bind fun value => ?_
  cases value with
  | table id => exact (keepsLimits_script _ _).bind fun _ _ => rfl
  | _ => exact fun _ => rfl

end Host

namespace Dispatch

theorem keepsLimits_lookFurther (name : String) (found : Bool) :
    Host.KeepsLimits (lookFurther name found) := by
  unfold lookFurther
  split
  · exact .pure _
  · refine (Host.keepsLimits_pop 1).bind fun _ => ?_
    refine (Host.keepsLimits_getGlobal name).bind fun _ => ?_
    refine (Host.keepsLimits_isNil (-1)).bind fun missing => ?_
    split
    · exact (Host.keepsLimits_pop 1).bind fun _ => .pure _
    · exact .pure _

theorem keepsLimits_pushHandler (name : String) : Host.KeepsLimits (pushHandler name) := by
  refine (Host.keepsLimits_getGlobal configGlobal).bind fun _ => ?_
  refine (Host.keepsLimits_peek (-1)).bind fun value => ?_
  cases value with
  | table id =>
    refine (Host.keepsLimits_getField (-1) name).bind fun _ => ?_
    refine .bind ((Host.keepsLimits_remove (-2)).bind fun _ => .pure _) fun _ => ?_
    exact (Host.keepsLimits_isNil (-1)).bind fun missing => keepsLimits_lookFurther name !missing
  | _ => exact keepsLimits_lookFurther name false

/-! ### What an event carries -/

namespace Occurrence

/-- The bytes that an event carries. -/
def body? : Occurrence → Option ByteArray
  | .traffic _ (.data payload) | .traffic _ (.datagram payload) => some payload
  | .traffic _ (.request _ _ _ body) | .traffic _ (.response _ _ _ body) => some body
  | _ => none

/-- The header fields that an event carries. -/
def headers? : Occurrence → Option Http.Headers
  | .traffic _ (.request _ _ headers _) | .traffic _ (.response _ _ headers _) => some headers
  | _ => none

/-- What an event carries is within the limits. -/
structure Fits (occurrence : Occurrence) (limits : Limits) : Prop where
  headers : ∀ headers ∈ occurrence.headers?, headers.size ≤ limits.tableEntries
  body : ∀ body ∈ occurrence.body?, body.size ≤ limits.payloadBytes

/-- What an event carries is over a limit, and what is said of that. -/
inductive Exceeds (occurrence : Occurrence) (limits : Limits) : StackError → Prop where
  | headers {headers : Http.Headers} : headers ∈ occurrence.headers? →
    limits.tableEntries < headers.size →
    Exceeds occurrence limits (.tableTooLarge headers.size limits.tableEntries)
  /-- The header fields, if there are any, are within their limit. -/
  | body {body : ByteArray} :
    (∀ headers ∈ occurrence.headers?, headers.size ≤ limits.tableEntries) →
    body ∈ occurrence.body? → limits.payloadBytes < body.size →
    Exceeds occurrence limits (.payloadTooLarge body.size limits.payloadBytes)

theorem Exceeds.not_fits {occurrence : Occurrence} {limits : Limits} {cause : StackError}
    (h : occurrence.Exceeds limits cause) : ¬ occurrence.Fits limits := by
  intro hfits
  cases h with
  | headers hmem hlt => exact Nat.not_le_of_lt hlt (hfits.headers _ hmem)
  | body _ hmem hlt => exact Nat.not_le_of_lt hlt (hfits.body _ hmem)

/-- What does not fit is over one of the limits. -/
theorem exceeds_of_not_fits {occurrence : Occurrence} {limits : Limits}
    (h : ¬ occurrence.Fits limits) : ∃ cause, occurrence.Exceeds limits cause := by
  by_cases hheaders : ∀ headers ∈ occurrence.headers?, headers.size ≤ limits.tableEntries
  · by_cases hbody : ∀ body ∈ occurrence.body?, body.size ≤ limits.payloadBytes
    · exact absurd ⟨hheaders, hbody⟩ h
    · obtain ⟨body, hnot⟩ := Classical.not_forall.1 hbody
      obtain ⟨hmem, hlarge⟩ := Classical.not_imp.1 hnot
      exact ⟨_, .body hheaders hmem (Nat.not_le.1 hlarge)⟩
  · obtain ⟨headers, hnot⟩ := Classical.not_forall.1 hheaders
    obtain ⟨hmem, hlarge⟩ := Classical.not_imp.1 hnot
    exact ⟨_, .headers hmem (Nat.not_le.1 hlarge)⟩

end Occurrence

theorem exec_checkMessage (headers : Http.Headers) (body : ByteArray) (i : Interpreter) :
    exec (checkMessage headers body) i =
      (if i.limits.tableEntries < headers.size then
        .error (.stack (.tableTooLarge headers.size i.limits.tableEntries))
      else if i.limits.payloadBytes < body.size then
        .error (.stack (.payloadTooLarge body.size i.limits.payloadBytes))
      else .ok (), i) := by
  unfold checkMessage
  rw [Host.exec_bind, Host.exec_checkHeaders]
  by_cases h : i.limits.tableEntries < headers.size
  · simp only [h, if_true]
  · simp only [h, if_false, Host.exec_checkBytes]

/-- A check goes through if everything is within the limits. -/
theorem exec_checkArguments_of_fits {occurrence : Occurrence} {i : Interpreter}
    (h : occurrence.Fits i.limits) : exec (checkArguments occurrence) i = (.ok (), i) := by
  have hbytes : ∀ bytes ∈ occurrence.body?, ¬ i.limits.payloadBytes < bytes.size :=
    fun bytes hmem => Nat.not_lt.2 (h.body bytes hmem)
  have hfields : ∀ headers ∈ occurrence.headers?, ¬ i.limits.tableEntries < headers.size :=
    fun headers hmem => Nat.not_lt.2 (h.headers headers hmem)
  cases occurrence with
  | triggerUp | triggerDown => rfl
  | traffic live what =>
    cases what with
    | up | down => rfl
    | data payload | datagram payload =>
      exact (Host.exec_checkBytes payload i).trans (by rw [if_neg (hbytes payload rfl)])
    | request _ _ headers body | response _ _ headers body =>
      exact (exec_checkMessage headers body i).trans
        (by rw [if_neg (hfields headers rfl), if_neg (hbytes body rfl)])

/-- A check fails for what is over its limit, and has looked at nothing but the limits. -/
theorem exec_checkArguments_of_exceeds {occurrence : Occurrence} {i : Interpreter}
    {cause : StackError} (h : occurrence.Exceeds i.limits cause) :
    exec (checkArguments occurrence) i = (.error (.stack cause), i) := by
  cases occurrence with
  | triggerUp | triggerDown => cases h <;> next hmem _ => cases hmem
  | traffic live what =>
    cases what with
    | up | down => cases h <;> next hmem _ => cases hmem
    | data payload | datagram payload =>
      cases h with
      | headers hmem => cases hmem
      | body _ hmem hlt =>
        cases hmem
        exact (Host.exec_checkBytes payload i).trans (by rw [if_pos hlt])
    | request _ _ headers body | response _ _ headers body =>
      cases h with
      | headers hmem hlt =>
        cases hmem
        exact (exec_checkMessage headers body i).trans (by rw [if_pos hlt])
      | body hsmall hmem hlt =>
        cases hmem
        exact (exec_checkMessage headers body i).trans
          (by rw [if_neg (Nat.not_lt.2 (hsmall headers rfl)), if_pos hlt])

/-! ### What a call is made of -/

/-- What a handler is called with. -/
structure Delivery where
  arguments : List Value
  /-- The contexts that handles reach during the call. -/
  contexts : Contexts
  /-- The machine with what was made for the call. -/
  machine : Machine

/-- The arguments behind the context, and the machine with the table of header fields. -/
def Traffic.delivery (machine : Machine) : Traffic → List Value × Machine
  | .up | .down => ([], machine)
  | .data payload | .datagram payload => ([.string payload], machine)
  | .request method url headers body =>
    ([Value.ofText method, Value.ofText url, .table machine.tables.size, .string body],
      (machine.newTable (Host.headerTable headers)).2)
  | .response code status headers body =>
    ([.integer (Int64.ofNat code.toNat), Value.ofText status, .table machine.tables.size,
        .string body],
      (machine.newTable (Host.headerTable headers)).2)

namespace Occurrence

/-- What the handler of an event is called with. Where it is about a context, a new handle to that
    comes first, as an object of its own. -/
def delivery (occurrence : Occurrence) (table : HandleTable Live) (machine : Machine) : Delivery :=
  match occurrence with
  | .triggerUp liid address => ⟨[Value.ofText liid, Value.ofText address.text], some table, machine⟩
  | .triggerDown liid => ⟨[Value.ofText liid], some table, machine⟩
  | .traffic live what =>
    let (others, after) := what.delivery machine.newObject.2
    ⟨.handle machine.nextObject (table.insert live).1 :: others, some (table.insert live).2, after⟩

/-- The table of contexts when the handler is over: what was put in is released. -/
def released (occurrence : Occurrence) (table : HandleTable Live) : HandleTable Live :=
  match occurrence.live? with
  | some live => ((table.insert live).2.release (table.insert live).1).2
  | none => table

end Occurrence

theorem length_delivery (what : Traffic) (machine : Machine) :
    (what.delivery machine).1.length ≤ 4 := by
  cases what <;> simp [Traffic.delivery]

/-- Arguments are put on the stack as they are delivered, and counted. -/
theorem exec_pushArguments_traffic (live : Live) (what : Traffic) (i : Interpreter) :
    exec (pushArguments (.traffic live what)) i =
      (.ok (what.delivery i.machine).1.length, { i with
        machine := (what.delivery i.machine).2
        stack := i.stack ++ (what.delivery i.machine).1 }) := by
  cases what with
  | up | down =>
    rw [show (i.stack ++ (Traffic.delivery i.machine _).1) = i.stack from List.append_nil _]
    rfl
  | data | datagram => rfl
  | request | response =>
    simp only [pushArguments, Host.exec_bind, Host.pushText, Host.pushInteger, Host.exec_push,
      Host.exec_pushTable, Host.exec_pure, Traffic.delivery, List.append_assoc, List.cons_append,
      List.nil_append, List.length_cons, List.length_nil]

/-- How a call ends for a dispatch. -/
def callResult (name : String) : Except Script.Fault (List Value) → Except BridgeError Unit
  | .ok _ => .ok ()
  | .error fault => .error (.call ("handler '" ++ name ++ "'") fault)

/-- What is reported of a call. -/
def callLine (name : String) (arguments : Nat) : Line :=
  ⟨.debug, "bridge", "Calling " ++ name ++ " with " ++ toString arguments ++ " argument(s)"⟩

/-- The handler on the stack is called once, with the arguments above it. -/
theorem exec_callHandler (name : String) {handler : Value} {values : List Value}
    (hsmall : values.length ≤ 5) {i : Interpreter} {base : List Value}
    (hstack : i.stack = base ++ handler :: values) :
    exec (callHandler name values.length) i =
      (callResult name (Host.callOf handler values i.contexts i.machine).1,
        { i with
          machine := (Host.callOf handler values i.contexts i.machine).2
          stack := base
          lines := i.lines ++ [callLine name values.length] }) := by
  have hfar : values.length + 1 < UInt64.size :=
    Nat.lt_of_le_of_lt (Nat.succ_le_succ hsmall) (by decide)
  have hcall := Host.exec_call_without_results hfar
    (i := { i with lines := i.lines ++ [callLine name values.length] }) hstack
  unfold callHandler
  unfold callLine at hcall ⊢
  rw [Host.exec_bind, Host.exec_report]
  dsimp only
  rw [Host.exec_bind, Host.exec_attempt, hcall]
  dsimp only
  cases (Host.callOf handler values i.contexts i.machine).1 with
  | ok results => rfl
  | error fault => rfl

/-! ### The two cases -/

/-- With a handle at hand, what is within the limits is passed on behind it. -/
theorem exec_attend_of_fits {live : Live} {what : Traffic} (handle : Handle) {handler : Value}
    {i : Interpreter} {base : List Value} (hstack : i.stack = base ++ [handler])
    (hfits : Occurrence.Fits (.traffic live what) i.limits) :
    let others := what.delivery i.machine.newObject.2
    let arguments := .handle i.machine.nextObject handle :: others.1
    let run := Host.callOf handler arguments i.contexts others.2
    exec (attend (.traffic live what) handle) i =
      (callResult what.handler run.1,
        { i with
          machine := run.2
          stack := base
          lines := i.lines ++ [callLine what.handler arguments.length] }) := by
  intro others arguments run
  have hsmall : others.1.length ≤ 4 := length_delivery what i.machine.newObject.2
  have hlength : arguments.length ≤ 5 := by
    rw [List.length_cons]
    omega
  -- The handle is on the stack before the other arguments, and counts as one more.
  have hpushed : i.stack ++ [.handle i.machine.nextObject handle] ++ others.1 =
      base ++ handler :: arguments := by
    simp [hstack, arguments]
  have hcall := exec_callHandler what.handler hlength
    (i := { i with
      machine := others.2
      stack := i.stack ++ [.handle i.machine.nextObject handle] ++ others.1 }) hpushed
  unfold attend
  rw [Host.exec_bind, exec_checkArguments_of_fits hfits]
  dsimp only
  rw [Host.exec_bind, Host.exec_pushHandle]
  dsimp only
  rw [Host.exec_bind, exec_pushArguments_traffic]
  exact hcall

/-- What is within the limits is passed on: one call, whatever the script makes of it. -/
theorem exec_handling_of_fits {occurrence : Occurrence} {handler : Value} {i : Interpreter}
    {base : List Value} (hstack : i.stack = base ++ [handler]) {table : HandleTable Live}
    (hcontexts : i.contexts = some table) (hfits : occurrence.Fits i.limits) :
    let delivery := occurrence.delivery table i.machine
    let run := Host.callOf handler delivery.arguments delivery.contexts delivery.machine
    exec (handling occurrence) i =
      (callResult occurrence.handler run.1,
        { i with
          machine := run.2
          contexts := some (occurrence.released table)
          stack := base
          lines := i.lines ++ [callLine occurrence.handler delivery.arguments.length] }) := by
  obtain ⟨machine, contexts, stack, limits, lines⟩ := i
  obtain rfl : stack = base ++ [handler] := hstack
  obtain rfl : contexts = some table := hcontexts
  cases occurrence with
  | triggerUp liid address =>
    have hsmall : [Value.ofText liid, Value.ofText address.text].length ≤ 5 := by simp
    exact exec_callHandler "trigger_up" hsmall (by simp)
  | triggerDown liid =>
    have hsmall : [Value.ofText liid].length ≤ 5 := by simp
    exact exec_callHandler "trigger_down" hsmall (by simp)
  | traffic live what =>
    have hattend := exec_attend_of_fits (table.insert live).1
      (i := ⟨machine, some (table.insert live).2, base ++ [handler], limits, lines⟩) rfl
      ⟨hfits.headers, hfits.body⟩
    show exec (Host.during live (attend (.traffic live what))) _ = _
    rw [Host.exec_during_some live _ rfl]
    dsimp only at hattend ⊢
    rw [hattend, Host.exec_leave_some _ rfl]
    rfl

/-- What is over a limit is not passed on: the dispatch fails before the script has anything of it,
    whatever its state. -/
theorem exec_handling_of_exceeds {occurrence : Occurrence} {i : Interpreter}
    {table : HandleTable Live} (hcontexts : i.contexts = some table) {cause : StackError}
    (h : occurrence.Exceeds i.limits cause) :
    exec (handling occurrence) i =
      (.error (.stack cause), { i with contexts := some (occurrence.released table) }) := by
  cases occurrence with
  | triggerUp | triggerDown => cases h <;> next hmem _ => cases hmem
  | traffic live what =>
    have hcheck : exec (checkArguments (.traffic live what))
        { i with contexts := some (table.insert live).2 } =
        (.error (.stack cause), { i with contexts := some (table.insert live).2 }) :=
      exec_checkArguments_of_exceeds h
    have hattend : exec (attend (.traffic live what) (table.insert live).1)
        { i with contexts := some (table.insert live).2 } =
        (.error (.stack cause), { i with contexts := some (table.insert live).2 }) := by
      unfold attend
      rw [Host.exec_bind, hcheck]
    show exec (Host.during live (attend (.traffic live what))) i = _
    rw [Host.exec_during_some live _ hcontexts, hattend, Host.exec_leave_some _ rfl]
    rfl

/-! ### Checks in their turn -/

/-- Puts the arguments behind the context on the stack, and counts them. What has a limit is checked
    when its turn comes. -/
def pushInTurn : Traffic → Host Nat
  | .up | .down => return 0
  | .data payload | .datagram payload => do
    Host.pushBytes payload
    return 1
  | .request method url headers body => do
    Host.pushText method
    Host.pushText url
    Host.pushHeaders headers
    Host.pushBytes body
    return 4
  | .response code status headers body => do
    Host.pushInteger (Int64.ofNat code.toNat)
    Host.pushText status
    Host.pushHeaders headers
    Host.pushBytes body
    return 4

/-- Calls the handler with a handle and the arguments behind it, each checked in its turn. -/
def attendInTurn (what : Traffic) (handle : Handle) : Host Unit := do
  Host.pushHandle handle
  let arguments ← pushInTurn what
  callHandler what.handler (arguments + 1)

/-- Tables and objects have been made in a machine, and nothing else has happened in it. -/
structure Made (machine after : Machine) : Prop where
  tables : machine.tables.toList <+: after.tables.toList
  others : after = { machine with tables := after.tables, nextObject := after.nextObject }

theorem Made.refl (machine : Machine) : Made machine machine := ⟨List.prefix_rfl, rfl⟩

theorem Made.trans {machine between after : Machine} (h : Made machine between)
    (hafter : Made between after) : Made machine after where
  tables := h.tables.trans hafter.tables
  others := by
    rw [hafter.others, h.others]

theorem made_newObject (machine : Machine) : Made machine machine.newObject.2 :=
  ⟨List.prefix_rfl, rfl⟩

theorem made_newTable (machine : Machine) (table : Table) :
    Made machine (machine.newTable table).2 where
  tables := by
    simp only [Machine.newTable, Array.toList_push]
    exact List.prefix_append _ _
  others := rfl

/-- A computation fails for the stack, and leaves values on it and what has been made for them. -/
def GivesUp {α : Type} (computation : Host α) (i : Interpreter) (cause : StackError) : Prop :=
  ∃ values machine, exec computation i =
      (.error (.stack cause), { i with machine := machine, stack := i.stack ++ values }) ∧
    Made i.machine machine

section GivesUp

variable {α β : Type} {i : Interpreter} {cause : StackError}

theorem GivesUp.of_error {computation : Host α}
    (h : exec computation i = (.error (.stack cause), i)) : GivesUp computation i cause := by
  refine ⟨[], i.machine, ?_, .refl _⟩
  rw [h, List.append_nil]

theorem GivesUp.bind {computation : Host α} (h : GivesUp computation i cause)
    (next : α → Host β) : GivesUp (computation >>= next) i cause := by
  obtain ⟨values, machine, hexec, hmade⟩ := h
  refine ⟨values, machine, ?_, hmade⟩
  rw [Host.exec_bind, hexec]

/-- A value that was put on the stack before is one of those that are left. -/
theorem GivesUp.behind {first : Host Unit} {next : Unit → Host α} {value : Value}
    {machine : Machine} (hfirst : exec first i =
      (.ok (), { i with machine := machine, stack := i.stack ++ [value] }))
    (hmade : Made i.machine machine)
    (h : GivesUp (next ()) { i with machine := machine, stack := i.stack ++ [value] } cause) :
    GivesUp (first >>= next) i cause := by
  obtain ⟨values, after, hnext, hafter⟩ := h
  refine ⟨value :: values, after, ?_, hmade.trans hafter⟩
  rw [Host.exec_bind, hfirst]
  dsimp only
  rw [hnext, List.append_assoc, List.singleton_append]

end GivesUp

theorem exec_pushInTurn_of_fits {live : Live} {what : Traffic} {i : Interpreter}
    (h : Occurrence.Fits (.traffic live what) i.limits) :
    exec (pushInTurn what) i = exec (pushArguments (.traffic live what)) i := by
  have hbytes : ∀ bytes ∈ Occurrence.body? (.traffic live what),
      ¬ i.limits.payloadBytes < bytes.size := fun bytes hmem => Nat.not_lt.2 (h.body bytes hmem)
  have hfields : ∀ headers ∈ Occurrence.headers? (.traffic live what),
      ¬ i.limits.tableEntries < headers.size :=
    fun headers hmem => Nat.not_lt.2 (h.headers headers hmem)
  cases what with
  | up | down => rfl
  | data payload | datagram payload =>
    simp only [pushInTurn, Host.exec_bind, Host.exec_pushBytes, if_neg (hbytes payload rfl)]
    rfl
  | request _ _ headers body | response _ _ headers body =>
    simp only [pushInTurn, Host.exec_bind, Host.pushText, Host.pushInteger, Host.exec_push,
      Host.exec_pushHeaders, if_neg (hfields headers rfl), Host.exec_pushBytes,
      if_neg (hbytes body rfl)]
    rfl

/-- Header fields and a body give up at the one that is over its limit. -/
theorem givesUp_message {α : Type} {next : Unit → Host α} {headers : Http.Headers}
    {body : ByteArray} {i : Interpreter} {cause : StackError} (occurrence : Occurrence)
    (hheaders : occurrence.headers? = some headers) (hbody : occurrence.body? = some body)
    (h : occurrence.Exceeds i.limits cause) :
    GivesUp (do Host.pushHeaders headers; Host.pushBytes body >>= next) i cause := by
  cases h with
  | headers hmem hlt =>
    cases hheaders.symm.trans hmem
    exact .bind (.of_error (by rw [Host.exec_pushHeaders, if_pos hlt])) _
  | body hsmall hmem hlt =>
    cases hbody.symm.trans hmem
    have hfields : ¬ i.limits.tableEntries < headers.size :=
      Nat.not_lt.2 (hsmall headers hheaders)
    have hpushed := Host.exec_pushHeaders headers i
    rw [if_neg hfields] at hpushed
    refine .behind hpushed (made_newTable i.machine (Host.headerTable headers)) ?_
    exact .bind (.of_error (by rw [Host.exec_pushBytes, if_pos hlt])) _

theorem givesUp_pushInTurn {live : Live} {what : Traffic} {i : Interpreter} {cause : StackError}
    (h : Occurrence.Exceeds (.traffic live what) i.limits cause) :
    GivesUp (pushInTurn what) i cause := by
  cases what with
  | up | down => cases h <;> next hmem _ => cases hmem
  | data payload | datagram payload =>
    cases h with
    | headers hmem => cases hmem
    | body _ hmem hlt =>
      cases hmem
      exact .bind (.of_error (by rw [Host.exec_pushBytes, if_pos hlt])) _
  | request | response =>
    refine .behind rfl (.refl _) (.behind rfl (.refl _) ?_)
    exact givesUp_message (.traffic live _) rfl rfl h

/-- It makes no difference to the call that the checks come first, nor to the failure: checks in
    their turn fail for the same cause. They leave values on the stack, which the dispatch takes off
    when it is over, and tables and objects that nothing else refers to. -/
theorem attend_in_turn (live : Live) (what : Traffic) (handle : Handle) (i : Interpreter) :
    (Occurrence.Fits (.traffic live what) i.limits →
      exec (attendInTurn what handle) i = exec (attend (.traffic live what) handle) i) ∧
    ∀ cause, Occurrence.Exceeds (.traffic live what) i.limits cause →
      exec (attend (.traffic live what) handle) i = (.error (.stack cause), i) ∧
      GivesUp (attendInTurn what handle) i cause := by
  constructor
  · intro hfits
    -- The limits are the same with the handle on the stack.
    have hpush : ∀ j : Interpreter, j.limits = i.limits →
        exec (pushInTurn what) j = exec (pushArguments (.traffic live what)) j :=
      fun j hj => exec_pushInTurn_of_fits (hj ▸ hfits)
    unfold attend attendInTurn
    rw [Host.exec_bind (checkArguments _), exec_checkArguments_of_fits hfits]
    dsimp only
    rw [Host.exec_bind, Host.exec_bind, Host.exec_pushHandle]
    dsimp only
    rw [Host.exec_bind, Host.exec_bind (pushArguments _), hpush]
    · rfl
    · rfl
  · intro cause h
    constructor
    · unfold attend
      rw [Host.exec_bind, exec_checkArguments_of_exceeds h]
    · -- By then the handle is on the stack, and stays there with what follows it.
      refine .behind (Host.exec_pushHandle handle i) (made_newObject i.machine) ?_
      refine .bind ?_ _
      exact givesUp_pushInTurn h

/-! ### Whole dispatches -/

namespace Dispatcher

/-- The handler that a look-up finds, and the interpreter after it. -/
def found? (d : Dispatcher) (occurrence : Occurrence) : Option (Value × Interpreter) :=
  match d.lookUp occurrence with
  | (.ok true, i) => some (i.stack.getLastD .nil, i)
  | _ => none

variable {d : Dispatcher} {occurrence : Occurrence} {handler : Value} {i : Interpreter}

/-- A handler that is found lies on top of what the dispatch has found on the stack. -/
theorem lookUp_of_found (h : d.found? occurrence = some (handler, i)) :
    d.lookUp occurrence = (.ok true, i) ∧ i.stack = d.interpreter.stack ++ [handler] ∧
      i.contexts = d.interpreter.contexts ∧ i.limits = d.interpreter.limits := by
  have habove := above_pushHandler occurrence.handler { d.interpreter with lines := [] }
    (List.append_nil _).symm
  have hlimits := keepsLimits_pushHandler occurrence.handler { d.interpreter with lines := [] }
  rw [← lookUp] at habove hlimits
  unfold found? at h
  split at h
  · next i' hlook =>
    cases h
    rw [hlook] at habove hlimits
    obtain ⟨hcontexts, extra, hstack, hresult⟩ := habove
    obtain ⟨value, rfl⟩ := List.length_eq_one_iff.1 (hresult true rfl)
    dsimp only at hstack
    refine ⟨hlook, ?_, hcontexts, hlimits⟩
    rw [hstack, List.getLastD_concat]
  · cases h

/-- What a dispatch comes to whose handler is called once. -/
def calledWith (d : Dispatcher) (occurrence : Occurrence) (handler : Value) (i : Interpreter)
    (table : HandleTable Live) : Except BridgeError Outcome × Interpreter × List Line :=
  let delivery := occurrence.delivery table i.machine
  let run := (Script.call handler delivery.arguments).toHost delivery.contexts delivery.machine
  ((callResult occurrence.handler run.1).map fun _ => .handled,
    { d.interpreter with
      machine := run.2
      contexts := some (occurrence.released table)
      lines := [] },
    i.lines ++ [callLine occurrence.handler delivery.arguments.length])

/-- What a dispatch comes to that fails before the call. -/
def refusedFor (d : Dispatcher) (occurrence : Occurrence) (i : Interpreter)
    (table : HandleTable Live) (cause : StackError) :
    Except BridgeError Outcome × Interpreter × List Line :=
  (.error (.stack cause),
    { d.interpreter with
      machine := i.machine
      contexts := some (occurrence.released table)
      lines := [] },
    i.lines)

/-- A call that is made is no failure for a limit. -/
theorem calledWith_ne_refusedFor {table : HandleTable Live} {cause : StackError} :
    d.calledWith occurrence handler i table ≠ d.refusedFor occurrence i table cause := by
  intro heq
  have hresult := congrArg Prod.fst heq
  unfold calledWith refusedFor at hresult
  dsimp only at hresult
  revert hresult
  cases ((Script.call handler (occurrence.delivery table i.machine).arguments).toHost
    (occurrence.delivery table i.machine).contexts (occurrence.delivery table i.machine).machine).1
    <;> exact nofun

/-- What a dispatch comes to that finds a handler, by what calling that comes to. -/
theorem attempt_of_handling (hfound : d.found? occurrence = some (handler, i))
    {result : Except BridgeError Unit} {machine : Machine} {contexts : Contexts}
    (above : List Value) {lines : List Line}
    (hhandling : exec (handling occurrence) i = (result, { i with
      machine := machine
      contexts := contexts
      stack := d.interpreter.stack ++ above
      lines := lines })) :
    d.attempt occurrence = (result.map fun _ => .handled,
      { d.interpreter with machine := machine, contexts := contexts, lines := [] }, lines) := by
  obtain ⟨hlook, -, -, hlimits⟩ := lookUp_of_found hfound
  have hinvoke := exec_invoke occurrence { d.interpreter with lines := [] }
  rw [← lookUp, hlook] at hinvoke
  dsimp only at hinvoke
  rw [attempt, Host.run_eq, exec_unsettled, hinvoke, hhandling]
  dsimp only
  rw [List.take_left, hlimits]

/-- What is within the limits is passed on, whatever is found for a handler. -/
theorem attempt_eq_of_fits (hfound : d.found? occurrence = some (handler, i))
    {table : HandleTable Live} (hcontexts : d.interpreter.contexts = some table)
    (hfits : occurrence.Fits d.interpreter.limits) :
    let delivery := occurrence.delivery table i.machine
    let run := Host.callOf handler delivery.arguments delivery.contexts delivery.machine
    d.attempt occurrence =
      ((callResult occurrence.handler run.1).map fun _ => .handled,
        { d.interpreter with
          machine := run.2
          contexts := some (occurrence.released table)
          lines := [] },
        i.lines ++ [callLine occurrence.handler delivery.arguments.length]) := by
  intro delivery run
  obtain ⟨-, hstack, hsame, hlimits⟩ := lookUp_of_found hfound
  rw [← hlimits] at hfits
  rw [hcontexts] at hsame
  refine attempt_of_handling hfound [] ?_
  rw [List.append_nil]
  exact exec_handling_of_fits hstack hsame hfits

theorem attempt_of_fits (hfound : d.found? occurrence = some (handler, i))
    (hcallable : handler.isCallable = true) {table : HandleTable Live}
    (hcontexts : d.interpreter.contexts = some table)
    (hfits : occurrence.Fits d.interpreter.limits) :
    d.attempt occurrence = d.calledWith occurrence handler i table := by
  have hattempt := attempt_eq_of_fits hfound hcontexts hfits
  dsimp only at hattempt
  rw [Host.callOf_of_callable hcallable] at hattempt
  exact hattempt

theorem attempt_of_exceeds (hfound : d.found? occurrence = some (handler, i))
    {table : HandleTable Live} (hcontexts : d.interpreter.contexts = some table)
    {cause : StackError} (h : occurrence.Exceeds d.interpreter.limits cause) :
    d.attempt occurrence = d.refusedFor occurrence i table cause := by
  obtain ⟨-, hstack, hsame, hlimits⟩ := lookUp_of_found hfound
  rw [← hlimits] at h
  rw [hcontexts] at hsame
  have hhandling := exec_handling_of_exceeds hsame h
  rw [hstack] at hhandling
  exact attempt_of_handling hfound [handler] hhandling

/-- What the policy makes of what a dispatch comes to. -/
def settled (d : Dispatcher) (occurrence : Occurrence) :
    Except BridgeError Outcome × Interpreter × List Line →
      Except BridgeError Outcome × Dispatcher × List Line
  | (.ok outcome, i, lines) => (.ok outcome, { d with interpreter := i }, lines)
  | (.error e, i, lines) =>
    if d.policy = .log then
      (.ok .failed, { d with interpreter := i }, lines ++ [failureLine occurrence.handler e])
    else (.error e, { d with interpreter := i }, lines)

theorem Ready.dispatch_eq_settled (h : d.Ready) (occurrence : Occurrence) :
    d.dispatch occurrence = d.settled occurrence (d.attempt occurrence) := by
  rcases h.attempt_cases occurrence with ⟨outcome, i, lines, -, hok⟩ | ⟨e, i, lines, hof, he⟩
  · rw [dispatch_of_ok hok, hok]
    rfl
  · rw [dispatch_of_error he, he, logs_of_ofHandler hof]
    unfold settled
    cases d.policy <;> rfl

end Dispatcher

/-! ### What arrives -/

/-- The table of header fields has the fields, and nothing else. -/
theorem get_headerTable (headers : Http.Headers) (name : String) :
    (Host.headerTable headers).get (Value.ofText name) =
      ((headers.lookup name).map Value.ofText).getD .nil := by
  have hlookup : ∀ fields : List (String × String),
      (fields.map fun field => (Value.ofText field.1, Value.ofText field.2)).lookup
        (Value.ofText name) = (fields.lookup name).map Value.ofText := by
    intro fields
    induction fields with
    | nil => rfl
    | cons field rest ih =>
      rw [List.map_cons, List.lookup_cons, List.lookup_cons, ih]
      by_cases h : name = field.1
      · rw [h, beq_self_eq_true, beq_self_eq_true]
        rfl
      · rw [beq_false_of_ne h, beq_false_of_ne fun heq => h (Value.ofText_inj heq)]
  exact congrArg (Option.getD · .nil) (hlookup headers.fields)

/-- What arrives at the handler of an event is what the event carries. -/
structure Occurrence.Intact (occurrence : Occurrence) (table : HandleTable Live)
    (machine : Machine) : Prop where
  /-- Where it is about a context, a handle to that comes first. It was never given out before. -/
  handle : ∀ live, occurrence.live? = some live →
    ∃ id handle, (occurrence.delivery table machine).arguments[0]? = some (.handle id handle) ∧
      Script.liveAt (occurrence.delivery table machine).contexts (.handle id handle) = .ok live ∧
      ∀ other, table.Issued other → other ≠ handle
  /-- Where it is about none, there is no handle. -/
  noHandle : occurrence.live? = none → ∀ id handle,
    Value.handle id handle ∉ (occurrence.delivery table machine).arguments
  /-- A payload or a body is the last argument, byte by byte. -/
  body : ∀ body ∈ occurrence.body?,
    (occurrence.delivery table machine).arguments.getLast? = some (.string body)
  /-- Header fields are a new table before that, with the fields for its entries. -/
  headers : ∀ headers ∈ occurrence.headers?, ∃ id,
    (occurrence.delivery table machine).arguments[3]? = some (.table id) ∧
      machine.tables[id]? = none ∧
      let fields := (occurrence.delivery table machine).machine.table id
      fields.metatable = none ∧
        (fields.entries = headers.fields.map fun field =>
          (Value.ofText field.1, Value.ofText field.2)) ∧
        ∀ name, fields.get (Value.ofText name) =
          ((headers.lookup name).map Value.ofText).getD .nil
  /-- The code of a response is the integer of that value. -/
  code : ∀ live code status headers body,
    occurrence = .traffic live (.response code status headers body) →
      ∃ n : Int64, (occurrence.delivery table machine).arguments[1]? = some (.integer n) ∧
        n.toInt = code.toNat

theorem toInt_ofNat_code (code : UInt32) : (Int64.ofNat code.toNat).toInt = code.toNat := by
  have hsmall : code.toNat < 2 ^ 32 := code.toNat_lt
  rw [Int64.toInt_ofNat_of_lt (by omega)]

theorem Occurrence.intact (occurrence : Occurrence) (table : HandleTable Live)
    (machine : Machine) : occurrence.Intact table machine where
  handle := by
    intro live hlive
    cases occurrence with
    | triggerUp | triggerDown => cases hlive
    | traffic live' what =>
      cases hlive
      exact ⟨machine.nextObject, (table.insert live).1, rfl, table.resolve_insert live,
        fun _ hissued => hissued.ne_insert live⟩
  noHandle := by
    intro hlive id handle hmem
    cases occurrence with
    | triggerUp | triggerDown => simp [delivery, Value.ofText] at hmem
    | traffic => cases hlive
  body := by
    intro body hmem
    cases occurrence with
    | triggerUp | triggerDown => cases hmem
    | traffic live what => cases what <;> cases hmem <;> rfl
  headers := by
    intro headers hmem
    have hnew : ∀ m : Machine,
        (m.newTable (Host.headerTable headers)).2.table m.tables.size =
          Host.headerTable headers := by
      intro m
      simp [Machine.newTable, Machine.table]
    cases occurrence with
    | triggerUp | triggerDown => cases hmem
    | traffic live what =>
      cases what <;> cases hmem <;>
        refine ⟨machine.tables.size, rfl, Array.getElem?_eq_none (Nat.le_refl _), ?_⟩ <;>
        exact (hnew machine.newObject.2).symm ▸
          ⟨rfl, rfl, fun name => get_headerTable headers name⟩
  code := by
    rintro live code status headers body rfl
    exact ⟨Int64.ofNat code.toNat, rfl, toInt_ofNat_code code⟩

namespace Dispatcher

variable {d : Dispatcher} {occurrence : Occurrence} {handler : Value} {i : Interpreter}

/-- When a handler is found that can be called: it is called, once and with all that the event
    carries, exactly if that is within the limits. Otherwise the dispatch fails for the limit that
    is exceeded, and the script neither runs nor has anything changed, whatever its state is. -/
theorem arguments_arrive_or_no_call (hready : d.Ready)
    (hfound : d.found? occurrence = some (handler, i)) (hcallable : handler.isCallable = true) :
    ∃ table, d.interpreter.contexts = some table ∧
      d.dispatch occurrence = d.settled occurrence (d.attempt occurrence) ∧
      (occurrence.Fits d.interpreter.limits ↔
        d.attempt occurrence = d.calledWith occurrence handler i table) ∧
      occurrence.Intact table i.machine ∧
      (¬ occurrence.Fits d.interpreter.limits ↔
        ∃ cause, occurrence.Exceeds d.interpreter.limits cause) ∧
      ∀ cause, occurrence.Exceeds d.interpreter.limits cause →
        d.attempt occurrence = d.refusedFor occurrence i table cause ∧
        ∀ machine, exec (handling occurrence) { i with machine := machine } =
          (.error (.stack cause),
            { i with machine := machine, contexts := some (occurrence.released table) }) := by
  obtain ⟨table, hcontexts⟩ := Option.isSome_iff_exists.1 hready
  obtain ⟨-, -, hsame, hlimits⟩ := lookUp_of_found hfound
  refine ⟨table, hcontexts, hready.dispatch_eq_settled occurrence,
    ⟨attempt_of_fits hfound hcallable hcontexts, ?_⟩, occurrence.intact table i.machine,
    ⟨Occurrence.exceeds_of_not_fits, fun ⟨_, h⟩ => h.not_fits⟩,
    fun cause h => ⟨attempt_of_exceeds hfound hcontexts h, ?_⟩⟩
  · -- Had something been over a limit, the dispatch would have failed for that.
    intro hcalled
    refine Classical.byContradiction fun hnot => ?_
    obtain ⟨cause, h⟩ := Occurrence.exceeds_of_not_fits hnot
    exact calledWith_ne_refusedFor (hcalled.symm.trans (attempt_of_exceeds hfound hcontexts h))
  · intro machine
    rw [← hlimits] at h
    exact exec_handling_of_exceeds (i := { i with machine := machine })
      (hsame.trans hcontexts) h

/-- With four bytes for a payload, a fifth byte keeps the handler from being called. -/
theorem fifth_byte_does_not_arrive :
    let scripting : Config.Scripting := ⟨"monitor.lua", "cybermon", 4, 4, .log, false⟩
    let script := "[[\"set\",\"data\",\x7b\"fn\":[]\x7d]]"
    let live : Live := ⟨Engine.initial, ⟨⟨1, .application "dns"⟩, []⟩, Engine.Root.unknown⟩
    let next : Occurrence := .traffic live (.data "bytes".toUTF8)
    ∃ d handler i table, (build scripting (.text script.toUTF8.data.toList) 1).1 = .ok d ∧
      d.found? next = some (handler, i) ∧ handler.isCallable = true ∧
      d.attempt next = d.refusedFor next i table (.payloadTooLarge 5 4) := by
  intro scripting script live next
  have hready : (build scripting (.text script.toUTF8.data.toList) 1).1.toOption.any (fun d =>
      d.interpreter.limits.payloadBytes == 4 &&
        (d.found? next).any fun found => found.1.isCallable) = true := by decide +kernel
  obtain ⟨d, hbuild, hd⟩ := (Option.any_eq_true _ _).mp hready
  obtain ⟨hlimit, hhandler⟩ := (Bool.and_eq_true _ _).mp hd
  obtain ⟨⟨handler, i⟩, hfound, hcallable⟩ := (Option.any_eq_true _ _).mp hhandler
  have hbuild := Host.eq_ok_of_toOption hbuild
  obtain ⟨table, -, -, -, -, -, hrefused⟩ :=
    arguments_arrive_or_no_call (ready_of_build hbuild) hfound hcallable
  have hsize : "bytes".toUTF8.size = 5 := by decide
  have hexceeds : next.Exceeds d.interpreter.limits
      (.payloadTooLarge "bytes".toUTF8.size d.interpreter.limits.payloadBytes) :=
    .body nofun rfl (by rw [hsize, eq_of_beq hlimit]; decide)
  rw [hsize, eq_of_beq hlimit] at hexceeds
  exact ⟨d, handler, i, table, hbuild, hfound, hcallable, (hrefused _ hexceeds).1⟩

end Dispatcher

end Dispatch

end EventBridge
