import EventBridge.Proofs.Interpreter.Exec

/-! # What the host fails with

  `FailsAs ways computation` says of a computation that each of its failures is one of `ways`. The
  interpreter that it is started with does not matter, so script code may do what it likes before.

  * What is put on the stack, and what is read from it or from the script, fails as the stack does.
  * `failsAs_call`: besides that, a call fails with the fault of what it called.
-/

namespace EventBridge

/-- A failure of the stack: of what is put there, and of what is read for it. -/
def BridgeError.OfStack : BridgeError → Prop
  | .stack _ => True
  | _ => False

/-- A failure of a call from the stack. -/
def BridgeError.OfCall : BridgeError → Prop
  | .stack _ => True
  | .call origin _ => origin = "call"
  | _ => False

namespace Host

open BridgeError (OfStack OfCall)
open Script (Value)

variable {α β : Type} {ways : BridgeError → Prop}

/-- A computation whose failures are all of some ways. -/
def FailsAs (ways : BridgeError → Prop) (computation : Host α) : Prop :=
  ∀ i e, (exec computation i).1 = .error e → ways e

namespace FailsAs

/-! ### Rules -/

theorem mono {ways' : BridgeError → Prop} {computation : Host α} (h : FailsAs ways computation)
    (hways : ∀ e, ways e → ways' e) : FailsAs ways' computation := by
  intro i e he
  exact hways e (h i e he)

/-- A computation that goes through whatever it is started with. -/
theorem of_ok {computation : Host α} (h : ∀ i, ∃ a, (exec computation i).1 = .ok a) :
    FailsAs ways computation := by
  intro i e he
  obtain ⟨a, ha⟩ := h i
  rw [ha] at he
  cases he

theorem pure (a : α) : FailsAs ways (Pure.pure a) := of_ok fun _ => ⟨a, rfl⟩

theorem throw {e : BridgeError} (h : ways e) :
    FailsAs ways (MonadExcept.throw e : Host α) := by
  intro i e' he
  cases he
  exact h

theorem deliver {result : Except BridgeError α} (h : ∀ e, result = .error e → ways e) :
    FailsAs ways (Host.deliver result) := by
  intro i e he
  rw [exec_deliver] at he
  exact h e he

/-- What follows a computation, where it matters what that has come to. -/
theorem bind_of {computation : Host α} {next : α → Host β} {between : α → Prop}
    (h : FailsAs ways computation) (hbetween : ∀ i a, (exec computation i).1 = .ok a → between a)
    (hnext : ∀ a, between a → FailsAs ways (next a)) : FailsAs ways (computation >>= next) := by
  intro i e he
  rw [exec_bind] at he
  cases hexec : exec computation i with
  | mk result i' =>
    rw [hexec] at he
    cases result with
    | error cause =>
      cases he
      exact h i _ (congrArg Prod.fst hexec)
    | ok a => exact hnext a (hbetween i a (congrArg Prod.fst hexec)) i' e he

theorem bind {computation : Host α} {next : α → Host β} (h : FailsAs ways computation)
    (hnext : ∀ a, FailsAs ways (next a)) : FailsAs ways (computation >>= next) :=
  h.bind_of (fun _ _ _ => trivial) fun a (_ : True) => hnext a

/-- A guarded computation goes through, and hands on a failure of the same ways. -/
theorem attempt_bind {computation : Host α} {next : Except BridgeError α → Host β}
    {between : BridgeError → Prop} (h : FailsAs between computation)
    (hnext : ∀ result, (∀ e, result = .error e → between e) → FailsAs ways (next result)) :
    FailsAs ways (attempt computation >>= next) := by
  intro i e he
  rw [exec_bind, exec_attempt] at he
  exact hnext (exec computation i).1 (h i) (exec computation i).2 e he

end FailsAs

/-! ### Operations -/

theorem failsAs_report (line : Log.Line) : FailsAs ways (report line) := .of_ok fun _ => ⟨(), rfl⟩

theorem failsAs_script {wrap : Script.Fault → BridgeError} (h : ∀ fault, ways (wrap fault))
    (computation : Script.Eval α) : FailsAs ways (script wrap computation) := by
  intro i e he
  rw [exec_script] at he
  cases hrun : (computation.toHost i.contexts i.machine).1 with
  | error fault =>
    rw [hrun] at he
    cases he
    exact h fault
  | ok a =>
    rw [hrun] at he
    cases he

theorem failsAs_push (value : Value) : FailsAs ways (push value) := .of_ok fun _ => ⟨(), rfl⟩

theorem failsAs_pushTable (table : Script.Table) : FailsAs ways (pushTable table) :=
  .of_ok fun _ => ⟨(), rfl⟩

theorem failsAs_pushHandle (handle : Handle) : FailsAs ways (pushHandle handle) :=
  .of_ok fun _ => ⟨(), rfl⟩

theorem failsAs_checkBytes (bytes : ByteArray) : FailsAs OfStack (checkBytes bytes) := by
  intro i e he
  rw [exec_checkBytes] at he
  by_cases hlimit : i.limits.payloadBytes < bytes.size
  · rw [if_pos hlimit] at he
    cases he
    trivial
  · rw [if_neg hlimit] at he
    cases he

theorem failsAs_checkHeaders (headers : Http.Headers) : FailsAs OfStack (checkHeaders headers) := by
  intro i e he
  rw [exec_checkHeaders] at he
  by_cases hlimit : i.limits.tableEntries < headers.size
  · rw [if_pos hlimit] at he
    cases he
    trivial
  · rw [if_neg hlimit] at he
    cases he

theorem failsAs_pop (n : Nat) : FailsAs OfStack (pop n) := by
  intro i e he
  rw [exec_pop] at he
  by_cases hdepth : i.stack.length < n
  · rw [if_pos hdepth] at he
    cases he
    trivial
  · rw [if_neg hdepth] at he
    cases he

theorem failsAs_peek (index : Int32) : FailsAs OfStack (peek index) := by
  intro i e he
  rw [exec_peek] at he
  cases hplace : stackPlace i.stack.length index with
  | error cause =>
    rw [hplace] at he
    cases he
    trivial
  | ok place =>
    rw [hplace] at he
    cases he

theorem failsAs_isNil (index : Int32) : FailsAs OfStack (isNil index) :=
  (failsAs_peek index).bind fun _ => .pure _

theorem failsAs_remove (index : Int32) : FailsAs OfStack (remove index) := by
  intro i e he
  rw [exec_remove] at he
  cases hplace : stackPlace i.stack.length index with
  | error cause =>
    rw [hplace] at he
    cases he
    trivial
  | ok place =>
    rw [hplace] at he
    cases he

theorem failsAs_getGlobal (name : String) : FailsAs OfStack (getGlobal name) :=
  (failsAs_script (fun _ => trivial) _).bind fun value => failsAs_push value

theorem failsAs_getField (index : Int32) (name : String) :
    FailsAs OfStack (getField index name) := by
  refine (failsAs_peek index).bind fun value => ?_
  cases value with
  | table id => exact (failsAs_script (fun _ => trivial) _).bind fun field => failsAs_push field
  | _ => exact .throw trivial

/-! ### Calls -/

theorem failsAs_calling (results : ResultCount) (callee : Value) (values : List Value) :
    FailsAs OfCall (calling results callee values) := by
  have hreturn : ∀ returned : List Value, FailsAs OfCall
      (modify fun i => { i with stack := i.stack ++ results.take returned } : Host Unit) :=
    fun returned => .of_ok fun _ => ⟨(), rfl⟩
  have hcall : ∀ fault, OfCall (inCall fault) := fun _ => rfl
  cases callee with
  | function id => exact (failsAs_script hcall _).bind hreturn
  | table id => exact (failsAs_script hcall _).bind hreturn
  | _ => exact (FailsAs.throw (hcall _)).bind hreturn

/-- A call with fewer arguments than can be counted finds too little on the stack, or fails as what
    it calls does. -/
theorem failsAs_call {arguments : UInt64} (hsmall : arguments.toNat + 1 < UInt64.size)
    (results : ResultCount) : FailsAs OfCall (call arguments results) := by
  have hneeded : (arguments + 1).toNat = arguments.toNat + 1 := by
    rw [UInt64.toNat_add, UInt64.toNat_one]
    exact Nat.mod_eq_of_lt hsmall
  intro i e he
  rw [exec_call, hneeded] at he
  by_cases hdepth : i.stack.length < arguments.toNat + 1
  · rw [if_pos hdepth] at he
    cases he
    trivial
  · rw [if_neg hdepth, if_neg (by omega)] at he
    exact failsAs_calling results _ _ _ e he

end Host

end EventBridge
