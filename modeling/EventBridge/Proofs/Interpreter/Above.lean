import EventBridge.Proofs.Interpreter.Positions

/-! # What stays below

  `Above base extra computation after` says of a computation that is started with the values
  `extra` on top of a stack `base`: however it ends, `base` is still at the bottom, and the contexts
  are what they were. If it ends with a result, `after` holds of that and of what is then on top of
  `base`.

  Every operation of the host that is given enough on top of `base` is of this kind. Nothing is said
  about the machine, so script code may do what it likes.
-/

namespace EventBridge.Host

open Script (Value)

variable {α β : Type} {base extra : List Value}

/-- A computation that keeps to what lies above a stack. -/
def Above (base extra : List Value) (computation : Host α) (after : α → List Value → Prop) : Prop :=
  ∀ i, i.stack = base ++ extra →
    (exec computation i).2.contexts = i.contexts ∧
      ∃ extra', (exec computation i).2.stack = base ++ extra' ∧
        ∀ a, (exec computation i).1 = .ok a → after a extra'

namespace Above

/-! ### Rules -/

theorem mono {computation : Host α} {after after' : α → List Value → Prop}
    (h : Above base extra computation after)
    (hafter : ∀ a extra', after a extra' → after' a extra') :
    Above base extra computation after' := by
  intro i hi
  obtain ⟨hcontexts, extra', hstack, hresult⟩ := h i hi
  exact ⟨hcontexts, extra', hstack, fun a ha => hafter a extra' (hresult a ha)⟩

theorem pure {after : α → List Value → Prop} {a : α} (ha : after a extra) :
    Above base extra (Pure.pure a) after := by
  refine fun i hi => ⟨rfl, extra, hi, ?_⟩
  rintro _ ⟨⟩
  exact ha

theorem throw {after : α → List Value → Prop} (e : BridgeError) :
    Above base extra (MonadExcept.throw e) after := by
  refine fun i hi => ⟨rfl, extra, hi, ?_⟩
  rintro _ ⟨⟩

theorem bind {computation : Host α} {next : α → Host β} {between : α → List Value → Prop}
    {after : β → List Value → Prop} (h : Above base extra computation between)
    (hnext : ∀ a extra', between a extra' → Above base extra' (next a) after) :
    Above base extra (computation >>= next) after := by
  intro i hi
  obtain ⟨hcontexts, extra', hstack, hresult⟩ := h i hi
  rw [exec_bind]
  cases hexec : exec computation i with
  | mk result i' =>
    rw [hexec] at hcontexts hstack hresult
    cases result with
    | error e => exact ⟨hcontexts, extra', hstack, by rintro _ ⟨⟩⟩
    | ok a =>
      obtain ⟨hcontexts', hrest⟩ := hnext a extra' (hresult a rfl) i' hstack
      exact ⟨hcontexts'.trans hcontexts, hrest⟩

/-- What follows a computation of which it is known what it leaves. -/
theorem andThen {computation : Host α} {next : α → Host β} {extra' : List Value}
    {after : β → List Value → Prop}
    (h : Above base extra computation fun _ left => left = extra')
    (hnext : ∀ a, Above base extra' (next a) after) :
    Above base extra (computation >>= next) after := by
  refine h.bind fun a left hleft => ?_
  rw [hleft]
  exact hnext a

theorem attempt {computation : Host α} {after : α → List Value → Prop}
    (h : Above base extra computation after) :
    Above base extra (Host.attempt computation)
      fun result extra' => ∀ a, result = .ok a → after a extra' := by
  intro i hi
  obtain ⟨hcontexts, extra', hstack, hresult⟩ := h i hi
  refine ⟨hcontexts, extra', hstack, ?_⟩
  rintro _ ⟨⟩
  exact hresult

theorem deliver {after : α → List Value → Prop} {result : Except BridgeError α}
    (hresult : ∀ a, result = .ok a → after a extra) :
    Above base extra (Host.deliver result) after := by
  intro i hi
  rw [exec_deliver]
  exact ⟨rfl, extra, hi, hresult⟩

theorem report (line : Log.Line) :
    Above base extra (Host.report line) fun _ extra' => extra' = extra :=
  fun _ hi => ⟨rfl, extra, hi, fun _ _ => rfl⟩

/-- Script code of the host has no way to the stack or to the contexts. -/
theorem script (wrap : Script.Fault → BridgeError) (computation : Script.Eval α) :
    Above base extra (Host.script wrap computation) fun _ extra' => extra' = extra := by
  intro i hi
  rw [exec_script]
  exact ⟨rfl, extra, hi, fun _ _ => rfl⟩

/-! ### Putting values on top -/

theorem push (value : Value) :
    Above base extra (Host.push value) fun _ extra' => extra' = extra ++ [value] :=
  fun i hi => ⟨rfl, extra ++ [value], by simp [hi], fun _ _ => rfl⟩

theorem pushTable (table : Script.Table) :
    Above base extra (Host.pushTable table) fun _ extra' => ∃ value, extra' = extra ++ [value] := by
  intro i hi
  exact ⟨rfl, extra ++ [.table i.machine.tables.size], by simp [hi], fun _ _ => ⟨_, rfl⟩⟩

theorem pushHandle (handle : Handle) :
    Above base extra (Host.pushHandle handle) fun _ extra' =>
      ∃ value, extra' = extra ++ [value] := by
  intro i hi
  exact ⟨rfl, extra ++ [.handle i.machine.nextObject handle], by simp [hi], fun _ _ => ⟨_, rfl⟩⟩

theorem checkBytes (bytes : ByteArray) :
    Above base extra (Host.checkBytes bytes) fun _ extra' => extra' = extra := by
  intro i hi
  rw [exec_checkBytes]
  exact ⟨rfl, extra, hi, fun _ _ => rfl⟩

theorem checkHeaders (headers : Http.Headers) :
    Above base extra (Host.checkHeaders headers) fun _ extra' => extra' = extra := by
  intro i hi
  rw [exec_checkHeaders]
  exact ⟨rfl, extra, hi, fun _ _ => rfl⟩

/-! ### The values on top -/

theorem peek (extra : List Value) (value : Value) :
    Above base (extra ++ [value]) (Host.peek (-1)) fun a extra' =>
      a = value ∧ extra' = extra ++ [value] := by
  intro i hi
  have htop : i.stack = base ++ extra ++ [value] := by rw [hi, List.append_assoc]
  rw [exec_peek_top htop]
  refine ⟨rfl, extra ++ [value], hi, ?_⟩
  rintro _ ⟨⟩
  exact ⟨rfl, rfl⟩

theorem isNil (extra : List Value) (value : Value) :
    Above base (extra ++ [value]) (Host.isNil (-1)) fun _ extra' => extra' = extra ++ [value] :=
  (peek extra value).bind fun _ _ h => .pure h.2

theorem pop (extra : List Value) (value : Value) :
    Above base (extra ++ [value]) (Host.pop 1) fun _ extra' => extra' = extra := by
  intro i hi
  have htop : i.stack = base ++ extra ++ [value] := by rw [hi, List.append_assoc]
  rw [exec_pop_one htop]
  exact ⟨rfl, extra, rfl, fun _ _ => rfl⟩

/-- Taking out the value below the top one. -/
theorem remove (extra : List Value) (value other : Value) :
    Above base (extra ++ [value, other]) (Host.remove (-2)) fun _ extra' =>
      extra' = extra ++ [other] := by
  intro i hi
  have htop : i.stack = base ++ extra ++ [value, other] := by rw [hi, List.append_assoc]
  rw [exec_remove_second htop]
  exact ⟨rfl, extra ++ [other], List.append_assoc .., fun _ _ => rfl⟩

/-! ### Variables, fields and calls -/

theorem getGlobal (name : String) :
    Above base extra (Host.getGlobal name) fun _ extra' => ∃ value, extra' = extra ++ [value] := by
  refine (script _ _).andThen fun value => ?_
  exact (push value).mono fun _ _ h => ⟨value, h⟩

theorem getField (extra : List Value) (value : Value) (name : String) :
    Above base (extra ++ [value]) (Host.getField (-1) name) fun _ extra' =>
      ∃ field, extra' = extra ++ [value, field] := by
  refine (peek extra value).bind fun top extra' h => ?_
  obtain ⟨rfl, rfl⟩ := h
  cases top with
  | table id =>
    refine (script _ _).andThen fun field => ?_
    exact (push field).mono fun _ _ h => ⟨field, by rw [h, List.append_assoc]; rfl⟩
  | _ => exact throw _

theorem calling (callee : Value) (values : List Value) :
    Above base extra (Host.calling (.fixed 0) callee values) fun _ extra' => extra' = extra := by
  intro i hi
  rw [exec_calling]
  cases callOf callee values i.contexts i.machine with
  | mk result machine =>
    cases result with
    | ok returned => exact ⟨rfl, extra, by simp [ResultCount.take, hi], fun _ _ => rfl⟩
    | error fault => exact ⟨rfl, extra, hi, fun _ _ => rfl⟩

/-- A call that leaves no results takes off the value called and its arguments, also if it fails. -/
theorem call {arguments : Nat} (hlength : extra.length = arguments + 1)
    (hsmall : arguments + 1 < UInt64.size) :
    Above base extra (Host.call (UInt64.ofNat arguments) (.fixed 0)) fun _ extra' =>
      extra' = [] := by
  have hwide : (UInt64.ofNat arguments).toNat = arguments :=
    UInt64.toNat_ofNat_of_lt' (Nat.lt_of_succ_lt hsmall)
  obtain ⟨callee, values, rfl⟩ := List.exists_cons_of_length_eq_add_one hlength
  have hvalues : values.length = (UInt64.ofNat arguments).toNat := by
    rw [hwide]
    exact Nat.succ.inj hlength
  intro i hi
  rw [exec_call_of_stack (hwide.symm ▸ hsmall) _ hi hvalues]
  exact calling callee values _ (List.append_nil base).symm

end Above

end EventBridge.Host
