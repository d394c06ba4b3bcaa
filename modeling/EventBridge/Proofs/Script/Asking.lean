import EventBridge.Proofs.Script.Start

/-! # Asking the engine

  A call of a native function is a question to the engine about its first argument. The contexts say
  whether the engine is asked at all: `Native.reply_of_ok` and the two lemmas behind it. What the
  machine notes of the question is what the call comes to (`Native.noted`).
-/

namespace EventBridge.Script

variable {contexts : Contexts}

/-- Under a handle that works, the engine answers. -/
theorem Native.reply_of_ok {table : HandleTable Engine.Live} {handle : Handle} {live : Engine.Live}
    (h : table.resolve handle = .ok live) (native : Native) (id : Nat) :
    native.reply (some table) (.handle id handle) = (native.answer live).mapError .engine := by
  simp only [Native.reply, liveAt, h]

theorem Native.reply_of_error {table : HandleTable Engine.Live} {handle : Handle} {cause : Misuse}
    (h : table.resolve handle = .error cause) (native : Native) (id : Nat) :
    native.reply (some table) (.handle id handle) = .error (.misuse cause) := by
  simp only [Native.reply, liveAt, h]

theorem Native.reply_of_not_handle {subject : Value}
    (h : ∀ id handle, subject ≠ .handle id handle) (native : Native) :
    native.reply contexts subject = .error (.misuse (.notAHandle subject.kind)) := by
  cases subject with
  | handle id handle => exact absurd rfl (h id handle)
  | _ => rfl

/-- A machine that has asked one more question. -/
def Machine.noting (m : Machine) (question : Question) : Machine :=
  { m with questions := m.questions.push question }

theorem Native.start_run_ok {native : Native} {args : List Value} {results : List Value}
    (hreply : native.reply contexts (firstOf args) = .ok results) (m : Machine) :
    (native.run args).start contexts m =
      (.ok results, m.noting ⟨native, firstOf args, .ok results⟩) := by
  simp only [Native.run, Eval.start_bind, Eval.start_read, Eval.start_modify, hreply,
    Eval.start_pure, Machine.noting]

theorem Native.start_run_error {native : Native} {args : List Value} {cause : Refusal}
    (hreply : native.reply contexts (firstOf args) = .error cause) (m : Machine) :
    (native.run args).start contexts m = (.error (.failure m.nextObject cause),
      (m.noting ⟨native, firstOf args, .error cause⟩).newObject.2) := by
  simp only [Native.run, Eval.start_bind, Eval.start_read, Eval.start_modify, hreply]
  rfl

/-- A call of a native function is noted as a question about its first argument, and it gives or
    raises what the note says. -/
structure Native.Noted (native : Native) (args : List Value) (contexts : Contexts) (m : Machine) :
    Prop where
  questions : ((native.run args).start contexts m).2.questions =
    m.questions.push ⟨native, firstOf args, native.reply contexts (firstOf args)⟩
  given : ∀ results, native.reply contexts (firstOf args) = .ok results →
    ((native.run args).start contexts m).1 = .ok results
  raised : ∀ cause, native.reply contexts (firstOf args) = .error cause →
    ∃ id, ((native.run args).start contexts m).1 = .error (.failure id cause)

theorem Native.noted (native : Native) (args : List Value) (contexts : Contexts) (m : Machine) :
    native.Noted args contexts m where
  questions := by
    cases hreply : native.reply contexts (firstOf args) with
    | ok results =>
      rw [Native.start_run_ok hreply]
      rfl
    | error cause =>
      rw [Native.start_run_error hreply]
      rfl
  given := by
    intro results hreply
    rw [Native.start_run_ok hreply]
  raised := by
    intro cause hreply
    exact ⟨m.nextObject, by rw [Native.start_run_error hreply]⟩

end EventBridge.Script
