import EventBridge.Proofs.Script.Refusals

/-! # Values that leave a script

  A value that a script raises and nobody catches becomes a fault. An object that a refused call has
  raised is known by its cause. Of any other value a text is made, and where a table has a function
  for that which raises in turn, the host is shown what that raises.

  * `Surfaces` says which value the host is shown for one that is raised. It is that value itself
    unless it is such a table (`surfaces_self`).
  * `Layered.misuse?_eq` and `Fault.misuse?_refused`: the misuse behind a fault is found below
    however many layers.
  * `Leaves` has what the host learns of a value that leaves, by the record of the run.
-/

namespace EventBridge.Script

variable {contexts : Contexts} {m m' : Machine} {limit : Nat} {raised surfaced : Value}

/-! ### Layers -/

/-- The refusal below all layers. -/
def Layered.refusal : Layered → Refusal
  | .bare cause => cause
  | .callback below | .context _ below => below.refusal

/-- However deep the layers go, the misuse is that of the refusal below them. -/
theorem Layered.misuse?_eq (e : Layered) : e.misuse? = e.refusal.misuse? := by
  induction e with
  | bare cause => rfl
  | callback below ih => exact ih
  | context text below ih => exact ih

@[simp] theorem Fault.misuse?_refused (cause : Refusal) :
    (Fault.refused cause).misuse? = cause.misuse? := Layered.misuse?_eq _

/-- The misuse for which an object was raised. -/
def Value.misuse? : Value → Option Misuse
  | .failure _ cause => cause.misuse?
  | _ => none

/-! ### What the host is shown -/

/-- A value is shown for one that is raised, by the machine in which that is done. So many values
    may take the place of one another. -/
inductive Surfaces (contexts : Contexts) : Nat → Value → Machine → Value → Prop where
  | last {raised : Value} {m : Machine} : Surfaces contexts 0 raised m raised
  | shown {limit : Nat} {raised : Value} {m m' : Machine} {bytes : ByteArray} :
    (display call raised).start contexts m = (.ok bytes, m') →
    Surfaces contexts (limit + 1) raised m raised
  | replaced {limit : Nat} {raised other surfaced : Value} {m m' : Machine} :
    (display call raised).start contexts m = (.error other, m') →
    Surfaces contexts limit other m' surfaced → Surfaces contexts (limit + 1) raised m surfaced

/-- A text is made of anything but a table without running code. -/
theorem start_display_of_not_table (h : ∀ id, raised ≠ .table id) (call : Call)
    (contexts : Contexts) (m : Machine) :
    ∃ bytes, (display call raised).start contexts m = (.ok bytes, m) := by
  cases raised with
  | table id => exact absurd rfl (h id)
  | _ => exact ⟨_, rfl⟩

/-- So it is of a table whose metatable has no function for it. -/
theorem start_display_of_bare {id : Nat} (h : m.metafield id "__tostring" = .nil) (call : Call)
    (contexts : Contexts) :
    ∃ bytes, (display call (.table id)).start contexts m = (.ok bytes, m) := by
  refine ⟨(Value.table id).objectName.toUTF8, ?_⟩
  rw [display, Eval.start_bind, Eval.start_get]
  dsimp only
  rw [h]
  rfl

/-- A value of which a text can be made is shown itself. -/
theorem surfaces_self {bytes : ByteArray}
    (hshown : (display call raised).start contexts m = (.ok bytes, m'))
    (h : Surfaces contexts limit raised m surfaced) : surfaced = raised := by
  cases h with
  | last => rfl
  | shown => rfl
  | replaced herror =>
    rw [hshown] at herror
    cases herror

/-- The fault of a raised value is one of the value that is shown for it. That one may be come by if
    the raised one may. -/
theorem Discipline.surfaces_faultOf {D : Discipline} {w : D.World} (limit : Nat)
    (hraised : D.Allows w raised) (hcontexts : D.Admits contexts) (hm : D.Sound w m) :
    ∃ w' surfaced, D.Later w w' ∧ D.Sound w' (faultOf contexts limit raised m).2 ∧
      D.Allows w' surfaced ∧ Surfaces contexts limit raised m surfaced ∧
      (faultOf contexts limit raised m).1.misuse? = surfaced.misuse? := by
  -- On how many values may still take the place of one another.
  induction limit generalizing raised m w with
  | zero =>
    refine ⟨w, raised, D.refl w, ?_, hraised, .last, ?_⟩
    · cases raised <;> exact hm
    · cases raised <;> rfl
  | succ limit ih =>
    obtain ⟨w₁, h₁, hsound, hgives⟩ := (keeps_display keepsCalls_call hraised).at hcontexts hm
    cases hstart : (display Script.call raised).start contexts m with
    | mk result m' =>
      rw [hstart] at hsound hgives
      cases raised with
      | failure number cause =>
        exact ⟨w, .failure number cause, D.refl w, hm, hraised, .shown rfl, rfl⟩
      | _ =>
        simp only [faultOf, hstart]
        cases result with
        | ok bytes => exact ⟨w₁, _, h₁, hsound, D.later h₁ hraised, .shown hstart, rfl⟩
        | error other =>
          obtain ⟨w₂, surfaced, h₂, hafter, hallowed, hsurfaces, hmisuse⟩ := ih hgives hsound
          exact ⟨w₂, surfaced, D.trans h₁ h₂, hafter, hallowed, .replaced hstart hsurfaces, hmisuse⟩

/-! ### What the host learns -/

/-- What the host learns of a value that leaves a script, by the record of the run. -/
structure Leaves (contexts : Contexts) (log : List Refused) (raised : Value) (m : Machine)
    (fault : Fault) (after : Machine) : Prop where
  ledger : Ledger log after
  listed : Listed log raised
  /-- The object of a refused call shows for what that call was refused. -/
  identity : ∀ refused ∈ log, ∀ cause, raised = .failure refused.number cause →
    cause = refused.cause ∧ fault.misuse? = refused.cause.misuse?
  /-- Any other value shows none, if a text can be made of it. -/
  other : (∀ number cause, raised ≠ .failure number cause) →
    ∀ bytes m', (display call raised).start contexts m = (.ok bytes, m') → fault.misuse? = none
  /-- If none can be made, what is raised for that takes its place. -/
  replaced : ∃ surfaced, Surfaces contexts faultLimit raised m surfaced ∧ Listed log surfaced ∧
    fault.misuse? = surfaced.misuse?

/-- A value that a piece of code raises, where the record is kept, leaves in that way. -/
theorem leaves_of_start {α : Type} {ok : List Refused → α → Prop} {computation : Eval α}
    {log : List Refused} (hkeeps : ledgers.Keeps log ok computation) (hm : Ledger log m)
    (hstart : computation.start contexts m = (.error raised, m')) :
    ∃ log' fault, log <+: log' ∧ (computation.toHost contexts m).1 = .error fault ∧
      Leaves contexts log' raised m' fault (computation.toHost contexts m).2 := by
  have hadmits : ledgers.Admits contexts := trivial
  obtain ⟨log₁, h₁, hsound, hgives⟩ := hkeeps.at hadmits hm
  rw [hstart] at hsound hgives
  obtain ⟨log₂, surfaced, h₂, hafter, hlisted, hsurfaces, hmisuse⟩ :=
    ledgers.surfaces_faultOf faultLimit hgives hadmits hsound
  have hhost := Eval.toHost_of_error hstart
  have hraised : Listed log₂ raised := Listed.later hgives h₂
  refine ⟨log₂, _, List.IsPrefix.trans h₁ h₂, congrArg Prod.fst hhost, ?_⟩
  rw [hhost]
  refine ⟨hafter, hraised, ?_, ?_, surfaced, hsurfaces, hlisted, hmisuse⟩
  · -- The object of a refused call is shown itself, and the record knows it by its number.
    rintro refused hmem cause rfl
    have hcause : cause = refused.cause :=
      Ledger.cause_eq hafter hraised ⟨refused, hmem, rfl, rfl⟩
    have hself : surfaced = .failure refused.number cause := surfaces_self rfl hsurfaces
    refine ⟨hcause, ?_⟩
    rw [hmisuse, hself, ← hcause]
    rfl
  · intro hother bytes m'' hshown
    rw [hmisuse, surfaces_self hshown hsurfaces]
    cases raised with
    | failure number cause => exact absurd rfl (hother number cause)
    | _ => rfl

end EventBridge.Script
