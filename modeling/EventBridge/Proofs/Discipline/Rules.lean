import EventBridge.Proofs.Discipline.Basic

/-! # Computations that keep to a discipline

  `Discipline.Keeps D w ok computation` says of a computation, started in a sound machine at `w` or
  later:

  * the machine after it is sound, at a time that may be later still;
  * what it gives is `ok` at that time, or what it raises is allowed.

  What holds of a value at one time is carried to later ones by `Discipline.later`, so that the
  parts of a computation can be looked at one by one.
-/

namespace EventBridge.Script

namespace Discipline

variable {D : Discipline} {w w' : D.World} {contexts : Contexts} {m m' : Machine} {α β : Type}

/-- A result that is `ok`, or a raised value that is allowed. -/
def Gives (D : Discipline) (w : D.World) (ok : D.World → α → Prop) : Except Value α → Prop
  | .ok a => ok w a
  | .error raised => D.Allows w raised

/-- What a computation does when it is started in one machine. -/
def KeepsAt (D : Discipline) (w : D.World) (ok : D.World → α → Prop) (contexts : Contexts)
    (computation : Eval α) (m : Machine) : Prop :=
  ∃ w', D.Later w w' ∧ D.Sound w' (computation.start contexts m).2 ∧
    D.Gives w' ok (computation.start contexts m).1

/-- What a computation does whenever it is started. -/
def Keeps (D : Discipline) (w : D.World) (ok : D.World → α → Prop) (computation : Eval α) : Prop :=
  ∀ w', D.Later w w' → ∀ contexts m, D.Admits contexts → D.Sound w' m →
    D.KeepsAt w' ok contexts computation m

/-- No more is said of a result than that it is there. -/
abbrev anything (_ : D.World) (_ : α) : Prop := True

/-! ### In one machine -/

theorem KeepsAt.of_ok {ok : D.World → α → Prop} {computation : Eval α} {a : α}
    (hstart : computation.start contexts m = (.ok a, m')) (hw : D.Later w w')
    (hm : D.Sound w' m') (ha : ok w' a) : D.KeepsAt w ok contexts computation m :=
  ⟨w', hw, by rwa [hstart], by rwa [hstart]⟩

theorem KeepsAt.of_error {ok : D.World → α → Prop} {computation : Eval α} {raised : Value}
    (hstart : computation.start contexts m = (.error raised, m')) (hw : D.Later w w')
    (hm : D.Sound w' m') (hraised : D.Allows w' raised) :
    D.KeepsAt w ok contexts computation m :=
  ⟨w', hw, by rwa [hstart], by rwa [hstart]⟩

/-- A computation that starts as another does keeps to what that one keeps to. -/
theorem KeepsAt.after {ok : D.World → β → Prop} {computation next : Eval β}
    (hstart : computation.start contexts m = next.start contexts m') (hw : D.Later w w')
    (hnext : D.KeepsAt w' ok contexts next m') : D.KeepsAt w ok contexts computation m := by
  obtain ⟨w'', hw', hsound, hgives⟩ := hnext
  exact ⟨w'', D.trans hw hw', by rwa [hstart], by rwa [hstart]⟩

/-- What follows a step is looked at in the machine that the step leaves. -/
theorem KeepsAt.bind {ok : D.World → α → Prop} {ok' : D.World → β → Prop} {computation : Eval α}
    {next : α → Eval β} (h : D.KeepsAt w ok contexts computation m)
    (hnext : ∀ w', D.Later w w' → ∀ a m', ok w' a → D.Sound w' m' →
      D.KeepsAt w' ok' contexts (next a) m') :
    D.KeepsAt w ok' contexts (computation >>= next) m := by
  obtain ⟨w', hw, hsound, hgives⟩ := h
  cases hstart : computation.start contexts m with
  | mk result m' =>
    rw [hstart] at hsound hgives
    cases result with
    | ok a =>
      refine .after ?_ hw (hnext w' hw a m' hgives hsound)
      rw [Eval.start_bind, hstart]
    | error raised =>
      refine .of_error ?_ hw hsound hgives
      rw [Eval.start_bind, hstart]

/-- What is looked up in a machine is still so for the next step. -/
theorem KeepsAt.get {ok : D.World → β → Prop} {next : Machine → Eval β}
    (h : D.KeepsAt w ok contexts (next m) m) :
    D.KeepsAt w ok contexts (MonadState.get >>= next) m := by
  refine .after ?_ (D.refl w) h
  rw [Eval.start_bind, Eval.start_get]

/-! ### Whenever started -/

theorem Keeps.later {ok : D.World → α → Prop} {computation : Eval α}
    (h : D.Keeps w ok computation) (hw : D.Later w w') : D.Keeps w' ok computation :=
  fun w'' hw' => h w'' (D.trans hw hw')

theorem Keeps.at {ok : D.World → α → Prop} {computation : Eval α} (h : D.Keeps w ok computation)
    (hcontexts : D.Admits contexts) (hm : D.Sound w m) : D.KeepsAt w ok contexts computation m :=
  h w (D.refl w) contexts m hcontexts hm

theorem Keeps.pure {ok : D.World → α → Prop} {a : α} (ha : ∀ w', D.Later w w' → ok w' a) :
    D.Keeps w ok (Pure.pure a : Eval α) := fun w' hw _ _ _ hm =>
  .of_ok rfl (D.refl w') hm (ha w' hw)

/-- A value that is given goes on being allowed. -/
theorem Keeps.value {value : Value} (h : D.Allows w value) :
    D.Keeps w D.Allows (Pure.pure value : Eval Value) := .pure fun _ hw => D.later hw h

theorem Keeps.values {values : List Value} (h : D.AllowsAll w values) :
    D.Keeps w D.AllowsAll (Pure.pure values : Eval (List Value)) := .pure fun _ hw => h.later hw

theorem Keeps.done {a : α} : D.Keeps w anything (Pure.pure a : Eval α) := .pure fun _ _ => trivial

theorem Keeps.throw {ok : D.World → α → Prop} {raised : Value} (hraised : D.Allows w raised) :
    D.Keeps w ok (MonadExcept.throw raised : Eval α) := fun w' hw _ _ _ hm =>
  .of_error rfl (D.refl w') hm (D.later hw hraised)

theorem Keeps.get {ok : D.World → β → Prop} {next : Machine → Eval β}
    (h : ∀ w', D.Later w w' → ∀ contexts m, D.Admits contexts → D.Sound w' m →
      D.KeepsAt w' ok contexts (next m) m) :
    D.Keeps w ok (MonadState.get >>= next) := fun w' hw contexts m hcontexts hm =>
  .get (h w' hw contexts m hcontexts hm)

theorem Keeps.modify {change : Machine → Machine}
    (hchange : ∀ w', D.Later w w' → ∀ m, D.Sound w' m → D.Sound w' (change m)) :
    D.Keeps w anything (modify change : Eval PUnit) := fun w' hw _ m _ hm =>
  .of_ok rfl (D.refl w') (hchange w' hw m hm) trivial

theorem Keeps.bind {ok : D.World → α → Prop} {ok' : D.World → β → Prop} {computation : Eval α}
    {next : α → Eval β} (h : D.Keeps w ok computation)
    (hnext : ∀ w', D.Later w w' → ∀ a, ok w' a → D.Keeps w' ok' (next a)) :
    D.Keeps w ok' (computation >>= next) := by
  intro w' hw contexts m hcontexts hm
  refine (h w' hw contexts m hcontexts hm).bind fun w'' hw' a m' ha hm' => ?_
  exact (hnext w'' (D.trans hw hw') a ha).at hcontexts hm'

/-- A result that is not looked at. -/
theorem Keeps.discard {ok : D.World → α → Prop} {computation : Eval α}
    (h : D.Keeps w ok computation) : D.Keeps w anything (Functor.discard computation) :=
  h.bind fun _ _ _ _ => .done

theorem Keeps.tryCatch {ok : D.World → α → Prop} {computation : Eval α} {handler : Value → Eval α}
    (h : D.Keeps w ok computation)
    (hhandler : ∀ w', D.Later w w' → ∀ raised, D.Allows w' raised →
      D.Keeps w' ok (handler raised)) :
    D.Keeps w ok (MonadExcept.tryCatch computation handler) := by
  intro w' hw contexts m hcontexts hm
  obtain ⟨w'', hw', hsound, hgives⟩ := h w' hw contexts m hcontexts hm
  -- What was done before something is raised stays done: the handler starts in that machine.
  cases hstart : computation.start contexts m with
  | mk result m' =>
    rw [hstart] at hsound hgives
    cases result with
    | ok a =>
      refine .of_ok ?_ hw' hsound hgives
      rw [Eval.start_tryCatch, hstart]
    | error raised =>
      refine .after ?_ hw' ((hhandler w'' (D.trans hw hw') raised hgives).at hcontexts hsound)
      rw [Eval.start_tryCatch, hstart]

/-! ### Raising and allocating -/

theorem keeps_raiseText {ok : D.World → α → Prop} (text : String) :
    D.Keeps w ok (raiseText text : Eval α) := .throw (allows_ofText w text)

theorem keeps_readOnly {ok : D.World → α → Prop} (name : String) :
    D.Keeps w ok (refuse (.readOnly name) : Eval α) := by
  intro w' _ contexts m _ hm
  obtain ⟨w'', hw, hsound, hraised⟩ := D.readOnly name hm
  have hstart : (refuse (.readOnly name) : Eval α).start contexts m =
      (.error (.failure m.nextObject (.readOnly name)), m.newObject.2) := rfl
  exact .of_error hstart hw hsound hraised

theorem keeps_allocate {table : Table} (htable : table.Holds (D.Allows w))
    (hbare : table.metatable = none) : D.Keeps w D.Allows (allocate table) := by
  intro w' hw contexts m _ hm
  have hholds : table.Holds (D.Allows w') := fun entry hmem =>
    ⟨D.later hw (htable entry hmem).1, D.later hw (htable entry hmem).2⟩
  have hnone : ∀ other, table.metatable = some other → D.Allows w' (.table other) := by
    rw [hbare]
    exact nofun
  obtain ⟨hsound, hallowed⟩ := D.newTable hm hholds hnone
  exact .of_ok rfl (D.refl w') hsound hallowed

end Discipline

end EventBridge.Script
