import EventBridge.Script.Fault

/-! # Running a computation of a script, step by step

  `Eval.start` as equations, one for each way to put a computation together. A machine is carried
  from each step to the next, also where the step raises; the contexts stay as they are.
-/

namespace EventBridge.Script.Eval

variable {α β : Type} (contexts : Contexts) (m : Machine)

@[simp] theorem start_pure (a : α) : start (pure a) contexts m = (.ok a, m) := rfl

@[simp] theorem start_throw (raised : Value) :
    start (throw raised : Eval α) contexts m = (.error raised, m) := rfl

@[simp] theorem start_get : start (get : Eval Machine) contexts m = (.ok m, m) := rfl

@[simp] theorem start_set (m' : Machine) :
    start (set m' : Eval PUnit) contexts m = (.ok (), m') := rfl

@[simp] theorem start_modify (change : Machine → Machine) :
    start (modify change : Eval PUnit) contexts m = (.ok (), change m) := rfl

@[simp] theorem start_read : start (read : Eval Contexts) contexts m = (.ok contexts, m) := rfl

/-- What follows a step goes on from its result, unless the step raises. -/
theorem start_bind (computation : Eval α) (next : α → Eval β) :
    start (computation >>= next) contexts m =
      match start computation contexts m with
      | (.ok a, m) => start (next a) contexts m
      | (.error raised, m) => (.error raised, m) := by
  cases hrun : start computation contexts m with
  | mk result m' =>
    unfold start at hrun ⊢
    simp only [bind, ReaderT.bind, ReaderT.run, ExceptT.bind, ExceptT.mk, ExceptT.run, StateT.bind,
      StateT.run] at hrun ⊢
    rw [hrun]
    cases result <;> rfl

theorem start_map (f : α → β) (computation : Eval α) :
    start (f <$> computation) contexts m =
      match start computation contexts m with
      | (.ok a, m) => (.ok (f a), m)
      | (.error raised, m) => (.error raised, m) := by
  rw [map_eq_pure_bind, start_bind]
  simp only [start_pure]

/-- What a step raises is handed to the handler, with the machine as the step has left it. -/
theorem start_tryCatch (computation : Eval α) (handler : Value → Eval α) :
    start (tryCatch computation handler) contexts m =
      match start computation contexts m with
      | (.ok a, m) => (.ok a, m)
      | (.error raised, m) => start (handler raised) contexts m := by
  cases hrun : start computation contexts m with
  | mk result m' =>
    unfold start at hrun ⊢
    simp only [tryCatch, tryCatchThe, MonadExceptOf.tryCatch, ReaderT.run, ExceptT.tryCatch,
      ExceptT.mk, ExceptT.run, bind, StateT.bind, StateT.run] at hrun ⊢
    rw [hrun]
    cases result <;> rfl

/-! ### What the host gets -/

variable {contexts m} {m' : Machine} {computation : Eval α}

theorem toHost_of_ok {a : α} (h : start computation contexts m = (.ok a, m')) :
    computation.toHost contexts m = (.ok a, m') := by
  unfold toHost
  rw [h]

/-- A raised value becomes a fault, and script code can run for that. -/
theorem toHost_of_error {raised : Value} (h : start computation contexts m = (.error raised, m')) :
    computation.toHost contexts m = (.error (faultOf contexts faultLimit raised m').1,
      (faultOf contexts faultLimit raised m').2) := by
  unfold toHost
  rw [h]

end EventBridge.Script.Eval
