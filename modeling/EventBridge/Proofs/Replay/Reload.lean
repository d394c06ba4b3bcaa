import EventBridge.Proofs.Dispatch.Reload
import EventBridge.Proofs.Replay.Stages

/-! # Reading a script again in the course of a replay

  A replay has to do with the dispatcher in use by dispatches alone, and to read the script again
  has to do with nothing else of a replay. So what was said of dispatchers in use carries over:
  after a failed attempt a replay goes on as if there had been none, and after one that succeeds as
  with a dispatcher that has never run another script.

  * `apply_against`, `runLine_against` and `runLinesWith_against` run a replay with a dispatcher
    that is like the one that it has.
  * `Indistinct` replays cannot be told apart by anything that comes later.
-/

namespace EventBridge.Replay

open Dispatch (Dispatcher Shared)
open Trace (Event)

/-- A replay with another dispatcher in use. -/
def against (replay : Replay) (shared : Shared) : Replay := { replay with shared := shared }

variable {replay : Replay} {shared : Shared}

/-- An event comes to the same. -/
theorem apply_against (h : replay.shared.Alike shared) (event : Event) :
    ∃ after, (replay.apply event).2.1.shared.Alike after ∧
      (replay.against shared).apply event =
        ((replay.apply event).1, (replay.apply event).2.1.against after,
          (replay.apply event).2.2) := by
  have hscene : (replay.against shared).scene = replay.scene := rfl
  rw [apply_eq_follow, apply_eq_follow, hscene]
  cases replay.scene.course event with
  | rejected cause => exact ⟨shared, h, rfl⟩
  | silent after lines => exact ⟨shared, h, rfl⟩
  | call occurrence through failed lines =>
    obtain ⟨after, hafter, hdispatch⟩ := h.dispatch occurrence
    unfold Course.follow
    dsimp only [against]
    rw [hdispatch]
    generalize replay.shared.dispatch occurrence = dispatched at hafter ⊢
    obtain ⟨cause | outcome, shared', more⟩ := dispatched
    · exact ⟨after, hafter, rfl⟩
    · exact ⟨after, hafter, rfl⟩

theorem runEvent_against (h : replay.shared.Alike shared) (number : Nat) (event : Event) :
    ∃ after, (replay.runEvent number event).2.1.shared.Alike after ∧
      (replay.against shared).runEvent number event =
        ((replay.runEvent number event).1, (replay.runEvent number event).2.1.against after,
          (replay.runEvent number event).2.2) := by
  obtain ⟨after, hafter, happly⟩ := apply_against h event
  unfold runEvent
  dsimp only
  rw [happly]
  generalize replay.apply event = applied at hafter ⊢
  obtain ⟨(_ | _ | _ | _) | (_ | _), between, lines⟩ := applied <;> exact ⟨after, hafter, rfl⟩

/-- A line comes to the same. -/
theorem runLine_against (h : replay.shared.Alike shared) (number : Nat) (line : List UInt8) :
    ∃ after, (replay.runLine number line).2.1.shared.Alike after ∧
      (replay.against shared).runLine number line =
        ((replay.runLine number line).1, (replay.runLine number line).2.1.against after,
          (replay.runLine number line).2.2) := by
  rw [runLine_eq, runLine_eq]
  cases Reading.of line with
  | noText => exact ⟨shared, h, rfl⟩
  | blank => exact ⟨shared, h, rfl⟩
  | noEvent cause => exact ⟨shared, h, rfl⟩
  | event event =>
    have hcounting : replay.counting.shared.Alike shared := h
    exact runEvent_against hcounting number event

/-- Lines come to the same, and report the same. -/
theorem runLines_against (h : replay.shared.Alike shared) (number : Nat)
    (lines : List (List UInt8)) :
    ∃ after, (replay.runLines number lines).2.1.shared.Alike after ∧
      (replay.against shared).runLines number lines =
        ((replay.runLines number lines).1, (replay.runLines number lines).2.1.against after,
          (replay.runLines number lines).2.2) := by
  induction lines generalizing replay shared number with
  | nil => exact ⟨shared, h, rfl⟩
  | cons line lines ih =>
    obtain ⟨between, hbetween, hline⟩ := runLine_against h number line
    unfold runLines
    dsimp only
    rw [hline]
    generalize replay.runLine number line = first at hbetween ⊢
    obtain ⟨cause | _, next, reports⟩ := first
    · exact ⟨between, hbetween, rfl⟩
    · obtain ⟨after, hafter, hlines⟩ := ih hbetween (number + 1)
      dsimp only
      rw [hlines]
      generalize next.runLines (number + 1) lines = rest at hafter ⊢
      exact ⟨after, hafter, rfl⟩

/-- Requests leave alike what was alike. -/
theorem reloaded_alike {shared shared' : Shared} (h : shared.Alike shared')
    (requests : List Request) : (reloaded shared requests).Alike (reloaded shared' requests) := by
  unfold reloaded
  induction requests generalizing shared shared' with
  | nil => exact h
  | cons request requests ih =>
    obtain ⟨after, hafter, hreload⟩ := h.reload request.scripting request.tree
    have hserve : request.serve shared' = after := by
      unfold Request.serve
      rw [hreload]
    rw [List.foldl_cons, List.foldl_cons, hserve]
    exact ih hafter

/-- Lines with requests before them come to the same. -/
theorem runLinesWith_against (requests : Nat → List Request) (h : replay.shared.Alike shared)
    (number : Nat) (lines : List (List UInt8)) :
    ∃ after, (runLinesWith requests replay number lines).2.shared.Alike after ∧
      runLinesWith requests (replay.against shared) number lines =
        ((runLinesWith requests replay number lines).1,
          (runLinesWith requests replay number lines).2.against after) := by
  induction lines generalizing replay shared number with
  | nil => exact ⟨shared, h, rfl⟩
  | cons line lines ih =>
    have hreloaded : (replay.reloading (requests number)).shared.Alike
        (reloaded shared (requests number)) := reloaded_alike h (requests number)
    obtain ⟨between, hbetween, hline⟩ := runLine_against hreloaded number line
    have hreloading : (replay.against shared).reloading (requests number) =
        (replay.reloading (requests number)).against (reloaded shared (requests number)) := rfl
    unfold runLinesWith
    rw [hreloading, hline]
    generalize (replay.reloading (requests number)).runLine number line = first at hbetween ⊢
    obtain ⟨cause | _, next, reports⟩ := first
    · exact ⟨between, hbetween, rfl⟩
    · exact ih hbetween (number + 1)

/-! ### Replays that cannot be told apart -/

/-- Whatever comes next, with whatever requests between: the runs end alike, and with the same
    connections, engine and counts; the same can be looked at in the dispatchers after them. -/
structure Indistinct (replay replay' : Replay) : Prop where
  result : ∀ requests number lines,
    (runLinesWith requests replay' number lines).1 = (runLinesWith requests replay number lines).1
  scene : ∀ requests number lines,
    (runLinesWith requests replay' number lines).2.scene =
      (runLinesWith requests replay number lines).2.scene
  stats : ∀ requests number lines,
    (runLinesWith requests replay' number lines).2.stats =
      (runLinesWith requests replay number lines).2.stats
  view : ∀ requests number lines,
    (runLinesWith requests replay' number lines).2.shared.dispatcher.view =
      (runLinesWith requests replay number lines).2.shared.dispatcher.view
  /-- Without requests, what is reported of the run. -/
  reports : ∀ number lines,
    (replay'.runLines number lines).2.2 = (replay.runLines number lines).2.2

theorem indistinct_against (h : replay.shared.Alike shared) :
    replay.Indistinct (replay.against shared) where
  result := by
    intro requests number lines
    obtain ⟨_, -, hrun⟩ := runLinesWith_against requests h number lines
    rw [hrun]
  scene := by
    intro requests number lines
    obtain ⟨_, -, hrun⟩ := runLinesWith_against requests h number lines
    rw [hrun]
    rfl
  stats := by
    intro requests number lines
    obtain ⟨_, -, hrun⟩ := runLinesWith_against requests h number lines
    rw [hrun]
    rfl
  view := by
    intro requests number lines
    obtain ⟨_, hafter, hrun⟩ := runLinesWith_against requests h number lines
    rw [hrun]
    exact hafter.view
  reports := by
    intro number lines
    obtain ⟨_, -, hrun⟩ := runLines_against h number lines
    rw [hrun]

/-- To read the script again fails exactly if no dispatcher can be built from the file, and then the
    dispatcher in use stays and nothing that comes later tells that it was tried. If it succeeds,
    nothing that comes later tells the dispatcher in use from one that was built from the file, with
    any number for its table of contexts. Neither changes the scene or the counts of a replay. -/
theorem reload_all_or_nothing (replay : Replay) (request : Request) (number : Nat) :
    let built := (Dispatcher.build request.scripting (.file request.tree) number).1
    let after := replay.reloading [request]
    (replay.shared.reload request.scripting request.tree).1 = built.map (fun _ => ()) ∧
      after.scene = replay.scene ∧ after.stats = replay.stats ∧
      match built with
      | .error _ =>
        after.shared.dispatcher = replay.shared.dispatcher ∧
          replay.shared.Indistinct after.shared ∧ replay.Indistinct after
      | .ok fresh =>
        ∀ next, Shared.Indistinct ⟨fresh, next⟩ after.shared ∧
          (replay.against ⟨fresh, next⟩).Indistinct after := by
  have hafter : replay.reloading [request] =
      replay.against (replay.shared.reload request.scripting request.tree).2.1 := rfl
  dsimp only
  rw [hafter]
  cases hbuilt : (Dispatcher.build request.scripting (.file request.tree) number).1 with
  | error e =>
    obtain ⟨hresult, hsame⟩ := replay.shared.reload_of_error hbuilt
    generalize replay.shared.reload request.scripting request.tree = reloaded at hresult hsame ⊢
    have halike := Shared.Alike.of_dispatcher_eq hsame
    exact ⟨hresult, rfl, rfl, hsame, halike.indistinct, indistinct_against halike⟩
  | ok fresh =>
    obtain ⟨hresult, halike⟩ := replay.shared.reload_of_ok hbuilt
    generalize replay.shared.reload request.scripting request.tree = reloaded at hresult halike ⊢
    refine ⟨hresult, rfl, rfl, fun next => ⟨(halike next).indistinct, ?_⟩⟩
    have hagainst : (replay.against ⟨fresh, next⟩).shared.Alike reloaded.2.1 := halike next
    exact indistinct_against hagainst

end EventBridge.Replay
