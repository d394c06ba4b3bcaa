import EventBridge.Proofs.Dispatch.Balance
import EventBridge.Proofs.Dispatch.Lifetime
import EventBridge.Proofs.Handle.Growth

/-! # The table of a dispatcher stays small

  A dispatch puts one context into the table and takes it out again. So the table of a dispatcher
  has the history of a table in which no two things are ever live at once, and never needs a second
  slot.

  * `Sequential` is such a history, and `sequential_reverts` what a dispatch adds to it.
  * `Life.Kept.reverts` says that a step of a life does no more to the table than that.
-/

namespace EventBridge.Dispatch

open Engine (Live)
open HandleTable (Change History)
open Host (exec)

/-- One thing after the other was put into a table, and no two were live at once. -/
structure Sequential (own : Nat) (changes : List (Change Live)) : Prop where
  idle : (History.run own changes).table.live = 0
  atMostOne : ∀ live ∈ History.everLive own changes, live ≤ 1

theorem sequential_nil (own : Nat) : Sequential own [] where
  idle := rfl
  atMostOne := by
    intro live hmem
    rw [History.everLive_nil] at hmem
    obtain rfl := hmem
    exact Nat.zero_le 1

/-- What a dispatch does to a table of contexts is part of such a history. -/
theorem sequential_reverts {own : Nat} {changes : List (Change Live)}
    (h : Sequential own changes) {contexts : Script.Contexts}
    (hreverts : Reverts (some (History.run own changes).table) contexts) :
    ∃ changes', contexts = some (History.run own changes').table ∧
      Sequential own changes' := by
  generalize hbefore : some (History.run own changes).table = before at hreverts
  cases hreverts with
  | same => exact ⟨changes, hbefore.symm, h⟩
  | released table live =>
    obtain rfl := Option.some.inj hbefore
    -- The one context that is live in between is the only one.
    have hone : ((History.run own changes).table.insert live).2.live = 1 := by
      rw [HandleTable.live_insert, h.idle]
    have hnone := HandleTable.live_release_of_resolve_ok
      ((History.run own changes).table.resolve_insert live)
    rw [hone, Nat.add_eq_right] at hnone
    refine ⟨changes ++ [.insert live] ++
      [.release ((History.run own changes).table.insert live).1], ?_, ?_, ?_⟩
    · rw [History.run_concat, History.run_concat]
      rfl
    · rw [History.run_concat, History.run_concat]
      exact hnone
    · intro n hmem
      rw [History.everLive_concat, History.everLive_concat, History.run_concat] at hmem
      rcases hmem with rfl | rfl | hmem
      · exact hnone.trans_le (Nat.zero_le 1)
      · exact Nat.le_of_eq hone
      · exact h.atMostOne n hmem

/-- Such a history needs one slot. -/
theorem Sequential.slots_le_one {own : Nat} {changes earlier : List (Change Live)}
    (h : Sequential own changes) (hearlier : earlier <+: changes) :
    (History.run own earlier).table.slots.length ≤ 1 := by
  -- The size is a number of contexts that were live at once.
  obtain ⟨before, hbefore, hlive⟩ := (History.isGreatest_everLive own earlier).1
  rw [← hlive]
  exact h.atMostOne _ ⟨before, hbefore.trans hearlier, rfl⟩

namespace Life

/-- Loading more code and handing out handles leaves the table of contexts alone, and a dispatch
    leaves no context in it. -/
theorem Kept.reverts {life : Life} {table : HandleTable Live} (h : life.Kept table)
    (next : Step) :
    ∃ table', (life.step next).Kept table' ∧ Reverts (some table) (some table') := by
  cases next with
  | dispatch occurrence =>
    obtain ⟨⟨table', h'⟩, -⟩ := h.dispatch occurrence
    have hreverts :=
      (invoke_cases occurrence { life.dispatcher.interpreter with lines := [] }).2
    have hafter : (exec (invoke occurrence)
        { life.dispatcher.interpreter with lines := [] }).2.contexts = some table' := by
      rw [← h'.among.contexts, Life.step, dispatch_interpreter]
    rw [hafter] at hreverts
    refine ⟨table', h', ?_⟩
    rw [← h.among.contexts]
    exact hreverts
  | evaluate source => exact ⟨table, (h.evaluate source).1, .same _⟩
  | give name handle => exact ⟨table, (h.give name handle).1, .same _⟩

/-- After any number of steps, the table of contexts has such a history. -/
theorem Kept.sequential {life : Life} {own : Nat} {changes : List (Change Live)}
    (h : life.Kept (History.run own changes).table) (hsequential : Sequential own changes)
    (steps : List Step) :
    ∃ changes', (life.run steps).Kept (History.run own changes').table ∧
      Sequential own changes' := by
  induction steps generalizing life changes with
  | nil => exact ⟨changes, h, hsequential⟩
  | cons next steps ih =>
    obtain ⟨table', h', hreverts⟩ := h.reverts next
    obtain ⟨changes', htable, hsequential'⟩ := sequential_reverts hsequential hreverts
    obtain rfl := Option.some.inj htable
    exact ih h' hsequential'

/-- A table of handles is as large as the most that it has held at once, whatever was put in and
    released. The table of a dispatcher has a history in which that is one context, and so it never
    has more than one slot, however many events there are. -/
theorem tables_do_not_grow_with_use :
    (∀ (α : Type) (id : Nat) (changes : List (Change α)), History.Compact id changes) ∧
    ∀ (scripting : Config.Scripting) (source : Source) (own : Nat),
      (∀ d, (Dispatcher.build scripting source own).1 = .ok d →
        (begin scripting source own).dispatcher = d) ∧
      ∀ steps : List Step, ∃ changes : List (Change Live),
        ((begin scripting source own).run steps).dispatcher.interpreter.contexts =
          some (History.run own changes).table ∧
        ∀ earlier, earlier <+: changes →
          (History.run own earlier).table.slots.length ≤ 1 := by
  refine ⟨fun α => History.compact, ?_⟩
  intro scripting source own
  refine ⟨fun d => dispatcher_begin, ?_⟩
  intro steps
  -- A script is loaded with a table in which nothing has been put.
  have hbegin : (begin scripting source own).Kept (History.run own []).table :=
    (kept_begin scripting source own).1
  obtain ⟨changes, hkept, hsequential⟩ := hbegin.sequential (sequential_nil own) steps
  exact ⟨changes, hkept.among.contexts, fun earlier => hsequential.slots_le_one⟩

end Life

end EventBridge.Dispatch
