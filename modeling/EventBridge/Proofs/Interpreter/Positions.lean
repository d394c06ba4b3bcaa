import EventBridge.Proofs.Interpreter.Exec

/-! # Positions on the evaluation stack

  An index takes a stack apart into the value that it stands for and those below and above.

  * `Names` is what an index stands for, and `OutOfRange` when it stands for nothing.
  * The operations that go by an index act on that value, without arithmetic: `exec_peek_of_names`
    and `exec_remove_of_names`.
-/

namespace EventBridge.Host

open Script (Value)

/-! ### What an index stands for -/

/-- An index stands for a value of a stack: counted from `1` at the bottom, or from `-1` at the
    top. -/
structure Names (index : Int32) (stack below : List Value) (value : Value) (above : List Value) :
    Prop where
  stack : stack = below ++ value :: above
  index : index.toInt = below.length + 1 ∨ index.toInt = -(above.length + 1)

/-- An index stands for no value: it is zero, or counts further than the stack goes. -/
def OutOfRange (index : Int32) (stack : List Value) : Prop :=
  index.toInt = 0 ∨ stack.length < index.toInt.natAbs

variable {index : Int32} {stack below above : List Value} {value : Value}

theorem Names.not_outOfRange (h : Names index stack below value above) :
    ¬ OutOfRange index stack := by
  have hlength : stack.length = below.length + (above.length + 1) := by
    rw [h.stack, List.length_append, List.length_cons]
  have hindex := h.index
  unfold OutOfRange
  omega

theorem exists_names (h : ¬ OutOfRange index stack) :
    ∃ below value above, Names index stack below value above := by
  unfold OutOfRange at h
  -- The place from the bottom is where the stack is taken apart.
  obtain ⟨place, hplace, hindex⟩ : ∃ place, place < stack.length ∧
      (index.toInt = place + 1 ∨ index.toInt = -(stack.length - place : Int)) := by
    by_cases hpos : 0 < index.toInt
    · exact ⟨index.toInt.toNat - 1, by omega, by omega⟩
    · exact ⟨stack.length - index.toInt.natAbs, by omega, by omega⟩
  refine ⟨stack.take place, stack[place], stack.drop (place + 1), ?_, ?_⟩
  · rw [List.getElem_cons_drop, List.take_append_drop]
  · rw [List.length_take, List.length_drop]
    omega

theorem stackPlace_of_names (h : Names index stack below value above) :
    stackPlace stack.length index = .ok below.length := by
  have hlength : stack.length = below.length + (above.length + 1) := by
    rw [h.stack, List.length_append, List.length_cons]
  have hindex := h.index
  unfold stackPlace
  dsimp only
  by_cases hpos : 0 < index.toInt
  · rw [if_pos hpos, if_pos (by omega)]
    exact congrArg Except.ok (by omega)
  · rw [if_neg hpos, if_pos (by omega), if_pos (by omega)]
    exact congrArg Except.ok (by omega)

theorem stackPlace_of_outOfRange (h : OutOfRange index stack) :
    stackPlace stack.length index = .error (.badIndex index) := by
  unfold OutOfRange at h
  unfold stackPlace
  dsimp only
  by_cases hpos : 0 < index.toInt
  · rw [if_pos hpos, if_neg (by omega)]
  · by_cases hneg : index.toInt < 0
    · rw [if_neg hpos, if_pos hneg, if_neg (by omega)]
    · rw [if_neg hpos, if_neg hneg]

theorem Names.getD (h : Names index stack below value above) :
    stack.getD below.length .nil = value := by
  rw [h.stack, List.getD_eq_getElem?_getD, List.getElem?_append_right (Nat.le_refl _), Nat.sub_self]
  rfl

theorem Names.eraseIdx (h : Names index stack below value above) :
    stack.eraseIdx below.length = below ++ above := by
  rw [h.stack, List.eraseIdx_append_of_length_le (Nat.le_refl _), Nat.sub_self]
  rfl

theorem names_top (below : List Value) (value : Value) :
    Names (-1) (below ++ [value]) below value [] := ⟨rfl, .inr rfl⟩

theorem names_second (below : List Value) (value other : Value) :
    Names (-2) (below ++ [value, other]) below value [other] := ⟨rfl, .inr rfl⟩

theorem Names.unique {below' above' : List Value} {value' : Value}
    (h : Names index stack below value above) (h' : Names index stack below' value' above') :
    below = below' ∧ value = value' ∧ above = above' := by
  have hplace := (stackPlace_of_names h).symm.trans (stackPlace_of_names h')
  have hstack := h.stack.symm.trans h'.stack
  obtain ⟨hbelow, hrest⟩ := List.append_inj hstack (Except.ok.inj hplace)
  obtain ⟨hvalue, habove⟩ := List.cons.inj hrest
  exact ⟨hbelow, hvalue, habove⟩

/-! ### Operations -/

variable {i : Interpreter}

theorem exec_peek_of_names (h : Names index i.stack below value above) :
    exec (peek index) i = (.ok value, i) := by
  rw [exec_peek, stackPlace_of_names h]
  exact congrArg (fun found => (Except.ok found, i)) h.getD

theorem exec_peek_of_outOfRange (h : OutOfRange index i.stack) :
    exec (peek index) i = (.error (.stack (.badIndex index)), i) := by
  rw [exec_peek, stackPlace_of_outOfRange h]
  rfl

theorem exec_remove_of_names (h : Names index i.stack below value above) :
    exec (remove index) i = (.ok value, { i with stack := below ++ above }) := by
  rw [exec_remove, stackPlace_of_names h]
  dsimp only
  rw [h.getD, h.eraseIdx]

section Top

variable {base : List Value} {top : Value} (hstack : i.stack = base ++ [top])

include hstack

theorem exec_peek_top : exec (peek (-1)) i = (.ok top, i) :=
  exec_peek_of_names (hstack ▸ names_top base top)

theorem exec_isNil_top : exec (isNil (-1)) i = (.ok (decide (top = .nil)), i) := by
  rw [isNil, exec_bind, exec_peek_top hstack]
  rfl

theorem exec_pop_one : exec (pop 1) i = (.ok (), { i with stack := base }) := by
  rw [exec_pop, hstack, List.length_append, List.length_singleton, if_neg (by omega),
    Nat.add_sub_cancel, List.take_left]

end Top

/-- Taking out the value below the top one. -/
theorem exec_remove_second {base : List Value} {value other : Value}
    (hstack : i.stack = base ++ [value, other]) :
    exec (remove (-2)) i = (.ok value, { i with stack := base ++ [other] }) :=
  exec_remove_of_names (hstack ▸ names_second base value other)

end EventBridge.Host
