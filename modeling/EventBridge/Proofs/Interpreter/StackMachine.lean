import EventBridge.Proofs.Interpreter.Positions
import Mathlib.Control.Monad.Basic

/-! # The evaluation stack as a machine

  What the operations of the host do to the stack, without arithmetic: a stack is taken apart into
  the values that an operation names and those below and above.

  * `Step` has what an operation comes to, one constructor for each way in which it can end.
    `exec_eq_iff_step` says that it is what the operation does.
  * An operation that fails takes nothing off the stack, apart from two that need their values
    before they can fail (`Operation.lost`), and none touches what is below the values that it names
    (`Operation.Spares`).
  * `Steps` goes through operations one after the other, also behind one that fails.
-/

namespace EventBridge.Host

open Script (Fault Machine Value)

/-! ### Results of calls -/

/-- What a call leaves of the values that it has returned. -/
inductive Leaves (returned : List Value) : ResultCount → List Value → Prop where
  | all : Leaves returned .all returned
  /-- Too many are cut. -/
  | cut {kept rest : List Value} : returned = kept ++ rest →
    Leaves returned (.fixed kept.length) kept
  /-- Too few are filled up with nil. -/
  | filled (missing : Nat) :
    Leaves returned (.fixed (returned.length + missing)) (returned ++ List.replicate missing .nil)

theorem Leaves.take {returned kept : List Value} {results : ResultCount}
    (h : Leaves returned results kept) : results.take returned = kept := by
  cases h with
  | all => rfl
  | cut hreturned =>
    subst hreturned
    simp [ResultCount.take]
  | filled missing => simp [ResultCount.take, List.take_of_length_le]

theorem leaves_take (returned : List Value) (results : ResultCount) :
    Leaves returned results (results.take returned) := by
  cases results with
  | all => exact .all
  | fixed count =>
    by_cases hcount : count ≤ returned.length
    · have hkept : ResultCount.take returned (.fixed count) = returned.take count := by
        simp [ResultCount.take, Nat.sub_eq_zero_of_le hcount]
      have hlength : (returned.take count).length = count := by
        rw [List.length_take]
        omega
      have hcut := Leaves.cut (List.take_append_drop count returned).symm
      rwa [hlength, ← hkept] at hcut
    · have hfilled := @Leaves.filled returned (count - returned.length)
      rw [Nat.add_sub_cancel' (by omega)] at hfilled
      rwa [show ResultCount.take returned (.fixed count) =
        returned ++ List.replicate (count - returned.length) .nil by
          rw [ResultCount.take, List.take_of_length_le (by omega)]]

/-! ### Operations -/

/-- What an operation gives back. -/
inductive Reply where
  | done
  | value (value : Value)
  | truth (truth : Bool)
  | count (count : Nat)
  deriving DecidableEq

/-- An operation on the stack. -/
inductive Operation where
  | pushNil
  | pushInteger (n : Int64)
  | pushText (text : String)
  | pushBytes (bytes : ByteArray)
  | pushHeaders (headers : Http.Headers)
  | pushHandle (handle : Handle)
  /-- A value that the host has at hand. -/
  | push (value : Value)
  | pop (count : Nat)
  | popValue
  | truncate (count : Nat)
  | depth
  | peek (index : Int32)
  | isNil (index : Int32)
  | remove (index : Int32)
  | getField (index : Int32) (name : String)
  | getGlobal (name : String)
  | setGlobal (name : String)
  | call (arguments : UInt64) (results : ResultCount)

namespace Operation

/-- Carries the operation out. -/
def run : Operation → Host Reply
  | .pushNil => Host.pushNil >>= done
  | .pushInteger n => Host.pushInteger n >>= done
  | .pushText text => Host.pushText text >>= done
  | .pushBytes bytes => Host.pushBytes bytes >>= done
  | .pushHeaders headers => Host.pushHeaders headers >>= done
  | .pushHandle handle => Host.pushHandle handle >>= done
  | .push value => Host.push value >>= done
  | .pop count => Host.pop count >>= done
  | .popValue => return .value (← Host.popValue)
  | .truncate count => Host.truncate count >>= done
  | .depth => return .count (← Host.depth)
  | .peek index => return .value (← Host.peek index)
  | .isNil index => return .truth (← Host.isNil index)
  | .remove index => return .value (← Host.remove index)
  | .getField index name => Host.getField index name >>= done
  | .getGlobal name => Host.getGlobal name >>= done
  | .setGlobal name => Host.setGlobal name >>= done
  | .call arguments results => Host.call arguments results >>= done
where
  done : Unit → Host Reply := fun _ => return .done

/-- The index that an operation takes. -/
def index? : Operation → Option Int32
  | .peek index | .isNil index | .remove index | .getField index _ => some index
  | _ => none

/-- A number of arguments is not so great that one more is none. -/
def Bounded : Operation → Prop
  | .call arguments _ => arguments.toNat + 1 < UInt64.size
  | _ => True

/-- What lies below the values that an operation names. -/
def Spares (stack below : List Value) : Operation → Prop
  | .pop count => ∃ named, stack = below ++ named ∧ named.length = count
  | .popValue | .setGlobal _ => ∃ value, stack = below ++ [value]
  | .truncate count => stack.take count = below
  | .peek index | .isNil index | .remove index | .getField index _ =>
    ∃ value above, Names index stack below value above
  | .call arguments _ =>
    ∃ callee values, stack = below ++ callee :: values ∧ values.length = arguments.toNat
  | _ => stack = below

/-- How many values an operation takes off a stack of a depth even if it fails. -/
def lost (depth : Nat) : Operation → Nat
  | .setGlobal _ => min 1 depth
  | .call arguments _ => if arguments.toNat < depth then arguments.toNat + 1 else 0
  | _ => 0

end Operation

/-- What script code comes to that an interpreter runs, and the machine after it. -/
def Ran {α : Type} (i : Interpreter) (computation : Script.Eval α) (result : Except Fault α)
    (machine : Machine) : Prop :=
  computation.toHost i.contexts i.machine = (result, machine)

/-- What an operation comes to, and the interpreter after it. -/
inductive Step (i : Interpreter) : Operation → Except BridgeError Reply → Interpreter → Prop where
  | pushNil : Step i .pushNil (.ok .done) { i with stack := i.stack ++ [.nil] }
  | pushInteger {n : Int64} :
    Step i (.pushInteger n) (.ok .done) { i with stack := i.stack ++ [.integer n] }
  | pushText {text : String} :
    Step i (.pushText text) (.ok .done) { i with stack := i.stack ++ [Value.ofText text] }
  | push {value : Value} :
    Step i (.push value) (.ok .done) { i with stack := i.stack ++ [value] }
  | pushBytes {bytes : ByteArray} : bytes.size ≤ i.limits.payloadBytes →
    Step i (.pushBytes bytes) (.ok .done) { i with stack := i.stack ++ [.string bytes] }
  | pushBytesTooLarge {bytes : ByteArray} : i.limits.payloadBytes < bytes.size →
    Step i (.pushBytes bytes)
      (.error (.stack (.payloadTooLarge bytes.size i.limits.payloadBytes))) i
  | pushHeaders {headers : Http.Headers} : headers.size ≤ i.limits.tableEntries →
    Step i (.pushHeaders headers) (.ok .done) { i with
      machine := (i.machine.newTable (headerTable headers)).2
      stack := i.stack ++ [.table i.machine.tables.size] }
  | pushHeadersTooLarge {headers : Http.Headers} : i.limits.tableEntries < headers.size →
    Step i (.pushHeaders headers)
      (.error (.stack (.tableTooLarge headers.size i.limits.tableEntries))) i
  | pushHandle {handle : Handle} :
    Step i (.pushHandle handle) (.ok .done) { i with
      machine := i.machine.newObject.2
      stack := i.stack ++ [.handle i.machine.nextObject handle] }
  | pop {below named : List Value} : i.stack = below ++ named →
    Step i (.pop named.length) (.ok .done) { i with stack := below }
  | popTooMany {count : Nat} : i.stack.length < count →
    Step i (.pop count) (.error (.stack (.underflow count i.stack.length))) i
  | popValue {below : List Value} {value : Value} : i.stack = below ++ [value] →
    Step i .popValue (.ok (.value value)) { i with stack := below }
  | popValueOfNone : i.stack = [] → Step i .popValue (.error (.stack (.underflow 1 0))) i
  | truncate {below above : List Value} : i.stack = below ++ above →
    Step i (.truncate below.length) (.ok .done) { i with stack := below }
  | truncateNothing {count : Nat} : i.stack.length ≤ count → Step i (.truncate count) (.ok .done) i
  | depth : Step i .depth (.ok (.count i.stack.length)) i
  /-- An index that stands for nothing is refused by every operation that takes one. -/
  | badIndex {op : Operation} {index : Int32} : op.index? = some index → OutOfRange index i.stack →
    Step i op (.error (.stack (.badIndex index))) i
  | peek {index : Int32} {below above : List Value} {value : Value} :
    Names index i.stack below value above → Step i (.peek index) (.ok (.value value)) i
  | isNil {index : Int32} {below above : List Value} {value : Value} :
    Names index i.stack below value above →
    Step i (.isNil index) (.ok (.truth (decide (value = .nil)))) i
  | remove {index : Int32} {below above : List Value} {value : Value} :
    Names index i.stack below value above →
    Step i (.remove index) (.ok (.value value)) { i with stack := below ++ above }
  | getField {index : Int32} {name : String} {below above : List Value} {id : Nat} {value : Value}
      {machine : Machine} :
    Names index i.stack below (.table id) above →
    Ran i (Script.readField Script.call (Value.ofText name) Script.chainLimit (.table id))
      (.ok value) machine →
    Step i (.getField index name) (.ok .done)
      { i with machine := machine, stack := i.stack ++ [value] }
  | getFieldRaises {index : Int32} {name : String} {below above : List Value} {id : Nat}
      {fault : Fault} {machine : Machine} :
    Names index i.stack below (.table id) above →
    Ran i (Script.readField Script.call (Value.ofText name) Script.chainLimit (.table id))
      (.error fault) machine →
    Step i (.getField index name) (.error (.stack (.interpreter fault)))
      { i with machine := machine }
  | getFieldOfOther {index : Int32} {name : String} {below above : List Value} {value : Value} :
    Names index i.stack below value above → (∀ id, value ≠ .table id) →
    Step i (.getField index name) (.error (.stack (.notATable index value.kind))) i
  | getGlobal {name : String} {value : Value} {machine : Machine} :
    Ran i (Script.readGlobal Script.call name.toUTF8) (.ok value) machine →
    Step i (.getGlobal name) (.ok .done) { i with machine := machine, stack := i.stack ++ [value] }
  | getGlobalRaises {name : String} {fault : Fault} {machine : Machine} :
    Ran i (Script.readGlobal Script.call name.toUTF8) (.error fault) machine →
    Step i (.getGlobal name) (.error (.stack (.interpreter fault))) { i with machine := machine }
  | setGlobal {name : String} {below : List Value} {value : Value} {machine : Machine} :
    i.stack = below ++ [value] →
    Ran i (Script.writeGlobal Script.call name.toUTF8 value) (.ok ()) machine →
    Step i (.setGlobal name) (.ok .done) { i with machine := machine, stack := below }
  /-- The value that cannot be stored is gone. -/
  | setGlobalRaises {name : String} {below : List Value} {value : Value} {fault : Fault}
      {machine : Machine} :
    i.stack = below ++ [value] →
    Ran i (Script.writeGlobal Script.call name.toUTF8 value) (.error fault) machine →
    Step i (.setGlobal name) (.error (.stack (.interpreter fault)))
      { i with machine := machine, stack := below }
  | setGlobalOfNone {name : String} : i.stack = [] →
    Step i (.setGlobal name) (.error (.stack (.underflow 1 0))) i
  | call {arguments : UInt64} {results : ResultCount} {below values returned kept : List Value}
      {callee : Value} {machine : Machine} :
    i.stack = below ++ callee :: values → values.length = arguments.toNat →
    callee.isCallable = true → Ran i (Script.call callee values) (.ok returned) machine →
    Leaves returned results kept →
    Step i (.call arguments results) (.ok .done)
      { i with machine := machine, stack := below ++ kept }
  /-- What is called and its arguments are gone. -/
  | callRaises {arguments : UInt64} {results : ResultCount} {below values : List Value}
      {callee : Value} {fault : Fault} {machine : Machine} :
    i.stack = below ++ callee :: values → values.length = arguments.toNat →
    callee.isCallable = true → Ran i (Script.call callee values) (.error fault) machine →
    Step i (.call arguments results) (.error (.call "call" fault))
      { i with machine := machine, stack := below }
  | callOfOther {arguments : UInt64} {results : ResultCount} {below values : List Value}
      {callee : Value} :
    i.stack = below ++ callee :: values → values.length = arguments.toNat →
    callee.isCallable = false →
    Step i (.call arguments results)
      (.error (.call "call" (.raised ("attempt to call a " ++ callee.kind ++ " value") false)))
      { i with stack := below }
  | callOfTooFew {arguments : UInt64} {results : ResultCount} :
    i.stack.length < arguments.toNat + 1 →
    Step i (.call arguments results)
      (.error (.stack (.underflow (arguments.toNat + 1) i.stack.length))) i

variable {index : Int32} {stack below above : List Value} {value : Value} {i i' : Interpreter}
  {op : Operation} {result : Except BridgeError Reply}

/-- An operation that goes by an index fails for one that stands for nothing. -/
theorem exec_of_outOfRange (hindex : op.index? = some index) (h : OutOfRange index i.stack) :
    exec op.run i = (.error (.stack (.badIndex index)), i) := by
  have hpeek := exec_peek_of_outOfRange h
  cases op <;> cases hindex
  case peek => simp only [Operation.run, exec_bind, hpeek]
  case isNil => simp only [Operation.run, isNil, exec_bind, hpeek]
  case remove =>
    simp only [Operation.run, exec_bind, exec_remove, stackPlace_of_outOfRange h]
  case getField name => simp only [Operation.run, getField, exec_bind, hpeek]

/-- What `Step` says is what the operation does. -/
theorem exec_of_step (hop : op.Bounded) (h : Step i op result i') :
    exec op.run i = (result, i') := by
  cases h with
  | pushNil | pushInteger | pushText | push | pushHandle | depth => rfl
  | pushBytes hsize =>
    simp only [Operation.run, exec_bind, exec_pushBytes, if_neg (Nat.not_lt.2 hsize)]
    rfl
  | pushBytesTooLarge hsize =>
    simp only [Operation.run, exec_bind, exec_pushBytes, if_pos hsize]
  | pushHeaders hsize =>
    simp only [Operation.run, exec_bind, exec_pushHeaders, if_neg (Nat.not_lt.2 hsize)]
    rfl
  | pushHeadersTooLarge hsize =>
    simp only [Operation.run, exec_bind, exec_pushHeaders, if_pos hsize]
  | pop hstack =>
    simp only [Operation.run, exec_bind, exec_pop, hstack, List.length_append]
    rw [if_neg (by omega), Nat.add_sub_cancel, List.take_left]
    rfl
  | popTooMany hdepth => simp only [Operation.run, exec_bind, exec_pop, if_pos hdepth]
  | popValue hstack =>
    simp only [Operation.run, exec_bind, exec_popValue, hstack, List.getLast?_concat,
      List.dropLast_concat]
    rfl
  | popValueOfNone hstack =>
    simp only [Operation.run, exec_bind, exec_popValue, hstack, List.getLast?_nil]
  | truncate hstack =>
    simp only [Operation.run, exec_bind, exec_truncate, hstack, List.take_left]
    rfl
  | truncateNothing hdepth =>
    simp only [Operation.run, exec_bind, exec_truncate, List.take_of_length_le hdepth]
    rfl
  | badIndex hindex hrange => exact exec_of_outOfRange hindex hrange
  | peek hnames =>
    simp only [Operation.run, exec_bind, exec_peek_of_names hnames]
    rfl
  | isNil hnames =>
    simp only [Operation.run, isNil, exec_bind, exec_peek_of_names hnames]
    rfl
  | remove hnames =>
    simp only [Operation.run, exec_bind, exec_remove_of_names hnames]
    rfl
  | getField hnames hran =>
    simp only [Operation.run, getField, exec_bind, exec_peek_of_names hnames, exec_script]
    rw [hran]
    rfl
  | getFieldRaises hnames hran =>
    simp only [Operation.run, getField, exec_bind, exec_peek_of_names hnames, exec_script]
    rw [hran]
    rfl
  | @getFieldOfOther index name below above value hnames hother =>
    simp only [Operation.run, getField, exec_bind, exec_peek_of_names hnames]
    cases value with
    | table id => exact absurd rfl (hother id)
    | _ => rfl
  | getGlobal hran =>
    simp only [Operation.run, getGlobal, exec_bind, exec_script]
    rw [hran]
    rfl
  | getGlobalRaises hran =>
    simp only [Operation.run, getGlobal, exec_bind, exec_script]
    rw [hran]
    rfl
  | setGlobal hstack hran =>
    simp only [Operation.run, setGlobal, exec_bind, exec_popValue, hstack, List.getLast?_concat,
      List.dropLast_concat, exec_script]
    rw [hran]
    rfl
  | setGlobalRaises hstack hran =>
    simp only [Operation.run, setGlobal, exec_bind, exec_popValue, hstack, List.getLast?_concat,
      List.dropLast_concat, exec_script]
    rw [hran]
    rfl
  | setGlobalOfNone hstack =>
    simp only [Operation.run, setGlobal, exec_bind, exec_popValue, hstack, List.getLast?_nil]
  | call hstack hvalues hcallable hran hleaves =>
    -- With its values off the stack, a call is what the script makes of it.
    rw [Operation.run, exec_bind, exec_call_of_stack hop _ hstack hvalues, exec_calling,
      callOf_of_callable hcallable]
    dsimp only
    rw [hran]
    dsimp only
    rw [hleaves.take]
    rfl
  | callRaises hstack hvalues hcallable hran =>
    rw [Operation.run, exec_bind, exec_call_of_stack hop _ hstack hvalues, exec_calling,
      callOf_of_callable hcallable]
    dsimp only
    rw [hran]
    rfl
  | callOfOther hstack hvalues hcallable =>
    rw [Operation.run, exec_bind, exec_call_of_stack hop _ hstack hvalues, exec_calling,
      callOf_of_not_callable hcallable]
    rfl
  | callOfTooFew hdepth =>
    rw [Operation.run, exec_bind, exec_call, toNat_add_one hop, if_pos hdepth]

/-- Script code always comes to something. -/
theorem exists_ran {α : Type} (i : Interpreter) (computation : Script.Eval α) :
    (∃ a machine, Ran i computation (.ok a) machine) ∨
      ∃ fault machine, Ran i computation (.error fault) machine := by
  unfold Ran
  cases computation.toHost i.contexts i.machine with
  | mk result machine =>
    cases result with
    | ok a => exact .inl ⟨a, machine, rfl⟩
    | error fault => exact .inr ⟨fault, machine, rfl⟩

/-- An operation that goes by an index comes to something if it does for an index that stands for a
    value. -/
theorem exists_step_of_names (hindex : op.index? = some index)
    (h : ∀ below value above, Names index i.stack below value above →
      ∃ result i', Step i op result i') :
    ∃ result i', Step i op result i' := by
  by_cases hrange : OutOfRange index i.stack
  · exact ⟨_, _, .badIndex hindex hrange⟩
  · obtain ⟨below, value, above, hnames⟩ := exists_names hrange
    exact h below value above hnames

/-- A stack is empty, or has a value on top. -/
theorem eq_nil_or_concat (stack : List Value) :
    stack = [] ∨ ∃ below value, stack = below ++ [value] := by
  rcases List.eq_nil_or_concat stack with h | ⟨below, value, h⟩
  · exact .inl h
  · exact .inr ⟨below, value, h.trans (List.concat_eq_append ..)⟩

/-- A stack that is deep enough has a number of values on top. -/
theorem exists_named {count : Nat} (h : count ≤ stack.length) :
    ∃ below named, stack = below ++ named ∧ named.length = count := by
  refine ⟨stack.take (stack.length - count), stack.drop (stack.length - count),
    (List.take_append_drop _ _).symm, ?_⟩
  rw [List.length_drop]
  omega

/-- Every operation comes to something. -/
theorem exists_step (i : Interpreter) (op : Operation) : ∃ result i', Step i op result i' := by
  cases op with
  | pushNil => exact ⟨_, _, .pushNil⟩
  | pushInteger n => exact ⟨_, _, .pushInteger⟩
  | pushText text => exact ⟨_, _, .pushText⟩
  | pushHandle handle => exact ⟨_, _, .pushHandle⟩
  | push value => exact ⟨_, _, .push⟩
  | depth => exact ⟨_, _, .depth⟩
  | pushBytes bytes =>
    rcases Nat.lt_or_ge i.limits.payloadBytes bytes.size with hsize | hsize
    · exact ⟨_, _, .pushBytesTooLarge hsize⟩
    · exact ⟨_, _, .pushBytes hsize⟩
  | pushHeaders headers =>
    rcases Nat.lt_or_ge i.limits.tableEntries headers.size with hsize | hsize
    · exact ⟨_, _, .pushHeadersTooLarge hsize⟩
    · exact ⟨_, _, .pushHeaders hsize⟩
  | pop count =>
    rcases Nat.lt_or_ge i.stack.length count with hdepth | hdepth
    · exact ⟨_, _, .popTooMany hdepth⟩
    · obtain ⟨below, named, hstack, rfl⟩ := exists_named hdepth
      exact ⟨_, _, .pop hstack⟩
  | popValue =>
    rcases eq_nil_or_concat i.stack with hstack | ⟨below, value, hstack⟩
    · exact ⟨_, _, .popValueOfNone hstack⟩
    · exact ⟨_, _, .popValue hstack⟩
  | truncate count =>
    rcases Nat.le_total i.stack.length count with hdepth | hdepth
    · exact ⟨_, _, .truncateNothing hdepth⟩
    · have hlength : (i.stack.take count).length = count := by
        rw [List.length_take]
        omega
      have hstep := Step.truncate (List.take_append_drop count i.stack).symm
      rw [hlength] at hstep
      exact ⟨_, _, hstep⟩
  | peek index => exact exists_step_of_names rfl fun _ _ _ hnames => ⟨_, _, .peek hnames⟩
  | isNil index => exact exists_step_of_names rfl fun _ _ _ hnames => ⟨_, _, .isNil hnames⟩
  | remove index => exact exists_step_of_names rfl fun _ _ _ hnames => ⟨_, _, .remove hnames⟩
  | getField index name =>
    refine exists_step_of_names rfl fun below value above hnames => ?_
    -- Only a table is asked for the field.
    by_cases htable : ∃ id, value = .table id
    · obtain ⟨id, rfl⟩ := htable
      rcases exists_ran i (Script.readField Script.call (Value.ofText name) Script.chainLimit
        (.table id)) with ⟨value, machine, hran⟩ | ⟨fault, machine, hran⟩
      · exact ⟨_, _, .getField hnames hran⟩
      · exact ⟨_, _, .getFieldRaises hnames hran⟩
    · exact ⟨_, _, .getFieldOfOther hnames (not_exists.1 htable)⟩
  | getGlobal name =>
    rcases exists_ran i (Script.readGlobal Script.call name.toUTF8) with
      ⟨value, machine, hran⟩ | ⟨fault, machine, hran⟩
    · exact ⟨_, _, .getGlobal hran⟩
    · exact ⟨_, _, .getGlobalRaises hran⟩
  | setGlobal name =>
    rcases eq_nil_or_concat i.stack with hstack | ⟨below, value, hstack⟩
    · exact ⟨_, _, .setGlobalOfNone hstack⟩
    · rcases exists_ran i (Script.writeGlobal Script.call name.toUTF8 value) with
        ⟨⟨⟩, machine, hran⟩ | ⟨fault, machine, hran⟩
      · exact ⟨_, _, .setGlobal hstack hran⟩
      · exact ⟨_, _, .setGlobalRaises hstack hran⟩
  | call arguments results =>
    rcases Nat.lt_or_ge i.stack.length (arguments.toNat + 1) with hdepth | hdepth
    · exact ⟨_, _, .callOfTooFew hdepth⟩
    · obtain ⟨below, named, hstack, hnamed⟩ := exists_named hdepth
      obtain ⟨callee, values, rfl⟩ := List.exists_cons_of_length_eq_add_one hnamed
      have hvalues : values.length = arguments.toNat := Nat.succ.inj hnamed
      by_cases hcallable : callee.isCallable = true
      · rcases exists_ran i (Script.call callee values) with
          ⟨returned, machine, hran⟩ | ⟨fault, machine, hran⟩
        · exact ⟨_, _, .call hstack hvalues hcallable hran (leaves_take returned results)⟩
        · exact ⟨_, _, .callRaises hstack hvalues hcallable hran⟩
      · exact ⟨_, _, .callOfOther hstack hvalues (Bool.eq_false_iff.2 hcallable)⟩

theorem exec_eq_iff_step (hop : op.Bounded) :
    exec op.run i = (result, i') ↔ Step i op result i' := by
  constructor
  · intro h
    -- There is some step, and the operation does what it says.
    obtain ⟨result₀, i₀, hstep⟩ := exists_step i op
    cases (exec_of_step hop hstep).symm.trans h
    exact hstep
  · exact exec_of_step hop

/-! ### What is left alone -/

theorem Step.outOfRange (h : Step i op (.error (.stack (.badIndex index))) i') :
    OutOfRange index i.stack := by
  cases h with
  | badIndex _ hrange => exact hrange

/-- What a failing operation takes off the stack. -/
theorem Step.lost {e : BridgeError} (h : Step i op (.error e) i') :
    ∃ lost, i.stack = i'.stack ++ lost ∧ lost.length = op.lost i.stack.length := by
  cases h with
  | pushBytesTooLarge | pushHeadersTooLarge | popTooMany | popValueOfNone | getFieldRaises
    | getFieldOfOther | getGlobalRaises => exact ⟨[], (List.append_nil _).symm, rfl⟩
  | badIndex hindex =>
    cases op <;> cases hindex <;> exact ⟨[], (List.append_nil _).symm, rfl⟩
  | setGlobalRaises hstack =>
    -- The value was off the stack when it could not be stored.
    refine ⟨_, hstack, ?_⟩
    rw [hstack, Operation.lost, List.length_append, List.length_singleton]
    omega
  | setGlobalOfNone hstack =>
    refine ⟨[], (List.append_nil _).symm, ?_⟩
    rw [hstack]
    rfl
  | callRaises hstack hvalues | callOfOther hstack hvalues =>
    -- So were what is called and its arguments.
    refine ⟨_, hstack, ?_⟩
    rw [hstack, Operation.lost, List.length_append, List.length_cons, hvalues, if_pos (by omega)]
  | callOfTooFew hdepth =>
    refine ⟨[], (List.append_nil _).symm, ?_⟩
    rw [Operation.lost, if_neg (by omega)]
    rfl

theorem below_of_call {below' values values' : List Value} {callee callee' : Value}
    (h : below ++ callee :: values = below' ++ callee' :: values')
    (hvalues : values.length = values'.length) : below = below' :=
  (List.append_inj' h (congrArg Nat.succ hvalues)).1

/-- Below the values that an operation names, the stack stays as it was. -/
theorem Step.spares (h : Step i op result i') (hbelow : op.Spares i.stack below) :
    below <+: i'.stack := by
  cases h with
  | pushNil | pushInteger | pushText | push | pushBytes | pushHeaders | pushHandle | getGlobal =>
    -- One value more comes on top.
    obtain rfl : i.stack = below := hbelow
    exact List.prefix_append _ _
  | pushBytesTooLarge | pushHeadersTooLarge | getGlobalRaises | depth =>
    obtain rfl : i.stack = below := hbelow
    exact List.prefix_rfl
  | pop hstack =>
    -- A stack can be taken apart in one way only, once it is settled how much is on top.
    obtain ⟨named, hnamed, hlength⟩ := hbelow
    obtain ⟨rfl, -⟩ := List.append_inj' (hnamed.symm.trans hstack) hlength
    exact List.prefix_rfl
  | popTooMany =>
    obtain ⟨named, hnamed, -⟩ := hbelow
    exact ⟨named, hnamed.symm⟩
  | popValue hstack =>
    obtain ⟨value, hvalue⟩ := hbelow
    obtain ⟨rfl, -⟩ := List.append_inj' (hvalue.symm.trans hstack) rfl
    exact List.prefix_rfl
  | popValueOfNone hstack | setGlobalOfNone hstack =>
    obtain ⟨value, hvalue⟩ := hbelow
    exact ⟨[value], hvalue.symm⟩
  | setGlobal hstack | setGlobalRaises hstack =>
    obtain ⟨value, hvalue⟩ := hbelow
    obtain ⟨rfl, -⟩ := List.append_inj' (hvalue.symm.trans hstack) rfl
    exact List.prefix_rfl
  | @truncate below' above hstack =>
    have htake : i.stack.take below'.length = below' := by rw [hstack, List.take_left]
    obtain rfl : below' = below := htake.symm.trans hbelow
    exact List.prefix_rfl
  | @truncateNothing count =>
    obtain rfl : i.stack.take count = below := hbelow
    exact List.take_prefix _ _
  | badIndex hindex hrange =>
    cases op <;> cases hindex <;>
    · obtain ⟨value, above, hnames⟩ := hbelow
      exact absurd hrange hnames.not_outOfRange
  | peek | isNil | getFieldRaises | getFieldOfOther =>
    obtain ⟨value, above, hnames⟩ := hbelow
    exact ⟨_, hnames.stack.symm⟩
  | getField =>
    obtain ⟨value, above, hnames⟩ := hbelow
    exact List.IsPrefix.trans ⟨_, hnames.stack.symm⟩ (List.prefix_append _ _)
  | remove hnames =>
    obtain ⟨value, above, hnames'⟩ := hbelow
    obtain ⟨rfl, -⟩ := hnames'.unique hnames
    exact List.prefix_append _ _
  | call hstack hvalues =>
    obtain ⟨callee, values, hnamed, hlength⟩ := hbelow
    obtain rfl := below_of_call (hnamed.symm.trans hstack) (hlength.trans hvalues.symm)
    exact List.prefix_append _ _
  | callRaises hstack hvalues | callOfOther hstack hvalues =>
    obtain ⟨callee, values, hnamed, hlength⟩ := hbelow
    obtain rfl := below_of_call (hnamed.symm.trans hstack) (hlength.trans hvalues.symm)
    exact List.prefix_rfl
  | callOfTooFew =>
    obtain ⟨callee, values, hnamed, -⟩ := hbelow
    exact ⟨_, hnamed.symm⟩

/-- What an operation does in the state that an interpreter is in. -/
structure Operation.Conforms (op : Operation) (i : Interpreter) : Prop where
  step : ∀ result i', exec op.run i = (result, i') ↔ Step i op result i'
  /-- An index is refused exactly if it stands for nothing. -/
  badIndex : ∀ index, op.index? = some index →
    ((exec op.run i).1 = .error (.stack (.badIndex index)) ↔ OutOfRange index i.stack)
  /-- Otherwise it stands for one value, whatever the operation is. -/
  names : ∀ index, op.index? = some index → ¬ OutOfRange index i.stack →
    ∃ below value above, Names index i.stack below value above ∧
      ∀ below' value' above', Names index i.stack below' value' above' →
        below = below' ∧ value = value' ∧ above = above'
  /-- A failure changes nothing on the stack, but for what the operation has taken off before. -/
  lost : ∀ e, (exec op.run i).1 = .error e →
    ∃ lost, i.stack = (exec op.run i).2.stack ++ lost ∧ lost.length = op.lost i.stack.length
  spares : ∀ below, op.Spares i.stack below → below <+: (exec op.run i).2.stack

theorem Operation.conforms (op : Operation) (hop : op.Bounded) (i : Interpreter) :
    op.Conforms i := by
  have hstep : Step i op (exec op.run i).1 (exec op.run i).2 := (exec_eq_iff_step hop).1 rfl
  constructor
  case step => exact fun _ _ => exec_eq_iff_step hop
  case badIndex =>
    intro index hindex
    constructor
    · intro hresult
      rw [hresult] at hstep
      exact hstep.outOfRange
    · intro hrange
      rw [exec_of_outOfRange hindex hrange]
  case names =>
    intro index hindex hrange
    obtain ⟨below, value, above, hnames⟩ := exists_names hrange
    exact ⟨below, value, above, hnames, fun _ _ _ => hnames.unique⟩
  case lost =>
    intro e hresult
    rw [hresult] at hstep
    exact hstep.lost
  case spares => exact fun _ => hstep.spares

/-! ### One operation after the other -/

/-- Carries operations out, also behind one that fails. -/
def runAll (i : Interpreter) : List Operation → List (Except BridgeError Reply) × Interpreter
  | [] => ([], i)
  | op :: ops =>
    let (result, i) := exec op.run i
    let (results, i) := runAll i ops
    (result :: results, i)

/-- What operations come to, one after the other. -/
inductive Steps : Interpreter → List Operation → List (Except BridgeError Reply) → Interpreter →
    Prop where
  | nil {i : Interpreter} : Steps i [] [] i
  | cons {i i' i'' : Interpreter} {op : Operation} {ops : List Operation}
      {result : Except BridgeError Reply} {results : List (Except BridgeError Reply)} :
    Step i op result i' → Steps i' ops results i'' → Steps i (op :: ops) (result :: results) i''

/-- None of the operations names a value of what is at the bottom of the stack. -/
def AllSpare (base : List Value) (i : Interpreter) : List Operation → Prop
  | [] => True
  | op :: ops => (∃ below, op.Spares i.stack below ∧ base <+: below) ∧
    AllSpare base (exec op.run i).2 ops

theorem runAll_eq_iff_steps {ops : List Operation} (hops : ∀ op ∈ ops, op.Bounded)
    {results : List (Except BridgeError Reply)} :
    runAll i ops = (results, i') ↔ Steps i ops results i' := by
  induction ops generalizing i results with
  | nil =>
    constructor
    · rintro ⟨⟩
      exact .nil
    · rintro ⟨⟩
      rfl
  | cons op ops ih =>
    have hop : op.Bounded := hops op List.mem_cons_self
    have hops : ∀ other ∈ ops, other.Bounded :=
      fun other hmem => hops other (List.mem_cons_of_mem _ hmem)
    constructor
    · rintro ⟨⟩
      exact .cons ((exec_eq_iff_step hop).1 rfl) ((ih hops).1 rfl)
    · intro h
      cases h with
      | cons hstep hsteps =>
        have hfirst := exec_of_step hop hstep
        have hrest := (ih hops).2 hsteps
        simp only [runAll, hfirst, hrest]

theorem prefix_runAll {base : List Value} {ops : List Operation}
    (hops : ∀ op ∈ ops, op.Bounded) (hbase : base <+: i.stack) (hspare : AllSpare base i ops) :
    base <+: (runAll i ops).2.stack := by
  induction ops generalizing i with
  | nil => exact hbase
  | cons op ops ih =>
    obtain ⟨⟨below, hbelow, hover⟩, hrest⟩ := hspare
    have hop : op.Bounded := hops op List.mem_cons_self
    have hkept : below <+: (exec op.run i).2.stack := (op.conforms hop i).spares below hbelow
    exact ih (fun other hmem => hops other (List.mem_cons_of_mem _ hmem))
      (hover.trans hkept) hrest

/-- The operations of the host are those of a stack machine: each does what `Step` says, and leaves
    what it does not name alone, and so it goes on however many there are. -/
theorem operations_are_steps (ops : List Operation) (hops : ∀ op ∈ ops, op.Bounded)
    (i : Interpreter) :
    (∀ op ∈ ops, ∀ i, op.Conforms i) ∧
      (∀ results i', runAll i ops = (results, i') ↔ Steps i ops results i') ∧
      ∀ base, base <+: i.stack → AllSpare base i ops → base <+: (runAll i ops).2.stack := by
  refine ⟨?_, ?_, ?_⟩
  · intro op hmem i
    exact op.conforms (hops op hmem) i
  · intro results i'
    exact runAll_eq_iff_steps hops
  · intro base hbase hspare
    exact prefix_runAll hops hbase hspare

/-- A function is called with nil, for two results. The one result and the nil behind it can then be
    told apart by their indices. -/
theorem call_of_tostring_is_steps :
    let i := Interpreter.new default 1
    let ops : List Operation :=
      [.getGlobal "tostring", .pushNil, .call 1 (.fixed 2), .remove (-2), .isNil 1,
        .peek Int32.minValue]
    let results : List (Except BridgeError Reply) :=
      [.ok .done, .ok .done, .ok .done, .ok (.value (Value.ofText "nil")), .ok (.truth true),
        .error (.stack (.badIndex Int32.minValue))]
    (∀ op ∈ ops, op.Bounded) ∧ Steps i ops results (runAll i ops).2 := by
  intro i ops results
  have hops : ∀ op ∈ ops, op.Bounded := by
    simp [ops, Operation.Bounded, UInt64.size]
  have hresults : (runAll i ops).1 = results := by
    decide +kernel
  have hrun : runAll i ops = (results, (runAll i ops).2) := by
    rw [← hresults]
  exact ⟨hops, ((operations_are_steps ops hops i).2.1 results _).1 hrun⟩

end EventBridge.Host
