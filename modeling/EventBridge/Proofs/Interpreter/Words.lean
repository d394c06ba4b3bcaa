import EventBridge.Proofs.Interpreter.StackMachine

/-! # The arithmetic of the stack on machine words

  The host counts with words of 64 bits and indexes with signed words of 32. What it calculates must
  be the number that it means, and a place must be one of the stack.

  * A step of arithmetic gives the word that the machine comes to, or a `Trap` if that is not the
    number meant. Splitting a stack and reading a place trap where there is nothing.
  * `Words` are computations of the host in which a trap can happen, and `Operation.inWords` has the
    operations on the stack that calculate.
  * `Operation.Exact` compares the two: nothing traps and the operations are the same, apart from
    one number of arguments, to which one cannot be added.
-/

namespace EventBridge.Host

open Script (Value)

/-! ### Exact arithmetic -/

/-- What goes wrong in a step of arithmetic, or behind it. -/
inductive Trap where
  | addition
  | subtraction
  | negation
  /-- A number does not fit the word that it is brought to. -/
  | conversion
  /-- A stack is split above its top. -/
  | split
  /-- There is no value at a place. -/
  | position
  deriving DecidableEq, Repr

/-- The word that the machine comes to, if it is the number that is meant. -/
def exactly (trap : Trap) (meant : Int) (word : UInt64) : Except Trap UInt64 :=
  if word.toNat = meant then .ok word else .error trap

/-- The sum of two words. -/
def add (a b : UInt64) : Except Trap UInt64 := exactly .addition (a.toNat + b.toNat) (a + b)

/-- The difference of two words. -/
def sub (a b : UInt64) : Except Trap UInt64 := exactly .subtraction (a.toNat - b.toNat) (a - b)

/-- An index as a word: the sign is extended. -/
def widen (index : Int32) : Except Trap UInt64 :=
  exactly .conversion index.toInt index.toInt64.toUInt64

/-- How far an index counts, as a word. The least index is its own negative; read without a sign it
    is the number meant all the same. -/
def magnitude (index : Int32) : Except Trap UInt64 :=
  exactly .negation index.toInt.natAbs index.abs.toUInt32.toUInt64

/-- The value at a place. -/
def valueAt (stack : List Value) (place : UInt64) : Except Trap Value :=
  match stack[place.toNat]? with
  | some value => .ok value
  | none => .error .position

theorem add_eq_ok {a b : UInt64} (h : a.toNat + b.toNat < UInt64.size) :
    ∃ word, add a b = .ok word ∧ word.toNat = a.toNat + b.toNat := by
  have hsum : (a + b).toNat = a.toNat + b.toNat := by
    rw [UInt64.toNat_add, Nat.mod_eq_of_lt h]
  refine ⟨_, if_pos ?_, hsum⟩
  rw [hsum]
  exact Int.natCast_add ..

theorem add_eq_error {a b : UInt64} (h : UInt64.size ≤ a.toNat + b.toNat) :
    add a b = .error .addition := by
  refine if_neg ?_
  have hlt := (a + b).toNat_lt
  rw [UInt64.size] at h
  omega

theorem sub_eq_ok {a b : UInt64} (h : b.toNat ≤ a.toNat) :
    ∃ word, sub a b = .ok word ∧ word.toNat = a.toNat - b.toNat := by
  have hdifference := UInt64.toNat_sub_of_le a b (UInt64.le_iff_toNat_le.2 h)
  refine ⟨_, if_pos ?_, hdifference⟩
  rw [hdifference]
  exact Int.ofNat_sub h

theorem widen_eq_ok {index : Int32} (h : 0 ≤ index.toInt) :
    ∃ word, widen index = .ok word ∧ word.toNat = index.toInt := by
  have hwide : (index.toInt64.toUInt64.toNat : Int) = index.toInt := by
    have hlt := index.toInt64.toBitVec.isLt
    rw [← UInt64.toNat_toBitVec, Int64.toBitVec_toUInt64]
    rw [← Int32.toInt_toInt64, ← Int64.toInt_toBitVec, BitVec.toInt_eq_msb_cond] at h ⊢
    -- What is not negative reads the same with a sign and without.
    by_cases hsign : index.toInt64.toBitVec.msb = true
    · rw [if_pos hsign] at h
      omega
    · rw [if_neg hsign]
  exact ⟨_, if_pos hwide, hwide⟩

theorem magnitude_eq_ok (index : Int32) :
    ∃ word, magnitude index = .ok word ∧ word.toNat = index.toInt.natAbs := by
  have habs : index.abs.toUInt32.toUInt64.toNat = index.toInt.natAbs := by
    -- Bit for bit this is the absolute value, which takes one bit more than a signed word has.
    rw [UInt32.toNat_toUInt64, ← UInt32.toNat_toBitVec, Int32.toBitVec_toUInt32,
      Int32.toBitVec_abs, BitVec.toNat_abs, ← Int32.toInt_toBitVec, BitVec.toInt_eq_msb_cond]
    split <;> omega
  exact ⟨_, if_pos (congrArg Int.ofNat habs), habs⟩

/-! ### Computations that can trap -/

/-- A computation of the host in which a step of arithmetic can go wrong. -/
abbrev Words := ExceptT BridgeError (StateT Interpreter (Except Trap))

namespace Words

variable {α β : Type}

/-- What a computation comes to, and the interpreter after it, unless it traps. -/
def exec (computation : Words α) (i : Interpreter) :
    Except Trap (Except BridgeError α × Interpreter) := computation.run.run i

/-- A step of arithmetic. -/
def calculate (result : Except Trap α) : Words α :=
  ExceptT.mk fun i => result.map fun a => (.ok a, i)

/-- A computation of the host without arithmetic. -/
def host (computation : Host α) : Words α := ExceptT.mk fun i => .ok (Host.exec computation i)

/-- Fails for the stack. -/
def fail (cause : StackError) : Words α := host (failStack cause)

/-- How many values are on the stack. -/
def depth : Words UInt64 := do
  let i ← get
  calculate (exactly .conversion i.stack.length (UInt64.ofNat i.stack.length))

/-- How far from the bottom an index counts, in a stack of a depth. -/
def offset (depth : UInt64) (index : Int32) : Words UInt64 := do
  if index = 0 then fail (.badIndex index)
  else if 0 < index then
    let word ← calculate (widen index)
    calculate (sub word 1)
  else
    let back ← calculate (magnitude index)
    if depth < back then fail (.badIndex index) else calculate (sub depth back)

/-- The place that an index names. -/
def place (index : Int32) : Words UInt64 := do
  let depth ← depth
  let place ← offset depth index
  if depth ≤ place then fail (.badIndex index) else return place

/-- The value at an index. -/
def peek (index : Int32) : Words Value := do
  let place ← place index
  let i ← get
  calculate (valueAt i.stack place)

/-- Whether the value at an index is nil. -/
def isNil (index : Int32) : Words Bool := do return (← peek index) == .nil

/-- Takes the value at an index out. -/
def remove (index : Int32) : Words Value := do
  let place ← place index
  let i ← get
  let value ← calculate (valueAt i.stack place)
  set { i with stack := i.stack.eraseIdx place.toNat }
  return value

/-- Puts a field of the table at an index on the stack. -/
def getField (index : Int32) (name : String) : Words Unit := do
  match ← peek index with
  | .table id => host do
    Host.push (← script onStack
      (Script.readField Script.call (Value.ofText name) Script.chainLimit (.table id)))
  | other => fail (.notATable index other.kind)

/-- Takes values off the top. -/
def pop (count : UInt64) : Words Unit := do
  let depth ← depth
  if depth < count then fail (.underflow count.toNat depth.toNat)
  else
    let rest ← calculate (sub depth count)
    host (truncate rest.toNat)

/-- Takes off what is above a place. -/
def splitOff (place : UInt64) : Words (List Value) := do
  let i ← get
  if place.toNat ≤ i.stack.length then
    set { i with stack := i.stack.take place.toNat }
    return i.stack.drop place.toNat
  else calculate (.error .split)

/-- Calls the value below the top ones with those as its arguments. -/
def call (arguments : UInt64) (results : ResultCount) : Words Unit := do
  let depth ← depth
  let needed ← calculate (add arguments 1)
  if depth < needed then fail (.underflow needed.toNat depth.toNat)
  else
    let place ← calculate (sub depth arguments)
    let values ← splitOff place
    let i ← get
    set { i with stack := i.stack.dropLast }
    host (calling results (i.stack.getLastD .nil) values)

/-! ### Running them -/

/-- What follows a step goes on from its result, unless the step fails or traps. -/
theorem exec_bind (computation : Words α) (next : α → Words β) (i : Interpreter) :
    exec (computation >>= next) i =
      match exec computation i with
      | .ok (.ok a, i) => exec (next a) i
      | .ok (.error e, i) => .ok (.error e, i)
      | .error trap => .error trap := by
  cases hexec : exec computation i with
  | error trap =>
    unfold exec at hexec ⊢
    simp only [bind, ExceptT.bind, ExceptT.mk, ExceptT.run, StateT.bind, StateT.run] at hexec ⊢
    rw [hexec]
    rfl
  | ok outcome =>
    obtain ⟨result, i'⟩ := outcome
    unfold exec at hexec ⊢
    simp only [bind, ExceptT.bind, ExceptT.mk, ExceptT.run, StateT.bind, StateT.run] at hexec ⊢
    rw [hexec]
    cases result <;> rfl

theorem exec_bind_of_ok {computation : Words α} {i i' : Interpreter} {a : α}
    (h : exec computation i = .ok (.ok a, i')) (next : α → Words β) :
    exec (computation >>= next) i = exec (next a) i' := by
  rw [exec_bind, h]

theorem exec_bind_of_error {computation : Words α} {i i' : Interpreter} {e : BridgeError}
    (h : exec computation i = .ok (.error e, i')) (next : α → Words β) :
    exec (computation >>= next) i = .ok (.error e, i') := by
  rw [exec_bind, h]

theorem exec_bind_of_trap {computation : Words α} {i : Interpreter} {trap : Trap}
    (h : exec computation i = .error trap) (next : α → Words β) :
    exec (computation >>= next) i = .error trap := by
  rw [exec_bind, h]

@[simp] theorem exec_pure (a : α) (i : Interpreter) :
    exec (pure a : Words α) i = .ok (.ok a, i) := rfl

@[simp] theorem exec_get (i : Interpreter) :
    exec (get : Words Interpreter) i = .ok (.ok i, i) := rfl

@[simp] theorem exec_set (i i' : Interpreter) :
    exec (set i' : Words PUnit) i = .ok (.ok (), i') := rfl

@[simp] theorem exec_host (computation : Host α) (i : Interpreter) :
    exec (host computation) i = .ok (Host.exec computation i) := rfl

@[simp] theorem exec_fail (cause : StackError) (i : Interpreter) :
    exec (fail cause : Words α) i = .ok (.error (.stack cause), i) := rfl

theorem exec_calculate {result : Except Trap α} {a : α} (h : result = .ok a) (i : Interpreter) :
    exec (calculate result) i = .ok (.ok a, i) := by
  rw [h]
  rfl

/-! ### Places -/

variable {i : Interpreter} {index : Int32} {depth word : UInt64}

theorem index_pos_iff : 0 < index ↔ 0 < index.toInt := Int32.lt_iff_toInt_lt

theorem index_eq_zero_iff : index = 0 ↔ index.toInt = 0 := Int32.toInt_inj.symm

/-- A stack is as deep as the word for its depth says. -/
theorem exec_depth (hdepth : i.stack.length < UInt64.size) :
    ∃ word, exec Words.depth i = .ok (.ok word, i) ∧ word.toNat = i.stack.length := by
  have hvalue := UInt64.toNat_ofNat_of_lt' hdepth
  have hmeant : ((UInt64.ofNat i.stack.length).toNat : Int) = i.stack.length :=
    congrArg Int.ofNat hvalue
  refine ⟨UInt64.ofNat i.stack.length, ?_, hvalue⟩
  rw [Words.depth, exec_bind_of_ok (exec_get i)]
  exact exec_calculate (if_pos hmeant) i

theorem exec_offset_of_pos (depth : UInt64) (i : Interpreter) (h : 0 < index.toInt) :
    ∃ place, exec (offset depth index) i = .ok (.ok place, i) ∧
      place.toNat + 1 = index.toInt.natAbs := by
  obtain ⟨word, hword, hvalue⟩ := widen_eq_ok (Int.le_of_lt h)
  have hone : (1 : UInt64).toNat = 1 := rfl
  have hle : (1 : UInt64).toNat ≤ word.toNat := by omega
  obtain ⟨place, hplace, hless⟩ := sub_eq_ok hle
  have hnotZero : ¬ index = 0 := by
    rw [index_eq_zero_iff]
    omega
  refine ⟨place, ?_, by omega⟩
  rw [offset, if_neg hnotZero, if_pos (index_pos_iff.2 h), exec_bind_of_ok (exec_calculate hword i)]
  exact exec_calculate hplace i

theorem exec_offset_of_neg (depth : UInt64) (i : Interpreter) (h : index.toInt < 0)
    (hword : magnitude index = .ok word) :
    exec (offset depth index) i =
      if depth < word then .ok (.error (.stack (.badIndex index)), i)
      else exec (calculate (sub depth word)) i := by
  have hnotZero : ¬ index = 0 := by
    rw [index_eq_zero_iff]
    omega
  have hnotPos : ¬ 0 < index := by
    rw [index_pos_iff]
    omega
  rw [offset, if_neg hnotZero, if_neg hnotPos, exec_bind_of_ok (exec_calculate hword i)]
  split <;> rfl

theorem exec_place_of_outOfRange (hdepth : i.stack.length < UInt64.size)
    (h : OutOfRange index i.stack) :
    exec (place index) i = .ok (.error (.stack (.badIndex index)), i) := by
  obtain ⟨word, hword, hlength⟩ := exec_depth hdepth
  unfold OutOfRange at h
  rw [place, exec_bind_of_ok hword]
  -- The index is below the bottom, nowhere, or above the top, which is only seen in the end.
  rcases Int.lt_trichotomy index.toInt 0 with hneg | hzero | hpos
  · obtain ⟨back, hback, hvalue⟩ := magnitude_eq_ok index
    have hfar : word < back := UInt64.lt_iff_toNat_lt.2 (by omega)
    exact exec_bind_of_error (by rw [exec_offset_of_neg word i hneg hback, if_pos hfar]) _
  · exact exec_bind_of_error (by rw [offset, if_pos (index_eq_zero_iff.2 hzero), exec_fail]) _
  · obtain ⟨far, hfar, hvalue⟩ := exec_offset_of_pos word i hpos
    rw [exec_bind_of_ok hfar, if_pos (UInt64.le_iff_toNat_le.2 (by omega)), exec_fail]

theorem exec_place_of_names (hdepth : i.stack.length < UInt64.size) {below above : List Value}
    {value : Value} (h : Names index i.stack below value above) :
    ∃ word, exec (place index) i = .ok (.ok word, i) ∧ word.toNat = below.length := by
  obtain ⟨word, hword, hlength⟩ := exec_depth hdepth
  have hstack : i.stack.length = below.length + (above.length + 1) := by
    rw [h.stack, List.length_append, List.length_cons]
  -- From the bottom and from the top, the index comes to the same place.
  obtain ⟨near, hnear, hvalue⟩ : ∃ near, exec (offset word index) i = .ok (.ok near, i) ∧
      near.toNat = below.length := by
    rcases h.index with hbottom | htop
    · have hpos : 0 < index.toInt := by omega
      obtain ⟨near, hnear, hvalue⟩ := exec_offset_of_pos word i hpos
      exact ⟨near, hnear, by omega⟩
    · obtain ⟨back, hback, hvalue⟩ := magnitude_eq_ok index
      have hle : back.toNat ≤ word.toNat := by omega
      obtain ⟨near, hnear, hless⟩ := sub_eq_ok hle
      have hnotFar : ¬ word < back := by
        rw [UInt64.lt_iff_toNat_lt]
        omega
      refine ⟨near, ?_, by omega⟩
      rw [exec_offset_of_neg word i (by omega) hback, if_neg hnotFar]
      exact exec_calculate hnear i
  have hinside : ¬ word ≤ near := by
    rw [UInt64.le_iff_toNat_le]
    omega
  refine ⟨near, ?_, hvalue⟩
  rw [place, exec_bind_of_ok hword, exec_bind_of_ok hnear, if_neg hinside, exec_pure]

/-- In words, an index names the place that it names. -/
theorem exec_place (hdepth : i.stack.length < UInt64.size) (index : Int32) :
    ∃ result, exec (place index) i = .ok (result, i) ∧
      Host.exec (Host.place index) i = (result.map UInt64.toNat, i) := by
  by_cases hrange : OutOfRange index i.stack
  · refine ⟨_, exec_place_of_outOfRange hdepth hrange, ?_⟩
    rw [Host.exec_place, stackPlace_of_outOfRange hrange]
    rfl
  · obtain ⟨below, value, above, hnames⟩ := exists_names hrange
    obtain ⟨word, hplace, hword⟩ := exec_place_of_names hdepth hnames
    refine ⟨_, hplace, ?_⟩
    rw [Host.exec_place, stackPlace_of_names hnames, ← hword]
    rfl

/-! ### Operations -/

theorem valueAt_of_names {below above : List Value} {value : Value}
    (h : Names index i.stack below value above) (hword : word.toNat = below.length) :
    valueAt i.stack word = .ok value := by
  rw [valueAt, hword, h.stack, List.getElem?_append_right (Nat.le_refl _), Nat.sub_self]
  rfl

theorem exec_peek (hdepth : i.stack.length < UInt64.size) (index : Int32) :
    exec (peek index) i = .ok (Host.exec (Host.peek index) i) := by
  by_cases hrange : OutOfRange index i.stack
  · rw [exec_peek_of_outOfRange hrange]
    exact exec_bind_of_error (exec_place_of_outOfRange hdepth hrange) _
  · obtain ⟨below, value, above, hnames⟩ := exists_names hrange
    obtain ⟨word, hplace, hword⟩ := exec_place_of_names hdepth hnames
    rw [exec_peek_of_names hnames, peek, exec_bind_of_ok hplace, exec_bind_of_ok (exec_get i)]
    exact exec_calculate (valueAt_of_names hnames hword) i

theorem exec_isNil (hdepth : i.stack.length < UInt64.size) (index : Int32) :
    exec (isNil index) i = .ok (Host.exec (Host.isNil index) i) := by
  rw [isNil, Host.isNil, exec_bind, Host.exec_bind, exec_peek hdepth]
  cases Host.exec (Host.peek index) i with
  | mk result i' => cases result <;> rfl

theorem exec_remove (hdepth : i.stack.length < UInt64.size) (index : Int32) :
    exec (remove index) i = .ok (Host.exec (Host.remove index) i) := by
  by_cases hrange : OutOfRange index i.stack
  · rw [Host.exec_remove, stackPlace_of_outOfRange hrange]
    exact exec_bind_of_error (exec_place_of_outOfRange hdepth hrange) _
  · obtain ⟨below, value, above, hnames⟩ := exists_names hrange
    obtain ⟨word, hplace, hword⟩ := exec_place_of_names hdepth hnames
    rw [exec_remove_of_names hnames, remove, exec_bind_of_ok hplace, exec_bind_of_ok (exec_get i),
      exec_bind_of_ok (exec_calculate (valueAt_of_names hnames hword) i),
      exec_bind_of_ok (exec_set i _), hword, hnames.eraseIdx, exec_pure]

theorem exec_getField (hdepth : i.stack.length < UInt64.size) (index : Int32) (name : String) :
    exec (getField index name) i = .ok (Host.exec (Host.getField index name) i) := by
  rw [getField, Host.getField, exec_bind, Host.exec_bind, exec_peek hdepth]
  cases Host.exec (Host.peek index) i with
  | mk result i' =>
    cases result with
    | error e => rfl
    | ok value => cases value <;> rfl

theorem exec_pop (hdepth : i.stack.length < UInt64.size) (count : UInt64) :
    exec (pop count) i = .ok (Host.exec (Host.pop count.toNat) i) := by
  obtain ⟨word, hword, hlength⟩ := exec_depth hdepth
  rw [Host.exec_pop, pop, exec_bind_of_ok hword]
  simp only [UInt64.lt_iff_toNat_lt, hlength]
  by_cases hcount : i.stack.length < count.toNat
  · rw [if_pos hcount, if_pos hcount, exec_fail]
  · have hle : count.toNat ≤ word.toNat := by omega
    obtain ⟨rest, hrest, hless⟩ := sub_eq_ok hle
    rw [if_neg hcount, if_neg hcount, exec_bind_of_ok (exec_calculate hrest i), exec_host,
      exec_truncate, hless, hlength]

theorem exec_splitOff (h : word.toNat ≤ i.stack.length) :
    exec (splitOff word) i = .ok (.ok (i.stack.drop word.toNat),
      { i with stack := i.stack.take word.toNat }) := by
  rw [splitOff, exec_bind_of_ok (exec_get i), if_pos h, exec_bind_of_ok (exec_set i _), exec_pure]

theorem exec_call {arguments : UInt64} (hdepth : i.stack.length < UInt64.size)
    (hwide : arguments.toNat + 1 < UInt64.size) (results : ResultCount) :
    exec (call arguments results) i = .ok (Host.exec (Host.call arguments results) i) := by
  obtain ⟨word, hword, hlength⟩ := exec_depth hdepth
  obtain ⟨needed, hneeded, hvalue⟩ := add_eq_ok (b := 1) hwide
  rw [Host.exec_call, toNat_add_one hwide, call, exec_bind_of_ok hword,
    exec_bind_of_ok (exec_calculate hneeded i)]
  simp only [UInt64.lt_iff_toNat_lt, hvalue, UInt64.toNat_one, hlength]
  by_cases hfew : i.stack.length < arguments.toNat + 1
  · rw [if_pos hfew, if_pos hfew, exec_fail]
  · -- The guard that is passed is what keeps the place from going below nothing.
    have hle : arguments.toNat ≤ word.toNat := by omega
    obtain ⟨place, hplace, hless⟩ := sub_eq_ok hle
    have hnotDeep : ¬ i.stack.length < arguments.toNat := by omega
    rw [if_neg hfew, if_neg hnotDeep, if_neg hfew, exec_bind_of_ok (exec_calculate hplace i),
      exec_bind_of_ok (exec_splitOff (by omega)), hless, hlength, exec_bind_of_ok (exec_get _),
      exec_bind_of_ok (exec_set _ _), exec_host]

/-- One more than the greatest word is no word. -/
theorem exec_call_of_most {arguments : UInt64} (hdepth : i.stack.length < UInt64.size)
    (hmost : UInt64.size ≤ arguments.toNat + 1) (results : ResultCount) :
    exec (call arguments results) i = .error .addition := by
  obtain ⟨word, hword, -⟩ := exec_depth hdepth
  have hsum : exec (calculate (add arguments 1)) i = .error .addition := by
    rw [add_eq_error hmost]
    rfl
  rw [call, exec_bind_of_ok hword]
  exact exec_bind_of_trap hsum _

end Words

/-! ### All operations -/

namespace Operation

/-- Carries the operation out, in words as far as it calculates. -/
def inWords : Operation → Words Reply
  | .peek index => return .value (← Words.peek index)
  | .isNil index => return .truth (← Words.isNil index)
  | .remove index => return .value (← Words.remove index)
  | .getField index name => Words.getField index name >>= done
  | .pop count => Words.pop (UInt64.ofNat count) >>= done
  | .call arguments results => Words.call arguments results >>= done
  | op => Words.host op.run
where
  done : Unit → Words Reply := fun _ => return .done

/-- The number of values to take off is a word. -/
def Fits : Operation → Prop
  | .pop count => count < UInt64.size
  | _ => True

variable {op : Operation} {i : Interpreter}

/-- The result of what follows a step that is the same in words. -/
theorem exec_bind_pure {α : Type} {computation : Words α} {other : Host α}
    (h : Words.exec computation i = .ok (exec other i)) (reply : α → Reply) :
    Words.exec (computation >>= fun a => return reply a) i =
      .ok (exec (other >>= fun a => return reply a) i) := by
  rw [Words.exec_bind, Host.exec_bind, h]
  cases exec other i with
  | mk result i' => cases result <;> rfl

/-- In words, an operation is what it is. -/
theorem exec_inWords (hdepth : i.stack.length < UInt64.size) (hfits : op.Fits)
    (hop : op.Bounded) : Words.exec op.inWords i = .ok (exec op.run i) := by
  cases op with
  | peek index => exact exec_bind_pure (Words.exec_peek hdepth index) _
  | isNil index => exact exec_bind_pure (Words.exec_isNil hdepth index) _
  | remove index => exact exec_bind_pure (Words.exec_remove hdepth index) _
  | getField index name => exact exec_bind_pure (Words.exec_getField hdepth index name) _
  | pop count =>
    have hpop := Words.exec_pop hdepth (UInt64.ofNat count)
    rw [UInt64.toNat_ofNat_of_lt' hfits] at hpop
    exact exec_bind_pure hpop _
  | call arguments results => exact exec_bind_pure (Words.exec_call hdepth hop results) _
  -- The others do not calculate.
  | _ => rfl

/-- The operations that go wrong are calls, for one number of arguments. -/
theorem exists_of_not_bounded (hop : ¬ op.Bounded) :
    ∃ arguments results, op = .call arguments results ∧ arguments.toNat + 1 = UInt64.size := by
  cases op with
  | call arguments results =>
    have hlt := arguments.toNat_lt
    refine ⟨arguments, results, rfl, ?_⟩
    rw [Bounded, UInt64.size] at hop
    rw [UInt64.size]
    omega
  | _ => exact absurd trivial hop

/-- In words, an operation that goes wrong traps where it adds to the arguments. -/
theorem exec_inWords_of_not_bounded (hdepth : i.stack.length < UInt64.size) (hop : ¬ op.Bounded) :
    Words.exec op.inWords i = .error .addition := by
  obtain ⟨arguments, results, rfl, hmost⟩ := exists_of_not_bounded hop
  exact Words.exec_bind_of_trap (Words.exec_call_of_most hdepth (Nat.le_of_eq hmost.symm) results) _

/-- The sum starts over at nothing, so that the stack is deep enough for it and is split where it
    is not. -/
theorem exec_of_not_bounded (hdepth : i.stack.length < UInt64.size / 2) (hop : ¬ op.Bounded) :
    ∃ arguments results, op = .call arguments results ∧ arguments.toNat + 1 = UInt64.size ∧
      exec op.run i = (.error (.aborted arguments), i) := by
  obtain ⟨arguments, results, rfl, hmost⟩ := exists_of_not_bounded hop
  refine ⟨arguments, results, rfl, hmost, ?_⟩
  have hover : (arguments + 1).toNat = 0 := by
    rw [UInt64.toNat_add, UInt64.toNat_one, hmost, UInt64.size]
  have hdeep : i.stack.length < arguments.toNat := by
    rw [UInt64.size] at hdepth hmost
    omega
  rw [run, exec_bind, exec_call, hover, if_neg (Nat.not_lt_zero _), if_pos hdeep]

/-- The arithmetic of an operation goes right, so that it comes to an end that it should come to,
    but for one number of arguments. -/
structure Exact (op : Operation) (i : Interpreter) : Prop where
  /-- All that can go wrong is that there is no word for one more than the arguments. -/
  traps : ∀ trap, Words.exec op.inWords i = .error trap ↔ trap = .addition ∧ ¬ op.Bounded
  /-- Otherwise the words are the numbers that the operation goes by. -/
  runs : op.Bounded → Words.exec op.inWords i = .ok (exec op.run i)
  ends : op.Bounded → Step i op (exec op.run i).1 (exec op.run i).2
  /-- A call with too many arguments for the stack is an underflow, and leaves the stack. -/
  underflow : ∀ arguments results, op = .call arguments results → op.Bounded →
    i.stack.length ≤ arguments.toNat →
    exec op.run i =
      (.error (.stack (.underflow (arguments.toNat + 1) i.stack.length)), i)
  /-- With the greatest number of arguments it is none: it breaks off. -/
  aborts : ¬ op.Bounded → ∃ arguments results, op = .call arguments results ∧
    arguments.toNat + 1 = UInt64.size ∧ exec op.run i = (.error (.aborted arguments), i)

end Operation

/-- Whatever is on a stack and whatever an operation is given: places are calculated right, and so
    is everything else that operations do, with the exception of one number of arguments. A
    vector of values never holds as many as half of the words. -/
theorem calculations_are_exact (i : Interpreter) (hdepth : i.stack.length < UInt64.size / 2) :
    (∀ index, ∃ result, Words.exec (Words.place index) i = .ok (result, i) ∧
      exec (place index) i = (result.map UInt64.toNat, i)) ∧
    ∀ op : Operation, op.Fits → op.Exact i := by
  have hword : i.stack.length < UInt64.size :=
    Nat.lt_of_lt_of_le hdepth (Nat.div_le_self _ _)
  refine ⟨Words.exec_place hword, fun op hfits => ?_⟩
  constructor
  case traps =>
    intro trap
    by_cases hop : op.Bounded
    · rw [Operation.exec_inWords hword hfits hop]
      simp [hop]
    · rw [Operation.exec_inWords_of_not_bounded hword hop]
      simp [hop, eq_comm]
  case runs => exact Operation.exec_inWords hword hfits
  case ends => exact fun hop => (exec_eq_iff_step hop).1 rfl
  case underflow =>
    rintro arguments results rfl hop hfew
    exact exec_of_step hop (.callOfTooFew (Nat.lt_succ_of_le hfew))
  case aborts => exact Operation.exec_of_not_bounded hdepth

/-- The least index, the greatest number of values, and the greatest number of arguments that can be
    added to, on a stack of two values. -/
theorem calculations_at_extremes :
    let i : Interpreter := { Interpreter.new default 1 with stack := [.integer 1, .nil] }
    i.stack.length < UInt64.size / 2 ∧
      (Operation.remove Int32.minValue).Exact i ∧
      (Operation.pop 18446744073709551615).Exact i ∧
      (Operation.call 18446744073709551614 .all).Exact i := by
  intro i
  have hdepth : i.stack.length < UInt64.size / 2 := by decide
  have hexact := (calculations_are_exact i hdepth).2
  exact ⟨hdepth, hexact _ trivial, hexact _ (by decide : 18446744073709551615 < UInt64.size),
    hexact _ trivial⟩

/-- A call with more arguments than values is not always an underflow, and can go wrong where it
    counts what it needs. -/
theorem not_underflow_of_most_arguments :
    ¬ ∀ (i : Interpreter) (arguments : UInt64) (results : ResultCount),
      i.stack.length < UInt64.size / 2 → i.stack.length ≤ arguments.toNat →
        (∃ outcome, Words.exec (Words.call arguments results) i = .ok outcome) ∧
        ∃ needed, exec (call arguments results) i =
          (.error (.stack (.underflow needed i.stack.length)), i) := by
  intro h
  obtain ⟨-, needed, hcall⟩ :=
    h (Interpreter.new default 1) 18446744073709551615 .all (by decide) (by decide)
  -- One more than that many starts over at nothing, and so many values there are.
  have hover : ((18446744073709551615 : UInt64) + 1).toNat = 0 := by decide
  rw [exec_call, hover, if_neg (Nat.not_lt_zero _), if_pos (by decide)] at hcall
  cases hcall

end EventBridge.Host
