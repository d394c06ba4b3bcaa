import EventBridge.Proofs.Discipline.Library

/-! # Walks over a table

  A walk by the function in place goes through the entries of a table in order. Over a table whose
  keys are names it visits each of them once, and changes nothing (`start_walkKeys_of_names`).
-/

namespace EventBridge.Script

variable {contexts : Contexts} {m : Machine}

/-- What a step of a walk gives for the entries that are still to come. -/
def upcoming : List (Value × Value) → List Value
  | (key, value) :: _ => [key, value]
  | [] => [.nil]

theorem entryAfter_nil (table : Table) : entryAfter table .nil = some (upcoming table.entries) := by
  unfold entryAfter
  cases table.entries <;> rfl

/-- The entry behind one whose key does not occur before it. -/
theorem entryAfter_of_split {table : Table} {front rest : List (Value × Value)} {key value : Value}
    (hentries : table.entries = front ++ (key, value) :: rest) (hkey : key.key = key)
    (hnil : key ≠ .nil) (hfront : ∀ entry ∈ front, entry.1 ≠ key) :
    entryAfter table key = some (upcoming rest) := by
  have hdrop :
      table.entries.dropWhile (fun entry => entry.1 != key.key) = (key, value) :: rest := by
    rw [hentries, hkey, List.dropWhile_append_of_pos, List.dropWhile_cons_of_neg]
    · simp
    · intro entry hmem
      simpa using hfront entry hmem
  unfold entryAfter
  rw [if_neg hnil, hdrop]
  cases rest <;> rfl

/-- One step of a walk by the function in place. -/
theorem start_walkKeys_succ (depth : Nat) {step : Nat}
    (hstep : m.functions[step]? = some (.builtin .next)) {id : Nat} {control : Value}
    {results : List Value} (hnext : entryAfter (m.table id) control = some results) (fuel : Nat) :
    (walkKeys (apply (depth + 1)) (.function step) (.table id) (fuel + 1) control).start
        contexts m =
      (match firstOf results with
        | .nil => pure []
        | .string bytes =>
          (bytes :: ·) <$>
            walkKeys (apply (depth + 1)) (.function step) (.table id) fuel (.string bytes)
        | other => walkKeys (apply (depth + 1)) (.function step) (.table id) fuel other :
          Eval (List ByteArray)).start contexts m := by
  have hcall : (apply (depth + 1) (.function step) [.table id, control]).start contexts m =
      (.ok results, m) := by
    rw [start_apply_function, hstep]
    exact (start_next (apply depth) id control contexts m).trans (by rw [hnext])
  rw [walkKeys, Eval.start_bind, hcall]
  dsimp only
  cases firstOf results with
  | string bytes =>
    dsimp only
    rw [map_eq_pure_bind]
  | _ => rfl

/-- A walk over a table with names for keys visits them in order, and changes nothing. -/
theorem start_walkKeys_of_names (depth : Nat) {step : Nat}
    (hstep : m.functions[step]? = some (.builtin .next)) {id : Nat}
    {pairs : List (ByteArray × Value)}
    (hentries : (m.table id).entries = pairs.map fun pair => (Value.string pair.1, pair.2))
    (hnodup : (pairs.map Prod.fst).Nodup) {fuel : Nat} (hfuel : pairs.length < fuel) :
    (walkKeys (apply (depth + 1)) (.function step) (.table id) fuel .nil).start contexts m =
      (.ok (pairs.map Prod.fst), m) := by
  have hname : ∀ {front rest : List (ByteArray × Value)} {pair : ByteArray × Value},
      pairs = front ++ pair :: rest → entryAfter (m.table id) (.string pair.1) =
        some (upcoming (rest.map fun pair => (Value.string pair.1, pair.2))) := by
    intro front rest pair hsplit
    have hentries : (m.table id).entries = (front.map fun pair => (Value.string pair.1, pair.2)) ++
        (Value.string pair.1, pair.2) :: rest.map fun pair => (Value.string pair.1, pair.2) := by
      rw [hentries, hsplit, List.map_append, List.map_cons]
    refine entryAfter_of_split hentries rfl nofun ?_
    rintro _ hmem heq
    obtain ⟨other, hother, rfl⟩ := List.mem_map.1 hmem
    rw [hsplit, List.map_append, List.map_cons] at hnodup
    have hdisjoint := (List.nodup_append.1 hnodup).2.2
    exact hdisjoint other.1 (List.mem_map_of_mem hother) pair.1 List.mem_cons_self
      (Value.string.inj heq)
  -- What is still to come is visited in order, whatever has been visited before.
  have hrest : ∀ (rest front : List (ByteArray × Value)) (control : Value) (fuel : Nat),
      pairs = front ++ rest → rest.length < fuel →
      entryAfter (m.table id) control =
        some (upcoming (rest.map fun pair => (Value.string pair.1, pair.2))) →
      (walkKeys (apply (depth + 1)) (.function step) (.table id) fuel control).start contexts m =
        (.ok (rest.map Prod.fst), m) := by
    intro rest
    induction rest with
    | nil =>
      intro front control fuel _ hfuel hcontrol
      obtain ⟨fuel, rfl⟩ := Nat.exists_eq_add_one_of_ne_zero (Nat.ne_of_gt hfuel)
      rw [start_walkKeys_succ depth hstep hcontrol]
      rfl
    | cons pair rest ih =>
      intro front control fuel hsplit hfuel hcontrol
      obtain ⟨fuel, rfl⟩ :=
        Nat.exists_eq_add_one_of_ne_zero (Nat.ne_of_gt (Nat.zero_lt_of_lt hfuel))
      have hsplit' : pairs = (front ++ [pair]) ++ rest := by rw [hsplit, List.append_assoc]; rfl
      rw [start_walkKeys_succ depth hstep hcontrol]
      show ((pair.1 :: ·) <$> walkKeys (apply (depth + 1)) (.function step) (.table id) fuel
        (.string pair.1)).start contexts m = _
      rw [Eval.start_map, ih _ (.string pair.1) fuel hsplit' (Nat.lt_of_succ_lt_succ hfuel)
        (hname hsplit)]
      rfl
  refine hrest pairs [] .nil fuel rfl hfuel ?_
  rw [entryAfter_nil, hentries]

end EventBridge.Script
