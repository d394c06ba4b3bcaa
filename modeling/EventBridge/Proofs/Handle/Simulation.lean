import EventBridge.Proofs.Handle.Ideal
import EventBridge.Proofs.Handle.Laws

/-! # Tables of handles keep to their ideal

  `Sim` relates the tables of a client with what the ideal knows of them. It holds at first and is
  kept by every request; what the ideal promises is read off it.

  * `sim_run`: the relation holds after any list of requests.
  * `run_keepsTo`: the tables answer as the ideal says.
-/

namespace EventBridge.HandleTable

variable {α : Type}

/-! ## The relation -/

/-- What a handle stands for on the table that gave it out. -/
def Issue.answer (issue : Issue α) : Except Misuse α :=
  if issue.released then .error .stale else .ok issue.thing

/-- A table is in the state that the ideal of its number asks for. -/
structure Ideal.Describes (ideal : Ideal α) (t : Nat) (table : HandleTable α) : Prop where
  id : table.id = t + 1
  live : table.live = ideal.held t
  peak : ideal.peaks[t]? = some table.slots.length
  generation : table.nextGeneration = ideal.issuedBy t + 1

/-- A handle was given out as an issue says, and stands for what the issue says. -/
def World.Backs (world : World α) (k : Nat) (issue : Issue α) : Prop :=
  ∃ table handle, world.tables[issue.table]? = some table ∧ world.handles[k]? = some handle ∧
    table.Issued handle ∧ table.resolve handle = issue.answer

/-- The relation between the tables and the ideal that every request keeps. -/
structure Sim (world : World α) (ideal : Ideal α) : Prop where
  tables : world.tables.length = ideal.peaks.length
  handles : world.handles.length = ideal.issues.length
  distinct : world.handles.Nodup
  table : ∀ t table, world.tables[t]? = some table → ideal.Describes t table
  issue : ∀ k issue, ideal.issues[k]? = some issue → world.Backs k issue

theorem sim_initial : Sim (World.initial : World α) Ideal.initial where
  tables := rfl
  handles := rfl
  distinct := List.nodup_nil
  table := by intro t table h; simp [World.initial] at h
  issue := by intro k issue h; simp [Ideal.initial] at h

section steps
variable {world : World α} {ideal : Ideal α}

/-- The table of an issue is one of those there are. -/
theorem Sim.issue_table_lt (hsim : Sim world ideal) {issue : Issue α}
    (hmem : issue ∈ ideal.issues) : issue.table < world.tables.length := by
  obtain ⟨k, hk⟩ := List.mem_iff_getElem?.1 hmem
  obtain ⟨table, handle, htable, -⟩ := hsim.issue k issue hk
  exact (List.getElem?_eq_some_iff.1 htable).1

/-- Each handle has its issue. -/
theorem Sim.exists_issue (hsim : Sim world ideal) {handle : Handle}
    (hmem : handle ∈ world.handles) : ∃ (k : Nat) (issue : Issue α),
      ideal.issues[k]? = some issue ∧ world.handles[k]? = some handle := by
  obtain ⟨k, hk⟩ := List.mem_iff_getElem?.1 hmem
  have hlt : k < ideal.issues.length := by
    rw [← hsim.handles]; exact (List.getElem?_eq_some_iff.1 hk).1
  exact ⟨k, ideal.issues[k], List.getElem?_eq_getElem hlt, hk⟩

/-- What a table hands out next is none of the handles there are, of whatever table. -/
theorem Sim.insert_notMem (hsim : Sim world ideal) {t : Nat} {table : HandleTable α}
    (htable : world.tables[t]? = some table) (a : α) : (table.insert a).1 ∉ world.handles := by
  intro hmem
  obtain ⟨k, issue, hissue, hk⟩ := hsim.exists_issue hmem
  obtain ⟨owner, handle, howner, hhandle, hissued, -⟩ := hsim.issue k issue hissue
  have heq : handle = (table.insert a).1 := by
    rw [hk] at hhandle
    exact (Option.some.inj hhandle).symm
  -- A handle of the same number of table is of the same table, where generations never repeat.
  have hid : owner.id = table.id := by
    have h := (issued_insert_self table a).ofTable
    rw [← heq, hissued.ofTable, id_insert] at h
    exact h
  have hsame : issue.table = t := by
    have h₁ := (hsim.table _ _ howner).id
    have h₂ := (hsim.table _ _ htable).id
    omega
  rw [hsame, htable] at howner
  cases howner
  exact hissued.ne_insert a heq

/-- A new table has given out nothing. -/
theorem Sim.describes_empty (hsim : Sim world ideal) :
    Ideal.Describes { ideal with peaks := ideal.peaks ++ [0] } world.tables.length
      (HandleTable.empty (world.tables.length + 1)) := by
  have hnone : ∀ issue ∈ ideal.issues, issue.table ≠ world.tables.length := fun issue hmem =>
    Nat.ne_of_lt (hsim.issue_table_lt hmem)
  refine ⟨rfl, ?_, ?_, ?_⟩
  · rw [live_empty]
    refine (List.countP_eq_zero.2 ?_).symm
    intro issue hmem
    simp [hnone issue hmem]
  · simp [hsim.tables, HandleTable.empty]
  · have h : ideal.issues.countP (fun issue => issue.table == world.tables.length) = 0 :=
      List.countP_eq_zero.2 fun issue hmem => by simp [hnone issue hmem]
    show 1 = ideal.issues.countP _ + 1
    rw [h]

theorem Sim.create (hsim : Sim world ideal) :
    Sim world.create { ideal with peaks := ideal.peaks ++ [0] } where
  tables := by simp [World.create, hsim.tables]
  handles := hsim.handles
  distinct := hsim.distinct
  table := by
    intro t table ht
    rcases Nat.lt_trichotomy t world.tables.length with hlt | heq | hgt
    · rw [World.create, List.getElem?_append_left hlt] at ht
      have hdesc := hsim.table t table ht
      refine ⟨hdesc.id, hdesc.live, ?_, hdesc.generation⟩
      show (ideal.peaks ++ [0])[t]? = _
      rw [List.getElem?_append_left (hsim.tables ▸ hlt)]
      exact hdesc.peak
    · subst heq
      simp only [World.create, List.getElem?_concat_length, Option.some.injEq] at ht
      subst ht
      exact hsim.describes_empty
    · rw [World.create, List.getElem?_eq_none (by simp; omega)] at ht
      cases ht
  issue := by
    intro k issue hk
    obtain ⟨table, handle, htable, hrest⟩ := hsim.issue k issue hk
    have hlt := (List.getElem?_eq_some_iff.1 htable).1
    exact ⟨table, handle, by rw [World.create, List.getElem?_append_left hlt]; exact htable, hrest⟩

/-- Putting a thing into a table makes its counts what the ideal says. -/
theorem Sim.describes_insert (hsim : Sim world ideal) {t peak : Nat} {table : HandleTable α}
    (htable : world.tables[t]? = some table) (hpeak : ideal.peaks[t]? = some peak) (a : α) :
    Ideal.Describes
      ⟨ideal.peaks.set t (max peak (ideal.held t + 1)), ideal.issues ++ [⟨t, a, false⟩]⟩
      t (table.insert a).2 := by
  have hdesc := hsim.table t table htable
  have hlt : t < ideal.peaks.length := (List.getElem?_eq_some_iff.1 hpeak).1
  have hslots : table.slots.length = peak := by
    have h := hdesc.peak
    rw [hpeak] at h
    exact (Option.some.inj h).symm
  refine ⟨?_, ?_, ?_, ?_⟩
  · rw [id_insert]; exact hdesc.id
  · rw [live_insert, hdesc.live]
    simp [Ideal.held, List.countP_append]
  · rw [length_slots_insert, hdesc.live, hslots]
    exact List.getElem?_set_self hlt
  · rw [nextGeneration_insert, hdesc.generation]
    simp [Ideal.issuedBy, List.countP_append]

/-- Putting a thing into one table leaves the counts of the others as they are. -/
theorem Ideal.Describes.insert_of_ne {t u peak : Nat} {table : HandleTable α}
    (hdesc : ideal.Describes u table) (hne : t ≠ u) (a : α) :
    Ideal.Describes ⟨ideal.peaks.set t peak, ideal.issues ++ [⟨t, a, false⟩]⟩ u table := by
  refine ⟨hdesc.id, ?_, ?_, ?_⟩
  · rw [hdesc.live]
    simp [Ideal.held, List.countP_append, hne]
  · show (ideal.peaks.set t peak)[u]? = _
    rw [List.getElem?_set_ne hne]
    exact hdesc.peak
  · rw [hdesc.generation]
    simp [Ideal.issuedBy, List.countP_append, hne]

/-- A handle stays with its table and its meaning, whichever table is filled. -/
theorem World.Backs.insert {k : Nat} {issue : Issue α} (h : world.Backs k issue) (t : Nat) (a : α) :
    (world.insert t a).Backs k issue := by
  cases htable : world.tables[t]? with
  | none => simpa only [World.insert, htable] using h
  | some table =>
    obtain ⟨owner, handle, howner, hhandle, hissued, hres⟩ := h
    simp only [World.insert, htable]
    have hkeep : (world.handles ++ [(table.insert a).1])[k]? = some handle := by
      rw [List.getElem?_append_left (List.getElem?_eq_some_iff.1 hhandle).1]
      exact hhandle
    by_cases hut : t = issue.table
    · rw [← hut, htable] at howner
      cases howner
      refine ⟨(table.insert a).2, handle, ?_, hkeep, hissued.insert a, ?_⟩
      · rw [← hut]
        exact List.getElem?_set_self (List.getElem?_eq_some_iff.1 htable).1
      · rw [resolve_insert_of_issued hissued]
        exact hres
    · refine ⟨owner, handle, ?_, hkeep, hissued, hres⟩
      rw [List.getElem?_set_ne hut]
      exact howner

theorem Sim.insert (hsim : Sim world ideal) (t : Nat) (a : α) :
    Sim (world.insert t a) (ideal.insert t a) := by
  cases htable : world.tables[t]? with
  | none =>
    have hpeak : ideal.peaks[t]? = none := by
      rw [List.getElem?_eq_none_iff] at htable ⊢
      rw [← hsim.tables]; exact htable
    simpa only [World.insert, htable, Ideal.insert, hpeak] using hsim
  | some table =>
    have hpeak := (hsim.table t table htable).peak
    have hlt : t < world.tables.length := (List.getElem?_eq_some_iff.1 htable).1
    have hbacks := fun k issue hk => (hsim.issue k issue hk).insert t a
    simp only [World.insert, htable, Ideal.insert, hpeak] at hbacks ⊢
    refine ⟨?_, ?_, ?_, ?_, ?_⟩
    · simp only [List.length_set, hsim.tables]
    · simp only [List.length_append, List.length_singleton, hsim.handles]
    · rw [List.nodup_append]
      refine ⟨hsim.distinct, List.pairwise_singleton _ _, ?_⟩
      intro handle hmem other hother heq
      rw [List.mem_singleton.1 hother] at heq
      exact hsim.insert_notMem htable a (heq ▸ hmem)
    · intro u other hu
      by_cases hut : t = u
      · subst hut
        simp only [List.getElem?_set_self hlt, Option.some.injEq] at hu
        rw [← hu]
        exact hsim.describes_insert htable hpeak a
      · simp only [List.getElem?_set_ne hut] at hu
        exact (hsim.table u other hu).insert_of_ne hut a
    · intro k issue hk
      rcases Nat.lt_or_ge k ideal.issues.length with hold | hnew
      · rw [List.getElem?_append_left hold] at hk
        exact hbacks k issue hk
      · -- The handle is the new one.
        obtain ⟨hlast, hnewIssue⟩ : k = ideal.issues.length ∧ issue = ⟨t, a, false⟩ := by
          have hklt := (List.getElem?_eq_some_iff.1 hk).1
          simp only [List.length_append, List.length_singleton] at hklt
          have hkeq : k = ideal.issues.length := by omega
          subst hkeq
          simp only [List.getElem?_concat_length, Option.some.injEq] at hk
          exact ⟨rfl, hk.symm⟩
        subst hlast
        subst hnewIssue
        refine ⟨(table.insert a).2, (table.insert a).1, List.getElem?_set_self hlt, ?_,
          issued_insert_self table a, resolve_insert table a⟩
        rw [← hsim.handles]
        exact List.getElem?_concat_length

/-- What a handle stands for on a table is what its issue says there. -/
theorem Sim.resolve_eq (hsim : Sim world ideal) {t k : Nat} {issue : Issue α}
    (ht : t < world.tables.length) (hk : ideal.issues[k]? = some issue) :
    world.resolve t k = some (if issue.table = t then issue.answer else .error .foreign) := by
  obtain ⟨owner, handle, howner, hhandle, hissued, hres⟩ := hsim.issue k issue hk
  have htable := List.getElem?_eq_getElem ht
  simp only [World.resolve, htable, hhandle, Option.some.injEq]
  by_cases heq : issue.table = t
  · rw [heq, htable] at howner
    rw [if_pos heq, Option.some.inj howner]
    exact hres
  · rw [if_neg heq]
    apply resolve_of_table_ne
    rw [hissued.ofTable, (hsim.table _ _ howner).id, (hsim.table _ _ htable).id]
    omega

/-- Without a table or without a handle there is nothing to find. -/
theorem Sim.resolve_eq_none (hsim : Sim world ideal) {t k : Nat}
    (h : ¬ t < world.tables.length ∨ ideal.issues[k]? = none) : world.resolve t k = none := by
  rcases h with ht | hk
  · simp [World.resolve, List.getElem?_eq_none (Nat.le_of_not_lt ht)]
  · rw [List.getElem?_eq_none_iff, ← hsim.handles, ← List.getElem?_eq_none_iff] at hk
    simp only [World.resolve, hk]
    split
    · next h => cases h
    · rfl

/-- So what is found anywhere is what the issues say. -/
theorem Sim.resolve_eq_some_iff (hsim : Sim world ideal) {t k : Nat} {answer : Except Misuse α} :
    world.resolve t k = some answer ↔ t < world.tables.length ∧ ∃ issue,
      ideal.issues[k]? = some issue ∧
      (if issue.table = t then issue.answer else .error .foreign) = answer := by
  constructor
  · intro h
    by_cases ht : t < world.tables.length
    · cases hk : ideal.issues[k]? with
      | none =>
        rw [hsim.resolve_eq_none (.inr hk)] at h
        cases h
      | some issue =>
        rw [hsim.resolve_eq ht hk] at h
        exact ⟨ht, issue, rfl, Option.some.inj h⟩
    · rw [hsim.resolve_eq_none (.inl ht)] at h
      cases h
  · rintro ⟨ht, issue, hk, rfl⟩
    exact hsim.resolve_eq ht hk

theorem Sim.resolve_ok_iff (hsim : Sim world ideal) (t k : Nat) (a : α) :
    world.resolve t k = some (.ok a) ↔ ideal.issues[k]? = some ⟨t, a, false⟩ := by
  rw [hsim.resolve_eq_some_iff]
  constructor
  · rintro ⟨-, ⟨table, thing, released⟩, hk, hanswer⟩
    by_cases heq : table = t <;> cases released <;> simp_all [Issue.answer]
  · intro hk
    exact ⟨hsim.issue_table_lt (List.mem_of_getElem? hk), _, hk, if_pos rfl⟩

theorem Sim.resolve_stale_iff (hsim : Sim world ideal) (t k : Nat) :
    world.resolve t k = some (.error .stale) ↔ ∃ a, ideal.issues[k]? = some ⟨t, a, true⟩ := by
  rw [hsim.resolve_eq_some_iff]
  constructor
  · rintro ⟨-, ⟨table, thing, released⟩, hk, hanswer⟩
    by_cases heq : table = t <;> cases released <;> simp_all [Issue.answer]
  · rintro ⟨a, hk⟩
    exact ⟨hsim.issue_table_lt (List.mem_of_getElem? hk), _, hk, if_pos rfl⟩

theorem Sim.resolve_foreign_iff (hsim : Sim world ideal) (t k : Nat) :
    world.resolve t k = some (.error .foreign) ↔
      t < world.tables.length ∧ ∃ issue, ideal.issues[k]? = some issue ∧ issue.table ≠ t := by
  rw [hsim.resolve_eq_some_iff]
  refine and_congr_right fun _ => exists_congr fun issue => and_congr_right fun _ => ?_
  constructor
  · -- Its own table does not find a handle foreign, released or not.
    intro hanswer heq
    rw [if_pos heq, Issue.answer] at hanswer
    split at hanswer <;> cases hanswer
  · intro hne
    rw [if_neg hne]

/-- Where a handle stands for nothing, releasing it changes nothing. -/
theorem World.release_of_not_ok {t k : Nat} (h : ∀ a, world.resolve t k ≠ some (.ok a)) :
    world.release t k = (none, world) := by
  simp only [World.resolve, World.release] at h ⊢
  split
  · next table handle htable hhandle =>
    simp only [htable, hhandle] at h
    cases hres : table.resolve handle with
    | ok a => exact absurd (by rw [hres]) (h a)
    | error cause =>
      obtain ⟨hlt, hget⟩ := List.getElem?_eq_some_iff.1 htable
      rw [release_of_resolve_error hres]
      simp only [← hget, List.set_getElem_self]
  · rfl

/-- Where a handle stands for a thing, releasing it takes the thing out of the table. -/
theorem World.release_of_ok {t k : Nat} {a : α} (h : world.resolve t k = some (.ok a)) :
    ∃ table handle, world.tables[t]? = some table ∧ world.handles[k]? = some handle ∧
      table.resolve handle = .ok a ∧ world.release t k =
        (some a, { world with tables := world.tables.set t (table.release handle).2 }) := by
  simp only [World.resolve] at h
  split at h
  · next table handle htable hhandle =>
    have hres := Option.some.inj h
    refine ⟨table, handle, htable, hhandle, hres, ?_⟩
    simp only [World.release, htable, hhandle, release_of_resolve_ok hres]
  · cases h

/-- Releasing what is not in use is nothing new. -/
theorem Ideal.release_of_not_held {t k : Nat}
    (h : ∀ a, ideal.issues[k]? ≠ some ⟨t, a, false⟩) : ideal.release t k = ideal := by
  simp only [Ideal.release]
  split
  · next issue hk =>
    split
    · next ht =>
      obtain ⟨hlt, hget⟩ := List.getElem?_eq_some_iff.1 hk
      have hreleased : issue.released = true := by
        cases hr : issue.released with
        | true => rfl
        | false => exact absurd (by rw [hk]; cases issue; simp_all) (h issue.thing)
      have hsame : ({ issue with released := true } : Issue α) = issue := by rw [← hreleased]
      rw [hsame, ← hget, List.set_getElem_self]
    · rfl
  · rfl

/-- Releasing a handle in use makes the counts of its table what the ideal says, and leaves those of
    the others as they are. -/
theorem Sim.describes_release (hsim : Sim world ideal) {t k u : Nat} {a : α}
    {table other : HandleTable α} {handle : Handle} (hk : ideal.issues[k]? = some ⟨t, a, false⟩)
    (htable : world.tables[t]? = some table) (hres : table.resolve handle = .ok a)
    (hother : (world.tables.set t (table.release handle).2)[u]? = some other) :
    Ideal.Describes { ideal with issues := ideal.issues.set k ⟨t, a, true⟩ } u other := by
  obtain ⟨hlt, hget⟩ := List.getElem?_eq_some_iff.1 hk
  have hissued : ∀ v, (ideal.issues.set k ⟨t, a, true⟩).countP (fun issue => issue.table == v) =
      ideal.issuedBy v := by
    intro v
    have hpos : (if t == v then 1 else 0) ≤
        ideal.issues.countP (fun issue => issue.table == v) := by
      split
      · next h => exact List.countP_pos_iff.2 ⟨_, List.getElem_mem hlt, by rw [hget]; exact h⟩
      · exact Nat.zero_le _
    rw [List.countP_set hlt, hget, Ideal.issuedBy]
    simp only [beq_iff_eq] at hpos ⊢
    omega
  have hheld : ∀ v, (ideal.issues.set k ⟨t, a, true⟩).countP
      (fun issue => issue.table == v && !issue.released) + (if t = v then 1 else 0) =
      ideal.held v := by
    intro v
    have hpos : (if t = v then 1 else 0) ≤ ideal.held v := by
      split
      · next h => exact List.countP_pos_iff.2 ⟨_, List.getElem_mem hlt, by rw [hget]; simp [h]⟩
      · exact Nat.zero_le _
    rw [List.countP_set hlt, hget]
    simp only [Ideal.held, Bool.not_true, Bool.and_false, Bool.false_eq_true, if_false,
      Bool.not_false, Bool.and_true, beq_iff_eq] at hpos ⊢
    omega
  by_cases hut : t = u
  · subst hut
    rw [List.getElem?_set_self (List.getElem?_eq_some_iff.1 htable).1] at hother
    cases hother
    have hdesc := hsim.table t table htable
    refine ⟨?_, ?_, ?_, ?_⟩
    · rw [id_release]; exact hdesc.id
    · have hlive := live_release_of_resolve_ok hres
      have hcount := hheld t
      rw [if_pos rfl, ← hdesc.live] at hcount
      show _ = (ideal.issues.set k ⟨t, a, true⟩).countP _
      omega
    · rw [length_slots_release]; exact hdesc.peak
    · rw [nextGeneration_release, hdesc.generation, ← hissued t]
      rfl
  · rw [List.getElem?_set_ne hut] at hother
    have hdesc := hsim.table u other hother
    refine ⟨hdesc.id, ?_, hdesc.peak, ?_⟩
    · rw [hdesc.live, ← hheld u, if_neg hut]
      rfl
    · rw [hdesc.generation, ← hissued u]
      rfl

/-- A handle keeps its meaning when another is released, on whichever table. -/
theorem World.Backs.release {k t j : Nat} {issue : Issue α} (h : world.Backs k issue)
    (hne : world.handles[k]? ≠ world.handles[j]?) : (world.release t j).2.Backs k issue := by
  unfold World.release
  split
  · next table released htable hreleased =>
    obtain ⟨owner, handle, howner, hhandle, hissued, hres⟩ := h
    have hother : handle ≠ released := by
      intro heq
      rw [heq, ← hreleased] at hhandle
      exact hne hhandle
    by_cases hut : t = issue.table
    · rw [← hut, htable] at howner
      cases howner
      refine ⟨(table.release released).2, handle, ?_, hhandle, hissued.release released, ?_⟩
      · rw [← hut]
        exact List.getElem?_set_self (List.getElem?_eq_some_iff.1 htable).1
      · rw [resolve_release_of_ne table hother]
        exact hres
    · refine ⟨owner, handle, ?_, hhandle, hissued, hres⟩
      rw [List.getElem?_set_ne hut]
      exact howner
  · exact h

theorem Sim.release (hsim : Sim world ideal) (t k : Nat) :
    Sim (world.release t k).2 (ideal.release t k) := by
  by_cases hheld : ∃ a, ideal.issues[k]? = some ⟨t, a, false⟩
  · obtain ⟨a, hk⟩ := hheld
    have ht : t < world.tables.length := hsim.issue_table_lt (List.mem_of_getElem? hk)
    obtain ⟨table, handle, htable, hhandle, hok, hrel⟩ :=
      World.release_of_ok ((hsim.resolve_ok_iff t k a).2 hk)
    rw [hrel]
    simp only [Ideal.release, hk, if_true]
    refine ⟨?_, ?_, hsim.distinct, ?_, ?_⟩
    · simp only [List.length_set, hsim.tables]
    · simp only [List.length_set, hsim.handles]
    · intro u other hother
      exact hsim.describes_release hk htable hok hother
    · intro j issue hj
      by_cases hkj : k = j
      · -- The handle itself: stale from here on.
        subst hkj
        rw [List.getElem?_set_self (List.getElem?_eq_some_iff.1 hk).1] at hj
        cases hj
        obtain ⟨owner, handle', howner, hhandle', hissued, -⟩ := hsim.issue k _ hk
        rw [htable] at howner
        rw [hhandle] at hhandle'
        cases howner
        cases hhandle'
        exact ⟨(table.release handle).2, handle, List.getElem?_set_self ht, hhandle,
          hissued.release handle, hissued.resolve_release⟩
      · -- Any other handle is a different one.
        rw [List.getElem?_set_ne hkj] at hj
        have hne : world.handles[j]? ≠ world.handles[k]? := by
          intro heq
          have hlt := (List.getElem?_eq_some_iff.1 hhandle).1
          exact hkj ((List.getElem?_inj hlt hsim.distinct).1 heq.symm)
        have hbacks : (world.release t k).2.Backs j issue := (hsim.issue j issue hj).release hne
        rwa [hrel] at hbacks
  · have hnot : ∀ a, ideal.issues[k]? ≠ some ⟨t, a, false⟩ := fun a h => hheld ⟨a, h⟩
    rw [Ideal.release_of_not_held hnot, World.release_of_not_ok]
    · exact hsim
    · exact fun a hres => hnot a ((hsim.resolve_ok_iff t k a).1 hres)

theorem Sim.step (hsim : Sim world ideal) (request : Request α) :
    Sim (world.step request) (ideal.step request) := by
  cases request with
  | create => exact hsim.create
  | insert t a => exact hsim.insert t a
  | resolve t k => exact hsim
  | release t k => exact hsim.release t k

/-- Any number of requests keeps the relation. -/
theorem Sim.foldl (hsim : Sim world ideal) (requests : List (Request α)) :
    Sim (requests.foldl World.step world) (requests.foldl Ideal.step ideal) := by
  induction requests generalizing world ideal with
  | nil => exact hsim
  | cons request rest ih => exact ih (hsim.step request)

end steps

/-- Whatever a client did, the relation holds. -/
theorem sim_run (requests : List (Request α)) : Sim (World.run requests) (Ideal.run requests) :=
  sim_initial.foldl requests

/-! ## What the relation says -/

section consequences
variable {world : World α} {ideal : Ideal α}

/-- Two pairs of tables and ideal that are related find the same under a handle that both know the
    same of. -/
theorem Sim.resolve_congr {world' : World α} {ideal' : Ideal α} (hsim : Sim world ideal)
    (hsim' : Sim world' ideal') (hlen : world'.tables.length = world.tables.length) {k : Nat}
    (hk : ideal'.issues[k]? = ideal.issues[k]?) (u : Nat) :
    world'.resolve u k = world.resolve u k := by
  by_cases hu : u < world.tables.length
  · cases hissue : ideal.issues[k]? with
    | none =>
      rw [hsim.resolve_eq_none (.inr hissue), hsim'.resolve_eq_none (.inr (hk.trans hissue))]
    | some issue =>
      rw [hsim.resolve_eq hu hissue, hsim'.resolve_eq (hlen ▸ hu) (hk.trans hissue)]
  · rw [hsim.resolve_eq_none (.inl hu), hsim'.resolve_eq_none (.inl (hlen ▸ hu))]

theorem Sim.resolve_insert (hsim : Sim world ideal) (t : Nat) (a : α) (u : Nat) {k : Nat}
    (hk : k < world.handles.length) : (world.insert t a).resolve u k = world.resolve u k := by
  refine hsim.resolve_congr (hsim.insert t a) ?_ ?_ u
  · unfold World.insert
    split
    · simp only [List.length_set]
    · rfl
  · unfold Ideal.insert
    split
    · exact List.getElem?_append_left (hsim.handles ▸ hk)
    · rfl

theorem Sim.resolve_release (hsim : Sim world ideal) (t : Nat) {j k : Nat} (hne : k ≠ j) (u : Nat) :
    (world.release t j).2.resolve u k = world.resolve u k := by
  refine hsim.resolve_congr (hsim.release t j) ?_ ?_ u
  · unfold World.release
    split
    · simp only [List.length_set]
    · rfl
  · unfold Ideal.release
    split
    · split
      · exact List.getElem?_set_ne (Ne.symm hne)
      · rfl
    · rfl

theorem Sim.release_some_iff (hsim : Sim world ideal) (t k : Nat) (a : α) :
    (world.release t k).1 = some a ↔ ideal.issues[k]? = some ⟨t, a, false⟩ := by
  rw [← hsim.resolve_ok_iff]
  constructor
  · intro h
    by_cases hok : ∃ b, world.resolve t k = some (.ok b)
    · obtain ⟨b, hb⟩ := hok
      obtain ⟨_, _, _, _, _, hrel⟩ := World.release_of_ok hb
      rw [hrel] at h
      cases h
      exact hb
    · rw [World.release_of_not_ok fun b hb => hok ⟨b, hb⟩] at h
      cases h
  · intro h
    obtain ⟨_, _, _, _, _, hrel⟩ := World.release_of_ok h
    rw [hrel]

theorem World.release_of_none {t k : Nat} (h : (world.release t k).1 = none) :
    world.release t k = (none, world) := by
  apply World.release_of_not_ok
  intro a hok
  obtain ⟨_, _, _, _, _, hrel⟩ := World.release_of_ok hok
  rw [hrel] at h
  cases h

theorem Sim.live_eq (hsim : Sim world ideal) {t : Nat} (ht : t < world.tables.length) :
    world.live t = some (ideal.held t) := by
  have htable := List.getElem?_eq_getElem ht
  rw [World.live, htable, ← (hsim.table t _ htable).live]
  rfl

theorem Sim.numbers_le (hsim : Sim world ideal) {k : Nat} {handle : Handle} {issue : Issue α}
    (hhandle : world.handles[k]? = some handle) (hk : ideal.issues[k]? = some issue) :
    handle.table = issue.table + 1 ∧ handle.table ≤ world.tables.length ∧
    (∃ peak, ideal.peaks[issue.table]? = some peak ∧ handle.slot < peak) ∧
    handle.generation ≤ ideal.issuedBy issue.table := by
  obtain ⟨owner, handle', howner, hhandle', hissued, -⟩ := hsim.issue k issue hk
  rw [hhandle] at hhandle'
  cases hhandle'
  have hdesc := hsim.table _ _ howner
  have hid : handle.table = issue.table + 1 := by rw [hissued.ofTable, hdesc.id]
  have hlt := (List.getElem?_eq_some_iff.1 howner).1
  have hgen := hissued.ofPast
  rw [hdesc.generation] at hgen
  exact ⟨hid, by omega, ⟨_, hdesc.peak, hissued.inSlots⟩, Nat.lt_succ_iff.1 hgen⟩

end consequences

/-- **Tables keep to their ideal**: whatever a client of any number of tables did, in whatever
    order, each handle stands on each table for what the ideal says. -/
theorem run_keepsTo (requests : List (Request α)) :
    (World.run requests).KeepsTo (Ideal.run requests) where
  tables := (sim_run requests).tables
  handles := (sim_run requests).handles
  resolve_ok := (sim_run requests).resolve_ok_iff
  resolve_stale := (sim_run requests).resolve_stale_iff
  resolve_foreign := (sim_run requests).resolve_foreign_iff
  release_some := (sim_run requests).release_some_iff
  release_none := fun _ _ => World.release_of_none
  resolve_insert := fun t a u _ hk => (sim_run requests).resolve_insert t a u hk
  resolve_release := fun t _ u _ hne => (sim_run requests).resolve_release t hne u
  live := fun _ ht => (sim_run requests).live_eq ht
  numbers := fun _ _ _ hhandle hk => (sim_run requests).numbers_le hhandle hk

-- A slot in use again does not bring its earlier handle back.
example : (World.run [.create, .insert 0 'a', .release 0 0, .insert 0 'b']).resolve 0 0 =
    some (.error .stale) := rfl

end EventBridge.HandleTable
