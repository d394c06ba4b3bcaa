import EventBridge.Proofs.Script.Among

/-! # Scripts keep to given handles

  Running a script never yields a handle that it was not given. `handles S contexts` is the
  discipline for that: a script that has only handles of `S` comes by no others, whatever it asks is
  about a value that it may come by, and the contexts give the reply.

  `Machine.Follows` is what that comes to for a machine before and after: its time is the list of
  the questions that were asked.
-/

namespace EventBridge.Script

variable {S : Handle → Prop} {contexts : Contexts}

/-- A question about a value among `S`, with the reply that the contexts give. -/
structure Question.Among (S : Handle → Prop) (contexts : Contexts) (question : Question) :
    Prop where
  subject : question.subject.Among S
  reply : question.reply = question.native.reply contexts question.subject

/-- A machine among `S` that has asked what another has, and then more of the kind above. -/
structure Machine.Follows (S : Handle → Prop) (contexts : Contexts) (m m' : Machine) : Prop where
  among : m'.Among S
  asked : ∃ asked : List Question, m'.questions.toList = m.questions.toList ++ asked ∧
    ∀ question ∈ asked, question.Among S contexts

/-- A machine that asks nothing. -/
theorem Machine.Among.follows {m : Machine} (h : m.Among S) : m.Follows S contexts m :=
  ⟨h, [], (List.append_nil _).symm, fun _ hmem => absurd hmem List.not_mem_nil⟩

/-- Questions that were asked, and then more about values among `S`. -/
def Asks (S : Handle → Prop) (contexts : Contexts) (asked asked' : List Question) : Prop :=
  ∃ more, asked' = asked ++ more ∧ ∀ question ∈ more, question.Among S contexts

theorem Asks.refl (asked : List Question) : Asks S contexts asked asked :=
  ⟨[], (List.append_nil asked).symm, fun _ hmem => absurd hmem List.not_mem_nil⟩

theorem Asks.trans {asked asked' asked'' : List Question} (h : Asks S contexts asked asked')
    (h' : Asks S contexts asked' asked'') : Asks S contexts asked asked'' := by
  obtain ⟨first, rfl, hfirst⟩ := h
  obtain ⟨second, rfl, hsecond⟩ := h'
  refine ⟨first ++ second, List.append_assoc .., fun question hmem => ?_⟩
  rcases List.mem_append.1 hmem with hmem | hmem
  · exact hfirst question hmem
  · exact hsecond question hmem

/-- One question more. -/
theorem Asks.noting {m : Machine} {question : Question} (h : question.Among S contexts) :
    Asks S contexts m.questions.toList (m.noting question).questions.toList := by
  refine ⟨[question], Array.toList_push, fun other hmem => ?_⟩
  rw [List.mem_singleton.1 hmem]
  exact h

/-- Scripts have no handles but those of `S`. -/
def handles (S : Handle → Prop) (contexts : Contexts) : Discipline where
  World := List Question
  Later := Asks S contexts
  Sound asked m := m.Among S ∧ m.questions.toList = asked
  Allows _ value := value.Among S
  Admits given := given = contexts
  refl := Asks.refl
  trans := Asks.trans
  later _ h := h
  plain _ _ h := Value.among_of_plain h
  globals _ := trivial
  table h _ := h.1.table _
  metatable _ _ _ := .inl trivial
  function h _ := Callable.holds_iff_among.2 (h.1.function _)
  setEntry h _ hkey hvalue :=
    ⟨h.1.setTable _ (Table.Holds.set Value.among_of_plain (h.1.table _) hkey hvalue), h.2⟩
  setMeta h _ _ _ := ⟨h.1.setTable _ (h.1.table _), h.2⟩
  newTable h hholds _ := ⟨⟨h.1.newTable hholds, h.2⟩, trivial⟩
  newFunction h hholds := ⟨⟨h.1.newFunction (Callable.holds_iff_among.1 hholds), h.2⟩, trivial⟩
  newObject h := ⟨h.1.newObject, h.2⟩
  record _ h := ⟨⟨h.1.tables, h.1.functions⟩, h.2⟩
  readOnly _ h := ⟨_, Asks.refl _, ⟨h.1.newObject, h.2⟩, trivial⟩
  answered := by
    rintro _ m _ subject native results ⟨hm, rfl⟩ rfl hsubject hreply
    exact ⟨_, .noting ⟨hsubject, hreply.symm⟩, ⟨hm.tables, hm.functions⟩, rfl⟩
  refused := by
    rintro _ m _ subject native cause ⟨hm, rfl⟩ rfl hsubject hreply
    exact ⟨_, .noting ⟨hsubject, hreply.symm⟩, ⟨⟨hm.tables, hm.functions⟩, rfl⟩, trivial⟩

end EventBridge.Script
