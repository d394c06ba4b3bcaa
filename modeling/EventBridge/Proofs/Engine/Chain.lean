import EventBridge.Engine.Basic

/-! # Questions along a chain of contexts

  A context stands by itself, or is layered on another one (`Context.by_layers`). The engine answers
  a question about it by going along the chain, and nodes that another kind of engine made can stand
  anywhere in it.

  * `Nearest` is the flow that a chain comes to first. There is one exactly if there is a flow in
    the chain at all (`Context.exists_nearest_iff`).
  * `Context.layers` is what a description is made of, layer by layer in the order in which they
    were opened. A node of another kind adds nothing to it.
  * `Answers` has what is right for each of the questions, and `Extends` what a layer on top makes
    of the answers.
-/

namespace EventBridge.Engine

open Net (Endpoint)

/-- Whether a node was made by this kind of engine. -/
def Node.isOwn (node : Node) : Bool :=
  match node.layer with
  | .foreign _ => false
  | _ => true

/-- What a node adds to a description, its outermost part first. -/
def Node.texts (pick : Transport → Endpoint) (node : Node) : List String :=
  match node.layer with
  | .flow transport =>
    [(pick transport).ip.family ++ ":" ++ (pick transport).ip.text,
      transport.protocol.name ++ ":" ++ toString (pick transport).port.toNat]
  | .application name => [name]
  | .foreign _ => []

/-- The first flow on the way from a context outwards. -/
inductive Nearest : Context → Transport → Prop where
  | here {context : Context} {transport : Transport} :
    context.node.layer = .flow transport → Nearest context transport
  /-- What is no flow is passed, whoever made it. -/
  | beneath {parent : Context} {node : Node} {transport : Transport} :
    (∀ other, node.layer ≠ .flow other) → Nearest parent transport →
    Nearest (parent.layered node) transport

namespace Context

/-- What a description is made of, the outermost layer first. -/
def layers (pick : Transport → Endpoint) (context : Context) : List String :=
  context.chain.reverse.flatMap (Node.texts pick)

/-- A chain in which this kind of engine made nothing. -/
def Alien (context : Context) : Prop := ∀ node ∈ context.chain, node.isOwn = false

/-- A context is alone, or layered on another one. -/
@[elab_as_elim]
theorem by_layers {motive : Context → Prop} (alone : ∀ node, motive ⟨node, []⟩)
    (layered : ∀ (parent : Context) (node : Node), motive parent → motive (parent.layered node))
    (context : Context) : motive context := by
  obtain ⟨node, ancestors⟩ := context
  induction ancestors generalizing node with
  | nil => exact alone node
  | cons parent ancestors ih => exact layered ⟨parent, ancestors⟩ node (ih parent)

@[simp] theorem node_layered (parent : Context) (node : Node) :
    (parent.layered node).node = node := rfl

@[simp] theorem chain_layered (parent : Context) (node : Node) :
    (parent.layered node).chain = node :: parent.chain := rfl

/-! ### The nearest flow -/

theorem transport?_of_flow {context : Context} {transport : Transport}
    (h : context.node.layer = .flow transport) : context.transport? = some transport := by
  simp [transport?, chain, h]

theorem transport?_alone {node : Node} (h : ∀ other, node.layer ≠ .flow other) :
    (⟨node, []⟩ : Context).transport? = none := by
  cases hlayer : node.layer with
  | flow other => exact absurd hlayer (h other)
  | _ => simp [transport?, chain, hlayer]

theorem transport?_layered {node : Node} (parent : Context)
    (h : ∀ other, node.layer ≠ .flow other) :
    (parent.layered node).transport? = parent.transport? := by
  cases hlayer : node.layer with
  | flow other => exact absurd hlayer (h other)
  | _ => simp [transport?, hlayer]

/-- Looking for the nearest flow finds it, and nothing else. -/
theorem transport?_eq_some_iff {context : Context} {transport : Transport} :
    context.transport? = some transport ↔ Nearest context transport := by
  constructor
  · intro h
    induction context using by_layers with
    | alone node =>
      by_cases hflow : ∃ other, node.layer = .flow other
      · obtain ⟨other, hother⟩ := hflow
        have hfirst : transport? ⟨node, []⟩ = some other := transport?_of_flow hother
        cases hfirst.symm.trans h
        exact .here hother
      · rw [transport?_alone (not_exists.1 hflow)] at h
        cases h
    | layered parent node ih =>
      by_cases hflow : ∃ other, node.layer = .flow other
      · obtain ⟨other, hother⟩ := hflow
        have hfirst : (parent.layered node).transport? = some other := transport?_of_flow hother
        cases hfirst.symm.trans h
        exact .here hother
      · have hnone := not_exists.1 hflow
        rw [transport?_layered parent hnone] at h
        exact .beneath hnone (ih h)
  · intro h
    induction h with
    | here hflow => exact transport?_of_flow hflow
    | @beneath parent node _ hnone _ ih => rw [transport?_layered parent hnone, ih]

theorem transport?_eq_none_iff {context : Context} :
    context.transport? = none ↔ ∀ transport, ¬ Nearest context transport := by
  simp only [← transport?_eq_some_iff, Option.eq_none_iff_forall_ne_some, ne_eq]

/-- A chain comes to one flow first. -/
theorem nearest_unique {context : Context} {transport other : Transport}
    (h : Nearest context transport) (h' : Nearest context other) : other = transport := by
  rw [← transport?_eq_some_iff] at h h'
  exact Option.some.inj (h'.symm.trans h)

/-- A chain comes to a flow if there is one anywhere in it. -/
theorem exists_nearest_iff {context : Context} :
    (∃ transport, Nearest context transport) ↔
      ∃ node ∈ context.chain, ∃ transport, node.layer = .flow transport := by
  constructor
  · rintro ⟨transport, h⟩
    induction h with
    | @here context transport hflow => exact ⟨context.node, List.mem_cons_self, transport, hflow⟩
    | beneath _ _ ih =>
      obtain ⟨node, hmem, hflow⟩ := ih
      exact ⟨node, List.mem_cons_of_mem _ hmem, hflow⟩
  · rintro ⟨node, hmem, transport, hflow⟩
    induction context using by_layers with
    | alone top =>
      obtain rfl := List.mem_singleton.1 hmem
      exact ⟨transport, .here hflow⟩
    | layered parent top ih =>
      -- If the top is a flow, it comes before the one that is known to be there.
      by_cases htop : ∃ other, top.layer = .flow other
      · obtain ⟨other, hother⟩ := htop
        exact ⟨other, .here hother⟩
      · rcases List.mem_cons.1 hmem with rfl | hmem
        · exact absurd ⟨transport, hflow⟩ htop
        · obtain ⟨found, hfound⟩ := ih hmem
          exact ⟨found, .beneath (not_exists.1 htop) hfound⟩

/-! ### Descriptions -/

variable {pick : Transport → Endpoint}

theorem layers_layered (parent : Context) (node : Node) :
    (parent.layered node).layers pick = parent.layers pick ++ node.texts pick := by
  simp [layers]

theorem texts_eq_nil_iff {node : Node} : node.texts pick = [] ↔ node.isOwn = false := by
  unfold Node.texts Node.isOwn
  cases node.layer <;> simp

/-- Every node that this kind of engine made shows in a description. -/
theorem layers_eq_nil_iff {context : Context} : context.layers pick = [] ↔ context.Alien := by
  simp [layers, Alien, List.flatMap_eq_nil_iff, texts_eq_nil_iff]

/-- The words of a node are its texts, the last one first. -/
theorem reverse_words (node : Node) : (words pick node).reverse = node.texts pick := by
  unfold words Node.texts
  cases node.layer <;> rfl

/-- A description consists of the layers, as far as there are any. -/
theorem describe_eq (context : Context) :
    context.describe pick =
      if context.layers pick = [] then "unknown" else " ".intercalate (context.layers pick) := by
  have hwords : (context.chain.flatMap (words pick)).reverse = context.layers pick := by
    rw [List.reverse_flatMap]
    exact congrArg context.chain.reverse.flatMap (funext reverse_words)
  unfold describe
  rw [hwords]
  cases context.layers pick <;> rfl

theorem describe_of_alien {context : Context} (h : context.Alien) :
    context.describe pick = "unknown" := by
  rw [describe_eq, if_pos (layers_eq_nil_iff.2 h)]

/-- What other kinds of engines made does not show. -/
theorem describe_congr {context other : Context}
    (h : context.chain.filter Node.isOwn = other.chain.filter Node.isOwn) :
    context.describe pick = other.describe pick := by
  have hown : ∀ chain : List Node,
      chain.flatMap (Node.texts pick) = (chain.filter Node.isOwn).flatMap (Node.texts pick) := by
    intro chain
    induction chain with
    | nil => rfl
    | cons node chain ih =>
      cases hnode : node.isOwn with
      | true => simp [hnode, ih]
      | false => simp [hnode, ih, texts_eq_nil_iff.2 hnode]
  have hlayers : context.layers pick = other.layers pick := by
    unfold layers
    rw [hown, hown other.chain.reverse, List.filter_reverse, List.filter_reverse, h]
  rw [describe_eq, describe_eq, hlayers]

/-- A layer on top comes last in a description, and alone if nothing beneath it shows. -/
theorem describe_application (parent : Context) (id : Nat) (name : String) :
    (parent.layered ⟨id, .application name⟩).describe pick =
      if parent.layers pick = [] then name else parent.describe pick ++ " " ++ name := by
  have htexts : (⟨id, .application name⟩ : Node).texts pick = [name] := rfl
  have hsome : parent.layers pick ++ [name] ≠ [] := by simp
  rw [describe_eq, layers_layered, htexts, if_neg hsome]
  by_cases hnil : parent.layers pick = []
  · rw [if_pos hnil, hnil, List.nil_append, String.intercalate_singleton]
  · rw [if_neg hnil, describe_eq, if_neg hnil,
      String.intercalate_append_of_ne_nil hnil (List.cons_ne_nil name []),
      String.intercalate_singleton]

end Context

/-! ### The questions -/

/-- What is right for the questions about a context. -/
structure Answers (engine : Engine) (context : Context) : Prop where
  /-- The root is that of the nearest flow, also for a context of another kind. -/
  root : ∀ transport, Nearest context transport → engine.root context = transport.root
  /-- Without a flow it is empty. -/
  rootless : (∀ transport, ¬ Nearest context transport) → engine.root context = ⟨"", none⟩
  /-- Only the context itself has to be of this kind of engine. -/
  foreign : ∀ id, engine.network context = .error (.foreignContext id) ↔
    context.node.isOwn = false ∧ id = context.id
  noTransport : ∀ id, engine.network context = .error (.noTransport id) ↔
    context.node.isOwn = true ∧ (∀ transport, ¬ Nearest context transport) ∧ id = context.id
  /-- The addressing is that of the nearest flow. -/
  network : ∀ addressing, engine.network context = .ok addressing ↔
    context.node.isOwn = true ∧ ∃ transport, Nearest context transport ∧
      addressing = ⟨transport.protocol, transport.source, transport.destination⟩
  /-- A description consists of the layers, and of those alone that this kind of engine made. -/
  source : ¬ context.Alien →
    engine.describeSource context = " ".intercalate (context.layers Transport.source)
  destination : ¬ context.Alien →
    engine.describeDestination context = " ".intercalate (context.layers Transport.destination)
  /-- If there are none, it says so. -/
  alien : context.Alien →
    engine.describeSource context = "unknown" ∧ engine.describeDestination context = "unknown"
  skips : ∀ other : Context, context.chain.filter Node.isOwn = other.chain.filter Node.isOwn →
    engine.describeSource context = engine.describeSource other ∧
      engine.describeDestination context = engine.describeDestination other

/-- What an application layer on top of a context makes of the answers. -/
structure Extends (engine : Engine) (parent child : Context) (name : String) : Prop where
  source : ¬ parent.Alien →
    engine.describeSource child = engine.describeSource parent ++ " " ++ name
  destination : ¬ parent.Alien →
    engine.describeDestination child = engine.describeDestination parent ++ " " ++ name
  /-- On a chain of which nothing shows, its name is all there is. -/
  alien : parent.Alien →
    engine.describeSource child = name ∧ engine.describeDestination child = name
  root : engine.root child = engine.root parent
  network : ∀ addressing, engine.network parent = .ok addressing →
    engine.network child = .ok addressing

theorem network_of_foreign (engine : Engine) {context : Context}
    (h : context.node.isOwn = false) :
    engine.network context = .error (.foreignContext context.id) := by
  unfold Node.isOwn at h
  unfold network
  cases hlayer : context.node.layer with
  | foreign kind => rfl
  | _ =>
    rw [hlayer] at h
    cases h

theorem network_of_own (engine : Engine) {context : Context} (h : context.node.isOwn = true) :
    engine.network context =
      match context.transport? with
      | some transport => .ok ⟨transport.protocol, transport.source, transport.destination⟩
      | none => .error (.noTransport context.id) := by
  unfold Node.isOwn at h
  unfold network
  cases hlayer : context.node.layer with
  | foreign kind =>
    rw [hlayer] at h
    cases h
  | _ => rfl

theorem root_eq (engine : Engine) (context : Context) :
    engine.root context = (context.transport?.map Transport.root).getD Root.unknown := by
  unfold root
  cases context.transport? <;> rfl

theorem network_eq_foreignContext_iff {engine : Engine} {context : Context} {id : Nat} :
    engine.network context = .error (.foreignContext id) ↔
      context.node.isOwn = false ∧ id = context.id := by
  cases hown : context.node.isOwn with
  | false =>
    rw [network_of_foreign engine hown]
    simp [eq_comm]
  | true =>
    rw [network_of_own engine hown]
    cases context.transport? <;> simp

theorem network_eq_noTransport_iff {engine : Engine} {context : Context} {id : Nat} :
    engine.network context = .error (.noTransport id) ↔
      context.node.isOwn = true ∧ (∀ transport, ¬ Nearest context transport) ∧
        id = context.id := by
  rw [← Context.transport?_eq_none_iff]
  cases hown : context.node.isOwn with
  | false =>
    rw [network_of_foreign engine hown]
    simp
  | true =>
    rw [network_of_own engine hown]
    cases context.transport? <;> simp [eq_comm]

theorem network_eq_ok_iff {engine : Engine} {context : Context} {addressing : Network} :
    engine.network context = .ok addressing ↔
      context.node.isOwn = true ∧ ∃ transport, Nearest context transport ∧
        addressing = ⟨transport.protocol, transport.source, transport.destination⟩ := by
  simp only [← Context.transport?_eq_some_iff]
  cases hown : context.node.isOwn with
  | false =>
    rw [network_of_foreign engine hown]
    simp
  | true =>
    rw [network_of_own engine hown]
    cases context.transport? <;> simp [eq_comm]

theorem answers (engine : Engine) (context : Context) : engine.Answers context := by
  have hdescribe : ∀ pick, ¬ context.Alien →
      context.describe pick = " ".intercalate (context.layers pick) := by
    intro pick halien
    rw [Context.describe_eq, if_neg (mt Context.layers_eq_nil_iff.1 halien)]
  refine
    { root := ?_
      rootless := ?_
      foreign := fun id => network_eq_foreignContext_iff
      noTransport := fun id => network_eq_noTransport_iff
      network := fun addressing => network_eq_ok_iff
      source := hdescribe Transport.source
      destination := hdescribe Transport.destination
      alien := fun h => ⟨Context.describe_of_alien h, Context.describe_of_alien h⟩
      skips := fun other h => ⟨Context.describe_congr h, Context.describe_congr h⟩ }
  · intro transport h
    rw [root_eq, Context.transport?_eq_some_iff.2 h]
    rfl
  · intro h
    rw [root_eq, Context.transport?_eq_none_iff.2 h]
    rfl

theorem extends_openLayer (engine maker : Engine) (parent : Context) (name : String) :
    engine.Extends parent (maker.openLayer parent name).1 name := by
  have hchild : (maker.openLayer parent name).1 =
      parent.layered ⟨maker.nextId, .application name⟩ := rfl
  have hnoFlow : ∀ other, (⟨maker.nextId, .application name⟩ : Node).layer ≠ .flow other := nofun
  have htransport := Context.transport?_layered parent hnoFlow
  rw [hchild]
  -- A layer is of this kind of engine, and no flow, so the nearest flow is that of its parent.
  refine
    { source := fun h => ?_
      destination := fun h => ?_
      alien := fun h => ⟨?_, ?_⟩
      root := ?_
      network := fun addressing h => ?_ }
  · exact (Context.describe_application parent _ name).trans
      (if_neg (mt Context.layers_eq_nil_iff.1 h))
  · exact (Context.describe_application parent _ name).trans
      (if_neg (mt Context.layers_eq_nil_iff.1 h))
  · exact (Context.describe_application parent _ name).trans
      (if_pos (Context.layers_eq_nil_iff.2 h))
  · exact (Context.describe_application parent _ name).trans
      (if_pos (Context.layers_eq_nil_iff.2 h))
  · rw [root_eq, root_eq, htransport]
  · obtain ⟨-, transport, hnearest, haddressing⟩ := network_eq_ok_iff.1 h
    exact network_eq_ok_iff.2 ⟨rfl, transport, .beneath hnoFlow hnearest, haddressing⟩

/-- What the engine says about a context is decided by its chain, however deep that is and whoever
    made its nodes, and a layer on top changes the answers as it should. -/
theorem chains_decide (engine maker : Engine) (context : Context) (name : String) :
    ((∃ transport, Nearest context transport) ↔
      ∃ node ∈ context.chain, ∃ transport, node.layer = .flow transport) ∧
    (∀ transport other, Nearest context transport → Nearest context other →
      other = transport) ∧
    engine.Answers context ∧
    engine.Extends context (maker.openLayer context name).1 name :=
  ⟨Context.exists_nearest_iff, fun _ _ => Context.nearest_unique, engine.answers context,
    engine.extends_openLayer maker context name⟩

end EventBridge.Engine
