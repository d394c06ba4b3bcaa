import EventBridge.Proofs.Engine.Chain

/-! # Who made a context

  A program can have several engines. Each numbers its contexts from one, and a layer can stand on
  a context of any of them, so neither the number of a context nor its chain says whose it is.

  * A `World` holds the engines and the contexts of a program, and remembers for each context who
    made it. It follows a list of `Request`s.
  * `NearestFlow` is the flow that a context comes to first, as one of the contexts of the program.
    On what is made by requests it says the same as `Nearest` does on chains.
  * `World.Answers` has what an engine says about the network of a context, whoever made that. An
    engine tells its own contexts from those of another type, and not from those of other engines:
    `World.Faithful` would need that, and holds in just the cases where no other engine comes in.
-/

namespace EventBridge.Engine

open Net (Ip Endpoint)

/-! ### Programs with several engines -/

/-- What a program does. Engines and contexts go by number, in the order in which they came to
    be. -/
inductive Request where
  | create
  | addTarget (engine : Nat) (address : Ip) (liid : String)
  | removeTarget (engine : Nat) (address : Ip)
  | openFlow (engine : Nat) (protocol : Protocol) (source destination : Endpoint)
  | openFlowWithRoot (engine : Nat) (transport : Transport)
  | openLayer (engine parent : Nat) (name : String)
  /-- A context of another type comes up, alone or on one that there is. -/
  | foreign (parent : Option Nat) (id : Nat) (kind : String)

/-- A context of a program. -/
structure Made where
  context : Context
  /-- The engine that made it; none made a context of another type. -/
  maker : Option Nat
  /-- The context that it is layered on. -/
  parent : Option Nat

/-- The engines and the contexts of a program. -/
structure World where
  engines : List Engine
  contexts : List Made

namespace World

/-- Before the first engine. -/
def initial : World := ⟨[], []⟩

/-- One context more. -/
def add (world : World) (made : Made) : World := { world with contexts := world.contexts ++ [made] }

/-- Changes an engine, if there is one of the number. -/
def change (world : World) (e : Nat) (changed : Engine → Engine) : World :=
  { world with engines := world.engines.modify e changed }

/-- An engine makes a context, if there is one of the number. -/
def make (world : World) (e : Nat) (parent : Option Nat) (made : Engine → Context × Engine) :
    World :=
  match world.engines[e]? with
  | some engine =>
    (world.change e fun engine => (made engine).2).add ⟨(made engine).1, some e, parent⟩
  | none => world

/-- The program after a request. -/
def step (world : World) : Request → World
  | .create => { world with engines := world.engines ++ [Engine.initial] }
  | .addTarget e address liid => world.change e fun engine => (engine.addTarget address liid).1
  | .removeTarget e address => world.change e fun engine => engine.removeTarget address
  | .openFlow e protocol source destination =>
    world.make e none fun engine =>
      let (context, engine, _) := engine.openFlow protocol source destination
      (context, engine)
  | .openFlowWithRoot e transport =>
    world.make e none fun engine =>
      let (context, engine, _) := engine.openFlowWithRoot transport
      (context, engine)
  | .openLayer e p name =>
    match world.contexts[p]? with
    | some below => world.make e (some p) fun engine => engine.openLayer below.context name
    | none => world
  | .foreign none id kind => world.add ⟨⟨⟨id, .foreign kind⟩, []⟩, none, none⟩
  | .foreign (some p) id kind =>
    match world.contexts[p]? with
    | some below => world.add ⟨below.context.layered ⟨id, .foreign kind⟩, none, some p⟩
    | none => world

/-- The program after a list of requests. -/
def run (requests : List Request) : World := requests.foldl step initial

/-- What an engine says about the network of a context, if there are both. -/
def network (world : World) (e k : Nat) : Option (Except Failure Network) :=
  match world.engines[e]?, world.contexts[k]? with
  | some engine, some made => some (engine.network made.context)
  | _, _ => none

/-- A context is one that an engine made. -/
def MadeBy (world : World) (k e : Nat) : Prop :=
  ∃ made, world.contexts[k]? = some made ∧ made.maker = some e

/-- The flow that a context comes to first, itself or beneath it: its number, and what it runs
    over. -/
inductive NearestFlow (world : World) : Nat → Nat → Transport → Prop where
  | here {k : Nat} {made : Made} {transport : Transport} : world.contexts[k]? = some made →
    made.context.node.layer = .flow transport → NearestFlow world k k transport
  | beneath {k p j : Nat} {made : Made} {transport : Transport} :
    world.contexts[k]? = some made → (∀ other, made.context.node.layer ≠ .flow other) →
    made.parent = some p → NearestFlow world p j transport → NearestFlow world k j transport

/-! ### What is known of the contexts -/

/-- What is remembered of a context agrees with its chain. -/
structure Tells (world : World) (k : Nat) (made : Made) : Prop where
  own : made.context.node.isOwn = made.maker.isSome
  maker : ∀ e, made.maker = some e → e < world.engines.length
  alone : made.parent = none → made.context.ancestors = []
  /-- It is layered on an earlier context. -/
  layered : ∀ p, made.parent = some p → p < k ∧ ∃ below, world.contexts[p]? = some below ∧
    made.context.ancestors = below.context.chain

/-- This is so of all contexts. -/
def Sound (world : World) : Prop :=
  ∀ (k : Nat) (made : Made), world.contexts[k]? = some made → world.Tells k made

variable {world world' : World}

/-- What is known of a context stays known. -/
theorem Tells.later {k : Nat} {made : Made} (h : world.Tells k made)
    (hengines : world.engines.length ≤ world'.engines.length)
    (hcontexts : world.contexts <+: world'.contexts) : world'.Tells k made where
  own := h.own
  maker := fun e he => Nat.lt_of_lt_of_le (h.maker e he) hengines
  alone := h.alone
  layered := by
    intro p hp
    obtain ⟨hlt, below, hbelow, hchain⟩ := h.layered p hp
    obtain ⟨rest, hrest⟩ := hcontexts
    refine ⟨hlt, below, ?_, hchain⟩
    rw [← hrest, List.getElem?_append_left (List.getElem?_eq_some_iff.1 hbelow).1]
    exact hbelow

/-- What a request can do: no engine goes, the contexts stay, and at most one comes behind them. -/
structure Grows (world world' : World) : Prop where
  engines : world.engines.length ≤ world'.engines.length
  contexts : world'.contexts = world.contexts ∨
    ∃ made, world'.contexts = world.contexts ++ [made] ∧ world.Tells world.contexts.length made

theorem Grows.refl (world : World) : world.Grows world := ⟨Nat.le_refl _, .inl rfl⟩

theorem grows_change (world : World) (e : Nat) (changed : Engine → Engine) :
    world.Grows (world.change e changed) where
  engines := Nat.le_of_eq (List.length_modify ..).symm
  contexts := .inl rfl

theorem grows_add {made : Made} (h : world.Tells world.contexts.length made) :
    world.Grows (world.add made) := ⟨Nat.le_refl _, .inr ⟨made, rfl, h⟩⟩

theorem grows_make {e : Nat} {parent : Option Nat} {made : Engine → Context × Engine}
    (h : ∀ engine, e < world.engines.length →
      world.Tells world.contexts.length ⟨(made engine).1, some e, parent⟩) :
    world.Grows (world.make e parent made) := by
  unfold make
  cases hengine : world.engines[e]? with
  | none => exact .refl world
  | some engine =>
    have he := (List.getElem?_eq_some_iff.1 hengine).1
    refine ⟨Nat.le_of_eq (List.length_modify ..).symm, .inr ⟨_, rfl, h engine he⟩⟩

/-- A context that stands alone is told by its maker. -/
theorem tells_alone {node : Node} {maker : Option Nat} (hown : node.isOwn = maker.isSome)
    (hmaker : ∀ e, maker = some e → e < world.engines.length) (k : Nat) :
    world.Tells k ⟨⟨node, []⟩, maker, none⟩ where
  own := hown
  maker := hmaker
  alone := fun _ => rfl
  layered := nofun

/-- So is one on a context that there is. -/
theorem tells_layered {node : Node} {maker : Option Nat} {p : Nat} {below : Made}
    (hown : node.isOwn = maker.isSome)
    (hmaker : ∀ e, maker = some e → e < world.engines.length)
    (hbelow : world.contexts[p]? = some below) :
    world.Tells world.contexts.length ⟨below.context.layered node, maker, some p⟩ where
  own := hown
  maker := hmaker
  alone := nofun
  layered := by
    rintro _ ⟨⟩
    exact ⟨(List.getElem?_eq_some_iff.1 hbelow).1, below, hbelow, rfl⟩

theorem grows_step (world : World) (request : Request) : world.Grows (world.step request) := by
  have hmaker : ∀ {e f : Nat}, e < world.engines.length → some e = some f →
      f < world.engines.length := by
    rintro e f he ⟨⟩
    exact he
  have hnoMaker : ∀ e, (none : Option Nat) = some e → e < world.engines.length := nofun
  -- Only the requests to make something can add a context.
  cases request with
  | create =>
    refine ⟨?_, .inl rfl⟩
    rw [step, List.length_append]
    exact Nat.le_add_right _ _
  | addTarget e address liid => exact grows_change ..
  | removeTarget e address => exact grows_change ..
  | openFlow e protocol source destination =>
    exact grows_make fun engine he => tells_alone rfl (fun _ => hmaker he) _
  | openFlowWithRoot e transport =>
    exact grows_make fun engine he => tells_alone rfl (fun _ => hmaker he) _
  | openLayer e p name =>
    cases hbelow : world.contexts[p]? with
    | none =>
      simp only [step, hbelow]
      exact .refl world
    | some below =>
      simp only [step, hbelow]
      exact grows_make fun engine he => tells_layered rfl (fun _ => hmaker he) hbelow
  | foreign parent id kind =>
    cases parent with
    | none => exact grows_add (tells_alone rfl hnoMaker _)
    | some p =>
      cases hbelow : world.contexts[p]? with
      | none =>
        simp only [step, hbelow]
        exact .refl world
      | some below =>
        simp only [step, hbelow]
        exact grows_add (tells_layered rfl hnoMaker hbelow)

theorem Sound.grows (h : world.Sound) (hgrows : world.Grows world') : world'.Sound := by
  intro k made hk
  rcases hgrows.contexts with hsame | ⟨last, hlast, hnew⟩
  · rw [hsame] at hk
    exact (h k made hk).later hgrows.engines (hsame ▸ List.prefix_rfl)
  · have hbefore : world.contexts <+: world'.contexts := hlast ▸ List.prefix_append _ _
    rw [hlast] at hk
    rcases Nat.lt_or_ge k world.contexts.length with hold | hge
    · rw [List.getElem?_append_left hold] at hk
      exact (h k made hk).later hgrows.engines hbefore
    · -- Behind the contexts from before there is the new one only.
      have hlt := (List.getElem?_eq_some_iff.1 hk).1
      rw [List.length_append, List.length_singleton] at hlt
      obtain rfl : k = world.contexts.length := by omega
      rw [List.getElem?_concat_length] at hk
      obtain rfl := Option.some.inj hk
      exact hnew.later hgrows.engines hbefore

theorem sound_run (requests : List Request) : (run requests).Sound := by
  have hfold : ∀ world : World, world.Sound → (requests.foldl step world).Sound := by
    intro world h
    induction requests generalizing world with
    | nil => exact h
    | cons request requests ih => exact ih _ (h.grows (grows_step world request))
  refine hfold initial ?_
  intro k made hk
  cases hk

/-! ### The nearest flow -/

theorem NearestFlow.layer {k j : Nat} {transport : Transport}
    (h : world.NearestFlow k j transport) :
    ∃ flow, world.contexts[j]? = some flow ∧ flow.context.node.layer = .flow transport := by
  induction h with
  | here hk hflow => exact ⟨_, hk, hflow⟩
  | beneath _ _ _ _ ih => exact ih

/-- A context comes to one flow first. -/
theorem NearestFlow.unique {k j j' : Nat} {transport transport' : Transport}
    (h : world.NearestFlow k j transport) (h' : world.NearestFlow k j' transport') :
    j' = j ∧ transport' = transport := by
  induction h with
  | here hk hflow =>
    cases h' with
    | here hk' hflow' =>
      obtain rfl := Option.some.inj (hk.symm.trans hk')
      cases hflow.symm.trans hflow'
      exact ⟨rfl, rfl⟩
    | beneath hk' hnone =>
      obtain rfl := Option.some.inj (hk.symm.trans hk')
      exact absurd hflow (hnone _)
  | beneath hk hnone hparent _ ih =>
    cases h' with
    | here hk' hflow' =>
      obtain rfl := Option.some.inj (hk.symm.trans hk')
      exact absurd hflow' (hnone _)
    | beneath hk' hnone' hparent' hbelow' =>
      obtain rfl := Option.some.inj (hk.symm.trans hk')
      obtain rfl := Option.some.inj (hparent.symm.trans hparent')
      exact ih hbelow'

theorem NearestFlow.nearest (hsound : world.Sound) {k j : Nat} {transport : Transport}
    (h : world.NearestFlow k j transport) {made : Made} (hk : world.contexts[k]? = some made) :
    Nearest made.context transport := by
  induction h generalizing made with
  | here hk' hflow =>
    obtain rfl := Option.some.inj (hk.symm.trans hk')
    exact .here hflow
  | beneath hk' hnone hparent _ ih =>
    obtain rfl := Option.some.inj (hk.symm.trans hk')
    obtain ⟨-, below, hbelow, hchain⟩ := (hsound _ _ hk).layered _ hparent
    have hlayered : made.context = below.context.layered made.context.node := by
      rw [Context.layered, ← hchain]
    rw [hlayered]
    exact .beneath hnone (ih hbelow)

theorem exists_nearestFlow (hsound : world.Sound) {k : Nat} {made : Made}
    (hk : world.contexts[k]? = some made) {transport : Transport}
    (h : Nearest made.context transport) : ∃ j, world.NearestFlow k j transport := by
  -- A context is layered on an earlier one, which has a smaller number.
  induction k using Nat.strongRecOn generalizing made with
  | ind k ih =>
    generalize hcontext : made.context = context at h
    cases h with
    | here hflow => exact ⟨k, .here hk (hcontext ▸ hflow)⟩
    | @beneath parent node _ hnone hbeneath =>
      cases hparent : made.parent with
      | none =>
        have halone := (hsound k made hk).alone hparent
        rw [hcontext] at halone
        cases halone
      | some p =>
        obtain ⟨hlt, below, hbelow, hchain⟩ := (hsound k made hk).layered p hparent
        have hsame : below.context = parent := by
          rw [hcontext] at hchain
          obtain ⟨hnode, hancestors⟩ := List.cons.inj hchain
          cases parent
          cases hbelowContext : below.context
          simp_all
        obtain ⟨j, hj⟩ := ih p hlt hbelow (hsame ▸ hbeneath)
        refine ⟨j, .beneath hk ?_ hparent hj⟩
        rw [hcontext]
        exact hnone

/-- On the contexts of a program, the nearest flow of the chain is the nearest one of them. -/
theorem nearest_iff (hsound : world.Sound) {k : Nat} {made : Made}
    (hk : world.contexts[k]? = some made) {transport : Transport} :
    Nearest made.context transport ↔ ∃ j, world.NearestFlow k j transport := by
  constructor
  · exact exists_nearestFlow hsound hk
  · rintro ⟨j, hj⟩
    exact hj.nearest hsound hk

/-- Every flow belongs to one of the engines. -/
theorem NearestFlow.exists_maker (hsound : world.Sound) {k j : Nat} {transport : Transport}
    (h : world.NearestFlow k j transport) :
    ∃ f, f < world.engines.length ∧ world.MadeBy j f := by
  obtain ⟨flow, hj, hflow⟩ := h.layer
  have htells := hsound j flow hj
  have hown : flow.context.node.isOwn = true := by
    rw [Node.isOwn, hflow]
  rw [htells.own, Option.isSome_iff_exists] at hown
  obtain ⟨f, hf⟩ := hown
  exact ⟨f, htells.maker f hf, flow, hj, hf⟩

/-! ### Questions about the network -/

/-- An answer about a context goes by who made it and the flow under it: the engine refuses just
    what it did not make, and tells of its own flows only. -/
structure Faithful (world : World) (e k : Nat) (made : Made) : Prop where
  foreign : ∀ id, world.network e k = some (.error (.foreignContext id)) ↔
    ¬ world.MadeBy k e ∧ id = made.context.id
  addressing : ∀ addressing, world.network e k = some (.ok addressing) →
    ∃ j transport, world.NearestFlow k j transport ∧ world.MadeBy j e ∧
      addressing = ⟨transport.protocol, transport.source, transport.destination⟩

/-- What an engine says about the network of a context, whoever made it. -/
structure Answers (world : World) (e k : Nat) (made : Made) : Prop where
  /-- Only a context of another type is refused. -/
  foreign : ∀ id, world.network e k = some (.error (.foreignContext id)) ↔
    made.maker = none ∧ id = made.context.id
  noTransport : ∀ id, world.network e k = some (.error (.noTransport id)) ↔
    made.maker ≠ none ∧ (∀ j transport, ¬ world.NearestFlow k j transport) ∧ id = made.context.id
  /-- For a context that any engine made, the answer is the addressing of its nearest flow. -/
  addressing : ∀ addressing, world.network e k = some (.ok addressing) ↔
    made.maker ≠ none ∧ ∃ j transport, world.NearestFlow k j transport ∧
      addressing = ⟨transport.protocol, transport.source, transport.destination⟩
  /-- There is one such flow at most, and an engine made it, be it this one or another. -/
  flow : ∀ j transport, world.NearestFlow k j transport →
    (∃ f, f < world.engines.length ∧ world.MadeBy j f) ∧
      ∀ j' transport', world.NearestFlow k j' transport' → j' = j ∧ transport' = transport
  /-- So the answer is faithful in just the cases in which no other engine comes in. -/
  faithful : world.Faithful e k made ↔ made.maker = none ∨
    made.maker = some e ∧ ∀ j transport, world.NearestFlow k j transport → world.MadeBy j e

variable {e k : Nat} {made : Made}

theorem madeBy_iff (hk : world.contexts[k]? = some made) :
    world.MadeBy k e ↔ made.maker = some e := by
  constructor
  · rintro ⟨other, hother, hmaker⟩
    obtain rfl := Option.some.inj (hk.symm.trans hother)
    exact hmaker
  · exact fun hmaker => ⟨made, hk, hmaker⟩

theorem network_eq (he : e < world.engines.length) (hk : world.contexts[k]? = some made) :
    ∃ engine : Engine, world.network e k = some (engine.network made.context) := by
  refine ⟨world.engines[e], ?_⟩
  rw [network, List.getElem?_eq_getElem he, hk]

/-- An engine makes no context of another type. -/
theorem isOwn_eq_false_iff (hsound : world.Sound) (hk : world.contexts[k]? = some made) :
    made.context.node.isOwn = false ↔ made.maker = none := by
  rw [(hsound k made hk).own]
  cases made.maker <;> simp

theorem network_eq_foreign_iff (hsound : world.Sound) (he : e < world.engines.length)
    (hk : world.contexts[k]? = some made) {id : Nat} :
    world.network e k = some (.error (.foreignContext id)) ↔
      made.maker = none ∧ id = made.context.id := by
  obtain ⟨engine, hnetwork⟩ := network_eq he hk
  rw [hnetwork, Option.some.injEq, network_eq_foreignContext_iff, isOwn_eq_false_iff hsound hk]

theorem network_eq_addressing_iff (hsound : world.Sound) (he : e < world.engines.length)
    (hk : world.contexts[k]? = some made) {addressing : Network} :
    world.network e k = some (.ok addressing) ↔
      made.maker ≠ none ∧ ∃ j transport, world.NearestFlow k j transport ∧
        addressing = ⟨transport.protocol, transport.source, transport.destination⟩ := by
  obtain ⟨engine, hnetwork⟩ := network_eq he hk
  rw [hnetwork, Option.some.injEq, network_eq_ok_iff, ← Bool.not_eq_false,
    isOwn_eq_false_iff hsound hk]
  refine and_congr_right fun _ => ?_
  constructor
  · rintro ⟨transport, hnearest, haddressing⟩
    obtain ⟨j, hj⟩ := (nearest_iff hsound hk).1 hnearest
    exact ⟨j, transport, hj, haddressing⟩
  · rintro ⟨j, transport, hj, haddressing⟩
    exact ⟨transport, hj.nearest hsound hk, haddressing⟩

theorem network_eq_unknown_iff (hsound : world.Sound) (he : e < world.engines.length)
    (hk : world.contexts[k]? = some made) {id : Nat} :
    world.network e k = some (.error (.noTransport id)) ↔
      made.maker ≠ none ∧ (∀ j transport, ¬ world.NearestFlow k j transport) ∧
        id = made.context.id := by
  obtain ⟨engine, hnetwork⟩ := network_eq he hk
  rw [hnetwork, Option.some.injEq, network_eq_noTransport_iff, ← Bool.not_eq_false,
    isOwn_eq_false_iff hsound hk]
  refine and_congr_right fun _ => and_congr_left fun _ => ?_
  constructor
  · exact fun hnone j transport hj => hnone transport (hj.nearest hsound hk)
  · intro hnone transport hnearest
    obtain ⟨j, hj⟩ := (nearest_iff hsound hk).1 hnearest
    exact hnone j transport hj

/-- A context of another type is refused, and an answer about any other tells of its nearest flow.
    That is faithful where both are the engine's own. -/
theorem faithful_iff (hsound : world.Sound) (he : e < world.engines.length)
    (hk : world.contexts[k]? = some made) :
    world.Faithful e k made ↔ made.maker = none ∨
      made.maker = some e ∧ ∀ j transport, world.NearestFlow k j transport → world.MadeBy j e := by
  constructor
  · intro h
    by_cases hnone : made.maker = none
    · exact .inl hnone
    · right
      -- The engine answers, so that it must have made the context.
      have hmaker : world.MadeBy k e := Classical.byContradiction fun hother =>
        have hrefused := (h.foreign made.context.id).2 ⟨hother, rfl⟩
        hnone ((network_eq_foreign_iff hsound he hk).1 hrefused).1
      refine ⟨(madeBy_iff hk).1 hmaker, ?_⟩
      intro j transport hj
      obtain ⟨j', transport', hj', hown, -⟩ := h.addressing _
        ((network_eq_addressing_iff hsound he hk).2 ⟨hnone, j, transport, hj, rfl⟩)
      obtain ⟨rfl, -⟩ := hj'.unique hj
      exact hown
  · rintro (hnone | ⟨hmaker, hflows⟩)
    · refine ⟨fun id => ?_, fun addressing h => ?_⟩
      · rw [network_eq_foreign_iff hsound he hk, madeBy_iff hk, hnone]
        simp
      · exact absurd hnone ((network_eq_addressing_iff hsound he hk).1 h).1
    · refine ⟨fun id => ?_, fun addressing h => ?_⟩
      · rw [network_eq_foreign_iff hsound he hk, madeBy_iff hk, hmaker]
        simp
      · obtain ⟨-, j, transport, hj, haddressing⟩ := (network_eq_addressing_iff hsound he hk).1 h
        exact ⟨j, transport, hj, hflows j transport hj, haddressing⟩

/-- Whatever engines a program has and whatever contexts it makes with them: an engine refuses the
    contexts of another type and answers about those of all engines, each from its nearest flow. -/
theorem networks_of_any_maker (requests : List Request) (e k : Nat) (made : Made)
    (he : e < (run requests).engines.length) (hk : (run requests).contexts[k]? = some made) :
    (run requests).Answers e k made := by
  have hsound := sound_run requests
  refine
    { foreign := fun id => network_eq_foreign_iff hsound he hk
      noTransport := fun id => network_eq_unknown_iff hsound he hk
      addressing := fun addressing => network_eq_addressing_iff hsound he hk
      flow := ?_
      faithful := faithful_iff hsound he hk }
  intro j transport hj
  exact ⟨hj.exists_maker hsound, fun j' transport' hj' => hj.unique hj'⟩

/-- Two engines with a flow each, both of the number one, and a layer of the first engine on the
    flow of the second. -/
def crossed : List Request :=
  [.create, .create,
    .openFlow 0 .tcp (.v4 ⟨10, 0, 0, 1⟩ 443) (.v4 ⟨10, 0, 0, 2⟩ 5000),
    .openFlow 1 .udp (.v4 ⟨192, 168, 0, 1⟩ 53) (.v4 ⟨192, 168, 0, 2⟩ 4000),
    .openLayer 0 1 "dns"]

/-- The first engine made that layer, and says about it what the flow of the second runs over. -/
theorem networks_of_layer_on_other_flow :
    0 < (run crossed).engines.length ∧
    ∃ made, (run crossed).contexts[2]? = some made ∧ made.maker = some 0 ∧
      (run crossed).Answers 0 2 made ∧
      (run crossed).network 0 2 =
        some (.ok ⟨.udp, .v4 ⟨192, 168, 0, 1⟩ 53, .v4 ⟨192, 168, 0, 2⟩ 4000⟩) :=
  ⟨by decide, _, rfl, rfl, networks_of_any_maker crossed 0 2 _ (by decide) rfl, rfl⟩

/-- An engine does not refuse what another one made: asked about the flow of the second engine, the
    first one answers. -/
theorem not_faithful_of_two_engines :
    ¬ ∀ (requests : List Request) (e k : Nat) (made : Made),
      e < (run requests).engines.length → (run requests).contexts[k]? = some made →
        (run requests).Faithful e k made := by
  intro h
  have hfaithful := h crossed 0 1 _ (by decide) rfl
  -- It would have to be refused, since the second engine made it.
  have hother : ¬ (run crossed).MadeBy 1 0 := by
    rintro ⟨made, hmade, hmaker⟩
    cases hmade
    cases hmaker
  have hrefused := (hfaithful.foreign 1).2 ⟨hother, rfl⟩
  cases hrefused

end World

end EventBridge.Engine
