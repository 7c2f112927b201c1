import LiveMarkup.Proofs.Planting.Corresponding
import LiveMarkup.Proofs.Planting.Seclusion

/-! # Containers do not interfere

What a renderer does in one container leaves every other one alone.  So it does not matter in which
order two containers are used, but for the numbers of the nodes that are created on the way.

An operation on one container, done by two renderers that have the same in this container, comes to
the same (`Renderer.SameIn.perform`). -/

namespace LiveMarkup

open Document Markup

variable {σ υ : Type} {sort : Template → Prop}

/-! ## Operations -/

/-- What a renderer is asked to do with a container. -/
inductive Operation where
  | render (result : TemplateResult)
  | release

/-- What a renderer answers: how rendering went, or whether there was an instance. -/
inductive Answer where
  | rendered (report : RenderReport)
  | released (found : Bool)
  deriving DecidableEq, Repr

namespace Operation

/-- All templates to be rendered are of a sort. -/
def Proper (sort : Template → Prop) : Operation → Prop
  | render result => (Value.template result.template result.values).Proper sort
  | release => True

/-- All computations in the values to be rendered are of a kind. -/
def Invokes (kind : Deferred → Prop) : Operation → Prop
  | render result => ∀ value ∈ result.values, value.Invokes kind
  | release => True

end Operation

namespace Renderer

def perform (renderer : Renderer σ) (environment : Environment σ) (container : NodeId) :
    Operation → σ → Answer × Renderer σ × σ
  | .render result, world =>
    let (report, after, world) := renderer.render environment container result world
    (.rendered report, after, world)
  | .release, world =>
    let (found, after) := renderer.release container
    (.released found, after, world)

/-! ## Other containers -/

/-- All that happens is inside of one container. -/
structure Confined (container : NodeId) (renderer after : Renderer σ) : Prop where
  moves : renderer.stage.document.Moves
    (fun node => node = container ∨ renderer.stage.document.Inside container node)
    after.stage.document
  kept : ∀ node, renderer.stage.document.Has node → after.stage.document.Inside container node →
    renderer.stage.document.Inside container node
  others : ∀ other, other ≠ container → after.instance? other = renderer.instance? other

/-- Two containers of which neither is inside of the other one. -/
structure Beside (renderer : Renderer σ) (container other : NodeId) : Prop where
  away : other ≠ container
  has : renderer.stage.document.Has container
  hasOther : renderer.stage.document.Has other
  notInside : ¬ renderer.stage.document.Inside container other
  notAround : ¬ renderer.stage.document.Inside other container

variable {renderer after : Renderer σ} {container other : NodeId}

theorem Beside.symm (beside : renderer.Beside container other) : renderer.Beside other container :=
  ⟨beside.away.symm, beside.hasOther, beside.has, beside.notAround, beside.notInside⟩

/-- A container beside the one in question stays as it is. -/
theorem Confined.sameIn (confined : Confined container renderer after)
    (sound : renderer.stage.document.Sound) (beside : renderer.Beside container other) :
    SameIn other renderer after := by
  refine ⟨confined.others other beside.away, ?_, fun node within => ?_⟩
  · exact confined.moves.kept other beside.hasOther (not_or_intro beside.away beside.notInside)
  · refine confined.moves.kept node (within.has sound) ?_
    rintro (rfl | inner)
    · exact beside.notAround within
    · obtain same | around | around := within.nested sound inner
      · exact beside.away same
      · exact beside.notAround around
      · exact beside.notInside around

namespace Holding

variable {config : Config} {layout : Template → Stencil} {environment : Environment σ}
  {operation : Operation}

/-- Rendering concerns the container alone. -/
theorem confined_render (holding : renderer.Holding Instance.Sown config) (laid : Layout sort layout)
    (has : renderer.stage.document.Has container) (yields : environment.Yields sort)
    {template : Template} {values : List Value}
    (proper : (Value.template template values).Proper sort) (world : σ) :
    Confined container renderer
      (renderer.render environment container ⟨template, values⟩ world).2.1 := by
  cases proper with
  | primitive shape => cases shape
  | template sorted count inside =>
  obtain ⟨_, _, free, within⟩ := holding.exists_open has
  obtain ⟨cell, found⟩ := has.exists_cell?
  obtain ⟨bed, document, prepared, answers⟩ :=
    holding.exists_tended laid free found yields sorted world
  have tended := (answers values inside).tended
  constructor
  case moves =>
    exact (prepared.moves_regrown tended.tilled.regrown).weaken fun node _ => .imp_right (within node)
  case kept =>
    intro node known inner
    have member := tended.planted.dwells.inside_iff.mp inner
    obtain own | new := prepared.fresh_regrown tended.tilled.regrown node member
    · exact within node own
    · exact absurd known new
  case others => exact fun other away => (tended.lookup other).trans (if_neg away)

/-- What is left of a container when it is released. -/
theorem release_eq (holding : renderer.Holding Instance.Sown config) (container : NodeId) :
    renderer.instance? container = none ∧ renderer.release container = (false, renderer) ∨
      ∃ (bed : Bed) (data : NodeData) (outer : Option NodeId) (after : Renderer σ),
        renderer.Holds container ∧ renderer.release container = (true, after) ∧
        Site renderer.stage.document (.inside container data outer) bed.grove ∧
        Tilled (.inside container data outer) renderer.stage.document bed.grove
          renderer.stage.document.size (bed.clearing ++ bed.roots.map .remove) after.stage.document
          .nil ∧
        ∀ other, after.instance? other =
          if other = container then none else renderer.instance? other := by
  unfold Renderer.release
  cases held : renderer.instance? container with
  | none => exact .inl ⟨rfl, rfl⟩
  | some inner =>
    obtain ⟨_, ⟨bed, laid, same, rfl, sound, -⟩, data, outer, site⟩ :=
      holding.lives container inner held
    rw [same]
    obtain ⟨-, detached⟩ := sound.tills_detach laid site renderer.stage rfl holding.whole
    exact .inr ⟨bed, data, outer, _, ⟨_, held⟩, rfl, site, detached,
      lookup_without renderer.instances container⟩

theorem confined_release (holding : renderer.Holding Instance.Sown config) :
    Confined container renderer (renderer.release container).2 := by
  obtain ⟨-, same⟩ | ⟨bed, data, outer, after, -, same, site, tilled, lookup⟩ :=
    holding.release_eq container
  · rw [same]
    exact ⟨.refl _ _, fun _ _ => id, fun _ _ => rfl⟩
  · rw [same]
    constructor
    case moves =>
      refine tilled.regrown.moves.weaken fun node _ => .imp_right fun member => ?_
      exact (Dwells.inside_iff ⟨data, outer, site⟩).mpr member
    case kept =>
      intro node _ inner
      exact absurd ((Dwells.inside_iff ⟨data, outer, tilled.site⟩).mp inner) List.not_mem_nil
    case others => exact fun other away => (lookup other).trans (if_neg away)

theorem confined_perform (holding : renderer.Holding Instance.Sown config) (laid : Layout sort layout)
    (has : renderer.stage.document.Has container) (yields : environment.Yields sort)
    (proper : operation.Proper sort) (world : σ) :
    Confined container renderer (renderer.perform environment container operation world).2.1 := by
  cases operation with
  | render result => exact holding.confined_render laid has yields proper world
  | release => exact holding.confined_release

theorem perform (holding : renderer.Holding Instance.Sown config) (laid : Layout sort layout)
    (has : renderer.stage.document.Has container) (apart : renderer.Apart container)
    (yields : environment.Yields sort) (proper : operation.Proper sort) (world : σ) :
    (renderer.perform environment container operation world).2.1.Holding Instance.Sown config := by
  cases operation with
  | render result => exact holding.render laid has apart yields proper world
  | release => exact holding.release Instance.detaches_sown container

end Holding

/-! ## The same operation in two renderers -/

/-- What can be rendered into in one renderer can be in another one that has the same there. -/
theorem SameIn.exists_open {config : Config} {third : Renderer σ}
    (same : SameIn container renderer third) (holding : renderer.Holding Instance.Sown config)
    (sound : third.stage.document.Sound) (has : renderer.stage.document.Has container) :
    ∃ old owned owned',
      Open renderer.stage.document container (renderer.instance? container) old owned ∧
      Open third.stage.document container (third.instance? container) old owned' ∧
      ∀ bed, old = some bed → ∀ node ∈ bed.grove.nodes,
        renderer.stage.document.Inside container node := by
  rw [same.held]
  cases held : renderer.instance? container with
  | none =>
    have hasThird : third.stage.document.Has container := by
      obtain ⟨cell, found⟩ := has.exists_cell?
      exact has_of_cell? (same.cell.trans found)
    exact ⟨none, _, _, .bare has holding.sound, .bare hasThird sound, nofun⟩
  | some inner =>
    obtain ⟨_, ⟨bed, laid, own, rfl, soundBed, worn⟩, dwells⟩ := holding.lives container inner held
    refine ⟨some bed, _, _, .sown laid own soundBed worn dwells,
      .sown laid own soundBed worn (same.dwells dwells), ?_⟩
    rintro _ ⟨⟩ node member
    exact dwells.inside_iff.mpr member

section

variable {environment : Environment σ} {kind : Deferred → Prop} {view : σ → υ}

/-- Values whose computations go by a view settle to the same from states that look the same. -/
theorem settle_of_goesBy (config : Config) (template : Template) {values : List Value}
    (goes : environment.GoesBy kind view) (invokes : ∀ value ∈ values, value.Invokes kind)
    {world world' : σ} (agree : view world = view world') :
    ∃ (settled : List Value) (failures : Array Diagnostic) (after after' : σ),
      ((settle environment config template values).run #[]).run world = ((settled, failures), after) ∧
        ((settle environment config template values).run #[]).run world' =
          ((settled, failures), after') := by
  have steady : Steady _ (settle environment config template values) :=
    Settling.steady_parts goes.respects (Settling.steady_content goes.respects _) 0 0 _ invokes
  obtain ⟨settled, failures, after, after', ran, ran', -⟩ := steady world world' #[] #[] agree
  exact ⟨settled, _, after, after', ran, ran'⟩

/-- Values whose computations leave a view alone settle without a change of what there is to be seen. -/
theorem view_settle (config : Config) (template : Template) {values : List Value}
    (leaves : environment.LeavesAlone kind view) (invokes : ∀ value ∈ values, value.Invokes kind)
    (world : σ) :
    view (((settle environment config template values).run #[]).run world).2 = view world := by
  have respects := leaves.respects (view world)
  have steady : Steady _ (settle environment config template values) :=
    Settling.steady_parts respects (Settling.steady_content respects _) 0 0 _ invokes
  obtain ⟨settled, failures, after, after', ran, -, -, same⟩ := steady world world #[] #[] ⟨rfl, rfl⟩
  rw [ran]
  exact same

end

section

variable {config : Config} {layout : Template → Stencil} {third : Renderer σ}
  {environment : Environment σ} {kind : Deferred → Prop} {view : σ → υ}

/-- Two renderers have done the same in a container.  The nodes that are created have other numbers if
there were not as many nodes before. -/
structure Agree (container : NodeId) (renderer third : Renderer σ)
    (outcome outcome' : Answer × Renderer σ × σ) : Prop where
  answer : outcome'.1 = outcome.1
  grows : renderer.stage.document.size ≤ outcome.2.1.stage.document.size
  matched : ∀ rename : NodeId → NodeId, rename container = container →
    (∀ node, renderer.stage.document.Inside container node → rename node = node) →
    Shifts rename renderer.stage.document.size outcome.2.1.stage.document.size
      third.stage.document.size →
    MatchesIn rename container outcome.2.1 outcome'.2.1 ∧
      outcome'.2.1.stage.document.size = third.stage.document.size +
        (outcome.2.1.stage.document.size - renderer.stage.document.size)

theorem SameIn.render (same : SameIn container renderer third)
    (holding : renderer.Holding Instance.Sown config)
    (holdingThird : third.Holding Instance.Sown config) (laid : Layout sort layout)
    (has : renderer.stage.document.Has container)
    (yields : environment.Yields sort) (goes : environment.GoesBy kind view) {template : Template}
    {values : List Value} (proper : (Value.template template values).Proper sort)
    (invokes : ∀ value ∈ values, value.Invokes kind) {world world' : σ}
    (agree : view world = view world') :
    Agree container renderer third
      (renderer.perform environment container (.render ⟨template, values⟩) world)
      (third.perform environment container (.render ⟨template, values⟩) world') := by
  cases proper with
  | primitive shape => cases shape
  | template sorted count inside =>
  obtain ⟨old, _, _, free, free', around⟩ := same.exists_open holding holdingThird.sound has
  obtain ⟨cell, found⟩ := has.exists_cell?
  obtain ⟨bed, document, prepared, answers⟩ :=
    holding.exists_tended laid free found yields sorted world
  obtain ⟨bed', document', prepared', answers'⟩ :=
    holdingThird.exists_tended laid free' (same.cell.trans found) yields sorted world'
  rw [same.held] at prepared'
  have answers := answers values inside
  have answers' := answers' values inside
  -- Both readings come to the same, and both beds are tended with what they come to.
  obtain ⟨settled, failures, after, after', ran, ran'⟩ :=
    settle_of_goesBy config template goes invokes agree
  rw [ran] at answers
  rw [ran'] at answers'
  obtain ⟨failed, -, tended⟩ := answers
  obtain ⟨failed', -, tended'⟩ := answers'
  obtain ⟨grows, prepares⟩ := prepared.renumbers prepared'
  let update : PlotUpdate := Plot.tend layout (config.depthLimit + 1)
  have keeps : Tend.Renames id (Bed.renumber id) (bed.tend update container settled)
      ((bed.renumber id).tend update container settled) :=
    Bed.renames_tend (Plot.renames_tend layout _) bed container settled
  have more : document.size ≤ (bed.tend update container settled document.size).next :=
    (keeps document.size).1
  constructor
  case answer =>
    exact congrArg (fun diagnostics => Answer.rendered ⟨diagnostics⟩) (failed'.trans failed.symm)
  case grows => exact (grows.trans more).trans_eq tended.tilled.size.symm
  case matched =>
    intro rename stays fixed shifts
    have size := tended.tilled.size
    dsimp only [perform] at shifts ⊢
    rw [size] at shifts ⊢
    obtain ⟨same, size'⟩ := prepares rename
      (fun bed was node member => fixed node (around bed was node member)) (shifts.left more)
    -- What is sown comes first in the new numbers, and what tending creates comes behind.
    have later := shifts.right grows
    rw [← size'] at later
    obtain ⟨results, nexts, -⟩ :=
      (Bed.renames_tend (Plot.renames_tend layout _) bed container settled _).2 document'.size later
    rw [stays, ← same] at results nexts
    refine ⟨.of_sites ?_ tended.tilled.site ?_ stays, ?_⟩
    · rw [tended.instance?_self, tended'.instance?_self, results, Option.map_some,
        Bed.instance_renumber]
    · rw [← Bed.grove_renumber, ← results]
      exact tended'.tilled.site
    · rw [tended'.tilled.size, nexts, size', Nat.add_assoc, Nat.add_comm (document.size - _)]
      exact congrArg _ (Nat.sub_add_sub_cancel more grows)

theorem SameIn.release (same : SameIn container renderer third)
    (holding : renderer.Holding Instance.Sown config)
    (holdingThird : third.Holding Instance.Sown config) (world world' : σ) :
    Agree container renderer third (renderer.perform environment container .release world)
      (third.perform environment container .release world') := by
  unfold perform
  obtain ⟨vacant, idle⟩ | ⟨bed, data, outer, after, held, released, site, tilled, lookup⟩ :=
    holding.release_eq container
  · obtain ⟨-, idle'⟩ | ⟨_, _, _, _, ⟨inner, held⟩, -⟩ := holdingThird.release_eq container
    · rw [idle, idle']
      exact ⟨rfl, Nat.le_refl _, fun rename stays fixed _ =>
        ⟨same.matchesIn holding.sound vacant fixed stays, by simp⟩⟩
    · exact absurd (vacant.symm.trans (same.held.symm.trans held)) nofun
  · obtain ⟨vacant, -⟩ | ⟨bed', data', outer', after', -, released', site', tilled', lookup'⟩ :=
      holdingThird.release_eq container
    · obtain ⟨inner, held⟩ := held
      exact absurd (vacant.symm.trans (same.held.trans held)) nofun
    · rw [released, released']
      refine ⟨rfl, Nat.le_of_eq tilled.size.symm, fun rename stays fixed _ => ?_⟩
      obtain ⟨cell, found⟩ := site.has_parent.exists_cell?
      have emptied := tilled.site
      have emptied' := tilled'.site
      rw [← site.vacated found] at emptied
      rw [← site'.vacated (same.cell.trans found)] at emptied'
      refine ⟨.of_sites ?_ emptied emptied' stays, by simp [tilled.size, tilled'.size]⟩
      rw [lookup, lookup', if_pos rfl, if_pos rfl, Option.map_none]

/-- An operation on a container that two renderers have the same in comes to the same. -/
theorem SameIn.perform (same : SameIn container renderer third)
    (holding : renderer.Holding Instance.Sown config)
    (holdingThird : third.Holding Instance.Sown config) (laid : Layout sort layout)
    (has : renderer.stage.document.Has container)
    (yields : environment.Yields sort) (goes : environment.GoesBy kind view) {operation : Operation}
    (proper : operation.Proper sort) (invokes : operation.Invokes kind) {world world' : σ}
    (agree : view world = view world') :
    Agree container renderer third (renderer.perform environment container operation world)
      (third.perform environment container operation world') := by
  cases operation with
  | render result => exact same.render holding holdingThird laid has yields goes proper invokes agree
  | release => exact same.release holding holdingThird world world'

theorem Holding.view_perform (holding : renderer.Holding Instance.Sown config) (laid : Layout sort layout)
    (has : renderer.stage.document.Has container) (yields : environment.Yields sort)
    (leaves : environment.LeavesAlone kind view) {operation : Operation}
    (proper : operation.Proper sort) (invokes : operation.Invokes kind) (world : σ) :
    view (renderer.perform environment container operation world).2.2 = view world := by
  cases operation with
  | release => rfl
  | render result =>
    cases proper with
    | primitive shape => cases shape
    | template sorted count inside =>
    obtain ⟨_, _, free, -⟩ := holding.exists_open has
    obtain ⟨cell, found⟩ := has.exists_cell?
    obtain ⟨bed, document, prepared, answers⟩ :=
      holding.exists_tended laid free found yields sorted world
    exact (congrArg view (answers result.values inside).state).trans
      (view_settle config result.template leaves invokes world)

end

/-! ## Two containers -/

end Renderer

/-- The numbers from the first one up to the second one change places with those up to the third. -/
def NodeId.exchange (start middle stop : Nat) (node : NodeId) : NodeId :=
  if node.number < start ∨ stop ≤ node.number then node
  else if node.number < middle then ⟨node.number + (stop - middle)⟩
  else ⟨node.number - (middle - start)⟩

theorem NodeId.exchange_injective {start middle stop : Nat} (first : start ≤ middle)
    (second : middle ≤ stop) : Function.Injective (NodeId.exchange start middle stop) := by
  rintro ⟨number⟩ ⟨number'⟩ same
  unfold NodeId.exchange at same
  dsimp only at same
  split at same <;> split at same <;> (try split at same) <;> (try split at same) <;>
    simp only [NodeId.mk.injEq] at same ⊢ <;> omega

theorem Shifts.exchange_lower {start middle stop : Nat} (second : middle ≤ stop) :
    Shifts (NodeId.exchange start middle stop) start middle (start + (stop - middle)) := by
  intro number least below
  rw [NodeId.exchange, if_neg (by dsimp only; omega), if_pos below, NodeId.mk.injEq]
  dsimp only
  omega

theorem Shifts.exchange_upper {start middle stop : Nat} (first : start ≤ middle) :
    Shifts (NodeId.exchange start middle stop) middle stop start := by
  intro number least below
  rw [NodeId.exchange, if_neg (by dsimp only; omega), if_neg (Nat.not_lt.mpr least),
    NodeId.mk.injEq]
  dsimp only
  omega

namespace Renderer

/-- Nodes elsewhere stay as they are. -/
theorem Confined.elsewhere {renderer after : Renderer σ} {container node : NodeId}
    (confined : Confined container renderer after) (known : renderer.stage.document.Has node)
    (away : node ≠ container) (outside : ¬ renderer.stage.document.Inside container node) :
    after.stage.document.cell? node = renderer.stage.document.cell? node :=
  confined.moves.kept node known (not_or_intro away outside)

/-- What is done in one container and then in another leaves all else as it is. -/
theorem Confined.both {renderer first second : Renderer σ} {container other : NodeId}
    (confined : Confined container renderer first) (later : Confined other first second)
    (same : SameIn other renderer first) :
    (∀ third, third ≠ container → third ≠ other →
      second.instance? third = renderer.instance? third) ∧
    ∀ node, renderer.stage.document.Has node → node ≠ container → node ≠ other →
      ¬ renderer.stage.document.Inside container node →
      ¬ renderer.stage.document.Inside other node →
      second.stage.document.cell? node = renderer.stage.document.cell? node := by
  constructor
  · intro third apart apart'
    exact (later.others third apart').trans (confined.others third apart)
  · intro node known apart apart' outside outside'
    have outsideLater : ¬ first.stage.document.Inside other node :=
      fun within => outside' (same.inside_iff.mp within)
    exact (later.elsewhere (confined.moves.has known) apart' outsideLater).trans
      (confined.elsewhere known apart outside)

/-- What has been done in one container, as far as another one beside it is concerned. -/
structure Aside (config : Config) (container other : NodeId) (renderer after : Renderer σ) :
    Prop where
  holding : after.Holding Instance.Sown config
  confined : Confined container renderer after
  same : SameIn other renderer after

variable {υ' : Type} {config : Config} {environment : Environment σ} {kind kind' : Deferred → Prop}
  {view : σ → υ} {view' : σ → υ'}

theorem Holding.aside {layout : Template → Stencil} {renderer : Renderer σ}
    {container other : NodeId} {operation : Operation}
    (holding : renderer.Holding Instance.Sown config) (laid : Layout sort layout)
    (beside : renderer.Beside container other) (apart : renderer.Apart container)
    (yields : environment.Yields sort) (proper : operation.Proper sort) (world : σ) :
    Aside config container other renderer
      (renderer.perform environment container operation world).2.1 := by
  have confined := holding.confined_perform laid beside.has yields proper world
  exact ⟨holding.perform laid beside.has apart yields proper world, confined,
    confined.sameIn holding.sound beside⟩

/-- They still are beside each other. -/
theorem Aside.beside {renderer after : Renderer σ} {container other : NodeId}
    (aside : Aside config container other renderer after)
    (beside : renderer.Beside container other) : after.Beside container other where
  away := beside.away
  has := aside.confined.moves.has beside.has
  hasOther := aside.confined.moves.has beside.hasOther
  notInside within := beside.notInside (aside.confined.kept other beside.hasOther within)
  notAround within := beside.notAround (aside.same.inside_iff.mp within)

/-- What is done in one container leaves another one as it is, with the instance that lives there and
all nodes inside.  If the deferred values of two operations share no state, then both come to the same
in either order, but for the numbers of nodes that are created. -/
theorem perform_apart {renderer : Renderer σ} (arises : renderer.Arises Template.Compiled config)
    {container other : NodeId} (away : other ≠ container)
    (has : renderer.stage.document.Has container) (hasOther : renderer.stage.document.Has other)
    (notInside : ¬ renderer.stage.document.Inside container other)
    (notAround : ¬ renderer.stage.document.Inside other container)
    (apart : renderer.Apart container) (apartOther : renderer.Apart other)
    (yields : environment.Yields Template.Compiled) {operation : Operation}
    (proper : operation.Proper Template.Compiled) (world : σ) :
    let first := renderer.perform environment container operation world
    SameIn other renderer first.2.1 ∧
      ∀ {operation' : Operation}, operation'.Proper Template.Compiled →
        environment.GoesBy kind view → environment.LeavesAlone kind' view →
        environment.GoesBy kind' view' → environment.LeavesAlone kind view' →
        operation.Invokes kind → operation'.Invokes kind' →
        let second := first.2.1.perform environment other operation' first.2.2
        let first' := renderer.perform environment other operation' world
        let second' := first'.2.1.perform environment container operation first'.2.2
        second'.1 = first.1 ∧ first'.1 = second.1 ∧
          ∃ rename : NodeId → NodeId, Function.Injective rename ∧
            (∀ node, renderer.stage.document.Has node → rename node = node) ∧
            MatchesIn rename container second.2.1 second'.2.1 ∧
            MatchesIn rename other second.2.1 second'.2.1 ∧
            (∀ third, third ≠ container → third ≠ other →
              second'.2.1.instance? third = second.2.1.instance? third) ∧
            ∀ node, renderer.stage.document.Has node → node ≠ container → node ≠ other →
              ¬ renderer.stage.document.Inside container node →
              ¬ renderer.stage.document.Inside other node →
              second'.2.1.stage.document.cell? node = second.2.1.stage.document.cell? node := by
  intro first
  obtain ⟨layout, laid⟩ := exists_layout fun template (compiled : template.Compiled) => compiled
  have holding := arises.holding laid
  have beside : renderer.Beside container other := ⟨away, has, hasOther, notInside, notAround⟩
  have aside : Aside config container other renderer first.2.1 :=
    holding.aside laid beside apart yields proper world
  refine ⟨aside.same, fun {operation'} proper' goes leaves goes' leaves' invokes invokes' => ?_⟩
  intro second first' second'
  have aside' : Aside config other container renderer first'.2.1 :=
    holding.aside laid beside.symm apartOther yields proper' world
  have later := aside.beside beside
  have later' := aside'.beside beside.symm
  have confined : Confined other first.2.1 second.2.1 :=
    aside.holding.confined_perform laid later.hasOther yields proper' first.2.2
  have confined' : Confined container first'.2.1 second'.2.1 :=
    aside'.holding.confined_perform laid later'.hasOther yields proper first'.2.2
  -- The operation on the one container, before and after that on the other.
  obtain ⟨answer, grows, matched⟩ := aside'.same.perform holding aside'.holding laid has yields goes
    proper invokes (holding.view_perform laid hasOther yields leaves proper' invokes' world).symm
  -- The operation on the other one, after and before.
  obtain ⟨answer', grows', matched'⟩ := aside.same.symm.perform aside.holding holding laid
    later.hasOther yields goes' proper' invokes'
    (holding.view_perform laid has yields leaves' proper invokes world)
  -- What the two operations create changes places in the numbering.
  let rename := NodeId.exchange renderer.stage.document.size first.2.1.stage.document.size
    second.2.1.stage.document.size
  have fixed (node : NodeId) (known : renderer.stage.document.Has node) : rename node = node :=
    if_pos (.inl known)
  obtain ⟨inOther, size⟩ := matched' rename (fixed other hasOther)
    (fun node within => fixed node ((aside.same.inside_iff.mp within).has holding.sound))
    (.exchange_upper grows)
  have shifts : Shifts rename renderer.stage.document.size first.2.1.stage.document.size
      first'.2.1.stage.document.size := by
    rw [size]
    exact .exchange_lower grows'
  obtain ⟨inContainer, -⟩ := matched rename (fixed container has)
    (fun node within => fixed node (within.has holding.sound)) shifts
  obtain ⟨others, elsewhere⟩ := aside.confined.both confined aside.same
  obtain ⟨others', elsewhere'⟩ := aside'.confined.both confined' aside'.same
  refine ⟨answer, answer', rename, NodeId.exchange_injective grows grows', fixed, ?_, ?_, ?_, ?_⟩
  · exact inContainer.sameIn_left (confined.sameIn aside.holding.sound later.symm)
  · exact inOther.sameIn_right (confined'.sameIn aside'.holding.sound later'.symm)
  · exact fun third apart apart' => (others' third apart' apart).trans (others third apart apart').symm
  · exact fun node known apart apart' outside outside' =>
      (elsewhere' node known apart' apart outside' outside).trans
        (elsewhere node known apart apart' outside outside').symm

/-- A new renderer with two containers. -/
def twofold : Renderer Nat :=
  .fresh {} ((Document.empty.create (.element "div" none [])).2.create (.element "p" none [])).2

theorem arises_twofold : twofold.Arises Template.Compiled {} :=
  .fresh (.create (.create .refl _) _)

theorem not_inside_twofold {container node : NodeId}
    (first : twofold.stage.document.children container = []) :
    ¬ twofold.stage.document.Inside container node := by
  intro within
  induction within with
  | child below => simp [first] at below
  | deeper _ _ none => exact none

/-- Each of two containers is given a template, with a deferred value of its own. -/
theorem perform_apart_twofold :
    let operation : Operation := .render ⟨Template.lettered, [.deferred ⟨2⟩, .text "a"]⟩
    let operation' : Operation := .render ⟨Template.lettered, [.text "b", .deferred ⟨1⟩]⟩
    let first := twofold.perform Environment.paired ⟨0⟩ operation 0
    let second := first.2.1.perform Environment.paired ⟨1⟩ operation' first.2.2
    let first' := twofold.perform Environment.paired ⟨1⟩ operation' 0
    let second' := first'.2.1.perform Environment.paired ⟨0⟩ operation first'.2.2
    SameIn ⟨1⟩ twofold first.2.1 ∧ second'.1 = first.1 ∧ first'.1 = second.1 ∧
      ∃ rename : NodeId → NodeId, Function.Injective rename ∧
        MatchesIn rename ⟨0⟩ second.2.1 second'.2.1 ∧
        MatchesIn rename ⟨1⟩ second.2.1 second'.2.1 := by
  have apart (container : NodeId) : twofold.Apart container :=
    fun _ ⟨_, held⟩ _ => absurd held nofun
  have away : (⟨1⟩ : NodeId) ≠ ⟨0⟩ := by decide
  have has : twofold.stage.document.Has ⟨0⟩ := Nat.two_pos
  have hasOther : twofold.stage.document.Has ⟨1⟩ := Nat.one_lt_two
  have proper {value other : Value} (proper : value.Proper Template.Standard)
      (also : other.Proper Template.Standard) :
      (Value.template Template.lettered [value, other]).Proper Template.Compiled :=
    (Template.proper_lettered proper also).mono fun _ => Template.Standard.compiled
  have text (data : String) : (Value.text data).Proper Template.Standard := .primitive rfl
  have here : Operation.Proper Template.Compiled
      (.render ⟨Template.lettered, [.deferred ⟨2⟩, .text "a"]⟩) := proper (.deferred _) (text "a")
  have there : Operation.Proper Template.Compiled
      (.render ⟨Template.lettered, [.text "b", .deferred ⟨1⟩]⟩) := proper (text "b") (.deferred _)
  obtain ⟨same, commutes⟩ := perform_apart arises_twofold away has hasOther
    (not_inside_twofold (by decide +kernel)) (not_inside_twofold (by decide +kernel)) (apart _)
    (apart _) Environment.yields_paired here 0
  obtain ⟨answer, answer', rename, injective, -, matched, matched', -⟩ := commutes there
    Environment.goesBy_paired Environment.leavesAlone_paired Environment.goesBy_paired_odd
    Environment.leavesAlone_paired_even
    (List.forall_mem_cons.mpr ⟨.deferred rfl, List.forall_mem_singleton.mpr (.primitive rfl)⟩)
    (List.forall_mem_cons.mpr ⟨.primitive rfl, List.forall_mem_singleton.mpr (.deferred rfl)⟩)
  exact ⟨same, answer, answer', rename, injective, matched, matched'⟩

end Renderer

end LiveMarkup
