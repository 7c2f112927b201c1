import LiveMarkup.Proofs.Afresh

/-! # What a renderer holds

What a renderer remembers is there in its document: in every container that it holds, an instance lives
that it remembers, and no such container is inside another.  When an instance *fits* what is in its
container is left open here.

What happens inside of one container leaves the others alone (`Holding.step`). -/

namespace LiveMarkup

open Document Markup

variable {σ : Type}

/-! ## Inside of a node -/

/-- Whether a node is somewhere below another. -/
inductive Document.Inside (document : Document) (node : NodeId) : NodeId → Prop where
  | child {below : NodeId} (child : below ∈ document.children node) : Inside document node below
  | deeper {between below : NodeId} (inside : Inside document node between)
      (child : below ∈ document.children between) : Inside document node below

/-- Of two nodes around a third one, one is around the other. -/
theorem Document.Inside.nested {document : Document} (sound : document.Sound)
    {first second node : NodeId} (inFirst : document.Inside first node)
    (inSecond : document.Inside second node) :
    first = second ∨ document.Inside first second ∨ document.Inside second first := by
  have above {parent other : NodeId} {node : NodeId} (child : node ∈ document.children parent)
      (also : node ∈ document.children other) : parent = other := by
    have same := (sound parent node child).symm.trans (sound other node also)
    exact Option.some.inj same
  induction inFirst with
  | child here =>
    cases inSecond with
    | child there => exact .inl (above here there)
    | deeper inside there => exact .inr (.inr (above here there ▸ inside))
  | deeper outside here ih =>
    cases inSecond with
    | child there => exact .inr (.inl (above here there ▸ outside))
    | deeper inside there => exact ih (above here there ▸ inside)

/-- All children in a grove are nodes of the grove. -/
theorem Grove.Bears.mem_children {document : Document} {parent : Option NodeId} {grove : Grove}
    (bears : grove.Bears document parent) {node child : NodeId} (member : node ∈ grove.nodes)
    (below : child ∈ document.children node) : child ∈ grove.nodes := by
  induction grove generalizing parent with
  | nil => cases member
  | cons first data inner rest ihInner ihRest =>
    obtain ⟨cell, inside, behind⟩ := bears
    rw [nodes_cons, List.mem_cons, List.mem_append] at member ⊢
    obtain rfl | member | member := member
    · rw [children_of_cell? cell] at below
      exact .inr (.inl (mem_nodes_of_mem_roots below))
    · exact .inr (.inl (ihInner inside member))
    · exact .inr (.inr (ihRest behind member))

/-- All nodes of a grove are below whatever has the roots as its children. -/
theorem Grove.Bears.inside {document : Document} {parent : Option NodeId} {grove : Grove}
    (bears : grove.Bears document parent) {above : NodeId}
    (roots : ∀ root ∈ grove.roots, document.Inside above root) :
    ∀ node ∈ grove.nodes, document.Inside above node := by
  induction grove generalizing parent with
  | nil => nofun
  | cons first data inner rest ihInner ihRest =>
    obtain ⟨cell, inside, behind⟩ := bears
    have here := roots first List.mem_cons_self
    intro node member
    rw [nodes_cons, List.mem_cons, List.mem_append] at member
    obtain rfl | member | member := member
    · exact here
    · refine ihInner inside (fun root child => .deeper here ?_) node member
      rwa [children_of_cell? cell]
    · exact ihRest behind (fun root later => roots root (List.mem_cons_of_mem _ later)) node member

/-! ## Dwelling -/

/-- A container has exactly the given grove. -/
def Dwells (document : Document) (container : NodeId) (grove : Grove) : Prop :=
  ∃ data outer, Site document (.inside container data outer) grove

namespace Dwells

variable {document after : Document} {container : NodeId} {grove : Grove}

theorem has (dwells : Dwells document container grove) : document.Has container := by
  obtain ⟨data, outer, site⟩ := dwells
  exact site.has_parent

theorem children (dwells : Dwells document container grove) :
    document.children container = grove.roots := by
  obtain ⟨data, outer, site⟩ := dwells
  simpa [Place.inside] using children_of_cell? site.cell

/-- What is inside of a container is its grove. -/
theorem inside_iff (dwells : Dwells document container grove) {node : NodeId} :
    document.Inside container node ↔ node ∈ grove.nodes := by
  have children := dwells.children
  obtain ⟨data, outer, site⟩ := dwells
  constructor
  · intro inside
    induction inside with
    | child child => exact Grove.mem_nodes_of_mem_roots (children ▸ child)
    | deeper _ child member => exact site.bears.mem_children member child
  · exact site.bears.inside (fun root member => .child (children ▸ member)) node

/-- A container keeps its grove as long as its children and the nodes of the grove stay as they are. -/
theorem congr (dwells : Dwells document container grove) (has : after.Has container)
    (children : after.children container = document.children container)
    (same : ∀ node ∈ grove.nodes, after.cell? node = document.cell? node) :
    Dwells after container grove := by
  have roots := dwells.children
  obtain ⟨data, outer, site⟩ := dwells
  obtain ⟨cell, found⟩ := has.exists_cell?
  rw [children_of_cell? found, roots] at children
  refine ⟨cell.data, cell.parent, ?_, site.bears.congr same, ?_, site.once⟩
  · rw [show (Place.inside container cell.data cell.parent).parent = container from rfl, found]
    simp [Place.inside, ← children]
  · simp [Place.inside]

/-- A change inside of one container does not concern another one. -/
theorem moves (dwells : Dwells document container grove) {owned : NodeId → Prop}
    (moves : document.Moves owned after) (free : ¬ owned container)
    (apart : ∀ node ∈ grove.nodes, ¬ owned node) : Dwells after container grove := by
  obtain ⟨data, outer, site⟩ := dwells
  refine Dwells.congr ⟨data, outer, site⟩ (moves.has site.has_parent) ?_ fun node member =>
    moves.kept node (site.has member) (apart node member)
  simp [Document.children, moves.kept container site.has_parent free]

end Dwells

/-- Instances that fit their groves leave nothing when they are detached. -/
def Detaches (fits : Instance σ → Grove → Prop) : Prop :=
  ∀ {inner : Instance σ} {grove : Grove}, fits inner grove → ∀ {document : Document} {place : Place},
    Site document place grove → Performs inner.detach document fun _ after =>
      Regrown place document grove after .nil

/-! ## What a renderer holds -/

namespace Renderer

/-- Whether an instance lives in a container. -/
def Holds (renderer : Renderer σ) (container : NodeId) : Prop :=
  ∃ inner, renderer.instance? container = some inner

/-- A container is neither inside of another one that the renderer holds nor around it. -/
def Apart (renderer : Renderer σ) (container : NodeId) : Prop :=
  ∀ other, renderer.Holds other → other ≠ container →
    ¬ renderer.stage.document.Inside other container ∧
      ¬ renderer.stage.document.Inside container other

/-- The children of all containers that the renderer holds, and all nodes inside of them, are in a
document as they are in that of the renderer. -/
def Untouched (renderer : Renderer σ) (after : Document) : Prop :=
  ∀ container, renderer.Holds container →
    after.children container = renderer.stage.document.children container ∧
      ∀ node, renderer.stage.document.Inside container node →
        after.cell? node = renderer.stage.document.cell? node

/-- A renderer that has not rendered anything into its document. -/
def fresh (config : Config) (document : Document) : Renderer σ :=
  { Renderer.empty {} config with stage := { Stage.empty {} with document } }

/-- What the renderer remembers is there in its document, and fits. -/
structure Holding (fits : Instance σ → Grove → Prop) (config : Config) (renderer : Renderer σ) :
    Prop where
  config : renderer.config = config
  plain : renderer.strategies = []
  whole : renderer.stage.shortcomings = {}
  sound : renderer.stage.document.Sound
  lives : ∀ container inner, renderer.instance? container = some inner →
    ∃ grove, fits inner grove ∧ Dwells renderer.stage.document container grove
  apart : ∀ container other, renderer.Holds container → renderer.Holds other →
    container ≠ other → ¬ renderer.stage.document.Inside container other

theorem lookup_without (instances : List (NodeId × Instance σ)) (container other : NodeId) :
    (without instances container).lookup other =
      if other = container then none else instances.lookup other := by
  induction instances with
  | nil => simp [without]
  | cons entry instances ih =>
    unfold without at ih ⊢
    by_cases own : entry.1 = container
    · rw [List.filter_cons_of_neg (by simp [own]), ih]
      split
      · rfl
      · next away =>
        have different : (other == entry.1) = false := by simpa [own] using away
        rw [List.lookup_cons, different]
    · rw [List.filter_cons_of_pos (by simp [own]), List.lookup_cons, List.lookup_cons, ih]
      split
      · next here =>
        rw [if_neg]
        rw [beq_iff_eq] at here
        exact here ▸ own
      · rfl

/-- The instances when the given one, or none, lives in a container. -/
theorem lookup_updated (updated : Option (Instance σ)) (instances : List (NodeId × Instance σ))
    (container other : NodeId) :
    ((updated.map (container, ·)).toList ++ without instances container).lookup other =
      if other = container then updated else instances.lookup other := by
  cases updated with
  | none => exact lookup_without instances container other
  | some inner =>
    rw [Option.map_some, Option.toList_some, List.singleton_append, List.lookup_cons,
      lookup_without]
    by_cases same : other = container
    · simp [same]
    · have different : (other == container) = false := by simpa using same
      simp [different, same]

/-! ## Steps -/

namespace Holding

variable {fits : Instance σ → Grove → Prop} {config : Config} {renderer : Renderer σ}
  {container : NodeId} {owned : NodeId → Prop}

theorem fresh {document : Document} (built : Document.empty.Edits document) :
    (Renderer.fresh config document : Renderer σ).Holding fits config where
  config := rfl
  plain := rfl
  whole := rfl
  sound := built.moves.sound sound_empty
  lives := nofun
  apart := nofun

/-- Whatever happens inside of one container leaves the others alone. -/
theorem lives_on (holding : renderer.Holding fits config) (apart : renderer.Apart container)
    (inside : ∀ node, owned node → renderer.stage.document.Inside container node)
    {after : Document}
    (moves : renderer.stage.document.Moves (fun node => node = container ∨ owned node) after)
    {other : NodeId} (away : other ≠ container) (holds : renderer.Holds other) {grove : Grove}
    (dwells : Dwells renderer.stage.document other grove) : Dwells after other grove := by
  obtain ⟨notAround, notInside⟩ := apart other holds away
  refine dwells.moves moves ?_ fun node member => ?_
  · rintro (same | own)
    · exact away same
    · exact notInside (inside other own)
  · have within := dwells.inside_iff.mpr member
    rintro (rfl | own)
    · exact notAround within
    · obtain same | around | around := within.nested holding.sound (inside node own)
      · exact away same
      · exact notAround around
      · exact notInside around

/-- A step that leaves the given instance, or none, in a container, and changes nothing else. -/
theorem step (holding : renderer.Holding fits config) (apart : renderer.Apart container)
    (updated : Option (Instance σ))
    (inside : ∀ node, owned node → renderer.stage.document.Inside container node) {stage : Stage}
    (whole : stage.shortcomings = {})
    (moves : renderer.stage.document.Moves (fun node => node = container ∨ owned node)
      stage.document)
    (settled : ∀ inner, updated = some inner →
      ∃ grove, fits inner grove ∧ Dwells stage.document container grove ∧
        ∀ node ∈ grove.nodes, owned node ∨ ¬ renderer.stage.document.Has node) :
    Holding fits config { renderer with
      stage, instances := (updated.map (container, ·)).toList ++
        without renderer.instances container } := by
  have lookup := lookup_updated updated renderer.instances container
  constructor
  case config => exact holding.config
  case plain => exact holding.plain
  case whole => exact whole
  case sound => exact moves.sound holding.sound
  case lives =>
    intro other inner held
    rw [instance?, lookup] at held
    split at held
    · next same =>
      obtain ⟨grove, suits, dwells, -⟩ := settled inner held
      exact ⟨grove, suits, same ▸ dwells⟩
    · next away =>
      obtain ⟨grove, suits, dwells⟩ := holding.lives other inner held
      exact ⟨grove, suits, holding.lives_on apart inside moves away ⟨inner, held⟩ dwells⟩
  case apart =>
    rintro first second ⟨inner, held⟩ ⟨inner', held'⟩ different around
    rw [instance?, lookup] at held held'
    split at held
    · next same =>
      -- What is new in the container is no container itself.
      subst same
      rw [if_neg (Ne.symm different)] at held'
      obtain ⟨grove, -, dwells, fresh⟩ := settled inner held
      obtain ⟨_, -, known⟩ := holding.lives second inner' held'
      obtain own | new := fresh second (dwells.inside_iff.mp around)
      · exact (apart second ⟨inner', held'⟩ (Ne.symm different)).2 (inside second own)
      · exact new known.has
    · next away =>
      obtain ⟨grove, -, dwells⟩ := holding.lives first inner held
      have later := holding.lives_on apart inside moves away ⟨inner, held⟩ dwells
      have before := dwells.inside_iff.mpr (later.inside_iff.mp around)
      split at held'
      · next same => exact (apart first ⟨inner, held⟩ away).1 (same ▸ before)
      · exact holding.apart first second ⟨inner, held⟩ ⟨inner', held'⟩ different before

/-- Changes elsewhere do not concern what the renderer holds. -/
theorem elsewhere (holding : renderer.Holding fits config) {after : Document}
    (edits : renderer.stage.document.Edits after) (untouched : renderer.Untouched after)
    (journal : Array Event) :
    Holding fits config
      { renderer with stage := { renderer.stage with document := after, journal } } := by
  have remains {other : NodeId} {grove : Grove} (holds : renderer.Holds other)
      (dwells : Dwells renderer.stage.document other grove) : Dwells after other grove := by
    obtain ⟨children, same⟩ := untouched other holds
    exact dwells.congr (edits.moves.has dwells.has) children fun node member =>
      same node (dwells.inside_iff.mpr member)
  constructor
  case config => exact holding.config
  case plain => exact holding.plain
  case whole => exact holding.whole
  case sound => exact edits.moves.sound holding.sound
  case lives =>
    intro other inner held
    obtain ⟨grove, suits, before⟩ := holding.lives other inner held
    exact ⟨grove, suits, remains ⟨inner, held⟩ before⟩
  case apart =>
    rintro first second ⟨inner, held⟩ holds different around
    obtain ⟨grove, -, before⟩ := holding.lives first inner held
    have later := remains ⟨inner, held⟩ before
    exact holding.apart first second ⟨inner, held⟩ holds different
      (before.inside_iff.mpr (later.inside_iff.mp around))

/-- A container that is held is neither inside of another one that is held nor around it. -/
theorem apart_of_holds (holding : renderer.Holding fits config) (holds : renderer.Holds container) :
    renderer.Apart container :=
  fun other also away => ⟨holding.apart other container also holds away,
    holding.apart container other holds also (Ne.symm away)⟩

theorem release (holding : renderer.Holding fits config) (detaches : Detaches fits)
    (container : NodeId) : (renderer.release container).2.Holding fits config := by
  unfold Renderer.release
  cases held : renderer.instance? container with
  | none => exact holding
  | some inner =>
    obtain ⟨grove, suits, dwells⟩ := holding.lives container inner held
    have inside (node : NodeId) (own : node ∈ grove.nodes) :
        renderer.stage.document.Inside container node := dwells.inside_iff.mpr own
    obtain ⟨data, outer, site⟩ := dwells
    obtain ⟨whole, detached⟩ := detaches suits site renderer.stage rfl holding.whole
    exact holding.step (holding.apart_of_holds ⟨inner, held⟩) none inside whole detached.moves nofun

end Holding

end Renderer

end LiveMarkup
