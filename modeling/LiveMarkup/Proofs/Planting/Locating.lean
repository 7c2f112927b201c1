import LiveMarkup.Proofs.Planting.Seclusion
import LiveMarkup.Proofs.Planting.States

/-! # Every part is found in a copy

Compiling notes for each part a path in the forest, and making an instance follows it in a copy of the
forest.  The two go together whatever the parser has read: a copy has the shape of its forest, so the
path leads to the copy of the node that it led to (`Instance.make_locates`).

A walk from child to child in the document is a walk down the grove that the document bears
(`Grove.Bears.locate_roots`). -/

namespace LiveMarkup

open Document Markup

variable {σ τ α β : Type}

/-! ## Paths in groves -/

namespace Grove

/-- A node of a grove, with what is below it. -/
structure Tree where
  root : NodeId
  data : NodeData
  below : Grove

def Tree.grove (tree : Tree) : Grove :=
  .cons tree.root tree.data tree.below .nil

/-- The node that a path leads to from the roots of a grove. -/
def at? : Grove → Path → Option Tree
  | nil, _ | cons _ _ _ _, [] => none
  | cons node data below _, [0] => some ⟨node, data, below⟩
  | cons _ _ below _, 0 :: index :: path => below.at? (index :: path)
  | cons _ _ _ rest, (index + 1) :: path => rest.at? (index :: path)

variable {grove : Grove} {path other : Path} {tree tree' : Tree}

theorem at?_nil (grove : Grove) : grove.at? [] = none := by
  cases grove <;> rfl

theorem root_mem_nodes (leads : grove.at? path = some tree) : tree.root ∈ grove.nodes := by
  induction grove generalizing path with
  | nil => simp [at?] at leads
  | cons node data below rest ihBelow ihRest =>
    rw [nodes_cons]
    obtain _ | ⟨_ | index, _ | ⟨next, path⟩⟩ := path
    · cases leads
    · cases leads
      exact List.mem_cons_self
    · exact List.mem_cons_of_mem _ (List.mem_append_left _ (ihBelow leads))
    · exact List.mem_cons_of_mem _ (List.mem_append_right _ (ihRest leads))
    · exact List.mem_cons_of_mem _ (List.mem_append_right _ (ihRest leads))

/-- Different paths lead to different nodes. -/
theorem at?_injective (once : grove.nodes.Nodup) (leads : grove.at? path = some tree)
    (leads' : grove.at? other = some tree') (same : tree.root = tree'.root) : path = other := by
  induction grove generalizing path other with
  | nil => simp [at?] at leads
  | cons node data below rest ihBelow ihRest =>
    rw [nodes_cons, List.nodup_cons, List.mem_append, not_or, List.nodup_append'] at once
    obtain ⟨⟨notBelow, notRest⟩, onceBelow, onceRest, apart⟩ := once
    have inBelow {next : Nat} {path : Path} {tree : Tree}
        (leads : (cons node data below rest).at? (0 :: next :: path) = some tree) :
        tree.root ∈ below.nodes := root_mem_nodes leads
    -- No path that starts at the first root leads to what one behind it leads to.
    have later {index : Nat} {path other : Path} {tree tree' : Tree}
        (leads : (cons node data below rest).at? (0 :: path) = some tree)
        (leads' : rest.at? (index :: other) = some tree') : tree.root ≠ tree'.root := by
      intro same
      obtain _ | ⟨next, path⟩ := path
      · cases leads
        have same : node = tree'.root := same
        exact notRest (same ▸ root_mem_nodes leads')
      · exact apart (inBelow leads) (same ▸ root_mem_nodes leads')
    obtain _ | ⟨_ | index, path⟩ := path
    · cases leads
    · obtain _ | ⟨_ | index', other⟩ := other
      · cases leads'
      · obtain _ | ⟨next, path⟩ := path <;> obtain _ | ⟨next', other⟩ := other
        · rfl
        · cases leads
          have same : node = tree'.root := same
          exact absurd (same ▸ inBelow leads') notBelow
        · cases leads'
          have same : tree.root = node := same
          exact absurd (same ▸ inBelow leads) notBelow
        · have paths : next :: path = next' :: other := ihBelow onceBelow leads leads'
          rw [paths]
      · exact absurd same (later leads leads')
    · obtain _ | ⟨_ | index', other⟩ := other
      · cases leads'
      · exact absurd same.symm (later leads' leads)
      · have paths : index :: path = index' :: other := ihRest onceRest leads leads'
        simpa using paths

end Grove

/-- Whether the child with the given index can be seen. -/
def Stage.sees (stage : Stage) (index : Nat) : Bool :=
  stage.shortcomings.visibleChildren.all (index < ·)

theorem Stage.sees_of_whole {stage : Stage} (whole : stage.shortcomings = {}) (index : Nat) :
    stage.sees index = true := by
  simp [sees, whole]

theorem Stage.foldl_child_none (stage : Stage) (path : Path) :
    path.foldl (fun node index => node.bind (stage.child · index)) none = none := by
  induction path with
  | nil => rfl
  | cons index path ih => exact ih

/-- Among the roots of a grove, a path leads in the document where it leads in the grove, if it goes
by children that can be seen. -/
theorem Grove.Bears.locate_roots {stage : Stage} {grove : Grove} {parent : Option NodeId}
    (bears : grove.Bears stage.document parent) (path : Path) :
    stage.locate grove.roots path =
      if path.tail.all stage.sees then (grove.at? path).map Tree.root else none := by
  induction grove generalizing parent path with
  | nil =>
    cases path with
    | nil => rfl
    | cons index path =>
      have nowhere : stage.locate nil.roots (index :: path) = none := stage.foldl_child_none path
      rw [nowhere, at?, Option.map_none, ite_self]
  | cons node data below rest ihBelow ihRest =>
    obtain ⟨cell, inside, behind⟩ := bears
    obtain _ | ⟨_ | index, path⟩ := path
    · rfl
    · obtain _ | ⟨next, path⟩ := path
      · rfl
      · -- The children of the first root are the roots below it, so a step is the start of a walk there.
        have step : stage.child node next =
            if stage.sees next then below.roots[next]? else none := by
          rw [Stage.child, children_of_cell? cell]
          rfl
        have walk : stage.locate (cons node data below rest).roots (0 :: next :: path) =
            path.foldl (fun node index => node.bind (stage.child · index)) (stage.child node next) :=
          rfl
        rw [walk, step]
        by_cases seen : stage.sees next = true
        · rw [if_pos seen]
          refine (ihBelow inside (next :: path)).trans ?_
          simp [at?, seen]
        · rw [if_neg seen, Stage.foldl_child_none]
          simp [seen]
    · exact ihRest behind (index :: path)

/-! ## Copies of forests -/

mutual

/-- A node as a document has it, in which the attributes of an element are set one after the
other. -/
def Markup.Node.assigned : Node → Node
  | .element name space attributes children =>
    .element name space (putAll attributes []) (Forest.assigned children)
  | .text data => .text data
  | .comment data => .comment data

def Markup.Forest.assigned : List Node → List Node
  | [] => []
  | node :: rest => node.assigned :: Forest.assigned rest

end

theorem putAll_of_nodup {attributes before : List (String × String)}
    (once : ((before ++ attributes).map Prod.fst).Nodup) :
    putAll attributes before = before ++ attributes := by
  induction attributes generalizing before with
  | nil => exact (List.append_nil before).symm
  | cons pair attributes ih =>
    have absent : pair.1 ∉ before.map Prod.fst := by
      intro member
      rw [List.map_append, List.nodup_append'] at once
      exact once.2.2 member (by simp)
    have step : putAll (pair :: attributes) before =
        putAll attributes (putAttribute pair.1 pair.2 before) := rfl
    rw [step, putAttribute_of_notMem absent, ih (by simpa using once)]
    simp

/-- A forest whose elements have no two attributes of one name is copied as it is. -/
theorem Markup.Distinct.assigned {forest : Forest} (distinct : Distinct forest) :
    Forest.assigned forest = forest := by
  induction distinct with
  | nil => rfl
  | @element _ _ attributes _ _ once _ _ ihInside ihAfter =>
    have kept : putAll attributes [] = [] ++ attributes := putAll_of_nodup once
    rw [Forest.assigned, Node.assigned, ihInside, ihAfter, kept]
    rfl
  | text _ ih | comment _ ih => rw [Forest.assigned, Node.assigned, ih]

section

variable (node : Node) (forest : Forest) (index : Nat) (path : Path)

theorem Markup.Forest.at?_nil : Forest.at? [] path = none := by
  cases path <;> rfl

theorem Markup.Forest.at?_behind :
    Forest.at? (node :: forest) ((index + 1) :: path) = forest.at? (index :: path) := by
  rw [at?, at?, List.getElem?_cons_succ]

end

/-- Where a path leads to a node of a forest, it leads to its copy in the copy of the forest. -/
theorem Grove.Copies.exists_at? {forest : Forest} {grove : Grove}
    (copies : Copies (Forest.assigned forest) grove) {path : Path} {node : Node}
    (leads : forest.at? path = some node) :
    ∃ tree, grove.at? path = some tree ∧ Copies [node.assigned] tree.grove := by
  induction grove generalizing forest path with
  | nil =>
    cases forest with
    | nil =>
      rw [Forest.at?_nil] at leads
      cases leads
    | cons first forest =>
      rw [Forest.assigned] at copies
      cases first <;> rw [Node.assigned] at copies <;> cases copies
  | cons root data below rest ihBelow ihRest =>
    cases forest with
    | nil => cases copies
    | cons first forest =>
      rw [Forest.assigned] at copies
      have parts : Copies [first.assigned] (.cons root data below .nil) ∧
          Copies (Forest.assigned first.children) below ∧ Copies (Forest.assigned forest) rest := by
        cases first <;> rw [Node.assigned] at copies ⊢ <;> cases copies
        case element inside behind => exact ⟨.element inside .nil, inside, behind⟩
        case text behind => exact ⟨.text .nil, .nil, behind⟩
        case comment behind => exact ⟨.comment .nil, .nil, behind⟩
      obtain ⟨alone, inside, behind⟩ := parts
      obtain _ | ⟨_ | index, _ | ⟨next, path⟩⟩ := path
      · cases leads
      · cases leads
        exact ⟨_, rfl, alone⟩
      · exact ihBelow inside leads
      · rw [Forest.at?_behind] at leads
        exact ihRest behind leads
      · rw [Forest.at?_behind] at leads
        exact ihRest behind leads

namespace Stencil

/-- A new bed is a copy of the forest of its stencil. -/
theorem copies_sow (stencil : Stencil) (inside : Option NodeId) (path : Path) (child next : Nat) :
    (stencil.sow inside path child next).result.grove.Copies (Forest.assigned stencil.forest) := by
  induction stencil generalizing path child inside next with
  | done => exact .nil
  | element name space static bound below rest ihBelow ihRest =>
    exact .element (ihBelow _ _ _ _) (ihRest _ _ _ _)
  | text data rest ih | gap rest ih => exact .text (ih _ _ _ _)
  | comment data rest ih => exact .comment (ih _ _ _ _)

/-- The nodes of a new bed come in the order of their numbers, which are the next ones. -/
theorem numbers_sow (stencil : Stencil) (inside : Option NodeId) (path : Path) (child next : Nat) :
    let harvest := stencil.sow inside path child next
    harvest.next = next + harvest.result.grove.nodes.length ∧
      harvest.result.grove.nodes.map NodeId.number =
        List.range' next harvest.result.grove.nodes.length := by
  induction stencil generalizing path child inside next with
  | done => exact ⟨rfl, rfl⟩
  | element name space static bound below rest ihBelow ihRest =>
    obtain ⟨count, order⟩ := ihBelow (some ⟨next⟩) (path ++ [child]) 0 (next + 1)
    obtain ⟨count', order'⟩ := ihRest inside path (child + 1)
      (below.sow (some ⟨next⟩) (path ++ [child]) 0 (next + 1)).next
    simp only [sow, Tend.bind_apply, Tend.create_apply, Tend.record_apply, Tend.pure_apply,
      Bed.grove, Grove.nodes_cons, List.length_cons, List.length_append, List.map_cons,
      List.map_append, List.range'_succ, order, order']
    rw [count', count, List.range'_append_1]
    exact ⟨by omega, rfl⟩
  | text data rest ih | comment data rest ih | gap rest ih =>
    obtain ⟨count, order⟩ := ih inside path (child + 1) (next + 1)
    simp only [sow, Tend.bind_apply, Tend.create_apply, Tend.record_apply, Tend.pure_apply,
      Bed.grove, Plot.grove, Grove.leaf, Grove.cons_append, Grove.nil_append, Grove.nodes_cons,
      Grove.nodes_nil, List.nil_append, List.length_cons, List.map_cons, List.range'_succ, order]
    exact ⟨by omega, trivial⟩

end Stencil

/-! ## Parts in copies -/

/-- Whether a node of a document is of the sort that a part needs: an element, or an empty text with
nothing below it. -/
def Document.Suits (document : Document) (node : NodeId) : Part → Prop
  | .attribute _ => document.isElement node = true
  | .node _ => ∃ parent, document.cell? node = some ⟨.text "", parent, []⟩

namespace Instance

/-- Parts that can all be located are all bound. -/
theorem bindAll_of_located (strategies : List (Strategy σ)) {stage : Stage} {roots : List NodeId}
    {found : Path → NodeId} {parts : List Part}
    (located : ∀ part ∈ parts, stage.locate roots part.path = some (found part.path))
    (index : Nat) :
    bindAll strategies stage roots index parts =
      .ok (parts.map fun part => bind strategies (found part.path) part) := by
  induction parts generalizing index with
  | nil => rfl
  | cons part parts ih =>
    obtain ⟨here, later⟩ := List.forall_mem_cons.mp located
    rw [bindAll]
    simp only [here, ih later (index + 1)]
    rfl

/-- An instance is bound to a copy of the forest of its template.  The copy is new, each part is at its
own place in it, and nothing else has changed. -/
structure Copied (strategies : List (Strategy σ)) (template : Template) (before : Document)
    (result : Except (Nat × ResolutionError) (Instance σ)) (after : Stage) (grove : Grove)
    (found : Path → NodeId) : Prop where
  made : result = .ok (.mk template grove.roots
    (template.blueprint.parts.map fun part => bind strategies (found part.path) part))
  /-- There is one node for each node of the forest. -/
  copies : grove.Copies (Forest.assigned template.blueprint.forest)
  bears : grove.Bears after.document none
  /-- The nodes are created in the order of the forest. -/
  order : grove.nodes.map NodeId.number = List.range' before.size grove.nodes.length
  size : after.document.size = before.size + grove.nodes.length
  kept : ∀ node, before.Has node → after.document.cell? node = before.cell? node
  located : ∀ part ∈ template.blueprint.parts,
    after.locate grove.roots part.path = some (found part.path)
  /-- The node that a part is bound to is the copy of the node that its path leads to. -/
  corresponds : ∀ part ∈ template.blueprint.parts, ∃ node tree,
    template.blueprint.forest.at? part.path = some node ∧ grove.at? part.path = some tree ∧
      tree.root = found part.path ∧ tree.grove.Copies [node.assigned]
  suits : ∀ part ∈ template.blueprint.parts, after.document.Suits (found part.path) part
  /-- No two contents have one anchor. -/
  apart : ((anchorPaths template.blueprint.parts).map found).Nodup

end Instance

/-- What is at the end of a path in a grove that a document bears. -/
theorem Grove.Bears.at? {document : Document} {grove : Grove} {parent : Option NodeId}
    (bears : grove.Bears document parent) {path : Path} {tree : Tree}
    (leads : grove.at? path = some tree) : ∃ above, tree.grove.Bears document above := by
  induction grove generalizing parent path with
  | nil => simp [Grove.at?] at leads
  | cons node data below rest ihBelow ihRest =>
    obtain ⟨cell, inside, behind⟩ := bears
    obtain _ | ⟨_ | index, _ | ⟨next, path⟩⟩ := path
    · cases leads
    · cases leads
      exact ⟨parent, cell, inside, trivial⟩
    · exact ihBelow inside leads
    · exact ihRest behind leads
    · exact ihRest behind leads

/-- The node at the end of a path, wherever it leads. -/
def Grove.nodeAt (grove : Grove) (path : Path) : NodeId :=
  ((grove.at? path).map Tree.root).getD ⟨0⟩

theorem Grove.nodeAt_of_at? {grove : Grove} {path : Path} {tree : Tree}
    (leads : grove.at? path = some tree) : grove.nodeAt path = tree.root := by
  rw [nodeAt, leads]
  rfl

namespace Stencil

/-- The path of a part leads to a node of the forest that suits the part, and to its copy. -/
theorem exists_copy {stencil : Stencil} {grove : Grove}
    (copies : grove.Copies (Forest.assigned stencil.forest)) {part : Part}
    (member : part ∈ stencil.blueprint.parts) :
    ∃ node tree, stencil.forest.at? part.path = some node ∧ part.Suits node ∧
      grove.at? part.path = some tree ∧ tree.grove.Copies [node.assigned] := by
  obtain ⟨rest, node, same, leads, suits⟩ := exists_at?_of_mem_partsAt [] rfl member
  rw [List.nil_append] at same leads
  subst same
  obtain ⟨tree, leads', copied⟩ := copies.exists_at? leads
  exact ⟨node, tree, leads, suits, leads', copied⟩

theorem located {stencil : Stencil} {grove : Grove}
    (copies : grove.Copies (Forest.assigned stencil.forest)) {stage : Stage}
    (whole : stage.shortcomings = {}) {parent : Option NodeId}
    (bears : grove.Bears stage.document parent) {part : Part}
    (member : part ∈ stencil.blueprint.parts) :
    stage.locate grove.roots part.path = some (grove.nodeAt part.path) := by
  obtain ⟨node, tree, -, -, leads, -⟩ := exists_copy copies member
  have seen : part.path.tail.all stage.sees = true :=
    List.all_eq_true.mpr fun index _ => Stage.sees_of_whole whole index
  rw [bears.locate_roots, if_pos seen, leads, Grove.nodeAt_of_at? leads]
  rfl

/-- Making an instance of a template that is laid out by a stencil. -/
theorem performs_make (strategies : List (Strategy σ)) (document : Document)
    {template : Template} {stencil : Stencil} (layout : template.blueprint = stencil.blueprint) :
    let harvest := stencil.sow none [] 0 document.size
    let grove := harvest.result.grove
    Performs (Instance.make strategies template) document fun result after =>
      Raised document grove harvest.next harvest.deeds after ∧
        result = .ok (.mk template grove.roots
          (template.blueprint.parts.map fun part =>
            Instance.bind strategies (grove.nodeAt part.path) part)) := by
  intro harvest grove
  have copies : grove.Copies (Forest.assigned stencil.forest) := stencil.copies_sow ..
  unfold Instance.make
  rw [layout]
  refine (stencil.raises [] 0 document).bind fun roots after ⟨same, raised⟩ => ?_
  rw [← stencil.roots_sow] at same
  subst same
  refine .get fun stage same whole => ?_
  subst same
  have binds := Instance.bindAll_of_located strategies
    (fun part member => located copies whole raised.added.bears member) 0
  rw [binds]
  exact .noting (.pure ⟨raised, rfl⟩)

/-- The copies of anchors are different nodes. -/
theorem nodup_anchors {stencil : Stencil} {grove : Grove}
    (copies : grove.Copies (Forest.assigned stencil.forest)) (once : grove.nodes.Nodup) :
    ((anchorPaths stencil.blueprint.parts).map grove.nodeAt).Nodup := by
  refine List.Nodup.map_on ?_ (stencil.nodup_anchorPaths [] 0)
  intro path member other member' same
  obtain ⟨-, tree, -, -, leads, -⟩ := exists_copy copies (mem_anchorPaths.mp member)
  obtain ⟨-, tree', -, -, leads', -⟩ := exists_copy copies (mem_anchorPaths.mp member')
  have leads : grove.at? path = some tree := leads
  have leads' : grove.at? other = some tree' := leads'
  rw [Grove.nodeAt_of_at? leads, Grove.nodeAt_of_at? leads'] at same
  exact Grove.at?_injective once leads leads' same

/-- The copy of a node that suits a part suits it too. -/
theorem suits_copy {stencil : Stencil} {grove : Grove}
    (copies : grove.Copies (Forest.assigned stencil.forest)) {document : Document}
    {parent : Option NodeId} (bears : grove.Bears document parent) {part : Part}
    (member : part ∈ stencil.blueprint.parts) :
    document.Suits (grove.nodeAt part.path) part := by
  obtain ⟨node, tree, -, suits, leads, copied⟩ := exists_copy copies member
  obtain ⟨above, cell, -⟩ := bears.at? leads
  obtain ⟨root, data, below⟩ := tree
  obtain part | path := part
  · have own : grove.nodeAt part.path = root := Grove.nodeAt_of_at? leads
    cases node with
    | element name space attributes children =>
      cases copied
      simp only [Document.Suits, Part.path, own, isElement, data?_of_cell? cell]
    | text data | comment data => cases suits
  · have own : grove.nodeAt path = root := Grove.nodeAt_of_at? leads
    obtain rfl : node = .text "" := suits
    cases copied
    exact ⟨above, own ▸ cell⟩

end Stencil

/-- Whatever the parser and the document, an instance can be made of a template that has been
compiled. -/
theorem Instance.copied_make (strategies : List (Strategy σ)) {template : Template}
    (compiled : template.Compiled) {stage : Stage} (whole : stage.shortcomings = {}) :
    let outcome : Except (Nat × ResolutionError) (Instance σ) × Stage :=
      (Instance.make strategies template).run stage
    ∃ grove found,
      Copied strategies template stage.document outcome.1 outcome.2 grove found := by
  intro outcome
  obtain ⟨stencil, layout⟩ := compiled.exists_stencil
  obtain ⟨wholeAfter, raised, made⟩ := stencil.performs_make strategies stage.document layout stage rfl
    whole
  let harvest := stencil.sow none [] 0 stage.document.size
  have copies : harvest.result.grove.Copies (Forest.assigned stencil.forest) :=
    stencil.copies_sow ..
  obtain ⟨size, order⟩ := stencil.numbers_sow none [] 0 stage.document.size
  have parts : template.blueprint.parts = stencil.blueprint.parts := by rw [layout]
  have forest : template.blueprint.forest = stencil.forest := by rw [layout]; rfl
  have bears := raised.added.bears
  refine ⟨harvest.result.grove, harvest.result.grove.nodeAt, ?_⟩
  constructor
  case made => exact made
  case copies => rwa [forest]
  case bears => exact bears
  case order => exact order
  case size => exact raised.logs.size.trans size
  case kept => exact fun node has => raised.added.moves.kept node has id
  case located => exact fun part member => Stencil.located copies wholeAfter bears (parts ▸ member)
  case corresponds =>
    intro part member
    obtain ⟨node, tree, leads, -, leads', copied⟩ := Stencil.exists_copy copies (parts ▸ member)
    exact ⟨node, tree, by rw [forest, leads], leads', (Grove.nodeAt_of_at? leads').symm, copied⟩
  case suits => exact fun part member => Stencil.suits_copy copies bears (parts ▸ member)
  case apart =>
    rw [parts]
    exact Stencil.nodup_anchors copies raised.added.once

/-! ## What is reported -/

/-- A failure that is not for want of a node. -/
def ResolutionError.Found (error : ResolutionError) : Prop :=
  ∀ path, error ≠ .noNode path

/-- An attempt does not fail for want of a node. -/
def Finds (action : AttemptM τ α) : Prop :=
  ∀ world error, (action.run.run world).1 = .error error → error.Found

/-- Some work takes down no diagnostic of a missing node. -/
def Complete (action : ReadM τ α) : Prop :=
  ∀ taken world, (∀ diagnostic ∈ taken, diagnostic.error.Found) →
    ∀ diagnostic ∈ ((action.run taken).run world).1.2, diagnostic.error.Found

namespace Finds

protected theorem pure (result : α) : Finds (pure result : AttemptM τ α) :=
  nofun

theorem throw {error : ResolutionError} (found : error.Found) :
    Finds (throw error : AttemptM τ α) := by
  rintro world _ ⟨⟩
  exact found

theorem bind {action : AttemptM τ β} {next : β → AttemptM τ α} (first : Finds action)
    (second : ∀ result, Finds (next result)) : Finds (action >>= next) := by
  intro world error same
  rw [ExceptT.run_bind, StateT.run_bind] at same
  cases reached : action.run.run world with
  | mk outcome after =>
    rw [reached] at same
    cases outcome with
    | error failure =>
      cases same
      exact first world error (by rw [reached])
    | ok result => exact second result after error same

theorem mapM {action : Value → AttemptM τ Value} {values : List Value}
    (each : ∀ value, Finds (action value)) : Finds (values.mapM action) := by
  induction values with
  | nil =>
    rw [List.mapM_nil]
    exact .pure _
  | cons value values ih =>
    rw [List.mapM_cons]
    exact .bind (each value) fun first => .bind ih fun rest => .pure _

end Finds

namespace Complete

protected theorem pure (result : α) : Complete (pure result : ReadM τ α) :=
  fun _ _ found => found

theorem bind {action : ReadM τ β} {next : β → ReadM τ α} (first : Complete action)
    (second : ∀ result, Complete (next result)) : Complete (action >>= next) :=
  fun taken world found => second _ _ _ (first taken world found)

theorem complain {part depth : Nat} {error : ResolutionError} (found : error.Found) :
    Complete (Reading.complain part depth error : ReadM τ Unit) := by
  intro taken world before diagnostic member
  obtain member | rfl := Array.mem_push.mp member
  · exact before diagnostic member
  · exact found

theorem attempt {action : AttemptM τ β} {next : Except ResolutionError β → ReadM τ α}
    (first : Finds action) (second : ∀ result, Complete (next (.ok result)))
    (otherwise : ∀ error : ResolutionError, error.Found → Complete (next (.error error))) :
    Complete (liftM action.run >>= next) := by
  intro taken world found
  change ∀ diagnostic ∈
    (((next (action.run.run world).1).run taken).run (action.run.run world).2).1.2, _
  cases reached : (action.run.run world).1 with
  | ok result => exact second result _ _ found
  | error error => exact otherwise error (first world error reached) _ _ found

end Complete

section

variable {environment : Environment τ} {config : Config}

theorem finds_settled (left : Nat) (value : Value) :
    Finds (Reading.settled environment config left value) := by
  have invokes (computation : Deferred) : Finds (Reading.invoked environment computation) := by
    intro world error same
    rw [Reading.run_invoked] at same
    cases reply : (environment.invoke computation world).1.outcome with
    | ok result => simp [reply, Except.mapError] at same
    | error fault =>
      simp only [reply, Except.mapError, Except.error.injEq] at same
      subst same
      nofun
  induction left generalizing value with
  | zero =>
    cases value with
    | deferred computation => exact .throw nofun
    | _ => exact .pure _
  | succ left ih =>
    cases value with
    | deferred computation => exact .bind (invokes computation) ih
    | _ => exact .pure _

theorem finds_settledDeep (levels : Nat) (value : Value) :
    Finds (Reading.settledDeep environment config levels value) := by
  induction levels generalizing value with
  | zero =>
    unfold Reading.settledDeep
    refine .bind (finds_settled _ value) fun result => ?_
    cases result with
    | items values => exact .throw fun _ same => by cases same
    | _ => exact .pure _
  | succ levels ih =>
    unfold Reading.settledDeep
    refine .bind (finds_settled _ value) fun result => ?_
    cases result with
    | items values => exact .bind (.mapM ih) fun values => .pure _
    | _ => exact .pure _

mutual

theorem Value.found_attributeText : ∀ (value : Value) {error : ResolutionError},
    value.attributeText = .error error → error.Found
  | .template _ _, _, failed => by
    cases failed
    nofun
  | .items values, _, failed => Value.found_itemsText values failed
  | .empty, _, failed | .text _, _, failed | .integer _, _, failed | .float _, _, failed
  | .bool _, _, failed | .deferred _, _, failed => by cases failed

theorem Value.found_itemsText : ∀ (values : List Value) {error : ResolutionError},
    Value.itemsText values = .error error → error.Found
  | [], _, failed => by cases failed
  | value :: rest, error, failed => by
    rw [Value.itemsText] at failed
    cases first : value.attributeText with
    | error failure =>
      rw [first] at failed
      cases failed
      exact Value.found_attributeText value first
    | ok text =>
      rw [first] at failed
      cases more : Value.itemsText rest with
      | error failure =>
        simp only [more] at failed
        cases failed
        exact Value.found_itemsText rest more
      | ok texts =>
        simp only [more] at failed
        cases failed

end

namespace Settling

theorem complete_parts {content : Nat → Value → ReadM τ Value}
    (complete : ∀ part value, Complete (content part value)) (depth index : Nat)
    (list : List Part) (values : List Value) :
    Complete (parts environment config content depth index list values) := by
  induction list generalizing index values with
  | nil => exact .pure _
  | cons first rest ih =>
    cases values with
    | nil =>
      rw [parts_nil]
      exact .pure _
    | cons value values =>
      rw [parts_cons]
      refine .bind ?_ fun result => .bind (ih _ _) fun others => .pure _
      obtain own | path := first
      · refine .attempt (finds_settledDeep _ value) (fun result => ?_) fun error found =>
          .bind (.complain found) fun _ => .pure _
        dsimp only
        split
        · next error failed =>
          exact .bind (.complain (Value.found_attributeText _ failed)) fun _ => .pure _
        · exact .pure _
      · exact complete index value

theorem complete_items {content : Value → ReadM τ Value} (complete : ∀ value, Complete (content value))
    (values : List Value) : Complete (items content values) := by
  induction values with
  | nil => exact .pure _
  | cons value values ih => exact .bind (complete value) fun first => .bind ih fun rest => .pure _

theorem complete_content (room part : Nat) (value : Value) :
    Complete (content environment config room part value) := by
  induction room generalizing part value with
  | zero => exact .bind (.complain nofun) fun _ => .pure _
  | succ room ih =>
    unfold content
    refine .attempt (finds_settled _ value) (fun result => ?_) fun error found =>
      .bind (.complain found) fun _ => .pure _
    cases result with
    | template template values =>
      dsimp only
      rw [map_eq_pure_bind]
      exact .bind (complete_parts ih _ _ _ _) fun values => .pure _
    | items values =>
      dsimp only
      rw [map_eq_pure_bind]
      exact .bind (complete_items (ih part) values) fun values => .pure _
    | _ => exact .pure _

end Settling

end

/-- However a renderer has come about, no call reports that a node is missing. -/
theorem Renderer.Arises.found {config : Config} {renderer : Renderer σ}
    (arises : renderer.Arises Template.Compiled config) {container : NodeId}
    (has : renderer.stage.document.Has container) {environment : Environment σ}
    (yields : environment.Yields Template.Compiled) {template : Template} {values : List Value}
    (proper : (Value.template template values).Proper Template.Compiled) (world : σ) :
    ∀ diagnostic ∈ (renderer.render environment container ⟨template, values⟩ world).1.diagnostics,
      diagnostic.error.Found := by
  obtain ⟨layout, laid⟩ := exists_layout fun template (compiled : template.Compiled) => compiled
  have holding := arises.holding laid
  cases proper with
  | primitive shape => cases shape
  | template sorted count inside =>
  obtain ⟨_, _, free, -⟩ := holding.exists_open has
  obtain ⟨cell, found⟩ := has.exists_cell?
  obtain ⟨bed, document, -, tends⟩ := holding.exists_tended laid free found yields sorted world
  intro diagnostic member
  rw [(tends values inside).failures, Array.mem_toList_iff] at member
  exact Settling.complete_parts (Settling.complete_content _) _ _ _ _ #[] world nofun diagnostic member

/-! ## The result -/

/-- Let a literal compile, with whatever parser.  Then in any document an instance can be made of the
template: its forest is copied into new nodes, in order, and each part is bound to the copy of the node
at its path, which is an empty text of its own for content and an element for an attribute.  So no call
of a renderer ever reports that a node is missing. -/
theorem Instance.make_locates {template : Template} (compiled : template.Compiled) :
    (∀ (strategies : List (Strategy σ)) (stage : Stage), stage.shortcomings = {} →
      let outcome : Except (Nat × ResolutionError) (Instance σ) × Stage :=
        (Instance.make strategies template).run stage
      ∃ grove found,
        Copied strategies template stage.document outcome.1 outcome.2 grove found) ∧
    ∀ {config : Config} {renderer : Renderer σ}, renderer.Arises Template.Compiled config →
      ∀ {container : NodeId}, renderer.stage.document.Has container →
      ∀ {environment : Environment σ}, environment.Yields Template.Compiled →
      ∀ {values : List Value}, (Value.template template values).Proper Template.Compiled →
      ∀ (world : σ), ∀ diagnostic ∈
        (renderer.render environment container ⟨template, values⟩ world).1.diagnostics,
          diagnostic.error.Found :=
  ⟨fun strategies _ whole => copied_make strategies compiled whole,
    fun arises _ has _ yields _ proper world => arises.found has yields proper world⟩

/-- A document that has been rendered into gets another copy, and a nested template is replaced. -/
theorem Instance.make_locates_seasoned :
    let renderer := Renderer.seasoned
    let outcome : Except (Nat × ResolutionError) (Instance (Nat × List Deferred)) × Stage :=
      (Instance.make [] Template.lettered).run renderer.stage
    let report := (renderer.render Environment.counting.traced ⟨0⟩
      ⟨Template.lettered, [.text "c", .deferred ⟨1⟩]⟩ (2, [])).1
    (∃ grove found,
      Copied [] Template.lettered renderer.stage.document outcome.1 outcome.2 grove found) ∧
      ∀ diagnostic ∈ report.diagnostics, diagnostic.error.Found := by
  obtain ⟨makes, reports⟩ := make_locates (σ := Nat × List Deferred) Template.standard_lettered.compiled
  have arises := Renderer.reached_seasoned.arises.mono fun _ => Template.Standard.compiled
  have has : Renderer.seasoned.stage.document.Has ⟨0⟩ := by
    change 0 < Renderer.seasoned.stage.document.size
    decide +kernel
  have text : (Value.text "c").Proper Template.Standard := .primitive rfl
  have proper := (Template.proper_lettered text (.deferred ⟨1⟩)).mono fun _ => Template.Standard.compiled
  exact ⟨makes [] _ (by decide +kernel),
    reports arises has Environment.yields_counting.traced proper (2, [])⟩

/-- A parser that gives an element two attributes of one name. -/
def Parser.repeating : Parser :=
  { parse := fun _ => .ok [.element "p" none [("a", "1"), ("a", "2")] []] }

def Template.repetitive : Template where
  id := ⟨0, 0⟩
  literal := ⟨0⟩
  segments := ["x"]
  blueprint :=
    { forest := [.element "p" none [("a", "1"), ("a", "2")] []]
      parts := [] }

/-- A copy need not be equal to its forest: it has only one of the two attributes. -/
theorem Instance.make_repetitive_differs :
    let outcome : Except (Nat × ResolutionError) (Instance Unit) × Stage :=
      (Instance.make [] Template.repetitive).run (.empty {})
    Blueprint.compile .repeating ["x"] = .ok Template.repetitive.blueprint ∧
      ¬ ∃ (inner : Instance Unit) (grove : Grove), outcome.1 = .ok inner ∧
        grove.roots = inner.roots ∧ grove.Copies Template.repetitive.blueprint.forest ∧
        grove.Bears outcome.2.document none := by
  intro outcome
  have roots : outcome.1.toOption.map Instance.roots = some [⟨0⟩] := by decide +kernel
  have cell : outcome.2.document.cell? ⟨0⟩ = some ⟨.element "p" none [("a", "2")], none, []⟩ := by
    decide +kernel
  refine ⟨by decide +kernel, ?_⟩
  rintro ⟨inner, grove, made, same, copies, bears⟩
  rw [made] at roots
  have own : inner.roots = [⟨0⟩] := Option.some.inj roots
  cases copies with
  | element inside after =>
    rw [own, Grove.roots_cons] at same
    obtain rfl := (List.cons.inj same).1
    rw [bears.1] at cell
    simp at cell

end LiveMarkup
