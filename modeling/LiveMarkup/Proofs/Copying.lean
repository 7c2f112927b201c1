import LiveMarkup.Proofs.Fitting
import LiveMarkup.Proofs.Surgery

/-! # Making instances

A template's forest is copied into new nodes, without a parent, and every part is bound to the node
that its path leads to in the copy.  Nothing can go wrong with the blueprint of a stencil: the new
instance fits its grove, and all of its outlets are vacant. -/

namespace LiveMarkup

open Document Markup

/-! ## Copies -/

/-- No element has two attributes of one name. -/
inductive Markup.Distinct : Forest → Prop where
  | nil : Distinct []
  | element {name : String} {space : Option String} {attributes : List (String × String)}
      {children rest : Forest} (once : (attributes.map Prod.fst).Nodup)
      (inside : Distinct children) (after : Distinct rest) :
      Distinct (.element name space attributes children :: rest)
  | text {data : String} {rest : Forest} (after : Distinct rest) : Distinct (.text data :: rest)
  | comment {data : String} {rest : Forest} (after : Distinct rest) :
      Distinct (.comment data :: rest)

theorem Markup.Distinct.head {tree : Node} {rest : Forest} (distinct : Distinct (tree :: rest)) :
    Distinct [tree] := by
  cases distinct with
  | element once inside _ => exact .element once inside .nil
  | text _ => exact .text .nil
  | comment _ => exact .comment .nil

theorem Markup.Distinct.tail {tree : Node} {rest : Forest} (distinct : Distinct (tree :: rest)) :
    Distinct rest := by
  cases distinct with
  | element _ _ after | text after | comment after => exact after

/-- A grove that looks like a forest and has nothing below its texts and comments. -/
inductive Grove.Copies : Forest → Grove → Prop where
  | nil : Copies [] .nil
  | element {name : String} {space : Option String} {attributes : List (String × String)}
      {children rest : Forest} {node : NodeId} {below behind : Grove}
      (inside : Copies children below) (after : Copies rest behind) :
      Copies (.element name space attributes children :: rest)
        (.cons node (.element name space attributes) below behind)
  | text {data : String} {rest : Forest} {node : NodeId} {behind : Grove}
      (after : Copies rest behind) :
      Copies (.text data :: rest) (.cons node (.text data) .nil behind)
  | comment {data : String} {rest : Forest} {node : NodeId} {behind : Grove}
      (after : Copies rest behind) :
      Copies (.comment data :: rest) (.cons node (.comment data) .nil behind)

theorem Grove.Copies.append {first second : Forest} {front back : Grove}
    (copies : Copies first front) (more : Copies second back) :
    Copies (first ++ second) (front ++ back) := by
  induction copies with
  | nil => exact more
  | element inside _ _ ih => exact .element inside ih
  | text _ ih => exact .text ih
  | comment _ ih => exact .comment ih

/-- A change that only creates the nodes of a grove, which has no parent. -/
structure Added (document : Document) (grove : Grove) (after : Document) : Prop where
  bears : grove.Bears after none
  once : grove.nodes.Nodup
  fresh : ∀ node ∈ grove.nodes, ¬ document.Has node
  moves : document.Moves (fun _ => False) after

namespace Added

variable {document after later : Document} {grove other : Grove} {place : Place}

theorem append (first : Added document grove after) (second : Added after other later) :
    Added document (grove ++ other) later where
  bears := Grove.bears_append.mpr ⟨first.bears.moves second.moves fun _ _ => id, second.bears⟩
  once := by
    rw [Grove.nodes_append, List.nodup_append']
    refine ⟨first.once, second.once, fun node here there => ?_⟩
    exact second.fresh node there (first.bears.has here)
  fresh node member := by
    rw [Grove.nodes_append, List.mem_append] at member
    obtain member | member := member
    · exact first.fresh node member
    · exact fun has => second.fresh node member (first.moves.has has)
  moves := first.moves.trans second.moves fun _ _ => id

theorem site (added : Added document grove after) (site : Site document place other) :
    Site after place other where
  cell := by rw [added.moves.kept _ site.has_parent id, site.cell]
  bears := site.bears.moves added.moves fun _ _ => id
  around node member := added.moves.has (site.around node member)
  once := site.once

theorem loose (added : Added document grove after) (site : Site document place other) :
    Loose after place grove where
  bears := added.bears
  once := added.once
  apart node member around := by
    refine added.fresh node member ?_
    obtain rfl | around := List.mem_cons.mp around
    · exact site.has_parent
    · exact site.around node around

end Added

/-! ## Copying -/

section

variable {document : Document} {node : NodeId} {tag : String} {space : Option String}

theorem performs_setAttribute_alone {attributes : List (String × String)}
    (site : Site document (.inside node (.element tag space attributes) none) .nil)
    (name value : String) :
    Performs (Stage.setAttribute node name value) document fun _ after =>
      Site after (.inside node (.element tag space (putAttribute name value attributes)) none) .nil ∧
        document.Moves (· = node) after := by
  have cell : document.cell? node = some ⟨.element tag space attributes, none, []⟩ := site.cell
  have found := data?_of_cell? cell
  unfold Stage.setAttribute
  refine .get fun stage same _ => ?_
  subst same
  have element : stage.document.isElement node = true := by simp [isElement, found]
  simp only [element, if_true]
  refine .edit ?_
  simp only [Document.setAttribute, found]
  refine ⟨⟨?_, trivial, by simp [Place.inside], by simp [Place.inside]⟩, ?_⟩
  · exact cell?_setData_self cell _
  · exact (moves_setData node _ stage.document).record _

theorem performs_setAttributes_alone (attributes : List (String × String))
    {before : List (String × String)}
    (site : Site document (.inside node (.element tag space before) none) .nil)
    (once : ((before ++ attributes).map Prod.fst).Nodup) :
    Performs (attributes.forM fun pair => Stage.setAttribute node pair.1 pair.2) document
      fun _ after => Site after (.inside node (.element tag space (before ++ attributes)) none) .nil ∧
        document.Moves (· = node) after := by
  induction attributes generalizing document before with
  | nil => exact .pure ⟨by simpa using site, .refl _ _⟩
  | cons pair attributes ih =>
    refine (performs_setAttribute_alone site pair.1 pair.2).bind fun _ between set => ?_
    have absent : pair.1 ∉ before.map Prod.fst := by
      intro member
      rw [List.map_append, List.nodup_append'] at once
      exact once.2.2 member (by simp)
    rw [putAttribute_of_notMem absent] at set
    refine (ih set.1 (by simpa using once)).mono fun _ after result => ?_
    exact ⟨by simpa using result.1, set.2.trans result.2 fun _ _ => id⟩

end

theorem performs_create (document : Document) (data : NodeData) :
    Performs (Stage.create data) document fun root after =>
      Added document (.leaf root data) after := by
  refine .create ?_
  constructor
  case bears => exact ⟨by rw [cell?_create, if_pos rfl]; rfl, trivial, trivial⟩
  case once => simp
  case fresh =>
    intro node member has
    rw [Grove.nodes_leaf, List.mem_singleton] at member
    subst member
    exact Nat.lt_irrefl _ has
  case moves => exact moves_create data document

/-- A node that was created, filled with children that were created later. -/
theorem Added.fill {document created between after : Document} {root : NodeId}
    {data changed : NodeData} {grove : Grove} (added : Added document (.leaf root data) created)
    (set : created.Moves (· = root) between)
    (filled : Regrown (.inside root changed none) between .nil after grove) :
    Added document (.cons root changed grove .nil) after := by
  have fresh : ¬ document.Has root := added.fresh root (by simp)
  constructor
  case bears =>
    exact ⟨by simpa [Place.inside] using filled.site.cell, filled.site.bears, trivial⟩
  case once => simpa using ⟨filled.site.parent_notMem, filled.site.nodup_nodes⟩
  case fresh =>
    intro node member has
    rw [Grove.nodes_cons, Grove.nodes_nil, List.append_nil] at member
    obtain rfl | member := List.mem_cons.mp member
    · exact fresh has
    · exact (filled.fresh node member).elim List.not_mem_nil fun new =>
        new (set.has (added.moves.has has))
  case moves =>
    refine (added.moves.trans set ?_).trans filled.moves ?_
    · rintro node has rfl
      exact fresh has
    · rintro node has (rfl | member)
      · exact fresh has
      · cases member

mutual

/-- Copying a node creates a tree that looks like it. -/
theorem performs_copy (document : Document) (tree : Node) (distinct : Markup.Distinct [tree]) :
    Performs (Stage.copy tree) document fun root after => ∃ data below,
      Grove.Copies [tree] (.cons root data below .nil) ∧
        Added document (.cons root data below .nil) after := by
  match tree with
  | .element name space attributes children =>
    cases distinct with
    | element once inside _ =>
      rw [Stage.copy]
      refine (performs_create document _).bind fun root created added => ?_
      have site : Site created (.inside root (.element name space []) none) .nil :=
        ⟨added.bears.1, trivial, by simp [Place.inside], by simp [Place.inside]⟩
      refine (performs_setAttributes_alone attributes site once).bind fun _ between set => ?_
      have fills := performs_copyInto between _ children inside set.1 rfl
      refine fills.bind fun _ after copied => ?_
      obtain ⟨grove, copies, regrown⟩ := copied
      exact .pure ⟨_, grove, .element copies .nil, added.fill set.2 regrown⟩
  | .text data =>
    rw [Stage.copy]
    exact (performs_create document _).mono fun root after added => ⟨_, .nil, .text .nil, added⟩
  | .comment data =>
    rw [Stage.copy]
    exact (performs_create document _).mono fun root after added => ⟨_, .nil, .comment .nil, added⟩

/-- Copying nodes into an empty element. -/
theorem performs_copyInto (document : Document) (place : Place) (forest : List Node)
    (distinct : Markup.Distinct forest) (site : Site document place .nil)
    (final : place.behind = []) :
    Performs (Stage.copyInto place.parent forest) document fun _ after => ∃ grove,
      Grove.Copies forest grove ∧ Regrown place document .nil after grove := by
  match forest with
  | [] => exact .pure ⟨.nil, .nil, .refl site⟩
  | child :: rest =>
    rw [Stage.copyInto]
    refine (performs_copy document child distinct.head).bind fun root created copied => ?_
    obtain ⟨data, below, copies, added⟩ := copied
    have inserts := performs_insertBefore (added.site site) (added.loose site)
    rw [final] at inserts
    refine inserts.bind fun _ between inserted => ?_
    have first : Regrown place document .nil between (.cons root data below .nil) :=
      .of_insert added.moves added.fresh inserted.1 (inserted.2.weaken fun node _ own =>
        own.imp_right fun same => by simp [same])
    refine (performs_copyInto between _ rest distinct.tail first.site.tail final).mono
      fun _ after copied => ?_
    obtain ⟨grove, more, regrown⟩ := copied
    exact ⟨_, copies.append more, first.trans (regrown.tail first.site)⟩

end

theorem performs_copyAll (document : Document) {forest : Forest}
    (distinct : Markup.Distinct forest) :
    Performs (forest.mapM Stage.copy) document fun roots after => ∃ grove,
      Grove.Copies forest grove ∧ grove.roots = roots ∧ Added document grove after := by
  induction forest generalizing document with
  | nil =>
    rw [List.mapM_nil]
    exact .pure ⟨.nil, .nil, rfl, ⟨trivial, List.nodup_nil, nofun, .refl _ _⟩⟩
  | cons tree forest ih =>
    rw [List.mapM_cons]
    refine (performs_copy document tree distinct.head).bind fun root between copied => ?_
    obtain ⟨data, below, copies, added⟩ := copied
    refine (ih between distinct.tail).bind fun roots after copied => ?_
    obtain ⟨grove, more, rfl, addedMore⟩ := copied
    exact .pure ⟨_, copies.append more, rfl, added.append addedMore⟩

/-! ## Binding -/

namespace Stage

/-- The siblings at the end of a path that starts among the given roots: what is below its last
node, or the roots themselves. -/
def siblings (stage : Stage) (roots : List NodeId) (path : Path) : Option (List NodeId) :=
  if path = [] then some roots else (stage.locate roots path).map stage.document.children

theorem locate_append {stage : Stage} (whole : stage.shortcomings = {}) (roots : List NodeId)
    (path : Path) (index : Nat) :
    stage.locate roots (path ++ [index]) =
      (stage.siblings roots path).bind fun siblings => siblings[index]? := by
  cases path with
  | nil => rfl
  | cons first rest =>
    have children : ∀ node, stage.child node index = (stage.document.children node)[index]? := by
      simp [Stage.child, whole]
    simp only [siblings, locate, List.cons_append, List.foldl_append, List.foldl_cons,
      List.foldl_nil, reduceCtorEq, if_false, children]
    cases List.foldl _ _ rest <;> rfl

/-- A node is found behind as many siblings as its path tells. -/
theorem locate_of_siblings {stage : Stage} (whole : stage.shortcomings = {})
    {roots : List NodeId} {path : Path} {before behind : List NodeId} {node : NodeId}
    (reached : stage.siblings roots path = some (before ++ node :: behind)) :
    stage.locate roots (path ++ [before.length]) = some node := by
  rw [locate_append whole, reached]
  simp

end Stage

variable {σ : Type}

/-- An instance is made by binding the parts of its template below its roots. -/
theorem Instance.bindAll_of_make {strategies : List (Strategy σ)} {template : Template}
    {stage : Stage} {inner : Instance σ}
    (made : ((Instance.make strategies template).run stage).1 = .ok inner) :
    inner.template = template ∧ ∃ copied, Instance.bindAll strategies copied inner.roots 0
      template.blueprint.parts = .ok inner.bindings := by
  obtain ⟨⟨roots, copied⟩, ran⟩ : ∃ outcome,
      (template.blueprint.forest.mapM Stage.copy).run stage = (pure outcome : Id _) := ⟨_, rfl⟩
  have known : (get : StageM Stage).run copied = (pure (copied, copied) : Id _) := rfl
  unfold make at made
  simp only [StateT.run_bind, ran, known, pure_bind] at made
  cases bound : bindAll strategies copied roots 0 template.blueprint.parts with
  | error error =>
    rw [bound] at made
    cases made
  | ok bindings =>
    rw [bound] at made
    cases made
    exact ⟨rfl, copied, bound⟩

/-- The first part is bound to its own node, and the others are bound to theirs. -/
theorem Instance.bindAll_cons_eq_ok {strategies : List (Strategy σ)} {stage : Stage}
    {roots : List NodeId} {index : Nat} {part : Part} {parts : List Part}
    {bindings : List (Binding σ)} :
    bindAll strategies stage roots index (part :: parts) = .ok bindings ↔
      ∃ node rest, stage.locate roots part.path = some node ∧
        bindAll strategies stage roots (index + 1) parts = .ok rest ∧
        bindings = bind strategies node part :: rest := by
  constructor
  · intro bound
    unfold bindAll at bound
    cases located : stage.locate roots part.path with
    | none => simp [located] at bound
    | some node =>
      cases later : bindAll strategies stage roots (index + 1) parts with
      | error error => simp [located, later, Except.map] at bound
      | ok rest => exact ⟨node, rest, rfl, rfl, by simpa [located, later, Except.map] using bound.symm⟩
  · rintro ⟨node, rest, located, later, rfl⟩
    simp [bindAll, located, later, Except.map]

theorem Instance.bindAll_append {stage : Stage} {roots : List NodeId} {index : Nat}
    {strategies : List (Strategy σ)} {parts more : List Part} {first second : List (Binding σ)}
    (here : Instance.bindAll strategies stage roots index parts = .ok first)
    (there : Instance.bindAll strategies stage roots (index + parts.length) more = .ok second) :
    Instance.bindAll strategies stage roots index (parts ++ more) = .ok (first ++ second) := by
  induction parts generalizing index first with
  | nil =>
    cases here
    simpa using there
  | cons part parts ih =>
    obtain ⟨node, rest, located, later, rfl⟩ := bindAll_cons_eq_ok.mp here
    rw [List.cons_append, bindAll_cons_eq_ok]
    have whole := ih later (by simpa [Nat.add_assoc, Nat.add_comm 1] using there)
    exact ⟨node, rest ++ second, located, whole, rfl⟩

/-- The dynamic attributes of an element are bound to it, and nothing has been set yet. -/
theorem Stencil.bindAll_boundParts {stage : Stage} {roots : List NodeId} {path : Path}
    {node : NodeId} (found : stage.locate roots path = some node)
    (bound : List (String × String)) (index : Nat) :
    ∃ own : List (AttributeBinding σ),
      Instance.bindAll [] stage roots index (boundParts path bound) =
        .ok (own.map Binding.attribute) ∧ Bound node bound own [] := by
  induction bound generalizing index with
  | nil => exact ⟨[], rfl, .nil⟩
  | cons pair bound ih =>
    obtain ⟨own, bindings, fits⟩ := ih (index + 1)
    rw [boundParts] at bindings
    refine ⟨⟨node, ⟨path, pair.1, pair.2⟩, .setAttribute, none⟩ :: own, ?_,
      .unset ⟨rfl, rfl, rfl⟩ rfl fits⟩
    rw [boundParts, List.map_cons, Instance.bindAll]
    simp only [Part.path, found]
    rw [bindings]
    rfl

/-- All parts of a stencil are bound to their nodes in a copy of its forest. -/
theorem Stencil.bindAll_partsAt {stage : Stage} (whole : stage.shortcomings = {})
    {roots : List NodeId} (stencil : Stencil) {grove : Grove} {parent : Option NodeId} {path : Path}
    {before : List NodeId} (copies : Grove.Copies stencil.forest grove)
    (bears : grove.Bears stage.document parent)
    (reached : stage.siblings roots path = some (before ++ grove.roots)) (index : Nat) :
    ∃ bindings : List (Binding σ),
      Instance.bindAll [] stage roots index (stencil.partsAt path before.length) = .ok bindings ∧
        stencil.Fits bindings grove grove.roots := by
  induction stencil generalizing grove parent path before index with
  | done =>
    cases copies
    exact ⟨[], rfl, .done⟩
  | element name space static bound below rest ihBelow ihRest =>
    cases copies with
    | @element _ _ _ _ _ node inside behind children after =>
      obtain ⟨cell, bearsInside, bearsBehind⟩ := bears
      -- The node is found by its path, and from there on its children and the siblings behind it
      -- are.
      have found := Stage.locate_of_siblings whole reached
      have kids : stage.siblings roots (path ++ [before.length]) = some ([] ++ inside.roots) := by
        simp [Stage.siblings, found, children_of_cell? cell]
      have next : stage.siblings roots path = some (before ++ [node] ++ behind.roots) := by
        simpa using reached
      obtain ⟨own, ownBindings, attributes⟩ := bindAll_boundParts found bound index
      obtain ⟨inner, innerBindings, fitsInner⟩ := ihBelow children bearsInside kids
        (index + (boundParts (path ++ [before.length]) bound).length)
      obtain ⟨later, laterBindings, fitsLater⟩ := ihRest after bearsBehind next
        (index + (boundParts (path ++ [before.length]) bound).length +
          (below.partsAt (path ++ [before.length]) 0).length)
      have fits : Stencil.Fits (.element name space static bound below rest) _
          (.cons node (.element name space (static ++ [])) inside behind) _ :=
        .element attributes fitsInner fitsLater
      rw [List.append_nil] at fits
      refine ⟨_, Instance.bindAll_append ownBindings (Instance.bindAll_append innerBindings ?_), fits⟩
      simpa using laterBindings
  | text data rest ih =>
    cases copies with
    | @text _ _ node behind after =>
      have next : stage.siblings roots path = some (before ++ [node] ++ behind.roots) := by
        simpa using reached
      obtain ⟨later, bindings, fits⟩ := ih after bears.2.2 next index
      rw [List.length_append, List.length_singleton] at bindings
      exact ⟨later, bindings, .text fits⟩
  | comment data rest ih =>
    cases copies with
    | @comment _ _ node behind after =>
      have next : stage.siblings roots path = some (before ++ [node] ++ behind.roots) := by
        simpa using reached
      obtain ⟨later, bindings, fits⟩ := ih after bears.2.2 next index
      rw [List.length_append, List.length_singleton] at bindings
      exact ⟨later, bindings, .comment fits⟩
  | gap rest ih =>
    cases copies with
    | @text _ _ node behind after =>
      have found := Stage.locate_of_siblings whole reached
      have next : stage.siblings roots path = some (before ++ [node] ++ behind.roots) := by
        simpa using reached
      obtain ⟨later, bindings, fits⟩ := ih after bears.2.2 next (index + 1)
      rw [List.length_append, List.length_singleton] at bindings
      refine ⟨.outlet (.vacant node) :: later, ?_, .gap .vacant fits⟩
      rw [Stencil.partsAt, Instance.bindAll]
      simp only [Part.path, found]
      rw [bindings]
      rfl

/-! ## Making -/

theorem Stencil.Distinct.forest {stencil : Stencil} (distinct : stencil.Distinct) :
    Markup.Distinct stencil.forest := by
  induction stencil with
  | done => exact .nil
  | element name space static bound below rest ihBelow ihRest =>
    exact .element (List.nodup_append'.mp distinct.1).1 (ihBelow distinct.2.1)
      (ihRest distinct.2.2)
  | text data rest ih => exact .text (ih distinct)
  | comment data rest ih => exact .comment (ih distinct)
  | gap rest ih => exact .text (ih distinct)

/-- Making an instance creates a grove that it fits. -/
theorem performs_make (document : Document) {template : Template} {stencil : Stencil}
    (layout : template.blueprint = stencil.blueprint) (distinct : stencil.Distinct) :
    Performs (Instance.make ([] : List (Strategy σ)) template) document fun result after =>
      ∃ inner grove, result = .ok inner ∧ inner.template = template ∧ inner.roots = grove.roots ∧
        inner.Fits grove ∧ Added document grove after := by
  unfold Instance.make
  rw [layout]
  refine (performs_copyAll document distinct.forest).bind fun roots after copied => ?_
  obtain ⟨grove, copies, rfl, added⟩ := copied
  refine .get fun stage same whole => ?_
  subst same
  have top : stage.siblings grove.roots [] = some ([] ++ grove.roots) := rfl
  have binds : ∃ bindings : List (Binding σ),
      Instance.bindAll [] stage grove.roots 0 stencil.blueprint.parts = .ok bindings ∧
        stencil.Fits bindings grove grove.roots :=
    stencil.bindAll_partsAt whole copies added.bears top 0
  obtain ⟨bindings, bound, fits⟩ := binds
  rw [bound]
  exact .noting (.pure ⟨_, grove, rfl, rfl, rfl, .mk layout distinct fits, added⟩)

end LiveMarkup
