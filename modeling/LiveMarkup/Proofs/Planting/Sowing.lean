import LiveMarkup.Proofs.Copying
import LiveMarkup.Proofs.Planting.Tilling

/-! # Making instances, node by node

A new instance is that of the bed which is sown from its template's stencil: its nodes have the next
numbers in preorder, and each node is put into its parent when all below it is there. -/

namespace LiveMarkup

open Document Markup

variable {σ : Type} {document between after : Document} {place : Place} {grove other : Grove}
  {next later : Nat} {deeds more : List Mutation}

/-- Attributes are set on an element one after the other. -/
theorem performs_putAll (static : List (String × String)) {document : Document} {node : NodeId}
    {tag : String} {space : Option String} {attributes : List (String × String)}
    (site : Site document (.inside node (.element tag space attributes) none) .nil) :
    Performs (static.forM fun pair => Stage.setAttribute node pair.1 pair.2) document
      fun _ after =>
        Site after (.inside node (.element tag space (putAll static attributes)) none) .nil ∧
          document.Moves (· = node) after ∧
          document.Logs document.size (static.map fun pair => .setAttribute node pair.1 pair.2)
            after := by
  induction static generalizing document attributes with
  | nil => exact .pure ⟨site, .refl _ _, .refl document⟩
  | cons pair static ih =>
    have cell : document.cell? node = some ⟨.element tag space attributes, none, []⟩ := site.cell
    refine ((performs_setAttribute_alone site pair.1 pair.2).and
      (logs_setAttribute (data?_of_cell? cell) pair.1 pair.2)).bind
        fun _ between ⟨⟨set, moved⟩, first⟩ => ?_
    refine (ih set).mono fun _ after ⟨more, movedMore, second⟩ => ?_
    have both := first.trans second
    rw [first.size] at both
    exact ⟨more, moved.trans movedMore fun _ _ => id, both⟩

/-! ## Copying -/

/-- A change that only creates the nodes of a grove, which has no parent, and that is recorded. -/
structure Raised (document : Document) (grove : Grove) (next : Nat) (deeds : List Mutation)
    (after : Document) : Prop where
  added : Added document grove after
  logs : document.Logs next deeds after

namespace Raised

theorem append (first : Raised document grove next deeds between)
    (second : Raised between other later more after) :
    Raised document (grove ++ other) later (deeds ++ more) after :=
  ⟨first.added.append second.added, first.logs.trans second.logs⟩

/-- A new tree is put at a place. -/
theorem performs_insert {node : NodeId} {data : NodeData} {below : Grove}
    (raised : Raised document (.cons node data below .nil) next deeds between)
    (site : Site document place .nil) (final : place.behind = []) :
    Performs (Stage.append place.parent node) between fun _ after =>
      Tilled place document .nil next (deeds ++ [.insert place.parent node]) after
        (.cons node data below .nil) := by
  have inserts := performs_insertBefore (raised.added.site site) (raised.added.loose site)
  rw [final] at inserts
  refine (inserts.and (logs_insertBefore between place.parent node none)).mono
    fun _ after ⟨⟨inserted, moved⟩, logs⟩ => ⟨?_, ?_⟩
  · refine .of_insert raised.added.moves raised.added.fresh inserted (moved.weaken fun other _ own => ?_)
    exact own.imp_right fun same => by simp [same]
  · have both := raised.logs.trans logs
    rwa [raised.logs.size] at both

end Raised

theorem raises_create (document : Document) (data : NodeData) :
    Performs (Stage.create data) document fun root after =>
      root = ⟨document.size⟩ ∧
        Raised document (.leaf ⟨document.size⟩ data) (document.size + 1) [] after := by
  have logs : Performs (Stage.create data) document fun root after =>
      root = ⟨document.size⟩ ∧ document.Logs (document.size + 1) [] after :=
    .create ⟨rfl, .create data⟩
  exact ((performs_create document data).and logs).mono fun root after ⟨added, same, logs⟩ =>
    ⟨same, same ▸ added, logs⟩

/-- A text or a comment is copied by creating a node. -/
theorem raises_copy_leaf {tree : Node} {data : NodeData} (leaf : Stage.copy tree = Stage.create data)
    (document : Document) :
    Performs (Stage.copy tree) document fun root after =>
      root = ⟨document.size⟩ ∧
        Raised document (.cons ⟨document.size⟩ data .nil .nil) (document.size + 1) [] after := by
  rw [leaf]
  exact raises_create document data

/-- Copying nodes into the empty node above a place comes to the sowing of a bed there. -/
def Sows (forest : Forest) (sow : NodeId → Tend Bed) : Prop :=
  ∀ (document : Document) (place : Place), Site document place .nil → place.behind = [] →
    Performs (Stage.copyInto place.parent forest) document fun _ after =>
      let harvest := sow place.parent document.size
      Tilled place document .nil harvest.next harvest.deeds after harvest.result.grove

/-- An element is copied if what is inside of it is. -/
theorem raises_copy_element {children : Forest} {below : NodeId → Tend Bed}
    (sows : Sows children below) (name : String) (space : Option String)
    (static : List (String × String)) (document : Document) :
    Performs (Stage.copy (.element name space static children)) document fun root after =>
      let root' : NodeId := ⟨document.size⟩
      let harvest := below root' (document.size + 1)
      root = root' ∧
        Raised document
          (.cons root' (.element name space (putAll static [])) harvest.result.grove .nil)
          harvest.next
          (static.map (fun pair => .setAttribute root' pair.1 pair.2) ++ harvest.deeds) after := by
  rw [Stage.copy]
  refine (raises_create document _).bind fun root created ⟨same, raised⟩ => ?_
  subst same
  have site : Site created (.inside ⟨document.size⟩ (.element name space []) none) .nil :=
    ⟨raised.added.bears.1, trivial, by simp [Place.inside], by simp [Place.inside]⟩
  refine (performs_putAll static site).bind fun _ between ⟨set, moved, logs⟩ => ?_
  refine (sows _ _ set rfl).bind fun _ after filled => .pure ⟨rfl, ?_⟩
  rw [logs.size, raised.logs.size] at filled
  have both := (raised.logs.trans logs).trans filled.logs
  rw [List.nil_append] at both
  exact ⟨raised.added.fill moved filled.regrown, both⟩

/-- One tree is copied, whatever it is, and then the others behind it. -/
theorem Sows.cons {tree : Node} {rest : Forest} {more : NodeId → Tend Bed} (sows : Sows rest more)
    {below : Grove} {next : Nat} {deeds : List Mutation} {data : NodeData}
    (copies : Performs (Stage.copy tree) document fun root after =>
      root = ⟨document.size⟩ ∧
        Raised document (.cons ⟨document.size⟩ data below .nil) next deeds after)
    (site : Site document place .nil) (final : place.behind = []) :
    Performs (Stage.copyInto place.parent (tree :: rest)) document fun _ after =>
      let harvest := more place.parent next
      Tilled place document .nil harvest.next
        (deeds ++ .insert place.parent ⟨document.size⟩ :: harvest.deeds) after
        (.cons ⟨document.size⟩ data below harvest.result.grove) := by
  rw [Stage.copyInto]
  refine copies.bind fun root created ⟨same, raised⟩ => ?_
  subst same
  refine (raised.performs_insert site final).bind fun _ between first => ?_
  refine (sows _ _ first.site.tail final).mono fun _ after second => ?_
  rw [first.size] at second
  have both := first.trans (second.tail first.site)
  rw [List.append_assoc] at both
  exact both

/-- Copying the forest of a stencil comes to its sowing. -/
theorem Stencil.sows (stencil : Stencil) (path : Path) (child : Nat) :
    Sows stencil.forest fun parent => stencil.sow (some parent) path child := by
  induction stencil generalizing path child with
  | done => exact fun _ _ site _ => .pure (.refl site)
  | element name space static bound below rest ihBelow ihRest =>
    intro document place site final
    have copies := raises_copy_element (ihBelow (path ++ [child]) 0) name space static document
    refine ((ihRest path (child + 1)).cons copies site final).mono fun _ after tilled => ?_
    simpa [Stencil.sow, Bed.grove] using tilled
  | text data rest ih =>
    intro document place site final
    refine ((ih path (child + 1)).cons (raises_copy_leaf rfl document) site final).mono
      fun _ after tilled => ?_
    simpa [Stencil.sow, Bed.grove] using tilled
  | comment data rest ih =>
    intro document place site final
    refine ((ih path (child + 1)).cons (raises_copy_leaf rfl document) site final).mono
      fun _ after tilled => ?_
    simpa [Stencil.sow, Bed.grove] using tilled
  | gap rest ih =>
    intro document place site final
    refine ((ih path (child + 1)).cons (raises_copy_leaf rfl document) site final).mono
      fun _ after tilled => ?_
    simpa [Stencil.sow, Bed.grove, Plot.grove, Grove.leaf] using tilled

/-- A new bed has nothing among its siblings but its own nodes. -/
theorem Stencil.roots_sow (stencil : Stencil) (inside : Option NodeId) (path : Path)
    (child next : Nat) :
    (stencil.sow inside path child next).result.grove.roots =
      (stencil.sow inside path child next).result.roots := by
  induction stencil generalizing path child inside next with
  | done => rfl
  | element name space static bound below rest ihBelow ihRest => simp [sow, Bed.grove, Bed.roots, ihRest]
  | text data rest ih | comment data rest ih => simp [sow, Bed.grove, Bed.roots, ih]
  | gap rest ih => simp [sow, Bed.grove, Bed.roots, Plot.grove, Plot.anchor, ih]

/-- Copying nodes without a parent comes to the sowing of a bed. -/
def Raises (forest : Forest) (sow : Tend Bed) : Prop :=
  ∀ document : Document, Performs (forest.mapM Stage.copy) document fun roots after =>
    let harvest := sow document.size
    roots = harvest.result.roots ∧
      Raised document harvest.result.grove harvest.next harvest.deeds after

/-- One tree is copied, whatever it is, and then the others. -/
theorem Raises.cons {tree : Node} {rest : Forest} {more : Tend Bed} (raises : Raises rest more)
    {below : Grove} {next : Nat} {deeds : List Mutation} {data : NodeData}
    (copies : Performs (Stage.copy tree) document fun root after =>
      root = ⟨document.size⟩ ∧
        Raised document (.cons ⟨document.size⟩ data below .nil) next deeds after) :
    Performs ((tree :: rest).mapM Stage.copy) document fun roots after =>
      let harvest := more next
      roots = ⟨document.size⟩ :: harvest.result.roots ∧
        Raised document (.cons ⟨document.size⟩ data below harvest.result.grove) harvest.next
          (deeds ++ harvest.deeds) after := by
  rw [List.mapM_cons]
  refine copies.bind fun root between ⟨same, first⟩ => ?_
  subst same
  refine (raises between).bind fun roots after ⟨same, second⟩ => .pure ?_
  subst same
  rw [first.logs.size] at second ⊢
  exact ⟨rfl, first.append second⟩

theorem Stencil.raises (stencil : Stencil) (path : Path) (child : Nat) :
    Raises stencil.forest (stencil.sow none path child) := by
  induction stencil generalizing path child with
  | done =>
    exact fun document => .pure ⟨rfl, ⟨trivial, List.nodup_nil, nofun, .refl _ _⟩, .refl document⟩
  | element name space static bound below rest ihBelow ihRest =>
    intro document
    have copies := raises_copy_element (below.sows (path ++ [child]) 0) name space static document
    refine ((ihRest path (child + 1)).cons copies).mono fun roots after raised => ?_
    simpa [Stencil.sow, Bed.grove, Bed.roots] using raised
  | text data rest ih | comment data rest ih =>
    intro document
    refine ((ih path (child + 1)).cons (raises_copy_leaf rfl document)).mono
      fun roots after raised => ?_
    simpa [Stencil.sow, Bed.grove, Bed.roots] using raised
  | gap rest ih =>
    intro document
    refine ((ih path (child + 1)).cons (raises_copy_leaf rfl document)).mono
      fun roots after raised => ?_
    simpa [Stencil.sow, Bed.grove, Bed.roots, Plot.grove, Plot.anchor, Grove.leaf] using raised

/-! ## Binding -/

theorem Stencil.bindAll_unset {stage : Stage} {roots : List NodeId} {path : Path} {node : NodeId}
    (found : stage.locate roots path = some node) (bound : List (String × String)) (index : Nat) :
    Instance.bindAll ([] : List (Strategy σ)) stage roots index (boundParts path bound) =
      .ok ((bound.map (Fixture.unset path)).map fun fixture => .attribute (fixture.binding node)) := by
  induction bound generalizing index with
  | nil => rfl
  | cons names bound ih =>
    have later := ih (index + 1)
    rw [boundParts] at later
    rw [boundParts, List.map_cons, Instance.bindAll]
    simp only [Part.path, found]
    rw [later]
    rfl

/-- The parts of a stencil are bound to their nodes in the bed that is sown from it. -/
theorem Stencil.bindAll_sow {stage : Stage} (whole : stage.shortcomings = {}) {roots : List NodeId}
    (stencil : Stencil) {inside parent : Option NodeId} {path : Path} {before : List NodeId}
    {next : Nat}
    (bears : (stencil.sow inside path before.length next).result.grove.Bears stage.document parent)
    (reached : stage.siblings roots path =
      some (before ++ (stencil.sow inside path before.length next).result.roots)) (index : Nat) :
    Instance.bindAll ([] : List (Strategy σ)) stage roots index
        (stencil.partsAt path before.length) =
      .ok (stencil.sow inside path before.length next).result.bindings := by
  induction stencil generalizing inside parent path before next index with
  | done => rfl
  | element name space static bound below rest ihBelow ihRest =>
    simp only [sow, Tend.bind_apply, Tend.create_apply, Tend.record_apply, Tend.pure_apply,
      Bed.grove, Bed.roots, Bed.bindings] at bears reached ⊢
    obtain ⟨cell, bearsBelow, bearsRest⟩ := bears
    have found : stage.locate roots (path ++ [before.length]) = some ⟨next⟩ :=
      Stage.locate_of_siblings whole reached
    have kids : stage.siblings roots (path ++ [before.length]) =
        some ([] ++ (below.sow (some ⟨next⟩) (path ++ [before.length]) 0
          (next + 1)).result.roots) := by
      simp [Stage.siblings, found, children_of_cell? cell, Stencil.roots_sow]
    -- From behind this node the siblings are counted on.
    have longer : before.length + 1 = (before ++ [(⟨next⟩ : NodeId)]).length := by simp
    rw [longer] at bearsRest reached ⊢
    refine Instance.bindAll_append (bindAll_unset found bound index)
      (Instance.bindAll_append (ihBelow bearsBelow kids _) ?_)
    rw [longer]
    refine ihRest bearsRest ?_ _
    rw [reached]
    simp
  | text data rest ih | comment data rest ih =>
    simp only [sow, Tend.bind_apply, Tend.create_apply, Tend.record_apply, Tend.pure_apply,
      Bed.grove, Bed.roots, Bed.bindings] at bears reached ⊢
    have longer : before.length + 1 = (before ++ [(⟨next⟩ : NodeId)]).length := by simp
    rw [longer] at bears reached ⊢
    rw [partsAt, longer]
    refine ih bears.2.2 ?_ index
    rw [reached]
    simp
  | gap rest ih =>
    simp only [sow, Tend.bind_apply, Tend.create_apply, Tend.record_apply, Tend.pure_apply,
      Bed.grove, Bed.roots, Bed.bindings, Plot.grove, Plot.anchor] at bears reached ⊢
    have found : stage.locate roots (path ++ [before.length]) = some ⟨next⟩ :=
      Stage.locate_of_siblings whole reached
    have longer : before.length + 1 = (before ++ [(⟨next⟩ : NodeId)]).length := by simp
    rw [longer] at bears reached ⊢
    have later := ih (Grove.bears_append.mp bears).2 (by rw [reached]; simp) (index + 1)
    rw [partsAt, Instance.bindAll]
    simp only [Part.path, found]
    rw [longer, later]
    rfl

/-! ## Making -/

/-- Making an instance comes to the sowing of a bed. -/
theorem raises_make (document : Document) {template : Template} {stencil : Stencil}
    (layout : template.blueprint = stencil.blueprint) :
    Performs (Instance.make ([] : List (Strategy σ)) template) document fun result after =>
      let harvest := stencil.sow none [] 0 document.size
      result = .ok (harvest.result.instance template) ∧
        Raised document harvest.result.grove harvest.next harvest.deeds after := by
  unfold Instance.make
  rw [layout]
  refine (stencil.raises [] 0 document).bind fun roots after ⟨same, raised⟩ => ?_
  subst same
  refine .get fun stage same whole => ?_
  subst same
  have binds : Instance.bindAll ([] : List (Strategy σ)) stage
      (stencil.sow none [] 0 document.size).result.roots 0 stencil.blueprint.parts =
        .ok (stencil.sow none [] 0 document.size).result.bindings :=
    @Stencil.bindAll_sow σ stage whole _ stencil none none [] [] document.size raised.added.bears rfl 0
  rw [binds]
  exact .noting (.pure ⟨rfl, raised⟩)

/-! ## Soundness -/

theorem Fixture.names_unset (path : Path) (bound : List (String × String)) :
    (bound.map (unset path)).map names = bound := by
  rw [List.map_map]
  exact List.map_id bound

theorem Stencil.stencil_sow (stencil : Stencil) (inside : Option NodeId) (path : Path)
    (child next : Nat) : (stencil.sow inside path child next).result.stencil = stencil := by
  induction stencil generalizing path child inside next with
  | done => rfl
  | element name space static bound below rest ihBelow ihRest =>
    simp only [sow, Tend.bind_apply, Tend.create_apply, Tend.record_apply, Tend.pure_apply,
      Bed.stencil, ihBelow, ihRest, Fixture.names_unset]
  | text data rest ih | comment data rest ih | gap rest ih => simp [sow, Bed.stencil, ih]

theorem Stencil.sound_sow (stencil : Stencil) (inside : Option NodeId) (path : Path)
    (child next : Nat) : (stencil.sow inside path child next).result.Sound := by
  induction stencil generalizing path child inside next with
  | done => trivial
  | element name space static bound below rest ihBelow ihRest =>
    exact ⟨ihBelow _ _ _ _, ihRest _ _ _ _⟩
  | text data rest ih | comment data rest ih => exact ih _ _ _ _
  | gap rest ih => exact ⟨trivial, ih _ _ _ _⟩

end LiveMarkup
