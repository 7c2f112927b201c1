import LiveMarkup.Proofs.Planting.Bed

/-! # Tending beds

What an update makes of a bed, without a document and without deferred values: which bed comes of it,
which nodes are created on the way, and which changes are recorded.  It depends on nothing but the
bed, the values, and the number of nodes that there are already.

A template's stencil is given by `layout`. -/

namespace LiveMarkup

open Document Markup

/-- What comes of some work: a result, the number of nodes that there are afterwards, and the changes
that have been recorded. -/
structure Harvest (α : Type) where
  result : α
  next : Nat
  deeds : List Mutation

/-- Work on beds, given the number of nodes that there are. -/
def Tend (α : Type) : Type :=
  Nat → Harvest α

namespace Tend

variable {α β : Type}

instance : Monad Tend where
  pure result := fun next => ⟨result, next, []⟩
  map change first := fun next =>
    { first next with result := change (first next).result }
  bind first second := fun next =>
    let harvest := first next
    let more := second harvest.result harvest.next
    ⟨more.result, more.next, harvest.deeds ++ more.deeds⟩

/-- Creates a node. -/
def create : Tend NodeId :=
  fun next => ⟨⟨next⟩, next + 1, []⟩

/-- Records changes. -/
def record (deeds : List Mutation) : Tend Unit :=
  fun next => ⟨(), next, deeds⟩

@[simp] theorem pure_apply (result : α) (next : Nat) :
    (pure result : Tend α) next = ⟨result, next, []⟩ :=
  rfl

@[simp] theorem map_apply (change : α → β) (first : Tend α) (next : Nat) :
    (change <$> first) next = ⟨change (first next).result, (first next).next, (first next).deeds⟩ :=
  rfl

@[simp] theorem bind_apply (first : Tend α) (second : α → Tend β) (next : Nat) :
    (first >>= second) next =
      ⟨(second (first next).result (first next).next).result,
        (second (first next).result (first next).next).next,
        (first next).deeds ++ (second (first next).result (first next).next).deeds⟩ :=
  rfl

@[simp] theorem create_apply (next : Nat) : create next = ⟨⟨next⟩, next + 1, []⟩ :=
  rfl

@[simp] theorem record_apply (deeds : List Mutation) (next : Nat) :
    record deeds next = ⟨(), next, deeds⟩ :=
  rfl

end Tend

/-! ## Taking away -/

/-- The change that gives an anchor another text. -/
def Plot.writing (anchor : NodeId) (shown data : String) : List Mutation :=
  if shown = data then [] else [.setText anchor data]

mutual

/-- The changes that leave just the anchor of a plot. -/
def Plot.clearing : Plot → List Mutation
  | .text anchor data => Plot.writing anchor data ""
  | .nested _ _ bed => bed.clearing ++ bed.roots.map .remove
  | .items _ plots => Plot.dropping plots

/-- The changes that clear the plots among the siblings of a bed. -/
def Bed.clearing : Bed → List Mutation
  | .done => []
  | .element _ _ _ _ _ _ _ rest | .text _ _ rest | .comment _ _ rest => rest.clearing
  | .gap plot rest => plot.clearing ++ rest.clearing

/-- The changes that leave nothing of plots. -/
def Plot.dropping : List Plot → List Mutation
  | [] => []
  | plot :: plots => plot.clearing ++ .remove plot.anchor :: Plot.dropping plots

end

/-! ## Sowing -/

namespace Fixture

/-- A dynamic attribute that has not been set yet, of the element at a path. -/
def unset (path : Path) (names : String × String) : Fixture where
  part := { path, name := names.1, rawName := names.2 }
  rawName := names.2
  last := none

/-- Whether the value that is remembered is the given one already. -/
def keeps (fixture : Fixture) (value : Value) : Bool :=
  fixture.last.any (·.samePrimitive value)

end Fixture

/-- The text that a value has in an attribute.  It is empty for a value that is refused. -/
def Value.shownText (value : Value) : String :=
  match value.attributeText with
  | .ok shown => shown
  | .error _ => ""

namespace Fixture

/-- An attribute with a new value. -/
def tended (fixture : Fixture) (value : Value) : Fixture :=
  if fixture.keeps value then fixture
  else { fixture with last := if value.isPrimitive then some value else none }

/-- The attributes of an element after one of them has been given a new value. -/
def dressed (fixture : Fixture) (value : Value) (attributes : List (String × String)) :
    List (String × String) :=
  if fixture.keeps value then attributes
  else putAttribute fixture.part.name value.shownText attributes

/-- The attributes of an element after new values have been given to some of them. -/
def dressAll : List Fixture → List Value → List (String × String) → List (String × String)
  | fixture :: fixtures, value :: values, attributes =>
    dressAll fixtures values (fixture.dressed value attributes)
  | _, _, attributes => attributes

/-- The change that gives an attribute a new value. -/
def deeds (node : NodeId) (fixture : Fixture) (value : Value) : List Mutation :=
  if fixture.keeps value then [] else [.setAttribute node fixture.part.name value.shownText]

/-- Gives attributes new values, as long as there are any. -/
def tendAll (node : NodeId) : List Fixture → List Value → Tend (List Fixture)
  | fixture :: fixtures, value :: values => do
    Tend.record (fixture.deeds node value)
    let rest ← tendAll node fixtures values
    pure (fixture.tended value :: rest)
  | fixtures, _ => pure fixtures

end Fixture

/-- The attributes of an element after the given ones have been set on it in order. -/
def putAll (static attributes : List (String × String)) : List (String × String) :=
  static.foldl (fun attributes pair => putAttribute pair.1 pair.2 attributes) attributes

/-- Makes a copy of a stencil, either inside of a node or without a parent. -/
def Stencil.sow (inside : Option NodeId) (path : Path) (child : Nat) : Stencil → Tend Bed
  | done => pure .done
  | element name space static bound below rest => do
    let node ← Tend.create
    Tend.record (static.map fun pair => .setAttribute node pair.1 pair.2)
    let below ← below.sow (some node) (path ++ [child]) 0
    Tend.record (inside.toList.map (.insert · node))
    let rest ← rest.sow inside path (child + 1)
    pure (.element node name space static (putAll static [])
      (bound.map (Fixture.unset (path ++ [child]))) below rest)
  | text data rest => do
    let node ← Tend.create
    Tend.record (inside.toList.map (.insert · node))
    let rest ← rest.sow inside path (child + 1)
    pure (.text node data rest)
  | comment data rest => do
    let node ← Tend.create
    Tend.record (inside.toList.map (.insert · node))
    let rest ← rest.sow inside path (child + 1)
    pure (.comment node data rest)
  | gap rest => do
    let node ← Tend.create
    Tend.record (inside.toList.map (.insert · node))
    let rest ← rest.sow inside path (child + 1)
    pure (.gap (.text node "") rest)

/-! ## Updating -/

/-- A way to give a plot new content; the node is the parent of its anchor. -/
abbrev PlotUpdate : Type :=
  NodeId → Plot → Value → Tend Plot

/-- Gives the parts of a bed below the given node new values, as long as there are any. -/
def Bed.tend (update : PlotUpdate) (parent : NodeId) : Bed → List Value → Tend Bed
  | .done, _ => pure .done
  | .element node name space static attributes fixtures below rest, values => do
    let fixtures' ← Fixture.tendAll node fixtures values
    let below' ← below.tend update node (values.drop fixtures.length)
    let rest' ← rest.tend update parent (values.drop (fixtures.length + below.stencil.count))
    pure (.element node name space static (Fixture.dressAll fixtures values attributes) fixtures'
      below' rest')
  | .text node data rest, values => .text node data <$> rest.tend update parent values
  | .comment node data rest, values => .comment node data <$> rest.tend update parent values
  | .gap plot rest, value :: values => do
    let plot' ← update parent plot value
    let rest' ← rest.tend update parent values
    pure (.gap plot' rest')
  | .gap plot rest, [] => pure (.gap plot rest)

namespace Plot

/-- Shows a text. -/
def showText (data : String) : Plot → Tend Plot
  | text anchor shown => do
    Tend.record (writing anchor shown data)
    pure (text anchor data)
  | plot => do
    Tend.record plot.clearing
    Tend.record (writing plot.anchor "" data)
    pure (text plot.anchor data)

section

variable (layout : Template → Stencil) (update : PlotUpdate) (parent : NodeId)

/-- Shows a template in a new bed. -/
def replace (plot : Plot) (template : Template) (values : List Value) : Tend Plot := do
  Tend.record plot.clearing
  let bed ← (layout template).sow none [] 0
  Tend.record (bed.roots.map (.insert parent ·))
  nested plot.anchor template <$> bed.tend update parent values

/-- Shows a template, in the bed that is there if it is of the same template. -/
def showTemplate (plot : Plot) (template : Template) (values : List Value) : Tend Plot :=
  match plot with
  | nested anchor old bed =>
    if old = template then nested anchor old <$> bed.tend update parent values
    else plot.replace layout update parent template values
  | plot => plot.replace layout update parent template values

/-- Gives the plots of a list its items. -/
def showItems : List Plot → List Value → Tend (List Plot)
  | plot :: plots, value :: values => do
    let first ← update parent plot value
    let rest ← showItems plots values
    pure (first :: rest)
  | [], value :: values => do
    let anchor ← Tend.create
    Tend.record [.insert parent anchor]
    let first ← update parent (text anchor "") value
    let rest ← showItems [] values
    pure (first :: rest)
  | plots, [] => do
    Tend.record (dropping plots)
    pure []

/-- Shows a list, in the plots that are there if a list was shown before. -/
def showList (plot : Plot) (values : List Value) : Tend Plot :=
  match plot with
  | items anchor plots => items anchor <$> showItems update parent plots values
  | plot => do
    Tend.record plot.clearing
    items plot.anchor <$> showItems update parent [] values

/-- Gives a plot a new value, with the given room left for templates and lists. -/
def tend : Nat → PlotUpdate
  | 0, _, plot, _ => plot.showText ""
  | room + 1, parent, plot, .template template values =>
    plot.showTemplate layout (tend room) parent template values
  | room + 1, parent, plot, .items values => plot.showList (tend room) parent values
  | _ + 1, _, plot, value => plot.showText (value.primitiveText.getD "")

end

end Plot

/-! ## Attributes that have been set -/

namespace Fixture

@[simp] theorem part_tended (fixture : Fixture) (value : Value) :
    (fixture.tended value).part = fixture.part := by
  unfold tended
  split <;> rfl

/-- An attribute that remembers a value has been set. -/
def Worn (attributes : List (String × String)) (fixture : Fixture) : Prop :=
  fixture.last.isSome → fixture.part.name ∈ attributes.map Prod.fst

theorem Worn.mono {fixture : Fixture} {attributes more : List (String × String)}
    (worn : fixture.Worn attributes)
    (subset : attributes.map Prod.fst ⊆ more.map Prod.fst) : fixture.Worn more :=
  fun remembers => subset (worn remembers)

theorem names_dressed (fixture : Fixture) (value : Value) (attributes : List (String × String)) :
    attributes.map Prod.fst ⊆ (fixture.dressed value attributes).map Prod.fst := by
  unfold dressed
  split
  · exact List.Subset.refl _
  · rw [names_putAttribute]
    split
    · exact List.Subset.refl _
    · exact List.subset_append_left _ _

theorem Worn.tended {fixture : Fixture} {attributes : List (String × String)}
    (worn : fixture.Worn attributes) (value : Value) :
    (fixture.tended value).Worn (fixture.dressed value attributes) := by
  unfold Fixture.tended dressed
  split
  · exact worn
  · intro _
    rw [names_putAttribute]
    split
    · assumption
    · exact List.mem_append_right _ List.mem_cons_self

theorem names_dressAll (fixtures : List Fixture) (values : List Value)
    (attributes : List (String × String)) :
    attributes.map Prod.fst ⊆ (dressAll fixtures values attributes).map Prod.fst := by
  induction fixtures generalizing values attributes with
  | nil => exact List.Subset.refl _
  | cons fixture fixtures ih =>
    cases values with
    | nil => exact List.Subset.refl _
    | cons value values =>
      exact List.Subset.trans (names_dressed fixture value attributes) (ih values _)

theorem worn_tendAll (node : NodeId) {fixtures : List Fixture}
    {attributes : List (String × String)} (worn : ∀ fixture ∈ fixtures, fixture.Worn attributes)
    (values : List Value) (next : Nat) :
    ∀ fixture ∈ (tendAll node fixtures values next).result,
      fixture.Worn (dressAll fixtures values attributes) := by
  induction fixtures generalizing values attributes with
  | nil => nofun
  | cons first fixtures ih =>
    cases values with
    | nil => exact worn
    | cons value values =>
      obtain ⟨here, behind⟩ := List.forall_mem_cons.mp worn
      have later := ih (fun fixture member =>
        (behind fixture member).mono (names_dressed first value attributes)) values
      exact List.forall_mem_cons.mpr ⟨(here.tended value).mono (names_dressAll _ _ _), later⟩

end Fixture

namespace Bed

/-- Every attribute of the bed itself that remembers a value has been set. -/
def Worn : Bed → Prop
  | done => True
  | element _ _ _ _ attributes fixtures below rest =>
    (∀ fixture ∈ fixtures, fixture.Worn attributes) ∧ below.Worn ∧ rest.Worn
  | text _ _ rest | comment _ _ rest | gap _ rest => rest.Worn

theorem worn_sow (stencil : Stencil) (inside : Option NodeId) (path : Path) (child next : Nat) :
    (stencil.sow inside path child next).result.Worn := by
  induction stencil generalizing inside path child next with
  | done => trivial
  | element name space static bound below rest ihBelow ihRest =>
    refine ⟨fun fixture member => ?_, ihBelow .., ihRest ..⟩
    obtain ⟨names, -, rfl⟩ := List.mem_map.mp member
    exact nofun
  | text data rest ih | comment data rest ih => exact ih ..
  | gap rest ih => exact ih ..

theorem Worn.tend {bed : Bed} (worn : bed.Worn) (update : PlotUpdate) (parent : NodeId)
    (values : List Value) (next : Nat) : (bed.tend update parent values next).result.Worn := by
  induction bed generalizing parent values next with
  | done => trivial
  | element node name space static attributes fixtures below rest ihBelow ihRest =>
    obtain ⟨own, inner, later⟩ := worn
    exact ⟨Fixture.worn_tendAll node own values next, ihBelow inner .., ihRest later ..⟩
  | text node data rest ih | comment node data rest ih => exact ih worn ..
  | gap plot rest ih =>
    cases values with
    | nil => exact worn
    | cons value values => exact ih worn ..

end Bed

end LiveMarkup
