import LiveMarkup.Proofs.Fitting

/-! # Beds and plots

An instance in a document, in one piece.  A *bed* is a copy of a stencil with the number of each of
its nodes, and a *plot* is what stands in a gap of it: an anchor, and what has been put behind the
anchor.  What the renderer remembers of a bed and what the document has of it are both read off from
it, as an instance and as a grove.

Where the output of a bed ends is found from what is remembered of it (`Bed.Sound.lastOutlet?`). -/

namespace LiveMarkup

open Markup

variable {σ : Type}

/-- A dynamic attribute of an element, with the primitive value that is remembered for it. -/
structure Fixture where
  part : AttributePart
  rawName : String
  last : Option Value

mutual

/-- Sibling nodes, copied from a stencil.  An element has the attributes that the template gives to
it, and those that it has by now. -/
inductive Bed where
  | done
  | element (node : NodeId) (name : String) (space : Option String)
      (static attributes : List (String × String)) (fixtures : List Fixture) (below rest : Bed)
  | text (node : NodeId) (data : String) (rest : Bed)
  | comment (node : NodeId) (data : String) (rest : Bed)
  | gap (plot : Plot) (rest : Bed)

/-- An anchor with what it shows.  The text of a vacant plot is empty. -/
inductive Plot where
  | text (anchor : NodeId) (data : String)
  | nested (anchor : NodeId) (template : Template) (bed : Bed)
  | items (anchor : NodeId) (plots : List Plot)

end

namespace Fixture

/-- The names of the attribute in a stencil. -/
def names (fixture : Fixture) : String × String :=
  (fixture.part.name, fixture.rawName)

/-- What an instance remembers of the attribute. -/
def binding (node : NodeId) (fixture : Fixture) : AttributeBinding σ :=
  { element := node, part := fixture.part, strategy := .setAttribute, last := fixture.last }

end Fixture

def Plot.anchor : Plot → NodeId
  | .text anchor _ | .nested anchor _ _ | .items anchor _ => anchor

namespace Bed

/-- Induction along the nodes of a bed, with the plots taken as they are. -/
@[induction_eliminator]
theorem induction {motive : Bed → Prop} (done : motive .done)
    (element : ∀ node name space static attributes fixtures below rest, motive below →
      motive rest → motive (.element node name space static attributes fixtures below rest))
    (text : ∀ node data rest, motive rest → motive (.text node data rest))
    (comment : ∀ node data rest, motive rest → motive (.comment node data rest))
    (gap : ∀ plot rest, motive rest → motive (.gap plot rest)) : ∀ bed, motive bed
  | .done => done
  | .element _ _ _ _ _ _ below rest =>
    element _ _ _ _ _ _ _ _ (induction done element text comment gap below)
      (induction done element text comment gap rest)
  | .text _ _ rest => text _ _ _ (induction done element text comment gap rest)
  | .comment _ _ rest => comment _ _ _ (induction done element text comment gap rest)
  | .gap _ rest => gap _ _ (induction done element text comment gap rest)

/-- The nodes among the siblings that are the bed's own. -/
def roots : Bed → List NodeId
  | done => []
  | element node _ _ _ _ _ _ rest | text node _ rest | comment node _ rest => node :: rest.roots
  | gap plot rest => plot.anchor :: rest.roots

/-- What the bed is a copy of. -/
def stencil : Bed → Stencil
  | done => .done
  | element _ name space static _ fixtures below rest =>
    .element name space static (fixtures.map Fixture.names) below.stencil rest.stencil
  | text _ data rest => .text data rest.stencil
  | comment _ data rest => .comment data rest.stencil
  | gap _ rest => .gap rest.stencil

end Bed

/-! ## What the document has -/

mutual

/-- The nodes of a bed with all that is in its plots. -/
def Bed.grove : Bed → Grove
  | .done => .nil
  | .element node name space _ attributes _ below rest =>
    .cons node (.element name space attributes) below.grove rest.grove
  | .text node data rest => .cons node (.text data) .nil rest.grove
  | .comment node data rest => .cons node (.comment data) .nil rest.grove
  | .gap plot rest => plot.grove ++ rest.grove

def Plot.grove : Plot → Grove
  | .text anchor data => .leaf anchor (.text data)
  | .nested anchor _ bed => .cons anchor (.text "") .nil bed.grove
  | .items anchor plots => .cons anchor (.text "") .nil (Plot.groves plots)

/-- Plots one behind the other. -/
def Plot.groves : List Plot → Grove
  | [] => .nil
  | plot :: plots => plot.grove ++ Plot.groves plots

end

/-! ## What the renderer remembers -/

mutual

def Bed.bindings : Bed → List (Binding σ)
  | .done => []
  | .element node _ _ _ _ fixtures below rest =>
    fixtures.map (fun fixture => Binding.attribute (fixture.binding node)) ++
      (below.bindings ++ rest.bindings)
  | .text _ _ rest | .comment _ _ rest => rest.bindings
  | .gap plot rest => .outlet plot.outlet :: rest.bindings

def Plot.outlet : Plot → Outlet σ
  | .text anchor data => if data = "" then .vacant anchor else .text anchor data
  | .nested anchor template bed => .nested anchor (.mk template bed.roots bed.bindings)
  | .items anchor plots => .items anchor (Plot.outlets plots)

def Plot.outlets : List Plot → List (Outlet σ)
  | [] => []
  | plot :: plots => plot.outlet :: Plot.outlets plots

end

/-- The instance of a template that has the bed as its copy. -/
def Bed.instance (bed : Bed) (template : Template) : Instance σ :=
  .mk template bed.roots bed.bindings

@[simp] theorem Plot.anchor_outlet (plot : Plot) : (plot.outlet : Outlet σ).anchor = plot.anchor := by
  cases plot with
  | text anchor data =>
    rw [Plot.outlet]
    split <;> rfl
  | nested anchor template bed => rfl
  | items anchor plots => rfl

theorem Plot.grove_eq_cons (plot : Plot) :
    ∃ data behind, plot.grove = .cons plot.anchor (.text data) .nil behind := by
  cases plot with
  | text anchor data => exact ⟨data, .nil, rfl⟩
  | nested anchor template bed => exact ⟨"", bed.grove, rfl⟩
  | items anchor plots => exact ⟨"", Plot.groves plots, rfl⟩

theorem Plot.anchor_mem_nodes (plot : Plot) : plot.anchor ∈ plot.grove.nodes := by
  obtain ⟨data, behind, grove⟩ := plot.grove_eq_cons
  rw [grove]
  exact List.mem_cons_self

theorem Bed.subset_roots (bed : Bed) : bed.roots ⊆ bed.grove.nodes := by
  induction bed with
  | done => exact List.Subset.refl _
  | element node name space static attributes fixtures below rest _ ih =>
    exact List.cons_subset_cons node (List.Subset.trans ih (List.subset_append_right _ _))
  | text node data rest ih | comment node data rest ih =>
    exact List.cons_subset_cons node (List.Subset.trans ih (List.subset_append_right _ _))
  | gap plot rest ih =>
    rw [roots, Bed.grove, Grove.nodes_append, List.cons_subset]
    exact ⟨List.mem_append_left _ plot.anchor_mem_nodes,
      List.Subset.trans ih (List.subset_append_right _ _)⟩

/-- The bindings of an element come before those of what is inside of it. -/
theorem Bed.bindings_element (node : NodeId) (name : String) (space : Option String)
    (static attributes : List (String × String)) (fixtures : List Fixture) (below rest : Bed) :
    (element node name space static attributes fixtures below rest).bindings =
      ((fixtures.map (Fixture.binding node) : List (AttributeBinding σ)).map Binding.attribute ++
        (below.bindings ++ rest.bindings)) := by
  rw [bindings, List.map_map]
  rfl

@[simp] theorem Bed.length_bindings (bed : Bed) :
    (bed.bindings : List (Binding σ)).length = bed.stencil.count := by
  induction bed with
  | done => rfl
  | element node name space static attributes fixtures below rest ihBelow ihRest =>
    simp [bindings, stencil, Stencil.count, ihBelow, ihRest]
  | text node data rest ih | comment node data rest ih => exact ih
  | gap plot rest ih => simp [bindings, stencil, Stencil.count, ih]

/-! ## Soundness -/

mutual

/-- Each template is that of its copy. -/
def Bed.Sound : Bed → Prop
  | .done => True
  | .element _ _ _ _ _ _ below rest => below.Sound ∧ rest.Sound
  | .text _ _ rest | .comment _ _ rest => rest.Sound
  | .gap plot rest => plot.Sound ∧ rest.Sound

def Plot.Sound : Plot → Prop
  | .text _ _ => True
  | .nested _ template bed => template.blueprint = bed.stencil.blueprint ∧ bed.Sound
  | .items _ plots => Plot.AllSound plots

def Plot.AllSound : List Plot → Prop
  | [] => True
  | plot :: plots => plot.Sound ∧ Plot.AllSound plots

end

/-! ## Last nodes -/

/-- An outlet among the roots ends with its own last node, unless there are more roots behind. -/
theorem Instance.lastOutlet?_gap (index : Nat) (outlet : Outlet σ) (bindings : List (Binding σ))
    (rest : Stencil) (roots : List NodeId) :
    (Instance.lastOutlet? (index + (outlet.anchor :: roots).length - 1) (.outlet outlet :: bindings)
        ((Stencil.gap rest).partsAt [] index)).or (outlet.anchor :: roots).getLast? =
      ((Instance.lastOutlet? (index + roots.length) bindings (rest.partsAt [] (index + 1))).or
        roots.getLast?).or (some outlet.lastNode) := by
  have length : index + (outlet.anchor :: roots).length - 1 = index + roots.length := rfl
  rw [Stencil.partsAt, Instance.lastOutlet?, length]
  cases final : Instance.lastOutlet? (index + roots.length) bindings
      (rest.partsAt [] (index + 1)) with
  | some node => simp
  | none =>
    obtain rfl | ⟨earlier, last, rfl⟩ := List.eq_nil_or_concat roots
    · simp [Part.path]
    · simp [Part.path, List.getLast?_cons]

mutual

/-- An outlet ends with the last root of its plot. -/
theorem Plot.Sound.lastNode : ∀ {plot : Plot}, plot.Sound →
    plot.grove.roots.getLast? = some (plot.outlet : Outlet σ).lastNode
  | .text anchor data, _ => by
    rw [Plot.outlet]
    split <;> rfl
  | .nested anchor template bed, ⟨layout, sound⟩ => by
    have last : (bed.instance template : Instance σ).lastNode? = bed.grove.roots.getLast? :=
      sound.lastNode? layout
    rw [Plot.outlet, Outlet.lastNode, ← Bed.instance, last, Plot.grove, Grove.roots_cons,
      List.getLast?_cons]
  | .items anchor plots, sound => by
    have sound : Plot.AllSound plots := sound
    exact sound.lastOf anchor

theorem Plot.AllSound.lastOf : ∀ {plots : List Plot}, Plot.AllSound plots → ∀ anchor : NodeId,
    (anchor :: (Plot.groves plots).roots).getLast? =
      some (Outlet.lastOf anchor (Plot.outlets plots : List (Outlet σ)))
  | [], _, anchor => rfl
  | plot :: plots, ⟨soundPlot, soundPlots⟩, anchor => by
    have first : plot.grove.roots.getLast? = some (plot.outlet : Outlet σ).lastNode :=
      soundPlot.lastNode
    rw [Plot.outlets, Outlet.lastOf, ← soundPlots.lastOf, Plot.groves, Grove.roots_append,
      List.getLast?_cons, List.getLast?_append, first, List.getLast?_cons]
    simp

theorem Bed.Sound.lastNode? : ∀ {bed : Bed}, bed.Sound → ∀ {template : Template},
    template.blueprint = bed.stencil.blueprint →
      (bed.instance template : Instance σ).lastNode? = bed.grove.roots.getLast?
  | bed, sound, template, layout => by
    have last := @Bed.Sound.lastOutlet? bed sound 0
    rw [Nat.zero_add] at last
    rw [Bed.instance, Instance.lastNode?, layout]
    exact last

theorem Bed.Sound.lastOutlet? : ∀ {bed : Bed}, bed.Sound → ∀ index : Nat,
    (Instance.lastOutlet? (index + bed.roots.length - 1) (bed.bindings : List (Binding σ))
      (bed.stencil.partsAt [] index)).or bed.roots.getLast? = bed.grove.roots.getLast?
  | .done, _, index => rfl
  | .element node _ _ _ _ fixtures below rest, ⟨_, sound⟩, index => by
    have later := @Bed.Sound.lastOutlet? rest sound (index + 1)
    rw [Nat.add_right_comm] at later
    rw [Bed.bindings_element, Bed.stencil, Stencil.partsAt,
      Stencil.lastOutlet?_element (by simp) below.length_bindings]
    exact getLast?_cons_or later node
  | .text node _ rest, sound, index => by
    have later := @Bed.Sound.lastOutlet? rest sound (index + 1)
    rw [Nat.add_right_comm] at later
    exact getLast?_cons_or later node
  | .comment node _ rest, sound, index => by
    have later := @Bed.Sound.lastOutlet? rest sound (index + 1)
    rw [Nat.add_right_comm] at later
    exact getLast?_cons_or later node
  | .gap plot rest, ⟨soundPlot, soundRest⟩, index => by
    have first : plot.grove.roots.getLast? = some (plot.outlet : Outlet σ).lastNode :=
      soundPlot.lastNode
    have later := @Bed.Sound.lastOutlet? rest soundRest (index + 1)
    rw [Nat.add_right_comm, Nat.add_sub_cancel] at later
    rw [Bed.grove, Grove.roots_append, List.getLast?_append, first, ← later, Bed.roots,
      ← @Plot.anchor_outlet σ plot]
    exact Instance.lastOutlet?_gap index _ _ _ _

end

end LiveMarkup
