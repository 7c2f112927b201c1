import LiveMarkup.Proofs.Planting.Tilling

/-! # Strategies that keep to their elements

A strategy that has been registered may do with a document what it likes.  A *modest* one changes
nothing of it but the attributes of the element that it is given.

An instance may have such strategies and still be compared with a bed: it is *backed* by the bed if
it is that of the bed after its attribute parts have forgotten their strategies and last values.
Neither the end of an output nor taking it away depends on what is forgotten
(`Outlet.lastNode_plain`, `Instance.detach_plain`). -/

namespace LiveMarkup

open Document Markup

variable {σ : Type}

/-! ## Modest strategies -/

namespace Strategy

/-- Whatever is committed, no node changes but the element, and it keeps its place and its name.  Nodes
may be created. -/
def Modest (strategy : Strategy σ) : Prop :=
  ∀ ⦃document : Document⦄ ⦃element : NodeId⦄ ⦃tag : String⦄ ⦃space : Option String⦄
    ⦃attributes : List (String × String)⦄ ⦃parent : Option NodeId⦄ ⦃children : List NodeId⦄,
    document.cell? element = some ⟨.element tag space attributes, parent, children⟩ →
    ∀ (part : AttributePart) (value : Value) (world : σ),
      Performs ((strategy.commit element part value).run world) document fun _ after =>
        document.Moves (· = element) after ∧
          ∃ changed, after.cell? element = some ⟨.element tag space changed, parent, children⟩

theorem modest_setAttribute : (setAttribute : Strategy σ).Modest := by
  intro document element tag space attributes parent children found part value world
  have isElement : document.isElement element = true := by
    simp [Document.isElement, data?_of_cell? found]
  simp only [setAttribute]
  cases value.attributeText with
  | error error => exact .pure ⟨.refl _ _, attributes, found⟩
  | ok text =>
    have sets : Performs (Stage.setAttribute element part.name text) document fun _ after =>
        document.Moves (· = element) after ∧
          ∃ changed, after.cell? element = some ⟨.element tag space changed, parent, children⟩ := by
      unfold Stage.setAttribute
      refine .get fun stage same _ => ?_
      subst same
      simp only [isElement, if_true]
      refine .edit ?_
      simp only [Document.setAttribute, data?_of_cell? found]
      refine ⟨(moves_setData _ _ _).record _, putAttribute part.name text attributes, ?_⟩
      rw [cell?_record, cell?_setData_self found]
    change Performs (do
      Stage.note (.attributeSet part.name text)
      Stage.setAttribute element part.name text
      pure ((.ok (), world) : Except ResolutionError Unit × σ)) document _
    exact .noting (sets.bind fun _ after set => .pure set)

/-- What is chosen among modest strategies is modest. -/
theorem Modest.choose {strategies : List (Strategy σ)}
    (modest : ∀ strategy ∈ strategies, strategy.Modest) (part : AttributePart) :
    (Strategy.choose strategies part).Modest := by
  unfold Strategy.choose
  cases claimed : strategies.find? (·.claims part) with
  | none => exact modest_setAttribute
  | some strategy => exact modest strategy (List.mem_of_find?_eq_some claimed)

end Strategy

/-! ## Instances without their strategies -/

/-- A binding that has forgotten its strategy and the value committed last. -/
def AttributeBinding.plain (binding : AttributeBinding σ) : AttributeBinding σ :=
  { binding with strategy := .setAttribute, last := none }

mutual

def Instance.plain : Instance σ → Instance σ
  | .mk template roots bindings => .mk template roots (Binding.plainAll bindings)

def Binding.plain : Binding σ → Binding σ
  | .attribute binding => .attribute binding.plain
  | .outlet outlet => .outlet (Outlet.plain outlet)

def Binding.plainAll : List (Binding σ) → List (Binding σ)
  | [] => []
  | binding :: bindings => Binding.plain binding :: Binding.plainAll bindings

def Outlet.plain : Outlet σ → Outlet σ
  | .vacant anchor => .vacant anchor
  | .text anchor data => .text anchor data
  | .nested anchor inner => .nested anchor (Instance.plain inner)
  | .items anchor outlets => .items anchor (Outlet.plainAll outlets)

def Outlet.plainAll : List (Outlet σ) → List (Outlet σ)
  | [] => []
  | outlet :: outlets => Outlet.plain outlet :: Outlet.plainAll outlets

end

mutual

/-- All strategies in an instance are modest. -/
def Instance.Modest : Instance σ → Prop
  | .mk _ _ bindings => Binding.AllModest bindings

def Binding.Modest : Binding σ → Prop
  | .attribute binding => binding.strategy.Modest
  | .outlet outlet => Outlet.Modest outlet

def Binding.AllModest : List (Binding σ) → Prop
  | [] => True
  | binding :: bindings => Binding.Modest binding ∧ Binding.AllModest bindings

def Outlet.Modest : Outlet σ → Prop
  | .vacant _ | .text _ _ => True
  | .nested _ inner => Instance.Modest inner
  | .items _ outlets => Outlet.AllModest outlets

def Outlet.AllModest : List (Outlet σ) → Prop
  | [] => True
  | outlet :: outlets => Outlet.Modest outlet ∧ Outlet.AllModest outlets

end

theorem Binding.plainAll_eq_map (bindings : List (Binding σ)) :
    Binding.plainAll bindings = bindings.map Binding.plain := by
  induction bindings with
  | nil => rfl
  | cons binding bindings ih => exact congrArg _ ih

@[simp] theorem Binding.length_plainAll (bindings : List (Binding σ)) :
    (Binding.plainAll bindings).length = bindings.length := by
  rw [plainAll_eq_map, List.length_map]

@[simp] theorem Binding.plainAll_append (bindings more : List (Binding σ)) :
    Binding.plainAll (bindings ++ more) = Binding.plainAll bindings ++ Binding.plainAll more := by
  simp only [plainAll_eq_map, List.map_append]

@[simp] theorem Binding.allModest_append {bindings more : List (Binding σ)} :
    Binding.AllModest (bindings ++ more) ↔
      Binding.AllModest bindings ∧ Binding.AllModest more := by
  induction bindings with
  | nil => simp [AllModest]
  | cons binding bindings ih => simp [AllModest, ih, and_assoc]

@[simp] theorem Outlet.anchor_plain (outlet : Outlet σ) : outlet.plain.anchor = outlet.anchor := by
  cases outlet <;> rfl

/-! ## What does not depend on strategies -/

mutual

theorem Instance.lastNode?_plain : ∀ inner : Instance σ, inner.plain.lastNode? = inner.lastNode?
  | .mk template roots bindings => by
    rw [Instance.plain, Instance.lastNode?, Instance.lastOutlet?_plainAll, Instance.lastNode?]

theorem Instance.lastOutlet?_plainAll : ∀ (root : Nat) (bindings : List (Binding σ))
    (parts : List Part), Instance.lastOutlet? root (Binding.plainAll bindings) parts =
      Instance.lastOutlet? root bindings parts
  | _, [], _ => rfl
  | _, .attribute _ :: _, [] => rfl
  | _, .outlet _ :: _, [] => rfl
  | root, .attribute _ :: bindings, _ :: parts =>
    Instance.lastOutlet?_plainAll root bindings parts
  | root, .outlet outlet :: bindings, part :: parts => by
    rw [Binding.plainAll, Binding.plain, Instance.lastOutlet?, outlet.lastNode_plain,
      Instance.lastOutlet?_plainAll root bindings parts, Instance.lastOutlet?]

theorem Outlet.lastNode_plain : ∀ outlet : Outlet σ, outlet.plain.lastNode = outlet.lastNode
  | .vacant _ | .text _ _ => rfl
  | .nested anchor inner => by
    rw [Outlet.plain, Outlet.lastNode, inner.lastNode?_plain, Outlet.lastNode]
  | .items anchor outlets => Outlet.lastOf_plainAll anchor outlets

theorem Outlet.lastOf_plainAll : ∀ (anchor : NodeId) (outlets : List (Outlet σ)),
    Outlet.lastOf anchor (Outlet.plainAll outlets) = Outlet.lastOf anchor outlets
  | _, [] => rfl
  | _, outlet :: rest => by
    rw [Outlet.plainAll, Outlet.lastOf, outlet.lastNode_plain, Outlet.lastOf_plainAll _ rest,
      Outlet.lastOf]

end

mutual

theorem Instance.detach_plain : ∀ inner : Instance σ, inner.plain.detach = inner.detach
  | .mk template roots bindings => by
    rw [Instance.plain, Instance.detach, Instance.clearRoots_plainAll, Instance.detach]

theorem Instance.clearRoots_plainAll : ∀ (bindings : List (Binding σ)) (parts : List Part),
    Instance.clearRoots (Binding.plainAll bindings) parts = Instance.clearRoots bindings parts
  | [], _ => rfl
  | .attribute _ :: _, [] => rfl
  | .outlet _ :: _, [] => rfl
  | .attribute _ :: bindings, _ :: parts => Instance.clearRoots_plainAll bindings parts
  | .outlet outlet :: bindings, part :: parts => by
    rw [Binding.plainAll, Binding.plain, Instance.clearRoots, outlet.clear_plain,
      Instance.clearRoots_plainAll bindings parts, Instance.clearRoots]

theorem Outlet.clear_plain : ∀ outlet : Outlet σ, outlet.plain.clear = outlet.clear
  | .vacant _ | .text _ _ => rfl
  | .nested _ inner => inner.detach_plain
  | .items _ outlets => Outlet.dropAll_plainAll outlets

theorem Outlet.dropAll_plainAll : ∀ outlets : List (Outlet σ),
    Outlet.dropAll (Outlet.plainAll outlets) = Outlet.dropAll outlets
  | [] => rfl
  | outlet :: rest => by
    rw [Outlet.plainAll, Outlet.dropAll, outlet.clear_plain, outlet.anchor_plain,
      Outlet.dropAll_plainAll rest, Outlet.dropAll]

end

/-! ## Beds that stand behind instances -/

/-- Bindings are those of a bed, but for modest strategies and the values committed last. -/
structure Bed.Backs (bed : Bed) (bindings : List (Binding σ)) : Prop where
  plain : Binding.plainAll bindings = bed.bindings
  modest : Binding.AllModest bindings

/-- An outlet is that of a plot, but for modest strategies and the values committed last. -/
structure Plot.Backs (plot : Plot) (outlet : Outlet σ) : Prop where
  plain : outlet.plain = plot.outlet
  modest : outlet.Modest

/-- Outlets are those of plots, but for modest strategies and the values committed last. -/
structure Plot.BackAll (plots : List Plot) (outlets : List (Outlet σ)) : Prop where
  plain : Outlet.plainAll outlets = Plot.outlets plots
  modest : Outlet.AllModest outlets

namespace Plot.Backs

variable {plot : Plot} {outlet : Outlet σ}

theorem anchor (backs : plot.Backs outlet) : outlet.anchor = plot.anchor := by
  rw [← outlet.anchor_plain, backs.plain, anchor_outlet]

theorem lastNode (backs : plot.Backs outlet) :
    outlet.lastNode = (plot.outlet : Outlet σ).lastNode := by
  rw [← outlet.lastNode_plain, backs.plain]

theorem clear (backs : plot.Backs outlet) : outlet.clear = (plot.outlet : Outlet σ).clear := by
  rw [← outlet.clear_plain, backs.plain]

theorem text (anchor : NodeId) (data : String) :
    (Plot.text anchor data).Backs ((Plot.text anchor data).outlet : Outlet σ) := by
  unfold Plot.outlet
  split
  · exact ⟨by simp [Outlet.plain, Plot.outlet, *], trivial⟩
  · exact ⟨by simp [Outlet.plain, Plot.outlet, *], trivial⟩

theorem nested {bed : Bed} {bindings : List (Binding σ)} (backs : bed.Backs bindings)
    (anchor : NodeId) (template : Template) :
    (Plot.nested anchor template bed).Backs (.nested anchor (.mk template bed.roots bindings)) :=
  ⟨by rw [Outlet.plain, Instance.plain, backs.plain]; rfl, backs.modest⟩

theorem items {plots : List Plot} {outlets : List (Outlet σ)}
    (backs : Plot.BackAll plots outlets) (anchor : NodeId) :
    (Plot.items anchor plots).Backs (.items anchor outlets) :=
  ⟨by rw [Outlet.plain, backs.plain]; rfl, backs.modest⟩

theorem of_text {anchor : NodeId} {data : String} (backs : (Plot.text anchor data).Backs outlet) :
    outlet = (Plot.text anchor data).outlet := by
  have plain := backs.plain
  rw [Plot.outlet] at plain ⊢
  cases outlet with
  | vacant _ | text _ _ => exact plain
  | nested _ _ | items _ _ => split at plain <;> cases plain

theorem of_nested {anchor : NodeId} {template : Template} {bed : Bed}
    (backs : (Plot.nested anchor template bed).Backs outlet) :
    ∃ bindings, outlet = .nested anchor (.mk template bed.roots bindings) ∧ bed.Backs bindings := by
  obtain ⟨plain, modest⟩ := backs
  cases outlet with
  | nested anchor inner =>
    obtain ⟨template, roots, bindings⟩ := inner
    simp only [Outlet.plain, Instance.plain, Plot.outlet, Outlet.nested.injEq,
      Instance.mk.injEq] at plain
    obtain ⟨rfl, rfl, rfl, plain⟩ := plain
    exact ⟨bindings, rfl, plain, modest⟩
  | vacant _ | text _ _ | items _ _ => cases plain

theorem of_items {anchor : NodeId} {plots : List Plot}
    (backs : (Plot.items anchor plots).Backs outlet) :
    ∃ outlets, outlet = .items anchor outlets ∧ Plot.BackAll plots outlets := by
  obtain ⟨plain, modest⟩ := backs
  cases outlet with
  | items anchor outlets =>
    simp only [Outlet.plain, Plot.outlet, Outlet.items.injEq] at plain
    obtain ⟨rfl, plain⟩ := plain
    exact ⟨outlets, rfl, plain, modest⟩
  | vacant _ | text _ _ | nested _ _ => cases plain

end Plot.Backs

theorem Plot.BackAll.dropAll {plots : List Plot} {outlets : List (Outlet σ)}
    (backs : Plot.BackAll plots outlets) :
    Outlet.dropAll outlets = Outlet.dropAll (Plot.outlets plots : List (Outlet σ)) := by
  rw [← Outlet.dropAll_plainAll, backs.plain]

theorem Plot.BackAll.of_nil {outlets : List (Outlet σ)} (backs : Plot.BackAll [] outlets) :
    outlets = [] := by
  cases outlets with
  | nil => rfl
  | cons outlet outlets => cases backs.plain

theorem Plot.BackAll.cons {plot : Plot} {plots : List Plot} {outlet : Outlet σ}
    {outlets : List (Outlet σ)} (first : plot.Backs outlet) (rest : Plot.BackAll plots outlets) :
    Plot.BackAll (plot :: plots) (outlet :: outlets) :=
  ⟨List.cons_eq_cons.mpr ⟨first.plain, rest.plain⟩, first.modest, rest.modest⟩

/-- The first of several outlets. -/
theorem Plot.BackAll.of_cons {plot : Plot} {plots : List Plot} {outlets : List (Outlet σ)}
    (backs : Plot.BackAll (plot :: plots) outlets) :
    ∃ outlet rest, outlets = outlet :: rest ∧ plot.Backs outlet ∧ Plot.BackAll plots rest := by
  obtain ⟨plain, modest⟩ := backs
  cases outlets with
  | nil => cases plain
  | cons outlet rest =>
    obtain ⟨first, later⟩ := List.cons_eq_cons.mp plain
    exact ⟨outlet, rest, rfl, ⟨first, modest.1⟩, later, modest.2⟩

namespace Bed.Backs

variable {bindings own inner later : List (Binding σ)} {below rest : Bed} {node : NodeId}
  {name : String} {space : Option String} {static attributes : List (String × String)}
  {fixtures : List Fixture} {plot : Plot} {outlet : Outlet σ}

theorem of_done (backs : Bed.done.Backs bindings) : bindings = [] := by
  cases bindings with
  | nil => rfl
  | cons binding bindings => cases backs.plain

theorem element
    (mine : Binding.plainAll own = fixtures.map (fun fixture => .attribute (fixture.binding node)))
    (modest : Binding.AllModest own) (inside : below.Backs inner) (behind : rest.Backs later) :
    (Bed.element node name space static attributes fixtures below rest).Backs
      (own ++ (inner ++ later)) where
  plain := by
    simp only [Binding.plainAll_append, mine, inside.plain, behind.plain]
    rfl
  modest := by simp [modest, inside.modest, behind.modest]

theorem of_element
    (backs : (Bed.element node name space static attributes fixtures below rest).Backs bindings) :
    ∃ own inner later, bindings = own ++ (inner ++ later) ∧
      Binding.plainAll own = fixtures.map (fun fixture => .attribute (fixture.binding node)) ∧
      Binding.AllModest own ∧ below.Backs inner ∧ rest.Backs later := by
  obtain ⟨plain, modest⟩ := backs
  rw [Bed.bindings, Binding.plainAll_eq_map, List.map_eq_append_iff] at plain
  obtain ⟨own, others, rfl, mine, plain⟩ := plain
  rw [List.map_eq_append_iff] at plain
  obtain ⟨inner, later, rfl, inside, behind⟩ := plain
  simp only [Binding.allModest_append] at modest
  rw [← Binding.plainAll_eq_map] at mine inside behind
  exact ⟨own, inner, later, rfl, mine, modest.1, ⟨inside, modest.2.1⟩, behind, modest.2.2⟩

theorem gap (here : plot.Backs outlet) (behind : rest.Backs later) :
    (Bed.gap plot rest).Backs (.outlet outlet :: later) :=
  ⟨List.cons_eq_cons.mpr ⟨congrArg Binding.outlet here.plain, behind.plain⟩, here.modest,
    behind.modest⟩

theorem of_gap (backs : (Bed.gap plot rest).Backs bindings) :
    ∃ outlet later, bindings = .outlet outlet :: later ∧ plot.Backs outlet ∧ rest.Backs later := by
  obtain ⟨plain, modest⟩ := backs
  obtain _ | ⟨binding, later⟩ := bindings
  · cases plain
  · obtain ⟨first, behind⟩ := List.cons_eq_cons.mp plain
    obtain own | outlet := binding
    · cases first
    · exact ⟨outlet, later, rfl, ⟨Binding.outlet.inj first, modest.1⟩, behind, modest.2⟩

end Bed.Backs

/-- An instance is that of a sound bed with the given grove, but for modest strategies and the values
committed last. -/
def Instance.Backed (inner : Instance σ) (grove : Grove) : Prop :=
  ∃ bed : Bed, inner.template.blueprint = bed.stencil.blueprint ∧ inner.roots = bed.roots ∧
    bed.Backs inner.bindings ∧ bed.grove = grove ∧ bed.Sound

theorem Bed.Backs.detach {bed : Bed} {inner : Instance σ} (roots : inner.roots = bed.roots)
    (backs : bed.Backs inner.bindings) :
    inner.detach = (bed.instance inner.template : Instance σ).detach := by
  obtain ⟨template, _, bindings⟩ := inner
  obtain rfl : _ = bed.roots := roots
  have plain : Binding.plainAll bindings = bed.bindings := backs.plain
  rw [← Instance.detach_plain, Instance.plain, plain]
  rfl

end LiveMarkup
