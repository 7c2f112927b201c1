import LiveMarkup.Proofs.Grove
import LiveMarkup.Proofs.Stencil
import LiveMarkup.Render.Instance

/-! # Instances fit their groves

What a renderer remembers about a document is right: an instance *fits* a grove if the grove is its
template's forest with the output of the outlets behind their anchors, and each binding refers to the
node of its part.  The last nodes that instances and outlets give are those of their groves. -/

namespace LiveMarkup

open Markup

variable {σ : Type}

/-! ## Attributes -/

/-- A binding sets the attribute of the given name of an element. -/
structure AttributeBinding.Suits (binding : AttributeBinding σ) (element : NodeId) (name : String) :
    Prop where
  element : binding.element = element
  name : binding.part.name = name
  strategy : binding.strategy = Strategy.setAttribute

/-- A binding shows a text as the attribute of the given name of an element.  If it remembers a
value, the text is that of the value. -/
structure AttributeBinding.Shows (binding : AttributeBinding σ) (element : NodeId)
    (name text : String) : Prop where
  suits : binding.Suits element name
  known : ∀ value, binding.last = some value → value.attributeText = .ok text

/-- The bindings of the dynamic attributes of an element, of which the first ones may be shown and
the others not be set yet. -/
inductive Bound (element : NodeId) :
    List (String × String) → List (AttributeBinding σ) → List (String × String) → Prop where
  | nil : Bound element [] [] []
  | unset {name rawName : String} {bound : List (String × String)} {binding : AttributeBinding σ}
      {bindings : List (AttributeBinding σ)} (suits : binding.Suits element name)
      (nothing : binding.last = none) (rest : Bound element bound bindings []) :
      Bound element ((name, rawName) :: bound) (binding :: bindings) []
  | shown {name rawName text : String} {bound shown : List (String × String)}
      {binding : AttributeBinding σ} {bindings : List (AttributeBinding σ)}
      (shows : binding.Shows element name text)
      (rest : Bound element bound bindings shown) :
      Bound element ((name, rawName) :: bound) (binding :: bindings) ((name, text) :: shown)

theorem Bound.length {element : NodeId} {bound shown : List (String × String)}
    {bindings : List (AttributeBinding σ)} (fits : Bound element bound bindings shown) :
    bindings.length = bound.length := by
  induction fits with
  | nil => rfl
  | unset _ _ _ ih | shown _ _ ih => simp [ih]

/-- The first of the bindings of an element, and what is shown of it. -/
theorem Bound.of_cons {element : NodeId} {name rawName : String}
    {bound shown : List (String × String)} {own : List (AttributeBinding σ)}
    (fits : Bound element ((name, rawName) :: bound) own shown) :
    ∃ binding bindings, own = binding :: bindings ∧ binding.Suits element name ∧
      (∀ pair ∈ shown.head?, pair.1 = name) ∧
      (∀ last, binding.last = some last →
        ∃ pair, shown.head? = some pair ∧ last.attributeText = .ok pair.2) ∧
      Bound element bound bindings shown.tail := by
  cases fits with
  | unset suits nothing rest =>
    refine ⟨_, _, rfl, suits, nofun, fun last same => ?_, rest⟩
    rw [nothing] at same
    cases same
  | shown shows rest =>
    refine ⟨_, _, rfl, shows.suits, ?_, fun last same => ⟨_, rfl, shows.known last same⟩, rest⟩
    rintro pair ⟨⟩
    rfl

/-! ## Instances -/

/-- No element has two attributes of one name, be they static or dynamic. -/
def Stencil.Distinct : Stencil → Prop
  | done => True
  | element _ _ static bound below rest =>
    (static.map Prod.fst ++ bound.map Prod.fst).Nodup ∧ below.Distinct ∧ rest.Distinct
  | text _ rest | comment _ rest | gap rest => rest.Distinct

mutual

/-- The bindings of the parts of a stencil fit a grove.  The list has the nodes among the roots of
the grove that are the stencil's own. -/
inductive Stencil.Fits : Stencil → List (Binding σ) → Grove → List NodeId → Prop where
  | done : Stencil.Fits .done [] .nil []
  | element {name : String} {space : Option String} {static bound shown : List (String × String)}
      {below rest : Stencil} {node : NodeId} {own : List (AttributeBinding σ)}
      {inner later : List (Binding σ)} {inside behind : Grove} {kids roots : List NodeId}
      (attributes : Bound node bound own shown) (children : Stencil.Fits below inner inside kids)
      (after : Stencil.Fits rest later behind roots) :
      Stencil.Fits (.element name space static bound below rest)
        (own.map Binding.attribute ++ (inner ++ later))
        (.cons node (.element name space (static ++ shown)) inside behind) (node :: roots)
  | text {data : String} {rest : Stencil} {node : NodeId} {later : List (Binding σ)}
      {behind : Grove} {roots : List NodeId} (after : Stencil.Fits rest later behind roots) :
      Stencil.Fits (.text data rest) later (.cons node (.text data) .nil behind) (node :: roots)
  | comment {data : String} {rest : Stencil} {node : NodeId} {later : List (Binding σ)}
      {behind : Grove} {roots : List NodeId} (after : Stencil.Fits rest later behind roots) :
      Stencil.Fits (.comment data rest) later (.cons node (.comment data) .nil behind)
        (node :: roots)
  | gap {rest : Stencil} {outlet : Outlet σ} {later : List (Binding σ)} {segment behind : Grove}
      {roots : List NodeId} (content : Outlet.Fits outlet segment)
      (after : Stencil.Fits rest later behind roots) :
      Stencil.Fits (.gap rest) (.outlet outlet :: later) (segment ++ behind)
        (outlet.anchor :: roots)

/-- An outlet fits its anchor and what comes behind it. -/
inductive Outlet.Fits : Outlet σ → Grove → Prop where
  | vacant {anchor : NodeId} : Outlet.Fits (.vacant anchor) (.leaf anchor (.text ""))
  | text {anchor : NodeId} {data : String} (filled : data ≠ "") :
      Outlet.Fits (.text anchor data) (.leaf anchor (.text data))
  | nested {anchor : NodeId} {inner : Instance σ} {grove : Grove}
      (content : Instance.Fits inner grove) :
      Outlet.Fits (.nested anchor inner) (.cons anchor (.text "") .nil grove)
  | items {anchor : NodeId} {outlets : List (Outlet σ)} {grove : Grove}
      (content : Outlet.AllFit outlets grove) :
      Outlet.Fits (.items anchor outlets) (.cons anchor (.text "") .nil grove)

/-- Outlets fit groves that come one behind the other. -/
inductive Outlet.AllFit : List (Outlet σ) → Grove → Prop where
  | nil : Outlet.AllFit [] .nil
  | cons {outlet : Outlet σ} {outlets : List (Outlet σ)} {first rest : Grove}
      (here : Outlet.Fits outlet first) (there : Outlet.AllFit outlets rest) :
      Outlet.AllFit (outlet :: outlets) (first ++ rest)

/-- An instance fits the grove of its roots and what comes behind them. -/
inductive Instance.Fits : Instance σ → Grove → Prop where
  | mk {template : Template} {stencil : Stencil} {roots : List NodeId}
      {bindings : List (Binding σ)} {grove : Grove}
      (layout : template.blueprint = stencil.blueprint) (distinct : stencil.Distinct)
      (content : Stencil.Fits stencil bindings grove roots) :
      Instance.Fits (.mk template roots bindings) grove

end

theorem Stencil.Fits.length {stencil : Stencil} {bindings : List (Binding σ)} {grove : Grove}
    {roots : List NodeId} (fits : stencil.Fits bindings grove roots) :
    bindings.length = stencil.count := by
  induction stencil generalizing bindings grove roots with
  | done =>
    cases fits
    rfl
  | element name space static bound below rest ihBelow ihRest =>
    cases fits with
    | element attributes children after =>
      simp [Stencil.count, attributes.length, ihBelow children, ihRest after]
  | text data rest ih =>
    cases fits with
    | text after => exact ih after
  | comment data rest ih =>
    cases fits with
    | comment after => exact ih after
  | gap rest ih =>
    cases fits with
    | gap content after => simp [Stencil.count, ih after]

/-! ## Last nodes -/

theorem Instance.lastOutlet?_append {root : Nat} {first second : List (Binding σ)}
    {parts more : List Part} (lengths : first.length = parts.length) :
    Instance.lastOutlet? root (first ++ second) (parts ++ more) =
      (Instance.lastOutlet? root second more).or (Instance.lastOutlet? root first parts) := by
  induction first generalizing parts with
  | nil =>
    cases parts with
    | nil => simp [Instance.lastOutlet?]
    | cons _ _ => cases lengths
  | cons binding first ih =>
    cases parts with
    | nil => cases lengths
    | cons part parts =>
      have later := ih (Nat.succ.inj lengths)
      match binding with
      | .attribute _ => simpa [Instance.lastOutlet?] using later
      | .outlet _ => simp [Instance.lastOutlet?, later, Option.or_assoc]

/-- Outlets whose anchors are elsewhere do not matter. -/
theorem Instance.lastOutlet?_eq_none {root : Nat} {bindings : List (Binding σ)} {parts : List Part}
    (elsewhere : ∀ part ∈ parts, part.path ≠ [root]) :
    Instance.lastOutlet? root bindings parts = none := by
  induction bindings generalizing parts with
  | nil => simp [Instance.lastOutlet?]
  | cons binding bindings ih =>
    cases parts with
    | nil =>
      match binding with
      | .attribute _ => rfl
      | .outlet _ => rfl
    | cons part parts =>
      have later := ih fun part member => elsewhere part (List.mem_cons_of_mem _ member)
      match binding with
      | .attribute _ => simpa [Instance.lastOutlet?] using later
      | .outlet _ => simp [Instance.lastOutlet?, later, elsewhere part List.mem_cons_self]

/-- One more node in front of siblings and in front of the roots of a grove. -/
theorem getLast?_cons_or {last : Option NodeId} {roots all : List NodeId}
    (same : last.or roots.getLast? = all.getLast?) (node : NodeId) :
    last.or (node :: roots).getLast? = (node :: all).getLast? := by
  rw [List.getLast?_cons, List.getLast?_cons, ← same]
  cases last <;> rfl

/-- Attributes do not end anything. -/
theorem Instance.lastOutlet?_map_attribute {root : Nat} (own : List (AttributeBinding σ))
    (parts : List Part) :
    Instance.lastOutlet? root (own.map Binding.attribute) parts = none := by
  induction own generalizing parts with
  | nil => simp [Instance.lastOutlet?]
  | cons binding own ih =>
    cases parts with
    | nil => rfl
    | cons part parts => exact ih parts

/-- Nothing in an element or before it comes after the siblings behind it. -/
theorem Stencil.lastOutlet?_element {root index : Nat} {bound : List (String × String)}
    {below rest : Stencil} {own : List (AttributeBinding σ)} {inner later : List (Binding σ)}
    (lengths : own.length = bound.length) (lengthsBelow : inner.length = below.count) :
    Instance.lastOutlet? root (own.map Binding.attribute ++ (inner ++ later))
        (boundParts ([] ++ [index]) bound ++
          (below.partsAt ([] ++ [index]) 0 ++ rest.partsAt [] (index + 1))) =
      Instance.lastOutlet? root later (rest.partsAt [] (index + 1)) := by
  have deep : Instance.lastOutlet? root inner (below.partsAt ([] ++ [index]) 0) = none := by
    refine Instance.lastOutlet?_eq_none fun part member same => ?_
    obtain ⟨child, path, same', -⟩ := below_of_mem_partsAt member
    rw [same] at same'
    simp at same'
  rw [Instance.lastOutlet?_append (by simp [lengths]),
    Instance.lastOutlet?_append (by simp [lengthsBelow]), deep,
    Instance.lastOutlet?_map_attribute, Option.or_none, Option.or_none]

mutual

/-- An outlet ends with the last root of its grove. -/
theorem Outlet.Fits.lastNode {outlet : Outlet σ} {grove : Grove} :
    outlet.Fits grove → grove.roots.getLast? = some outlet.lastNode
  | .vacant => rfl
  | .text _ => rfl
  | .nested content => by
    have last := content.lastNode?
    simp [Outlet.lastNode, last, List.getLast?_cons]
  | .items content => by
    simpa [Outlet.lastNode] using content.lastOf _

theorem Outlet.AllFit.lastOf {outlets : List (Outlet σ)} {grove : Grove} :
    Outlet.AllFit outlets grove → ∀ anchor : NodeId,
      (anchor :: grove.roots).getLast? = some (Outlet.lastOf anchor outlets)
  | .nil, anchor => rfl
  | .cons here there, anchor => by
    have first := here.lastNode
    have rest := there.lastOf
    rw [Outlet.lastOf, ← rest, Grove.roots_append, List.getLast?_cons, List.getLast?_append, first,
      List.getLast?_cons]
    simp

theorem Instance.Fits.lastNode? {inner : Instance σ} {grove : Grove} :
    inner.Fits grove → inner.lastNode? = grove.roots.getLast?
  | .mk layout distinct content => by
    have last := content.lastOutlet? 0
    rw [Nat.zero_add] at last
    rw [Instance.lastNode?, layout]
    exact last

theorem Stencil.Fits.lastOutlet? {stencil : Stencil} {bindings : List (Binding σ)} {grove : Grove}
    {roots : List NodeId} : stencil.Fits bindings grove roots → ∀ index : Nat,
      (Instance.lastOutlet? (index + roots.length - 1) bindings (stencil.partsAt [] index)).or
        roots.getLast? = grove.roots.getLast?
  | .done, index => rfl
  | .element attributes children after, index => by
    have later := after.lastOutlet? (index + 1)
    rw [Nat.add_right_comm] at later
    rw [Stencil.partsAt, Stencil.lastOutlet?_element attributes.length children.length]
    exact getLast?_cons_or later _
  | .text after, index => by
    have later := after.lastOutlet? (index + 1)
    rw [Nat.add_right_comm] at later
    exact getLast?_cons_or later _
  | .comment after, index => by
    have later := after.lastOutlet? (index + 1)
    rw [Nat.add_right_comm] at later
    exact getLast?_cons_or later _
  | .gap content after, index => by
    have first := content.lastNode
    have later := after.lastOutlet? (index + 1)
    rw [Nat.add_right_comm] at later
    rw [Stencil.partsAt, Instance.lastOutlet?, Grove.roots_append, List.getLast?_append, first,
      ← later, List.length_cons, ← Nat.add_assoc]
    simp only [Part.path, List.nil_append, List.cons.injEq, and_true]
    cases final : Instance.lastOutlet? _ _ _ with
    | some node => simp
    | none =>
      rename_i roots
      rcases List.eq_nil_or_concat roots with rfl | ⟨earlier, last, rfl⟩
      · simp
      · simp [List.getLast?_cons]

end

end LiveMarkup
