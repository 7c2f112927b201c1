import LiveMarkup.Proofs.Limited.Missing
import LiveMarkup.Proofs.Limited.Parallel

/-! # What is remembered on a stage that shows little

On a stage that shows so many children of a node, a renderer only ever holds instances of templates
with no part beyond them.  An instance that it can hold, without strategies of its own, is called
*tame*.

Taking a tame instance away, and putting one where it belongs, is the same work under other numbers. -/

namespace LiveMarkup

open Document Markup

variable {α β σ : Type}

/-! ## Tame instances -/

section

variable (limit : Nat) (known : NodeId → Prop)

mutual

/-- All nodes are known, all strategies are the default one, a text that is shown is not empty, and no
part is beyond what the stage shows. -/
def Instance.Tame : Instance σ → Prop
  | .mk template roots bindings =>
    template.missing? limit = none ∧ (∀ root ∈ roots, known root) ∧ Binding.AllTame bindings

def Binding.AllTame : List (Binding σ) → Prop
  | [] => True
  | binding :: bindings => binding.Tame ∧ Binding.AllTame bindings

def Binding.Tame : Binding σ → Prop
  | .attribute binding => known binding.element ∧ binding.strategy = .setAttribute
  | .outlet outlet => outlet.Tame

def Outlet.Tame : Outlet σ → Prop
  | .vacant anchor => known anchor
  | .text anchor data => known anchor ∧ data ≠ ""
  | .nested anchor inner => known anchor ∧ inner.Tame
  | .items anchor outlets => known anchor ∧ Outlet.AllTame outlets

def Outlet.AllTame : List (Outlet σ) → Prop
  | [] => True
  | outlet :: outlets => outlet.Tame ∧ Outlet.AllTame outlets

end

end

section

variable {limit : Nat} {known more : NodeId → Prop} {rename rename' : NodeId → NodeId}

mutual

theorem Instance.Tame.imp (within : ∀ node, known node → more node) : ∀ {inner : Instance σ},
    inner.Tame limit known → inner.Tame limit more
  | .mk _ _ _, ⟨near, roots, bindings⟩ =>
    ⟨near, fun root member => within root (roots root member), Binding.AllTame.imp within bindings⟩

theorem Binding.AllTame.imp (within : ∀ node, known node → more node) : ∀ {bindings : List (Binding σ)},
    Binding.AllTame limit known bindings → Binding.AllTame limit more bindings
  | [], _ => trivial
  | _ :: _, ⟨first, rest⟩ => ⟨Binding.Tame.imp within first, Binding.AllTame.imp within rest⟩

theorem Binding.Tame.imp (within : ∀ node, known node → more node) : ∀ {binding : Binding σ},
    binding.Tame limit known → binding.Tame limit more
  | .attribute _, ⟨element, strategy⟩ => ⟨within _ element, strategy⟩
  | .outlet _, tame => Outlet.Tame.imp within tame

theorem Outlet.Tame.imp (within : ∀ node, known node → more node) : ∀ {outlet : Outlet σ},
    outlet.Tame limit known → outlet.Tame limit more
  | .vacant _, anchor => within _ anchor
  | .text _ _, ⟨anchor, data⟩ => ⟨within _ anchor, data⟩
  | .nested _ _, ⟨anchor, inner⟩ => ⟨within _ anchor, Instance.Tame.imp within inner⟩
  | .items _ _, ⟨anchor, outlets⟩ => ⟨within _ anchor, Outlet.AllTame.imp within outlets⟩

theorem Outlet.AllTame.imp (within : ∀ node, known node → more node) : ∀ {outlets : List (Outlet σ)},
    Outlet.AllTame limit known outlets → Outlet.AllTame limit more outlets
  | [], _ => trivial
  | _ :: _, ⟨first, rest⟩ => ⟨Outlet.Tame.imp within first, Outlet.AllTame.imp within rest⟩

end

section

variable {count size : Nat} (enough : count ≤ size)

include enough

theorem Instance.Tame.later {inner : Instance σ} (tame : inner.Tame limit (·.number < count)) :
    inner.Tame limit (·.number < size) :=
  tame.imp fun _ has => Nat.lt_of_lt_of_le has enough

theorem Binding.Tame.later {binding : Binding σ} (tame : binding.Tame limit (·.number < count)) :
    binding.Tame limit (·.number < size) :=
  tame.imp fun _ has => Nat.lt_of_lt_of_le has enough

theorem Binding.AllTame.later {bindings : List (Binding σ)}
    (tame : Binding.AllTame limit (·.number < count) bindings) :
    Binding.AllTame limit (·.number < size) bindings :=
  tame.imp fun _ has => Nat.lt_of_lt_of_le has enough

theorem Outlet.Tame.later {outlet : Outlet σ} (tame : outlet.Tame limit (·.number < count)) :
    outlet.Tame limit (·.number < size) :=
  tame.imp fun _ has => Nat.lt_of_lt_of_le has enough

theorem Outlet.AllTame.later {outlets : List (Outlet σ)}
    (tame : Outlet.AllTame limit (·.number < count) outlets) :
    Outlet.AllTame limit (·.number < size) outlets :=
  tame.imp fun _ has => Nat.lt_of_lt_of_le has enough

end

mutual

/-- Other numbers for nodes that are known keep an instance tame. -/
theorem Instance.Tame.renumber (within : ∀ node, known node → more (rename node)) :
    ∀ {inner : Instance σ}, inner.Tame limit known → (inner.renumber rename).Tame limit more
  | .mk _ _ _, ⟨near, roots, bindings⟩ =>
    ⟨near, List.forall_mem_map.mpr fun root member => within root (roots root member),
      Binding.AllTame.renumber within bindings⟩

theorem Binding.AllTame.renumber (within : ∀ node, known node → more (rename node)) :
    ∀ {bindings : List (Binding σ)}, Binding.AllTame limit known bindings →
      Binding.AllTame limit more (Binding.renumberAll rename bindings)
  | [], _ => trivial
  | _ :: _, ⟨first, rest⟩ => ⟨Binding.Tame.renumber within first, Binding.AllTame.renumber within rest⟩

theorem Binding.Tame.renumber (within : ∀ node, known node → more (rename node)) :
    ∀ {binding : Binding σ}, binding.Tame limit known → (binding.renumber rename).Tame limit more
  | .attribute _, ⟨element, strategy⟩ => ⟨within _ element, strategy⟩
  | .outlet _, tame => Outlet.Tame.renumber within tame

theorem Outlet.Tame.renumber (within : ∀ node, known node → more (rename node)) :
    ∀ {outlet : Outlet σ}, outlet.Tame limit known → (outlet.renumber rename).Tame limit more
  | .vacant _, anchor => within _ anchor
  | .text _ _, ⟨anchor, data⟩ => ⟨within _ anchor, data⟩
  | .nested _ _, ⟨anchor, inner⟩ => ⟨within _ anchor, Instance.Tame.renumber within inner⟩
  | .items _ _, ⟨anchor, outlets⟩ => ⟨within _ anchor, Outlet.AllTame.renumber within outlets⟩

theorem Outlet.AllTame.renumber (within : ∀ node, known node → more (rename node)) :
    ∀ {outlets : List (Outlet σ)}, Outlet.AllTame limit known outlets →
      Outlet.AllTame limit more (Outlet.renumberAll rename outlets)
  | [], _ => trivial
  | _ :: _, ⟨first, rest⟩ => ⟨Outlet.Tame.renumber within first, Outlet.AllTame.renumber within rest⟩

end

mutual

/-- Only the numbers of known nodes matter. -/
theorem Instance.Tame.renumber_congr (same : ∀ node, known node → rename' node = rename node) :
    ∀ {inner : Instance σ}, inner.Tame limit known → inner.renumber rename' = inner.renumber rename
  | .mk _ roots bindings, ⟨_, known, tame⟩ => by
    rw [Instance.renumber, Instance.renumber, tame.renumberAll_congr same,
      List.map_congr_left fun root member => same root (known root member)]

theorem Binding.AllTame.renumberAll_congr (same : ∀ node, known node → rename' node = rename node) :
    ∀ {bindings : List (Binding σ)}, Binding.AllTame limit known bindings →
      Binding.renumberAll rename' bindings = Binding.renumberAll rename bindings
  | [], _ => rfl
  | _ :: _, ⟨first, rest⟩ => by
    rw [Binding.renumberAll, Binding.renumberAll, first.renumber_congr same,
      rest.renumberAll_congr same]

theorem Binding.Tame.renumber_congr (same : ∀ node, known node → rename' node = rename node) :
    ∀ {binding : Binding σ}, binding.Tame limit known →
      binding.renumber rename' = binding.renumber rename
  | .attribute _, ⟨element, _⟩ => by rw [Binding.renumber, Binding.renumber, same _ element]
  | .outlet _, tame => by
    rw [Binding.renumber, Binding.renumber, Outlet.Tame.renumber_congr same tame]

theorem Outlet.Tame.renumber_congr (same : ∀ node, known node → rename' node = rename node) :
    ∀ {outlet : Outlet σ}, outlet.Tame limit known → outlet.renumber rename' = outlet.renumber rename
  | .vacant _, anchor => congrArg Outlet.vacant (same _ anchor)
  | .text _ data, ⟨anchor, _⟩ => congrArg (Outlet.text · data) (same _ anchor)
  | .nested _ _, ⟨anchor, inner⟩ => by
    rw [Outlet.renumber, Outlet.renumber, same _ anchor, inner.renumber_congr same]
  | .items _ _, ⟨anchor, outlets⟩ => by
    rw [Outlet.renumber, Outlet.renumber, same _ anchor, outlets.renumberAll_congr same]

theorem Outlet.AllTame.renumberAll_congr (same : ∀ node, known node → rename' node = rename node) :
    ∀ {outlets : List (Outlet σ)}, Outlet.AllTame limit known outlets →
      Outlet.renumberAll rename' outlets = Outlet.renumberAll rename outlets
  | [], _ => rfl
  | _ :: _, ⟨first, rest⟩ => by
    rw [Outlet.renumberAll, Outlet.renumberAll, first.renumber_congr same,
      rest.renumberAll_congr same]

end

/-! ## What instances and outlets are made of -/

@[simp] theorem Instance.template_renumber (rename : NodeId → NodeId) (inner : Instance σ) :
    (inner.renumber rename).template = inner.template := by
  cases inner
  rfl

@[simp] theorem Instance.roots_renumber (rename : NodeId → NodeId) (inner : Instance σ) :
    (inner.renumber rename).roots = inner.roots.map rename := by
  cases inner
  rfl

theorem Instance.Tame.roots {inner : Instance σ} (tame : inner.Tame limit known) :
    ∀ root ∈ inner.roots, known root := by
  cases inner
  exact tame.2.1

/-- A template that is missing a part is not that of a tame instance. -/
theorem Instance.Tame.template_ne {inner : Instance σ} (tame : inner.Tame limit known)
    {template : Template} {missed : Nat × Path} (missing : template.missing? limit = some missed) :
    inner.template ≠ template := by
  rintro rfl
  cases inner
  exact absurd (tame.1.symm.trans missing) nofun

@[simp] theorem Outlet.anchor_renumber (rename : NodeId → NodeId) (outlet : Outlet σ) :
    (outlet.renumber rename).anchor = rename outlet.anchor := by
  cases outlet <;> rfl

theorem Outlet.Tame.anchor {outlet : Outlet σ} (tame : outlet.Tame limit known) :
    known outlet.anchor := by
  cases outlet with
  | vacant anchor => exact tame
  | text anchor data => exact tame.1
  | nested anchor inner => exact tame.1
  | items anchor outlets => exact tame.1

/-! ## Last nodes -/

/-- The last node, if there is one, is known, and it gets its other number. -/
def KeepsLast (known : NodeId → Prop) (rename : NodeId → NodeId) (last last' : Option NodeId) : Prop :=
  (∀ node, last = some node → known node) ∧ last' = last.map rename

theorem KeepsLast.or {last last' behind behind' : Option NodeId}
    (first : KeepsLast known rename last last') (second : KeepsLast known rename behind behind') :
    KeepsLast known rename (last.or behind) (last'.or behind') := by
  obtain ⟨has, rfl⟩ := first
  obtain ⟨has', rfl⟩ := second
  cases last with
  | none => exact ⟨has', rfl⟩
  | some node => exact ⟨has, rfl⟩

mutual

theorem Instance.Tame.lastNode? : ∀ {inner : Instance σ}, inner.Tame limit known →
    KeepsLast known rename inner.lastNode? (inner.renumber rename).lastNode?
  | .mk template roots bindings, ⟨_, all, tame⟩ => by
    have last : KeepsLast known rename roots.getLast? (roots.map rename).getLast? :=
      ⟨fun node final => all node (List.mem_of_getLast? final), List.getLast?_map⟩
    rw [Instance.renumber, Instance.lastNode?, Instance.lastNode?, List.length_map]
    exact (tame.lastOutlet? _ _).or last

theorem Binding.AllTame.lastOutlet? : ∀ {bindings : List (Binding σ)},
    Binding.AllTame limit known bindings → ∀ (root : Nat) (parts : List Part),
      KeepsLast known rename (Instance.lastOutlet? root bindings parts)
        (Instance.lastOutlet? root (Binding.renumberAll rename bindings) parts)
  | [], _, _, _ => ⟨nofun, rfl⟩
  | .attribute _ :: _, _, _, [] => ⟨nofun, rfl⟩
  | .outlet _ :: _, _, _, [] => ⟨nofun, rfl⟩
  | .attribute _ :: _, ⟨_, tame⟩, root, _ :: parts => tame.lastOutlet? root parts
  | .outlet outlet :: bindings, ⟨first, tame⟩, root, part :: parts => by
    obtain ⟨known', renumbered⟩ := Outlet.Tame.lastNode first
    rw [Binding.renumberAll, Binding.renumber, Instance.lastOutlet?, Instance.lastOutlet?]
    refine (tame.lastOutlet? root parts).or ?_
    split
    · refine ⟨fun node same => ?_, congrArg some renumbered⟩
      cases same
      exact known'
    · exact ⟨nofun, rfl⟩

theorem Outlet.Tame.lastNode : ∀ {outlet : Outlet σ}, outlet.Tame limit known →
    known outlet.lastNode ∧ (outlet.renumber rename).lastNode = rename outlet.lastNode
  | .vacant _, anchor => ⟨anchor, rfl⟩
  | .text _ _, ⟨anchor, _⟩ => ⟨anchor, rfl⟩
  | .nested anchor inner, ⟨known', tame⟩ => by
    obtain ⟨has, renumbered⟩ := tame.lastNode?
    rw [Outlet.renumber, Outlet.lastNode, Outlet.lastNode, renumbered]
    cases last : inner.lastNode? with
    | none => exact ⟨known', rfl⟩
    | some node => exact ⟨has node last, rfl⟩
  | .items anchor outlets, ⟨known', tame⟩ => tame.lastOf known'

theorem Outlet.AllTame.lastOf : ∀ {outlets : List (Outlet σ)}, Outlet.AllTame limit known outlets →
    ∀ {anchor : NodeId}, known anchor → known (Outlet.lastOf anchor outlets) ∧
      Outlet.lastOf (rename anchor) (Outlet.renumberAll rename outlets) =
        rename (Outlet.lastOf anchor outlets)
  | [], _, _, anchor => ⟨anchor, rfl⟩
  | _ :: _, ⟨first, rest⟩, _, _ => by
    obtain ⟨known', renumbered⟩ := Outlet.Tame.lastNode first
    rw [Outlet.renumberAll, Outlet.lastOf, Outlet.lastOf, renumbered]
    exact rest.lastOf known'

end

end

/-! ## Taking away -/

section

variable {limit count : Nat} {rename : NodeId → NodeId}

mutual

theorem Instance.Tame.parallel_detach : ∀ {inner : Instance σ} {count : Nat},
    inner.Tame limit (·.number < count) →
      Parallel rename count inner.detach (inner.renumber rename).detach fun _ _ _ => True
  | .mk template roots bindings, count, ⟨_, all, tame⟩ => by
    rw [Instance.renumber, Instance.detach, Instance.detach]
    refine (tame.parallel_clearRoots template.blueprint.parts).bind fun size _ _ more _ => ?_
    exact .forM fun root member size' more' =>
      parallel_remove (Nat.lt_of_lt_of_le (all root member) (Nat.le_trans more more'))

theorem Binding.AllTame.parallel_clearRoots : ∀ {bindings : List (Binding σ)} {count : Nat},
    Binding.AllTame limit (·.number < count) bindings → ∀ parts : List Part,
      Parallel rename count (Instance.clearRoots bindings parts)
        (Instance.clearRoots (Binding.renumberAll rename bindings) parts) fun _ _ _ => True
  | [], _, _, _ => .pure fun _ _ => trivial
  | .attribute _ :: _, _, _, [] => .pure fun _ _ => trivial
  | .outlet _ :: _, _, _, [] => .pure fun _ _ => trivial
  | .attribute _ :: _, _, ⟨_, tame⟩, _ :: parts => tame.parallel_clearRoots parts
  | .outlet outlet :: bindings, count, ⟨first, tame⟩, part :: parts => by
    rw [Binding.renumberAll, Binding.renumber, Instance.clearRoots, Instance.clearRoots]
    split
    · refine (Outlet.Tame.parallel_clear first).bind fun size _ _ more _ => ?_
      exact (tame.later more).parallel_clearRoots parts
    · exact tame.parallel_clearRoots parts

theorem Outlet.Tame.parallel_clear : ∀ {outlet : Outlet σ} {count : Nat},
    outlet.Tame limit (·.number < count) →
      Parallel rename count outlet.clear (outlet.renumber rename).clear fun _ _ _ => True
  | .vacant _, _, _ => .pure fun _ _ => trivial
  | .text anchor _, _, _ => parallel_setText anchor ""
  | .nested _ _, _, ⟨_, tame⟩ => tame.parallel_detach
  | .items _ _, _, ⟨_, tame⟩ => tame.parallel_dropAll

theorem Outlet.AllTame.parallel_dropAll : ∀ {outlets : List (Outlet σ)} {count : Nat},
    Outlet.AllTame limit (·.number < count) outlets →
      Parallel rename count (Outlet.dropAll outlets)
        (Outlet.dropAll (Outlet.renumberAll rename outlets)) fun _ _ _ => True
  | [], _, _ => .pure fun _ _ => trivial
  | outlet :: rest, count, ⟨first, tame⟩ => by
    rw [Outlet.renumberAll, Outlet.dropAll, Outlet.dropAll, Outlet.anchor_renumber]
    refine (Outlet.Tame.parallel_clear first).bind fun size _ _ more _ => ?_
    have here := Nat.lt_of_lt_of_le first.anchor more
    refine (parallel_remove here).bind fun size' _ _ more' _ => ?_
    exact Outlet.AllTame.parallel_dropAll
      (tame.later (Nat.le_trans more more'))

end

/-! ## Putting where it belongs -/

/-- A tame outlet, and the one with other numbers. -/
def Outlet.Corresponds (limit : Nat) (rename : NodeId → NodeId) (size : Nat)
    (outlet outlet' : Outlet σ) : Prop :=
  outlet.Tame limit (·.number < size) ∧ outlet' = outlet.renumber rename

/-- A tame instance of a template, and the one with other numbers. -/
def Instance.Corresponds (limit : Nat) (rename : NodeId → NodeId) (template : Template) (size : Nat)
    (inner inner' : Instance σ) : Prop :=
  inner.Tame limit (·.number < size) ∧ inner.template = template ∧ inner' = inner.renumber rename

theorem parallel_insertAll {nodes : List NodeId} {parent : NodeId} (hasParent : parent.number < count)
    (all : ∀ node ∈ nodes, node.number < count) (reference : Option NodeId) :
    Parallel rename count (nodes.forM fun node => Stage.insertBefore parent node reference)
      ((nodes.map rename).forM fun node =>
        Stage.insertBefore (rename parent) node (reference.map rename)) fun _ _ _ => True :=
  .forM fun node member _ more => parallel_insertBefore (Nat.lt_of_lt_of_le hasParent more)
    (Nat.lt_of_lt_of_le (all node member) more) reference

/-- Roots are put right behind an anchor. -/
theorem parallel_place (part : Nat) {anchor : NodeId} {inner : Instance σ}
    (all : ∀ root ∈ inner.roots, root.number < count) :
    Parallel rename count (Outlet.place part anchor inner)
      (Outlet.place part (rename anchor) (inner.renumber rename)) fun _ _ _ => True := by
  unfold Outlet.place
  refine .get fun stage stage' enough embeds => ?_
  have cells := embeds.document.cells
  dsimp only
  rw [cells.parent, cells.nextSibling embeds.document.injective]
  cases placed : stage.document.parent anchor with
  | none => exact .note
  | some parent =>
    obtain ⟨template, roots, bindings⟩ := inner
    exact parallel_insertAll (embeds.document.tidy.parents anchor parent placed)
      (fun root member => Nat.lt_of_lt_of_le (all root member) enough) _

/-- An anchor is created behind a node. -/
theorem parallel_makeAnchor (part item : Nat) (last : NodeId) :
    Parallel rename count (Outlet.makeAnchor part item last)
      (Outlet.makeAnchor part item (rename last)) (Renumbered rename) := by
  unfold Outlet.makeAnchor
  refine (parallel_create (.text "")).bind fun size anchor _ _ renumbered => ?_
  obtain ⟨has, rfl⟩ := renumbered
  refine .get fun stage stage' enough embeds => ?_
  have cells := embeds.document.cells
  have done (size' : Nat) (more : size ≤ size') : Parallel rename size' (pure anchor)
      (pure (rename anchor)) (Renumbered rename) :=
    .pure fun _ more' => ⟨Nat.lt_of_lt_of_le has (Nat.le_trans more more'), rfl⟩
  dsimp only
  rw [cells.parent, cells.nextSibling embeds.document.injective]
  cases placed : stage.document.parent last with
  | none => exact .noting (done _ enough)
  | some parent =>
    refine (parallel_insertBefore (embeds.document.tidy.parents last parent placed)
      (Nat.lt_of_lt_of_le has enough) _).bind fun size' _ _ more _ => ?_
    exact done size' (Nat.le_trans enough more)

/-- All output of an outlet is removed. -/
theorem Outlet.Tame.parallel_vacate {outlet : Outlet σ} (tame : outlet.Tame limit (·.number < count)) :
    Parallel rename count outlet.vacate (outlet.renumber rename).vacate
      (Outlet.Corresponds limit rename) := by
  unfold Outlet.vacate
  rw [Outlet.anchor_renumber]
  refine tame.parallel_clear.bind fun size _ _ more _ => .pure fun _ more' => ⟨?_, rfl⟩
  exact Nat.lt_of_lt_of_le tame.anchor (Nat.le_trans more more')

/-- A text is shown. -/
theorem Outlet.Tame.parallel_showText {outlet : Outlet σ}
    (tame : outlet.Tame limit (·.number < count)) (data : String) :
    Parallel rename count (outlet.showText data) ((outlet.renumber rename).showText data)
      (Outlet.Corresponds limit rename) := by
  -- In each case `show'` comes last; what an instance or a list shows is removed before.
  have shows {size : Nat} {outlet : Outlet σ} (tame : outlet.Tame limit (·.number < size)) :
      Parallel rename size (Outlet.showText.show' outlet data)
        (Outlet.showText.show' (outlet.renumber rename) data) (Outlet.Corresponds limit rename) := by
    unfold Outlet.showText.show'
    split
    · exact tame.parallel_vacate
    · next filled =>
      rw [Outlet.anchor_renumber]
      refine .noting ((parallel_setText _ data).bind fun size' _ _ more _ => ?_)
      exact .pure fun _ more' =>
        ⟨⟨Nat.lt_of_lt_of_le tame.anchor (Nat.le_trans more more'), filled⟩, rfl⟩
  have replaces {outlet : Outlet σ} (tame : outlet.Tame limit (·.number < count)) :
      Parallel rename count (outlet.vacate >>= fun vacant => Outlet.showText.show' vacant data)
        ((outlet.renumber rename).vacate >>= fun vacant => Outlet.showText.show' vacant data)
        (Outlet.Corresponds limit rename) := by
    refine tame.parallel_vacate.bind fun size vacant _ _ corresponds => ?_
    obtain ⟨tame, rfl⟩ := corresponds
    exact shows tame
  cases outlet with
  | vacant anchor => exact shows tame
  | nested anchor inner => exact replaces tame
  | items anchor outlets => exact replaces tame
  | text anchor shown =>
    unfold Outlet.showText
    rw [Outlet.renumber]
    dsimp only
    split
    · refine .noting (.pure fun _ more => ⟨?_, rfl⟩)
      exact ⟨Nat.lt_of_lt_of_le tame.1 more, tame.2⟩
    · exact shows tame

/-- To show an empty text is to remove all output. -/
theorem Outlet.Tame.showText_empty {known : NodeId → Prop} {outlet : Outlet σ}
    (tame : outlet.Tame limit known) : outlet.showText "" = outlet.vacate := by
  have removes (outlet : Outlet σ) : Outlet.showText.show' outlet "" = outlet.vacate :=
    if_pos rfl
  have twice (outlet : Outlet σ) :
      (outlet.vacate >>= fun vacant => Outlet.showText.show' vacant "") = outlet.vacate := by
    simp only [removes, Outlet.vacate, Outlet.clear, Outlet.anchor, bind_assoc, pure_bind]
  cases outlet with
  | vacant anchor => exact removes _
  | nested anchor inner => exact twice _
  | items anchor outlets => exact twice _
  | text anchor shown => exact (if_neg tame.2).trans (removes _)

/-! ## Emptying a container -/

/-- Children are removed one after the other. -/
theorem parallel_sweep (container : NodeId) (rounds : Nat) {count : Nat} :
    Parallel rename count (Renderer.sweep container rounds)
      (Renderer.sweep (rename container) rounds) fun _ _ _ => True := by
  induction rounds generalizing count with
  | zero => exact .pure fun _ _ => trivial
  | succ rounds ih =>
    rw [Renderer.sweep, Renderer.sweep]
    refine .get fun stage stage' enough embeds => ?_
    rw [Stage.firstChild, Stage.firstChild, embeds.child]
    cases first : stage.child container 0 with
    | none => exact .pure fun _ _ => trivial
    | some child =>
      have has : stage.document.Has child := by
        rw [Stage.child] at first
        split at first
        · exact embeds.document.tidy.sound.has_of_mem_children (List.mem_of_getElem? first)
        · cases first
      refine (parallel_remove has).bind fun size _ _ _ _ => .get fun after after' _ embeds' => ?_
      rw [Stage.firstChild, Stage.firstChild, embeds'.child]
      -- Whether the child is still there is asked of both documents, and both say the same.
      have same : (after.child container 0).map rename = some (rename child) ↔
          after.child container 0 = some child := by
        cases after.child container 0 <;> simp [embeds'.document.injective.eq_iff]
      simp only [same]
      split
      · exact .note
      · exact ih

/-- A container with an instance of another template, or with none, is emptied. -/
theorem parallel_evict (container : NodeId) {previous : Option (Instance σ)}
    (tame : ∀ inner, previous = some inner → inner.Tame limit (·.number < count)) :
    Parallel rename count (Renderer.evict container previous)
      (Renderer.evict (rename container) (previous.map (Instance.renumber rename)))
      fun _ _ _ => True := by
  have sweeps {size : Nat} : Parallel rename size
      (do Renderer.sweep container ((← get).document.children container).length)
      (do Renderer.sweep (rename container) ((← get).document.children (rename container)).length)
      fun _ _ _ => True := by
    refine .get fun stage stage' _ embeds => ?_
    rw [embeds.document.cells.children, List.length_map]
    exact parallel_sweep container _
  unfold Renderer.evict
  cases previous with
  | none => exact sweeps
  | some inner =>
    exact .noting ((tame inner rfl).parallel_detach.bind fun _ _ _ _ _ => sweeps)

/-! ## Making -/

/-- What is bound to the parts has other numbers for other roots. -/
theorem bindAll_renumber {stage stage' : Stage} (embeds : stage.Embeds rename stage')
    {roots : List NodeId} (known : ∀ root ∈ roots, stage.document.Has root) (parts : List Part)
    (index : Nat) :
    let bound : Except (Nat × ResolutionError) (List (Binding σ)) :=
      Instance.bindAll [] stage roots index parts
    Instance.bindAll [] stage' (roots.map rename) index parts =
        bound.map (Binding.renumberAll rename) ∧
      ∀ bindings, bound = .ok bindings → Binding.AllTame limit (·.number < stage.document.size)
        bindings := by
  induction parts generalizing index with
  | nil => exact ⟨rfl, fun bindings same => by cases same; trivial⟩
  | cons part parts ih =>
    obtain ⟨same, tame⟩ := ih (index + 1)
    dsimp only
    rw [Instance.bindAll, Instance.bindAll, embeds.locate]
    cases leads : stage.locate roots part.path with
    | none => exact ⟨rfl, fun _ same => by cases same⟩
    | some node =>
      have has := Stage.has_of_locate embeds.document.tidy known leads
      dsimp only [Option.map_some]
      rw [same]
      cases bound : (Instance.bindAll [] stage roots (index + 1) parts :
          Except (Nat × ResolutionError) (List (Binding σ))) with
      | error error => exact ⟨rfl, fun _ same => by cases same⟩
      | ok bindings =>
        -- The part is bound to the node that it leads to, which has another number on the other
        -- stage.
        have own : (Instance.bind [] node part : Binding σ).Tame limit
              (·.number < stage.document.size) ∧
            Instance.bind [] (rename node) part =
              (Instance.bind [] node part : Binding σ).renumber rename := by
          obtain part | path := part
          · exact ⟨⟨has, rfl⟩, rfl⟩
          · exact ⟨has, rfl⟩
        refine ⟨?_, fun others same => ?_⟩
        · exact congrArg (fun first => Except.ok (first :: _)) own.2
        · cases same
          exact ⟨own.1, tame bindings bound⟩

/-- A new instance is tame if its template has no part beyond what the stage shows. -/
theorem parallel_make {template : Template} (near : template.missing? limit = none) :
    Parallel rename count (Instance.make ([] : List (Strategy σ)) template)
      (Instance.make ([] : List (Strategy σ)) template) fun size made made' =>
        made' = made.map (Instance.renumber rename) ∧ ∀ inner, made = .ok inner →
          inner.Tame limit (·.number < size) ∧ inner.template = template := by
  unfold Instance.make
  refine (parallel_copyAll template.blueprint.forest count).bind ?_
  intro size roots roots' _ renumbered
  obtain ⟨all, rfl⟩ := renumbered
  refine .get fun stage stage' enough embeds => ?_
  have known (root : NodeId) (member : root ∈ roots) : stage.document.Has root :=
    Nat.lt_of_lt_of_le (all root member) enough
  obtain ⟨same, tame⟩ := @bindAll_renumber σ limit rename _ _ embeds roots known
    template.blueprint.parts 0
  rw [same]
  cases bound : (Instance.bindAll [] stage roots 0 template.blueprint.parts :
      Except (Nat × ResolutionError) (List (Binding σ))) with
  | error error => exact .pure fun _ _ => ⟨rfl, nofun⟩
  | ok bindings =>
    refine .noting (.pure fun size' more => ⟨rfl, fun inner made => ?_⟩)
    cases made
    refine ⟨⟨near, fun root member => ?_, ?_⟩, rfl⟩
    · exact Nat.lt_of_lt_of_le (known root member) more
    · exact (tame bindings bound).later more

end

end LiveMarkup
