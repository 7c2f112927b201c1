import LiveMarkup.Template.Blueprint
import Mathlib.Data.List.Basic

/-! # Stencils

A blueprint keeps its forest and its parts apart, and the parts point into the forest by paths.  A
stencil is the same thing in one piece: a forest with gaps for content, in which every element
carries the names of its dynamic attributes.  Its gaps and dynamic attributes come up in preorder,
so paths and their order are no data of a stencil but can be computed.

`Blueprint.weave` puts a filling into each part of a blueprint, found by its path.  The non-trivial
ingredient is `weave_blueprint`: for the blueprint of a stencil this is the same as handing out the
fillings one after another on the way through the stencil. -/

namespace LiveMarkup

open Markup

/-! ## Fillings -/

/-- What a part is filled with: a text, which serves as a value and as content, or content made of
nodes. -/
inductive Filling where
  | text (data : String)
  | nodes (forest : Forest)

namespace Filling

/-- The filling as the value of an attribute. -/
def value : Filling → String
  | text data => data
  | nodes _ => ""

/-- The filling as what takes the place of an anchor. -/
def content : Filling → Forest
  | text data => [.text data]
  | nodes forest => forest

@[simp] theorem value_text (data : String) : (text data).value = data := rfl

@[simp] theorem content_text (data : String) : (text data).content = [.text data] := rfl

@[simp] theorem content_nodes (forest : Forest) : (nodes forest).content = forest := rfl

end Filling

namespace Blueprint

/-- The dynamic attributes of the element at a path. -/
def boundAt (path : Path) : List Part → List Filling → List (String × String)
  | .attribute part :: parts, filling :: fillings =>
    if part.path = path then (part.name, filling.value) :: boundAt path parts fillings
    else boundAt path parts fillings
  | .node _ :: parts, _ :: fillings => boundAt path parts fillings
  | _, _ => []

/-- What takes the place of the anchor at a path. -/
def contentAt (path : Path) : List Part → List Filling → Option Forest
  | .node place :: parts, filling :: fillings =>
    if place = path then some filling.content else contentAt path parts fillings
  | .attribute _ :: parts, _ :: fillings => contentAt path parts fillings
  | _, _ => none

mutual

/-- Fills the parts in a node, which is at the given path. -/
def weaveNode (parts : List Part) (fillings : List Filling) (path : Path) : Node → Forest
  | .element name space attributes children =>
    [.element name space (attributes ++ boundAt path parts fillings)
      (weaveNodes parts fillings path 0 children)]
  | .text data => (contentAt path parts fillings).getD [.text data]
  | .comment data => [.comment data]

/-- Fills the parts in sibling nodes, the first of which is the child of its parent with the given
index. -/
def weaveNodes (parts : List Part) (fillings : List Filling) (parent : Path) (index : Nat) :
    List Node → Forest
  | [] => []
  | node :: rest =>
    weaveNode parts fillings (parent ++ [index]) node ++
      weaveNodes parts fillings parent (index + 1) rest

end

/-- The forest of a blueprint with the given fillings in its parts. -/
def weave (blueprint : Blueprint) (fillings : List Filling) : Forest :=
  weaveNodes blueprint.parts fillings [] 0 blueprint.forest

theorem boundAt_nil (path : Path) (parts : List Part) : boundAt path parts [] = [] := by
  cases parts with
  | nil => rfl
  | cons part parts => cases part <;> rfl

theorem contentAt_nil (path : Path) (parts : List Part) : contentAt path parts [] = none := by
  cases parts with
  | nil => rfl
  | cons part parts => cases part <;> rfl

theorem boundAt_append (path : Path) (parts more : List Part) (fillings : List Filling) :
    boundAt path (parts ++ more) fillings =
      boundAt path parts fillings ++ boundAt path more (fillings.drop parts.length) := by
  induction parts generalizing fillings with
  | nil => rfl
  | cons part parts ih =>
    cases fillings with
    | nil => simp [boundAt_nil]
    | cons filling fillings =>
      cases part
      · simp only [List.cons_append, boundAt, ih, List.length_cons, List.drop_succ_cons]
        split <;> rfl
      · simp [boundAt, ih]

theorem contentAt_append (path : Path) (parts more : List Part) (fillings : List Filling) :
    contentAt path (parts ++ more) fillings =
      (contentAt path parts fillings).or (contentAt path more (fillings.drop parts.length)) := by
  induction parts generalizing fillings with
  | nil => rfl
  | cons part parts ih =>
    cases fillings with
    | nil => simp [contentAt_nil]
    | cons filling fillings =>
      cases part
      · simp [contentAt, ih]
      · simp only [List.cons_append, contentAt, ih, List.length_cons, List.drop_succ_cons]
        split <;> rfl

theorem boundAt_of_absent {path : Path} {parts : List Part}
    (absent : ∀ part ∈ parts, part.path ≠ path) (fillings : List Filling) :
    boundAt path parts fillings = [] := by
  induction parts generalizing fillings with
  | nil => rfl
  | cons part parts ih =>
    have later := ih fun other member => absent other (List.mem_cons_of_mem _ member)
    cases fillings with
    | nil => exact boundAt_nil path _
    | cons filling fillings =>
      match part with
      | .attribute part =>
        have away : part.path ≠ path := absent _ List.mem_cons_self
        simp [boundAt, later, away]
      | .node place => simp [boundAt, later]

theorem contentAt_of_absent {path : Path} {parts : List Part}
    (absent : ∀ part ∈ parts, part.path ≠ path) (fillings : List Filling) :
    contentAt path parts fillings = none := by
  induction parts generalizing fillings with
  | nil => rfl
  | cons part parts ih =>
    have later := ih fun other member => absent other (List.mem_cons_of_mem _ member)
    cases fillings with
    | nil => exact contentAt_nil path _
    | cons filling fillings =>
      match part with
      | .attribute part => simp [contentAt, later]
      | .node place =>
        have away : place ≠ path := absent _ List.mem_cons_self
        simp [contentAt, later, away]

end Blueprint

/-! ## Stencils and their blueprints -/

/-- Sibling nodes with gaps.  The dynamic attributes of an element are pairs of the name that the
parser gives and the name as written. -/
inductive Stencil where
  | done
  | element (name : String) (space : Option String) (static bound : List (String × String))
      (children rest : Stencil)
  | text (data : String) (rest : Stencil)
  | comment (data : String) (rest : Stencil)
  | gap (rest : Stencil)
  deriving DecidableEq, Repr

namespace Stencil

/-- The forest without dynamic attributes and with an empty text for each gap. -/
def forest : Stencil → Forest
  | done => []
  | element name space static _ children rest =>
    .element name space static children.forest :: rest.forest
  | text data rest => .text data :: rest.forest
  | comment data rest => .comment data :: rest.forest
  | gap rest => .text "" :: rest.forest

/-- The parts of the dynamic attributes of the element at a path. -/
def boundParts (path : Path) (bound : List (String × String)) : List Part :=
  bound.map fun pair => .attribute { path, name := pair.1, rawName := pair.2 }

/-- The parts, where the first node is the child of its parent with the given index. -/
def partsAt (parent : Path) (index : Nat) : Stencil → List Part
  | done => []
  | element _ _ _ bound children rest =>
    boundParts (parent ++ [index]) bound ++
      (partsAt (parent ++ [index]) 0 children ++ partsAt parent (index + 1) rest)
  | text _ rest | comment _ rest => partsAt parent (index + 1) rest
  | gap rest => .node (parent ++ [index]) :: partsAt parent (index + 1) rest

def blueprint (stencil : Stencil) : Blueprint :=
  { forest := stencil.forest, parts := stencil.partsAt [] 0 }

/-- The number of parts. -/
def count : Stencil → Nat
  | done => 0
  | element _ _ _ bound children rest => bound.length + (children.count + rest.count)
  | text _ rest | comment _ rest => rest.count
  | gap rest => rest.count + 1

@[simp] theorem length_boundParts (path : Path) (bound : List (String × String)) :
    (boundParts path bound).length = bound.length := by
  simp [boundParts]

@[simp] theorem length_partsAt (stencil : Stencil) (parent : Path) (index : Nat) :
    (stencil.partsAt parent index).length = stencil.count := by
  induction stencil generalizing parent index with
  | done => rfl
  | element _ _ _ bound children rest ihChildren ihRest =>
    simp [partsAt, count, ihChildren, ihRest]
  | text _ rest ih | comment _ rest ih => exact ih parent (index + 1)
  | gap rest ih => simp [partsAt, count, ih]

/-- Stencils side by side. -/
def append : Stencil → Stencil → Stencil
  | done, more => more
  | element name space static bound children rest, more =>
    element name space static bound children (rest.append more)
  | text data rest, more => text data (rest.append more)
  | comment data rest, more => comment data (rest.append more)
  | gap rest, more => gap (rest.append more)

instance : Append Stencil :=
  ⟨append⟩

@[simp] theorem done_append (more : Stencil) : done ++ more = more :=
  rfl

@[simp] theorem element_append (name : String) (space : Option String)
    (static bound : List (String × String)) (children rest more : Stencil) :
    element name space static bound children rest ++ more =
      element name space static bound children (rest ++ more) :=
  rfl

@[simp] theorem text_append (data : String) (rest more : Stencil) :
    text data rest ++ more = text data (rest ++ more) :=
  rfl

@[simp] theorem comment_append (data : String) (rest more : Stencil) :
    comment data rest ++ more = comment data (rest ++ more) :=
  rfl

@[simp] theorem gap_append (rest more : Stencil) : gap rest ++ more = gap (rest ++ more) :=
  rfl

@[simp] theorem forest_append (stencil more : Stencil) :
    (stencil ++ more).forest = stencil.forest ++ more.forest := by
  induction stencil with
  | done => rfl
  | element _ _ _ _ _ rest _ ih => simp [forest, ih]
  | text _ rest ih | comment _ rest ih | gap rest ih => simp [forest, ih]

@[simp] theorem count_append (stencil more : Stencil) :
    (stencil ++ more).count = stencil.count + more.count := by
  induction stencil with
  | done => simp [count]
  | element _ _ _ _ _ rest _ ih => simp [count, ih]; omega
  | text _ rest ih | comment _ rest ih => simpa [count] using ih
  | gap rest ih => simp [count, ih]; omega

theorem partsAt_append (stencil more : Stencil) (parent : Path) (index : Nat) :
    (stencil ++ more).partsAt parent index =
      stencil.partsAt parent index ++ more.partsAt parent (index + stencil.forest.length) := by
  induction stencil generalizing index with
  | done => rfl
  | element _ _ _ _ _ rest _ ih | text _ rest ih | comment _ rest ih | gap rest ih =>
    simp only [element_append, text_append, comment_append, gap_append, partsAt, forest, ih,
      List.length_cons, List.append_assoc, List.cons_append]
    rw [Nat.add_assoc, Nat.add_comm 1]

/-! ## Where the parts are -/

/-- Whether a path leads to or below a child of the parent with at least the given index. -/
def Below (parent : Path) (index : Nat) (path : Path) : Prop :=
  ∃ child rest, path = parent ++ child :: rest ∧ index ≤ child

theorem Below.here (parent : Path) (index : Nat) : Below parent index (parent ++ [index]) :=
  ⟨index, [], rfl, Nat.le_refl _⟩

theorem Below.later {parent path : Path} {index : Nat} (below : Below parent (index + 1) path) :
    Below parent index path := by
  obtain ⟨child, rest, rfl, bound⟩ := below
  exact ⟨child, rest, rfl, by omega⟩

theorem Below.inside {parent path : Path} {index first : Nat}
    (below : Below (parent ++ [index]) first path) : Below parent index path := by
  obtain ⟨child, rest, rfl, -⟩ := below
  exact ⟨index, child :: rest, by simp, Nat.le_refl _⟩

theorem Below.ne_here {parent path : Path} {index : Nat} (below : Below parent (index + 1) path) :
    parent ++ [index] ≠ path := by
  rintro rfl
  obtain ⟨child, rest, same, bound⟩ := below
  simp only [List.append_cancel_left_eq, List.cons.injEq] at same
  omega

theorem Below.ne_outer {parent path : Path} {index first : Nat}
    (below : Below (parent ++ [index]) first path) : parent ++ [index] ≠ path := by
  rintro rfl
  obtain ⟨child, rest, same, -⟩ := below
  simp at same

/-- What is inside of a child is not at or inside of a later one. -/
theorem Below.not_later {parent path : Path} {index first : Nat}
    (below : Below (parent ++ [index]) first path) : ¬ Below parent (index + 1) path := by
  rintro ⟨other, tail, same, bound⟩
  obtain ⟨child, rest, rfl, -⟩ := below
  simp only [List.append_assoc, List.cons_append, List.nil_append, List.append_cancel_left_eq,
    List.cons.injEq] at same
  omega

theorem below_of_mem_partsAt {stencil : Stencil} {parent : Path} {index : Nat} {part : Part}
    (member : part ∈ stencil.partsAt parent index) : Below parent index part.path := by
  induction stencil generalizing parent index with
  | done => simp [partsAt] at member
  | element _ _ _ bound children rest ihChildren ihRest =>
    simp only [partsAt, List.mem_append] at member
    obtain member | member | member := member
    · obtain ⟨pair, -, rfl⟩ := List.mem_map.mp member
      exact .here parent index
    · exact (ihChildren member).inside
    · exact (ihRest member).later
  | text _ rest ih | comment _ rest ih => exact (ih member).later
  | gap rest ih =>
    obtain rfl | member := List.mem_cons.mp member
    · exact .here parent index
    · exact (ih member).later

theorem boundParts_path {path : Path} {bound : List (String × String)} {part : Part}
    (member : part ∈ boundParts path bound) : part.path = path := by
  obtain ⟨pair, -, rfl⟩ := List.mem_map.mp member
  rfl

/-! ## Filling -/

/-- Hands out fillings on the way through a stencil. -/
def fill : Stencil → List Filling → Forest
  | done, _ => []
  | element name space static bound children rest, fillings =>
    .element name space
        (static ++ List.zipWith (fun pair filling => (pair.1, filling.value)) bound fillings)
        (children.fill (fillings.drop bound.length)) ::
      rest.fill (fillings.drop (bound.length + children.count))
  | text data rest, fillings => .text data :: rest.fill fillings
  | comment data rest, fillings => .comment data :: rest.fill fillings
  | gap rest, fillings =>
    (fillings.head?.map Filling.content).getD [.text ""] ++ rest.fill fillings.tail

theorem fill_append (stencil more : Stencil) (fillings : List Filling) :
    (stencil ++ more).fill fillings =
      stencil.fill fillings ++ more.fill (fillings.drop stencil.count) := by
  induction stencil generalizing fillings with
  | done => rfl
  | element _ _ _ bound children rest _ ih => simp [fill, count, ih, Nat.add_assoc]
  | text _ rest ih | comment _ rest ih => simp [fill, count, ih]
  | gap rest ih => simp [fill, count, ih]

open Blueprint

/-- Two pairs of parts and fillings that give the same to all paths in a region. -/
def Agree (region : Path → Prop) (parts : List Part) (fillings : List Filling)
    (parts' : List Part) (fillings' : List Filling) : Prop :=
  ∀ path, region path → boundAt path parts fillings = boundAt path parts' fillings' ∧
    contentAt path parts fillings = contentAt path parts' fillings'

/-- Parts outside of a region do not matter to it. -/
theorem Agree.skip (region : Path → Prop) (before parts : List Part)
    (outside : ∀ part ∈ before, ¬ region part.path) (fillings : List Filling) :
    Agree region (before ++ parts) fillings parts (fillings.drop before.length) := by
  intro path inside
  have absent : ∀ part ∈ before, part.path ≠ path := by
    rintro part member rfl
    exact outside part member inside
  rw [boundAt_append, contentAt_append, boundAt_of_absent absent, contentAt_of_absent absent]
  simp

theorem Agree.dropLast {region : Path → Prop} {parts after : List Part}
    (outside : ∀ part ∈ after, ¬ region part.path) (fillings : List Filling) :
    Agree region (parts ++ after) fillings parts fillings := by
  intro path inside
  have absent : ∀ part ∈ after, part.path ≠ path := by
    rintro part member rfl
    exact outside part member inside
  rw [boundAt_append, contentAt_append, boundAt_of_absent absent, contentAt_of_absent absent]
  simp

theorem Agree.trans {region : Path → Prop} {parts parts' parts'' : List Part}
    {fillings fillings' fillings'' : List Filling}
    (first : Agree region parts fillings parts' fillings')
    (second : Agree region parts' fillings' parts'' fillings'') :
    Agree region parts fillings parts'' fillings'' := fun path inside =>
  ⟨(first path inside).1.trans (second path inside).1,
    (first path inside).2.trans (second path inside).2⟩

theorem Agree.mono {region smaller : Path → Prop} {parts parts' : List Part}
    {fillings fillings' : List Filling} (agree : Agree region parts fillings parts' fillings')
    (sub : ∀ path, smaller path → region path) : Agree smaller parts fillings parts' fillings' :=
  fun path inside => agree path (sub path inside)

theorem boundAt_boundParts (path : Path) (bound : List (String × String))
    (fillings : List Filling) :
    boundAt path (boundParts path bound) fillings =
      List.zipWith (fun pair filling => (pair.1, filling.value)) bound fillings := by
  induction bound generalizing fillings with
  | nil => rfl
  | cons pair bound ih =>
    cases fillings with
    | nil => rfl
    | cons filling fillings =>
      have later := ih fillings
      simp only [boundParts] at later
      simp [boundParts, boundAt, later]

theorem weaveNodes_forest (stencil : Stencil) {parts : List Part}
    {fillings own : List Filling} {parent : Path} {index : Nat}
    (agree : Agree (Below parent index) parts fillings (stencil.partsAt parent index) own) :
    weaveNodes parts fillings parent index stencil.forest = stencil.fill own := by
  induction stencil generalizing own parent index with
  | done => rfl
  | element name space static bound children rest ihChildren ihRest =>
    have here := (agree _ (.here parent index)).1
    have noneInside : ∀ part ∈ children.partsAt (parent ++ [index]) 0 ++
        rest.partsAt parent (index + 1), part.path ≠ parent ++ [index] := by
      intro part member
      obtain member | member := List.mem_append.mp member
      · exact (below_of_mem_partsAt member).ne_outer.symm
      · exact (below_of_mem_partsAt member).ne_here.symm
    rw [partsAt, boundAt_append, boundAt_of_absent noneInside, List.append_nil,
      boundAt_boundParts] at here
    -- The values of the element come first, then those inside it, then those behind it.
    have inside : Agree (Below (parent ++ [index]) 0) parts fillings
        (children.partsAt (parent ++ [index]) 0) (own.drop bound.length) := by
      have skipped := Agree.skip (Below (parent ++ [index]) 0) (boundParts (parent ++ [index]) bound)
        (children.partsAt (parent ++ [index]) 0 ++ rest.partsAt parent (index + 1))
        (fun part member => by
          rw [boundParts_path member]
          exact fun below => below.ne_outer rfl) own
      rw [length_boundParts] at skipped
      exact ((agree.mono fun _ below => below.inside).trans skipped).trans
        (.dropLast (fun part member below => below.not_later (below_of_mem_partsAt member)) _)
    have behind : Agree (Below parent (index + 1)) parts fillings
        (rest.partsAt parent (index + 1)) (own.drop (bound.length + children.count)) := by
      have skipped := Agree.skip (Below parent (index + 1))
        (boundParts (parent ++ [index]) bound ++ children.partsAt (parent ++ [index]) 0)
        (rest.partsAt parent (index + 1))
        (fun part member below => by
          obtain member | member := List.mem_append.mp member
          · rw [boundParts_path member] at below
            exact below.ne_here rfl
          · exact (below_of_mem_partsAt member).not_later below) own
      rw [List.length_append, length_boundParts, length_partsAt, List.append_assoc] at skipped
      exact (agree.mono fun _ below => below.later).trans skipped
    simp only [forest, fill, weaveNodes, weaveNode, List.cons_append, List.nil_append]
    rw [here, ihChildren inside, ihRest behind]
  | text data rest ih =>
    have here := (agree _ (.here parent index)).2
    rw [partsAt, contentAt_of_absent fun part member =>
      (below_of_mem_partsAt member).ne_here.symm] at here
    simp only [forest, fill, weaveNodes, weaveNode, here, Option.getD_none, List.cons_append,
      List.nil_append]
    rw [ih (agree.mono fun _ below => below.later)]
  | comment data rest ih =>
    simp only [forest, fill, weaveNodes, weaveNode, List.cons_append, List.nil_append]
    rw [ih (agree.mono fun _ below => below.later)]
  | gap rest ih =>
    have here := (agree _ (.here parent index)).2
    have skipped := Agree.skip (Below parent (index + 1)) [.node (parent ++ [index])]
      (rest.partsAt parent (index + 1)) (fun part member below => by
        rw [List.mem_singleton.mp member] at below
        exact below.ne_here rfl) own
    have behind := (agree.mono fun _ below => below.later).trans skipped
    simp only [forest, fill, weaveNodes, weaveNode]
    rw [here, ih behind]
    cases own with
    | nil => simp [contentAt_nil]
    | cons filling own => simp [partsAt, contentAt]

/-- Filling the blueprint of a stencil by paths is filling the stencil in order. -/
theorem weave_blueprint (stencil : Stencil) (fillings : List Filling) :
    stencil.blueprint.weave fillings = stencil.fill fillings :=
  stencil.weaveNodes_forest fun _ _ => ⟨rfl, rfl⟩

end Stencil

end LiveMarkup
