import LiveMarkup.Proofs.Compilation
import LiveMarkup.Proofs.Rendering

/-! # Rendering afresh

In a container that no instance lives in, a renderer leaves exactly what is read for the result,
whatever the container held before, and reports what the reading takes down.

Templates may come from any parser, as long as no element of theirs gets two attributes of one name.
`Blueprint.Distinct` says so of the blueprint with its dynamic attributes, and it has to be found in
the stencil that the blueprint is laid out by (`Stencil.Distinct.of_fill`). -/

namespace LiveMarkup

open Document Markup

variable {σ : Type}

/-! ## Documents -/

/-- The second document comes about from the first one by the operations on documents. -/
inductive Document.Edits (document : Document) : Document → Prop where
  | refl : Edits document document
  | create {after : Document} (edits : Edits document after) (data : NodeData) :
      Edits document (after.create data).2
  | setAttribute {after : Document} (edits : Edits document after) (element : NodeId)
      (name value : String) : Edits document (after.setAttribute element name value)
  | setText {after : Document} (edits : Edits document after) (node : NodeId) (data : String) :
      Edits document (after.setText node data)
  | insertBefore {after : Document} (edits : Edits document after) {node : NodeId}
      (has : after.Has node) (parent : NodeId) (reference : Option NodeId) :
      Edits document (after.insertBefore parent node reference)
  | remove {after : Document} (edits : Edits document after) (node : NodeId) :
      Edits document (after.remove node)
  | forget {after : Document} (edits : Edits document after) : Edits document after.forget

/-- Operations keep parents and children in agreement, and give up no node. -/
theorem Document.Edits.moves {document after : Document} (edits : document.Edits after) :
    document.Moves (fun _ => True) after := by
  have any {before later : Document} (grows : before.size ≤ later.size)
      (sound : before.Sound → later.Sound) : before.Moves (fun _ => True) later :=
    ⟨grows, fun _ _ free => absurd trivial free, sound⟩
  have alone {before : Document} (node : NodeId) (data : NodeData) (mutation : Mutation) :
      before.Moves (fun _ => True) ((before.setData node data).record mutation) :=
    ((moves_setData node data before).weaken fun _ _ _ => trivial).record mutation
  induction edits with
  | refl => exact .refl _ _
  | @create after _ data moves =>
    exact moves.trans (moves_create data after) fun _ _ => False.elim
  | @setAttribute after _ element name value moves =>
    unfold Document.setAttribute
    split
    · exact moves.trans (alone element _ _) fun _ _ => id
    · exact moves
  | @setText after _ node data moves =>
    unfold Document.setText
    split
    · exact moves.trans (alone node _ _) fun _ _ => id
    · exact moves.trans (alone node _ _) fun _ _ => id
    · exact moves
  | @insertBefore after _ node has parent reference moves =>
    exact moves.trans (any (by simp) fun sound => sound.insertBefore has reference) fun _ _ => id
  | @remove after _ node moves =>
    refine moves.trans (any ?_ fun sound => ?_) fun _ _ => id
    · simp [Document.remove]
    · exact sound.detach.congr (fun _ => rfl) (fun _ => rfl)
  | @forget after _ moves =>
    exact moves.trans (any (Nat.le_refl _) fun sound => sound.congr (fun _ => rfl) fun _ => rfl)
      fun _ _ => id

/-! ## Environments -/

/-- An environment that yields proper values only. -/
def Environment.Yields (sort : Template → Prop) (environment : Environment σ) : Prop :=
  ∀ computation world value, (environment.invoke computation world).1.outcome = .ok value →
    value.Proper sort

/-- Such an environment behaves like itself. -/
theorem Environment.Yields.alike {sort : Template → Prop} {environment : Environment σ}
    (yields : environment.Yields sort) : environment.Alike sort Eq environment where
  outcome := by
    rintro computation world _ rfl
    rfl
  proper := by
    rintro computation world _ rfl value reply
    exact yields computation world value reply
  next := by
    rintro computation world _ rfl
    rfl

/-! ## Templates -/

theorem Markup.Distinct.of_append {first second : Forest} (distinct : Distinct (first ++ second)) :
    Distinct second := by
  induction first with
  | nil => exact distinct
  | cons tree first ih => exact ih distinct.tail

theorem map_fst_zipWith_value {bound : List (String × String)} {fillings : List Filling}
    (enough : bound.length ≤ fillings.length) :
    (List.zipWith (fun pair filling => (pair.1, filling.value)) bound fillings).map Prod.fst =
      bound.map Prod.fst := by
  induction bound generalizing fillings with
  | nil => rfl
  | cons pair bound ih =>
    cases fillings with
    | nil => simp at enough
    | cons filling fillings =>
      rw [List.zipWith_cons_cons, List.map_cons, ih (Nat.le_of_succ_le_succ enough)]
      rfl

/-- Fillings keep apart what the attributes of a stencil are called. -/
theorem Stencil.Distinct.of_fill {stencil : Stencil} {fillings : List Filling}
    (enough : stencil.count ≤ fillings.length)
    (distinct : Markup.Distinct (stencil.fill fillings)) : stencil.Distinct := by
  induction stencil generalizing fillings with
  | done => trivial
  | element name space static bound below rest ihBelow ihRest =>
    rw [Stencil.count] at enough
    cases distinct with
    | element once inside after =>
      rw [List.map_append, map_fst_zipWith_value (by omega)] at once
      exact ⟨once, ihBelow (by rw [List.length_drop]; omega) inside,
        ihRest (by rw [List.length_drop]; omega) after⟩
  | text data rest ih | comment data rest ih => exact ih enough distinct.tail
  | gap rest ih =>
    rw [Stencil.count] at enough
    exact ih (by rw [List.length_tail]; omega) distinct.of_append

/-- No element of a blueprint has two attributes of one name, whether static or dynamic. -/
def Blueprint.Distinct (blueprint : Blueprint) : Prop :=
  Markup.Distinct (blueprint.weave (blueprint.parts.map fun _ => .text ""))

/-- A template that some parser has read, and whose attributes are told apart by their names. -/
structure Template.Unambiguous (template : Template) : Prop where
  compiled : ∃ parser segments, Blueprint.compile parser segments = .ok template.blueprint
  distinct : template.blueprint.Distinct

theorem Template.Unambiguous.exists_stencil {template : Template}
    (unambiguous : template.Unambiguous) :
    ∃ stencil : Stencil, template.blueprint = stencil.blueprint ∧ stencil.Distinct := by
  obtain ⟨⟨parser, segments, compiled⟩, distinct⟩ := unambiguous
  obtain ⟨-, stencil, -, -, same, -⟩ := Blueprint.compile_eq_ok compiled
  refine ⟨stencil, same, ?_⟩
  rw [Blueprint.Distinct, same, Stencil.weave_blueprint] at distinct
  exact .of_fill (by simp [Stencil.blueprint]) distinct

/-! ## Rendering -/

/-- Rendering into a container without an instance leaves there what is read for the result, and
reports and invokes what the reading does. -/
theorem render_shows_reading {renderer : Renderer σ} {environment : Environment σ}
    {container : NodeId} (built : Document.empty.Edits renderer.stage.document)
    (has : renderer.stage.document.Has container) (whole : renderer.stage.shortcomings = {})
    (plain : renderer.strategies = []) (vacant : renderer.instance? container = none)
    (yields : environment.Yields Template.Unambiguous) {template : Template} {values : List Value}
    (proper : (Value.template template values).Proper Template.Unambiguous) (world : σ) :
    let outcome := renderer.render environment container ⟨template, values⟩ world
    let read : (Forest × Array Diagnostic) × σ :=
      ((Reading.result environment renderer.config ⟨template, values⟩).run #[]).run world
    outcome.2.1.stage.document.forest container = read.1.1 ∧
      outcome.1.diagnostics = read.1.2.toList ∧ outcome.2.2 = read.2 := by
  have ready : Ready renderer.stage.document container (renderer.instance? container)
      (· ∈ renderer.stage.document.children container) := by
    rw [vacant]
    exact .bare has (built.moves.sound sound_empty)
  obtain ⟨reports, agree, -, inner, grove, -, lives, looks, -, -⟩ :=
    render_rehouses yields.alike plain whole (fun _ => Template.Unambiguous.exists_stencil) ready
      proper world world rfl
  exact ⟨lives.forest.trans looks, reports, agree⟩

/-- A template with a dynamic attribute and an anchor. -/
def Template.labelled : Template where
  id := ⟨0, 0⟩
  literal := ⟨0⟩
  segments := ["<p id=k X=", ">some ", " text</p>"]
  blueprint :=
    { forest := [.element "p" none [("id", "k")] [.text "some ", .text "", .text " text"]]
      parts := [.attribute { path := [0], name := "x", rawName := "X" }, .node [0, 1]] }

theorem Template.unambiguous_labelled : Template.labelled.Unambiguous where
  compiled := ⟨Parser.fixed, Template.labelled.segments, compile_fixed⟩
  distinct := by
    have woven : Template.labelled.blueprint.weave [.text "", .text ""] =
        [.element "p" none [("id", "k"), ("x", "")]
          [.text "some ", .text "", .text " text"]] := by decide +kernel
    change Markup.Distinct (Template.labelled.blueprint.weave [.text "", .text ""])
    rw [woven]
    exact .element (by decide) (.text (.text (.text .nil))) .nil

/-- An environment that counts invocations.  Each yields how many there were before it, except that
every third one fails. -/
def Environment.counting : Environment Nat where
  invoke _ count :=
    (⟨if count % 3 = 2 then .error (.failed "third") else .ok (.integer (Int64.ofNat count)), []⟩,
      count + 1)

theorem Environment.yields_counting {sort : Template → Prop} :
    Environment.counting.Yields sort := by
  intro computation world value reply
  simp only [Environment.counting] at reply
  split at reply
  · cases reply
  · cases reply
    exact .primitive rfl

theorem render_shows_reading_labelled :
    let renderer : Renderer Nat := { Renderer.empty {} {} with
      stage := { Stage.empty {} with
        document := (Document.empty.create (.element "body" none [])).2 } }
    let item (number : Nat) : Value :=
      .template Template.labelled [.deferred ⟨number⟩, .text "inside"]
    let values := [.bool true, .items [item 0, .deferred ⟨1⟩, item 2]]
    let outcome := renderer.render Environment.counting ⟨0⟩ ⟨Template.labelled, values⟩ 0
    let read : (Forest × Array Diagnostic) × Nat :=
      ((Reading.result Environment.counting {} ⟨Template.labelled, values⟩).run #[]).run 0
    outcome.2.1.stage.document.forest ⟨0⟩ = read.1.1 ∧
      outcome.1.diagnostics = read.1.2.toList ∧ outcome.2.2 = read.2 := by
  intro renderer item values
  have proper (number : Nat) : (item number).Proper Template.Unambiguous := by
    refine .template Template.unambiguous_labelled rfl fun value member => ?_
    simp only [List.mem_cons, List.not_mem_nil, or_false] at member
    obtain rfl | rfl := member
    · exact .deferred _
    · exact .primitive rfl
  have has : renderer.stage.document.Has ⟨0⟩ := Nat.one_pos
  refine render_shows_reading (.create .refl _) has rfl rfl rfl
    Environment.yields_counting (.template Template.unambiguous_labelled rfl fun value member => ?_) 0
  simp only [values, List.mem_cons, List.not_mem_nil, or_false] at member
  obtain rfl | rfl := member
  · exact .primitive rfl
  · refine .items fun value member => ?_
    simp only [List.mem_cons, List.not_mem_nil, or_false] at member
    obtain rfl | rfl | rfl := member
    · exact proper 0
    · exact .deferred _
    · exact proper 2

end LiveMarkup
