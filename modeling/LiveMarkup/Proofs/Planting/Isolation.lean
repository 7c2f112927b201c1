import LiveMarkup.Proofs.Following
import LiveMarkup.Proofs.Planting.Comparing
import LiveMarkup.Proofs.Planting.Identity
import LiveMarkup.Proofs.Planting.Partwise
import LiveMarkup.Proofs.Returning

/-! # Parts do not interfere

Whatever happens in one part of a template, a deferred value that fails or one that nests too deeply
included, the other parts are as they would be with another value there.

Which work belongs to a part is told by following a call from part to part (`Renderer.renderUpTo`):
what it does for one part is what is added between two such points.  A `Course` is all that two calls
have in common, and what they do to the bed there is compared part by part. -/

namespace LiveMarkup

open Document Markup

variable {σ υ : Type}

/-! ## Templates -/

/-- Words in the gaps keep apart what the attributes of a stencil are called. -/
theorem Stencil.Distinct.fill {stencil : Stencil} (distinct : stencil.Distinct)
    {words : List String} (enough : stencil.count ≤ words.length) :
    Markup.Distinct (stencil.fill (words.map .text)) := by
  induction stencil generalizing words with
  | done => exact .nil
  | element name space static bound below rest ihBelow ihRest =>
    obtain ⟨once, inside, after⟩ := distinct
    rw [Stencil.count] at enough
    rw [Stencil.fill, ← List.map_drop, ← List.map_drop]
    refine .element ?_ (ihBelow inside ?_) (ihRest after ?_)
    · rwa [List.map_append, map_fst_zipWith_value (by rw [List.length_map]; omega)]
    · rw [List.length_drop]
      omega
    · rw [List.length_drop]
      omega
  | text data rest ih => exact .text (ih distinct enough)
  | comment data rest ih => exact .comment (ih distinct enough)
  | gap rest ih =>
    cases words with
    | nil => cases enough
    | cons word words => exact .text (ih distinct (Nat.le_of_succ_le_succ enough))

/-- Any stencil that a template of the standard parser is laid out by keeps apart what the attributes
are called. -/
theorem Template.Standard.distinct {template : Template} (standard : template.Standard)
    {stencil : Stencil} (laid : template.blueprint = stencil.blueprint) : stencil.Distinct := by
  obtain ⟨other, same, distinct⟩ := standard.exists_stencil
  have equal : stencil.blueprint = other.blueprint := laid.symm.trans same
  have counts : stencil.count = other.count := by
    rw [← stencil.length_partsAt [] 0, ← other.length_partsAt [] 0]
    exact congrArg (fun blueprint => blueprint.parts.length) equal
  have filled := distinct.fill (Nat.le_of_eq (List.length_replicate (n := other.count) (a := "")).symm)
  rw [← Stencil.weave_blueprint, ← equal, Stencil.weave_blueprint] at filled
  exact .of_fill (by simp [counts]) filled

/-! ## Points of a call -/

/-- Between two points of a call, changes are recorded, failures are reported and computations are
invoked. -/
structure Adds (before after : RenderReport × Renderer (σ × List Deferred) × σ × List Deferred)
    (deeds : List Mutation) (failures : List Diagnostic) (calls : List Deferred) : Prop where
  deeds : after.2.1.stage.document.mutations.toList =
    before.2.1.stage.document.mutations.toList ++ deeds
  failures : after.1.diagnostics = before.1.diagnostics ++ failures
  calls : after.2.2.2 = before.2.2.2 ++ calls

/-- Other numbers for nodes that do not exist in a document.  No two nodes get the same one, but for
those that are created on the way from the second document to the third. -/
structure Document.Renumbers (document before after : Document) (rename : NodeId → NodeId) :
    Prop where
  fixed : ∀ node, document.Has node → rename node = node
  injective : ∀ node other, ¬ before.Creates after node → ¬ before.Creates after other →
    rename node = rename other → node = other

theorem Document.renumbers_shift {document before after : Document} {second : Nat}
    (grows : document.size ≤ after.size) (least : before.size ≤ second) :
    document.Renumbers before after (NodeId.shift after.size second) where
  fixed := fun _ known => if_pos (Nat.lt_of_lt_of_le known grows)
  injective := by
    have kept (node : NodeId) (outside : ¬ before.Creates after node) :
        node.number < before.size ∨ after.size ≤ node.number := by
      rw [or_iff_not_imp_left, ← Nat.not_lt]
      exact fun new known => outside ⟨new, known⟩
    exact fun node other outside outside' =>
      NodeId.shift_injective least (kept node outside) (kept other outside')

/-- Two documents that come from a third one are the same around a container. -/
structure Document.SameAround (document after after' : Document) (container : NodeId) : Prop where
  data : after'.data? container = after.data? container
  parent : after'.parent container = after.parent container
  elsewhere : ∀ node, document.Has node → node ≠ container → ¬ document.Inside container node →
    after'.cell? node = after.cell? node

variable {container : NodeId} {previous : Option (Instance σ)} {old : Option Bed} {owned : NodeId → Prop}
  {template : Template} {stencil : Stencil} {document : Document} {bed : Bed} {data : NodeData}
  {outer : Option NodeId}

/-- Two calls that tend the same prepared bed do not differ around the container. -/
theorem Prepared.sameAround {between after after' : Document} {grown grown' : Grove}
    (prepared : Prepared container previous old owned template stencil document bed between)
    (within : ∀ node, owned node → document.Inside container node)
    (regrown : Regrown (.inside container data outer) between bed.grove after grown)
    (regrown' : Regrown (.inside container data outer) between bed.grove after' grown') :
    document.SameAround after after' container := by
  have cell : after.cell? container = _ := regrown.site.cell
  have cell' : after'.cell? container = _ := regrown'.site.cell
  constructor
  case data => rw [data?_of_cell? cell, data?_of_cell? cell']
  case parent => rw [parent_of_cell? cell, parent_of_cell? cell']
  case elsewhere =>
    intro node known away outside
    have free : ¬ (node = container ∨ owned node) := fun concerned =>
      concerned.elim away fun own => outside (within node own)
    exact ((prepared.moves_regrown regrown').kept node known free).trans
      ((prepared.moves_regrown regrown).kept node known free).symm

namespace Renderer

/-- What is added from one point of a call to a later one. -/
theorem Answers.adds {renderer : Renderer (σ × List Deferred)} {place : Place}
    {harvest later : Harvest Bed} {before after : (List Value × Array Diagnostic) × σ × List Deferred}
    {outcome next : RenderReport × Renderer (σ × List Deferred) × σ × List Deferred}
    (answers : renderer.Answers container place template bed document harvest before.1.2 before.2
      outcome)
    (answers' : renderer.Answers container place template bed document later after.1.2 after.2 next)
    {settled : Value} {failures : Array Diagnostic} {calls : List Deferred}
    (settles : Settles before after settled failures calls) {deeds : List Mutation}
    (added : later.deeds = harvest.deeds ++ deeds) :
    Adds outcome next deeds failures.toList calls where
  deeds := by
    rw [answers'.tended.tilled.logs.mutations, answers.tended.tilled.logs.mutations, added,
      List.append_assoc]
  failures := by rw [answers'.failures, answers.failures, settles.failures, Array.toList_append]
  calls := by rw [answers'.state, answers.state, settles.calls]

end Renderer

/-! ## The course of a call -/

/-- A call of a renderer but for its values, with the bed that it tends and the number of the first
node that it creates on the way. -/
structure Course (σ : Type) where
  renderer : Renderer (σ × List Deferred)
  environment : Environment σ
  config : Config
  layout : Template → Stencil
  container : NodeId
  template : Template
  world : σ
  bed : Bed
  next : Nat

namespace Course

/-- The call as far as the first parts. -/
def point (course : Course σ) (values : List Value) (count : Nat) :
    RenderReport × Renderer (σ × List Deferred) × σ × List Deferred :=
  course.renderer.renderUpTo course.environment.traced course.container ⟨course.template, values⟩
    (course.world, []) count

/-- What the values settle to. -/
def read (course : Course σ) (values : List Value) :
    (List Value × Array Diagnostic) × σ × List Deferred :=
  Renderer.settling course.environment.traced course.config course.template values (course.world, [])

/-- What is done to the bed for the first parts. -/
def work (course : Course σ) (values : List Value) (count : Nat) : Harvest Bed :=
  course.bed.tend (Plot.tend course.layout (course.config.depthLimit + 1)) course.container
    ((course.read values).1.1.take count) course.next

/-- As many values as the template has parts, which may contain results of the given sort. -/
structure Admits (course : Course σ) (sort : Template → Prop) (values : List Value) : Prop where
  enough : values.length = course.template.blueprint.parts.length
  proper : ∀ value ∈ values, value.Proper sort

/-- What is read of two lists of values is the same but for one part. -/
def SameBut (course : Course σ) (index : Nat) (values values' : List Value) : Prop :=
  ∀ other, other ≠ index → (course.read values').1.1[other]? = (course.read values).1.1[other]?

/-- Whatever its values are, the call tends the bed, which is prepared in a document, up to any part
with what it reads there. -/
structure Followed (course : Course σ) (sort : Template → Prop) (place : Place)
    (document : Document) : Prop where
  count : course.bed.stencil.count = course.template.blueprint.parts.length
  answers : ∀ {values : List Value}, course.Admits sort values → ∀ {count : Nat},
    count ≤ course.template.blueprint.parts.length →
    course.renderer.Answers course.container place course.template course.bed document
      (course.work values count) (course.read (values.take count)).1.2
      (course.read (values.take count)).2 (course.point values count)

variable {course : Course σ} {sort : Template → Prop} {place : Place} {values values' : List Value}
  {count index : Nat}

theorem Admits.length_read (admits : course.Admits sort values) :
    (course.read values).1.1.length = course.template.blueprint.parts.length :=
  Renderer.length_settling_of_enough course.environment.traced course.config _ admits.enough

/-- As far as all parts is the whole call. -/
theorem point_length (enough : values.length = course.template.blueprint.parts.length) :
    course.point values course.template.blueprint.parts.length =
      course.renderer.render course.environment.traced course.container ⟨course.template, values⟩
        (course.world, []) := by
  rw [point, Renderer.renderUpTo, ← enough, List.take_length]

/-- As far as two readings are the same, so is what is done to the bed. -/
theorem work_eq (same : course.SameBut index values values') (early : count ≤ index) :
    course.work values' count = course.work values count :=
  congrArg (course.bed.tend _ course.container · course.next) (take_eq_take same early)

namespace Followed

theorem size_point (followed : course.Followed sort place document)
    (admits : course.Admits sort values) (early : count ≤ course.template.blueprint.parts.length) :
    (course.point values count).2.1.stage.document.size = (course.work values count).next :=
  (followed.answers admits early).tended.tilled.size

theorem monotone_next (followed : course.Followed sort place document)
    (admits : course.Admits sort values) : Monotone fun count => (course.work values count).next :=
  Bed.monotone_next_tend (Plot.renames_tend course.layout _)
    (admits.length_read.trans followed.count.symm)

/-- The numbers left out between the two calls are those of the nodes that the part in question creates
with its first value. -/
theorem renumbers (followed : course.Followed sort place document)
    (grows : course.renderer.stage.document.size ≤ document.size)
    (admits : course.Admits sort values) (admits' : course.Admits sort values')
    (inside : index < course.template.blueprint.parts.length)
    (same : course.SameBut index values values') :
    course.renderer.stage.document.Renumbers (course.point values index).2.1.stage.document
      (course.point values (index + 1)).2.1.stage.document
      (NodeId.shift (course.work values (index + 1)).next (course.work values' (index + 1)).next) := by
  have starts := followed.size_point admits (Nat.le_of_lt inside)
  have stops := followed.size_point admits (Nat.succ_le_of_lt inside)
  have after := (followed.answers admits (Nat.succ_le_of_lt inside)).tended.tilled
  have least : (course.work values index).next ≤ (course.work values' (index + 1)).next := by
    rw [← work_eq same (Nat.le_refl index)]
    exact followed.monotone_next admits' (Nat.le_succ index)
  rw [← starts] at least
  rw [← stops]
  exact renumbers_shift (Nat.le_trans grows after.regrown.moves.grows) least

/-- If two readings only differ at one part, then what is done to the bed comes to the same but for this
part and for numbers, and the other parts take the same changes. -/
theorem work_of_same_but (followed : course.Followed sort place document) (worn : course.bed.Worn)
    (distinct : course.bed.stencil.Distinct) (above : course.container.number < course.next)
    (admits : course.Admits sort values) (admits' : course.Admits sort values')
    (inside : index < course.template.blueprint.parts.length)
    (same : course.SameBut index values values') :
    let rename :=
      NodeId.shift (course.work values (index + 1)).next (course.work values' (index + 1)).next
    (∀ count ≤ course.template.blueprint.parts.length,
      (course.work values' count).result.blank index =
        ((course.work values count).result.blank index).renumber rename) ∧
    ∀ other < course.template.blueprint.parts.length, other ≠ index → ∃ deeds,
      (course.work values (other + 1)).deeds = (course.work values other).deeds ++ deeds ∧
        (course.work values' (other + 1)).deeds =
          (course.work values' other).deeds ++ deeds.map (Mutation.renumber rename) := by
  rw [← followed.count] at inside ⊢
  refine Bed.tend_of_same_but (fun _ => Plot.renames_tend course.layout _)
    (Plot.anchors_tend course.layout _) worn distinct inside
    (admits.length_read.trans followed.count.symm) (admits'.length_read.trans followed.count.symm)
    same above fun count early node member => ?_
  -- The nodes of a bed are those of a document, so they have numbers below its size.
  have within : count ≤ course.template.blueprint.parts.length :=
    followed.count ▸ Nat.le_of_lt (Nat.lt_of_le_of_lt early inside)
  have tilled := (followed.answers admits within).tended.tilled
  exact Nat.lt_of_lt_of_eq (tilled.site.bears.has member) tilled.size

/-- What a part adds, if its value settles as given and it takes the given changes. -/
theorem adds (followed : course.Followed sort place document) (admits : course.Admits sort values)
    (inside : index < course.template.blueprint.parts.length) {settled : Value}
    {failures : Array Diagnostic} {calls : List Deferred}
    (settles : Settles (course.read (values.take index)) (course.read (values.take (index + 1)))
      settled failures calls) {deeds : List Mutation}
    (added : (course.work values (index + 1)).deeds = (course.work values index).deeds ++ deeds) :
    Adds (course.point values index) (course.point values (index + 1)) deeds failures.toList calls :=
  (followed.answers admits (Nat.le_of_lt inside)).adds
    (followed.answers admits (Nat.succ_le_of_lt inside)) settles added

end Followed

end Course

namespace Renderer

/-- A call of a renderer tends a prepared bed, which is the same one for all values. -/
theorem Holding.exists_followed {config : Config} {renderer : Renderer (σ × List Deferred)}
    (holding : renderer.Holding Instance.Sown config) {sort : Template → Prop}
    {layout : Template → Stencil} (laid : Layout sort layout)
    (free : Open renderer.stage.document container (renderer.instance? container) old owned)
    {cell : Cell} (found : renderer.stage.document.cell? container = some cell)
    {environment : Environment σ} (yields : environment.Yields sort) (sorted : sort template)
    (world : σ) :
    ∃ (bed : Bed) (document : Document),
      Prepared container (renderer.instance? container) old owned template (layout template)
        renderer.stage.document bed document ∧
      (Course.mk renderer environment config layout container template world bed
        document.size).Followed sort (.vacated container cell) document := by
  obtain ⟨bed, document, prepared, answers⟩ :=
    holding.exists_tended laid free found yields.traced sorted (world, [])
  refine ⟨bed, document, prepared, ?_, fun {values} admits {count} early => ?_⟩
  · rw [prepared.laid]
    simp [Stencil.blueprint]
  · rw [Course.work, Course.read, take_settling environment.traced config _ admits.enough early]
    exact answers (values.take count) (Value.proper_take admits.proper count)

/-- Two results of one template that only differ in the value of one part.  Whatever happens there,
both calls return, and come to the same but for what this part shows and for the numbers of nodes that
are created.  The other parts take the same changes, report the same failures and invoke the same
computations. -/
theorem render_isolates_part {config : Config} {renderer : Renderer (σ × List Deferred)}
    (reached : renderer.Reached config) {container : NodeId}
    (has : renderer.stage.document.Has container) {environment : Environment σ}
    (yields : environment.Yields Template.Standard) {others own : Deferred → Prop} {view : σ → υ}
    (goes : environment.GoesBy others view) (leaves : environment.LeavesAlone own view)
    {template : Template} {values values' : List Value}
    (proper : (Value.template template values).Proper Template.Standard)
    (proper' : (Value.template template values').Proper Template.Standard) {index : Nat}
    (inside : index < template.blueprint.parts.length)
    (differ : DifferAt others own index values values') (world : σ) :
    let point (values : List Value) (count : Nat) :=
      renderer.renderUpTo environment.traced container ⟨template, values⟩ (world, []) count
    let outcome := renderer.render environment.traced container ⟨template, values⟩ (world, [])
    let outcome' := renderer.render environment.traced container ⟨template, values'⟩ (world, [])
    (∃ calls, Unmetered.render renderer environment.traced container ⟨template, values⟩
      (world, []) = some (outcome, calls)) ∧
    (∃ calls, Unmetered.render renderer environment.traced container ⟨template, values'⟩
      (world, []) = some (outcome', calls)) ∧
    ∃ (rename : NodeId → NodeId) (bed bed' : Bed),
      renderer.stage.document.Renumbers (point values index).2.1.stage.document
        (point values (index + 1)).2.1.stage.document rename ∧
      outcome.2.1.instance? container = some (bed.instance template) ∧
      outcome'.2.1.instance? container = some (bed'.instance template) ∧
      Planted outcome.2.1.stage.document container bed ∧
      Planted outcome'.2.1.stage.document container bed' ∧
      bed'.blank index = (bed.blank index).renumber rename ∧
      renderer.stage.document.SameAround outcome.2.1.stage.document outcome'.2.1.stage.document
        container ∧
      ∀ other < template.blueprint.parts.length, other ≠ index → ∃ deeds failures calls,
        Adds (point values other) (point values (other + 1)) deeds failures calls ∧
          Adds (point values' other) (point values' (other + 1))
            (deeds.map (Mutation.renumber rename)) failures calls := by
  intro point outcome outcome'
  obtain ⟨layout, laid⟩ :=
    exists_layout fun template (standard : template.Standard) => standard.compiled
  have holding := reached.arises.holding laid
  cases proper with
  | primitive shape => cases shape
  | template standard enough proper =>
  cases proper' with
  | primitive shape => cases shape
  | template _ enough' proper' =>
  obtain ⟨_, owned, free, within⟩ := holding.exists_open has
  obtain ⟨cell, found⟩ := has.exists_cell?
  obtain ⟨bed, document, prepared, followed⟩ :=
    holding.exists_followed laid free found yields standard world
  let course : Course σ :=
    ⟨renderer, environment, config, layout, container, template, world, bed, document.size⟩
  have admits : course.Admits Template.Standard values := ⟨enough, proper⟩
  have admits' : course.Admits Template.Standard values' := ⟨enough', proper'⟩
  -- The readings differ at the one part only, and so do the beds, but for numbers.
  obtain ⟨same, settles⟩ := exists_settled config (world, []) goes leaves differ enough enough'
  obtain ⟨blanks, deeds⟩ := followed.work_of_same_but prepared.worn (standard.distinct prepared.laid)
    (prepared.site cell found).has_parent admits admits' inside same
  have ends := (followed.answers admits (Nat.le_refl _)).tended
  have ends' := (followed.answers admits' (Nat.le_refl _)).tended
  rw [Course.point_length enough] at ends
  rw [Course.point_length enough'] at ends'
  refine ⟨Unmetered.exists_render .., Unmetered.exists_render .., _, _, _,
    followed.renumbers prepared.moves.grows admits admits' inside same, ends.instance?_self,
    ends'.instance?_self, ends.planted, ends'.planted, blanks _ (Nat.le_refl _),
    prepared.sameAround within ends.tilled.regrown ends'.tilled.regrown, fun other early apart => ?_⟩
  obtain ⟨deeds, added, added'⟩ := deeds other early apart
  obtain ⟨settled, failures, calls, settles, settles'⟩ := settles other early apart
  exact ⟨deeds, failures.toList, calls, followed.adds admits early settles added,
    followed.adds admits' early settles' added'⟩

/-- A deferred value that fails does not concern the attribute before it. -/
theorem render_isolates_part_seasoned :
    let result (value : Value) : TemplateResult := ⟨Template.lettered, [.deferred ⟨2⟩, value]⟩
    let point (value : Value) :=
      seasoned.renderUpTo Environment.paired.traced ⟨0⟩ (result value) (2, [])
    let outcome (value : Value) :=
      seasoned.render Environment.paired.traced ⟨0⟩ (result value) (2, [])
    ∃ (rename : NodeId → NodeId) (bed bed' : Bed),
      Planted (outcome (.deferred ⟨1⟩)).2.1.stage.document ⟨0⟩ bed ∧
      Planted (outcome (.text "c")).2.1.stage.document ⟨0⟩ bed' ∧
      bed'.blank 1 = (bed.blank 1).renumber rename ∧ ∃ deeds failures calls,
        Adds (point (.deferred ⟨1⟩) 0) (point (.deferred ⟨1⟩) 1) deeds failures calls ∧
          Adds (point (.text "c") 0) (point (.text "c") 1) (deeds.map (Mutation.renumber rename))
            failures calls := by
  have has : seasoned.stage.document.Has ⟨0⟩ := by
    change 0 < seasoned.stage.document.size
    decide +kernel
  have proper {value : Value} (proper : value.Proper Template.Standard) :=
    Template.proper_lettered (.deferred ⟨2⟩) proper
  have differ : DifferAt (·.number % 2 = 0) (·.number % 2 = 1) 1 [.deferred ⟨2⟩, .deferred ⟨1⟩]
      [.deferred ⟨2⟩, .text "c"] := by
    constructor
    case same => rintro (_ | _ | other) apart <;> simp_all
    case outside =>
      rintro (_ | _ | other) value apart given
      · cases given
        exact .deferred rfl
      · exact absurd rfl apart
      · cases given
    case inside =>
      rintro value given
      cases given
      exact .deferred rfl
    case inside' =>
      rintro value given
      cases given
      exact .primitive rfl
  obtain ⟨-, -, rename, bed, bed', -, -, -, planted, planted', same, -, parts⟩ :=
    render_isolates_part reached_seasoned has Environment.yields_paired Environment.goesBy_paired
      Environment.leavesAlone_paired (proper (.deferred ⟨1⟩)) (proper (.primitive rfl))
      Nat.one_lt_two differ 2
  exact ⟨rename, bed, bed', planted, planted', same, parts 0 Nat.two_pos Nat.zero_ne_one⟩

end Renderer

end LiveMarkup
