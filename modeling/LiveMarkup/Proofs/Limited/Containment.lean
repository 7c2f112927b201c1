import LiveMarkup.Proofs.Limited.Refusal

/-! # Failed instantiation is contained

On a stage that hides all but the first children of every node, a template that has a part behind a
hidden child cannot be instantiated.  Where it is to be rendered itself, its container is left
empty.  Where it is the content of a part, that part is left empty and all others are updated as if
the empty value had been given for it (`Renderer.contains_missing`).

Nodes that exist already keep their numbers.  So the instances in all other containers are the same
ones afterwards, whatever copies were left behind. -/

namespace LiveMarkup

open Document Markup

variable {σ : Type} {limit count : Nat} {rename : NodeId → NodeId}

/-! ## The same numbers -/

mutual

theorem Instance.renumber_id : ∀ inner : Instance σ, inner.renumber id = inner
  | .mk _ _ bindings => by
    rw [Instance.renumber, List.map_id, Binding.renumberAll_id bindings]

theorem Binding.renumber_id : ∀ binding : Binding σ, binding.renumber id = binding
  | .attribute _ => rfl
  | .outlet outlet => congrArg Binding.outlet (Outlet.renumber_id outlet)

theorem Binding.renumberAll_id : ∀ bindings : List (Binding σ),
    Binding.renumberAll id bindings = bindings
  | [] => rfl
  | binding :: bindings => by
    rw [Binding.renumberAll, Binding.renumber_id binding, Binding.renumberAll_id bindings]

theorem Outlet.renumber_id : ∀ outlet : Outlet σ, outlet.renumber id = outlet
  | .vacant _ => rfl
  | .text _ _ => rfl
  | .nested anchor inner => congrArg (Outlet.nested anchor) (Instance.renumber_id inner)
  | .items anchor outlets => congrArg (Outlet.items anchor) (Outlet.renumberAll_id outlets)

theorem Outlet.renumberAll_id : ∀ outlets : List (Outlet σ),
    Outlet.renumberAll id outlets = outlets
  | [] => rfl
  | outlet :: outlets => by
    rw [Outlet.renumberAll, Outlet.renumber_id outlet, Outlet.renumberAll_id outlets]

end

/-- A tame instance stays as it is when the known nodes keep their numbers. -/
theorem Instance.Tame.renumber_eq {known : NodeId → Prop} {inner : Instance σ}
    (tame : inner.Tame limit known) (same : ∀ node, known node → rename node = node) :
    inner.renumber rename = inner :=
  (@Instance.Tame.renumber_congr σ limit known id rename same inner tame).trans inner.renumber_id

/-- From nodes with other numbers on, a document looks the same, as far down as is looked. -/
theorem Document.Matches.treeTo {document other : Document} (same : document.Matches rename other)
    (levels : Nat) (node : NodeId) :
    other.treeTo levels (rename node) = document.treeTo levels node := by
  induction levels generalizing node with
  | zero => rfl
  | succ levels ih =>
    rw [Document.treeTo, Document.treeTo, same node]
    cases document.cell? node with
    | none => rfl
    | some cell =>
      obtain ⟨data, parent, children⟩ := cell
      cases data with
      | element name space attributes =>
        simp [Cell.renumber, ih]
      | text data => rfl
      | comment data => rfl

namespace Instance

variable (strategies : List (Strategy σ)) {template : Template} (compiled : template.Compiled)
  {stage : Stage} (limited : stage.shortcomings = .showing limit)

include compiled limited

theorem make_eq_ok_iff : (∃ inner, ((make strategies template).run stage).1 = .ok inner) ↔
    ∀ part ∈ template.blueprint.parts, ¬ part.Beyond limit := by
  rw [← Template.missing?_eq_none_iff]
  constructor
  · rintro ⟨inner, made⟩
    by_contra missing
    obtain ⟨⟨index, path⟩, missing⟩ := Option.ne_none_iff_exists'.mp missing
    rw [make_of_missing strategies compiled limited missing] at made
    cases made
  · intro near
    obtain ⟨inner, made, -⟩ := make_of_near strategies compiled limited near
    exact ⟨inner, made⟩

theorem make_eq_error_iff {index : Nat} {error : ResolutionError} :
    ((make strategies template).run stage).1 = .error (index, error) ↔
      ∃ part, Part.FirstBeyond limit template.blueprint.parts index part ∧
        error = .noNode part.path := by
  constructor
  · intro failed
    cases missing : template.missing? limit with
    | none =>
      obtain ⟨inner, made, -⟩ := make_of_near strategies compiled limited missing
      rw [made] at failed
      cases failed
    | some missed =>
      rw [make_of_missing strategies compiled limited missing] at failed
      cases failed
      obtain ⟨part, first, same⟩ := Template.missing?_eq_some_iff.mp missing
      exact ⟨part, first, congrArg _ same.symm⟩
  · rintro ⟨part, first, rfl⟩
    rw [make_of_missing strategies compiled limited
      (Template.missing?_eq_some_iff.mpr ⟨part, first, rfl⟩)]

end Instance

namespace Renderer

/-! ## Renderers that revise values -/

/-- Renders a result as `renderInto` does, but goes on with revised values in all content parts. -/
def renderIntoWith (revise : Revision σ) (setting : Setting σ) (container : NodeId)
    (previous : Option (Instance σ)) (result : TemplateResult) : RenderM σ (Option (Instance σ)) := do
  Stage.note .rendering
  match ← prepare setting container previous result.template with
  | some inner =>
    let room := setting.config.depthLimit + 1
    some <$> inner.update setting (Outlet.updateWith revise setting room) 0 result.values
  | none => pure none

/-- The renderer after a run of it, with the report and the state of the environment. -/
def conclude (renderer : Renderer σ) (container : NodeId)
    (ran : ((Option (Instance σ) × Array Diagnostic) × σ) × Stage) : RenderReport × Renderer σ × σ :=
  ({ diagnostics := ran.1.1.2.toList },
    { renderer with
      stage := ran.2
      instances := (ran.1.1.1.map (container, ·)).toList ++ without renderer.instances container },
    ran.1.2)

/-- Renders a result as `render` does, but goes on with revised values in all content parts. -/
def renderWith (revise : Revision σ) (renderer : Renderer σ) (environment : Environment σ)
    (container : NodeId) (result : TemplateResult) (world : σ) : RenderReport × Renderer σ × σ :=
  let setting : Setting σ :=
    { environment, config := renderer.config, strategies := renderer.strategies }
  renderer.conclude container
    ((((renderIntoWith revise setting container (renderer.instance? container) result).run #[]).run
      world).run renderer.stage)

theorem render_eq_conclude (renderer : Renderer σ) (environment : Environment σ) (container : NodeId)
    (result : TemplateResult) (world : σ) :
    let setting : Setting σ :=
      { environment, config := renderer.config, strategies := renderer.strategies }
    renderer.render environment container result world = renderer.conclude container
      ((((renderInto setting container (renderer.instance? container) result).run #[]).run world).run
        renderer.stage) :=
  rfl

/-- With all values as they are, this is rendering. -/
theorem renderWith_pure (renderer : Renderer σ) :
    renderer.renderWith (fun _ value => pure value) = renderer.render := by
  have same (setting : Setting σ) (container : NodeId) (previous : Option (Instance σ))
      (result : TemplateResult) :
      renderIntoWith (fun _ value => pure value) setting container previous result =
        renderInto setting container previous result :=
    congrArg (fun update => (do
      Stage.note .rendering
      match ← prepare setting container previous result.template with
      | some inner => some <$> inner.update setting update 0 result.values
      | none => pure none : RenderM σ (Option (Instance σ)))) (Outlet.updateWith_pure setting _)
  funext environment container result world
  rw [renderWith, same, render_eq_conclude]

/-! ## Rendering a template that no part is missing of -/

/-- An instance is there on both sides or on none. -/
def Corresponds (limit : Nat) (rename : NodeId → NodeId) (template : Template) (size : Nat)
    (inner? inner?' : Option (Instance σ)) : Prop :=
  inner?' = inner?.map (Instance.renumber rename) ∧ ∀ inner, inner? = some inner →
    inner.Tame limit (·.number < size) ∧ inner.template = template

/-- Roots are put into a container, one after the other. -/
theorem mirrors_appendAll {container : NodeId} (has : container.number < count) {roots : List NodeId}
    (known : ∀ root ∈ roots, root.number < count) :
    Mirrors limit rename count
      (roots.forM fun root => liftM (Stage.append container root) : RenderM σ Unit)
      ((roots.map rename).forM fun root => liftM (Stage.append (rename container) root))
      fun _ _ _ _ => True := by
  induction roots generalizing count with
  | nil => exact .pure fun _ _ => trivial
  | cons root roots ih =>
    obtain ⟨here, later⟩ := List.forall_mem_cons.mp known
    refine .perform (parallel_append has here) fun size _ _ more _ => ?_
    exact ih (Nat.lt_of_lt_of_le has more) fun root member =>
      Nat.lt_of_lt_of_le (later root member) more

section

variable {setting : Setting σ} (plain : setting.strategies = []) {template : Template}
  (near : template.missing? limit = none) {container : NodeId} (has : container.number < count)
  {previous : Option (Instance σ)}
  (tame : ∀ inner, previous = some inner → inner.Tame limit (·.number < count))

include plain near has tame

theorem mirrors_prepare :
    Mirrors limit rename count (prepare setting container previous template)
      (prepare setting (rename container) (previous.map (Instance.renumber rename)) template)
      (Corresponds limit · template · · ·) := by
  have kept : (previous.map (Instance.renumber rename)).filter (·.template = template) =
      (previous.filter (·.template = template)).map (Instance.renumber rename) := by
    rw [Option.filter_map]
    refine congrArg (Option.map _) (congrArg (Option.filter · previous) (funext fun inner => ?_))
    rw [Function.comp_apply, Instance.template_renumber]
  unfold prepare
  rw [kept, plain]
  cases found : previous.filter (·.template = template) with
  | some inner =>
    obtain ⟨held, same⟩ := Option.filter_eq_some_iff.mp found
    refine .noting (.pure fun _ more => ⟨rfl, ?_⟩)
    rintro _ ⟨⟩
    exact ⟨(tame inner held).later more, of_decide_eq_true same⟩
  | none =>
    refine .perform (parallel_evict container tame) fun size _ _ more _ => ?_
    refine .perform (parallel_make near) fun size' made made' more' both => ?_
    obtain ⟨rfl, makes⟩ := both
    obtain ⟨missing, error⟩ | inner := made
    · exact .noting (.reporting (.pure fun _ _ => ⟨rfl, nofun⟩))
    · obtain ⟨tame, made⟩ := makes inner rfl
      have here := Nat.lt_of_lt_of_le has (Nat.le_trans more more')
      dsimp only [Except.map]
      rw [Instance.roots_renumber]
      -- The numbering at the end is the same on the nodes that the new instance has.
      refine (mirrors_appendAll here tame.roots).bind fun rename' size'' _ _ more'' same _ => ?_
      refine .pure fun _ later => ⟨?_, ?_⟩
      · exact congrArg some (tame.renumber_congr same).symm
      · rintro _ ⟨⟩
        exact ⟨tame.later (Nat.le_trans more'' later), made⟩

/-- Rendering comes to the same as when every template in it that is missing a part is reported and
counts as empty. -/
theorem mirrors_renderInto (yields : setting.environment.Yields Template.Compiled)
    {values : List Value} (proper : ∀ value ∈ values, value.Proper Template.Compiled) :
    Mirrors limit rename count
      (renderIntoWith (emptyMissing limit) setting container previous ⟨template, values⟩)
      (renderInto setting (rename container) (previous.map (Instance.renumber rename))
        ⟨template, values⟩) (Corresponds limit · template · · ·) := by
  unfold renderIntoWith renderInto
  refine .noting ((mirrors_prepare plain near has tame).bind ?_)
  rintro rename' size made _ more - ⟨rfl, prepared⟩
  cases made with
  | none => exact .pure fun _ _ => ⟨rfl, nofun⟩
  | some inner =>
    obtain ⟨tame, made⟩ := prepared inner rfl
    have updates : OutletUpdate.Mirrors limit _ _ :=
      Outlet.mirrors_update yields plain (setting.config.depthLimit + 1)
    refine .map ((Instance.mirrors_update yields updates 0 tame proper).mono ?_)
    rintro rename'' size' inner' _ - - ⟨tame, same, rfl⟩ - -
    refine ⟨rfl, ?_⟩
    rintro _ ⟨⟩
    exact ⟨tame, same.trans made⟩

end

/-! ## Outcomes -/

/-- From a document on, two ways to render come to the same, but for the numbers of new nodes and for
new nodes that only the second one leaves, which no other node refers to. -/
structure SameOutcome (document : Document) (outcome other : RenderReport × Renderer σ × σ) : Prop where
  report : other.1 = outcome.1
  world : other.2.2 = outcome.2.2
  shows : ∃ rename : NodeId → NodeId, (∀ node, document.Has node → rename node = node) ∧
    outcome.2.1.stage.document.Embeds rename other.2.1.stage.document ∧
    ∀ container, other.2.1.instance? container =
      (outcome.2.1.instance? container).map (Instance.renumber rename)
  looks : ∀ node, document.Has node → ∀ levels,
    other.2.1.stage.document.treeTo levels node = outcome.2.1.stage.document.treeTo levels node

variable {config : Config} {renderer : Renderer σ}

/-- The instances afterwards are tame. -/
theorem Sturdy.tame_updated (sturdy : renderer.Sturdy limit config) {container : NodeId}
    {updated : Option (Instance σ)} {after : Document}
    (kept : ∀ node, renderer.stage.document.Has node → after.Has node)
    (tame : ∀ inner, updated = some inner → inner.Tame limit after.Has) (other : NodeId)
    (inner : Instance σ)
    (held : ((updated.map (container, ·)).toList ++ without renderer.instances container).lookup other =
      some inner) : inner.Tame limit after.Has := by
  rw [lookup_updated] at held
  split at held
  · exact tame inner held
  · exact (sturdy.tame other inner held).imp kept

/-- A template that no part is missing of is rendered, whatever is missing of those inside of it. -/
theorem Sturdy.spares (sturdy : renderer.Sturdy limit config) {container : NodeId}
    (has : renderer.stage.document.Has container) {template : Template}
    (near : template.missing? limit = none) {environment : Environment σ}
    (yields : environment.Yields Template.Compiled) {values : List Value}
    (proper : ∀ value ∈ values, value.Proper Template.Compiled) (world : σ) :
    let outcome := renderer.render environment container ⟨template, values⟩ world
    SameOutcome renderer.stage.document
        (renderer.renderWith (emptyMissing limit) environment container ⟨template, values⟩ world)
        outcome ∧
      outcome.2.1.Sturdy limit config := by
  let setting : Setting σ :=
    { environment, config := renderer.config, strategies := renderer.strategies }
  have unchanged : (renderer.instance? container).map (Instance.renumber id) =
      renderer.instance? container := by
    rw [funext Instance.renumber_id]
    exact Option.map_id'
  -- Both runs start from the renderer as it is, where the numbers are the same ones.
  have mirrors := @mirrors_renderInto σ limit renderer.stage.document.size id setting sturdy.plain
    template near container has (renderer.instance? container) (sturdy.tame container) yields values
    proper renderer.stage renderer.stage #[] #[] world world (Nat.le_refl _) sturdy.limited
    ⟨rfl, .refl sturdy.tidy⟩ rfl rfl
  rw [unchanged, id_eq] at mirrors
  rw [render_eq_conclude, renderWith]
  generalize (((renderInto setting container _ _).run #[]).run world).run renderer.stage = ran'
    at mirrors ⊢
  generalize (((renderIntoWith _ setting container _ _).run #[]).run world).run renderer.stage = ran
    at mirrors ⊢
  obtain ⟨reports, worlds, limited, grows, rename, same, embeds, renumbered, tame⟩ := mirrors
  have kept (node : NodeId) (known : renderer.stage.document.Has node) : ran'.2.document.Has node := by
    have moved := embeds.document.has_iff.mpr (Nat.lt_of_lt_of_le known grows)
    rwa [same node known] at moved
  constructor
  case left =>
    constructor
    case report => exact congrArg (fun reported => RenderReport.mk reported.toList) reports
    case world => exact worlds
    case shows =>
      refine ⟨rename, same, embeds.document, fun other => ?_⟩
      rw [instance?, instance?, conclude, conclude, lookup_updated, lookup_updated]
      split
      · exact renumbered
      · cases held : renderer.instances.lookup other with
        | none => rfl
        | some inner => exact congrArg some ((sturdy.tame other inner held).renumber_eq same).symm
    case looks =>
      intro node known levels
      have looks := embeds.document.cells.treeTo levels node
      rwa [same node known] at looks
  case right =>
    constructor
    case config => exact sturdy.config
    case plain => exact sturdy.plain
    case limited => exact embeds.shortcomings.trans limited
    case tidy => exact embeds.document.tidy_other
    case tame =>
      refine sturdy.tame_updated kept fun inner made => ?_
      obtain ⟨shown, held, rfl⟩ := Option.map_eq_some_iff.mp (renumbered.symm.trans made)
      exact (tame shown held).1.renumber fun _ => embeds.document.has_iff.mpr

/-! ## Histories -/

/-- A renderer that has not rendered anything into its document, of a stage that shows so many
children of a node. -/
def narrow (limit : Nat) (config : Config) (document : Document) : Renderer σ :=
  { Renderer.empty (.showing limit) config with
    stage := { Stage.empty (.showing limit) with document } }

/-- The states of a renderer that renders and releases in any order, without strategies of its own
and with templates of any parser, on a stage that shows so many children of a node.  In between, its
document may become any larger one in which only nodes that exist are referred to.  Operations on
nodes that exist keep a document so (`Document.Tidy.create` and those behind it). -/
inductive Limited (limit : Nat) (config : Config) : Renderer σ → Prop where
  | fresh {document : Document} (tidy : document.Tidy) :
      Limited limit config (.narrow limit config document)
  | elsewhere {renderer : Renderer σ} (reached : Limited limit config renderer) {after : Document}
      (grows : renderer.stage.document.size ≤ after.size) (tidy : after.Tidy)
      (journal : Array Event) :
      Limited limit config
        { renderer with stage := { renderer.stage with document := after, journal } }
  | render {renderer : Renderer σ} (reached : Limited limit config renderer) {container : NodeId}
      (has : renderer.stage.document.Has container) {environment : Environment σ}
      (yields : environment.Yields Template.Compiled) {template : Template} {values : List Value}
      (proper : (Value.template template values).Proper Template.Compiled) (world : σ) :
      Limited limit config (renderer.render environment container ⟨template, values⟩ world).2.1
  | release {renderer : Renderer σ} (reached : Limited limit config renderer) (container : NodeId) :
      Limited limit config (renderer.release container).2

/-- Releasing a container keeps it so, whether or not it holds anything. -/
theorem Sturdy.release (sturdy : renderer.Sturdy limit config) (container : NodeId) :
    (renderer.release container).2.Sturdy limit config := by
  cases held : renderer.instance? container with
  | none =>
    rw [Renderer.release, held]
    exact sturdy
  | some inner =>
    have released : (renderer.release container).2 = { renderer with
        stage := (inner.detach.run renderer.stage).2
        instances := without renderer.instances container } := by
      rw [Renderer.release, held]
      rfl
    obtain ⟨short, grows, embeds, -⟩ := (sturdy.tame container inner held).parallel_detach
      renderer.stage renderer.stage (Nat.le_refl _) ⟨rfl, .refl sturdy.tidy⟩
    rw [released]
    constructor
    case config => exact sturdy.config
    case plain => exact sturdy.plain
    case limited => exact short.trans sturdy.limited
    case tidy => exact embeds.document.tidy
    case tame =>
      exact @Sturdy.tame_updated σ limit config renderer sturdy container none _
        (fun _ known => Nat.lt_of_lt_of_le known grows) nofun

/-- In every state, all that is remembered is tame. -/
theorem Limited.sturdy (positive : 0 < limit) (reached : renderer.Limited limit config) :
    renderer.Sturdy limit config := by
  induction reached with
  | fresh tidy => exact ⟨rfl, rfl, rfl, tidy, nofun⟩
  | elsewhere _ grows tidy _ sturdy =>
    exact ⟨sturdy.config, sturdy.plain, sturdy.limited, tidy, fun container inner held =>
      (sturdy.tame container inner held).imp fun _ known => Nat.lt_of_lt_of_le known grows⟩
  | @render renderer _ container has environment yields template values proper world sturdy =>
    cases proper with
    | primitive shape => cases shape
    | template compiled _ inside =>
    cases missing : template.missing? limit with
    | none => exact (sturdy.spares has missing yields inside world).2
    | some missed =>
      obtain ⟨after, refuses, sturdy⟩ := sturdy.refuses positive has compiled missing
      rwa [refuses.renders]
  | release _ container sturdy => exact sturdy.release container

/-! ## Containment -/

/-- On a stage that shows at least one child of a node but hides all beyond a limit, an instance can
be made unless the path of some part has an index beyond the limit, other than its first one, and the
first such part is reported.

In every state of a renderer, rendering such a template leaves its container without children and
without an instance, whatever the values are, with one diagnostic, and so again when it is rendered
again.  The rendering of any other template comes to the same as if each such template inside of it
had been reported, at its depth, and had been replaced by the empty value. -/
theorem contains_missing (positive : 0 < limit) (config : Config) :
    (∀ (strategies : List (Strategy σ)) (template : Template), template.Compiled → ∀ stage : Stage,
      stage.shortcomings = .showing limit →
      let made : Except (Nat × ResolutionError) (Instance σ) :=
        ((Instance.make strategies template).run stage).1
      ((∃ inner, made = .ok inner) ↔ ∀ part ∈ template.blueprint.parts, ¬ part.Beyond limit) ∧
        ∀ index error, made = .error (index, error) ↔
          ∃ part, Part.FirstBeyond limit template.blueprint.parts index part ∧
            error = .noNode part.path) ∧
    ∀ renderer : Renderer σ, renderer.Limited limit config →
      ∀ container, renderer.stage.document.Has container → ∀ template, template.Compiled →
        (∀ index part, Part.FirstBeyond limit template.blueprint.parts index part →
          let diagnostic : Diagnostic := { part := index, depth := 0, error := .noNode part.path }
          ∃ after again, renderer.Refuses container template diagnostic after ∧
            after.Refuses container template diagnostic again) ∧
        ((∀ part ∈ template.blueprint.parts, ¬ part.Beyond limit) →
          ∀ environment : Environment σ, environment.Yields Template.Compiled →
          ∀ values, (∀ value ∈ values, value.Proper Template.Compiled) → ∀ world,
            SameOutcome renderer.stage.document
              (renderer.renderWith (emptyMissing limit) environment container ⟨template, values⟩ world)
              (renderer.render environment container ⟨template, values⟩ world)) := by
  refine ⟨fun strategies template compiled stage limited => ?_, fun renderer reached container has
    template compiled => ⟨fun index part first => ?_, fun near environment yields values proper world =>
      ?_⟩⟩
  · exact ⟨Instance.make_eq_ok_iff strategies compiled limited,
      fun index error => Instance.make_eq_error_iff strategies compiled limited⟩
  · have missing := Template.missing?_eq_some_iff.mpr ⟨part, first, rfl⟩
    obtain ⟨after, refuses, sturdy⟩ := (reached.sturdy positive).refuses positive has compiled missing
    have has' := Nat.lt_trans has refuses.size
    obtain ⟨again, refuses', -⟩ := sturdy.refuses positive has' compiled missing
    exact ⟨after, again, refuses, refuses'⟩
  · have near := Template.missing?_eq_none_iff.mpr near
    exact ((reached.sturdy positive).spares has near yields proper world).1

end Renderer

theorem Template.proper_pair {template : Template} (compiled : template.Compiled)
    (two : template.blueprint.parts.length = 2) {first second : Value}
    (proper : first.Proper Template.Compiled) (also : second.Proper Template.Compiled) :
    (Value.template template [first, second]).Proper Template.Compiled :=
  .template compiled two.symm (List.forall_mem_cons.mpr ⟨proper, List.forall_mem_singleton.mpr also⟩)

namespace Renderer

/-- A renderer on a stage that shows one child of a node, with a template in a container that was
given one that is missing a part. -/
def cramped : Renderer Nat :=
  let document := (Document.empty.create (.element "div" none [])).2
  ((narrow 1 {} document).render Environment.counting ⟨0⟩ ⟨Template.lettered,
    [.deferred ⟨0⟩, .template Template.labelled [.text "a", .text "b"]]⟩ 0).2.1

theorem limited_cramped : cramped.Limited 1 {} := by
  have text (data : String) : (Value.text data).Proper Template.Compiled := .primitive rfl
  have inner := Template.proper_pair Template.unambiguous_labelled.compiled rfl (text "a") (text "b")
  have start : Limited 1 {} (.narrow 1 {} _ : Renderer Nat) :=
    .fresh (Document.Tidy.empty.create (.element "div" none []))
  exact start.render Nat.one_pos Environment.yields_counting
    (Template.proper_pair Template.standard_lettered.compiled rfl (.deferred ⟨0⟩) inner) 0

/-- The second child of an element is not shown.  So a template with a part there is not rendered,
and it leaves an item empty that it is given for, between others that are updated. -/
theorem contains_missing_cramped :
    let diagnostic : Diagnostic := { part := 1, depth := 0, error := .noNode [0, 1] }
    let missing : Value := .template Template.labelled [.text "a", .text "b"]
    let result : TemplateResult :=
      ⟨Template.lettered, [.text "c", .items [.deferred ⟨0⟩, missing, .text "d"]]⟩
    let outcome := cramped.render Environment.counting ⟨0⟩ result 1
    (((Instance.make [] Template.labelled).run cramped.stage).1 :
      Except (Nat × ResolutionError) (Instance Nat)) = .error (1, .noNode [0, 1]) ∧
    (∃ after again, cramped.Refuses ⟨0⟩ Template.labelled diagnostic after ∧
      after.Refuses ⟨0⟩ Template.labelled diagnostic again) ∧
    SameOutcome cramped.stage.document
      (cramped.renderWith (emptyMissing 1) Environment.counting ⟨0⟩ result 1) outcome ∧
    outcome.1.diagnostics = [{ part := 1, depth := 2, error := .noNode [0, 1] }] ∧
    outcome.2.1.stage.document.innerHtml ⟨0⟩ = "<p x=\"c\">1d</p>" := by
  intro diagnostic missing result outcome
  have text (data : String) : (Value.text data).Proper Template.Compiled := .primitive rfl
  have compiled : Template.labelled.Compiled := Template.unambiguous_labelled.compiled
  have inner := Template.proper_pair compiled rfl (text "a") (text "b")
  have items : (Value.items [.deferred ⟨0⟩, missing, .text "d"]).Proper Template.Compiled :=
    .items (List.forall_mem_cons.mpr ⟨.deferred _, List.forall_mem_cons.mpr
      ⟨inner, List.forall_mem_singleton.mpr (text "d")⟩⟩)
  have first : Part.FirstBeyond 1 Template.labelled.blueprint.parts 1 (.node [0, 1]) := by
    refine ⟨rfl, by decide, fun earlier less other found => ?_⟩
    obtain rfl := Nat.lt_one_iff.mp less
    cases found
    decide
  obtain ⟨makes, contains⟩ := @contains_missing Nat 1 Nat.one_pos {}
  have limited : cramped.stage.shortcomings = .showing 1 := by decide +kernel
  have has : cramped.stage.document.Has ⟨0⟩ := by
    change 0 < cramped.stage.document.size
    decide +kernel
  obtain ⟨refuses, -⟩ := contains cramped limited_cramped ⟨0⟩ has Template.labelled compiled
  obtain ⟨-, spares⟩ :=
    contains cramped limited_cramped ⟨0⟩ has Template.lettered Template.standard_lettered.compiled
  refine ⟨?_, refuses 1 _ first, ?_, by decide +kernel, by decide +kernel⟩
  · exact ((makes [] Template.labelled compiled cramped.stage limited).2 1 _).mpr ⟨_, first, rfl⟩
  · exact spares (by decide) Environment.counting Environment.yields_counting _
      (List.forall_mem_cons.mpr ⟨text "c", List.forall_mem_singleton.mpr items⟩) 1

end Renderer

end LiveMarkup
