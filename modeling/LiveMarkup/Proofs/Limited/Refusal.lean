import LiveMarkup.Proofs.Limited.Emptying
import LiveMarkup.Proofs.Returning

/-! # Rendering a template that is missing a part

On a stage that shows at least one child of a node, a container is emptied before an instance is made
for it.  Where none can be made it stays empty, and the renderer goes on with no instance for it
(`Renderer.Sturdy.refuses`).

No instance of the template is there already, since all that a renderer remembers is tame
(`Renderer.Sturdy`).  So it takes a new one, and nothing is done with the values before that fails.
-/

namespace LiveMarkup

open Document Markup

variable {σ : Type} {limit index : Nat} {path : Path}

/-! ## Emptying -/

theorem Stage.firstChild_of_limited (positive : 0 < limit) {stage : Stage}
    (limited : stage.shortcomings = .showing limit) (container : NodeId) :
    stage.firstChild container = (stage.document.children container).head? := by
  rw [Stage.firstChild, Stage.child, limited, List.head?_eq_getElem?]
  exact if_pos (decide_eq_true positive)

namespace Renderer

variable (positive : 0 < limit) {container : NodeId} {stage : Stage}
  (limited : stage.shortcomings = .showing limit)

include positive limited

/-- A container whose first child can be seen is emptied. -/
theorem children_sweep (sound : stage.document.Sound) {rounds : Nat}
    (enough : (stage.document.children container).length ≤ rounds) :
    ((sweep container rounds).run stage).2.document.children container = [] := by
  induction rounds generalizing stage with
  | zero => exact List.length_eq_zero_iff.mp (Nat.le_zero.mp enough)
  | succ rounds ih =>
    rw [run_sweep]
    cases first : stage.firstChild container with
    | none =>
      rw [Stage.firstChild_of_limited positive limited] at first
      exact List.head?_eq_none_iff.mp first
    | some child =>
      have member := Stage.mem_children_of_firstChild first
      have removed : ((Stage.remove child).run stage).2 =
          { stage with document := stage.document.remove child } := by
        rw [Stage.run_remove, limited]
        exact if_neg Bool.false_ne_true
      -- The container is the parent of its first child, so removing the child does take it away.
      have gone : ((Stage.remove child).run stage).2.firstChild container ≠ some child := by
        intro stays
        have children : (stage.document.remove child).children container = _ :=
          stage.document.children_detach child container
        have member' := Stage.mem_children_of_firstChild stays
        rw [removed, children, if_pos (sound container child member)] at member'
        simp at member'
      have fewer := Stage.fewer_of_remove first gone
      dsimp only
      rw [if_neg gone]
      refine ih ?_ ?_ (Nat.le_of_lt_succ (Nat.lt_of_lt_of_le fewer enough))
      · rw [removed]
        exact limited
      · rw [removed]
        exact sound.detach.congr (fun _ => rfl) fun _ => rfl

/-- What lived in a container is taken away, and then everything else that is in it. -/
theorem emptied_evict (container : NodeId) (tidy : stage.document.Tidy) {previous : Option (Instance σ)}
    (tame : ∀ inner, previous = some inner → inner.Tame limit stage.document.Has) :
    let emptied : Stage := ((evict container previous).run stage).2
    emptied.shortcomings = .showing limit ∧ stage.document.size ≤ emptied.document.size ∧
      emptied.document.Tidy ∧ emptied.document.children container = [] := by
  obtain ⟨short, grows, embeds, -⟩ :=
    @parallel_evict σ limit stage.document.size id container previous tame stage stage (Nat.le_refl _)
      ⟨rfl, .refl tidy⟩
  refine ⟨short.trans limited, grows, embeds.document.tidy, ?_⟩
  cases previous with
  | none => exact children_sweep positive limited tidy.sound (Nat.le_refl _)
  | some inner =>
    let noted : Stage := { stage with journal := stage.journal.push .instanceReplaced }
    obtain ⟨short, -, embeds, -⟩ :=
      (tame inner rfl).parallel_detach noted noted (Nat.le_refl _) ⟨rfl, .refl tidy⟩
    exact children_sweep positive (short.trans limited) embeds.document.tidy.sound (Nat.le_refl _)

end Renderer

/-! ## Refusing -/

/-- A copy of a template that is missing a part has nodes. -/
theorem Instance.size_lt_copied {template : Template} (compiled : template.Compiled) {stage : Stage}
    (missing : template.missing? limit = some (index, path)) :
    stage.document.size < (copied template stage).2.document.size := by
  obtain ⟨part, first, -⟩ := Template.missing?_eq_some_iff.mp missing
  obtain ⟨stencil, layout⟩ := compiled.exists_stencil
  obtain ⟨-, -, raised⟩ := stencil.copied stage
  have member := List.mem_of_getElem? first.found
  rw [layout] at member
  obtain ⟨-, tree, -, -, leads, -⟩ :=
    Stencil.exists_copy (stencil.copies_sow none [] 0 stage.document.size) member
  have inside := Grove.root_mem_nodes leads
  have new := raised.added.fresh _ inside
  have known := raised.added.bears.has inside
  rw [copied, layout]
  exact Nat.lt_of_le_of_lt (Nat.not_lt.mp new) known

namespace Renderer

variable {setting : Setting σ} {container : NodeId}

/-- What a renderer holds on a stage that shows so many children of a node. -/
structure Sturdy (limit : Nat) (config : Config) (renderer : Renderer σ) : Prop where
  config : renderer.config = config
  plain : renderer.strategies = []
  limited : renderer.stage.shortcomings = .showing limit
  tidy : renderer.stage.document.Tidy
  tame : ∀ container inner, renderer.instance? container = some inner →
    inner.Tame limit renderer.stage.document.Has

/-- Nothing is shown in a container, whatever the values are and the environment is: what was there is
gone, a copy of the template is left that no other node refers to, and there is one diagnostic. -/
structure Refuses (renderer : Renderer σ) (container : NodeId) (template : Template)
    (diagnostic : Diagnostic) (after : Renderer σ) : Prop where
  /-- Nothing is invoked, since the world stays as it is. -/
  renders : ∀ (environment : Environment σ) (values : List Value) (world : σ),
    renderer.render environment container ⟨template, values⟩ world = (⟨[diagnostic]⟩, after, world)
  forgotten : after.instance? container = none
  others : ∀ other, other ≠ container → after.instance? other = renderer.instance? other
  children : after.stage.document.children container = []
  /-- The container is emptied.  Then only the nodes of a copy are new, and only these are changed. -/
  copied : ∃ emptied : Stage,
    ((evict container (renderer.instance? container)).run
      { renderer.stage with journal := renderer.stage.journal.push .rendering }).2 = emptied ∧
    after.stage.document = (Instance.copied template emptied).2.document ∧
    emptied.document.Grows after.stage.document
  /-- The copy is made each time. -/
  size : renderer.stage.document.size < after.stage.document.size

/-- Where no instance can be made, that is reported, and the container is emptied all the same. -/
theorem run_renderInto_missing {template : Template} (compiled : template.Compiled)
    (missing : template.missing? limit = some (index, path)) {previous : Option (Instance σ)}
    (other : ∀ inner, previous = some inner → inner.template ≠ template) {stage emptied after : Stage}
    (evicts : ((evict container previous).run
      { stage with journal := stage.journal.push .rendering }).2 = emptied)
    (limited : emptied.shortcomings = .showing limit)
    (copies : (Instance.copied template emptied).2 = after) (values : List Value)
    (reported : Array Diagnostic) (world : σ) :
    let diagnostic : Diagnostic := { part := index, depth := 0, error := .noNode path }
    (((renderInto setting container previous ⟨template, values⟩).run reported).run world).run stage =
      (((none, reported.push diagnostic), world),
        { after with
          journal := (after.journal.push .instanceMissing).push (.reported diagnostic) }) := by
  intro diagnostic
  have none_left : previous.filter (·.template = template) = none := by
    cases previous with
    | none => rfl
    | some inner => exact if_neg (by simpa using other inner rfl)
  have failed := Instance.make_of_missing setting.strategies compiled limited missing
  have prepares : (((prepare setting container previous template).run reported).run world).run
      { stage with journal := stage.journal.push .rendering } =
      (((none, reported.push diagnostic), world),
        { after with
          journal := (after.journal.push .instanceMissing).push (.reported diagnostic) }) := by
    unfold prepare
    rw [none_left]
    subst evicts copies
    exact (run_perform rfl reported world).trans (run_perform failed reported world)
  unfold renderInto
  refine (run_perform rfl reported world).trans ?_
  rw [StateT.run_bind, StateT.run_bind, StateT.run_bind, prepares]
  rfl

/-- A template that is missing a part is not rendered. -/
theorem Sturdy.refuses {config : Config} {renderer : Renderer σ}
    (sturdy : renderer.Sturdy limit config) (positive : 0 < limit)
    (has : renderer.stage.document.Has container) {template : Template} (compiled : template.Compiled)
    (missing : template.missing? limit = some (index, path)) :
    ∃ after : Renderer σ,
      renderer.Refuses container template { part := index, depth := 0, error := .noNode path } after ∧
        after.Sturdy limit config := by
  let previous := renderer.instance? container
  let noted : Stage := { renderer.stage with journal := renderer.stage.journal.push .rendering }
  let diagnostic : Diagnostic := { part := index, depth := 0, error := .noNode path }
  have limited : noted.shortcomings = .showing limit := sturdy.limited
  have evicted := emptied_evict positive limited container sturdy.tidy (sturdy.tame container)
  -- What was shown is taken out first, and only then is the template copied.
  generalize evicts : ((evict container previous).run noted).2 = emptied at evicted
  obtain ⟨short, grows, tidy, children⟩ := evicted
  have grown := Instance.grows_copied compiled short tidy
  have larger := @Instance.size_lt_copied limit index path template compiled emptied missing
  generalize copies : (Instance.copied template emptied).2 = copy at grown larger
  obtain ⟨short', grown⟩ := grown
  have lookup := lookup_updated (σ := σ) none renderer.instances container
  have other (inner : Instance σ) (held : previous = some inner) : inner.template ≠ template :=
    (sturdy.tame container inner held).template_ne missing
  refine ⟨{ renderer with
    stage := { copy with
      journal := (copy.journal.push .instanceMissing).push (.reported diagnostic) }
    instances := without renderer.instances container }, ?_, ?_⟩
  · constructor
    case renders =>
      intro environment values world
      unfold render
      dsimp only
      rw [run_renderInto_missing compiled missing other evicts short copies values #[] world]
      rfl
    case forgotten => exact (lookup container).trans (if_pos rfl)
    case others => exact fun other apart => (lookup other).trans (if_neg apart)
    case children =>
      have same := grown.kept container (Nat.lt_of_lt_of_le has grows)
      rw [Document.children] at children ⊢
      rwa [same]
    case copied => exact ⟨emptied, evicts, by rw [copies], grown⟩
    case size => exact Nat.lt_of_le_of_lt grows larger
  · constructor
    case config => exact sturdy.config
    case plain => exact sturdy.plain
    case limited => exact short'.trans short
    case tidy => exact grown.tidy
    case tame =>
      intro other inner held
      have kept := (lookup other).symm.trans held
      split at kept
      · cases kept
      · exact (sturdy.tame other inner kept).imp fun _ known =>
          Nat.lt_of_lt_of_le known (Nat.le_trans grows grown.size)

end Renderer

end LiveMarkup
