import LiveMarkup.Proofs.Holding
import LiveMarkup.Proofs.Nesting

/-! # Independence of history

What a renderer shows for a result, reports and invokes does not depend on what it has rendered and
released before.

The invariant (`Kept`) ties what the renderer remembers to the document.  Each step keeps it, so after
any history a call of the renderer leaves what is read for the result, as it does in a new renderer. -/

namespace LiveMarkup

open Document Markup

variable {σ τ : Type}

namespace Renderer

/-- In every container that the renderer holds, the instance lives that it remembers. -/
abbrev Kept (config : Config) (renderer : Renderer σ) : Prop :=
  renderer.Holding Instance.Fits config

/-! ## Steps -/

namespace Kept

variable {config : Config} {renderer : Renderer σ} {container : NodeId}

/-- An existing container can be rendered into, whatever lives there. -/
theorem exists_ready (kept : renderer.Kept config) (has : renderer.stage.document.Has container) :
    ∃ owned, Ready renderer.stage.document container (renderer.instance? container) owned ∧
      ∀ node, owned node → renderer.stage.document.Inside container node := by
  cases held : renderer.instance? container with
  | none => exact ⟨_, .bare has kept.sound, fun node member => .child member⟩
  | some inner =>
    obtain ⟨grove, lives⟩ := kept.lives container inner held
    exact ⟨_, .housed lives, fun node => Dwells.inside_iff lives.2 |>.mpr⟩

theorem render (kept : renderer.Kept config) (has : renderer.stage.document.Has container)
    (apart : renderer.Apart container) {environment : Environment σ}
    (yields : environment.Yields Template.Standard) {template : Template} {values : List Value}
    (proper : (Value.template template values).Proper Template.Standard) (world : σ) :
    (renderer.render environment container ⟨template, values⟩ world).2.1.Kept config := by
  obtain ⟨owned, ready, inside⟩ := kept.exists_ready has
  obtain ⟨-, -, whole, inner, grove, same, lives, -, moves, fresh⟩ :=
    render_rehouses yields.alike kept.plain kept.whole (fun _ => Template.Standard.exists_stencil)
      ready proper world world rfl
  rw [same]
  refine kept.step apart (some inner) inside whole moves fun other held => ?_
  cases held
  exact ⟨grove, lives.1, lives.2, fresh⟩

theorem release (kept : renderer.Kept config) (container : NodeId) :
    (renderer.release container).2.Kept config :=
  Holding.release kept (fun fits _ _ site => fits.performs_detach site) container

end Kept

/-! ## Histories -/

/-- The states of a renderer that renders and releases in any order, without strategies of its own
and with templates of the standard parser.  Its document may change where the renderer holds
nothing, and no container is ever inside another. -/
inductive Reached (config : Config) : Renderer σ → Prop where
  | fresh {document : Document} (built : Document.empty.Edits document) :
      Reached config (.fresh config document)
  | elsewhere {renderer : Renderer σ} (reached : Reached config renderer) {after : Document}
      (edits : renderer.stage.document.Edits after) (untouched : renderer.Untouched after)
      (journal : Array Event) :
      Reached config { renderer with stage := { renderer.stage with document := after, journal } }
  | render {renderer : Renderer σ} (reached : Reached config renderer) {container : NodeId}
      (has : renderer.stage.document.Has container) (apart : renderer.Apart container)
      {environment : Environment σ} (yields : environment.Yields Template.Standard)
      {template : Template} {values : List Value}
      (proper : (Value.template template values).Proper Template.Standard) (world : σ) :
      Reached config (renderer.render environment container ⟨template, values⟩ world).2.1
  | release {renderer : Renderer σ} (reached : Reached config renderer) (container : NodeId) :
      Reached config (renderer.release container).2

theorem Reached.kept {config : Config} {renderer : Renderer σ}
    (reached : renderer.Reached config) : renderer.Kept config := by
  induction reached with
  | fresh built => exact .fresh built
  | elsewhere _ edits untouched journal kept => exact kept.elsewhere edits untouched journal
  | render _ has apart yields proper world kept => exact kept.render has apart yields proper world
  | release _ container kept => exact kept.release container

end Renderer

/-! ## Rendering after a history -/

/-- The environment with a list of all computations that are invoked, in order. -/
def Environment.traced (environment : Environment σ) : Environment (σ × List Deferred) where
  invoke computation state :=
    let (reply, world) := environment.invoke computation state.1
    (reply, world, state.2 ++ [computation])

namespace Environment.Alike

variable {sort : Template → Prop} {related : σ → τ → Prop} {environment : Environment σ}
  {other : Environment τ}

theorem traced (alike : environment.Alike sort related other) :
    environment.traced.Alike sort (fun state state' => related state.1 state'.1 ∧
      state.2 = state'.2) other.traced where
  outcome computation _ _ agree := alike.outcome computation _ _ agree.1
  proper computation _ _ agree := alike.proper computation _ _ agree.1
  next computation _ _ agree :=
    ⟨alike.next computation _ _ agree.1, congrArg (· ++ [computation]) agree.2⟩

/-- The second environment behaves like itself from all states that are related to one of the
first. -/
theorem right (alike : environment.Alike sort related other) :
    other.Alike sort (fun world world' => world = world' ∧ ∃ before, related before world) other where
  outcome := by
    rintro computation world _ ⟨rfl, -⟩
    rfl
  proper := by
    rintro computation world _ ⟨rfl, before, agree⟩ value reply
    exact alike.proper computation before world agree value
      ((alike.outcome computation before world agree).trans reply)
  next := by
    rintro computation world _ ⟨rfl, before, agree⟩
    exact ⟨rfl, _, alike.next computation before world agree⟩

end Environment.Alike

/-- A renderer with any history shows, reports and invokes the same for a result as a new one. -/
theorem render_independent_of_history {config : Config} {related : σ → τ → Prop}
    {environment : Environment σ} {other : Environment τ}
    (alike : environment.Alike Template.Standard related other)
    {renderer : Renderer (σ × List Deferred)} (reached : renderer.Reached config)
    {container : NodeId} (has : renderer.stage.document.Has container) {document : Document}
    (built : Document.empty.Edits document) {place : NodeId} (hasPlace : document.Has place)
    {template : Template} {values : List Value}
    (proper : (Value.template template values).Proper Template.Standard) {world : σ} {world' : τ}
    (agree : related world world') :
    let later := renderer.render environment.traced container ⟨template, values⟩ (world, [])
    let first := (Renderer.fresh config document).render other.traced place ⟨template, values⟩
      (world', [])
    later.2.1.stage.document.forest container = first.2.1.stage.document.forest place ∧
      later.1.diagnostics = first.1.diagnostics ∧ later.2.2.2 = first.2.2.2 := by
  let new : Renderer (τ × List Deferred) := .fresh config document
  have kept := reached.kept
  have keptNew : new.Kept config := .fresh built
  have hasNew : new.stage.document.Has place := hasPlace
  obtain ⟨_, ready, -⟩ := kept.exists_ready has
  obtain ⟨_, readyNew, -⟩ := keptNew.exists_ready hasNew
  -- Both calls do what one and the same reading does.
  obtain ⟨reports, same, -, _, _, -, lives, looks, -, -⟩ :=
    render_rehouses alike.traced kept.plain kept.whole
      (fun _ => Template.Standard.exists_stencil) ready proper (world, []) (world', [])
      ⟨agree, rfl⟩
  obtain ⟨reportsNew, sameNew, -, _, _, -, livesNew, looksNew, -, -⟩ :=
    render_rehouses alike.traced.right keptNew.plain keptNew.whole
      (fun _ => Template.Standard.exists_stencil) readyNew proper (world', []) (world', [])
      ⟨rfl, (world, []), agree, rfl⟩
  rw [kept.config] at reports same looks
  refine ⟨?_, ?_, ?_⟩
  · rw [lives.forest, looks]
    exact (livesNew.forest.trans looksNew).symm
  · exact reports.trans reportsNew.symm
  · exact same.2.trans (congrArg Prod.snd sameNew.1).symm

/-- A template of the standard parser with a dynamic attribute and an anchor. -/
def Template.lettered : Template where
  id := ⟨0, 1⟩
  literal := ⟨1⟩
  segments := ["<p x=", ">", "</p>"]
  blueprint :=
    { forest := [.element "p" none [] [.text ""]]
      parts := [.attribute { path := [0], name := "x", rawName := "x" }, .node [0, 0]] }

theorem Template.standard_lettered : Template.lettered.Standard :=
  ⟨Template.lettered.segments, by decide +kernel⟩

theorem Environment.Yields.traced {sort : Template → Prop} {environment : Environment σ}
    (yields : environment.Yields sort) : environment.traced.Yields sort :=
  fun computation state => yields computation state.1

theorem Template.proper_lettered {first second : Value} (proper : first.Proper Template.Standard)
    (also : second.Proper Template.Standard) :
    (Value.template Template.lettered [first, second]).Proper Template.Standard := by
  refine .template Template.standard_lettered rfl fun value member => ?_
  simp only [List.mem_cons, List.not_mem_nil, or_false] at member
  obtain rfl | rfl := member
  · exact proper
  · exact also

/-- A renderer that has shown a template within a template and has then been asked to release another
container. -/
def Renderer.seasoned : Renderer (Nat × List Deferred) :=
  let document := (Document.empty.create (.element "div" none [])).2
  let shown := (Renderer.fresh {} document).render Environment.counting.traced ⟨0⟩
    ⟨Template.lettered, [.deferred ⟨0⟩, .template Template.lettered [.text "a", .text "b"]]⟩ (0, [])
  (shown.2.1.release ⟨1⟩).2

theorem Renderer.reached_seasoned : Renderer.seasoned.Reached {} := by
  have text (data : String) : (Value.text data).Proper Template.Standard := .primitive rfl
  have inner := Template.proper_lettered (text "a") (text "b")
  have deferred : (Value.deferred ⟨0⟩).Proper Template.Standard := .deferred _
  have built : Document.empty.Edits (Document.empty.create (.element "div" none [])).2 :=
    .create .refl _
  have start : Renderer.Reached {} (Renderer.fresh {} _ : Renderer (Nat × List Deferred)) :=
    .fresh built
  have shown := start.render Nat.one_pos (fun _ holds => nomatch holds)
    Environment.yields_counting.traced (Template.proper_lettered deferred inner) (0, [])
  exact shown.release ⟨1⟩

theorem render_independent_of_history_seasoned :
    let document := (Document.empty.create (.element "body" none [])).2
    let result : TemplateResult := ⟨Template.lettered, [.text "c", .deferred ⟨1⟩]⟩
    let later := Renderer.seasoned.render Environment.counting.traced ⟨0⟩ result (2, [])
    let first := (Renderer.fresh {} document).render Environment.counting.traced ⟨0⟩ result (2, [])
    later.2.1.stage.document.forest ⟨0⟩ = first.2.1.stage.document.forest ⟨0⟩ ∧
      later.1.diagnostics = first.1.diagnostics ∧ later.2.2.2 = first.2.2.2 := by
  have has : Renderer.seasoned.stage.document.Has ⟨0⟩ := by
    change 0 < Renderer.seasoned.stage.document.size
    decide +kernel
  exact render_independent_of_history Environment.yields_counting.alike Renderer.reached_seasoned has
    (.create .refl _) Nat.one_pos
    (Template.proper_lettered (.primitive rfl) (.deferred _)) rfl

end LiveMarkup
