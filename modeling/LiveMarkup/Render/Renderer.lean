import LiveMarkup.Render.Update

/-! # Renderers

A renderer owns a stage and remembers which instance lives in which container.  Rendering a result
into a container brings the instance there up to date if it is of the same template, and else
replaces whatever is in the container. -/

namespace LiveMarkup

variable {σ : Type}

structure Renderer (σ : Type) where
  stage : Stage
  config : Config
  strategies : List (Strategy σ)
  instances : List (NodeId × Instance σ)

/-- What went wrong while rendering.  The parts it happened in are empty. -/
structure RenderReport where
  diagnostics : List Diagnostic
  deriving DecidableEq, Repr

/-- Whether every part shows its value. -/
def RenderReport.isClean (report : RenderReport) : Bool :=
  report.diagnostics.isEmpty

namespace Renderer

def empty (shortcomings : Shortcomings) (config : Config) : Renderer σ :=
  { stage := .empty shortcomings, config, strategies := [], instances := [] }

/-- Registers a strategy, which is asked after those before it.  Instances that exist already keep
their strategies. -/
def addStrategy (renderer : Renderer σ) (strategy : Strategy σ) : Renderer σ :=
  { renderer with strategies := renderer.strategies ++ [strategy] }

def instance? (renderer : Renderer σ) (container : NodeId) : Option (Instance σ) :=
  renderer.instances.lookup container

/-- The template of the instance in a container. -/
def template? (renderer : Renderer σ) (container : NodeId) : Option Template :=
  (renderer.instance? container).map (·.template)

/-- The instances without that of the given container. -/
def without (instances : List (NodeId × Instance σ)) (container : NodeId) :
    List (NodeId × Instance σ) :=
  instances.filter (·.1 != container)

/-- Removes the children of a container, at most the given number of them.  It gives up on a child
that stays. -/
def sweep (container : NodeId) : Nat → StageM Unit
  | 0 => pure ()
  | count + 1 => do
    match (← get).firstChild container with
    | none => pure ()
    | some child =>
      Stage.remove child
      if (← get).firstChild container = some child then Stage.note (.notRemoved child)
      else sweep container count

/-- Empties a container that holds an instance of another template or none. -/
def evict (container : NodeId) (previous : Option (Instance σ)) : StageM Unit := do
  match previous with
  | some previous =>
    Stage.note .instanceReplaced
    previous.detach
  | none => pure ()
  sweep container ((← get).document.children container).length

/-- The instance to be updated in a container: the one that is there if it is of the given template,
else a new one.  Where a new one cannot be made there is none. -/
def prepare (setting : Setting σ) (container : NodeId) (previous : Option (Instance σ))
    (template : Template) : RenderM σ (Option (Instance σ)) := do
  match previous.filter (·.template = template) with
  | some inner =>
    Stage.note .instanceUpdated
    pure (some inner)
  | none =>
    evict container previous
    match ← Instance.make setting.strategies template with
    | .ok inner =>
      inner.roots.forM fun root => Stage.append container root
      pure (some inner)
    | .error (part, error) =>
      Stage.note .instanceMissing
      report part 0 error
      pure none

/-- Renders a result into a container in which the given instance lives, and gives the instance that
lives there afterwards. -/
def renderInto (setting : Setting σ) (container : NodeId) (previous : Option (Instance σ))
    (result : TemplateResult) : RenderM σ (Option (Instance σ)) := do
  Stage.note .rendering
  match ← prepare setting container previous result.template with
  | some inner =>
    let room := setting.config.depthLimit + 1
    some <$> inner.update setting (Outlet.update setting room) 0 result.values
  | none => pure none

/-- Renders a result into a container.  The environment goes from the given state to another. -/
def render (renderer : Renderer σ) (environment : Environment σ) (container : NodeId)
    (result : TemplateResult) (world : σ) : RenderReport × Renderer σ × σ :=
  let setting : Setting σ :=
    { environment, config := renderer.config, strategies := renderer.strategies }
  let previous := renderer.instance? container
  let (((inner, diagnostics), world), stage) :=
    renderInto setting container previous result |>.run #[] |>.run world |>.run renderer.stage
  let others := without renderer.instances container
  let instances := (inner.map (container, ·)).toList ++ others
  ({ diagnostics := diagnostics.toList }, { renderer with stage, instances }, world)

/-- Removes the instance in a container and its output.  Tells whether there was one. -/
def release (renderer : Renderer σ) (container : NodeId) : Bool × Renderer σ :=
  match renderer.instance? container with
  | some inner =>
    let ((), stage) := inner.detach.run renderer.stage
    (true, { renderer with stage, instances := without renderer.instances container })
  | none => (false, renderer)

end Renderer

end LiveMarkup
