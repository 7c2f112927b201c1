import LiveMarkup.Render.Strategy

/-! # Instances

An instance is a copy of a template's forest in a document, with every part bound to its node in
that copy: an attribute to its element, and content to an outlet.

An outlet owns an anchor, a text node that is empty unless the content is a text, and what has been
put behind the anchor: another instance, or a run of outlets with anchors of their own. -/

namespace LiveMarkup

open Markup

variable {σ : Type}

/-- An attribute part bound to its element. -/
structure AttributeBinding (σ : Type) where
  element : NodeId
  part : AttributePart
  strategy : Strategy σ
  /-- The primitive value committed last, if the last commit was of one and was accepted. -/
  last : Option Value

mutual

inductive Instance (σ : Type) where
  | mk (template : Template) (roots : List NodeId) (bindings : List (Binding σ))

/-- What a part of a template is bound to in a copy. -/
inductive Binding (σ : Type) where
  | attribute (binding : AttributeBinding σ)
  | outlet (outlet : Outlet σ)

inductive Outlet (σ : Type) where
  | vacant (anchor : NodeId)
  /-- A text that is not empty, in the anchor itself. -/
  | text (anchor : NodeId) (data : String)
  | nested (anchor : NodeId) (inner : Instance σ)
  /-- One outlet for each item. -/
  | items (anchor : NodeId) (outlets : List (Outlet σ))

end

def Instance.template : Instance σ → Template
  | .mk template _ _ => template

def Instance.roots : Instance σ → List NodeId
  | .mk _ roots _ => roots

def Instance.bindings : Instance σ → List (Binding σ)
  | .mk _ _ bindings => bindings

def Outlet.anchor : Outlet σ → NodeId
  | .vacant anchor | .text anchor _ | .nested anchor _ | .items anchor _ => anchor

/-! ## The end of an outlet -/

mutual

/-- The last node of an instance among the siblings of its roots: what the last root's own outlet
ends with, if that root is an anchor. -/
def Instance.lastNode? : Instance σ → Option NodeId
  | .mk template roots bindings =>
    (Instance.lastOutlet? (roots.length - 1) bindings template.blueprint.parts).or roots.getLast?

/-- The last node of the outlet that has the root with the given index as its anchor. -/
def Instance.lastOutlet? (root : Nat) : List (Binding σ) → List Part → Option NodeId
  | .outlet outlet :: bindings, part :: parts =>
    (Instance.lastOutlet? root bindings parts).or
      (if part.path = [root] then some outlet.lastNode else none)
  | .attribute _ :: bindings, _ :: parts => Instance.lastOutlet? root bindings parts
  | _, _ => none

/-- The last node of an outlet among the siblings of its anchor. -/
def Outlet.lastNode : Outlet σ → NodeId
  | .vacant anchor | .text anchor _ => anchor
  | .nested anchor inner => inner.lastNode?.getD anchor
  | .items anchor outlets => Outlet.lastOf anchor outlets

/-- The last node of the last outlet of a run. -/
def Outlet.lastOf (anchor : NodeId) : List (Outlet σ) → NodeId
  | [] => anchor
  | outlet :: rest => Outlet.lastOf outlet.lastNode rest

end

/-! ## Taking away -/

mutual

/-- Removes the output of an instance from wherever it is.  The output of parts inside its elements
goes with the elements. -/
def Instance.detach : Instance σ → StageM Unit
  | .mk template roots bindings => do
    Instance.clearRoots bindings template.blueprint.parts
    roots.forM Stage.remove

/-- Clears the outlets whose anchors are roots. -/
def Instance.clearRoots : List (Binding σ) → List Part → StageM Unit
  | .outlet outlet :: bindings, part :: parts => do
    if Path.isRoot part.path then outlet.clear
    Instance.clearRoots bindings parts
  | .attribute _ :: bindings, _ :: parts => Instance.clearRoots bindings parts
  | _, _ => pure ()

/-- Removes all output of an outlet, so that an empty anchor is left. -/
def Outlet.clear : Outlet σ → StageM Unit
  | .vacant _ => pure ()
  | .text anchor _ => Stage.setText anchor ""
  | .nested _ inner => inner.detach
  | .items _ outlets => Outlet.dropAll outlets

/-- Removes outlets with their anchors. -/
def Outlet.dropAll : List (Outlet σ) → StageM Unit
  | [] => pure ()
  | outlet :: rest => do
    outlet.clear
    Stage.remove outlet.anchor
    Outlet.dropAll rest

end

/-! ## Making -/

namespace Stage

mutual

/-- Copies a node into the document, without a parent. -/
def copy : Node → StageM NodeId
  | .element name space attributes children => do
    let element ← create (.element name space [])
    attributes.forM fun pair => setAttribute element pair.1 pair.2
    copyInto element children
    pure element
  | .text data => create (.text data)
  | .comment data => create (.comment data)

/-- Copies nodes into the document, each as the last child of the given one. -/
def copyInto (parent : NodeId) : List Node → StageM Unit
  | [] => pure ()
  | child :: rest => do
    append parent (← copy child)
    copyInto parent rest

end

end Stage

namespace Instance

/-- Binds a part to its node. -/
def bind (strategies : List (Strategy σ)) (node : NodeId) : Part → Binding σ
  | .attribute part =>
    .attribute { element := node, part, strategy := Strategy.choose strategies part, last := none }
  | .node _ => .outlet (.vacant node)

/-- Binds parts, the first of which has the given index, to their nodes below the roots.  Where a
node is missing, the error tells for which part. -/
def bindAll (strategies : List (Strategy σ)) (stage : Stage) (roots : List NodeId) (index : Nat) :
    List Part → Except (Nat × ResolutionError) (List (Binding σ))
  | [] => .ok []
  | part :: rest =>
    match stage.locate roots part.path with
    | none => .error (index, .noNode part.path)
    | some node =>
      (bindAll strategies stage roots (index + 1) rest).map (bind strategies node part :: ·)

/-- Copies the forest of a template into the document, without a parent, and binds the parts. -/
def make (strategies : List (Strategy σ)) (template : Template) :
    StageM (Except (Nat × ResolutionError) (Instance σ)) := do
  let roots ← template.blueprint.forest.mapM Stage.copy
  match bindAll strategies (← get) roots 0 template.blueprint.parts with
  | .error error => pure (.error error)
  | .ok bindings =>
    Stage.note (.instantiated roots.length bindings.length)
    pure (.ok (.mk template roots bindings))

end Instance

end LiveMarkup
