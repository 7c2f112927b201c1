import LiveMarkup.Document.Document
import LiveMarkup.Render.Event

/-! # The stage

A stage is a document that is being worked on, with a journal of what happens to it.  A stage may
fall short of what its users expect: it may hide all but the first children of every node, and it may
keep nodes that are to be removed. -/

namespace LiveMarkup

/-- How a stage falls short.  By default it does not. -/
structure Shortcomings where
  /-- Only that many children of a node can be seen. -/
  visibleChildren : Option Nat := none
  /-- Nothing is ever removed. -/
  keepsRemoved : Bool := false
  deriving DecidableEq, Repr

structure Stage where
  document : Document
  shortcomings : Shortcomings
  journal : Array Event
  deriving DecidableEq, Repr

/-- Work on a stage. -/
abbrev StageM :=
  StateM Stage

namespace Stage

def empty (shortcomings : Shortcomings) : Stage :=
  { document := .empty, shortcomings, journal := #[] }

/-! ## Looking -/

/-- The child with the given index, if it can be seen. -/
def child (stage : Stage) (node : NodeId) (index : Nat) : Option NodeId :=
  let visible := stage.shortcomings.visibleChildren.all (index < ·)
  if visible then (stage.document.children node)[index]? else none

def firstChild (stage : Stage) (node : NodeId) : Option NodeId :=
  stage.child node 0

/-- The node at the end of a path that starts among the given roots. -/
def locate (stage : Stage) (roots : List NodeId) : Path → Option NodeId
  | [] => none
  | index :: rest =>
    rest.foldl (fun node index => node.bind (stage.child · index)) roots[index]?

/-! ## Working -/

/-- Changes the document. -/
def edit (change : Document → Document) : StageM Unit :=
  modify fun stage => { stage with document := change stage.document }

/-- Puts an event into the journal. -/
def note (event : Event) : StageM Unit :=
  modify fun stage => { stage with journal := stage.journal.push event }

/-- Puts events into the journal, in order. -/
def noteAll (events : List Event) : StageM Unit :=
  modify fun stage => { stage with journal := stage.journal ++ events }

/-- Creates a node. -/
def create (data : NodeData) : StageM NodeId :=
  modifyGet fun stage =>
    let (node, document) := stage.document.create data
    (node, { stage with document })

def setAttribute (element : NodeId) (name value : String) : StageM Unit := do
  if (← get).document.isElement element then edit (·.setAttribute element name value)
  else note (.notAnElement name element)

def setText (node : NodeId) (data : String) : StageM Unit := do
  if (← get).document.isElement node then note (.notAText node)
  else edit (·.setText node data)

/-- Whether a node stays a child of the parent when another node is taken away. -/
def isOtherChild (stage : Stage) (parent node reference : NodeId) : Bool :=
  ((stage.document.detach node).children parent).contains reference

def insertBefore (parent node : NodeId) (reference : Option NodeId) : StageM Unit := do
  match reference with
  | some reference =>
    unless (← get).isOtherChild parent node reference do note (.notAChild reference parent)
  | none => pure ()
  edit (·.insertBefore parent node reference)

def append (parent node : NodeId) : StageM Unit :=
  insertBefore parent node none

def remove (node : NodeId) : StageM Unit := do
  unless (← get).shortcomings.keepsRemoved do edit (·.remove node)

end Stage

end LiveMarkup
