import LiveMarkup.Markup.Node

/-! # Documents

A document is a table of nodes that refer to each other by number.  Nodes are never freed: one that
is taken out of the tree stays valid and can be put in again.  Every change of the tree or of the
data of a node is recorded as a `Mutation`.

An operation on a node that does not exist, or that is of the wrong sort, leaves the document as it
is. -/

namespace LiveMarkup

/-- A node of a document, by the number of nodes created before it. -/
structure NodeId where
  number : Nat
  deriving DecidableEq, Repr

/-- The form in which messages name a node. -/
def NodeId.describe (node : NodeId) : String :=
  s!"NodeId({node.number})"

/-- What a node is, apart from its place in the tree. -/
inductive NodeData where
  | element (name : String) (space : Option String) (attributes : List (String × String))
  | text (data : String)
  | comment (data : String)
  deriving DecidableEq, Repr, Inhabited

/-- A node with its place in the tree. -/
structure Cell where
  data : NodeData
  parent : Option NodeId
  children : List NodeId
  deriving DecidableEq, Repr, Inhabited

/-- A recorded change. -/
inductive Mutation where
  | setAttribute (element : NodeId) (name value : String)
  | setText (node : NodeId) (data : String)
  | insert (parent node : NodeId)
  | remove (node : NodeId)
  deriving DecidableEq, Repr

structure Document where
  cells : Array Cell
  mutations : Array Mutation
  deriving DecidableEq, Repr

namespace Document

def empty : Document :=
  { cells := #[], mutations := #[] }

/-! ## Reading -/

/-- The number of nodes ever created. -/
def size (document : Document) : Nat :=
  document.cells.size

def cell? (document : Document) (node : NodeId) : Option Cell :=
  document.cells[node.number]?

def data? (document : Document) (node : NodeId) : Option NodeData :=
  (document.cell? node).map (·.data)

def parent (document : Document) (node : NodeId) : Option NodeId :=
  (document.cell? node).bind (·.parent)

def children (document : Document) (node : NodeId) : List NodeId :=
  ((document.cell? node).map (·.children)).getD []

def isElement (document : Document) (node : NodeId) : Bool :=
  match document.data? node with
  | some (.element _ _ _) => true
  | _ => false

/-- The name of an element. -/
def name? (document : Document) (node : NodeId) : Option String :=
  match document.data? node with
  | some (.element name _ _) => some name
  | _ => none

/-- The namespace of an element that has one. -/
def space? (document : Document) (node : NodeId) : Option String :=
  match document.data? node with
  | some (.element _ space _) => space
  | _ => none

/-- The value of an attribute of an element. -/
def attribute? (document : Document) (node : NodeId) (name : String) : Option String :=
  match document.data? node with
  | some (.element _ _ attributes) => attributes.lookup name
  | _ => none

/-- The data of a text. -/
def text? (document : Document) (node : NodeId) : Option String :=
  match document.data? node with
  | some (.text data) => some data
  | _ => none

/-- The node behind a given one among siblings. -/
def successor (node : NodeId) (siblings : List NodeId) : Option NodeId :=
  (siblings.dropWhile (· != node)).tail.head?

def nextSibling (document : Document) (node : NodeId) : Option NodeId :=
  (document.parent node).bind fun parent => successor node (document.children parent)

/-! ## Changing -/

/-- Changes one node. -/
def modify (document : Document) (node : NodeId) (change : Cell → Cell) : Document :=
  { document with cells := document.cells.modify node.number change }

def setData (document : Document) (node : NodeId) (data : NodeData) : Document :=
  document.modify node fun cell => { cell with data }

def setParent (document : Document) (node : NodeId) (parent : Option NodeId) : Document :=
  document.modify node fun cell => { cell with parent }

def editChildren (document : Document) (node : NodeId) (change : List NodeId → List NodeId) :
    Document :=
  document.modify node fun cell => { cell with children := change cell.children }

def record (document : Document) (mutation : Mutation) : Document :=
  { document with mutations := document.mutations.push mutation }

/-- Forgets the recorded changes. -/
def forget (document : Document) : Document :=
  { document with mutations := #[] }

/-- A new node without a parent.  Its creation is no change of the tree. -/
def create (document : Document) (data : NodeData) : NodeId × Document :=
  let cell : Cell := { data, parent := none, children := [] }
  (⟨document.size⟩, { document with cells := document.cells.push cell })

/-- Gives an attribute a value: in its place if there is one of that name, else behind the others. -/
def putAttribute (name value : String) : List (String × String) → List (String × String)
  | [] => [(name, value)]
  | (other, kept) :: rest =>
    if other = name then (other, value) :: rest
    else (other, kept) :: putAttribute name value rest

/-- Sets an attribute of an element. -/
def setAttribute (document : Document) (element : NodeId) (name value : String) : Document :=
  match document.data? element with
  | some (.element tag space attributes) =>
    (document.setData element (.element tag space (putAttribute name value attributes))).record
      (.setAttribute element name value)
  | _ => document

/-- Replaces the data of a text or a comment. -/
def setText (document : Document) (node : NodeId) (data : String) : Document :=
  match document.data? node with
  | some (.text _) => (document.setData node (.text data)).record (.setText node data)
  | some (.comment _) => (document.setData node (.comment data)).record (.setText node data)
  | _ => document

/-- Takes a node, and with it all below it, out of its parent. -/
def detach (document : Document) (node : NodeId) : Document :=
  match document.parent node with
  | some parent => (document.setParent node none).editChildren parent (·.filter (· != node))
  | none => document

/-- Puts a node before another among siblings, or behind all of them if that one is not there. -/
def placeBefore (reference : Option NodeId) (node : NodeId) (siblings : List NodeId) :
    List NodeId :=
  let isOther := fun sibling => some sibling != reference
  siblings.takeWhile isOther ++ node :: siblings.dropWhile isOther

/-- Moves a node into a parent, before the reference or at the end. -/
def insertBefore (document : Document) (parent node : NodeId) (reference : Option NodeId) :
    Document :=
  let placed := (document.detach node).editChildren parent (placeBefore reference node)
  (placed.setParent node (some parent)).record (.insert parent node)

/-- Takes a node out of its parent, if it has one. -/
def remove (document : Document) (node : NodeId) : Document :=
  (document.detach node).record (.remove node)

end Document

end LiveMarkup
