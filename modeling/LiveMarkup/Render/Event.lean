import LiveMarkup.Document.Document
import LiveMarkup.Literal.Error
import LiveMarkup.Render.Error
import LiveMarkup.Text.Quoted

/-! # What happened

Compiling and rendering keep a journal.  An `Event` is one entry of it: the beginning of an activity,
or something of note with a level and a message. -/

namespace LiveMarkup

/-- How much an event matters. -/
inductive Level where
  | trace
  | warn
  | error
  deriving DecidableEq, Repr

inductive Event where
  /-- A literal is being compiled. -/
  | compiling
  /-- Markup is being parsed. -/
  | parsing
  /-- A result is being rendered. -/
  | rendering
  /-- A part of an instance is being brought up to date. -/
  | updating (part depth : Nat) (path : Path)
  | cacheHit
  | cacheMiss
  /-- The parsed markup disagrees with its literal. -/
  | parserDisagrees (error : LiteralError)
  | instantiated (roots parts : Nat)
  | instanceUpdated
  | instanceReplaced
  | instanceMissing
  | instanceReused
  | nestedMissing (part : Nat)
  | nestedUnplaced (part : Nat)
  | itemUnplaced (part item : Nat)
  | itemsDropped (count : Nat)
  | textSame
  | textSet (text : String)
  | attributeSame
  | attributeSet (name text : String)
  | attributeStuck (rawName : String) (error : ResolutionError)
  | reported (diagnostic : Diagnostic)
  | notAnElement (name : String) (node : NodeId)
  | notAText (node : NodeId)
  | notAChild (reference parent : NodeId)
  | notRemoved (child : NodeId)
  deriving DecidableEq, Repr

namespace Event

/-- The level of an event that has one; the beginning of an activity has none. -/
def level? : Event → Option Level
  | compiling | parsing | rendering | updating _ _ _ => none
  | cacheHit | cacheMiss | instantiated _ _ | instanceUpdated | instanceReplaced | instanceReused
  | itemsDropped _ | textSame | textSet _ | attributeSame | attributeSet _ _ => some .trace
  | parserDisagrees _ | reported _ | notAnElement _ _ | notAText _ | notAChild _ _ => some .warn
  | instanceMissing | nestedMissing _ | nestedUnplaced _ | itemUnplaced _ _ | attributeStuck _ _
  | notRemoved _ => some .error

/-- The message of an event, or the name of the activity that begins.  The identity of a literal is
not shown. -/
def message : Event → String
  | compiling => "compile"
  | parsing => "parse"
  | rendering => "render"
  | updating _ _ _ => "Updating part"
  | cacheHit => "Template cache hit for LiteralId(#)."
  | cacheMiss => "Template cache miss for LiteralId(#). Compiling."
  | parserDisagrees error => error.warning?.getD error.message
  | instantiated roots parts =>
    s!"Instantiated template with {roots} root(s) and {parts} part(s)."
  | instanceUpdated => "Updating existing instance."
  | instanceReplaced => "Container holds another template. Detaching it."
  | instanceMissing => "Could not instantiate template."
  | instanceReused => "Reusing nested instance."
  | nestedMissing part => s!"Could not instantiate nested template for part {part}."
  | nestedUnplaced part =>
    s!"Anchor of part {part} is detached. The nested template stays invisible."
  | itemUnplaced part item => s!"Anchor of part {part} is detached. Item {item} stays invisible."
  | itemsDropped count => s!"Removing {count} excess item(s)."
  | textSame => "Text unchanged."
  | textSet text => "Setting text to " ++ Text.quoted text ++ "."
  | attributeSame => "Attribute value unchanged."
  | attributeSet name text =>
    "Setting attribute " ++ Text.quoted name ++ " to " ++ Text.quoted text ++ "."
  | attributeStuck rawName error =>
    "Could not clear attribute " ++ Text.quoted rawName ++ " either: " ++ error.message
  | reported diagnostic => "Part renders empty instead: " ++ diagnostic.error.message
  | notAnElement name node =>
    s!"Tried to set attribute `{name}` on a non-element {node.describe}. Ignoring."
  | notAText node => s!"Tried to set text data of element {node.describe}. Ignoring."
  | notAChild reference parent =>
    s!"Reference node {reference.describe} is not a child of {parent.describe}. Appending instead."
  | notRemoved child =>
    s!"Could not remove child {child.describe} from container. Rendering after it."

end Event

/-- The warning that goes with an error of a literal, if there is one. -/
def LiteralError.event? (error : LiteralError) : Option Event :=
  error.warning?.map fun _ => .parserDisagrees error

universe u v

/-- What is computed, with what is recorded on the way. -/
structure Recorded (α : Type u) where
  outcome : α
  events : List Event

def Recorded.map {α : Type u} {β : Type v} (f : α → β) (recorded : Recorded α) : Recorded β :=
  { outcome := f recorded.outcome, events := recorded.events }

end LiveMarkup
