import LiveMarkup.Literal.SegmentReader
import LiveMarkup.Markup.Forest
import LiveMarkup.Render.Event
import LiveMarkup.Template.Blueprint

/-! # From a literal to its blueprint

The segments of a literal, joined by placeholders, are parsed, and the forest is surveyed in
preorder.  Every placeholder must turn up as the whole value of an attribute or inside a text, in the
order in which the literal has its values, and in the sort of place that the segments put it.  A
parser that moves, drops or repeats values is thus found out.

`Blueprint.survey` does this for a given forest and `Blueprint.compile` for a literal, where
`Blueprint.compileRecorded` also gives what goes into the journal. -/

namespace LiveMarkup

open Markup

/-- A way to read markup.  It may give up with a message. -/
structure Parser where
  parse : String → Except String Forest
  /-- Whether every use of the parser is recorded. -/
  recorded : Bool := false

/-- The parser for everyday markup, which never gives up. -/
def Parser.standard : Parser :=
  { parse := fun markup => .ok (Forest.parse markup), recorded := true }

/-- The state of a survey: the positions of the values not met yet, and the parts of those met. -/
structure Surveyor where
  upcoming : List Position
  parts : List Part
  deriving DecidableEq, Repr

/-- A step of a survey, which may find the forest at odds with the literal. -/
abbrev Survey :=
  StateT Surveyor (Except LiteralError)

namespace Survey

/-- The position of the next value, if the placeholder found here is that of the next value. -/
def meet (found : Nat) : Survey Position := do
  let surveyor ← get
  let index := surveyor.parts.length
  match surveyor.upcoming with
  | [] => throw (.surplus index (index + 1))
  | position :: _ =>
    if found = index then pure position else throw (.outOfOrder index found)

/-- Takes down the part of the next value. -/
def note (part : Part) : Survey Unit :=
  modify fun surveyor =>
    { upcoming := surveyor.upcoming.tail, parts := surveyor.parts ++ [part] }

/-- Refuses a placeholder in a place where no value can stand. -/
def refuse {α : Type} (place : Misplacement) : Survey α := do
  throw (.misplaced (← get).parts.length place)

/-! ## Attributes -/

/-- Sorts attributes into static ones and ones whose whole value is a placeholder, with its
index. -/
def sortOut :
    List (String × String) → Survey (List (String × String) × List (String × Nat))
  | [] => pure ([], [])
  | (name, value) :: rest =>
    match Placeholder.index? value.toList with
    | some found => do
      let (static, bound) ← sortOut rest
      pure (static, (name, found) :: bound)
    | none =>
      if Placeholder.occursIn name.toList then refuse .attributeName
      else if Placeholder.occursIn value.toList then refuse (.partialValue name)
      else do
        let (static, bound) ← sortOut rest
        pure ((name, value) :: static, bound)

/-- Inserts a bound attribute before all those with an index that is not smaller. -/
def insertBound (entry : String × Nat) : List (String × Nat) → List (String × Nat)
  | [] => [entry]
  | other :: rest =>
    if entry.2 ≤ other.2 then entry :: other :: rest else other :: insertBound entry rest

/-- Bound attributes in the order of their values.  The parser may give them in any order. -/
def inOrder (bound : List (String × Nat)) : List (String × Nat) :=
  bound.foldr insertBound []

/-- Takes down the parts of the bound attributes of the element at the end of the path. -/
def attributes (path : Path) : List (String × Nat) → Survey Unit
  | [] => pure ()
  | (name, found) :: rest => do
    match ← meet found with
    | .attribute rawName =>
      if lowerCase name = lowerCase rawName then
        note (.attribute { path, name, rawName })
        attributes path rest
      else throw (.moved found)
    | .child => throw (.moved found)

/-! ## Nodes -/

/-- Lays out the pieces of a text as children, the first of which has the given index: a text for
each run and an empty one for each placeholder. -/
def pieces (parent : Path) (index : Nat) : List Placeholder.Piece → Survey (List Node)
  | [] => pure []
  | .run text :: rest => do
    let nodes ← pieces parent (index + 1) rest
    pure (.text (String.ofList text) :: nodes)
  | .placeholder found :: rest => do
    match ← meet found with
    | .child =>
      note (.node (parent ++ [index]))
      let nodes ← pieces parent (index + 1) rest
      pure (.text "" :: nodes)
    | .attribute _ => throw (.moved found)

mutual

/-- Surveys a node that becomes child `index` of its parent, and gives what takes its place. -/
def node (parent : Path) (index : Nat) : Node → Survey (List Node)
  | .element name space pairs children => do
    if Placeholder.occursIn name.toList then refuse .tagName
    else
      let path := parent ++ [index]
      let (static, bound) ← sortOut pairs
      attributes path (inOrder bound)
      let children ← nodes path 0 children
      pure [.element name space static children]
  | .text data =>
    if Placeholder.occursIn data.toList then pieces parent index (Placeholder.split data.toList)
    else pure [.text data]
  | .comment data =>
    if Placeholder.occursIn data.toList then refuse .comment else pure [.comment data]

/-- Surveys sibling nodes, the first of which becomes child `index` of their parent. -/
def nodes (parent : Path) (index : Nat) : List Node → Survey (List Node)
  | [] => pure []
  | first :: rest => do
    let here ← node parent index first
    let behind ← nodes parent (index + here.length) rest
    pure (here ++ behind)

end

end Survey

namespace Blueprint

/-- The blueprint of a forest in which the values are to be found at the given positions. -/
def survey (positions : List Position) (forest : Forest) : Except LiteralError Blueprint := do
  let (forest, surveyor) ← (Survey.nodes [] 0 forest).run { upcoming := positions, parts := [] }
  if surveyor.upcoming = [] then pure { forest, parts := surveyor.parts }
  else throw (.missing positions.length surveyor.parts.length)

/-- Compiles a literal with the given segments.  What is recorded is that it is compiled, that the
parser is used, and what the parser got wrong. -/
def compileRecorded (parser : Parser) (segments : List String) :
    Recorded (Except LiteralError Blueprint) :=
  match positions segments with
  | .error error => { outcome := .error error, events := [.compiling] }
  | .ok positions =>
    let events := .compiling :: if parser.recorded then [.parsing] else []
    match parser.parse (Placeholder.join segments) with
    | .error message => { outcome := .error (.unparsed message), events }
    | .ok forest =>
      match survey positions forest with
      | .error error => { outcome := .error error, events := events ++ error.event?.toList }
      | .ok blueprint => { outcome := .ok blueprint, events }

/-- The blueprint of a literal with the given segments. -/
def compile (parser : Parser) (segments : List String) : Except LiteralError Blueprint :=
  (compileRecorded parser segments).outcome

theorem compile_eq (parser : Parser) (segments : List String) :
    compile parser segments = (positions segments).bind fun positions =>
      ((parser.parse (Placeholder.join segments)).mapError .unparsed).bind (survey positions) := by
  unfold compile compileRecorded
  cases positions segments with
  | error error => rfl
  | ok positions =>
    cases parser.parse (Placeholder.join segments) with
    | error message => rfl
    | ok forest =>
      dsimp only [Except.bind, Except.mapError]
      cases survey positions forest <;> rfl

/-- Whatever comes of it, it is recorded that a literal is compiled. -/
theorem compiling_mem_events (parser : Parser) (segments : List String) :
    .compiling ∈ (compileRecorded parser segments).events := by
  unfold compileRecorded
  split
  · exact List.mem_cons_self
  · dsimp only
    split
    · exact List.mem_cons_self
    · split <;> exact List.mem_cons_self

end Blueprint

end LiveMarkup
