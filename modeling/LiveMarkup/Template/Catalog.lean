import LiveMarkup.Template.Survey
import LiveMarkup.Value.Value

/-! # Catalogs of templates

A catalog turns each literal into a template once and keeps the template under the identity of the
literal, so that later uses of the literal share one template.  A literal that cannot be compiled is
not remembered.

Each request gives its result together with what it records (`templateRecorded`, `htmlRecorded`). -/

namespace LiveMarkup

/-- A catalog: its own identity, the parser it uses, the number of templates it has made so far, and
those it remembers. -/
structure Catalog where
  name : Nat
  parser : Parser
  made : Nat
  templates : List (LiteralId × Template)

namespace Catalog

def empty (name : Nat) (parser : Parser) : Catalog :=
  { name, parser, made := 0, templates := [] }

/-- The number of templates in the catalog. -/
def size (catalog : Catalog) : Nat :=
  catalog.templates.length

/-- Forgets all templates.  Those in use stay as they are. -/
def clear (catalog : Catalog) : Catalog :=
  { catalog with templates := [] }

/-- Looks for the template of a literal, which is made if the catalog does not have it, and gives the
catalog afterwards. -/
def templateRecorded (catalog : Catalog) (literal : Literal) :
    Recorded (Except LiteralError Template × Catalog) :=
  match catalog.templates.lookup literal.id with
  | some template => { outcome := (.ok template, catalog), events := [.cacheHit] }
  | none =>
    let compiling := Blueprint.compileRecorded catalog.parser literal.segments
    let outcome :=
      match compiling.outcome with
      | .error error => (.error error, catalog)
      | .ok blueprint =>
        let template : Template :=
          { id := { catalog := catalog.name, serial := catalog.made }, literal := literal.id
            segments := literal.segments, blueprint }
        (.ok template,
          { catalog with
            made := catalog.made + 1
            templates := (literal.id, template) :: catalog.templates })
    { outcome, events := .cacheMiss :: compiling.events }

/-- The template of a literal, and the catalog afterwards. -/
def template (catalog : Catalog) (literal : Literal) : Except LiteralError Template × Catalog :=
  (catalog.templateRecorded literal).outcome

/-- Whether a literal takes this many values: one between any two segments. -/
def fits (literal : Literal) (values : List Value) : Bool :=
  literal.segments.length == values.length + 1

/-- One use of a literal, with a value for each of its parts.  If the number of values is wrong, the
template is not looked for. -/
def htmlRecorded (catalog : Catalog) (literal : Literal) (values : List Value) :
    Recorded (Except LiteralError TemplateResult × Catalog) :=
  if fits literal values then
    (catalog.templateRecorded literal).map fun (template, catalog) =>
      (template.map fun template => { template, values }, catalog)
  else
    { outcome := (.error (.valueCount literal.segments.length values.length), catalog), events := [] }

/-- The result of a use of a literal, and the catalog afterwards. -/
def html (catalog : Catalog) (literal : Literal) (values : List Value) :
    Except LiteralError TemplateResult × Catalog :=
  (catalog.htmlRecorded literal values).outcome

/-- A description of a catalog, which tells the number of its templates. -/
def describe (catalog : Catalog) : String :=
  "TemplateCache \x7b templates: " ++ toString catalog.size ++ ", .. \x7d"

end Catalog

end LiveMarkup
