import LiveMarkup.Template.Catalog

/-! # Workshops

A workshop holds the catalogs of a program and hands out the identities of its literals.  It also
remembers of which literals the identity has been asked for, which is the case once a catalog has
looked for their template.

Identities only tell literals apart, and no text shows one.  So it makes no difference that a literal
gets its identity when it is made, where it could also be numbered when the identity is first asked
for; that this has happened is told by `observed`. -/

namespace LiveMarkup

structure Workshop where
  /-- Every catalog is named by its place. -/
  catalogs : List Catalog
  /-- The number of literals so far. -/
  literals : Nat
  observed : List LiteralId

namespace Workshop

/-- Empty catalogs, one for each parser. -/
def ofParsers (parsers : List Parser) : Workshop :=
  { catalogs := parsers.mapIdx Catalog.empty, literals := 0, observed := [] }

/-- A new literal, with an identity that no other literal of the workshop has. -/
def literal (workshop : Workshop) (segments : List String) : Literal × Workshop :=
  ({ id := ⟨workshop.literals⟩, segments }, { workshop with literals := workshop.literals + 1 })

def catalog? (workshop : Workshop) (place : Nat) : Option Catalog :=
  workshop.catalogs[place]?

def setCatalog (workshop : Workshop) (place : Nat) (catalog : Catalog) : Workshop :=
  { workshop with catalogs := workshop.catalogs.set place catalog }

/-- The template of a literal in the catalog at the given place, and the workshop afterwards.  There
is no outcome if there is no such catalog. -/
def template (workshop : Workshop) (place : Nat) (literal : Literal) :
    Option (Except LiteralError Template) × Workshop :=
  match workshop.catalog? place with
  | none => (none, workshop)
  | some catalog =>
    let (template, catalog) := catalog.template literal
    let observed := literal.id :: workshop.observed
    (some template, { workshop.setCatalog place catalog with observed })

/-- One use of a literal by the catalog at the given place, and the workshop afterwards.  There is
no outcome if there is no such catalog. -/
def htmlRecorded (workshop : Workshop) (place : Nat) (literal : Literal) (values : List Value) :
    Recorded (Option (Except LiteralError TemplateResult) × Workshop) :=
  match workshop.catalog? place with
  | none => { outcome := (none, workshop), events := [] }
  | some catalog =>
    (catalog.htmlRecorded literal values).map fun (result, catalog) =>
      let observed :=
        if Catalog.fits literal values then literal.id :: workshop.observed
        else workshop.observed
      (some result, { workshop.setCatalog place catalog with observed })

/-- The result of a use of a literal, and the workshop afterwards. -/
def html (workshop : Workshop) (place : Nat) (literal : Literal) (values : List Value) :
    Option (Except LiteralError TemplateResult) × Workshop :=
  (workshop.htmlRecorded place literal values).outcome

/-- What a use of a literal records. -/
def htmlEvents (workshop : Workshop) (place : Nat) (literal : Literal) (values : List Value) :
    List Event :=
  (workshop.htmlRecorded place literal values).events

/-- Forgets the templates of the catalog at the given place. -/
def clear (workshop : Workshop) (place : Nat) : Workshop :=
  match workshop.catalog? place with
  | none => workshop
  | some catalog => workshop.setCatalog place catalog.clear

/-- A description of a literal of the workshop. -/
def describe (workshop : Workshop) (literal : Literal) : String :=
  literal.describe (workshop.observed.contains literal.id)

end Workshop

end LiveMarkup
