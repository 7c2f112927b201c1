import LiveMarkup.Proofs.Nesting
import LiveMarkup.Proofs.Printing.Legible

/-! # The shape of parsed markup

In what the parser for everyday markup gives, texts are filled and stand apart, void elements have no
children and elements with raw text hold one text at most, everything in and below an `svg` element and
nothing else is in its namespace, and attributes stand in the order of their names, which differ
(`Parser.shaped_standard`).

Two invariants of building come together here.  `Settled` is about texts and their siblings, and
`Forest.Legible` about each element and the one around it. -/

namespace LiveMarkup

open Markup

namespace Markup

/-- Sibling nodes of the shape that parsed ones have, in an element of the given namespace. -/
inductive Shaped : Option String → Forest → Prop where
  | nil {outer : Option String} : Shaped outer []
  | element {outer space : Option String} {name : String} {attributes : List (String × String)}
      {children rest : Forest}
      (void : name ∈ voidElements → children = [])
      (raw : name ∈ rawTextElements → children = [] ∨ ∃ data, children = [.text data])
      (space_iff : space = some svgNamespace ↔ name = "svg" ∨ outer = some svgNamespace)
      (space_or : space = some svgNamespace ∨ space = none)
      (sorted : (attributes.map Prod.fst).Pairwise (· < ·))
      (distinct : (attributes.map Prod.fst).Nodup)
      (inside : Shaped space children) (after : Shaped outer rest) :
      Shaped outer (.element name space attributes children :: rest)
  | text {outer : Option String} {data : String} {rest : Forest} (filled : data ≠ "")
      (apart : ∀ next ∈ rest.head?, next.isText = false) (after : Shaped outer rest) :
      Shaped outer (.text data :: rest)
  | comment {outer : Option String} {data : String} {rest : Forest} (after : Shaped outer rest) :
      Shaped outer (.comment data :: rest)

/-- The namespace of `svg` begins at `svg` elements and ends with them. -/
theorem spaceOf_eq_svg_iff {name : String} {outer : Option String} :
    spaceOf name outer = some svgNamespace ↔ name = "svg" ∨ outer = some svgNamespace := by
  unfold spaceOf
  split
  · next svg => simp [svg]
  · next other => simp [other]

/-- There is no namespace but that of `svg`. -/
theorem spaceOf_eq_or {name : String} {outer : Option String}
    (known : outer = some svgNamespace ∨ outer = none) :
    spaceOf name outer = some svgNamespace ∨ spaceOf name outer = none := by
  unfold spaceOf
  split
  · exact .inl rfl
  · exact known

theorem Settled.shaped {forest : Forest} (settled : Settled forest) {outer : Option String}
    (known : outer = some svgNamespace ∨ outer = none) (legible : Forest.Legible outer forest) :
    Shaped outer forest := by
  induction settled generalizing outer with
  | nil => exact .nil
  | element _ _ inside after =>
    obtain ⟨⟨⟨rfl, -⟩, ⟨sorted, -⟩, void, raw, below⟩, behind⟩ := legible
    constructor
    case void =>
      intro listed
      exact void (List.contains_iff_mem.mpr listed)
    case raw =>
      intro listed
      obtain none | ⟨data, -, one⟩ := raw listed
      · exact .inl none
      · exact .inr ⟨data, one⟩
    case space_iff => exact spaceOf_eq_svg_iff
    case space_or => exact spaceOf_eq_or known
    case sorted => exact sorted
    case distinct => exact sorted.nodup
    case inside => exact inside (spaceOf_eq_or known) below
    case after => exact after known behind
  | text filled apart _ after => exact .text filled apart (after known legible.2)
  | comment _ after => exact .comment (after known legible.2)

end Markup

/-- The parser for everyday markup reads any markup, and gives nodes of the usual shape. -/
theorem Parser.shaped_standard (markup : String) :
    ∃ forest, Parser.standard.parse markup = .ok forest ∧ Shaped none forest :=
  ⟨Forest.parse markup, rfl,
    (Forest.settled_parse markup).shaped (.inr rfl) (Forest.legible_parse markup)⟩

end LiveMarkup
