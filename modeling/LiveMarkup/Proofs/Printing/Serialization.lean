import LiveMarkup.Proofs.Printing.Rereading
import LiveMarkup.Proofs.Rendering

/-! # Writing a document and reading it again

Markup that is parsed and copied into an element of a document comes back from there: the markup of
what is in the element is parsed to the same forest (`Stage.parse_innerHtml`), unless there are special
characters in a script or a style sheet, where they come back as references
(`Stage.exists_literal_text_altered`).

`Forest.parse_html` asks for a legible forest, and every parsed one is.  The document only hands it
on. -/

namespace LiveMarkup

open Document Markup

/-- A grove looks like the forest that it is a copy of. -/
theorem Grove.Copies.forest_eq {forest : Forest} {grove : Grove} (copies : Copies forest grove) :
    grove.forest = forest := by
  induction copies with
  | nil => rfl
  | element _ _ inside after => rw [forest_cons, inside, after, NodeData.node]
  | text _ after | comment _ after => rw [forest_cons, after, NodeData.node]

/-- Nodes that are copied into an empty element are all that can be seen of it. -/
theorem Stage.performs_copyInto_forest {document : Document} {element : NodeId} {data : NodeData}
    {outer : Option NodeId} (empty : document.cell? element = some ⟨data, outer, []⟩) {forest : Forest}
    (distinct : Distinct forest) :
    Performs (Stage.copyInto element forest) document fun _ after =>
      after.forest element = forest := by
  have site : Site document (.inside element data outer) .nil :=
    ⟨empty, trivial, by simp [Place.inside], by simp [Place.inside]⟩
  refine (performs_copyInto document _ forest distinct site rfl).mono fun _ after copied => ?_
  obtain ⟨grove, copies, regrown⟩ := copied
  rw [regrown.site.forest, copies.forest_eq]

/-- Markup that is copied into an empty element is read again from the markup of the element, but for
the special characters in literal texts.  It is read as it was just if there are none. -/
theorem Stage.parse_innerHtml {markup : String} (plain : Forest.Every smooth (Forest.parse markup))
    {stage : Stage} (whole : stage.shortcomings = {}) {element : NodeId} {name : String}
    {space : Option String} {attributes : List (String × String)} {outer : Option NodeId}
    (empty : stage.document.cell? element = some ⟨.element name space attributes, outer, []⟩) :
    let after := ((Stage.copyInto element (Forest.parse markup)).run stage).2.document
    Forest.parse (after.innerHtml element) = Forest.reread false (Forest.parse markup) ∧
      (Forest.parse (after.innerHtml element) = Forest.parse markup ↔
        Forest.Verbatim false (Forest.parse markup)) := by
  intro after
  have copied : after.forest element = Forest.parse markup :=
    (performs_copyInto_forest empty (Forest.distinct_parse markup) stage rfl whole).2
  have again : Forest.parse (after.innerHtml element) = Forest.reread false (Forest.parse markup) := by
    rw [innerHtml, copied]
    exact Forest.parse_html (Forest.legible_parse markup) (Forest.settled_parse markup) plain
  refine ⟨again, ?_⟩
  rw [again]
  exact Forest.reread_eq_self_iff false _

/-- Markup with void, foreign and raw text elements, references, a comment with dashes, and tags that
are not closed. -/
def variedMarkup : String :=
  "<P b='1&quot;' =a>x &lt; y<br><svg><Circle r=2 /></svg><!-- a--!-b --><title>&amp;</title>" ++
    "<style>p{}</style><?c"

/-- An element with nothing in it. -/
def Stage.bare : Stage :=
  ((Stage.create (.element "main" none [])).run (Stage.empty {})).2

theorem parse_variedMarkup : Forest.parse variedMarkup =
    [.element "p" none [("=a", ""), ("b", "1\"")] [
      .text "x < y", .element "br" none [] [],
      .element "svg" (some svgNamespace) []
        [.element "circle" (some svgNamespace) [("r", "2")] []],
      .comment " a--!-b ", .element "title" none [] [.text "&"],
      .element "style" none [] [.text "p\x7b\x7d"], .comment "?c"]] := by
  -- Each reference is read by itself, so that the table of names is not spelled out for it.
  have pieces : variedMarkup = "<P b='1&" ++ ("quot;" ++ ("' =a>x &" ++ ("lt;" ++
      (" y<br><svg><Circle r=2 /></svg><!-- a--!-b --><title>&" ++
        ("amp;" ++ "</title><style>p\x7b\x7d</style><?c"))))) := by
    decide +kernel
  have text : normalizeLines variedMarkup.toList =
      "<P b='1&".toList ++ (['q', 'u', 'o', 't'] ++ [';'] ++ ("' =a>x &".toList ++
        (['l', 't'] ++ [';'] ++ (" y<br><svg><Circle r=2 /></svg><!-- a--!-b --><title>&".toList ++
          (['a', 'm', 'p'] ++ [';'] ++ "</title><style>p\x7b\x7d</style><?c".toList))))) := by
    rw [pieces]
    simp only [String.toList_append]
    decide +kernel
  have valued : LexerState.start.advance "<P b='1&".toList =
      (.valueReference (some '\'') ⟨⟨false, ['p'], []⟩, ['b'], ['1']⟩ .start, []) := by
    decide +kernel
  have opened : ((LexerState.inValue (some '\'')
      (['"'].foldl LexerState.pushValue ⟨⟨false, ['p'], []⟩, ['b'], ['1']⟩)).advance
        "' =a>x &".toList).1 = .contentReference .data .start := by
    decide +kernel
  have titled : ((LexerState.content .data).advance
      " y<br><svg><Circle r=2 /></svg><!-- a--!-b --><title>&".toList).1 =
        .contentReference (.escapable "title") .start := by
    decide +kernel
  have quote : (['q', 'u', 'o', 't'], '"') ∈ Reference.escapes := by decide
  have less : (['l', 't'], '<') ∈ Reference.escapes := by decide
  have ampersand : (['a', 'm', 'p'], '&') ∈ Reference.escapes := by decide
  rw [Forest.parse, tokens, text, LexerState.run_append, valued,
    LexerState.run_valueReference _ _ (Reference.spells?_of_mem_escapes true quote),
    LexerState.run_append, opened,
    LexerState.run_contentReference _ (Reference.spells?_of_mem_escapes false less),
    LexerState.run_append, titled,
    LexerState.run_contentReference _ (Reference.spells?_of_mem_escapes false ampersand)]
  decide +kernel

theorem Stage.parse_innerHtml_varied :
    Forest.Every smooth (Forest.parse variedMarkup) ∧ Stage.bare.shortcomings = {} ∧
      Stage.bare.document.cell? ⟨0⟩ = some ⟨.element "main" none [], none, []⟩ ∧
      Forest.Verbatim false (Forest.parse variedMarkup) ∧
      Forest.parse (((Stage.copyInto ⟨0⟩ (Forest.parse variedMarkup)).run
        Stage.bare).2.document.innerHtml ⟨0⟩) = Forest.parse variedMarkup := by
  have parsed := parse_variedMarkup
  -- The parsed forest is known, so the markup need not be read again.
  generalize variedMarkup = markup at parsed ⊢
  have plain : Forest.Every smooth (Forest.parse markup) := by
    rw [parsed]
    simp only [Forest.Every, Node.Every, smooth, List.forall_mem_cons]
    decide
  have verbatim : Forest.Verbatim false (Forest.parse markup) := by
    rw [parsed]
    simp [Forest.Verbatim, Node.Verbatim, isLiteral, isSpecial, rawTextElements, escapableElements]
  have whole : Stage.bare.shortcomings = {} := rfl
  have empty : Stage.bare.document.cell? ⟨0⟩ = some ⟨.element "main" none [], none, []⟩ := rfl
  exact ⟨plain, whole, empty, verbatim, (Stage.parse_innerHtml plain whole empty).2.mpr verbatim⟩

/-- An ampersand in a script comes back as a reference, which is not read as one there. -/
theorem Stage.exists_literal_text_altered :
    ∃ (markup : String) (stage : Stage) (element : NodeId),
      Forest.Every smooth (Forest.parse markup) ∧ stage.shortcomings = {} ∧
      stage.document.cell? element = some ⟨.element "main" none [], none, []⟩ ∧
      Forest.parse (((Stage.copyInto element (Forest.parse markup)).run
        stage).2.document.innerHtml element) ≠ Forest.parse markup := by
  have parsed : Forest.parse "<script>a&b</script>" = [.element "script" none [] [.text "a&b"]] := by
    decide +kernel
  refine ⟨"<script>a&b</script>", Stage.bare, ⟨0⟩, ?_, rfl, rfl, by decide +kernel⟩
  rw [parsed]
  simp [Forest.Every, Node.Every, smooth]

end LiveMarkup
