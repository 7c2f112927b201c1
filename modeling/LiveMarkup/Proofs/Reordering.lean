import LiveMarkup.Proofs.Cutting

/-! # The order of attributes makes no difference

Parsers differ in the order in which they give the attributes of an element.  Whether a literal
compiles does not depend on it, and neither do its parts.  Only the static attributes stay in the
order of the parser (`compile_reordered`).

A cut asks for the dynamic attributes of an element as a whole, since their indices alone say in
which order they come.  So it is carried over to another order (`Stencil.Cut.reorder`). -/

namespace LiveMarkup

open Markup

/-! ## Forests -/

theorem Alike.symm {forest other : Forest} (alike : Alike forest other) : Alike other forest := by
  induction alike with
  | nil => exact .nil
  | element order _ _ inside after => exact .element order.symm inside after
  | text _ after => exact .text after
  | comment _ after => exact .comment after

/-! ## Stencils -/

namespace Stencil

/-- The same pieces of a text in front of both. -/
theorem alike_ofPieces (pieces : List Placeholder.Piece) {behind other : Stencil}
    (alike : Alike behind.forest other.forest) :
    Alike (ofPieces pieces ++ behind).forest (ofPieces pieces ++ other).forest := by
  induction pieces with
  | nil => exact alike
  | cons piece pieces ih => cases piece <;> exact .text ih

/-- Whatever the order of attributes, a forest is cut at the same places. -/
theorem Cut.reorder {next : Nat} {forest other : Forest} {stencil : Stencil}
    (cut : Cut next forest stencil) (alike : Alike forest other) :
    ∃ reordered : Stencil, Cut next other reordered ∧ Alike stencil.forest reordered.forest ∧
      ∀ parent index, reordered.partsAt parent index = stencil.partsAt parent index := by
  induction cut generalizing other with
  | done =>
    cases alike
    exact ⟨.done, .done, .nil, fun _ _ => rfl⟩
  | @element next name space pairs bound children rest below behind named clean marked spelled inside
      after ihInside ihAfter =>
    obtain _ | ⟨order, within, later⟩ := alike
    next pairs' _ _ =>
    obtain ⟨below', cutInside, alikeInside, partsInside⟩ := ihInside within
    obtain ⟨behind', cutAfter, alikeAfter, partsAfter⟩ := ihAfter later
    have static : (staticPairs pairs).Perm (staticPairs pairs') := order.filter _
    -- The indices of the dynamic attributes are the same, in whatever order the parser has them.
    have dynamic : (markedPairs pairs').Perm ((bound.map Prod.fst).zipIdx next) :=
      (order.filterMap _).symm.trans marked
    have count : below'.count = below.count := by
      rw [← length_partsAt below' [] 0, partsInside, length_partsAt]
    refine ⟨.element name space (staticPairs pairs') bound below' behind', ?_,
      .element static alikeInside alikeAfter, fun parent index => ?_⟩
    · refine .element named (fun pair member => ?_) dynamic spelled cutInside ?_
      · exact clean pair (static.mem_iff.mpr member)
      · rw [count]
        exact cutAfter
    · simp only [partsAt, partsInside, partsAfter]
  | @text next data rest behind absent after ih =>
    obtain _ | _ | later := alike
    obtain ⟨behind', cut, alike, parts⟩ := ih later
    exact ⟨.text data behind', .text absent cut, .text alike, fun parent index => parts parent _⟩
  | @pieces next data rest behind found order after ih =>
    obtain _ | _ | later := alike
    obtain ⟨behind', cut, alike, parts⟩ := ih later
    refine ⟨ofPieces (Placeholder.split data.toList) ++ behind', .pieces found order cut,
      alike_ofPieces _ alike, fun parent index => ?_⟩
    rw [partsAt_append, partsAt_append, parts]
  | @comment next data rest behind absent after ih =>
    obtain _ | _ | _ | later := alike
    obtain ⟨behind', cut, alike, parts⟩ := ih later
    exact ⟨.comment data behind', .comment absent cut, .comment alike,
      fun parent index => parts parent _⟩

end Stencil

/-! ## Literals -/

/-- A literal that compiles with one parser compiles with another one that gives the attributes in
other orders. -/
theorem Blueprint.exists_compile_of_alike {parser other : Parser} {segments : List String}
    {forest reordered : Forest} (parsed : parser.parse (Placeholder.join segments) = .ok forest)
    (parsed' : other.parse (Placeholder.join segments) = .ok reordered)
    (alike : Alike forest reordered) {blueprint : Blueprint}
    (compiled : Blueprint.compile parser segments = .ok blueprint) :
    ∃ blueprint', Blueprint.compile other segments = .ok blueprint' ∧
      blueprint'.parts = blueprint.parts ∧ Alike blueprint.forest blueprint'.forest := by
  obtain ⟨forest', stencil, placed, same, rfl, cut⟩ := Blueprint.compile_eq_ok compiled
  obtain rfl : forest = forest' := Except.ok.inj (parsed.symm.trans same)
  obtain ⟨stencil', cut', alike', parts⟩ := cut.reorder alike
  have kept : stencil'.blueprint.parts = stencil.blueprint.parts := parts [] 0
  have surveyed := Blueprint.survey_of_cut cut'
  rw [kept] at surveyed
  refine ⟨stencil'.blueprint, ?_, kept, alike'⟩
  rw [Blueprint.compile_eq, placed]
  simp only [Except.bind, parsed', Except.mapError]
  exact surveyed

/-- Of two parsers that differ in the orders of attributes only, either both compile a literal or none
does.  The parts are the same then, and so are the forests but for the orders of attributes. -/
theorem compile_reordered {parser other : Parser} {segments : List String}
    {forest reordered : Forest} (parsed : parser.parse (Placeholder.join segments) = .ok forest)
    (parsed' : other.parse (Placeholder.join segments) = .ok reordered)
    (alike : Alike forest reordered) :
    ((∃ blueprint, Blueprint.compile parser segments = .ok blueprint) ↔
      ∃ blueprint, Blueprint.compile other segments = .ok blueprint) ∧
    ∀ first second, Blueprint.compile parser segments = .ok first →
      Blueprint.compile other segments = .ok second →
      first.parts = second.parts ∧ Alike first.forest second.forest := by
  refine ⟨⟨?_, ?_⟩, fun first second compiled compiled' => ?_⟩
  · rintro ⟨blueprint, compiled⟩
    obtain ⟨blueprint', compiled', -⟩ :=
      Blueprint.exists_compile_of_alike parsed parsed' alike compiled
    exact ⟨blueprint', compiled'⟩
  · rintro ⟨blueprint, compiled⟩
    obtain ⟨blueprint', compiled', -⟩ :=
      Blueprint.exists_compile_of_alike parsed' parsed alike.symm compiled
    exact ⟨blueprint', compiled'⟩
  · obtain ⟨blueprint', compiled'', parts, alike'⟩ :=
      Blueprint.exists_compile_of_alike parsed parsed' alike compiled
    obtain rfl : second = blueprint' := Except.ok.inj (compiled'.symm.trans compiled'')
    exact ⟨parts.symm, alike'⟩

/-- A parser that gives an element with these attributes, whatever it reads. -/
def Parser.giving (pairs : List (String × String)) : Parser :=
  { parse := fun _ => .ok [.element "p" none pairs []] }

/-- Two dynamic attributes between static ones. -/
def mixedPairs : List (String × String) :=
  [("lang", "en"), ("x", "\x7b\x7bstencil-part-0\x7d\x7d"), ("id", "k"),
    ("y", "\x7b\x7bstencil-part-1\x7d\x7d")]

theorem compile_reordered_mixed :
    ∃ forest reordered first second,
      (Parser.giving mixedPairs).parse (Placeholder.join ["<p x=", " y=", "></p>"]) =
        .ok forest ∧
      (Parser.giving mixedPairs.reverse).parse (Placeholder.join ["<p x=", " y=", "></p>"]) =
        .ok reordered ∧
      Alike forest reordered ∧
      Blueprint.compile (.giving mixedPairs) ["<p x=", " y=", "></p>"] = .ok first ∧
      Blueprint.compile (.giving mixedPairs.reverse) ["<p x=", " y=", "></p>"] = .ok second ∧
      first.parts = second.parts ∧ Alike first.forest second.forest := by
  have alike : Alike [.element "p" none mixedPairs []] [.element "p" none mixedPairs.reverse []] :=
    .element (List.reverse_perm mixedPairs).symm .nil .nil
  have cut : Stencil.Cut 0 [.element "p" none mixedPairs []]
      (.element "p" none (Stencil.staticPairs mixedPairs) [("x", "x"), ("y", "y")] .done .done) :=
    .element (by decide +kernel) (by decide +kernel) (by decide +kernel) (by simp) .done .done
  have placed : positions ["<p x=", " y=", "></p>"] = .ok [.attribute "x", .attribute "y"] := by
    decide +kernel
  obtain ⟨first, compiled⟩ : ∃ first,
      Blueprint.compile (.giving mixedPairs) ["<p x=", " y=", "></p>"] = .ok first := by
    rw [Blueprint.compile_eq, placed]
    exact ⟨_, Blueprint.survey_of_cut cut⟩
  have both := @compile_reordered (.giving mixedPairs) (.giving mixedPairs.reverse)
    ["<p x=", " y=", "></p>"] _ _ rfl rfl alike
  obtain ⟨second, compiled'⟩ := both.1.mp ⟨_, compiled⟩
  exact ⟨_, _, first, second, rfl, rfl, alike, compiled, compiled', both.2 _ _ compiled compiled'⟩

end LiveMarkup
