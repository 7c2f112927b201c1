import LiveMarkup.Proofs.Cutting
import LiveMarkup.Proofs.Printing.Tokens

/-! # Compiling what was printed

Compiling the literal that a draft is printed to gives the blueprint that the draft stands for
(`compile_segments`).

The segments have the positions of the draft, and their markup is parsed to the forest of the draft
with placeholders.  This forest is cut into the stencil of the draft, although texts run together
with the placeholders around them (`Draft.cut`). -/

namespace LiveMarkup

open Markup

/-! ## Texts before placeholders -/

namespace Placeholder

/-- A placeholder does not go on with what a text before it has started. -/
theorem read?_append_chars {c : Char} {cs : List Char} (absent : occursIn (c :: cs) = false)
    (index : Nat) (rest : List Char) : read? (c :: (cs ++ (chars index ++ rest))) = none := by
  cases read : read? (c :: (cs ++ (chars index ++ rest))) with
  | none => rfl
  | some found =>
    obtain ⟨digits, same, -⟩ := read?_eq_some_iff.mp read
    rw [← List.cons_append] at same
    obtain ⟨more, spelled, behind⟩ | ⟨more, spelled, -⟩ := List.append_eq_append_iff.mp same
    · -- The rest of the opening would start with two braces, and be more than nothing.
      have braces : chars index ++ rest =
          '{' :: '{' :: (opening.drop 2 ++ (Nat.toDigits 10 index ++ closing ++ rest)) := by
        rw [chars, opening_eq]
        simp
      rw [braces] at behind
      cases more with
      | nil =>
        rw [List.append_nil] at spelled
        rw [occursIn_iff.mpr ⟨[], [], by rw [spelled]; simp⟩] at absent
        cases absent
      | cons first more =>
        obtain ⟨rfl, behind⟩ := List.cons.inj behind
        have tail : opening.drop 1 = cs ++ '{' :: more := congrArg (List.drop 1) spelled
        cases cs with
        | nil =>
          obtain rfl : more = opening.drop 2 := (congrArg (List.drop 1) tail).symm
          rw [opening_eq] at behind
          simp at behind
        | cons d cs =>
          have brace : '{' ∈ opening.drop 2 := by
            have inner : opening.drop 2 = cs ++ '{' :: more := congrArg (List.drop 1) tail
            rw [inner]
            simp
          exact absurd brace (by decide)
    · rw [occursIn_iff.mpr ⟨[], more, spelled⟩] at absent
      cases absent

/-- A text without placeholders in front of one is a run of its own. -/
theorem split_append_chars {text : List Char} (filled : text ≠ []) (absent : occursIn text = false)
    {index : Nat} (small : index < bound) (rest : List Char) :
    split (text ++ (chars index ++ rest)) = Piece.run text :: split (chars index ++ rest) := by
  induction text with
  | nil => exact absurd rfl filled
  | cons c text ih =>
    rw [List.cons_append, split_of_read?_none (read?_append_chars absent index rest)]
    cases text with
    | nil => rw [List.nil_append, split_chars_append small, Piece.cons]; simp
    | cons d text => rw [ih (List.cons_ne_nil _ _) (occursIn_tail absent), Piece.cons]

end Placeholder

/-! ## Cutting joined texts -/

namespace Markup

/-- The first text of sibling nodes, if any, is not empty. -/
def Filled (forest : Forest) : Prop :=
  ∀ data rest, forest = .text data :: rest → data ≠ ""

theorem Filled.joinText {data : String} {forest : Forest} (filled : Filled forest) :
    Filled (joinText data forest) := by
  unfold Markup.joinText
  split
  · exact filled
  next notEmpty =>
  split
  · rintro whole rest same
    cases same
    intro empty
    rw [← String.toList_inj, String.toList_append, String.toList_empty,
      List.append_eq_nil_iff] at empty
    exact notEmpty (String.toList_inj.mp empty.1)
  · rintro whole rest same
    cases same
    exact notEmpty

theorem filled_merge (forest : Forest) : Filled (Forest.merge forest) := by
  induction forest with
  | nil => nofun
  | cons tree forest ih =>
    cases tree with
    | text data => exact ih.joinText
    | element | comment => nofun

end Markup

namespace Stencil.Cut

open Placeholder

variable {next : Nat} {forest : Forest} {stencil : Stencil}

theorem text_ne_empty (index : Nat) : Placeholder.text index ≠ "" := by
  intro empty
  have chars := congrArg String.toList empty
  rw [Placeholder.text, String.toList_ofList, Placeholder.chars, opening_eq] at chars
  cases chars

/-- A text that starts with the next placeholder has a gap first. -/
theorem gap_text (small : next < bound) {tail : List Char} {rest : Forest} {behind : Stencil}
    (order : indices (split tail) = List.range' (next + 1) (indices (split tail)).length)
    (after : Cut (next + 1 + (indices (split tail)).length) rest behind) :
    Cut next (.text (String.ofList (chars next ++ tail)) :: rest)
      (gap (ofPieces (split tail) ++ behind)) := by
  have found : occursIn (String.ofList (chars next ++ tail)).toList = true := by
    rw [String.toList_ofList]
    exact occursIn_of_infix (List.prefix_append _ tail).isInfix
  have cut := split_chars_append small tail
  have pieces : split (String.ofList (chars next ++ tail)).toList = .placeholder next :: split tail := by
    rw [String.toList_ofList, cut]
  have whole : Cut next (.text (String.ofList (chars next ++ tail)) :: rest)
      (ofPieces (split (String.ofList (chars next ++ tail)).toList) ++ behind) := by
    refine .pieces found ?_ ?_
    · rw [pieces, indices, List.length_cons, List.range'_succ, ← order]
    · rw [pieces, indices, List.length_cons]
      have total : next + ((indices (split tail)).length + 1) =
          next + 1 + (indices (split tail)).length := by omega
      rwa [total]
  rwa [pieces] at whole

/-- The next placeholder in front of a forest is one more gap, also if it joins a text. -/
theorem gap_join (small : next < bound) (filled : Filled forest) (cut : Cut (next + 1) forest stencil) :
    Cut next (joinText (Placeholder.text next) forest) (gap stencil) := by
  have apart (other : ∀ data rest, forest ≠ .text data :: rest) :
      Cut next (joinText (Placeholder.text next) forest) (gap stencil) := by
    have alone : joinText (Placeholder.text next) forest = .text (Placeholder.text next) :: forest := by
      unfold joinText
      rw [if_neg (text_ne_empty next)]
      split
      · next data rest => exact absurd rfl (other data rest)
      · rfl
    have whole : Cut next (.text (String.ofList (chars next ++ [])) :: forest) _ :=
      gap_text small (by simp [indices]) (by simpa [indices] using cut)
    rw [alone]
    simpa [ofPieces, Placeholder.text] using whole
  have joined (data : String) (rest : Forest) :
      joinText (Placeholder.text next) (.text data :: rest) =
        .text (String.ofList (chars next ++ data.toList)) :: rest := by
    unfold joinText
    rw [if_neg (text_ne_empty next), Placeholder.text, String.ofList_append, String.ofList_toList]
  -- A text behind the placeholder becomes one text with it, whether it has placeholders or not.
  cases cut with
  | done => exact apart (by simp)
  | element named clean marked spelled inside after => exact apart (by simp)
  | comment absent after => exact apart (by simp)
  | @text _ data rest behind absent after =>
    have chars_ne_nil : data.toList ≠ [] := fun empty =>
      filled data rest rfl (String.toList_inj.mp empty)
    have pieces := (Plain.of_not_occursIn absent).split chars_ne_nil
    have whole := gap_text small (by rw [pieces]; rfl) (by rw [pieces]; exact after)
    rw [pieces, ofPieces, String.ofList_toList] at whole
    rw [joined]
    exact whole
  | @pieces _ data rest behind found order after =>
    rw [joined]
    exact gap_text small order after

/-- A text in front of a forest that does not start with plain text comes before all that is cut. -/
theorem text_join {data : String} (filled : data ≠ "") (absent : occursIn data.toList = false)
    (apart : ∀ behind rest, forest = .text behind :: rest →
      next < bound ∧ ∃ tail, behind.toList = chars next ++ tail)
    (cut : Cut next forest stencil) :
    Cut next (joinText data forest) (Stencil.text data stencil) := by
  have alone (other : ∀ data rest, forest ≠ .text data :: rest) :
      Cut next (joinText data forest) (Stencil.text data stencil) := by
    have front : joinText data forest = .text data :: forest := by
      unfold joinText
      rw [if_neg filled]
      split
      · next behind rest => exact absurd rfl (other behind rest)
      · rfl
    rw [front]
    exact .text absent cut
  have chars_ne_nil : data.toList ≠ [] := fun empty => filled (String.toList_inj.mp empty)
  -- Only a text that begins with a placeholder is joined with the one in front.
  cases cut with
  | done => exact alone nofun
  | element named clean marked spelled inside after => exact alone nofun
  | comment absent after => exact alone nofun
  | @text _ behind rest stencil absent' after =>
    obtain ⟨-, tail, same⟩ := apart behind rest rfl
    have occurs : occursIn behind.toList = true := by
      rw [same]
      exact occursIn_of_infix (List.prefix_append _ tail).isInfix
    rw [occurs] at absent'
    cases absent'
  | @pieces _ behind rest stencil found order after =>
    obtain ⟨small, tail, same⟩ := apart behind rest rfl
    have front : joinText data (.text behind :: rest) = .text (data ++ behind) :: rest := by
      unfold joinText
      rw [if_neg filled]
    have pieces : split (data ++ behind).toList = .run data.toList :: split behind.toList := by
      rw [String.toList_append, same, split_append_chars chars_ne_nil absent small]
    have occurs : occursIn (data ++ behind).toList = true := by
      rw [String.toList_append]
      exact occursIn_mono found (List.suffix_append data.toList _).isInfix
    have whole : Cut next (.text (data ++ behind) :: rest)
        (ofPieces (split (data ++ behind).toList) ++ stencil) := by
      refine .pieces occurs ?_ ?_
      · rw [pieces]
        exact order
      · rw [pieces]
        exact after
    rw [pieces, ofPieces, String.ofList_toList, text_append] at whole
    rw [front]
    exact whole

end Stencil.Cut

/-! ## Attributes -/

/-- Attributes with different names are only put in order. -/
theorem Markup.sortAttributes_perm {pairs : List (String × String)}
    (distinct : (pairs.map Prod.fst).Nodup) : (sortAttributes pairs).Perm pairs := by
  refine (List.perm_ext_iff_of_nodup (sorted_sortAttributes pairs).nodup.of_map
    distinct.of_map).mpr fun pair => ?_
  rw [mem_sortAttributes_iff]
  refine ⟨List.mem_of_find?_eq_some, fun member => ?_⟩
  obtain ⟨other, found⟩ : ∃ other, pairs.find? (fun other => other.1 = pair.1) = some other :=
    Option.isSome_iff_exists.mp (List.find?_isSome.mpr ⟨pair, member, by simp⟩)
  have same : other.1 = pair.1 := by simpa using List.find?_some found
  rw [found, List.inj_on_of_nodup_map distinct (List.mem_of_find?_eq_some found) member same]

variable {attributes : List (String × Option String)}

theorem map_fst_markedAttributes (next : Nat) :
    (markedAttributes next attributes).map Prod.fst = attributes.map fun pair => lowerCase pair.1 := by
  induction attributes generalizing next with
  | nil => rfl
  | cons pair attributes ih =>
    obtain ⟨name, value⟩ := pair
    cases value <;> simp [markedAttributes, ih]

/-- The attributes with placeholders as their values are the dynamic ones. -/
theorem pairs_markedAttributes
    (printable : ∀ pair ∈ attributes, isPrintableAttribute pair = true) {next : Nat}
    (small : next + (dynamicAttributes attributes).length ≤ Placeholder.bound) :
    Stencil.staticPairs (markedAttributes next attributes) =
        attributes.filterMap (fun pair => pair.2.map (lowerCase pair.1, ·)) ∧
      Stencil.markedPairs (markedAttributes next attributes) =
        ((dynamicAttributes attributes).map Prod.fst).zipIdx next := by
  induction attributes generalizing next with
  | nil => exact ⟨rfl, rfl⟩
  | cons pair attributes ih =>
    obtain ⟨name, value⟩ := pair
    rw [List.forall_mem_cons, isPrintableAttribute_iff] at printable
    cases value with
    | none =>
      have fewer : next + 1 + (dynamicAttributes attributes).length ≤ Placeholder.bound := by
        simp only [dynamicAttributes, List.length_map, List.filter_cons, Option.isNone_none,
          if_true, List.length_cons] at small ⊢
        omega
      obtain ⟨static, marked⟩ := ih printable.2 fewer
      have whole : Placeholder.index? (Placeholder.text next).toList = some next := by
        rw [Placeholder.text, String.toList_ofList]
        exact Placeholder.index?_chars (by omega)
      rw [markedAttributes, Stencil.staticPairs_marked whole, Stencil.markedPairs_marked whole,
        static, marked]
      simp [dynamicAttributes]
    | some data =>
      obtain ⟨static, marked⟩ := ih printable.2 small
      have plain := (isPrintable_iff.mp (printable.1.2 data rfl)).2
      have none : Placeholder.index? data.toList = none := by
        rw [Placeholder.index?, Placeholder.read?_eq_none_of_not_occursIn plain]
      rw [markedAttributes, Stencil.staticPairs_static none, Stencil.markedPairs_static none,
        static, marked]
      simp [dynamicAttributes]

/-- The static attributes of an element, as they are read. -/
theorem staticPairs_sortAttributes
    (printable : ∀ pair ∈ attributes, isPrintableAttribute pair = true)
    (distinct : (attributes.map fun pair => lowerCase pair.1).Nodup) {next : Nat}
    (small : next + (dynamicAttributes attributes).length ≤ Placeholder.bound) :
    Stencil.staticPairs (sortAttributes (markedAttributes next attributes)) =
      staticAttributes attributes := by
  rw [← map_fst_markedAttributes next] at distinct
  have perm := (sortAttributes_perm distinct).filter
    fun pair => (Placeholder.index? pair.2.toList).isNone
  have sorted : Sorted (Stencil.staticPairs (sortAttributes (markedAttributes next attributes))) :=
    (sorted_sortAttributes _).sublist (List.filter_sublist.map Prod.fst)
  rw [staticAttributes, ← (pairs_markedAttributes printable small).1]
  exact (sorted.insertionSort_eq perm).symm

theorem markedPairs_sortAttributes
    (printable : ∀ pair ∈ attributes, isPrintableAttribute pair = true)
    (distinct : (attributes.map fun pair => lowerCase pair.1).Nodup) {next : Nat}
    (small : next + (dynamicAttributes attributes).length ≤ Placeholder.bound) :
    (Stencil.markedPairs (sortAttributes (markedAttributes next attributes))).Perm
      (((dynamicAttributes attributes).map Prod.fst).zipIdx next) := by
  rw [← map_fst_markedAttributes next] at distinct
  rw [← (pairs_markedAttributes printable small).2]
  exact (sortAttributes_perm distinct).filterMap _

theorem not_occursIn_lowerCase {name : String} (valid : isAttributeName name.toList = true) :
    Placeholder.occursIn (lowerCase name).toList = false := by
  have braceless : '{' ∉ (lowerCase name).toList := by
    rw [lowerCase, String.toList_map]
    intro member
    obtain ⟨c, listed, same⟩ := List.mem_map.mp member
    have brace : c = '{' := eq_of_toLower_eq same rfl
    exact absurd (forall_of_isAttributeName valid c listed) (by rw [brace]; decide)
  have absent := Placeholder.occursIn_append_of_notMem braceless []
  rwa [List.append_nil] at absent

/-! ## Drafts -/

namespace Draft

/-- Where a forest starts with the text of a hole or nothing plain. -/
theorem merge_marked_starts {draft : Draft} (other : draft.startsWithText = false)
    (space : Option String) {next : Nat} (small : next + draft.count ≤ Placeholder.bound) :
    ∀ behind rest, Forest.merge (draft.marked space next) = .text behind :: rest →
      next < Placeholder.bound ∧ ∃ tail, behind.toList = Placeholder.chars next ++ tail := by
  cases draft with
  | done => nofun
  | element => nofun
  | text => cases other
  | hole more =>
    intro behind rest same
    rw [count] at small
    refine ⟨by omega, ?_⟩
    rw [marked, merge_text] at same
    unfold joinText at same
    rw [if_neg (Stencil.Cut.text_ne_empty next)] at same
    split at same
    · cases same
      exact ⟨_, by rw [String.toList_append, Placeholder.text, String.toList_ofList]⟩
    · cases same
      exact ⟨[], by rw [Placeholder.text, String.toList_ofList, List.append_nil]⟩

/-- The forest of a draft with placeholders is cut into the stencil of the draft. -/
theorem cut {draft : Draft} (proper : draft.Proper) (space : Option String) {next : Nat}
    (small : next + draft.count ≤ Placeholder.bound) :
    Stencil.Cut next (Forest.merge (draft.marked space next)) (draft.stencil space) := by
  induction draft generalizing space next with
  | done => exact .done
  | element name attributes children rest ihChildren ihRest =>
    obtain ⟨⟨named, -, -⟩, ⟨printable, distinct⟩, below, behind⟩ := proper
    rw [count] at small
    have few : next + (dynamicAttributes attributes).length ≤ Placeholder.bound := by omega
    -- Static and dynamic attributes are apart in the stencil, and sorted as one list in the forest.
    have static := staticPairs_sortAttributes printable distinct few
    have clean : ∀ pair ∈ staticAttributes attributes,
        Placeholder.occursIn pair.1.toList = false ∧ Placeholder.occursIn pair.2.toList = false := by
      intro pair member
      obtain ⟨⟨written, value⟩, listed, same⟩ :=
        List.mem_filterMap.mp ((List.mem_insertionSort _).mp member)
      obtain ⟨data, isStatic, rfl⟩ := Option.map_eq_some_iff.mp same
      have valid := isPrintableAttribute_iff.mp (printable _ listed)
      exact ⟨not_occursIn_lowerCase valid.1, (isPrintable_iff.mp (valid.2 data isStatic)).2⟩
    have plain : Placeholder.occursIn name.toList = false := by
      have absent := not_occursIn_lowerCase (isAttributeName_of_isElementName named)
      rwa [lowerCase_of_isElementName named] at absent
    rw [marked, merge_element, stencil, ← static]
    refine .element plain (static ▸ clean) (markedPairs_sortAttributes printable distinct few)
      (fun pair member => ?_) (ihChildren below _ (by omega)) ?_
    · obtain ⟨written, -, rfl⟩ := List.mem_map.mp member
      exact lowerCase_lowerCase _
    · rw [stencil_count]
      exact ihRest behind space (by omega)
  | text data rest ih =>
    obtain ⟨⟨filled, printable, other⟩, behind⟩ := proper
    exact .text_join filled (isPrintable_iff.mp printable).2 (merge_marked_starts other space small)
      (ih behind space small)
  | hole rest ih =>
    rw [count] at small
    exact .gap_join (by omega) (filled_merge _) (ih proper space (by omega))

end Draft

/-- The literal that a draft is printed to compiles, and its blueprint is what the draft says, if there
are placeholders for all of its values. -/
theorem compile_segments {draft : Draft} (proper : draft.Proper)
    (few : draft.count ≤ Placeholder.bound) :
    Blueprint.compile .standard draft.segments = .ok draft.blueprint := by
  have cut : Stencil.Cut 0 (Forest.merge (draft.marked none 0)) (draft.stencil none) :=
    Draft.cut proper none (by omega)
  have surveyed := Blueprint.survey_of_cut cut
  rw [Draft.stencil_blueprint] at surveyed
  have parsed : Parser.standard.parse (Placeholder.join draft.segments) =
      .ok (Forest.merge (draft.marked none 0)) := by
    rw [← Draft.parse_join proper]
    rfl
  rw [Blueprint.compile_eq, Draft.positions_segments proper]
  simp only [Except.bind, parsed, Except.mapError]
  exact surveyed

/-- A drawing with values in its tag and inside of it, behind a text that has to be escaped. -/
def Draft.drawing : Draft :=
  .text "a<b & " <| .hole <|
    .element "svg" [("viewBox", some "0 0 \"1\""), ("OnClick", none), ("id", none), ("a", some "")]
      (.element "br" [] .done <| .hole <| .hole <| .text "\x7b" .done) <|
    .hole .done

theorem compile_segments_drawing :
    Draft.drawing.Proper ∧ Draft.drawing.count ≤ Placeholder.bound ∧
      Blueprint.compile .standard Draft.drawing.segments = .ok Draft.drawing.blueprint :=
  have proper : Draft.drawing.Proper := by decide +kernel
  have few : Draft.drawing.count ≤ Placeholder.bound := by decide
  ⟨proper, few, compile_segments proper few⟩

example : Draft.drawing.segments =
    ["a&lt;b &amp; ", "<svg viewBox=\"0 0 &quot;1&quot;\" OnClick=\"", "\" id=\"", "\" a=\"\"><br>",
      "", "\x7b</svg>", ""] := by
  decide +kernel

example : Draft.drawing.blueprint.parts =
    [.node [1], .attribute ⟨[2], "onclick", "OnClick"⟩, .attribute ⟨[2], "id", "id"⟩, .node [2, 1],
      .node [2, 2], .node [3]] := by
  decide +kernel

end LiveMarkup
