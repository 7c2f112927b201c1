import LiveMarkup.Literal.SegmentReader
import LiveMarkup.Proofs.Printing.Draft
import LiveMarkup.Proofs.Words

/-! # Reading the segments of a draft

The segments that a draft is printed to are read without complaint, and each value is found where the
draft has it (`Draft.positions_segments`).

`Placed` says where values are found in what is printed, breaks and all.  There, a draft can be
followed by anything (`Draft.placed`). -/

namespace LiveMarkup

open Markup

/-! ## Names -/

theorem ne_of_isNameChar {c : Char} (name : isNameChar c = true) (special : Char)
    (other : isNameChar special = false) : c ≠ special := by
  rintro rfl
  rw [name] at other
  cases other

theorem isNameChar_of_isAlpha {c : Char} (alpha : c.isAlpha = true) : isNameChar c = true := by
  simp [isNameChar, Char.isAlphanum, alpha]

theorem isBlank_of_isNameChar {c : Char} (name : isNameChar c = true) : isBlank c = false := by
  simp only [isBlank, Bool.or_eq_false_iff, beq_eq_false_iff_ne]
  exact ⟨⟨⟨⟨ne_of_isNameChar name _ rfl, ne_of_isNameChar name _ rfl⟩, ne_of_isNameChar name _ rfl⟩,
    ne_of_isNameChar name _ rfl⟩, ne_of_isNameChar name _ rfl⟩

theorem exists_of_isAttributeName {name : List Char} (valid : isAttributeName name = true) :
    ∃ first rest, name = first :: rest ∧ first.isAlpha = true ∧
      ∀ c ∈ rest, isNameChar c = true := by
  cases name with
  | nil => cases valid
  | cons first rest =>
    simp only [isAttributeName, Bool.and_eq_true, List.all_eq_true] at valid
    exact ⟨first, rest, rfl, valid⟩

theorem forall_of_isAttributeName {name : List Char} (valid : isAttributeName name = true) :
    ∀ c ∈ name, isNameChar c = true := by
  obtain ⟨first, rest, rfl, alpha, others⟩ := exists_of_isAttributeName valid
  exact List.forall_mem_cons.mpr ⟨isNameChar_of_isAlpha alpha, others⟩

theorem isAttributeName_of_isElementName {name : List Char} (valid : isElementName name = true) :
    isAttributeName name = true := by
  cases name with
  | nil => cases valid
  | cons first rest =>
    simp only [isElementName, isAttributeName, Bool.and_eq_true, List.all_eq_true] at valid ⊢
    refine ⟨isAlpha_iff.mpr (.inr valid.1), fun c member => ?_⟩
    have either := valid.2 c member
    simp only [Bool.or_eq_true] at either
    obtain (lower | digit) | dash := either
    · exact isNameChar_of_isAlpha (isAlpha_iff.mpr (.inr lower))
    · simp [isNameChar, Char.isAlphanum, digit]
    · simp [isNameChar, dash]

/-- A name of an element has no capital letters. -/
theorem toLower_of_isElementName {name : List Char} (valid : isElementName name = true) :
    ∀ c ∈ name, c.toLower = c := by
  cases name with
  | nil => cases valid
  | cons first rest =>
    simp only [isElementName, Bool.and_eq_true, List.all_eq_true] at valid
    refine List.forall_mem_cons.mpr ⟨toLower_of_isCalm (by simp [isCalm, valid.1]), fun c member => ?_⟩
    have either := valid.2 c member
    simp only [Bool.or_eq_true, beq_iff_eq] at either
    obtain either | rfl := either
    · exact toLower_of_isCalm (by simpa [isCalm] using .inl (.inl either))
    · rfl

theorem lowerCase_of_isElementName {name : String} (valid : isElementName name.toList = true) :
    lowerCase name = name := by
  rw [← String.toList_inj, lowerCase, String.toList_map]
  exact (List.map_congr_left (toLower_of_isElementName valid)).trans (List.map_id _)

/-! ## Escapes -/

/-- Each character is written as itself or as a reference. -/
def Escapes (escape : Char → List Char) : Prop :=
  ∀ c, escape c = [c] ∨ ∃ name, escape c = '&' :: name ∧ '{' ∉ name

theorem escapes_text : Escapes escapeTextChar := by
  intro c
  unfold escapeTextChar
  split
  · exact .inr ⟨_, rfl, by decide⟩
  · exact .inr ⟨_, rfl, by decide⟩
  · exact .inr ⟨_, rfl, by decide⟩
  · exact .inr ⟨_, rfl, by decide⟩
  · exact .inl rfl

theorem escapes_value : Escapes escapeValueChar := by
  intro c
  unfold escapeValueChar
  split
  · exact .inr ⟨_, rfl, by decide⟩
  · exact .inr ⟨_, rfl, by decide⟩
  · exact .inr ⟨_, rfl, by decide⟩
  · exact .inl rfl

theorem prefix_of_prefix_flatMap {escape : Char → List Char} (escapes : Escapes escape)
    {front text : List Char} (plain : '&' ∉ front) (begins : front <+: text.flatMap escape) :
    front <+: text := by
  induction front generalizing text with
  | nil => exact List.nil_prefix
  | cons c front ih =>
    rw [List.mem_cons, not_or] at plain
    cases text with
    | nil => simp at begins
    | cons d text =>
      rw [List.flatMap_cons] at begins
      obtain same | ⟨name, same, -⟩ := escapes d
      · rw [same, List.singleton_append, List.cons_prefix_cons] at begins
        obtain ⟨rfl, begins⟩ := begins
        exact List.cons_prefix_cons.mpr ⟨rfl, ih plain.2 begins⟩
      · rw [same, List.cons_append, List.cons_prefix_cons] at begins
        exact absurd begins.1.symm plain.1

namespace Placeholder

theorem occursIn_append_of_notMem {front : List Char} (braceless : '{' ∉ front)
    (rest : List Char) : occursIn (front ++ rest) = occursIn rest := by
  induction front with
  | nil => rfl
  | cons c front ih =>
    rw [List.mem_cons, not_or] at braceless
    have other : opening.isPrefixOf (c :: (front ++ rest)) = false := by
      rw [opening_eq, ← Bool.not_eq_true, List.isPrefixOf_iff_prefix, List.cons_prefix_cons]
      exact fun begins => braceless.1 begins.1
    rw [List.cons_append, occursIn, other, Bool.false_or, ih braceless.2]

/-- Escapes spell no placeholder. -/
theorem occursIn_flatMap {escape : Char → List Char} (escapes : Escapes escape) {text : List Char}
    (absent : occursIn text = false) : occursIn (text.flatMap escape) = false := by
  induction text with
  | nil => rfl
  | cons c text ih =>
    have later := ih (occursIn_tail absent)
    rw [List.flatMap_cons]
    obtain same | ⟨name, same, braceless⟩ := escapes c
    · rw [same, List.singleton_append, occursIn, later, Bool.or_false, ← Bool.not_eq_true,
        List.isPrefixOf_iff_prefix]
      intro begins
      -- References start with a character that the opening does not have, so the text starts with it.
      have whole : opening <+: (c :: text).flatMap escape := by
        rwa [List.flatMap_cons, same]
      obtain ⟨after, spelled⟩ := prefix_of_prefix_flatMap escapes (by decide) whole
      rw [occursIn_iff.mpr ⟨[], after, spelled.symm⟩] at absent
      cases absent
    · rw [same, occursIn_append_of_notMem, later]
      rw [List.mem_cons, not_or]
      exact ⟨by decide, braceless⟩

end Placeholder

/-! ## Prints without placeholders -/

namespace Print

theorem exists_segments_eq (print : Print) : ∃ first more, segments print = first :: more := by
  cases print with
  | nil => exact ⟨[], [], rfl⟩
  | cons glyph rest =>
    cases glyph with
    | none => exact ⟨[], _, rfl⟩
    | some c =>
      rw [segments]
      cases segments rest with
      | nil => exact ⟨_, _, rfl⟩
      | cons segment more => exact ⟨_, _, rfl⟩

/-- The segments are stretches of what is printed. -/
theorem segments_infix {print : Print} {first : List Char} {more : List (List Char)}
    (same : segments print = first :: more) :
    ofChars first <+: print ∧ ∀ segment ∈ more, ofChars segment <:+: print := by
  induction print generalizing first more with
  | nil =>
    cases same
    exact ⟨List.nil_prefix, nofun⟩
  | cons glyph rest ih =>
    obtain ⟨next, others, split⟩ := exists_segments_eq rest
    obtain ⟨front, stretches⟩ := ih split
    have later (segment : List Char) (stretch : ofChars segment <:+: rest) :
        ofChars segment <:+: glyph :: rest := stretch.trans (List.suffix_cons glyph rest).isInfix
    cases glyph with
    | none =>
      rw [segments, split, List.cons.injEq] at same
      obtain ⟨rfl, rfl⟩ := same
      refine ⟨List.nil_prefix, List.forall_mem_cons.mpr ⟨later _ front.isInfix, ?_⟩⟩
      exact fun segment member => later segment (stretches segment member)
    | some c =>
      rw [segments, split] at same
      obtain ⟨rfl, rfl⟩ := List.cons.inj same
      exact ⟨List.cons_prefix_cons.mpr ⟨rfl, front⟩,
        fun segment member => later segment (stretches segment member)⟩

/-- Nowhere does a placeholder start. -/
def Clear (print : Print) : Prop :=
  ¬ ofChars Placeholder.opening <:+: print

/-- What ends the start of a placeholder, for not being part of it. -/
def separates (glyph : Option Char) : Bool :=
  glyph ∉ ofChars Placeholder.opening

variable {print front behind : Print}

theorem Clear.of_notMem (braceless : some '{' ∉ print) : Clear print := by
  intro spelled
  exact braceless (spelled.subset (by decide))

theorem clear_ofChars {text : List Char} (absent : Placeholder.occursIn text = false) :
    Clear (ofChars text) := by
  intro spelled
  have within := spelled.filterMap id
  simp only [ofChars, List.filterMap_map, Function.comp_def, id_eq, List.filterMap_some] at within
  obtain ⟨before, after, same⟩ := within
  rw [List.append_assoc] at same
  rw [Placeholder.occursIn_iff.mpr ⟨before, after, same.symm⟩] at absent
  cases absent

theorem Clear.not_occursIn {segment : List Char} (clear : Clear print)
    (stretch : ofChars segment <:+: print) : Placeholder.occursIn segment = false := by
  rw [← Bool.not_eq_true, Placeholder.occursIn_iff]
  rintro ⟨before, after, rfl⟩
  have spelled : Placeholder.opening <:+: before ++ (Placeholder.opening ++ after) :=
    ⟨before, after, List.append_assoc _ _ _⟩
  exact clear ((spelled.map some).trans stretch)

/-- What is clear stays so in front of something else, if that does not go on with the start of a
placeholder. -/
theorem Clear.append (clear : Clear front) (clear' : Clear behind)
    (apart : ∀ glyph ∈ behind.head?, separates glyph = true) : Clear (front ++ behind) := by
  induction front with
  | nil => exact clear'
  | cons glyph front ih =>
    intro spelled
    obtain begins | later := List.infix_cons_iff.mp spelled
    · -- A placeholder that starts here would have to reach beyond the front.
      obtain ⟨after, begins⟩ := begins
      have same : ofChars Placeholder.opening ++ after = (glyph :: front) ++ behind := begins
      obtain ⟨rest, front', -⟩ | ⟨rest, spelled, behind'⟩ := List.append_eq_append_iff.mp same
      · exact clear ⟨[], rest, front'.symm⟩
      · cases rest with
        | nil => exact clear ⟨[], [], by simpa using spelled⟩
        | cons next rest =>
          have separate := apart next (by rw [behind']; rfl)
          have member : next ∈ ofChars Placeholder.opening := by
            rw [spelled]
            simp
          simp [separates, member] at separate
    · exact ih (fun inner => clear (inner.trans (List.suffix_cons glyph front).isInfix)) later

theorem Clear.cons {glyph : Option Char} (other : separates glyph = true) (clear : Clear behind) :
    Clear (glyph :: behind) := by
  intro spelled
  obtain begins | later := List.infix_cons_iff.mp spelled
  · have head : ofChars Placeholder.opening = some '{' :: ofChars (Placeholder.opening.drop 1) := rfl
    rw [head, List.cons_prefix_cons] at begins
    rw [← begins.1] at other
    cases other
  · exact clear later

theorem clear_name {name : List Char} (valid : isAttributeName name = true) :
    Clear (ofChars name) := by
  refine .of_notMem fun member => ?_
  obtain ⟨c, listed, same⟩ := List.mem_map.mp member
  cases same
  exact absurd (forall_of_isAttributeName valid _ listed) (by decide)

theorem clear_attribute {pair : String × Option String} (printable : isPrintableAttribute pair = true)
    (clear : Clear behind) : Clear (attributePrint pair ++ behind) := by
  obtain ⟨name, value⟩ := pair
  rw [isPrintableAttribute_iff] at printable
  have quoted : Clear (some '"' :: behind) := clear.cons rfl
  have rest : Clear (valuePrint value ++ some '"' :: behind) := by
    cases value with
    | none => exact quoted.cons rfl
    | some value =>
      have absent := (isPrintable_iff.mp (printable.2 value rfl)).2
      exact (clear_ofChars (Placeholder.occursIn_flatMap escapes_value absent)).append quoted
        (by simp; rfl)
  have value : Clear (some '=' :: some '"' :: (valuePrint value ++ some '"' :: behind)) :=
    (rest.cons rfl).cons rfl
  simpa [attributePrint] using ((clear_name printable.1).append value (by simp; rfl)).cons rfl

theorem clear_attributes {attributes : List (String × Option String)}
    (printable : ∀ pair ∈ attributes, isPrintableAttribute pair = true) (clear : Clear behind) :
    Clear (attributes.flatMap attributePrint ++ behind) := by
  induction attributes with
  | nil => exact clear
  | cons pair attributes ih =>
    rw [List.forall_mem_cons] at printable
    rw [List.flatMap_cons, List.append_assoc]
    exact clear_attribute printable.1 (ih printable.2)

end Print

namespace Draft

open Print

/-- What follows a text ends the start of a placeholder. -/
theorem separates_head {draft : Draft} (other : draft.startsWithText = false) :
    ∀ glyph ∈ draft.print.head?, separates glyph = true := by
  cases draft with
  | done => nofun
  | text => cases other
  | element | hole =>
    intro glyph first
    cases first
    rfl

theorem clear_print {draft : Draft} (proper : draft.Proper) : Clear draft.print := by
  induction draft with
  | done => exact .of_notMem List.not_mem_nil
  | element name attributes children rest ihChildren ihRest =>
    obtain ⟨⟨named, -, -⟩, ⟨printable, -⟩, below, behind⟩ := proper
    have name' := clear_name (isAttributeName_of_isElementName named)
    have after := ihRest behind
    have endTag : Clear (some '<' :: some '/' :: (ofChars name.toList ++ some '>' :: rest.print)) :=
      ((name'.append (after.cons rfl) (by simp; rfl)).cons rfl).cons rfl
    have inside : Clear ((if isVoid name then [] else children.print ++ ofChars (endTagHtml name)) ++
        rest.print) := by
      split
      · exact after
      · have whole := (ihChildren below).append endTag (by simp; rfl)
        simpa [endTagHtml, ofChars] using whole
    have closed : Clear (some '>' :: _) := inside.cons rfl
    have attributes' := clear_attributes printable closed
    refine (name'.append attributes' fun glyph first => ?_).cons rfl
    cases attributes with
    | nil =>
      cases first
      rfl
    | cons =>
      cases first
      rfl
  | text data rest ih =>
    obtain ⟨⟨-, printable, other⟩, behind⟩ := proper
    have absent := Placeholder.occursIn_flatMap escapes_text (isPrintable_iff.mp printable).2
    exact (clear_ofChars absent).append (ih behind) (separates_head other)
  | hole rest ih => exact (ih proper).cons rfl

/-- No segment has the start of a placeholder in it. -/
theorem not_occursIn_segments {draft : Draft} (proper : draft.Proper) :
    ∀ segment ∈ Print.segments draft.print, Placeholder.occursIn segment = false := by
  obtain ⟨first, more, same⟩ := exists_segments_eq draft.print
  obtain ⟨front, stretches⟩ := segments_infix same
  rw [same]
  refine List.forall_mem_cons.mpr ⟨?_, fun segment member => ?_⟩
  · exact (clear_print proper).not_occursIn front.isInfix
  · exact (clear_print proper).not_occursIn (stretches segment member)

end Draft

/-! ## Values in prints -/

/-- `Placed reader print places` says that the reader finds the values of what is printed at the given
positions. -/
inductive Placed : SegmentReader → Print → List Position → Prop where
  | done {reader : SegmentReader} : Placed reader [] []
  | char {reader : SegmentReader} {c : Char} {rest : Print} {places : List Position}
      (after : Placed (reader.step c) rest places) : Placed reader (some c :: rest) places
  | child {reader : SegmentReader} {rest : Print} {places : List Position}
      (outside : reader.state = .data) (after : Placed reader rest places) :
      Placed reader (none :: rest) (.child :: places)
  | value {reader : SegmentReader} {quote : Char} {rest : Print} {places : List Position}
      (empty : reader.state = .quotedValue quote true) (ends : rest.head? = some (some quote))
      (after : Placed (reader.enter (.quotedValue quote false)) rest places) :
      Placed reader (none :: rest) (.attribute reader.lastAttribute :: places)

namespace Placed

variable {reader : SegmentReader} {rest : Print} {places : List Position}

theorem chars {text : List Char} (after : Placed (reader.feed text) rest places) :
    Placed reader (Print.ofChars text ++ rest) places := by
  induction text generalizing reader with
  | nil => exact after
  | cons c text ih => exact .char (ih after)

/-- The values are found between the segments. -/
theorem positionsFrom {print : Print} (placed : Placed reader print places) {before : SegmentReader}
    {front first : List Char} {more : List (List Char)} (read : before.feed front = reader)
    (same : Print.segments print = first :: more) (index : Nat) :
    before.positionsFrom index ((front ++ first) :: more) = .ok places := by
  induction placed generalizing before front first more index with
  | done =>
    cases same
    rfl
  | @char reader c rest places after ih =>
    obtain ⟨next, others, split⟩ := Print.exists_segments_eq rest
    rw [Print.segments, split] at same
    obtain ⟨rfl, rfl⟩ := List.cons.inj same
    -- The character becomes the last one of the front part.
    have grown : before.feed (front ++ [c]) = reader.step c := by
      rw [← read]
      exact List.foldl_concat _ _ _ _
    simpa using ih grown split index
  | @child reader rest places outside after ih =>
    obtain ⟨next, others, split⟩ := Print.exists_segments_eq rest
    rw [Print.segments, split, List.cons.injEq] at same
    obtain ⟨rfl, rfl⟩ := same
    have later : reader.positionsFrom (index + 1) (([] ++ next) :: others) = .ok places :=
      ih rfl split (index + 1)
    rw [List.nil_append] at later
    rw [List.append_nil, SegmentReader.positionsFrom, read, SegmentReader.place, outside]
    simp [later, Except.map]
  | @value reader quote rest places empty ends after ih =>
    obtain ⟨next, others, split⟩ := Print.exists_segments_eq rest
    rw [Print.segments, split, List.cons.injEq] at same
    obtain ⟨rfl, rfl⟩ := same
    -- The closing quote is the first character of the next segment.
    have quoted : next.head? = some quote := by
      cases rest with
      | nil => cases ends
      | cons glyph rest =>
        cases ends
        obtain ⟨next', others', split'⟩ := Print.exists_segments_eq rest
        rw [Print.segments, split'] at split
        obtain ⟨rfl, -⟩ := List.cons.inj split
        rfl
    have later : (reader.enter (.quotedValue quote false)).positionsFrom (index + 1)
        (([] ++ next) :: others) = .ok places := ih rfl split (index + 1)
    rw [List.nil_append] at later
    rw [List.append_nil, SegmentReader.positionsFrom, read, SegmentReader.place, empty]
    simp [quoted, later, Except.map]

end Placed

/-! ## Tags of a draft -/

namespace SegmentReader

variable {reader : SegmentReader}

theorem feed_append (reader : SegmentReader) (first second : List Char) :
    reader.feed (first ++ second) = (reader.feed first).feed second :=
  List.foldl_append

/-- The letters of a name are collected. -/
theorem feed_tagName {closing : Bool} {text : List Char} (name : ∀ c ∈ text, isNameChar c = true)
    (before : List Char) (inName : reader.state = .tagName closing before) :
    reader.feed text = reader.enter (.tagName closing (text.reverse ++ before)) := by
  induction text generalizing reader before with
  | nil =>
    obtain ⟨state, tag, closing, last⟩ := reader
    cases inName
    rfl
  | cons c text ih =>
    rw [List.forall_mem_cons] at name
    have step : reader.step c = reader.enter (.tagName closing (c :: before)) := by
      simp [SegmentReader.step, inName, isBlank_of_isNameChar name.1,
        ne_of_isNameChar name.1 '/' rfl, ne_of_isNameChar name.1 '>' rfl]
    rw [feed, List.foldl_cons, step, ← feed, ih name.2 (c :: before) rfl]
    simp [enter]

theorem feed_attributeName {text : List Char} (name : ∀ c ∈ text, isNameChar c = true)
    (before : List Char) (inName : reader.state = .attributeName before) :
    reader.feed text = reader.enter (.attributeName (text.reverse ++ before)) := by
  induction text generalizing reader before with
  | nil =>
    obtain ⟨state, tag, closing, last⟩ := reader
    cases inName
    rfl
  | cons c text ih =>
    rw [List.forall_mem_cons] at name
    have step : reader.step c = reader.enter (.attributeName (c :: before)) := by
      simp [SegmentReader.step, inName, isBlank_of_isNameChar name.1,
        ne_of_isNameChar name.1 '/' rfl, ne_of_isNameChar name.1 '=' rfl,
        ne_of_isNameChar name.1 '>' rfl]
    rw [feed, List.foldl_cons, step, ← feed, ih name.2 (c :: before) rfl]
    simp [enter]

/-- A tag that is opened. -/
theorem feed_openTag (inData : reader.state = .data) {name : String}
    (named : isElementName name.toList = true) :
    reader.feed ('<' :: name.toList) = reader.enter (.tagName false name.toList.reverse) := by
  obtain ⟨first, rest, same, alpha, others⟩ :=
    exists_of_isAttributeName (isAttributeName_of_isElementName named)
  have letter := isNameChar_of_isAlpha alpha
  have open_ : (reader.step '<').step first = reader.enter (.tagName false [first]) := by
    have opened : reader.step '<' = reader.enter .tagOpen := by
      simp [SegmentReader.step, inData, stepData]
    rw [opened]
    simp [SegmentReader.step, enter, ne_of_isNameChar letter '!' rfl,
      ne_of_isNameChar letter '/' rfl, ne_of_isNameChar letter '?' rfl, alpha]
  rw [same, feed, List.foldl_cons, List.foldl_cons, open_, ← feed, feed_tagName others [first] rfl]
  simp [enter]

/-- An end tag, which leads back to data. -/
theorem feed_endTagHtml (inData : reader.state = .data) {name : String}
    (named : isElementName name.toList = true) :
    (reader.feed (endTagHtml name)).state = .data := by
  obtain ⟨first, rest, same, alpha, others⟩ :=
    exists_of_isAttributeName (isAttributeName_of_isElementName named)
  have open_ : ((reader.step '<').step '/').step first = reader.enter (.tagName true [first]) := by
    have opened : reader.step '<' = reader.enter .tagOpen := by
      simp [SegmentReader.step, inData, stepData]
    rw [opened]
    simp [SegmentReader.step, enter, alpha]
  have inName : (reader.enter (.tagName true [first])).feed rest =
      reader.enter (.tagName true (rest.reverse ++ [first])) := by
    rw [feed_tagName others [first] rfl]
    rfl
  rw [endTagHtml, same, List.cons_append, List.cons_append, List.cons_append, feed, List.foldl_cons,
    List.foldl_cons, List.foldl_cons, open_, ← feed, feed_append, inName]
  simp [feed, SegmentReader.step, enter, nameTag, SegmentReader.closeTag, isBlank]

theorem feed_data (inData : reader.state = .data) {text : List Char} (plain : '<' ∉ text) :
    (reader.feed text).state = .data := by
  induction text generalizing reader with
  | nil => exact inData
  | cons c text ih =>
    rw [List.mem_cons, not_or] at plain
    refine ih ?_ plain.2
    simp [SegmentReader.step, inData, stepData, Ne.symm plain.1, enter]

/-- Where a start tag of the named element goes on with a blank or ends. -/
structure InTag (reader : SegmentReader) (tag : String) : Prop where
  blank : ∃ last, reader.step ' ' = ⟨.beforeAttributeName, tag, false, last⟩
  greater : (reader.step '>').state = .data

theorem inTag_named {name : String} (named : isElementName name.toList = true)
    (plain : name ∉ rawTextElements) :
    (reader.enter (.tagName false name.toList.reverse)).InTag name := by
  have tag := lowerCase_of_isElementName named
  constructor
  · simp [SegmentReader.step, enter, nameTag, isBlank, tag]
  · simp [SegmentReader.step, enter, nameTag, isBlank, tag, SegmentReader.closeTag, plain]

theorem inTag_behind {name last : String} (plain : name ∉ rawTextElements) :
    InTag ⟨.beforeAttributeName, name, false, last⟩ name := by
  constructor
  · simp [SegmentReader.step, stepBeforeAttributeName, isBlank, enter]
  · simp [SegmentReader.step, stepBeforeAttributeName, isBlank, SegmentReader.closeTag, plain]

/-- An attribute up to its value. -/
theorem InTag.feed_attribute {name tag : String} (inTag : reader.InTag tag)
    (named : isAttributeName name.toList = true) :
    reader.feed (' ' :: (name.toList ++ ['=', '"'])) = ⟨.quotedValue '"' true, tag, false, name⟩ := by
  obtain ⟨last, blank⟩ := inTag.blank
  obtain ⟨first, rest, same, alpha, others⟩ := exists_of_isAttributeName named
  have letter := isNameChar_of_isAlpha alpha
  have begun : SegmentReader.step ⟨.beforeAttributeName, tag, false, last⟩ first =
      ⟨.attributeName [first], tag, false, last⟩ := by
    simp [SegmentReader.step, stepBeforeAttributeName, isBlank_of_isNameChar letter,
      ne_of_isNameChar letter '/' rfl, ne_of_isNameChar letter '>' rfl, enter]
  rw [same, feed, List.foldl_cons, blank, List.cons_append, List.foldl_cons, begun, ← feed,
    feed_append, feed_attributeName others [first] rfl]
  have whole : String.ofList (first :: rest) = name := by rw [← same, String.ofList_toList]
  simp [feed, SegmentReader.step, enter, nameAttribute, isBlank, whole]

end SegmentReader

/-! ## Values of a draft -/

theorem lt_notMem_escapeText (data : List Char) : '<' ∉ data.flatMap escapeTextChar := by
  intro member
  obtain ⟨c, -, member⟩ := List.mem_flatMap.mp member
  unfold escapeTextChar at member
  split at member
  · exact absurd member (by decide)
  · exact absurd member (by decide)
  · exact absurd member (by decide)
  · exact absurd member (by decide)
  · next less _ _ => exact less (List.mem_singleton.mp member).symm

theorem quote_notMem_escapeValue (data : List Char) : '"' ∉ data.flatMap escapeValueChar := by
  intro member
  obtain ⟨c, -, member⟩ := List.mem_flatMap.mp member
  unfold escapeValueChar at member
  split at member
  · exact absurd member (by decide)
  · exact absurd member (by decide)
  · exact absurd member (by decide)
  · next quote _ => exact quote (List.mem_singleton.mp member).symm

/-- Whatever is in a value, the quote ends it. -/
theorem SegmentReader.feed_value {tag last : String} (empty : Bool) {text : List Char}
    (plain : '"' ∉ text) :
    feed ⟨.quotedValue '"' empty, tag, false, last⟩ (text ++ ['"']) =
      ⟨.beforeAttributeName, tag, false, last⟩ := by
  induction text generalizing empty with
  | nil => rfl
  | cons c text ih =>
    rw [List.mem_cons, not_or] at plain
    have step : SegmentReader.step ⟨.quotedValue '"' empty, tag, false, last⟩ c =
        ⟨.quotedValue '"' false, tag, false, last⟩ := by
      simp [SegmentReader.step, Ne.symm plain.1, enter]
    rw [List.cons_append, feed, List.foldl_cons, step, ← feed, ih false plain.2]

namespace Placed

variable {reader : SegmentReader} {rest : Print} {places : List Position} {tag : String}

/-- An attribute has its value where it is dynamic. -/
theorem ofAttribute (inTag : reader.InTag tag) (plain : tag ∉ rawTextElements)
    {name : String} {value : Option String} (named : isAttributeName name.toList = true)
    (after : ∀ reader : SegmentReader, reader.InTag tag → Placed reader rest places) :
    Placed reader (attributePrint (name, value) ++ rest)
      ((if value.isNone then [.attribute name] else []) ++ places) := by
  have behind : Placed ⟨.beforeAttributeName, tag, false, name⟩ rest places :=
    after _ (SegmentReader.inTag_behind plain)
  have front : attributePrint (name, value) ++ rest =
      Print.ofChars (' ' :: (name.toList ++ ['=', '"'])) ++ (valuePrint value ++ some '"' :: rest) := by
    simp [attributePrint, Print.ofChars]
  rw [front]
  apply chars
  rw [inTag.feed_attribute named]
  cases value with
  | none => exact .value rfl rfl (.char behind)
  | some data =>
    have closed : valuePrint (some data) ++ some '"' :: rest =
        Print.ofChars (data.toList.flatMap escapeValueChar ++ ['"']) ++ rest := by
      simp [valuePrint, Print.ofChars]
    rw [closed]
    apply chars
    rw [SegmentReader.feed_value true (quote_notMem_escapeValue _)]
    exact behind

theorem ofAttributes {attributes : List (String × Option String)} (inTag : reader.InTag tag)
    (plain : tag ∉ rawTextElements)
    (printable : ∀ pair ∈ attributes, isPrintableAttribute pair = true)
    (after : ∀ reader : SegmentReader, reader.InTag tag → Placed reader rest places) :
    Placed reader (attributes.flatMap attributePrint ++ rest)
      ((dynamicAttributes attributes).map (fun pair => .attribute pair.2) ++ places) := by
  induction attributes generalizing reader with
  | nil => exact after reader inTag
  | cons pair attributes ih =>
    obtain ⟨name, value⟩ := pair
    rw [List.forall_mem_cons, isPrintableAttribute_iff] at printable
    have front : Placed reader (attributePrint (name, value) ++ _) _ :=
      ofAttribute inTag plain printable.1.1 fun reader inTag => ih inTag printable.2
    rw [List.flatMap_cons, List.append_assoc]
    cases value with
    | none => exact front
    | some data => exact front

end Placed

/-- The values of a draft are found where it has them, whatever follows. -/
theorem Draft.placed {draft : Draft} (proper : draft.Proper) {reader : SegmentReader}
    (inData : reader.state = .data) {rest : Print} {places : List Position}
    (after : ∀ reader : SegmentReader, reader.state = .data → Placed reader rest places)
    (parent : Path) (index : Nat) :
    Placed reader (draft.print ++ rest) ((draft.parts parent index).map Part.position ++ places) := by
  induction draft generalizing reader rest places parent index with
  | done => exact after reader inData
  | element name attributes children more ihChildren ihMore =>
    obtain ⟨⟨named, plain, void⟩, ⟨printable, -⟩, below, behind⟩ := proper
    have openTag : reader.feed ('<' :: name.toList) =
        reader.enter (.tagName false name.toList.reverse) :=
      SegmentReader.feed_openTag inData named
    have front : (element name attributes children more).print ++ rest =
        Print.ofChars ('<' :: name.toList) ++ (attributes.flatMap attributePrint ++ some '>' ::
          ((if isVoid name then [] else children.print ++ Print.ofChars (endTagHtml name)) ++
            (more.print ++ rest))) := by
      simp [print, Print.ofChars]
    have back : ((element name attributes children more).parts parent index).map Part.position ++
        places = (dynamicAttributes attributes).map (fun pair => Position.attribute pair.2) ++
          ((children.parts (parent ++ [index]) 0).map Part.position ++
            ((more.parts parent (index + 1)).map Part.position ++ places)) := by
      simp [parts, Part.position, Function.comp_def]
    rw [front, back]
    apply Placed.chars
    rw [openTag]
    -- The attributes are read from behind the name up to the end of the tag.
    apply Placed.ofAttributes (SegmentReader.inTag_named named plain) plain printable
    intro reader inTag
    apply Placed.char
    have later (reader : SegmentReader) (inData : reader.state = .data) :=
      ihMore behind inData after parent (index + 1)
    split
    · next isVoid_ =>
      rw [void isVoid_]
      exact later _ inTag.greater
    · rw [List.append_assoc]
      refine ihChildren below inTag.greater (fun reader inData => ?_) _ _
      exact Placed.chars (later _ (SegmentReader.feed_endTagHtml inData named))
  | text data more ih =>
    rw [print, List.append_assoc]
    apply Placed.chars
    exact ih proper.2 (SegmentReader.feed_data inData (lt_notMem_escapeText _)) after _ _
  | hole more ih => exact .child inData (ih proper inData after _ _)

/-- The values of the literal that a draft is printed to are where the draft has them. -/
theorem Draft.positions_segments {draft : Draft} (proper : draft.Proper) :
    positions draft.segments = .ok (draft.blueprint.parts.map Part.position) := by
  have absent : (Print.segments draft.print).findIdx? Placeholder.occursIn = none :=
    List.findIdx?_eq_none_iff.mpr fun segment member =>
      Draft.not_occursIn_segments proper segment member
  have placed : Placed .start (draft.print ++ []) _ :=
    Draft.placed proper rfl (fun _ _ => .done) [] 0
  rw [List.append_nil, List.append_nil] at placed
  obtain ⟨first, more, same⟩ := Print.exists_segments_eq draft.print
  have chars : draft.segments.map String.toList = first :: more := by
    simp [segments, Function.comp_def, same]
  rw [same] at absent
  unfold positions
  simp only [chars, absent]
  have read : SegmentReader.start.positionsFrom 0 (([] ++ first) :: more) = .ok _ :=
    placed.positionsFrom rfl same 0
  exact read

end LiveMarkup
