import LiveMarkup.Proofs.Burial
import LiveMarkup.Proofs.Spots
import LiveMarkup.Proofs.Twins

/-! # Values that make a difference

A placeholder that is found in the forest of the markup makes a difference to it: with another word in
its place there is another forest.  `Matters` says so of one value, seen from the state in which the
lexer comes to it.

From there the lexer is followed to the end of the tag or the comment that it is in.  Where no value
can stand, the word would be buried in raw text, or show in a name, in a comment or in part of a
value, or else make no difference at all.  So the segment reader does find a place for the value, and
it is the place of the placeholder in the forest (`Matters.place`). -/

namespace LiveMarkup

open Markup Placeholder LexerState

/-! ## Values that make a difference -/

/-- A forest with nothing of a placeholder in it, apart from this many placeholders in order, each of
which is the whole value of an attribute or in a text that is not raw. -/
structure WellPlaced (count : Nat) (forest : Forest) : Prop where
  order : InOrder forest (List.range count)
  undisturbed : Forest.Every undisturbed forest
  outside : ∀ path data, forest.at? path = some (.text data) → occursIn data.toList = true →
    OutsideRawText forest path

/-- The forest when the rest of the markup is read from the given state. -/
def Markup.Builder.complete (builder : Builder) (state : LexerState) (text : List Char) : Forest :=
  ((state.run text).foldl Builder.push builder).finish

theorem Markup.Builder.complete_append (builder : Builder) (state : LexerState)
    (text rest : List Char) : builder.complete state (text ++ rest) =
      ((state.advance text).2.foldl Builder.push builder).complete (state.advance text).1 rest := by
  rw [complete, complete, run_append, List.foldl_append]

/-- Where the lexer comes to the value with the given index, it makes a difference to the forest, in
which the values are well placed. -/
structure Matters (count : Nat) (forest : Forest) (builder : Builder) (state : LexerState)
    (index : Nat) (rest : List Char) : Prop where
  placed : WellPlaced count forest
  below : index < count
  clean : builder.Clean
  whole : builder.complete state (chars index ++ rest) = forest
  differs : builder.complete state ((Wording.doubled index).word index ++ rest) ≠ forest

/-- Whether a token makes an attribute of the given kind. -/
def Markup.Token.Makes (holds : String × String → Prop) : Token → Prop
  | .startTag _ attributes _ => ∃ pair ∈ sortAttributes attributes, holds pair
  | _ => False

/-- Whether the placeholder is in a value that is longer. -/
def Beside (index : Nat) (pair : String × String) : Prop :=
  ∃ front back, pair.2.toList = front ++ (chars index ++ back) ∧ (front ≠ [] ∨ back ≠ [])

theorem Placeholder.index?_of_beside {index : Nat} (small : index < bound) {front back : List Char}
    (beside : front ≠ [] ∨ back ≠ []) : index? (front ++ (chars index ++ back)) = none := by
  cases found : index? (front ++ (chars index ++ back)) with
  | none => rfl
  | some other =>
    rw [index?_eq_some_iff] at found
    cases front with
    | nil =>
      rw [List.nil_append, read?_chars small] at found
      obtain ⟨-, none⟩ := Prod.mk.inj (Option.some.inj found)
      exact absurd none (beside.resolve_left (by simp))
    | cons c front =>
      -- Another placeholder from the first character on would end before this one.
      let sketch : Sketch := Sketch.ofText front ++ .hole index :: Sketch.ofText back
      have filled : c :: front ++ (chars index ++ back) =
          Sketch.fill .placeholders (.char c :: sketch) := by
        simp [sketch, Wording.word_placeholders]
      rw [filled] at found
      obtain ⟨behind, empty, holes, -⟩ := Sketch.exists_of_read?_fill found
      obtain rfl := Sketch.fill_eq_nil_iff.mp empty
      simp [sketch] at holes

theorem marked_chars (index : Nat) (before : List Char) :
    Marked ((chars index).reverse ++ before) := by
  have inside : chars index <:+: ((chars index).reverse ++ before).reverse :=
    ⟨before.reverse, [], by simp⟩
  exact occursIn_of_infix inside

theorem marked_doubled (index : Nat) (before : List Char) :
    Marked (((Wording.doubled index).word index).reverse ++ before) := by
  rw [Wording.doubled_self, List.reverse_cons, List.append_assoc]
  exact marked_chars index _

/-! ## Values side by side -/

/-- Whether a value, in quotes or not, ends right here. -/
def endsValue (quote : Option Char) (rest : List Char) : Bool :=
  match quote with
  | some quote => rest.head? == some quote
  | none => SegmentReader.endsUnquoted rest true

theorem runTwins_inValue {holds : String × String → Prop} {quote : Option Char}
    {attr other : OpenAttribute} (rest : List Char)
    (whole : endsValue quote rest = true → ValueTwins holds (· = []) attr other)
    (part : endsValue quote rest = false → ValueTwins holds (· ≠ []) attr other) :
    RunTwins holds (inValue quote attr) (inValue quote other) rest := by
  cases rest with
  | nil => cases quote <;> exact .cutOff rfl rfl
  | cons c rest =>
    have next : StepTwins holds ((inValue quote attr).step c) ((inValue quote other).step c) := by
      cases quote with
      | none =>
        exact .stepUnquotedValue
          (fun ended => whole (by simpa [endsValue, SegmentReader.endsUnquoted]))
          fun goesOn => part (by simpa [endsValue, SegmentReader.endsUnquoted] using goesOn)
      | some quote =>
        exact .stepQuotedValue (fun ended => whole (by simpa [endsValue]))
          fun goesOn => part (by simpa [endsValue] using goesOn)
    exact next.run rest

theorem advance_inValue {quote : Option Char} (quotes : quote.all isQuote = true)
    (attr : OpenAttribute) (wording : Wording) (index : Nat) :
    (inValue quote attr).advance (wording.word index) =
      silently (inValue quote
        { attr with value := (wording.word index).reverse ++ attr.value }) := by
  cases quote with
  | none => exact advance_unquotedValue attr (wording.calm index)
  | some quote => exact advance_quotedValue quotes attr (wording.calm index)

/-- Something before the placeholder, or behind it, makes it part of a longer value. -/
theorem Markup.ValueTwins.beside {enough : List Char → Prop} {attr : OpenAttribute} (index : Nat)
    (word : List Char) (longer : attr.value ≠ [] ∨ ∀ more, enough more → more ≠ []) :
    ValueTwins (Beside index) enough { attr with value := (chars index).reverse ++ attr.value }
      { attr with value := word } := by
  refine .value fun more isEnough => ⟨attr.value.reverse, more, by simp, ?_⟩
  exact longer.imp (fun filled => by simpa using filled) fun behind => behind more isEnough

theorem Markup.ValueTwins.whole {attr : OpenAttribute} (empty : attr.value = []) (index : Nat)
    (word : List Char) :
    ValueTwins (· = (String.ofList attr.name.reverse, text index)) (· = [])
      { attr with value := (chars index).reverse ++ attr.value } { attr with value := word } :=
  .value fun more none => by simp [none, empty, text]

/-! ## Following the lexer -/

namespace Matters

variable {count index : Nat} {forest : Forest} {builder : Builder} {state : LexerState}
  {rest : List Char} {holds : String × String → Prop}

theorem small (matters : Matters count forest builder state index rest) : index < bound :=
  matters.placed.order.lt_bound index (List.mem_range.mpr matters.below)

/-- All that counts of the state is what it makes of a brace. -/
theorem congr (matters : Matters count forest builder state index rest) (other : LexerState)
    (same : state.step '{' = other.step '{') : Matters count forest builder other index rest := by
  have alike (wording : Wording) : builder.complete other (wording.word index ++ rest) =
      builder.complete state (wording.word index ++ rest) := by
    rw [Builder.complete_append, Builder.complete_append, advance_word_congr same]
  exact { matters with
    whole := (alike .placeholders).trans matters.whole
    differs := fun equal => matters.differs ((alike _).symm.trans equal) }

theorem meets (matters : Matters count forest builder state index rest) {spec : NodeSpec}
    (texts : ∀ data, spec.text data) (every : Forest.Every spec forest) {token : Token}
    (member : token ∈ state.run (chars index ++ rest)) : token.Meets spec := by
  rw [← matters.whole, Builder.complete, Builder.every_finish,
    Builder.every_foldl_push texts] at every
  exact every.2 token member

/-- Nothing shows but in the attributes that the tokens make. -/
theorem makes_of_shows (matters : Matters count forest builder state index rest)
    (shown : ∃ token ∈ state.run (chars index ++ rest), token.Shows holds) :
    ∃ token ∈ state.run (chars index ++ rest), token.Makes holds := by
  obtain ⟨token, member, shows_⟩ := shown
  refine ⟨token, member, ?_⟩
  have clean := matters.meets (fun _ => trivial) matters.placed.undisturbed member
  cases token with
  | startTag name attributes selfClosing =>
    obtain ⟨named, pairs⟩ := clean
    obtain marked | ⟨pair, listed, marked | held⟩ := shows_
    · rw [named] at marked
      cases marked
    · rw [(pairs pair listed).1] at marked
      cases marked
    · exact ⟨pair, listed, held⟩
  | comment data =>
    have none : occursIn data.toList = false := clean
    have marked : occursIn data.toList = true := shows_
    rw [none] at marked
    cases marked
  | _ => exact shows_.elim

theorem makes_of_twins (matters : Matters count forest builder state index rest)
    (next : List Char → LexerState)
    (silent : ∀ wording : Wording,
      state.advance (wording.word index) = silently (next (wording.word index)))
    (twins : RunTwins holds (next (chars index)) (next ((Wording.doubled index).word index)) rest) :
    ∃ token ∈ state.run (chars index ++ rest), token.Makes holds := by
  have plain := silent .placeholders
  rw [Wording.word_placeholders] at plain
  obtain ⟨token, member, shown⟩ | alike := twins
  · refine matters.makes_of_shows ⟨token, ?_, shown⟩
    rw [run_append, plain]
    exact member
  · -- With the other word the same would be built.
    refine absurd ?_ matters.differs
    rw [← matters.whole, Builder.complete_append, Builder.complete_append, plain, silent]
    exact congrArg Builder.finish (alike builder matters.clean).symm

theorem false_of_makes (makes : ∃ token ∈ state.run (chars index ++ rest),
    token.Makes fun _ => False) : False := by
  obtain ⟨token, -, makes⟩ := makes
  cases token with
  | startTag name attributes selfClosing =>
    obtain ⟨_, -, never⟩ := makes
    exact never
  | _ => exact makes

theorem not_beside (matters : Matters count forest builder state index rest) :
    ¬ ∃ token ∈ state.run (chars index ++ rest), token.Makes (Beside index) := by
  rintro ⟨token, member, makes⟩
  have clean := matters.meets (fun _ => trivial) matters.placed.undisturbed member
  cases token with
  | startTag name attributes selfClosing =>
    obtain ⟨pair, listed, front, back, value, beside⟩ := makes
    have part : index? pair.2.toList = none := by
      rw [value]
      exact index?_of_beside matters.small beside
    have none := (clean.2 pair listed).2 part
    have occurs : occursIn (front ++ (chars index ++ back)) = true :=
      occursIn_of_infix ⟨front, back, List.append_assoc ..⟩
    rw [value] at none
    rw [none] at occurs
    cases occurs
  | _ => exact makes

/-- The attribute that is made is in the forest. -/
theorem mem_spots (matters : Matters count forest builder state index rest) {name : String}
    (makes : ∃ token ∈ state.run (chars index ++ rest), token.Makes (· = (name, text index))) :
    (index, some name) ∈ Forest.spots forest := by
  by_contra absent
  obtain ⟨token, member, makes⟩ := makes
  have other := matters.meets (fun _ => trivial) (every_of_notMem_spots absent) member
  cases token with
  | startTag tag attributes selfClosing =>
    obtain ⟨pair, listed, rfl⟩ := makes
    refine other _ listed rfl ?_
    rw [text, String.toList_ofList, index?_chars matters.small]
  | _ => exact makes

/-! ### Places where no value stands -/

theorem not_buried (matters : Matters count forest builder state index rest) :
    ¬ ((state.advance (chars index)).2.foldl Builder.push builder).Buries := by
  intro buried
  have deep := (buried.foldl_push ((state.advance (chars index)).1.run rest)).finish
  rw [← Builder.complete, ← Builder.complete_append, matters.whole] at deep
  obtain ⟨path, data, leads, marked, raw⟩ := deep.exists_path []
  exact raw (matters.placed.outside path data leads marked)

theorem not_commented (matters : Matters count forest builder state index rest) :
    ¬ Commented (state.advance (chars index)).1 := by
  intro commented
  obtain ⟨token, member, shown⟩ := commented.run rest
  refine false_of_makes (matters.makes_of_shows ⟨token, ?_, shown⟩)
  rw [run_append]
  exact List.mem_append_right _ member

theorem not_bogusComment {text : List Char} :
    ¬ Matters count forest builder (.bogusComment text) index rest := by
  intro matters
  apply matters.not_commented
  rw [← Wording.word_placeholders, advance_bogusComment text (Wording.calm _ index)]
  exact marked_chars index text

theorem not_comment {text : List Char} {tail : CommentTail} :
    ¬ Matters count forest builder (.comment text tail) index rest := by
  intro matters
  -- What may have ended the comment becomes part of it.
  obtain ⟨pending, same⟩ : ∃ pending, (LexerState.comment text tail).step '{' =
      (LexerState.comment (pending ++ text) .none).step '{' := by
    cases tail with
    | start | none => exact ⟨[], rfl⟩
    | startDash | dash => exact ⟨['-'], rfl⟩
    | dashes => exact ⟨['-', '-'], rfl⟩
    | bang => exact ⟨['!', '-', '-'], rfl⟩
  apply (matters.congr _ same).not_commented
  rw [← Wording.word_placeholders, advance_comment _ (Wording.calm _ index)]
  exact marked_chars index (pending ++ text)

theorem not_doctype : ¬ Matters count forest builder .doctype index rest := fun matters =>
  false_of_makes <| matters.makes_of_twins (fun _ => .doctype)
    (fun wording => advance_doctype (wording.calm index)) (.inr fun _ _ => rfl)

theorem not_tagName {tag : OpenTag} : ¬ Matters count forest builder (.tagName tag) index rest := by
  intro matters
  refine false_of_makes <| matters.makes_of_twins
    (fun word => .tagName { tag with name := word.reverse ++ tag.name })
    (fun wording => advance_tagName tag (wording.calm index)) (Twins.run ?_ rest)
  exact .tagName (.name (marked_chars index _) (marked_doubled index _))

theorem not_attributeName {attr : OpenAttribute} :
    ¬ Matters count forest builder (.attributeName attr) index rest := by
  intro matters
  refine false_of_makes <| matters.makes_of_twins
    (fun word => .attributeName { attr with name := word.reverse ++ attr.name })
    (fun wording => advance_attributeName attr (wording.calm index)) (Twins.run ?_ rest)
  exact .attributeName (.name (marked_chars index _))

/-! ### Places of values -/

/-- In a value there is nothing before the placeholder and nothing behind it, and it is found in the
attribute of that name. -/
theorem value {quote : Option Char} {attr : OpenAttribute}
    (matters : Matters count forest builder (inValue quote attr) index rest)
    (quotes : quote.all isQuote = true) :
    attr.value = [] ∧ endsValue quote rest = true ∧
      (index, some (String.ofList attr.name.reverse)) ∈ Forest.spots forest := by
  have silent (wording : Wording) := advance_inValue quotes attr wording index
  have along {holds : String × String → Prop} (twins : RunTwins holds _ _ rest) :=
    matters.makes_of_twins
      (fun word => inValue quote { attr with value := word.reverse ++ attr.value }) silent twins
  -- With anything before it or behind it, the placeholder would show in part of a value.
  have empty : attr.value = [] := by
    by_contra filled
    exact matters.not_beside <| along <|
      runTwins_inValue rest (fun _ => .beside index _ (.inl filled))
        fun _ => .beside index _ (.inl filled)
  have ends : endsValue quote rest = true := by
    by_contra goesOn
    exact matters.not_beside <| along <|
      runTwins_inValue rest (fun ended => absurd ended goesOn)
        fun _ => .beside index _ (.inr fun _ => id)
  refine ⟨empty, ends, matters.mem_spots <| along <|
    runTwins_inValue rest (fun _ => .whole empty index _) fun goesOn => ?_⟩
  rw [ends] at goesOn
  cases goesOn

/-- Behind what a reference stands for, there is no place for a value. -/
theorem not_valueReference {quote : Option Char} {attr : OpenAttribute} {reference : Reference}
    (quotes : quote.all isQuote = true) :
    ¬ Matters count forest builder (.valueReference quote attr reference) index rest := by
  intro matters
  obtain ⟨read, done⟩ := Reference.exists_step_foreign (c := '{') rfl true reference
  have same : (LexerState.valueReference quote attr reference).step '{' =
      (inValue quote (read.foldl pushValue attr)).step '{' := by
    rw [LexerState.step, done]
    cases quote <;> rfl
  have none := ((matters.congr _ same).value quotes).1
  rw [foldl_pushValue, List.append_eq_nil_iff, List.reverse_eq_nil_iff] at none
  exact Reference.ne_nil_of_step done none.1

theorem content (matters : Matters count forest builder state index rest) {reader : SegmentReader}
    (inStep : InStep reader state) (here : reader.state = .data)
    (confined : Confined builder.names state) : (index, none) ∈ Forest.spots forest := by
  have shown := (shows_of_data inStep here confined index).foldl_push
    ((state.advance (chars index)).1.run rest)
  have found := shown.finish
  rw [← Builder.complete, ← Builder.complete_append, matters.whole] at found
  exact found.mem_spots matters.small

/-- The segment reader finds the place that the placeholder has in the forest, unless it stands
behind a less-than sign. -/
theorem place (matters : Matters count forest builder state index rest) {reader : SegmentReader}
    (together : Together reader state) (confined : Confined builder.names state)
    (closed : reader.state ≠ .tagOpen) {next : List Char} {last : Bool}
    (unquoted : SegmentReader.endsUnquoted next last = SegmentReader.endsUnquoted rest true)
    (quoted : ∀ quote, isQuote quote = true → (next.head? = some quote ↔ rest.head? = some quote)) :
    ∃ position after place, reader.place next last = .ok (position, after) ∧
      (index, place) ∈ Forest.spots forest ∧ position.Fits place := by
  obtain ⟨inStep, agree⟩ := together
  have data (here : reader.state = .data) : ∃ position after place,
      reader.place next last = .ok (position, after) ∧
        (index, place) ∈ Forest.spots forest ∧ position.Fits place := by
    refine ⟨.child, reader, none, ?_, matters.content inStep here confined, rfl⟩
    rw [SegmentReader.place, here]
  cases inStep with
  | data here | dataReference here => exact data here
  -- From here on the lexer is inside of a tag, a declaration, a comment or raw text.
  | lessThan here => exact absurd here closed
  | endTagOpen => exact (not_bogusComment (matters.congr (.bogusComment []) rfl)).elim
  | tagName => exact (not_tagName matters).elim
  | @beforeAttributeName tag | @afterQuotedValue tag | @selfClosing tag =>
    exact (not_attributeName (matters.congr (.attributeName ⟨tag, [], []⟩) rfl)).elim
  | attributeName => exact (not_attributeName matters).elim
  | @afterAttributeName attr =>
    exact (not_attributeName (matters.congr (.attributeName ⟨keepAttribute attr, [], []⟩) rfl)).elim
  | @beforeAttributeValue attr here =>
    obtain ⟨-, ended, spot⟩ := (matters.congr (inValue none attr) rfl).value rfl
    refine ⟨_, reader.enter .unquotedValue, _, ?_, spot, _, rfl, agree.2.lowerCase_eq⟩
    rw [SegmentReader.place, here]
    exact if_pos (unquoted.trans ended)
  | @quotedValue quote empty attr here quotes =>
    have within : Matters count forest builder (inValue (some quote) attr) index rest := matters
    obtain ⟨none, ended, spot⟩ := within.value quotes
    obtain ⟨same, started, there, iff⟩ := agree
    obtain rfl : empty = started := by simpa [here] using there
    have ends : next.head? = some quote :=
      (quoted quote quotes).mpr (by simpa [endsValue] using ended)
    refine ⟨_, reader.enter (.quotedValue quote false), _, ?_, spot, _, rfl, same.lowerCase_eq⟩
    rw [SegmentReader.place, here]
    exact if_pos ⟨iff.mpr none, ends⟩
  | quotedReference _ quotes =>
    refine (not_valueReference ?_ matters).elim
    exact quotes
  | @unquotedValue attr =>
    have within : Matters count forest builder (inValue none attr) index rest := matters
    exact absurd (within.value rfl).1 agree
  | unquotedReference => exact (not_valueReference rfl matters).elim
  | @declaration seen =>
    have same := LexerSketch.stepDeclaration_foreign seen (by decide : '{' ≠ '-') (by decide)
    exact (not_bogusComment (matters.congr (.bogusComment seen) same)).elim
  | doctype => exact (not_doctype matters).elim
  | comment => exact (not_comment matters).elim
  | bogusComment => exact (not_bogusComment matters).elim
  | text here listed inText =>
    exact (matters.not_buried
      (buries_of_rawText (.text here listed inText) here confined index)).elim
  | endTag listed _ own =>
    exact (matters.not_buried (buries_of_mode rfl own listed confined index)).elim

end Matters

end LiveMarkup
