import LiveMarkup.Proofs.Lockstep.Steps

/-! # Two readers through a literal

The lexer sees line ends made alike, and a placeholder where the segment reader sees the end of a
segment.  Neither drives them apart (`feed_normalizeLines`, `InStep.place`). -/

namespace LiveMarkup

open Markup SegmentReader

/-! ## Whole texts -/

namespace Markup.LexerState

/-- Whether the lexer strays anywhere in a text. -/
def straysIn (state : LexerState) : List Char → Bool
  | [] => false
  | c :: rest => state.strays c || (state.step c).1.straysIn rest

theorem straysIn_append (state : LexerState) (text rest : List Char) :
    state.straysIn (text ++ rest) =
      (state.straysIn text || (state.advance text).1.straysIn rest) := by
  induction text generalizing state with
  | nil => rfl
  | cons c text ih => rw [List.cons_append, straysIn, straysIn, ih, Bool.or_assoc]; rfl

end Markup.LexerState

namespace InStep

variable {reader : SegmentReader} {state : LexerState} {text : List Char}

theorem feed (inStep : InStep reader state) (steady : state.straysIn text = false) :
    InStep (reader.feed text) (state.advance text).1 := by
  induction text generalizing reader state with
  | nil => exact inStep
  | cons c text ih =>
    rw [LexerState.straysIn, Bool.or_eq_false_iff] at steady
    exact ih (inStep.step steady.1) steady.2

/-! ## Line ends -/

/-- A line end is not part of an end tag that raw text waits for. -/
theorem stepRawText_line {missing : List Char} (inText : InText reader.tag state missing)
    (listed : reader.tag ∈ rawTextElements) {c : Char} (line : c = '\n' ∨ c = '\r') :
    reader.stepRawText missing c = reader.enter (.rawText (endTagStart reader.tag)) := by
  have other : c.isAlpha = false ∧ restarted reader.tag c = endTagStart reader.tag ∧
      some '/' ≠ some c.toLower := by
    obtain rfl | rfl := line <;> exact ⟨rfl, rfl, by decide⟩
  obtain ⟨notLetter, again, notSlash⟩ := other
  have noName : ([] : List Char) ≠ reader.tag.toList := by
    intro same
    rw [← String.toList_empty, String.toList_inj] at same
    rw [← same] at listed
    exact absurd listed (by decide)
  rw [← again]
  cases inText with
  | content | reference => exact stepRawText_restart (by simp [endTagStart]) (.inl rfl)
  | lessThan | nestedLessThan =>
    exact stepRawText_restart (by simp [endTagStart]) (.inr notSlash)
  | endTagOpen =>
    exact stepRawText_restart noName.symm (missingBehind_broken listed [] notLetter)
  | rawEndTag even own unfinished =>
    exact stepRawText_restart (missingBehind_ne_nil unfinished)
      (missingBehind_broken listed _ notLetter)
  | leaving unfinished =>
    exact stepRawText_restart (missingBehind_ne_nil unfinished)
      (missingBehind_broken listed _ notLetter)

/-- The segment reader makes no difference between line ends. -/
theorem step_return (inStep : InStep reader state) : reader.step '\r' = reader.step '\n' := by
  cases inStep with
  | text here listed inText =>
    rw [SegmentReader.step, SegmentReader.step, here]
    exact (stepRawText_line inText listed (.inr rfl)).trans
      (stepRawText_line inText listed (.inl rfl)).symm
  | quotedValue here quotes | quotedReference here quotes =>
    rw [SegmentReader.step, SegmentReader.step, here]
    simp only [isQuote, Bool.or_eq_true, beq_iff_eq] at quotes
    obtain rfl | rfl := quotes <;> rfl
  | declaration here =>
    unfold declared at here
    split at here
    · rw [SegmentReader.step, SegmentReader.step, here]
      rfl
    split at here
    · rw [SegmentReader.step, SegmentReader.step, here]
      rfl
    · rw [SegmentReader.step, SegmentReader.step, here]
      rfl
  | data here | dataReference here | lessThan here | endTagOpen here | tagName here
  | beforeAttributeName here | afterQuotedValue here | attributeName here
  | afterAttributeName here | beforeAttributeValue here | unquotedValue here
  | unquotedReference here | selfClosing here | doctype here | comment here
  | bogusComment here | endTag _ here =>
    rw [SegmentReader.step, SegmentReader.step, here]
    rfl

theorem step_again {next : SegmentReader} (read : reader.step '\n' = next)
    (stays : next.step '\n' = next) : (reader.step '\n').step '\n' = reader.step '\n' := by
  rw [read, stays]

/-- A second line end tells the segment reader nothing. -/
theorem step_twice (inStep : InStep reader state) :
    (reader.step '\n').step '\n' = reader.step '\n' := by
  cases inStep with
  | text here listed inText =>
    have read : reader.step '\n' = reader.enter (.rawText (endTagStart reader.tag)) := by
      rw [SegmentReader.step, here]
      exact stepRawText_line inText listed (.inl rfl)
    exact step_again read rfl
  | @quotedValue quote _ _ here quotes | @quotedReference quote _ _ _ here quotes =>
    have read : reader.step '\n' = reader.enter (.quotedValue quote false) := by
      rw [SegmentReader.step, here]
      simp only [isQuote, Bool.or_eq_true, beq_iff_eq] at quotes
      obtain rfl | rfl := quotes <;> rfl
    simp only [isQuote, Bool.or_eq_true, beq_iff_eq] at quotes
    obtain rfl | rfl := quotes <;> exact step_again read rfl
  | declaration here =>
    have begun {dash : Bool} (there : reader.state = .declaration dash) :
        reader.step '\n' = reader.enter .bogusComment := by
      rw [SegmentReader.step, there]
      rfl
    have bogus (there : reader.state = .bogusComment) : reader.step '\n' = reader := by
      rw [SegmentReader.step, there]
      rfl
    unfold declared at here
    split at here
    · exact step_again (begun here) rfl
    split at here
    · exact step_again (begun here) rfl
    · exact step_again (bogus here) (bogus here)
  | afterAttributeName here | beforeAttributeValue here | doctype here | bogusComment here =>
    have read : reader.step '\n' = reader := by
      rw [SegmentReader.step, here]
      rfl
    exact step_again read read
  | data here | dataReference here | lessThan here =>
    have read : reader.step '\n' = reader.enter .data := by rw [SegmentReader.step, here]; rfl
    exact step_again read rfl
  | endTagOpen here =>
    have read : reader.step '\n' = reader.enter .bogusComment := by
      rw [SegmentReader.step, here]
      rfl
    exact step_again read rfl
  | @tagName tag name here =>
    have read : reader.step '\n' =
        (reader.nameTag tag.closing name).enter .beforeAttributeName := by
      rw [SegmentReader.step, here]
      rfl
    exact step_again read rfl
  | endTag _ here =>
    have read : reader.step '\n' =
        (reader.nameTag true reader.tag.toList.reverse).enter .beforeAttributeName := by
      rw [SegmentReader.step, here]
      rfl
    exact step_again read rfl
  | @attributeName _ name here =>
    have read : reader.step '\n' = (reader.nameAttribute name).enter .afterAttributeName := by
      rw [SegmentReader.step, here]
      rfl
    exact step_again read rfl
  | beforeAttributeName here | afterQuotedValue here | unquotedValue here
  | unquotedReference here | selfClosing here =>
    have read : reader.step '\n' = reader.enter .beforeAttributeName := by
      rw [SegmentReader.step, here]
      rfl
    exact step_again read rfl
  | comment here =>
    have read : reader.step '\n' = reader.enter (.comment 0) := by
      rw [SegmentReader.step, here]
      rfl
    exact step_again read rfl

theorem feed_normalizeLines (inStep : InStep reader state)
    (steady : state.straysIn (normalizeLines text) = false) :
    reader.feed text = reader.feed (normalizeLines text) := by
  fun_induction normalizeLines text generalizing reader state with
  | case1 text ih =>
    rw [LexerState.straysIn, Bool.or_eq_false_iff] at steady
    have next := ih (inStep.step steady.1) steady.2
    simp only [SegmentReader.feed, List.foldl_cons] at next ⊢
    rw [inStep.step_return, inStep.step_twice, next]
  | case2 text other ih =>
    rw [LexerState.straysIn, Bool.or_eq_false_iff] at steady
    have next := ih (inStep.step steady.1) steady.2
    simp only [SegmentReader.feed, List.foldl_cons] at next ⊢
    rw [inStep.step_return, next]
  | case3 c text _ smooth ih =>
    rw [LexerState.straysIn, Bool.or_eq_false_iff] at steady
    exact ih (inStep.step steady.1) steady.2
  | case4 => rfl

end InStep

/-! ## Between segments -/

/-- A value can stand in three places.  Behind it the reader goes on as if it had read a word. -/
theorem SegmentReader.place_eq_ok {reader after : SegmentReader} {next : List Char} {last : Bool}
    {position : Position} (placed : reader.place next last = .ok (position, after)) :
    (reader.state = .data ∧ position = .child ∧ after = reader) ∨
    (reader.state = .beforeAttributeValue ∧ position = .attribute reader.lastAttribute ∧
      after = reader.enter .unquotedValue) ∨
    (∃ quote, reader.state = .quotedValue quote true ∧
      position = .attribute reader.lastAttribute ∧
      after = reader.enter (.quotedValue quote false)) := by
  unfold SegmentReader.place at placed
  cases here : reader.state with
  | data =>
    rw [here] at placed
    cases placed
    exact .inl ⟨rfl, rfl, rfl⟩
  | beforeAttributeValue =>
    rw [here] at placed
    dsimp only at placed
    split at placed
    · cases placed
      exact .inr (.inl ⟨rfl, rfl, rfl⟩)
    · cases placed
  | quotedValue quote empty =>
    rw [here] at placed
    dsimp only at placed
    split at placed
    · next ends =>
      cases placed
      exact .inr (.inr ⟨quote, by rw [ends.1], rfl, rfl⟩)
    · cases placed
  | _ =>
    rw [here] at placed
    cases placed

theorem declared_eq (seen : List Char) :
    (∃ dash, declared seen = .declaration dash) ∨ declared seen = .bogusComment := by
  unfold declared
  split
  · exact .inl ⟨false, rfl⟩
  split
  · exact .inl ⟨true, rfl⟩
  · exact .inr rfl

namespace InStep

open LexerState

variable {reader : SegmentReader} {state : LexerState}

theorem of_data (inStep : InStep reader state) (here : reader.state = .data) :
    state = .content .data ∨ ∃ reference, state = .contentReference .data reference := by
  cases inStep with
  | data => exact .inl rfl
  | dataReference _ reference => exact .inr ⟨reference, rfl⟩
  | @declaration seen there => obtain ⟨dash, same⟩ | same := declared_eq seen <;> simp_all
  | _ => simp_all

theorem of_beforeAttributeValue (inStep : InStep reader state)
    (here : reader.state = .beforeAttributeValue) :
    ∃ attr, state = .beforeAttributeValue attr ∧ Knows reader attr.tag := by
  cases inStep with
  | @beforeAttributeValue attr _ knows => exact ⟨attr, rfl, knows⟩
  | @declaration seen there => obtain ⟨dash, same⟩ | same := declared_eq seen <;> simp_all
  | _ => simp_all

theorem of_quotedValue (inStep : InStep reader state) {quote : Char} {empty : Bool}
    (here : reader.state = .quotedValue quote empty) :
    ∃ attr, isQuote quote = true ∧ Knows reader attr.tag ∧ (state = .quotedValue quote attr ∨
      ∃ reference, state = .valueReference (some quote) attr reference) := by
  cases inStep with
  | @quotedValue _ _ attr there quotes knows =>
    rw [here] at there
    cases there
    exact ⟨attr, quotes, knows, .inl rfl⟩
  | @quotedReference _ _ attr reference there quotes knows =>
    rw [here] at there
    cases there
    exact ⟨attr, quotes, knows, .inr ⟨reference, rfl⟩⟩
  | @declaration seen there => obtain ⟨dash, same⟩ | same := declared_eq seen <;> simp_all
  | _ => simp_all

/-- In content, a word is text, perhaps behind that of a reference. -/
theorem advance_word (inStep : InStep reader state) (here : reader.state = .data)
    (wording : Wording) (index : Nat) :
    ∃ before : List Token, state.advance (wording.word index) =
      (.content .data, before ++
        (wording.word index).map fun c => .text (String.ofList [c])) ∧
      ∀ token ∈ before, ∃ text, token = .text text := by
  obtain rfl | ⟨reference, rfl⟩ := inStep.of_data here
  · exact ⟨[], advance_content_word wording index .data, nofun⟩
  · obtain ⟨text, ended⟩ := Reference.exists_step_foreign (c := '{') rfl false reference
    have after : (LexerState.contentReference .data reference).step '{' =
        stepContentAfter text .data '{' := by rw [LexerState.step, ended]
    refine ⟨[.text (String.ofList text)], ?_, fun token member => ?_⟩
    · rw [advance_word_after wording index after, advance_content_word]
      rfl
    · exact ⟨_, List.mem_singleton.mp member⟩

/-- Behind a value the readers are together again. -/
theorem place (inStep : InStep reader state) {after : SegmentReader} {next : List Char}
    {last : Bool} {position : Position} (placed : reader.place next last = .ok (position, after))
    (wording : Wording) (index : Nat) : InStep after (state.advance (wording.word index)).1 := by
  obtain ⟨here, -, rfl⟩ | ⟨here, -, rfl⟩ | ⟨quote, here, -, rfl⟩ := place_eq_ok placed
  · obtain ⟨before, read, -⟩ := inStep.advance_word here wording index
    rw [read]
    exact .data here
  · obtain ⟨attr, rfl, knows⟩ := inStep.of_beforeAttributeValue here
    have same : (LexerState.beforeAttributeValue attr).advance (wording.word index) =
        (LexerState.unquotedValue attr).advance (wording.word index) :=
      advance_word_congr (by rfl) wording index
    rw [same, advance_unquotedValue attr (wording.calm index)]
    exact .unquotedValue rfl ⟨knows.closing, knows.name⟩
  · obtain ⟨attr, quotes, knows, rfl | ⟨reference, rfl⟩⟩ := inStep.of_quotedValue here
    · rw [advance_quotedValue quotes attr (wording.calm index)]
      exact .quotedValue rfl quotes ⟨knows.closing, knows.name⟩
    · obtain ⟨text, ended⟩ := Reference.exists_step_foreign (c := '{') rfl true reference
      have after : (LexerState.valueReference (some quote) attr reference).step '{' =
          (LexerState.quotedValue quote (text.foldl LexerState.pushValue attr)).step '{' := by
        simp only [LexerState.step, ended]
        rfl
      have same : (LexerState.valueReference (some quote) attr reference).advance
          (wording.word index) =
          (LexerState.quotedValue quote (text.foldl LexerState.pushValue attr)).advance
            (wording.word index) := advance_word_congr after wording index
      have pushed := Knows.pushValue text knows
      rw [same, advance_quotedValue quotes _ (wording.calm index)]
      exact .quotedValue rfl quotes ⟨pushed.closing, pushed.name⟩

end InStep

end LiveMarkup
