import LiveMarkup.Proofs.Lockstep.States

/-! # Two readers in raw text

The segment reader looks for the end tag of an element letter by letter and forgets what was in
between; the lexer goes through many more states.  `InStep.step_text` keeps them together until the
name of the element is complete. -/

namespace LiveMarkup

open Markup SegmentReader

/-! ## In raw text -/

section

variable {reader : SegmentReader} {missing : List Char} {c : Char}

/-- What is still to come of an end tag behind a character that has not gone on with one. -/
def restarted (element : String) (c : Char) : List Char :=
  if c = '<' then (endTagStart element).tail else endTagStart element

/-- A character that does not go on with an end tag may begin another one. -/
theorem stepRawText_restart (filled : missing ≠ [])
    (broken : missing = endTagStart reader.tag ∨ missing.head? ≠ some c.toLower) :
    reader.stepRawText missing c = reader.enter (.rawText (restarted reader.tag c)) := by
  obtain ⟨expected, rest, rfl⟩ := List.exists_cons_of_ne_nil filled
  unfold stepRawText restarted
  dsimp only
  by_cases accepted : c.toLower = expected
  · -- Then nothing has been read yet, and this is the less-than sign.
    obtain whole | other := broken
    · obtain ⟨rfl, rfl⟩ := List.cons.inj whole
      obtain rfl := eq_of_toLower_eq accepted rfl
      simp [endTagStart]
    · exact absurd (by rw [accepted]; rfl) other
  · rw [if_neg accepted]
    by_cases less : c = '<'
    · rw [if_pos less, if_pos less]
    · rw [if_neg less, if_neg less]

theorem missingBehind_ne_nil {element : String} {letters : List Char}
    (unfinished : letters ≠ element.toList) : missingBehind element letters ≠ [] := by
  unfold missingBehind
  split
  · next front =>
    obtain ⟨rest, same⟩ := List.isPrefixOf_iff_prefix.mp front
    rw [← same] at unfinished ⊢
    rw [List.drop_left]
    rintro rfl
    simp at unfinished
  · simp [endTagStart]

/-- What is no letter does not go on with the name in an end tag. -/
theorem missingBehind_broken (listed : reader.tag ∈ rawTextElements) (letters : List Char)
    (other : c.isAlpha = false) :
    missingBehind reader.tag letters = endTagStart reader.tag ∨
      (missingBehind reader.tag letters).head? ≠ some c.toLower := by
  unfold missingBehind
  split
  · refine .inr fun first => ?_
    have member := List.mem_of_mem_drop (List.mem_of_mem_head? first)
    rw [isAlpha_of_toLower (isAlpha_of_listed listed _ member)] at other
    cases other
  · exact .inl rfl

/-- A letter goes on with the name in an end tag, and may be its last one. -/
theorem stepRawText_letter {letters : List Char} (unfinished : letters ≠ reader.tag.toList)
    (letter : c.isAlpha = true) :
    reader.stepRawText (missingBehind reader.tag letters) c =
      reader.enter (if letters ++ [c.toLower] = reader.tag.toList
        then .tagName true reader.tag.toList.reverse
        else .rawText (missingBehind reader.tag (letters ++ [c.toLower]))) := by
  have notLess : c ≠ '<' := ne_of_isAlpha letter '<' rfl
  -- If the letters so far begin the name, this one may go on with it; if not, the reader waits for
  -- another end tag already.
  by_cases front : letters.isPrefixOf reader.tag.toList
  · obtain ⟨rest, same⟩ := List.isPrefixOf_iff_prefix.mp front
    obtain ⟨expected, rest, rfl⟩ : ∃ d more, rest = d :: more := by
      refine List.exists_cons_of_ne_nil ?_
      rintro rfl
      exact unfinished (by rw [← same, List.append_nil])
    have missing : missingBehind reader.tag letters = expected :: rest := by
      rw [missingBehind, if_pos front, ← same, List.drop_left]
    by_cases accepted : c.toLower = expected
    · have next : letters ++ [c.toLower] ++ rest = reader.tag.toList := by
        rw [accepted, ← same, List.append_assoc]
        rfl
      have longer : (letters ++ [c.toLower]).isPrefixOf reader.tag.toList :=
        List.isPrefixOf_iff_prefix.mpr ⟨rest, next⟩
      have left : missingBehind reader.tag (letters ++ [c.toLower]) = rest := by
        rw [missingBehind, if_pos longer, ← next, List.drop_left]
      rw [missing, left, stepRawText, if_pos accepted]
      cases rest with
      | nil =>
        rw [List.append_nil] at next
        rw [if_pos rfl, if_pos next]
      | cons d more =>
        have unequal : letters ++ [c.toLower] ≠ reader.tag.toList := by
          rw [← next]
          simp
        rw [if_neg (List.cons_ne_nil d more), if_neg unequal]
    · have other : ¬ (letters ++ [c.toLower]).isPrefixOf reader.tag.toList := by
        rw [List.isPrefixOf_iff_prefix]
        rintro ⟨more, again⟩
        rw [← same, List.append_assoc, List.append_cancel_left_eq] at again
        exact accepted (List.cons.inj again).1
      have unequal : letters ++ [c.toLower] ≠ reader.tag.toList := fun equal =>
        other (List.isPrefixOf_iff_prefix.mpr ⟨[], by rw [List.append_nil, equal]⟩)
      rw [stepRawText_restart (missingBehind_ne_nil unfinished)
        (.inr (by rw [missing]; simpa using Ne.symm accepted)), restarted, if_neg notLess,
        if_neg unequal, missingBehind, if_neg other]
  · have other : ¬ (letters ++ [c.toLower]).isPrefixOf reader.tag.toList := by
      rw [List.isPrefixOf_iff_prefix] at front ⊢
      exact fun longer => front ((List.prefix_append letters [c.toLower]).trans longer)
    have unequal : letters ++ [c.toLower] ≠ reader.tag.toList := fun equal =>
      other (List.isPrefixOf_iff_prefix.mpr ⟨[], by rw [List.append_nil, equal]⟩)
    have missing : missingBehind reader.tag letters = endTagStart reader.tag := by
      rw [missingBehind, if_neg front]
    rw [missing, stepRawText_restart (by simp [endTagStart]) (.inl rfl), restarted,
      if_neg notLess, if_neg unequal, missingBehind, if_neg other]

end

/-! ## The lexer in raw text -/

section

open LexerState

variable {element : String} {mode : TextMode}

theorem inText_stepNested (element : String) (dashes : Nat) (c : Char) :
    InText element (stepNested element dashes c).1 (restarted element c) := by
  unfold stepNested restarted
  dsimp only [saying]
  by_cases less : c = '<'
  · rw [if_pos less, if_pos less]
    exact .nestedLessThan
  · rw [if_neg less, if_neg less]
    split
    · exact .content rfl rfl
    · split <;> exact .content rfl rfl

theorem inText_stepEscaped (element : String) (dashes : Nat) (c : Char) :
    InText element (stepEscaped element dashes c).1 (restarted element c) := by
  unfold stepEscaped restarted
  dsimp only [saying]
  by_cases less : c = '<'
  · rw [if_pos less, if_pos less]
    exact .lessThan rfl rfl
  · rw [if_neg less, if_neg less]
    refine .content ?_ rfl
    split
    · rfl
    · split <;> rfl

theorem inText_stepPlainScript (element : String) (c : Char) :
    InText element (stepPlainScript element c).1 (restarted element c) := by
  unfold stepPlainScript restarted
  by_cases less : c = '<'
  · rw [if_pos less, if_pos less]
    exact .lessThan rfl rfl
  · rw [if_neg less, if_neg less]
    exact .content rfl rfl

/-- A character of raw text other than a less-than sign leads to such a character again. -/
theorem inText_content {c : Char} (other : c ≠ '<') (even : mode.isEven = true)
    (own : mode.element? = some element) :
    InText element (.content mode) (restarted element c) := by
  rw [restarted, if_neg other]
  exact .content even own

theorem inText_stepScript {phase : ScriptPhase} (even : (TextMode.script element phase).isEven = true)
    (c : Char) : InText element (stepScript element phase c).1 (restarted element c) := by
  cases phase with
  | plain => exact inText_stepPlainScript element c
  | opening dash =>
    unfold stepScript
    dsimp only
    split
    · next same =>
      subst same
      cases dash <;> exact inText_content (by decide) rfl rfl
    · exact inText_stepPlainScript element c
  | escaped dashes => exact inText_stepEscaped element dashes c
  | naming word =>
    unfold stepScript
    dsimp only
    split
    · next ends =>
      have other : c ≠ '<' := by
        rintro rfl
        cases ends
      exact inText_content other (by split <;> rfl) rfl
    · split
      · next letter => exact inText_content (ne_of_isAlpha letter '<' rfl) rfl rfl
      · exact inText_stepEscaped element 0 c
  | nested dashes => exact inText_stepNested element dashes c
  | nestedLessThan => cases even
  | leaving word => cases even

theorem inText_stepContent (even : mode.isEven = true) (own : mode.element? = some element)
    (c : Char) : InText element (stepContent mode c).1 (restarted element c) := by
  cases mode with
  | data => cases own
  | escapable element =>
    cases own
    unfold stepContent restarted
    dsimp only
    by_cases less : c = '<'
    · subst less
      exact .lessThan rfl rfl
    · rw [if_neg less, if_neg less]
      split
      · exact .reference .start
      · exact .content rfl rfl
  | script element phase =>
    cases own
    exact inText_stepScript even c

theorem inText_stepContentAfter (text : List Char) (even : mode.isEven = true)
    (own : mode.element? = some element) (c : Char) :
    InText element (stepContentAfter text mode c).1 (restarted element c) :=
  inText_stepContent even own c

theorem inText_stepReference (reference : Reference) (c : Char) :
    InText element ((contentReference (.escapable element) reference).step c).1
      (restarted element c) := by
  rw [LexerState.step]
  obtain ⟨text, ended⟩ | ⟨part, outcome⟩ := reference.step_cases false c
  · rw [ended]
    exact inText_stepContentAfter text rfl rfl c
  have other : c ≠ '<' := by
    rintro rfl
    cases part
  obtain ⟨further, goesOn⟩ | ⟨text, -, done⟩ := outcome
  · rw [goesOn, restarted, if_neg other]
    exact .reference further
  · rw [done]
    exact inText_content other rfl rfl

/-- A less-than sign is text if there is no slash behind it. -/
theorem inText_stepLessThan {c : Char} (even : mode.isEven = true)
    (own : mode.element? = some element) (slash : c ≠ '/') :
    InText element (stepLessThan mode c).1 (restarted element c) := by
  cases mode with
  | data => cases own
  | escapable element =>
    simp only [stepLessThan, if_neg slash]
    exact inText_stepContentAfter ['<'] even own c
  | script element phase =>
    cases own
    cases phase with
    | plain =>
      simp only [stepLessThan, if_neg slash]
      split
      · next bang =>
        subst bang
        exact inText_content (by decide) rfl rfl
      · exact inText_stepContentAfter ['<'] even rfl c
    | escaped dashes =>
      simp only [stepLessThan, if_neg slash]
      split
      · next letter => exact inText_content (ne_of_isAlpha letter '<' rfl) rfl rfl
      · exact inText_stepContentAfter ['<'] even rfl c
    | _ =>
      simp only [stepLessThan, if_neg slash]
      exact inText_stepContentAfter ['<'] even rfl c

/-- A name in an end tag inside a comment ends with anything but a letter. -/
theorem inText_stepLeaving (word : List Char) {c : Char} (other : c.isAlpha = false) :
    InText element (stepScript element (.leaving word) c).1 (restarted element c) := by
  simp only [stepScript, other]
  split
  · next ends =>
    have more : c ≠ '<' := by
      rintro rfl
      cases ends
    exact inText_content more (by split <;> rfl) rfl
  · exact inText_stepNested element 0 c

end

/-! ## Both readers in raw text -/

section

open LexerState

variable {reader : SegmentReader} {state next : LexerState} {missing : List Char} {c : Char}

theorem InStep.restart (here : reader.state = .rawText missing)
    (listed : reader.tag ∈ rawTextElements) (filled : missing ≠ [])
    (broken : missing = endTagStart reader.tag ∨ missing.head? ≠ some c.toLower)
    (inText : InText reader.tag next (restarted reader.tag c)) : InStep (reader.step c) next := by
  have read : reader.step c = reader.enter (.rawText (restarted reader.tag c)) := by
    rw [SegmentReader.step, here]
    exact stepRawText_restart filled broken
  rw [read]
  exact .text rfl listed inText

/-- Behind one more letter of a name in an end tag. -/
theorem InStep.letter {letters : List Char}
    (here : reader.state = .rawText (missingBehind reader.tag letters))
    (unfinished : letters ≠ reader.tag.toList) (letter : c.isAlpha = true)
    (finished : letters ++ [c.toLower] = reader.tag.toList →
      InStep (reader.enter (.tagName true reader.tag.toList.reverse)) next)
    (longer : letters ++ [c.toLower] ≠ reader.tag.toList →
      InStep (reader.enter (.rawText (missingBehind reader.tag (letters ++ [c.toLower])))) next) :
    InStep (reader.step c) next := by
  have read := stepRawText_letter unfinished letter
  have entered : reader.step c = reader.stepRawText (missingBehind reader.tag letters) c := by
    rw [SegmentReader.step, here]
  rw [entered, read]
  by_cases whole : letters ++ [c.toLower] = reader.tag.toList
  · rw [if_pos whole]
    exact finished whole
  · rw [if_neg whole]
    exact longer whole

theorem nil_ne_of_listed {element : String} (listed : element ∈ rawTextElements) :
    [] ≠ element.toList := by
  simp only [rawTextElements, List.mem_cons, List.not_mem_nil, or_false] at listed
  obtain rfl | rfl | rfl | rfl := listed <;> decide

/-- Behind a less-than sign, where a slash goes on with an end tag. -/
theorem InStep.slash (here : reader.state = .rawText (endTagStart reader.tag).tail)
    (listed : reader.tag ∈ rawTextElements)
    (found : c = '/' → InStep (reader.enter (.rawText reader.tag.toList)) next)
    (other : c ≠ '/' → InText reader.tag next (restarted reader.tag c)) :
    InStep (reader.step c) next := by
  by_cases slash : c = '/'
  · have read : reader.step c = reader.enter (.rawText reader.tag.toList) := by
      rw [SegmentReader.step, here, slash]
      simp [stepRawText, endTagStart, (nil_ne_of_listed listed).symm]
    rw [read]
    exact found slash
  · refine .restart here listed (by simp [endTagStart]) (.inr fun first => ?_) (other slash)
    exact slash (eq_of_toLower_eq (Option.some.inj first).symm rfl)

/-- A letter behind a slash begins the name in an end tag. -/
theorem InStep.step_rawEndTagOpen {mode : TextMode} (even : mode.isEven = true)
    (own : mode.element? = some reader.tag) (here : reader.state = .rawText reader.tag.toList)
    (listed : reader.tag ∈ rawTextElements) (c : Char) :
    InStep (reader.step c) ((LexerState.endTagOpen mode).step c).1 := by
  have none : missingBehind reader.tag [] = reader.tag.toList := rfl
  have next : (LexerState.endTagOpen mode).step c =
      if c.isAlpha then silently (.rawEndTag mode [c])
      else stepContentAfter ['<', '/'] mode c := by
    cases mode with
    | data => cases own
    | _ => rfl
  rw [next]
  rw [← none] at here
  by_cases letter : c.isAlpha = true
  · rw [if_pos letter]
    refine .letter here (nil_ne_of_listed listed) letter (fun whole => ?_) fun other => ?_
    · exact .endTag listed rfl own whole
    · exact .text rfl listed (.rawEndTag even own other)
  · rw [if_neg letter]
    rw [Bool.not_eq_true] at letter
    exact .restart here listed (missingBehind_ne_nil (nil_ne_of_listed listed))
      (missingBehind_broken listed [] letter) (inText_stepContent even own c)

theorem InStep.step_rawEndTag {mode : TextMode} {name : List Char} (even : mode.isEven = true)
    (own : mode.element? = some reader.tag)
    (unfinished : (name.map Char.toLower).reverse ≠ reader.tag.toList)
    (here : reader.state = .rawText (missingBehind reader.tag (name.map Char.toLower).reverse))
    (listed : reader.tag ∈ rawTextElements) (c : Char) :
    InStep (reader.step c) ((LexerState.rawEndTag mode name).step c).1 := by
  rw [LexerState.step, stepRawEndTag]
  by_cases letter : c.isAlpha = true
  · rw [if_pos letter]
    have grown : ((c :: name).map Char.toLower).reverse =
        (name.map Char.toLower).reverse ++ [c.toLower] := by simp
    refine .letter here unfinished letter (fun whole => ?_) fun other => ?_
    · exact .endTag listed rfl own (grown.trans whole)
    · rw [← grown] at other ⊢
      exact .text rfl listed (.rawEndTag even own other)
  · have goesOn : endsText mode name = false := by
      cases mode with
      | data => rfl
      | escapable element | script element phase =>
        cases own
        simpa [endsText] using unfinished
    rw [if_neg letter, goesOn]
    rw [Bool.not_eq_true] at letter
    exact .restart here listed (missingBehind_ne_nil unfinished)
      (missingBehind_broken listed _ letter) (inText_stepContent even own c)

/-- Inside a comment the lexer does not leave the element, so it strays at the last letter of the
element's name. -/
theorem InStep.step_leaving {word : List Char} (unfinished : word.reverse ≠ reader.tag.toList)
    (here : reader.state = .rawText (missingBehind reader.tag word.reverse))
    (listed : reader.tag ∈ rawTextElements)
    (steady : (LexerState.content (.script reader.tag (.leaving word))).strays c = false) :
    InStep (reader.step c) ((LexerState.content (.script reader.tag (.leaving word))).step c).1 := by
  by_cases letter : c.isAlpha = true
  · have next : ((LexerState.content (.script reader.tag (.leaving word))).step c).1 =
        .content (.script reader.tag (.leaving (c.toLower :: word))) := by
      simp [LexerState.step, stepContent, stepScript, endsWord_of_isAlpha letter, letter, saying]
    rw [next]
    have grown : (c.toLower :: word).reverse = word.reverse ++ [c.toLower] := List.reverse_cons
    refine .letter here unfinished letter (fun whole => ?_) fun other => ?_
    · rw [LexerState.strays, letter, grown, whole] at steady
      simp at steady
    · rw [← grown] at other ⊢
      exact .text rfl listed (.leaving other)
  · rw [Bool.not_eq_true] at letter
    exact .restart here listed (missingBehind_ne_nil unfinished)
      (missingBehind_broken listed _ letter) (inText_stepLeaving word letter)

theorem InStep.step_text (inText : InText reader.tag state missing)
    (here : reader.state = .rawText missing) (listed : reader.tag ∈ rawTextElements)
    (steady : state.strays c = false) : InStep (reader.step c) (state.step c).1 := by
  cases inText with
  | content even own =>
    exact .restart here listed (by simp [endTagStart]) (.inl rfl) (inText_stepContent even own c)
  | reference reference =>
    exact .restart here listed (by simp [endTagStart]) (.inl rfl) (inText_stepReference reference c)
  | lessThan even own =>
    refine .slash here listed (fun slash => ?_) fun other => inText_stepLessThan even own other
    subst slash
    exact .text rfl listed (.endTagOpen even own)
  | endTagOpen even own => exact .step_rawEndTagOpen even own here listed c
  | rawEndTag even own unfinished => exact .step_rawEndTag even own unfinished here listed c
  | nestedLessThan =>
    refine .slash here listed (fun slash => ?_) fun other => ?_
    · subst slash
      exact .text rfl listed (.leaving (nil_ne_of_listed listed))
    · simp only [LexerState.step, stepContent, stepScript, if_neg other]
      exact inText_stepNested reader.tag 0 c
  | leaving unfinished => exact .step_leaving unfinished here listed steady

end

end LiveMarkup
