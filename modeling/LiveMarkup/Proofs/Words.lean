import LiveMarkup.Proofs.Lexing
import LiveMarkup.Proofs.References

/-! # Words in markup

Where a sketch has a hole, the lexer reads a word.  The brace at its front ends what can be ended by
a character without a meaning, such as a reference, and leads to a state in which the rest of the
word is just collected (`advance_calm`).

One list of token sketches serves for whatever words there are in the markup (`LexerSketch.lexed`).
-/

namespace LiveMarkup

open Markup

/-! ## Calm text -/

theorem ne_of_isCalm {c : Char} (calm : isCalm c = true) (special : Char)
    (other : isCalm special = false) : c ≠ special := by
  rintro rfl
  rw [calm] at other
  cases other

/-- A calm character has no case. -/
theorem toLower_of_isCalm {c : Char} (calm : isCalm c = true) : c.toLower = c := by
  have small : ¬ ('A'.val ≤ c.val ∧ c.val ≤ 'Z'.val) := by
    rintro ⟨least, greatest⟩
    simp only [isCalm, isLower_iff, Char.isDigit, Bool.or_eq_true, Bool.and_eq_true,
      decide_eq_true_eq, beq_iff_eq] at calm
    obtain ((⟨lower, -⟩ | ⟨-, digit⟩) | rfl) | rfl := calm
    · exact absurd (UInt32.le_trans lower greatest) (by decide)
    · exact absurd (UInt32.le_trans least digit) (by decide)
    · exact absurd greatest (by decide)
    · exact absurd greatest (by decide)
  unfold Char.toLower
  rw [dif_neg small]

/-- What the lexer asks about characters, of one that is calm or a dash. -/
structure Quiet (c : Char) : Prop where
  named : LexerState.nameChar c = c
  shown : LexerState.visible c = c
  solid : isBlank c = false
  goesOn : LexerState.endsWord c = false
  ne_greater : c ≠ '>'
  ne_less : c ≠ '<'
  ne_ampersand : c ≠ '&'
  ne_equals : c ≠ '='
  ne_quote {quote : Char} : isQuote quote = true → c ≠ quote

theorem Quiet.of_isCalm {c : Char} (calm : isCalm c = true) : Quiet c := by
  have shown : LexerState.visible c = c := if_neg (ne_of_isCalm calm _ rfl)
  have solid : isBlank c = false := by
    simp only [isBlank, Bool.or_eq_false_iff, beq_eq_false_iff_ne]
    exact ⟨⟨⟨⟨ne_of_isCalm calm _ rfl, ne_of_isCalm calm _ rfl⟩, ne_of_isCalm calm _ rfl⟩,
      ne_of_isCalm calm _ rfl⟩, ne_of_isCalm calm _ rfl⟩
  refine {
    named := by rw [LexerState.nameChar, toLower_of_isCalm calm, shown]
    shown := shown
    solid := solid
    goesOn := ?_
    ne_greater := ne_of_isCalm calm _ rfl
    ne_less := ne_of_isCalm calm _ rfl
    ne_ampersand := ne_of_isCalm calm _ rfl
    ne_equals := ne_of_isCalm calm _ rfl
    ne_quote := fun quotes => ne_of_isCalm calm _ ?_ }
  · simp [LexerState.endsWord, solid, ne_of_isCalm calm '/' rfl,
      ne_of_isCalm calm '>' rfl]
  · simp only [isQuote, Bool.or_eq_true, beq_iff_eq] at quotes
    obtain rfl | rfl := quotes <;> rfl

theorem Quiet.dash : Quiet '-' := by
  refine ⟨rfl, rfl, rfl, rfl, ?_, ?_, ?_, ?_, ?_⟩
  · decide
  · decide
  · decide
  · decide
  · rintro quote quotes rfl
    cases quotes

namespace Markup.LexerState

/-- The state behind a text, and the tokens that are complete by then. -/
def advance (state : LexerState) : List Char → LexerStep
  | [] => silently state
  | c :: rest =>
    let (next, tokens) := state.step c
    let (last, more) := next.advance rest
    (last, tokens ++ more)

theorem advance_cons (state : LexerState) (c : Char) (rest : List Char) :
    state.advance (c :: rest) =
      (((state.step c).1.advance rest).1, (state.step c).2 ++ ((state.step c).1.advance rest).2) :=
  rfl

theorem advance_append (state : LexerState) (first second : List Char) :
    state.advance (first ++ second) =
      (((state.advance first).1.advance second).1,
        (state.advance first).2 ++ ((state.advance first).1.advance second).2) := by
  induction first generalizing state with
  | nil => rfl
  | cons c first ih => simp [advance_cons, ih]

theorem run_append (state : LexerState) (text rest : List Char) :
    state.run (text ++ rest) = (state.advance text).2 ++ (state.advance text).1.run rest := by
  induction text generalizing state with
  | nil => rfl
  | cons c text ih => simp [run, advance_cons, ih]

/-- Calm text is gathered if each calm character is, and each dash with the character behind it. -/
theorem advance_calm (state : List Char → LexerState) (say : Char → List Token)
    (single : ∀ read c, isCalm c = true → (state read).step c = (state (read ++ [c]), say c))
    (double : ∀ read c, isCalm c = true →
      (state read).advance ['-', c] = (state (read ++ ['-', c]), say '-' ++ say c))
    {text : List Char} (calm : Calm text) (read : List Char) :
    (state read).advance text = (state (read ++ text), text.flatMap say) := by
  induction calm generalizing read with
  | nil => simp [advance, silently]
  | cons quiet after ih => simp [advance_cons, single read _ quiet, ih]
  | @dash c rest quiet after ih =>
    have twice := double read c quiet
    simp only [advance, silently, Prod.mk.injEq, List.append_nil] at twice
    obtain ⟨next, tokens⟩ := twice
    rw [advance_cons, advance_cons, next, ih]
    rw [List.flatMap_cons, List.flatMap_cons, ← List.append_assoc, ← List.append_assoc, tokens,
      List.append_assoc]
    rfl

/-- Calm text is gathered if calm characters and dashes are gathered alike. -/
theorem advance_quiet (state : List Char → LexerState)
    (quietly : ∀ read c, Quiet c → (state read).step c = silently (state (read ++ [c])))
    {text : List Char} (calm : Calm text) (read : List Char) :
    (state read).advance text = silently (state (read ++ text)) := by
  have gathered := advance_calm state (fun _ => [])
    (fun read c quiet => quietly read c (.of_isCalm quiet)) (fun read c quiet => by
      simp [advance, quietly _ _ Quiet.dash, quietly _ _ (.of_isCalm quiet), silently])
    calm read
  rw [gathered, List.flatMap_eq_nil_iff.mpr fun _ _ => rfl]
  rfl

theorem advance_tagName (tag : OpenTag) {text : List Char} (calm : Calm text) :
    (tagName tag).advance text = silently (.tagName { tag with name := text.reverse ++ tag.name }) :=
  advance_quiet (fun read => .tagName { tag with name := read.reverse ++ tag.name })
    (fun read c quiet => by simp [step, quiet.goesOn, quiet.named]) calm []

theorem advance_attributeName (attr : OpenAttribute) {text : List Char} (calm : Calm text) :
    (attributeName attr).advance text =
      silently (.attributeName { attr with name := text.reverse ++ attr.name }) :=
  advance_quiet (fun read => .attributeName { attr with name := read.reverse ++ attr.name })
    (fun read c quiet => by simp [step, quiet.goesOn, quiet.named, quiet.solid, quiet.ne_equals])
    calm []

theorem advance_quotedValue {quote : Char} (quotes : isQuote quote = true) (attr : OpenAttribute)
    {text : List Char} (calm : Calm text) :
    (quotedValue quote attr).advance text =
      silently (.quotedValue quote { attr with value := text.reverse ++ attr.value }) :=
  advance_quiet
    (fun read => .quotedValue quote { attr with value := read.reverse ++ attr.value })
    (fun read c quiet => by
      simp [step, stepQuotedValue, quiet.ne_quote quotes, quiet.ne_ampersand, quiet.shown, pushValue])
    calm []

theorem advance_unquotedValue (attr : OpenAttribute) {text : List Char} (calm : Calm text) :
    (unquotedValue attr).advance text =
      silently (.unquotedValue { attr with value := text.reverse ++ attr.value }) :=
  advance_quiet (fun read => .unquotedValue { attr with value := read.reverse ++ attr.value })
    (fun read c quiet => by
      simp [step, stepUnquotedValue, quiet.solid, quiet.ne_greater, quiet.ne_ampersand, quiet.shown,
        pushValue])
    calm []

theorem advance_doctype {text : List Char} (calm : Calm text) :
    doctype.advance text = silently .doctype :=
  advance_quiet (fun _ => .doctype)
    (fun read c quiet => by simp [step, quiet.ne_greater]) calm []

theorem advance_bogusComment (before : List Char) {text : List Char} (calm : Calm text) :
    (bogusComment before).advance text = silently (.bogusComment (text.reverse ++ before)) :=
  advance_quiet (fun read => .bogusComment (read.reverse ++ before))
    (fun read c quiet => by simp [step, stepBogusComment, quiet.ne_greater, quiet.shown]) calm []

theorem advance_comment (before : List Char) {text : List Char} (calm : Calm text) :
    (comment before .none).advance text = silently (.comment (text.reverse ++ before) .none) := by
  have gathered := advance_calm (fun read => .comment (read.reverse ++ before) .none)
    (fun _ => [])
    (fun read c quiet => by
      simp [step, stepCommentTail, stepComment, silently, ne_of_isCalm quiet '-' rfl,
        (Quiet.of_isCalm quiet).shown])
    (fun read c quiet => by
      simp [advance, step, stepCommentTail, stepComment, silently, ne_of_isCalm quiet '-' rfl,
        (Quiet.of_isCalm quiet).shown])
    calm []
  rw [List.flatMap_eq_nil_iff.mpr fun _ _ => rfl] at gathered
  exact gathered

/-- The mode in which text goes on behind a word. -/
def behindWord : TextMode → TextMode
  | .script element phase =>
    .script element <|
      match phase with
      | .plain | .opening _ => .plain
      | .escaped _ | .naming _ => .escaped 0
      | .nested _ | .nestedLessThan | .leaving _ => .nested 0
  | mode => mode

theorem stepContent_brace (mode : TextMode) :
    stepContent mode '{' = saying (.content (behindWord mode)) ['{'] := by
  cases mode with
  | data | escapable element => rfl
  | script element phase =>
    cases phase with
    | opening dash => cases dash <;> rfl
    | _ => rfl

theorem stepContent_calm (mode : TextMode) {c : Char} (calm : isCalm c = true) :
    stepContent (behindWord mode) c = saying (.content (behindWord mode)) [c] := by
  have quiet := Quiet.of_isCalm calm
  cases mode with
  | data => simp [stepContent, behindWord, quiet.ne_less, quiet.ne_ampersand]
  | escapable element =>
    simp [stepContent, behindWord, quiet.ne_less, quiet.ne_ampersand, quiet.shown]
  | script element phase =>
    cases phase <;>
      simp [stepContent, behindWord, stepScript, stepPlainScript, stepEscaped, stepNested,
        quiet.ne_less, quiet.ne_greater, quiet.shown, ne_of_isCalm calm '-' rfl]

/-- A dash counts as one that a comment may end with, until the next character. -/
theorem exists_stepContent_dash (mode : TextMode) :
    ∃ between, stepContent (behindWord mode) '-' = saying (.content between) ['-'] ∧
      ∀ c, isCalm c = true → stepContent between c = stepContent (behindWord mode) c := by
  cases mode with
  | data => exact ⟨.data, rfl, fun _ _ => rfl⟩
  | escapable element => exact ⟨.escapable element, rfl, fun _ _ => rfl⟩
  | script element phase =>
    refine ⟨.script element <|
      match phase with
      | .plain | .opening _ => .plain
      | .escaped _ | .naming _ => .escaped 1
      | .nested _ | .nestedLessThan | .leaving _ => .nested 1, ?_, fun c calm => ?_⟩
    · cases phase <;> rfl
    · have quiet := Quiet.of_isCalm calm
      cases phase <;>
        simp [stepContent, behindWord, stepScript, stepEscaped, stepNested, quiet.ne_greater,
          ne_of_isCalm calm '-' rfl]

theorem advance_content_calm (mode : TextMode) {text : List Char} (calm : Calm text) :
    (content (behindWord mode)).advance text =
      (.content (behindWord mode), text.map fun c => .text (String.ofList [c])) := by
  rw [List.map_eq_flatMap]
  refine advance_calm (fun _ => .content (behindWord mode)) _
    (fun read c calm => stepContent_calm mode calm) (fun read c calm => ?_) calm []
  obtain ⟨between, here, next⟩ := exists_stepContent_dash mode
  simp [advance, step, here, next c calm, stepContent_calm mode calm, saying, silently]

theorem advance_content_word (wording : Wording) (index : Nat) (mode : TextMode) :
    (content mode).advance (wording.word index) =
      (.content (behindWord mode), (wording.word index).map fun c => .text (String.ofList [c])) := by
  obtain ⟨rest, word, calm⟩ := wording.proper index
  rw [word, advance_cons, step, stepContent_brace, saying, advance_content_calm mode calm]
  rfl

/-- Where a brace is text behind other text, so is a word. -/
theorem advance_word_after (wording : Wording) (index : Nat) {text : List Char} {mode : TextMode}
    {state : LexerState} (after : state.step '{' = stepContentAfter text mode '{') :
    state.advance (wording.word index) =
      (((content mode).advance (wording.word index)).1,
        [.text (String.ofList text)] ++ ((content mode).advance (wording.word index)).2) := by
  obtain ⟨rest, word, -⟩ := wording.proper index
  rw [word, advance_cons, advance_cons, after]
  rfl

end Markup.LexerState

theorem Wording.calm (wording : Wording) (index : Nat) : Calm (wording.word index) := by
  obtain ⟨rest, word, calm⟩ := wording.proper index
  rw [word]
  exact .cons rfl calm

theorem Outlines.behind {holes : List Nat} {step : Wording → LexerStep}
    (outlines : Outlines holes step) (before : List Token) :
    Outlines holes fun wording => ((step wording).1, before ++ (step wording).2) := by
  obtain ⟨sketch, tokens, same, within⟩ := outlines
  refine ⟨sketch, before.map .ofToken ++ tokens, fun wording => ⟨(same wording).1, ?_⟩, ?_⟩
  · have front : (before.map TokenSketch.ofToken).map (TokenSketch.fill wording) = before := by
      simp [Function.comp_def]
    rw [List.map_append, front]
    exact (Interchangeable.refl before).append (same wording).2
  · have none : (before.map TokenSketch.ofToken).flatMap TokenSketch.holes = [] := by
      simp [List.flatMap_eq_nil_iff]
    rwa [List.flatMap_append, none]

/-- States that a brace leads on alike, a word leads on alike. -/
theorem Markup.LexerState.advance_word_congr {state other : LexerState}
    (same : state.step '{' = other.step '{') (wording : Wording) (index : Nat) :
    state.advance (wording.word index) = other.advance (wording.word index) := by
  obtain ⟨rest, word, -⟩ := wording.proper index
  rw [word, advance_cons, advance_cons, same]

theorem Outlines.word_congr {holes : List Nat} {index : Nat} {state other : Wording → LexerState}
    (outlines : Outlines holes fun wording => (other wording).advance (wording.word index))
    (same : ∀ wording, (state wording).step '{' = (other wording).step '{') :
    Outlines holes fun wording => (state wording).advance (wording.word index) := by
  simpa only [LexerState.advance_word_congr (same _)] using outlines

namespace LexerSketch

open LexerState

theorem outlines_word_content (index : Nat) (mode : TextMode) :
    Outlines [index] fun wording => (LexerState.content mode).advance (wording.word index) := by
  refine ⟨.bare (.content (behindWord mode)) rfl, [.text [.hole index]], fun wording => ?_, ?_⟩
  · simp only [advance_content_word]
    exact ⟨rfl, by simpa [TokenSketch.fill] using Interchangeable.texts (wording.word index)⟩
  · simp [LexerSketch.holes, TokenSketch.holes, Within.refl]

theorem outlines_word_after (text : List Char) (mode : TextMode) (index : Nat)
    {state : LexerState} (after : state.step '{' = stepContentAfter text mode '{') :
    Outlines [index] fun wording => state.advance (wording.word index) := by
  simp only [advance_word_after _ _ after]
  exact (outlines_word_content index mode).behind _

theorem outlines_word_tagName (index : Nat) (tag : TagSketch) :
    Outlines (index :: tag.holes) fun wording =>
      (LexerState.tagName (tag.fill wording)).advance (wording.word index) := by
  refine .silently (.tagName { tag with name := tag.name ++ [.hole index] }) (fun wording => ?_)
    fun other => ?_
  · rw [advance_tagName _ (wording.calm index)]
    simp [LexerSketch.fill, TagSketch.fill]
  · simp [LexerSketch.holes, TagSketch.holes, List.count_cons]
    omega

theorem outlines_word_attributeName (index : Nat) (attr : AttributeSketch) :
    Outlines (index :: attr.holes) fun wording =>
      (LexerState.attributeName (attr.fill wording)).advance (wording.word index) := by
  refine .silently (.attributeName (attr.pushName [.hole index])) (fun wording => ?_) fun other => ?_
  · rw [advance_attributeName _ (wording.calm index)]
    simp [LexerSketch.fill, AttributeSketch.fill, AttributeSketch.pushName]
  · simp [LexerSketch.holes, AttributeSketch.holes, AttributeSketch.pushName, List.count_cons]
    omega

/-- A word begins the name of an attribute. -/
theorem outlines_word_beforeAttributeName (index : Nat) (tag : TagSketch) :
    Outlines (index :: tag.holes) fun wording =>
      (LexerState.beforeAttributeName (tag.fill wording)).advance (wording.word index) := by
  refine .silently (.attributeName ⟨tag, [.hole index], []⟩) (fun wording => ?_) fun other => ?_
  · obtain ⟨rest, word, calm⟩ := wording.proper index
    rw [word, advance_cons, show (LexerState.beforeAttributeName (tag.fill wording)).step '{' =
      silently (.attributeName ⟨tag.fill wording, ['{'], []⟩) from rfl]
    simp [silently, advance_attributeName _ calm, LexerSketch.fill, AttributeSketch.fill, word]
  · simp [LexerSketch.holes, AttributeSketch.holes, List.count_cons]

theorem outlines_word_quotedValue (index : Nat) {quote : Char} (quotes : isQuote quote = true)
    (attr : AttributeSketch) :
    Outlines (index :: attr.holes) fun wording =>
      (LexerState.quotedValue quote (attr.fill wording)).advance (wording.word index) := by
  refine .silently (.quotedValue quote quotes (attr.pushValue [.hole index])) (fun wording => ?_)
    fun other => ?_
  · rw [advance_quotedValue quotes _ (wording.calm index)]
    simp [LexerSketch.fill, AttributeSketch.fill, AttributeSketch.pushValue]
  · simp [LexerSketch.holes, AttributeSketch.holes, AttributeSketch.pushValue, List.count_cons]
    omega

theorem outlines_word_unquotedValue (index : Nat) (attr : AttributeSketch) :
    Outlines (index :: attr.holes) fun wording =>
      (LexerState.unquotedValue (attr.fill wording)).advance (wording.word index) := by
  refine .silently (.unquotedValue (attr.pushValue [.hole index])) (fun wording => ?_)
    fun other => ?_
  · rw [advance_unquotedValue _ (wording.calm index)]
    simp [LexerSketch.fill, AttributeSketch.fill, AttributeSketch.pushValue]
  · simp [LexerSketch.holes, AttributeSketch.holes, AttributeSketch.pushValue, List.count_cons]
    omega

theorem outlines_word_comment (index : Nat) (text : Sketch) :
    Outlines (index :: Sketch.holes text) fun wording =>
      (LexerState.comment (Sketch.fill wording text).reverse .none).advance
        (wording.word index) := by
  refine .silently (.comment (text ++ [.hole index]) .none) (fun wording => ?_) fun other => ?_
  · rw [advance_comment _ (wording.calm index)]
    simp [LexerSketch.fill]
  · simp [LexerSketch.holes, List.count_append, List.count_cons]

theorem outlines_word_bogusComment (index : Nat) (text : Sketch) :
    Outlines (index :: Sketch.holes text) fun wording =>
      (LexerState.bogusComment (Sketch.fill wording text).reverse).advance
        (wording.word index) := by
  refine .silently (.bogusComment (text ++ [.hole index])) (fun wording => ?_) fun other => ?_
  · rw [advance_bogusComment _ (wording.calm index)]
    simp [LexerSketch.fill]
  · simp [LexerSketch.holes, List.count_append, List.count_cons]

/-- What is declared is no comment and no document type if another character is part of it. -/
theorem stepDeclaration_foreign (seen : List Char) {c : Char} (other : c ≠ '-')
    (absent : c.toLower ∉ doctypeWord) : stepDeclaration seen c = stepBogusComment seen c := by
  have member : c.toLower ∈ ((c :: seen).map Char.toLower).reverse := by simp
  have unequal : doctypeWord ≠ ((c :: seen).map Char.toLower).reverse := fun same =>
    absent (same ▸ member)
  have longer : ¬ ((c :: seen).map Char.toLower).reverse.isPrefixOf doctypeWord = true :=
    fun front => absent ((List.isPrefixOf_iff_prefix.mp front).mem member)
  rw [stepDeclaration, if_neg (by simp [other]), if_neg (by simp [other]), if_neg unequal,
    if_neg longer]

theorem outlines_word_bare (index : Nat) {state : LexerState} (bare : state.isBare = true) :
    Outlines [index] fun wording => state.advance (wording.word index) := by
  cases state with
  | content mode => exact outlines_word_content index mode
  | contentReference mode reference =>
    obtain ⟨text, ended⟩ := Reference.exists_step_foreign (c := '{') rfl false reference
    refine outlines_word_after text mode index ?_
    simp [LexerState.step, ended]
  | lessThan mode =>
    refine outlines_word_after ['<'] mode index ?_
    cases mode with
    | data | escapable element => rfl
    | script element phase => cases phase <;> rfl
  | endTagOpen mode =>
    cases mode with
    | data => exact (outlines_word_bogusComment index []).word_congr fun _ => rfl
    | escapable element => exact outlines_word_after ['<', '/'] (.escapable element) index rfl
    | script element phase => exact outlines_word_after ['<', '/'] (.script element phase) index rfl
  | rawEndTag mode name =>
    refine outlines_word_after ('<' :: '/' :: name.reverse) mode index ?_
    simp [LexerState.step, stepRawEndTag, endsWord, isBlank]
  | declaration seen =>
    have bogus := outlines_word_bogusComment index (.ofText seen.reverse)
    simp only [Sketch.fill_ofText, List.reverse_reverse, Sketch.holes_ofText] at bogus
    exact bogus.word_congr fun _ => stepDeclaration_foreign seen (by decide) (by decide)
  | doctype =>
    simp only [advance_doctype (Wording.calm _ index)]
    exact .of_bare rfl
  | _ => cases bare

theorem outlines_word (sketch : LexerSketch) (index : Nat) :
    Outlines (index :: sketch.holes) fun wording =>
      (sketch.fill wording).advance (wording.word index) := by
  cases sketch with
  | bare state bare => exact outlines_word_bare index bare
  | tagName tag => exact outlines_word_tagName index tag
  | beforeAttributeName tag | afterQuotedValue tag | selfClosing tag =>
    exact (outlines_word_beforeAttributeName index tag).word_congr fun _ => rfl
  | attributeName attr => exact outlines_word_attributeName index attr
  | afterAttributeName attr =>
    have next := outlines_word_beforeAttributeName index attr.keep
    rw [AttributeSketch.holes_keep] at next
    refine next.word_congr fun wording => ?_
    rw [AttributeSketch.fill_keep]
    rfl
  | beforeAttributeValue attr =>
    exact (outlines_word_unquotedValue index attr).word_congr fun _ => rfl
  | quotedValue quote quotes attr => exact outlines_word_quotedValue index quotes attr
  | unquotedValue attr => exact outlines_word_unquotedValue index attr
  | valueReference quote quotes attr reference =>
    -- The brace at the front of the word ends the reference.
    obtain ⟨text, ended⟩ := Reference.exists_step_foreign (c := '{') rfl true reference
    have pushed : (attr.pushValue (.ofText text)).holes = attr.holes := by
      simp [AttributeSketch.holes, AttributeSketch.pushValue]
    cases quote with
    | none =>
      have next := outlines_word_unquotedValue index (attr.pushValue (.ofText text))
      rw [pushed] at next
      refine next.word_congr fun wording => ?_
      simp only [fill, LexerState.step, ended, AttributeSketch.fill_pushValue_ofText]
      rfl
    | some quote =>
      have next := outlines_word_quotedValue index quotes (attr.pushValue (.ofText text))
      rw [pushed] at next
      refine next.word_congr fun wording => ?_
      simp only [fill, LexerState.step, ended, AttributeSketch.fill_pushValue_ofText]
      rfl
  | comment text tail =>
    -- What might have been the end of the comment is part of it with the word behind it.
    have behind (pending : List Char) : Outlines (index :: Sketch.holes text) fun wording =>
        (LexerState.comment (pending ++ (Sketch.fill wording text).reverse) .none).advance
          (wording.word index) := by
      simpa using outlines_word_comment index (text ++ .ofText pending.reverse)
    cases tail with
    | start | none => exact (behind []).word_congr fun _ => rfl
    | startDash | dash => exact (behind ['-']).word_congr fun _ => rfl
    | dashes => exact (behind ['-', '-']).word_congr fun _ => rfl
    | bang => exact (behind ['!', '-', '-']).word_congr fun _ => rfl
  | bogusComment text => exact outlines_word_bogusComment index text

/-! ## Tokens of markup -/

theorem exists_finish (sketch : LexerSketch) :
    ∃ tokens : List TokenSketch,
      (∀ wording, (sketch.fill wording).finish = tokens.map (TokenSketch.fill wording)) ∧
      Within (tokens.flatMap TokenSketch.holes) sketch.holes := by
  cases sketch with
  | bare state bare =>
    refine ⟨state.finish.map .ofToken, fun wording => ?_, fun index => ?_⟩
    · simp [fill, Function.comp_def]
    · simp [holes, List.flatMap_eq_nil_iff.mpr]
  | comment text _ | bogusComment text =>
    refine ⟨[.comment text], fun wording => ?_, fun index => ?_⟩
    · simp [fill, finish, TokenSketch.fill]
    · simp [holes, TokenSketch.holes]
  | _ => exact ⟨[], fun _ => rfl, fun index => by simp⟩

end LexerSketch

/-- `Lexed holes run` says that there are sketches of the tokens of a run for each wording. -/
def Lexed (holes : List Nat) (run : Wording → List Token) : Prop :=
  ∃ tokens : List TokenSketch,
    (∀ wording, Interchangeable (run wording) (tokens.map (TokenSketch.fill wording))) ∧
    Within (tokens.flatMap TokenSketch.holes) holes

/-- The tokens of a step come before those of the text behind it. -/
theorem Outlines.lexed {holes : List Nat} {step : Wording → LexerStep} {text : Sketch}
    (outlines : Outlines holes step)
    (rest : ∀ sketch : LexerSketch, Lexed (sketch.holes ++ Sketch.holes text) fun wording =>
      (sketch.fill wording).run (Sketch.fill wording text)) :
    Lexed (holes ++ Sketch.holes text) fun wording =>
      (step wording).2 ++ (step wording).1.run (Sketch.fill wording text) := by
  obtain ⟨next, tokens, same, within⟩ := outlines
  obtain ⟨later, behind, withinLater⟩ := rest next
  refine ⟨tokens ++ later, fun wording => ?_, fun index => ?_⟩
  · simp only [List.map_append, (same wording).1]
    exact (same wording).2.append (behind wording)
  · have here := within index
    have there := withinLater index
    simp only [List.flatMap_append, List.count_append] at here there ⊢
    omega

/-- The tokens of a filled sketch are filled sketches of tokens. -/
theorem LexerSketch.lexed (sketch : LexerSketch) (text : Sketch) :
    Lexed (sketch.holes ++ Sketch.holes text) fun wording =>
      (sketch.fill wording).run (Sketch.fill wording text) := by
  induction text generalizing sketch with
  | nil =>
    obtain ⟨tokens, same, within⟩ := sketch.exists_finish
    refine ⟨tokens, fun wording => ?_, by simpa using within⟩
    rw [← same]
    exact .refl _
  | cons glyph text ih =>
    cases glyph with
    | char c => exact (outlines_step sketch c).lexed ih
    | hole index =>
      obtain ⟨tokens, same, within⟩ := (outlines_word sketch index).lexed ih
      refine ⟨tokens, fun wording => ?_, fun other => (within other).trans ?_⟩
      · simp only [Sketch.fill_hole, LexerState.run_append]
        exact same wording
      · simp only [Sketch.holes_hole, List.cons_append, List.count_append, List.count_cons]
        omega

/-! ## Markup with words -/

/-- The given segments, each behind a word, the first of which has the given index. -/
def joinWithFrom (word : Nat → List Char) (index : Nat) : List (List Char) → List Char
  | [] => []
  | segment :: rest => word index ++ segment ++ joinWithFrom word (index + 1) rest

/-- The segments with word `i` between segments `i` and `i + 1`. -/
def joinCharsWith (word : Nat → List Char) : List (List Char) → List Char
  | [] => []
  | first :: rest => first ++ joinWithFrom word 0 rest

def joinWith (word : Nat → List Char) (segments : List String) : String :=
  String.ofList (joinCharsWith word (segments.map String.toList))

/-- A literal is read with placeholders as words. -/
theorem joinWith_chars (segments : List String) :
    joinWith Placeholder.chars segments = Placeholder.join segments := by
  have going (index : Nat) (segments : List (List Char)) :
      joinWithFrom Placeholder.chars index segments = Placeholder.joinFrom index segments := by
    induction segments generalizing index with
    | nil => rfl
    | cons segment rest ih => rw [joinWithFrom, Placeholder.joinFrom, ih]
  rw [joinWith, Placeholder.join]
  cases segments.map String.toList with
  | nil => rfl
  | cons first rest => rw [joinCharsWith, Placeholder.joinChars, going]

/-- The given segments as they are read, each behind a hole, the first of which has the given
index. -/
def Sketch.behindHoles (index : Nat) : List (List Char) → Sketch
  | [] => []
  | segment :: rest =>
    .hole index :: (Sketch.ofText (normalizeLines segment) ++ Sketch.behindHoles (index + 1) rest)

/-- The markup of a literal as it is read, with a hole for each value. -/
def Sketch.ofSegments : List (List Char) → Sketch
  | [] => []
  | first :: rest => Sketch.ofText (normalizeLines first) ++ Sketch.behindHoles 0 rest

theorem Sketch.holes_behindHoles (index : Nat) (segments : List (List Char)) :
    Sketch.holes (Sketch.behindHoles index segments) = List.range' index segments.length := by
  induction segments generalizing index with
  | nil => rfl
  | cons segment rest ih => simp [Sketch.behindHoles, ih, List.range'_succ]

theorem Sketch.holes_ofSegments (segments : List (List Char)) :
    Sketch.holes (Sketch.ofSegments segments) = List.range (segments.length - 1) := by
  cases segments with
  | nil => rfl
  | cons first rest => simp [Sketch.ofSegments, Sketch.holes_behindHoles, List.range_eq_range']

theorem normalizeLines_cons {c : Char} (smooth : c ≠ '\r') (rest : List Char) :
    normalizeLines (c :: rest) = c :: normalizeLines rest := by
  rw [normalizeLines]
  · exact fun _ same _ => smooth same
  · exact smooth

theorem normalizeLines_append {text : List Char} (smooth : '\r' ∉ text) (rest : List Char) :
    normalizeLines (text ++ rest) = text ++ normalizeLines rest := by
  induction text with
  | nil => rfl
  | cons c text ih =>
    rw [List.mem_cons, not_or] at smooth
    rw [List.cons_append, normalizeLines_cons (Ne.symm smooth.1), ih smooth.2, List.cons_append]

/-- A brace is no part of the end of a line. -/
theorem normalizeLines_append_brace (text rest : List Char) :
    normalizeLines (text ++ '{' :: rest) = normalizeLines text ++ normalizeLines ('{' :: rest) := by
  fun_induction normalizeLines text with
  | case1 text ih => simpa [normalizeLines] using ih
  | case2 text other ih =>
    rw [List.cons_append, normalizeLines, ih, List.cons_append]
    cases text with
    | nil => nofun
    | cons c text =>
      intro behind same
      obtain ⟨rfl, -⟩ := List.cons.inj same
      exact other text rfl
  | case3 c text _ smooth ih => rw [List.cons_append, normalizeLines_cons smooth, ih, List.cons_append]
  | case4 => rfl

/-- Words are written into the markup as it is read. -/
theorem normalizeLines_joinCharsWith (wording : Wording) (segments : List (List Char)) :
    normalizeLines (joinCharsWith wording.word segments) =
      Sketch.fill wording (Sketch.ofSegments segments) := by
  have going (index : Nat) (text : List Char) (segments : List (List Char)) :
      normalizeLines (text ++ joinWithFrom wording.word index segments) =
        normalizeLines text ++ Sketch.fill wording (Sketch.behindHoles index segments) := by
    induction segments generalizing index text with
    | nil => simp [joinWithFrom, Sketch.behindHoles]
    | cons segment rest ih =>
      have smooth : '\r' ∉ wording.word index := fun member =>
        ((wording.calm index).forall _ member).elim (by decide) (by decide)
      obtain ⟨more, word, -⟩ := wording.proper index
      rw [joinWithFrom, word, List.append_assoc, List.cons_append, normalizeLines_append_brace,
        ← List.cons_append, ← word, normalizeLines_append smooth, ih]
      simp [Sketch.behindHoles]
  cases segments with
  | nil => rfl
  | cons first rest => simp [joinCharsWith, Sketch.ofSegments, going]

/-- There is one list of token sketches for the markup of a literal with any words. -/
theorem exists_tokens (segments : List String) :
    ∃ tokens : List TokenSketch,
      (∀ wording : Wording, Forest.parse (joinWith wording.word segments) =
        Forest.ofTokens (tokens.map (TokenSketch.fill wording))) ∧
      Within (tokens.flatMap TokenSketch.holes) (List.range (segments.length - 1)) := by
  obtain ⟨tokens, same, within⟩ :=
    LexerSketch.lexed (.bare .start rfl) (Sketch.ofSegments (segments.map String.toList))
  refine ⟨tokens, fun wording => ?_, ?_⟩
  · have read := same wording .empty
    simp only [← normalizeLines_joinCharsWith] at read
    rw [Forest.parse, Forest.ofTokens, Forest.ofTokens, ← read, Markup.tokens, joinWith,
      String.toList_ofList]
    rfl
  · rw [Sketch.holes_ofSegments, List.length_map] at within
    exact within

end LiveMarkup
