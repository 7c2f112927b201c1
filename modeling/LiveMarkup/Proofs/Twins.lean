import LiveMarkup.Proofs.Confinement
import LiveMarkup.Proofs.Lockstep.Naming
import LiveMarkup.Proofs.Rewording

/-! # Two words in one place

Two runs of the lexer on markup that differs in one word, which has just been read in both.  If the
word is inside of a tag, the runs go side by side up to the end of the tag, and from there on they are
the same (`Twins.run`).  So either the word shows in a start tag, or it makes no difference to
anything that is built of the tokens, as in an end tag, in a tag that is cut off, or in a repeated
attribute.

A word inside of a comment always shows (`Commented.run`). -/

namespace LiveMarkup

open Markup

namespace Markup

/-! ## What shows -/

/-- Whether the start of a placeholder is in a text that is kept with its last character first. -/
def Marked (text : List Char) : Prop :=
  Placeholder.occursIn text.reverse = true

theorem Marked.cons {text : List Char} (marked : Marked text) (c : Char) : Marked (c :: text) := by
  rw [Marked, List.reverse_cons]
  exact Placeholder.occursIn_mono marked (List.prefix_append _ [c]).isInfix

theorem Marked.append {text : List Char} (marked : Marked text) (more : List Char) :
    Marked (more ++ text) := by
  induction more with
  | nil => exact marked
  | cons c more ih => exact ih.cons c

variable {holds : String × String → Prop}

/-- Whether a token has the start of a placeholder in a name or in a comment, or makes an attribute of
the given kind. -/
def Token.Shows (holds : String × String → Prop) : Token → Prop
  | .startTag name attributes _ => Placeholder.occursIn name.toList = true ∨
      ∃ pair ∈ sortAttributes attributes, Placeholder.occursIn pair.1.toList = true ∨ holds pair
  | .comment data => Placeholder.occursIn data.toList = true
  | _ => False

/-- No open element has the start of a placeholder in its name. -/
def Builder.Clean (builder : Builder) : Prop :=
  ∀ name ∈ builder.names, Placeholder.occursIn name.toList = false

/-- Two tokens that make no difference to what is built. -/
def Token.Alike (token other : Token) : Prop :=
  ∀ builder : Builder, builder.Clean → builder.push token = builder.push other

theorem Builder.push_endTag_of_clean {builder : Builder} (clean : builder.Clean) {name : String}
    (marked : Placeholder.occursIn name.toList = true) : builder.push (.endTag name) = builder := by
  have none : builder.openElements.findIdx? (·.name == name) = none := by
    refine List.findIdx?_eq_none_iff.mpr fun element member => ?_
    rw [beq_eq_false_iff_ne]
    rintro rfl
    rw [clean _ (List.mem_map_of_mem member)] at marked
    cases marked
  simp only [Builder.push, none]

/-! ## Tags side by side -/

/-- Attributes that show if they are kept, or that have the same name. -/
def PairTwins (holds : String × String → Prop) (pair other : String × String) : Prop :=
  Placeholder.occursIn pair.1.toList = true ∨ pair.1 = other.1 ∧ holds pair

/-- Tags that differ in their name or in one attribute. -/
inductive TagTwins (holds : String × String → Prop) : OpenTag → OpenTag → Prop where
  | name {closing : Bool} {name other : List Char} {attributes : List (String × String)}
      (marked : Marked name) (alsoMarked : Marked other) :
      TagTwins holds ⟨closing, name, attributes⟩ ⟨closing, other, attributes⟩
  | pair {closing : Bool} {name : List Char} {later earlier : List (String × String)}
      {pair other : String × String} (twins : PairTwins holds pair other) :
      TagTwins holds ⟨closing, name, later ++ pair :: earlier⟩
        ⟨closing, name, later ++ other :: earlier⟩

/-- Attributes that differ in their tag or in their name. -/
inductive NameTwins (holds : String × String → Prop) : OpenAttribute → OpenAttribute → Prop where
  | tag {tag other : OpenTag} {name value : List Char} (twins : TagTwins holds tag other) :
      NameTwins holds ⟨tag, name, value⟩ ⟨other, name, value⟩
  | name {tag : OpenTag} {name other value : List Char} (marked : Marked name) :
      NameTwins holds ⟨tag, name, value⟩ ⟨tag, other, value⟩

/-- Attributes that differ in their tag, in their name or in their value.  A value that differs shows
as soon as there is enough behind it. -/
inductive ValueTwins (holds : String × String → Prop) (enough : List Char → Prop) :
    OpenAttribute → OpenAttribute → Prop where
  | name {attr other : OpenAttribute} (twins : NameTwins holds attr other) :
      ValueTwins holds enough attr other
  | value {tag : OpenTag} {name value other : List Char}
      (shows_ : ∀ more, enough more →
        holds (String.ofList name.reverse, String.ofList (value.reverse ++ more))) :
      ValueTwins holds enough ⟨tag, name, value⟩ ⟨tag, name, other⟩

/-- States of two runs side by side in a tag. -/
inductive Twins (holds : String × String → Prop) : LexerState → LexerState → Prop where
  | tagName {tag other : OpenTag} (twins : TagTwins holds tag other) :
      Twins holds (.tagName tag) (.tagName other)
  | beforeAttributeName {tag other : OpenTag} (twins : TagTwins holds tag other) :
      Twins holds (.beforeAttributeName tag) (.beforeAttributeName other)
  | attributeName {attr other : OpenAttribute} (twins : NameTwins holds attr other) :
      Twins holds (.attributeName attr) (.attributeName other)
  | afterAttributeName {attr other : OpenAttribute} (twins : NameTwins holds attr other) :
      Twins holds (.afterAttributeName attr) (.afterAttributeName other)
  | beforeAttributeValue {attr other : OpenAttribute} (twins : NameTwins holds attr other) :
      Twins holds (.beforeAttributeValue attr) (.beforeAttributeValue other)
  | quotedValue {attr other : OpenAttribute} (quote : Char)
      (twins : ValueTwins holds (fun _ => True) attr other) :
      Twins holds (.quotedValue quote attr) (.quotedValue quote other)
  | unquotedValue {attr other : OpenAttribute} (twins : ValueTwins holds (fun _ => True) attr other) :
      Twins holds (.unquotedValue attr) (.unquotedValue other)
  | valueReference {attr other : OpenAttribute} (quote : Option Char) (reference : Reference)
      (twins : ValueTwins holds (· ≠ []) attr other) :
      Twins holds (.valueReference quote attr reference) (.valueReference quote other reference)
  | afterQuotedValue {tag other : OpenTag} (twins : TagTwins holds tag other) :
      Twins holds (.afterQuotedValue tag) (.afterQuotedValue other)
  | selfClosing {tag other : OpenTag} (twins : TagTwins holds tag other) :
      Twins holds (.selfClosing tag) (.selfClosing other)

/-- What a step of each run may lead to: the runs are still side by side, or the word shows, or the
runs are the same from there on. -/
inductive StepTwins (holds : String × String → Prop) : LexerStep → LexerStep → Prop where
  | goesOn {state other : LexerState} (twins : Twins holds state other) :
      StepTwins holds (LexerState.silently state) (LexerState.silently other)
  | shows {state other : LexerState} {token : Token} {tokens : List Token}
      (shown : token.Shows holds) : StepTwins holds (state, [token]) (other, tokens)
  | meets (state : LexerState) {token other : Token} (alike : token.Alike other) :
      StepTwins holds (state, [token]) (state, [other])

theorem TagTwins.keep {tag other : OpenTag} (twins : TagTwins holds tag other)
    (pair : String × String) :
    TagTwins holds { tag with attributes := pair :: tag.attributes }
      { other with attributes := pair :: other.attributes } := by
  cases twins with
  | name marked alsoMarked => exact .name marked alsoMarked
  | @pair closing name later earlier first second twins =>
    have kept : TagTwins holds ⟨closing, name, (pair :: later) ++ first :: earlier⟩
        ⟨closing, name, (pair :: later) ++ second :: earlier⟩ := .pair twins
    exact kept

theorem NameTwins.keep {attr other : OpenAttribute} (twins : NameTwins holds attr other) :
    TagTwins holds (LexerState.keepAttribute attr) (LexerState.keepAttribute other) := by
  cases twins with
  | tag twins => exact twins.keep _
  | @name tag name second value marked =>
    have kept : TagTwins holds
        ⟨tag.closing, tag.name, [] ++ (String.ofList name.reverse, String.ofList value.reverse) ::
          tag.attributes⟩
        ⟨tag.closing, tag.name, [] ++ (String.ofList second.reverse, String.ofList value.reverse) ::
          tag.attributes⟩ := .pair (.inl (by simpa [Marked] using marked))
    exact kept

theorem ValueTwins.keep {attr other : OpenAttribute} (twins : ValueTwins holds (· = []) attr other) :
    TagTwins holds (LexerState.keepAttribute attr) (LexerState.keepAttribute other) := by
  cases twins with
  | name twins => exact twins.keep
  | @value tag name value second shows_ =>
    have shown := shows_ [] rfl
    rw [List.append_nil] at shown
    have kept : TagTwins holds
        ⟨tag.closing, tag.name, [] ++ (String.ofList name.reverse, String.ofList value.reverse) ::
          tag.attributes⟩
        ⟨tag.closing, tag.name, [] ++ (String.ofList name.reverse, String.ofList second.reverse) ::
          tag.attributes⟩ := .pair (.inr ⟨rfl, shown⟩)
    exact kept

/-- More in the values is enough to show the difference. -/
theorem ValueTwins.pushMany {attr other : OpenAttribute}
    (twins : ValueTwins holds (· ≠ []) attr other) {text : List Char} (filled : text ≠ []) :
    ValueTwins holds (fun _ => True) (text.foldl LexerState.pushValue attr)
      (text.foldl LexerState.pushValue other) := by
  rw [LexerState.foldl_pushValue, LexerState.foldl_pushValue]
  cases twins with
  | name twins =>
    cases twins with
    | tag twins => exact .name (.tag twins)
    | name marked => exact .name (.name marked)
  | value shows_ =>
    refine .value fun more _ => ?_
    have shown := shows_ (text ++ more) (by simp [filled])
    simpa using shown

theorem ValueTwins.anyhow {attr other : OpenAttribute} {enough : List Char → Prop}
    (twins : ValueTwins holds (fun _ => True) attr other) : ValueTwins holds enough attr other := by
  cases twins with
  | name twins => exact .name twins
  | value shows_ => exact .value fun more _ => shows_ more trivial

/-! ## The end of a tag -/

theorem exists_mem_sortAttributes {attributes : List (String × String)} {pair : String × String}
    (member : pair ∈ attributes) : ∃ kept ∈ sortAttributes attributes, kept.1 = pair.1 := by
  cases found : attributes.find? fun other => other.1 = pair.1 with
  | none =>
    have absent := List.find?_eq_none.mp found pair member
    simp at absent
  | some kept =>
    have same : kept.1 = pair.1 := by simpa using List.find?_some found
    exact ⟨kept, mem_sortAttributes_iff.mpr (by rw [same]; exact found), same⟩

/-- Of attributes with one name the first counts, so another one either is kept or has no part. -/
theorem mem_or_sortAttributes_eq (front back : List (String × String)) (name value other : String) :
    (name, value) ∈ sortAttributes (front ++ (name, value) :: back) ∨
      sortAttributes (front ++ (name, value) :: back) =
        sortAttributes (front ++ (name, other) :: back) := by
  cases earlier : front.find? fun pair => pair.1 = name with
  | none =>
    left
    simp [mem_sortAttributes_iff, List.find?_append, earlier]
  | some first =>
    right
    refine (sorted_sortAttributes _).ext (sorted_sortAttributes _) fun pair => ?_
    rw [mem_sortAttributes_iff, mem_sortAttributes_iff, List.find?_append, List.find?_append]
    by_cases same : name = pair.1
    · subst same
      rw [earlier]
      rfl
    · simp [same]

namespace StepTwins

theorem closeTag {tag other : OpenTag} (twins : TagTwins holds tag other) (closed : Bool) :
    StepTwins holds (LexerState.closeTag tag closed) (LexerState.closeTag other closed) := by
  unfold LexerState.closeTag
  cases twins with
  | @name closing name second attributes marked alsoMarked =>
    have shown : Placeholder.occursIn (String.ofList name.reverse).toList = true := by
      simpa [Marked] using marked
    have alsoShown : Placeholder.occursIn (String.ofList second.reverse).toList = true := by
      simpa [Marked] using alsoMarked
    cases closing with
    | true =>
      -- No open element has such a name, so the end tags close nothing.
      refine .meets _ fun builder clean => ?_
      rw [Builder.push_endTag_of_clean clean shown, Builder.push_endTag_of_clean clean alsoShown]
    | false => exact .shows (.inl shown)
  | @pair closing name later earlier first second twins =>
    cases closing with
    | true =>
      -- The attributes of an end tag are dropped.
      exact .meets _ fun _ _ => rfl
    | false =>
      dsimp only
      rw [if_neg Bool.false_ne_true, if_neg Bool.false_ne_true, List.reverse_append,
        List.reverse_append, List.reverse_cons, List.reverse_cons, List.append_assoc,
        List.append_assoc]
      obtain ⟨firstName, firstValue⟩ := first
      obtain ⟨secondName, secondValue⟩ := second
      obtain marked | ⟨same, shown⟩ := twins
      · -- Some attribute of this name is kept.
        have member : (firstName, firstValue) ∈
            earlier.reverse ++ (firstName, firstValue) :: later.reverse := by simp
        obtain ⟨kept, isKept, same⟩ := exists_mem_sortAttributes member
        exact .shows (.inr ⟨kept, by simpa using isKept, .inl (by rw [same]; exact marked)⟩)
      · -- The pair is kept, or another one of its name comes before it in both tags.
        obtain rfl : firstName = secondName := same
        obtain kept | same := mem_or_sortAttributes_eq earlier.reverse later.reverse firstName
          firstValue secondValue
        · exact .shows (.inr ⟨_, kept, .inr shown⟩)
        · refine .meets _ fun builder _ => ?_
          simp only [Builder.push, List.cons_append, List.nil_append, same]

theorem stepBeforeAttributeName {tag other : OpenTag} (twins : TagTwins holds tag other) (c : Char) :
    StepTwins holds (LexerState.stepBeforeAttributeName tag c)
      (LexerState.stepBeforeAttributeName other c) := by
  unfold LexerState.stepBeforeAttributeName
  split
  · exact .goesOn (.beforeAttributeName twins)
  split
  · exact .goesOn (.selfClosing twins)
  split
  · exact closeTag twins false
  · exact .goesOn (.attributeName (.tag twins))

variable {attr other : OpenAttribute}

theorem stepQuotedValue {quote c : Char} (whole : c = quote → ValueTwins holds (· = []) attr other)
    (part : c ≠ quote → ValueTwins holds (· ≠ []) attr other) :
    StepTwins holds (LexerState.stepQuotedValue quote attr c)
      (LexerState.stepQuotedValue quote other c) := by
  unfold LexerState.stepQuotedValue
  split
  · next ended => exact .goesOn (.afterQuotedValue (whole ended).keep)
  next goesOn =>
  split
  · exact .goesOn (.valueReference (some quote) .start (part goesOn))
  · have pushed := (part goesOn).pushMany (List.cons_ne_nil (LexerState.visible c) [])
    exact .goesOn (.quotedValue quote pushed)

theorem stepUnquotedValue {c : Char}
    (whole : isBlank c = true ∨ c = '>' → ValueTwins holds (· = []) attr other)
    (part : ¬ (isBlank c = true ∨ c = '>') → ValueTwins holds (· ≠ []) attr other) :
    StepTwins holds (LexerState.stepUnquotedValue attr c)
      (LexerState.stepUnquotedValue other c) := by
  unfold LexerState.stepUnquotedValue
  split
  · next blank => exact .goesOn (.beforeAttributeName (whole (.inl blank)).keep)
  next solid =>
  split
  · next greater => exact closeTag (whole (.inr greater)).keep false
  next goesOn =>
  split
  · exact .goesOn (.valueReference none .start (part (by simp [solid, goesOn])))
  · have pushed := (part (by simp [solid, goesOn])).pushMany
      (List.cons_ne_nil (LexerState.visible c) [])
    exact .goesOn (.unquotedValue pushed)

theorem pushName {attr other : OpenAttribute} (twins : NameTwins holds attr other) (c : Char) :
    NameTwins holds { attr with name := c :: attr.name } { other with name := c :: other.name } := by
  cases twins with
  | tag twins => exact .tag twins
  | name marked => exact .name (marked.cons c)

end StepTwins

/-- Two runs that are side by side in a tag go on side by side until one of them shows the word or they
meet. -/
theorem Twins.step {state other : LexerState} (twins : Twins holds state other) (c : Char) :
    StepTwins holds (state.step c) (other.step c) := by
  cases twins with
  | @tagName tag other twins =>
    simp only [LexerState.step]
    split
    · exact .stepBeforeAttributeName twins c
    · refine .goesOn (.tagName ?_)
      cases twins with
      | name marked alsoMarked => exact .name (marked.cons _) (alsoMarked.cons _)
      | pair twins => exact .pair twins
  | beforeAttributeName twins | afterQuotedValue twins => exact .stepBeforeAttributeName twins c
  | attributeName twins =>
    simp only [LexerState.step]
    split
    · exact .goesOn (.afterAttributeName twins)
    split
    · exact .goesOn (.beforeAttributeValue twins)
    split
    · exact .stepBeforeAttributeName twins.keep c
    · exact .goesOn (.attributeName (StepTwins.pushName twins _))
  | afterAttributeName twins =>
    simp only [LexerState.step]
    split
    · exact .goesOn (.afterAttributeName twins)
    split
    · exact .goesOn (.beforeAttributeValue twins)
    · exact .stepBeforeAttributeName twins.keep c
  | beforeAttributeValue twins =>
    simp only [LexerState.step]
    split
    · exact .goesOn (.beforeAttributeValue twins)
    split
    · exact .goesOn (.quotedValue c (.name twins))
    · exact .stepUnquotedValue (fun _ => .name twins) fun _ => .name twins
  | quotedValue quote twins =>
    exact .stepQuotedValue (fun _ => twins.anyhow) fun _ => twins.anyhow
  | unquotedValue twins =>
    exact .stepUnquotedValue (fun _ => twins.anyhow) fun _ => twins.anyhow
  | valueReference quote reference twins =>
    simp only [LexerState.step]
    cases done : reference.step true c with
    | more reference => exact .goesOn (.valueReference quote reference twins)
    | done text consumed =>
      -- What a reference stands for is not empty, and so it is enough behind the word.
      have pushed := twins.pushMany (Reference.ne_nil_of_step done)
      cases quote with
      | none =>
        cases consumed with
        | true => exact .goesOn (.unquotedValue pushed)
        | false => exact .stepUnquotedValue (fun _ => pushed.anyhow) fun _ => pushed.anyhow
      | some quote =>
        cases consumed with
        | true => exact .goesOn (.quotedValue quote pushed)
        | false => exact .stepQuotedValue (fun _ => pushed.anyhow) fun _ => pushed.anyhow
  | selfClosing twins =>
    simp only [LexerState.step]
    split
    · exact .closeTag twins true
    · exact .stepBeforeAttributeName twins c

/-- In the rest of two runs the word shows, or it makes no difference to what is built. -/
def RunTwins (holds : String × String → Prop) (state other : LexerState) (text : List Char) : Prop :=
  (∃ token ∈ state.run text, token.Shows holds) ∨
    ∀ builder : Builder, builder.Clean →
      (state.run text).foldl Builder.push builder = (other.run text).foldl Builder.push builder

/-- A tag that is cut off yields nothing. -/
theorem RunTwins.cutOff {state other : LexerState} (nothing : state.finish = [])
    (alsoNothing : other.finish = []) : RunTwins holds state other [] :=
  .inr fun _ _ => by rw [LexerState.run, LexerState.run, nothing, alsoNothing]

mutual

theorem StepTwins.run {state other : LexerState} {c : Char}
    (next : StepTwins holds (state.step c) (other.step c)) (text : List Char) :
    RunTwins holds state other (c :: text) := by
  -- The three outcomes of the step are told apart with both steps as variables.
  simp only [RunTwins, LexerState.run]
  revert next
  generalize state.step c = step
  generalize other.step c = step'
  rintro (twins | shown | ⟨_, alike⟩)
  · exact twins.run text
  · exact .inl ⟨_, List.mem_append_left _ List.mem_cons_self, shown⟩
  · right
    intro builder clean
    simp only [List.cons_append, List.nil_append, List.foldl_cons, alike builder clean]
  termination_by (text.length, 1)

/-- Two runs that are side by side in a tag show the word or meet. -/
theorem Twins.run {state other : LexerState} (twins : Twins holds state other) (text : List Char) :
    RunTwins holds state other text := by
  cases text with
  | nil => cases twins <;> exact .cutOff rfl rfl
  | cons c text => exact (twins.step c).run text
  termination_by (text.length, 0)

end

/-! ## Comments -/

/-- Whether the lexer is in a comment and has read the start of a placeholder in it. -/
def Commented : LexerState → Prop
  | .comment text _ | .bogusComment text => Marked text
  | _ => False

theorem shows_comment {text : List Char} (marked : Marked text) :
    (Token.comment (String.ofList text.reverse)).Shows holds := by
  simpa [Token.Shows, Marked] using marked

/-- A comment goes on, or shows what has been read. -/
theorem Commented.step {state : LexerState} (commented : Commented state) (c : Char) :
    Commented (state.step c).1 ∨ ∃ token ∈ (state.step c).2, token.Shows holds := by
  cases state with
  | comment text tail =>
    have marked : Marked text := commented
    have ended : ∃ token ∈ (LexerState.commenting text).2, token.Shows holds :=
      ⟨_, List.mem_singleton_self _, shows_comment marked⟩
    -- What may have ended the comment becomes part of it, behind the word.
    have longer (pending : List Char) : Commented (LexerState.stepComment (pending ++ text) c).1 := by
      unfold LexerState.stepComment
      split
      · exact marked.append pending
      · exact (marked.append pending).cons _
    cases tail with
    | start =>
      simp only [LexerState.step, LexerState.stepCommentTail]
      split
      · exact .inl marked
      split
      · exact .inr ended
      · exact .inl (longer [])
    | startDash =>
      simp only [LexerState.step, LexerState.stepCommentTail]
      split
      · exact .inl marked
      split
      · exact .inr ended
      · exact .inl (longer ['-'])
    | none => exact .inl (longer [])
    | dash =>
      simp only [LexerState.step, LexerState.stepCommentTail]
      split
      · exact .inl marked
      · exact .inl (longer ['-'])
    | dashes =>
      simp only [LexerState.step, LexerState.stepCommentTail]
      split
      · exact .inr ended
      split
      · exact .inl marked
      split
      · exact .inl (marked.cons '-')
      · exact .inl (longer ['-', '-'])
    | bang =>
      simp only [LexerState.step, LexerState.stepCommentTail]
      split
      · exact .inl (marked.append ['!', '-', '-'])
      split
      · exact .inr ended
      · exact .inl (longer ['!', '-', '-'])
  | bogusComment text =>
    have marked : Marked text := commented
    simp only [LexerState.step, LexerState.stepBogusComment]
    split
    · exact .inr ⟨_, List.mem_singleton_self _, shows_comment marked⟩
    · exact .inl (marked.cons _)
  | _ => exact commented.elim

theorem Commented.run {state : LexerState} (commented : Commented state) (text : List Char) :
    ∃ token ∈ state.run text, token.Shows holds := by
  induction text generalizing state with
  | nil =>
    cases state with
    | comment text tail | bogusComment text =>
      exact ⟨_, List.mem_singleton_self _, shows_comment commented⟩
    | _ => exact commented.elim
  | cons c text ih =>
    obtain later | ⟨token, member, shown⟩ := commented.step c
    · obtain ⟨token, member, shown⟩ := ih later
      exact ⟨token, List.mem_append_right _ member, shown⟩
    · exact ⟨token, List.mem_append_left _ member, shown⟩

end Markup

end LiveMarkup
