import LiveMarkup.Proofs.Exposure
import LiveMarkup.Proofs.Nesting

/-! # Values inside of raw text

A value between segments that the segment reader takes for raw text ends up in a text of an element
with raw text (`buries_of_rawText`), wherever the end tag of that element comes.  This is the
counterpart of `shows_of_data`.

What is buried stays buried, since nothing is taken out of an element any more
(`Builder.Buries.push`). -/

namespace LiveMarkup

open Markup

namespace Markup

/-! ## Placeholders that are buried -/

/-- Whether one of the nodes is a text with the start of a placeholder in it. -/
def HoldsText (nodes : List Node) : Prop :=
  ∃ data, .text data ∈ nodes ∧ Placeholder.occursIn data.toList = true

mutual

def Node.Buries : Node → Prop
  | .element name _ _ children =>
    name ∈ rawTextElements ∧ HoldsText children ∨ Forest.Buries children
  | .text _ | .comment _ => False

/-- Whether there is the start of a placeholder in a text of an element with raw text. -/
def Forest.Buries : List Node → Prop
  | [] => False
  | tree :: rest => tree.Buries ∨ Forest.Buries rest

end

theorem Forest.buries_iff {forest : Forest} :
    Forest.Buries forest ↔ ∃ tree ∈ forest, tree.Buries := by
  induction forest with
  | nil => simp [Forest.Buries]
  | cons tree rest ih => rw [Forest.Buries, ih, List.exists_mem_cons_iff]

@[simp] theorem Forest.buries_reverse {forest : Forest} :
    Forest.Buries forest.reverse ↔ Forest.Buries forest := by
  simp [Forest.buries_iff]

namespace Builder

variable {builder : Builder}

/-- Whether there is one in an open element, or in what is outside of them. -/
def Buries (builder : Builder) : Prop :=
  (∃ element ∈ builder.openElements, element.close.Buries) ∨ Forest.Buries builder.roots

@[simp] theorem buries_close {element : OpenElement} :
    element.close.Buries ↔ element.name ∈ rawTextElements ∧ HoldsText element.children ∨
      Forest.Buries element.children := by
  simp [OpenElement.close, Node.Buries, HoldsText]

theorem Buries.edit (buried : builder.Buries) {change : List Node → List Node}
    (grows : ∀ nodes, Forest.Buries nodes → Forest.Buries (change nodes))
    (keeps : ∀ nodes, HoldsText nodes → HoldsText (change nodes)) :
    (builder.edit change).Buries := by
  obtain ⟨opened, roots⟩ := builder
  cases opened with
  | nil =>
    obtain ⟨element, member, -⟩ | atRoot := buried
    · cases member
    · exact .inr (grows _ atRoot)
  | cons innermost outer =>
    obtain ⟨element, member, inside⟩ | atRoot := buried
    · left
      obtain rfl | member := List.mem_cons.mp member
      · refine ⟨_, List.mem_cons_self, buries_close.mpr ?_⟩
        exact (buries_close.mp inside).imp (fun here => ⟨here.1, keeps _ here.2⟩) (grows _)
      · exact ⟨element, List.mem_cons_of_mem _ member, inside⟩
    · exact .inr atRoot

theorem Buries.append (buried : builder.Buries) (tree : Node) : (builder.append tree).Buries :=
  buried.edit (fun _ inside => .inr inside) fun _ holds => by
    obtain ⟨data, member, marked⟩ := holds
    exact ⟨data, List.mem_cons_of_mem _ member, marked⟩

theorem buries_append_of_tree {tree : Node} (buried : tree.Buries) :
    (builder.append tree).Buries := by
  obtain ⟨opened, roots⟩ := builder
  cases opened with
  | nil => exact .inr (.inl buried)
  | cons innermost outer =>
    exact .inl ⟨_, List.mem_cons_self, buries_close.mpr (.inr (.inl buried))⟩

theorem Buries.closeInnermost (buried : builder.Buries) : builder.closeInnermost.Buries := by
  obtain ⟨opened, roots⟩ := builder
  cases opened with
  | nil => exact buried
  | cons innermost outer =>
    obtain ⟨element, member, inside⟩ | atRoot := buried
    · obtain rfl | member := List.mem_cons.mp member
      · exact buries_append_of_tree inside
      · have outside : Buries ⟨outer, roots⟩ := .inl ⟨element, member, inside⟩
        exact outside.append _
    · have outside : Buries ⟨outer, roots⟩ := .inr atRoot
      exact outside.append _

theorem Buries.closeMany (buried : builder.Buries) (count : Nat) :
    (builder.closeMany count).Buries := by
  induction count generalizing builder with
  | zero => exact buried
  | succ count ih => exact ih buried.closeInnermost

theorem buries_appendText (data : String) {nodes : List Node} (inside : Forest.Buries nodes) :
    Forest.Buries (appendText data nodes) := by
  unfold appendText
  split
  · exact inside
  split
  · exact .inr (inside.resolve_left id)
  · exact .inr inside

theorem occursIn_append_left {before : String} (marked : Placeholder.occursIn before.toList = true)
    (data : String) : Placeholder.occursIn (before ++ data).toList = true := by
  rw [String.toList_append]
  exact Placeholder.occursIn_mono marked (List.prefix_append _ data.toList).isInfix

theorem holdsText_appendText (data : String) {nodes : List Node} (holds : HoldsText nodes) :
    HoldsText (appendText data nodes) := by
  obtain ⟨text, member, marked⟩ := holds
  unfold appendText
  split
  · exact ⟨text, member, marked⟩
  split
  · -- The data joins the text before it, which may be the one with the placeholder.
    next before rest =>
    obtain same | member := List.mem_cons.mp member
    · cases same
      exact ⟨_, List.mem_cons_self, occursIn_append_left marked data⟩
    · exact ⟨text, List.mem_cons_of_mem _ member, marked⟩
  · exact ⟨text, List.mem_cons_of_mem _ member, marked⟩

/-- What is buried stays buried. -/
theorem Buries.push (buried : builder.Buries) (token : Token) : (builder.push token).Buries := by
  cases token with
  | startTag name attributes selfClosing =>
    unfold Builder.push
    dsimp only
    split
    · exact buried.append _
    · exact buried.imp (fun ⟨element, member, inside⟩ =>
        ⟨element, List.mem_cons_of_mem _ member, inside⟩) id
  | endTag name =>
    unfold Builder.push
    dsimp only
    split
    · exact buried.closeMany _
    · exact buried
  | text data =>
    exact buried.edit (fun _ => buries_appendText data) fun _ => holdsText_appendText data
  | comment data => exact buried.append _
  | doctype | mistake => exact buried

theorem Buries.foldl_push (buried : builder.Buries) (tokens : List Token) :
    (tokens.foldl Builder.push builder).Buries := by
  induction tokens generalizing builder with
  | nil => exact buried
  | cons token tokens ih => exact ih (buried.push token)

theorem Buries.finish (buried : builder.Buries) : Forest.Buries builder.finish := by
  have none := List.eq_nil_of_length_eq_zero <|
    (builder.length_closeMany builder.openElements.length).trans (Nat.sub_self _)
  obtain ⟨element, member, -⟩ | outside := buried.closeMany builder.openElements.length
  · rw [none] at member
    cases member
  · exact Forest.buries_reverse.mpr outside

theorem occursIn_text (index : Nat) :
    Placeholder.occursIn (Placeholder.text index).toList = true := by
  rw [Placeholder.text, String.toList_ofList]
  exact Placeholder.occursIn_of_infix List.infix_rfl

theorem holdsText_appendText_self (index : Nat) (nodes : List Node) :
    HoldsText (appendText (Placeholder.text index) nodes) := by
  have filled : Placeholder.text index ≠ "" := by
    intro empty
    have marked := occursIn_text index
    rw [empty] at marked
    cases marked
  unfold appendText
  rw [if_neg filled]
  split
  · next before rest =>
    refine ⟨_, List.mem_cons_self, ?_⟩
    rw [String.toList_append]
    exact Placeholder.occursIn_mono (occursIn_text index) (List.suffix_append before.toList _).isInfix
  · exact ⟨_, List.mem_cons_self, occursIn_text index⟩

/-- A placeholder that is read as raw text is buried. -/
theorem buries_push_text {name : String} {outer : List String}
    (head : builder.names = name :: outer) (raw : name ∈ rawTextElements) (index : Nat) :
    (builder.push (.text (Placeholder.text index))).Buries := by
  obtain ⟨opened, roots⟩ := builder
  cases opened with
  | nil => cases head
  | cons innermost others =>
    obtain ⟨rfl, -⟩ := List.cons.inj head
    exact .inl ⟨_, List.mem_cons_self,
      buries_close.mpr (.inl ⟨raw, holdsText_appendText_self index _⟩)⟩

end Builder

end Markup

/-! ## Placeholders between segments -/

/-- The mode in which a state reads text. -/
def Markup.LexerState.mode? : LexerState → Option TextMode
  | content mode | contentReference mode _ | lessThan mode | endTagOpen mode | rawEndTag mode _ =>
    some mode
  | _ => none

open LexerState

/-- In the text of an element, a word is text, perhaps behind what has been read of a reference or of
an end tag. -/
theorem Markup.LexerState.advance_word_raw {state : LexerState} {mode : TextMode} {element : String}
    (reads : state.mode? = some mode) (own : mode.element? = some element) (wording : Wording)
    (index : Nat) :
    ∃ before : List Token, (state.advance (wording.word index)).2 =
        before ++ (wording.word index).map (fun c => .text (String.ofList [c])) ∧
      ∀ token ∈ before, token.isTag = false := by
  -- A brace continues no reference and no tag, so what has been read so far comes out as text in
  -- front of the word.
  have after {text : List Char} (same : state.step '{' = stepContentAfter text mode '{') :
      ∃ before : List Token, (state.advance (wording.word index)).2 =
          before ++ (wording.word index).map (fun c => .text (String.ofList [c])) ∧
        ∀ token ∈ before, token.isTag = false := by
    refine ⟨[.text (String.ofList text)], ?_, fun token member => ?_⟩
    · rw [advance_word_after wording index same, advance_content_word]
    · rw [List.mem_singleton.mp member]
      rfl
  cases state with
  | content =>
    cases reads
    exact ⟨[], by rw [advance_content_word]; rfl, nofun⟩
  | contentReference other reference =>
    cases reads
    obtain ⟨text, ended⟩ := Reference.exists_step_foreign (c := '{') rfl false reference
    exact after (by rw [LexerState.step, ended])
  | lessThan =>
    cases reads
    refine @after ['<'] ?_
    cases mode with
    | data => cases own
    | escapable element => rfl
    | script element phase => cases phase <;> rfl
  | endTagOpen =>
    cases reads
    refine @after ['<', '/'] ?_
    cases mode with
    | data => cases own
    | escapable element | script element phase => rfl
  | rawEndTag other name =>
    cases reads
    refine @after ('<' :: '/' :: name.reverse) ?_
    simp [LexerState.step, stepRawEndTag, endsWord, isBlank]
  | _ => cases reads

/-- A placeholder that is read as raw text is buried. -/
theorem buries_of_mode {state : LexerState} {mode : TextMode} {element : String}
    (reads : state.mode? = some mode) (own : mode.element? = some element)
    (listed : element ∈ rawTextElements) {builder : Builder} (confined : Confined builder.names state)
    (index : Nat) :
    ((state.advance (Placeholder.chars index)).2.foldl Builder.push builder).Buries := by
  -- Raw text is read only with its element as the innermost one.
  have innermost : ∃ outer, builder.names = element :: outer := by
    have held : Reads mode builder.names := by
      cases state with
      | content | contentReference | lessThan | endTagOpen | rawEndTag =>
        cases reads
        exact confined
      | _ => cases reads
    obtain ⟨outer, -, names⟩ := held
    rw [own] at names
    exact ⟨outer, names⟩
  obtain ⟨outer, names⟩ := innermost
  obtain ⟨before, read, calm⟩ := advance_word_raw reads own .placeholders index
  rw [Wording.word_placeholders] at read
  rw [read, List.foldl_append, Interchangeable.texts (Placeholder.chars index)]
  have head : (before.foldl Builder.push builder).names = element :: outer := by
    rw [Builder.names_foldl_push calm, names]
  exact Builder.buries_push_text head listed index

/-- A value that the segment reader takes for raw text is buried, wherever the end tag comes. -/
theorem buries_of_rawText {reader : SegmentReader} {state : LexerState}
    (inStep : InStep reader state) {missing : List Char} (here : reader.state = .rawText missing)
    {builder : Builder} (confined : Confined builder.names state) (index : Nat) :
    ((state.advance (Placeholder.chars index)).2.foldl Builder.push builder).Buries := by
  cases inStep with
  | text there listed inText =>
    cases inText with
    | content even own | lessThan even own | endTagOpen even own | rawEndTag even own _ =>
      exact buries_of_mode rfl own listed confined index
    | reference | nestedLessThan | leaving =>
      exact buries_of_mode rfl rfl listed confined index
  | @declaration seen there => obtain ⟨dash, same⟩ | same := declared_eq seen <;> simp_all
  | _ => simp_all

/-! ## Where it is buried -/

theorem OutsideRawText.of_inside {before behind children : Forest} {name : String}
    {space : Option String} {attributes : List (String × String)} {path : Path}
    (outside : OutsideRawText (before ++ .element name space attributes children :: behind)
      (before.length :: path)) : name ∉ rawTextElements ∧ OutsideRawText children path := by
  constructor
  · exact outside [before.length] name space attributes children ⟨path, rfl⟩ (by simp [Forest.at?])
  · intro front other otherSpace otherAttributes otherChildren prior leads
    refine outside (before.length :: front) other otherSpace otherAttributes otherChildren
      ((List.prefix_cons_inj _).mpr prior) ?_
    cases front with
    | nil => cases leads
    | cons index rest => simpa [Forest.at?, Node.children] using leads

/-- What is buried is in a text that a path leads to through an element with raw text. -/
theorem Markup.Forest.Buries.exists_path {forest : Forest} (buried : Forest.Buries forest)
    (before : Forest) :
    ∃ path data, (before ++ forest).at? path = some (.text data) ∧
      Placeholder.occursIn data.toList = true ∧ ¬ OutsideRawText (before ++ forest) path :=
  match forest with
  | [] => buried.elim
  | .element name space attributes children :: rest => by
    -- It is among the children, or deeper inside, or behind this element.
    obtain (⟨raw, data, member, marked⟩ | inside) | later := buried
    · obtain ⟨index, here⟩ := List.getElem?_of_mem member
      refine ⟨[before.length, index], data, ?_, marked, fun outside => outside.of_inside.1 raw⟩
      simp [Forest.at?, Node.children, here]
    · obtain ⟨path, data, leads, marked, raw⟩ := exists_path inside []
      refine ⟨before.length :: path, data, ?_, marked, fun outside => raw outside.of_inside.2⟩
      cases path with
      | nil => cases leads
      | cons index path => simpa [Forest.at?, Node.children] using leads
    · have found := exists_path later (before ++ [.element name space attributes children])
      rwa [List.append_assoc] at found
  | .text data :: rest => by
    have found := exists_path (buried.resolve_left id) (before ++ [.text data])
    rwa [List.append_assoc] at found
  | .comment data :: rest => by
    have found := exists_path (buried.resolve_left id) (before ++ [.comment data])
    rwa [List.append_assoc] at found

end LiveMarkup
