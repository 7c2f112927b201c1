import LiveMarkup.Proofs.Afresh
import Mathlib.Data.List.Chain

/-! # What the standard parser builds

The elements of a forest that is read are those of the start tags, each with the attributes of its
tag sorted by name and without repetition, and the texts are joined.  So every literal that the
standard parser reads is unambiguous, and has a stencil whose elements have attributes with different
names.

No start tag gets lost, whatever end tags there are (`Forest.every_ofTokens`). -/

namespace LiveMarkup

open Markup

/-! ## Attributes -/

/-- Attributes that come in the order of their names, each once. -/
def Markup.Sorted (attributes : List (String × String)) : Prop :=
  (attributes.map Prod.fst).Pairwise (· < ·)

theorem Markup.Sorted.nodup {attributes : List (String × String)} (sorted : Sorted attributes) :
    (attributes.map Prod.fst).Nodup := by
  refine List.Pairwise.imp (fun {first second} less => ?_) sorted
  rintro rfl
  exact String.lt_irrefl first less

theorem Markup.mem_insertAttribute {name value : String} {attributes : List (String × String)}
    {pair : String × String} (member : pair ∈ insertAttribute name value attributes) :
    pair = (name, value) ∨ pair ∈ attributes := by
  induction attributes with
  | nil => exact .inl (List.mem_singleton.mp member)
  | cons first attributes ih =>
    unfold insertAttribute at member
    split at member
    · exact List.mem_cons.mp member
    split at member
    · exact .inr member
    obtain rfl | later := List.mem_cons.mp member
    · exact .inr List.mem_cons_self
    · exact (ih later).imp_right (List.mem_cons_of_mem _)

theorem Markup.Sorted.insertAttribute {attributes : List (String × String)}
    (sorted : Sorted attributes) (name value : String) :
    Sorted (insertAttribute name value attributes) := by
  induction attributes with
  | nil => exact List.pairwise_singleton _ _
  | cons first attributes ih =>
    obtain ⟨least, rest⟩ := List.pairwise_cons.mp sorted
    unfold Markup.insertAttribute
    split
    · next less =>
      refine List.pairwise_cons.mpr ⟨fun other member => ?_, sorted⟩
      obtain rfl | later := List.mem_cons.mp member
      · exact less
      · exact String.lt_trans less (least other later)
    split
    · exact sorted
    next notLess different =>
    have greater : first.1 < name :=
      String.not_le.mp fun atMost =>
        different (String.le_antisymm atMost (String.not_lt.mp notLess))
    refine List.pairwise_cons.mpr ⟨fun other member => ?_, ih rest⟩
    obtain ⟨pair, inserted, rfl⟩ := List.mem_map.mp member
    obtain rfl | old := mem_insertAttribute inserted
    · exact greater
    · exact least _ (List.mem_map_of_mem old)

theorem Markup.sorted_sortAttributes (attributes : List (String × String)) :
    Sorted (sortAttributes attributes) := by
  have going (rest : List (String × String)) : ∀ sorted : List (String × String), Sorted sorted →
      Sorted (rest.foldl (fun sorted pair => Markup.insertAttribute pair.1 pair.2 sorted) sorted) := by
    induction rest with
    | nil => exact fun _ => id
    | cons pair rest ih => exact fun sorted holds => ih _ (holds.insertAttribute pair.1 pair.2)
  exact going attributes [] .nil

/-! ## Forests -/

/-- What is asked of the nodes of a forest: of an element by its name and attributes, and of the data
of a text or comment. -/
structure NodeSpec where
  element : String → List (String × String) → Prop
  text : String → Prop := fun _ => True
  comment : String → Prop := fun _ => True

namespace Markup

mutual

def Node.Every (spec : NodeSpec) : Node → Prop
  | .element name _ attributes children =>
    spec.element name attributes ∧ Forest.Every spec children
  | .text data => spec.text data
  | .comment data => spec.comment data

/-- All nodes of a forest are as asked for. -/
def Forest.Every (spec : NodeSpec) : List Node → Prop
  | [] => True
  | tree :: rest => tree.Every spec ∧ Forest.Every spec rest

end

variable {spec : NodeSpec}

theorem Forest.every_iff {forest : Forest} :
    Forest.Every spec forest ↔ ∀ tree ∈ forest, tree.Every spec := by
  induction forest with
  | nil => exact ⟨fun _ => nofun, fun _ => trivial⟩
  | cons tree rest ih => rw [Forest.Every, ih, List.forall_mem_cons]

@[simp] theorem Forest.every_reverse {forest : Forest} :
    Forest.Every spec forest.reverse ↔ Forest.Every spec forest := by
  simp [every_iff]

/-- What is asked of elements, of the one that a start tag makes. -/
def Token.Suits (holds : String → List (String × String) → Prop) : Token → Prop
  | .startTag name attributes _ => holds name (sortAttributes attributes)
  | _ => True

/-- What is asked of elements and comments, of the one that a token makes. -/
def Token.Meets (spec : NodeSpec) : Token → Prop
  | .startTag name attributes _ => spec.element name (sortAttributes attributes)
  | .comment data => spec.comment data
  | _ => True

namespace Builder

variable {builder : Builder}

/-- All nodes so far, and all elements that are open, are as asked for. -/
def Every (spec : NodeSpec) (builder : Builder) : Prop :=
  Forest.Every spec builder.roots ∧ ∀ element ∈ builder.openElements,
    spec.element element.name element.attributes ∧ Forest.Every spec element.children

theorem every_edit {change : List Node → List Node} {also : Prop}
    (adds : ∀ nodes, Forest.Every spec (change nodes) ↔ Forest.Every spec nodes ∧ also) :
    (builder.edit change).Every spec ↔ builder.Every spec ∧ also := by
  obtain ⟨opened, roots⟩ := builder
  cases opened with
  | nil => simp [edit, Every, adds]
  | cons innermost outer =>
    simp only [edit, Every, List.forall_mem_cons, adds]
    tauto

@[simp] theorem every_append {tree : Node} :
    (builder.append tree).Every spec ↔ builder.Every spec ∧ tree.Every spec :=
  every_edit fun nodes => by rw [Forest.Every, and_comm]

@[simp] theorem every_close {element : OpenElement} :
    element.close.Every spec ↔
      spec.element element.name element.attributes ∧ Forest.Every spec element.children := by
  simp [OpenElement.close, Node.Every]

@[simp] theorem every_closeInnermost :
    builder.closeInnermost.Every spec ↔ builder.Every spec := by
  obtain ⟨opened, roots⟩ := builder
  cases opened with
  | nil => rfl
  | cons innermost outer =>
    rw [closeInnermost, every_append, every_close]
    simp only [Every, List.forall_mem_cons]
    tauto

@[simp] theorem every_closeMany (count : Nat) :
    (builder.closeMany count).Every spec ↔ builder.Every spec := by
  induction count generalizing builder with
  | zero => rfl
  | succ count ih => rw [closeMany, ih, every_closeInnermost]

theorem length_closeMany (count : Nat) :
    (builder.closeMany count).openElements.length = builder.openElements.length - count := by
  induction count generalizing builder with
  | zero => rfl
  | succ count ih =>
    rw [closeMany, ih]
    obtain ⟨opened, roots⟩ := builder
    obtain _ | ⟨innermost, _ | ⟨outer, opened⟩⟩ := opened <;> simp [closeInnermost, append, edit]

theorem every_finish : Forest.Every spec builder.finish ↔ builder.Every spec := by
  have none := List.eq_nil_of_length_eq_zero <|
    (builder.length_closeMany builder.openElements.length).trans (Nat.sub_self _)
  rw [← every_closeMany builder.openElements.length, finish, Forest.every_reverse, Every, none]
  simp

theorem every_appendText (texts : ∀ data, spec.text data) (data : String) (nodes : List Node) :
    Forest.Every spec (appendText data nodes) ↔ Forest.Every spec nodes := by
  unfold appendText
  split
  · rfl
  split <;> simp [Forest.Every, Node.Every, texts]

/-- A token makes an element or a comment as asked for. -/
theorem every_push (texts : ∀ data, spec.text data) (token : Token) :
    (builder.push token).Every spec ↔ builder.Every spec ∧ token.Meets spec := by
  cases token with
  | startTag name attributes selfClosing =>
    unfold push
    dsimp only
    split
    · simp [Forest.Every, Token.Meets]
    · simp only [Every, Forest.Every, List.forall_mem_cons, Token.Meets]
      tauto
  | endTag name =>
    unfold push
    dsimp only
    split <;> simp [Token.Meets]
  | text data =>
    exact every_edit fun nodes => by simp [every_appendText texts, Token.Meets]
  | comment data => simp [push, Node.Every, Token.Meets]
  | doctype | mistake => simp [push, Token.Meets]

theorem every_foldl_push (texts : ∀ data, spec.text data) {tokens : List Token} :
    (tokens.foldl push builder).Every spec ↔
      builder.Every spec ∧ ∀ token ∈ tokens, token.Meets spec := by
  induction tokens generalizing builder with
  | nil => simp
  | cons token tokens ih =>
    rw [List.foldl_cons, ih, every_push texts, List.forall_mem_cons, and_assoc]

end Builder

/-- The elements and the comments of a forest are those of the tokens. -/
theorem Forest.every_ofTokens_iff (texts : ∀ data, spec.text data) {tokens : List Token} :
    Forest.Every spec (Forest.ofTokens tokens) ↔ ∀ token ∈ tokens, token.Meets spec := by
  rw [Forest.ofTokens, Builder.every_finish, Builder.every_foldl_push texts]
  simp [Builder.Every, Builder.empty, Forest.Every]

/-- The elements of a forest are those of the start tags. -/
theorem Forest.every_ofTokens {holds : String → List (String × String) → Prop}
    {tokens : List Token} :
    Forest.Every { element := holds } (Forest.ofTokens tokens) ↔
      ∀ token ∈ tokens, token.Suits holds := by
  rw [every_ofTokens_iff fun _ => trivial]
  refine forall₂_congr fun token _ => ?_
  cases token <;> rfl

/-- The attributes of each element that is read are sorted. -/
theorem Forest.sorted_parse (markup : String) :
    Forest.Every { element := fun _ => Sorted } (Forest.parse markup) :=
  every_ofTokens.mpr fun token _ => by
    cases token with
    | startTag name attributes selfClosing => exact sorted_sortAttributes attributes
    | _ => trivial

theorem Forest.distinct_of_every {forest : Forest}
    (sorted : Forest.Every { element := fun _ => Sorted } forest) : Distinct forest :=
  match forest with
  | [] => .nil
  | .element _ _ _ _ :: _ =>
    .element sorted.1.1.nodup (distinct_of_every sorted.1.2) (distinct_of_every sorted.2)
  | .text _ :: _ => .text (distinct_of_every sorted.2)
  | .comment _ :: _ => .comment (distinct_of_every sorted.2)

theorem Forest.distinct_parse (markup : String) : Distinct (Forest.parse markup) :=
  distinct_of_every (sorted_parse markup)

/-! ## Texts -/

def Node.isText : Node → Bool
  | .text _ => true
  | _ => false

/-- No text in a forest is empty, and no two texts meet. -/
inductive Settled : Forest → Prop where
  | nil : Settled []
  | element {name : String} {space : Option String} {attributes : List (String × String)}
      {children rest : Forest} (inside : Settled children) (after : Settled rest) :
      Settled (.element name space attributes children :: rest)
  | text {data : String} {rest : Forest} (filled : data ≠ "")
      (apart : ∀ next ∈ rest.head?, next.isText = false) (after : Settled rest) :
      Settled (.text data :: rest)
  | comment {data : String} {rest : Forest} (after : Settled rest) :
      Settled (.comment data :: rest)

theorem Settled.tail {tree : Node} {rest : Forest} (settled : Settled (tree :: rest)) :
    Settled rest := by
  cases settled with
  | element _ after | text _ _ after | comment after => exact after

theorem Settled.head {tree : Node} {rest : Forest} (settled : Settled (tree :: rest)) :
    Settled [tree] := by
  cases settled with
  | element inside _ => exact .element inside .nil
  | text filled _ _ => exact .text filled nofun .nil
  | comment _ => exact .comment .nil

theorem settled_iff {forest : Forest} :
    Settled forest ↔ forest.IsChain (fun tree next => tree.isText = true → next.isText = false) ∧
      ∀ tree ∈ forest, Settled [tree] := by
  induction forest with
  | nil => exact ⟨fun _ => ⟨.nil, nofun⟩, fun _ => .nil⟩
  | cons tree rest ih =>
    rw [List.isChain_cons, List.forall_mem_cons]
    constructor
    · intro settled
      obtain ⟨chain, each⟩ := ih.mp settled.tail
      refine ⟨⟨fun next first isText => ?_, chain⟩, settled.head, each⟩
      cases settled with
      | element => cases isText
      | text _ apart _ => exact apart next first
      | comment => cases isText
    · rintro ⟨⟨apart, chain⟩, alone, each⟩
      have after := ih.mpr ⟨chain, each⟩
      cases alone with
      | element inside _ => exact .element inside after
      | text filled _ _ => exact .text filled (fun next first => apart next first rfl) after
      | comment _ => exact .comment after

theorem Settled.reverse {forest : Forest} (settled : Settled forest) : Settled forest.reverse := by
  obtain ⟨chain, each⟩ := settled_iff.mp settled
  refine settled_iff.mpr ⟨List.isChain_reverse.mpr (chain.imp ?_), fun tree member => ?_⟩
  · intro tree next apart isText
    by_contra other
    rw [Bool.not_eq_false] at other
    rw [apart other] at isText
    cases isText
  · exact each tree (List.mem_reverse.mp member)

/-- Settled texts are joined already. -/
theorem Settled.merge {forest : Forest} (settled : Settled forest) :
    Forest.merge forest = forest := by
  induction settled with
  | nil => rfl
  | element _ _ inside after => rw [merge_element, inside, after]
  | @text data rest filled apart _ after =>
    rw [merge_text, after]
    unfold joinText
    rw [if_neg filled]
    cases rest with
    | nil => rfl
    | cons next rest =>
      have other := apart next rfl
      cases next with
      | text _ => cases other
      | _ => rfl
  | comment _ after => rw [merge_comment, after]

namespace Builder

variable {builder : Builder}

/-- The texts so far are settled. -/
structure Tidy (builder : Builder) : Prop where
  roots : Settled builder.roots
  opened : ∀ element ∈ builder.openElements, Settled element.children

theorem Tidy.edit (tidy : builder.Tidy) {change : List Node → List Node}
    (keeps : ∀ nodes, Settled nodes → Settled (change nodes)) : (builder.edit change).Tidy := by
  obtain ⟨opened, roots⟩ := builder
  cases opened with
  | nil => exact ⟨keeps _ tidy.roots, nofun⟩
  | cons innermost outer =>
    obtain ⟨inner, others⟩ := List.forall_mem_cons.mp tidy.opened
    exact ⟨tidy.roots, List.forall_mem_cons.mpr ⟨keeps _ inner, others⟩⟩

theorem settled_appendText (data : String) {nodes : List Node} (settled : Settled nodes) :
    Settled (appendText data nodes) := by
  unfold appendText
  split
  · exact settled
  next filled =>
  cases settled with
  | nil => exact .text filled nofun .nil
  | element inside after => exact .text filled (by simp [Node.isText]) (.element inside after)
  | comment after => exact .text filled (by simp [Node.isText]) (.comment after)
  | text before apart after =>
    refine .text (fun empty => before ?_) apart after
    have lengths := congrArg String.toList empty
    simp only [String.toList_append, String.toList_empty, List.append_eq_nil_iff] at lengths
    exact String.toList_inj.mp lengths.1

theorem Tidy.closeMany (tidy : builder.Tidy) (count : Nat) : (builder.closeMany count).Tidy := by
  induction count generalizing builder with
  | zero => exact tidy
  | succ count ih =>
    obtain ⟨opened, roots⟩ := builder
    cases opened with
    | nil => exact ih tidy
    | cons innermost outer =>
      obtain ⟨inner, others⟩ := List.forall_mem_cons.mp tidy.opened
      have outside : Tidy ⟨outer, roots⟩ := ⟨tidy.roots, others⟩
      exact ih (outside.edit fun nodes settled => .element inner.reverse settled)

theorem Tidy.push (tidy : builder.Tidy) (token : Token) : (builder.push token).Tidy := by
  cases token with
  | startTag name attributes selfClosing =>
    unfold Builder.push
    dsimp only
    split
    · exact tidy.edit fun nodes settled => .element .nil settled
    · exact ⟨tidy.roots, List.forall_mem_cons.mpr ⟨.nil, tidy.opened⟩⟩
  | endTag name =>
    unfold Builder.push
    dsimp only
    split
    · exact tidy.closeMany _
    · exact tidy
  | text data => exact tidy.edit fun nodes => settled_appendText data
  | comment data => exact tidy.edit fun nodes => .comment
  | doctype | mistake => exact tidy

theorem Tidy.foldl_push (tidy : builder.Tidy) (tokens : List Token) :
    (tokens.foldl Builder.push builder).Tidy := by
  induction tokens generalizing builder with
  | nil => exact tidy
  | cons token rest ih => exact ih (tidy.push token)

end Builder

/-- A forest that is built has its texts joined already. -/
theorem Forest.settled_ofTokens (tokens : List Token) : Settled (Forest.ofTokens tokens) := by
  have empty : Builder.empty.Tidy := ⟨.nil, nofun⟩
  exact ((empty.foldl_push tokens).closeMany _).roots.reverse

theorem Forest.settled_parse (markup : String) : Settled (Forest.parse markup) :=
  settled_ofTokens _

end Markup

/-! ## Stencils -/

theorem Stencil.distinct_ofPieces (pieces : List Placeholder.Piece) :
    (ofPieces pieces).Distinct := by
  induction pieces with
  | nil => trivial
  | cons piece pieces ih => cases piece <;> exact ih

theorem Stencil.Distinct.append {stencil more : Stencil} (distinct : stencil.Distinct)
    (also : more.Distinct) : (stencil ++ more).Distinct := by
  induction stencil with
  | done => exact also
  | element name space static bound below rest _ ih =>
    exact ⟨distinct.1, distinct.2.1, ih distinct.2.2⟩
  | text data rest ih | comment data rest ih | gap rest ih => exact ih distinct

theorem Stencil.map_fst_markedPairs (pairs : List (String × String)) :
    ((staticPairs pairs).map Prod.fst ++ (markedPairs pairs).map Prod.fst).Perm
      (pairs.map Prod.fst) := by
  induction pairs with
  | nil => exact .nil
  | cons pair pairs ih =>
    cases found : Placeholder.index? pair.2.toList with
    | none =>
      rw [staticPairs_static found, markedPairs_static found]
      exact ih.cons _
    | some index =>
      rw [staticPairs_marked found, markedPairs_marked found]
      exact List.perm_middle.trans (ih.cons _)

/-- Cutting keeps what the attributes of an element are called. -/
theorem Stencil.Cut.distinct {next : Nat} {forest : Forest} {stencil : Stencil}
    (cut : Cut next forest stencil) (distinct : Markup.Distinct forest) : stencil.Distinct := by
  induction cut with
  | done => trivial
  | @element next name space pairs bound children rest below behind named clean marked spelled inside
      after ihInside ihAfter =>
    cases distinct with
    | element once within later =>
      have names : ((markedPairs pairs).map Prod.fst).Perm (bound.map Prod.fst) := by
        simpa using marked.map Prod.fst
      refine ⟨?_, ihInside within, ihAfter later⟩
      exact ((map_fst_markedPairs pairs).symm.trans (names.append_left _)).nodup_iff.mp once
  | text absent after ih | comment absent after ih => exact ih distinct.tail
  | pieces found order after ih => exact (distinct_ofPieces _).append (ih distinct.tail)

/-- A template that the standard parser has read. -/
def Template.Standard (template : Template) : Prop :=
  ∃ segments, Blueprint.compile .standard segments = .ok template.blueprint

theorem Template.Standard.exists_stencil {template : Template} (standard : template.Standard) :
    ∃ stencil : Stencil, template.blueprint = stencil.blueprint ∧ stencil.Distinct := by
  obtain ⟨segments, compiled⟩ := standard
  obtain ⟨forest, stencil, -, parsed, same, cut⟩ := Blueprint.compile_eq_ok compiled
  cases parsed
  exact ⟨stencil, same, cut.distinct (Forest.distinct_parse _)⟩

end LiveMarkup
