import LiveMarkup.Proofs.Compilation
import LiveMarkup.Proofs.Confinement

/-! # Values outside of raw text

A value that is content by its position in the segments ends up as content in the tree, outside of
all elements with raw text, unless the lexer strays from the way of the segment reader
(`outsideRawText_of_steady`).  Where it strays the value may be in the middle of a script.

The placeholder of the value is in a text that is read as content (`Forest.shows_parse`).  A part
with the index of that placeholder is at that text and nowhere else, whatever else in the markup
looks like the placeholder (`Cut.outsideRawText`). -/

namespace LiveMarkup

open Markup

-- The forest of a text that is not known is never worked out.
attribute [local irreducible] Forest.parse

/-! ## Placeholders that show -/

namespace Markup

mutual

def Node.Shows (index : Nat) : Node → Prop
  | .element name _ _ children => name ∉ rawTextElements ∧ Forest.Shows index children
  | .text data => Placeholder.chars index <:+: data.toList
  | .comment _ => False

/-- Whether a placeholder is in a text outside of elements with raw text. -/
def Forest.Shows (index : Nat) : List Node → Prop
  | [] => False
  | tree :: rest => tree.Shows index ∨ Forest.Shows index rest

end

theorem Forest.shows_iff {index : Nat} {forest : Forest} :
    Forest.Shows index forest ↔ ∃ tree ∈ forest, tree.Shows index := by
  induction forest with
  | nil => simp [Forest.Shows]
  | cons tree rest ih => rw [Forest.Shows, ih, List.exists_mem_cons_iff]

theorem Forest.shows_reverse {index : Nat} {forest : Forest} :
    Forest.Shows index forest.reverse ↔ Forest.Shows index forest := by
  simp [Forest.shows_iff]

namespace Builder

variable {index : Nat} {builder : Builder}

/-- Whether a placeholder is in a text in the open elements, outside of those with raw text. -/
def ShowsOpen (index : Nat) : List OpenElement → Prop
  | [] => False
  | innermost :: outer =>
    (Forest.Shows index innermost.children ∧
      ∀ element ∈ innermost :: outer, element.name ∉ rawTextElements) ∨ ShowsOpen index outer

def Shows (index : Nat) (builder : Builder) : Prop :=
  ShowsOpen index builder.openElements ∨ Forest.Shows index builder.roots

theorem Shows.edit (shown : builder.Shows index) {change : List Node → List Node}
    (grows : ∀ nodes, Forest.Shows index nodes → Forest.Shows index (change nodes)) :
    (builder.edit change).Shows index := by
  obtain ⟨opened, roots⟩ := builder
  cases opened with
  | nil => exact .inr (shown.elim False.elim (grows _))
  | cons innermost outer =>
    obtain (⟨inside, free⟩ | outside) | atRoot := shown
    · exact .inl (.inl ⟨grows _ inside, List.forall_mem_cons.mpr (List.forall_mem_cons.mp free)⟩)
    · exact .inl (.inr outside)
    · exact .inr atRoot

theorem Shows.closeInnermost (shown : builder.Shows index) :
    builder.closeInnermost.Shows index := by
  obtain ⟨opened, roots⟩ := builder
  cases opened with
  | nil => exact shown
  | cons innermost outer =>
    have keeps (nodes : List Node) (inside : Forest.Shows index nodes) :
        Forest.Shows index (innermost.close :: nodes) := .inr inside
    obtain (⟨inside, free⟩ | outside) | atRoot := shown
    · rw [List.forall_mem_cons] at free
      have closed : innermost.close.Shows index :=
        ⟨free.1, Forest.shows_reverse.mpr inside⟩
      cases outer with
      | nil => exact .inr (.inl closed)
      | cons next others => exact .inl (.inl ⟨.inl closed, List.forall_mem_cons.mpr
          (List.forall_mem_cons.mp free.2)⟩)
    · have there : Shows index ⟨outer, roots⟩ := .inl outside
      exact there.edit keeps
    · have there : Shows index ⟨outer, roots⟩ := .inr atRoot
      exact there.edit keeps

theorem Shows.closeMany (shown : builder.Shows index) (count : Nat) :
    (builder.closeMany count).Shows index := by
  induction count generalizing builder with
  | zero => exact shown
  | succ count ih => exact ih shown.closeInnermost

theorem shows_appendText (data : String) {nodes : List Node} (inside : Forest.Shows index nodes) :
    Forest.Shows index (appendText data nodes) := by
  unfold appendText
  split
  · exact inside
  split
  · obtain here | later := inside
    · refine .inl (here.trans ?_)
      rw [String.toList_append]
      exact (List.prefix_append _ _).isInfix
    · exact .inr later
  · exact .inr inside

/-- What shows goes on to show. -/
theorem Shows.push (shown : builder.Shows index) (token : Token) :
    (builder.push token).Shows index := by
  cases token with
  | startTag name attributes selfClosing =>
    unfold Builder.push
    dsimp only
    split
    · exact shown.edit fun _ inside => .inr inside
    · exact shown.elim (fun inside => .inl (.inr inside)) .inr
  | endTag name =>
    unfold Builder.push
    dsimp only
    split
    · exact shown.closeMany _
    · exact shown
  | text data => exact shown.edit fun _ inside => shows_appendText data inside
  | comment data => exact shown.edit fun _ inside => .inr inside
  | doctype | mistake => exact shown

theorem Shows.foldl_push (shown : builder.Shows index) (tokens : List Token) :
    (tokens.foldl Builder.push builder).Shows index := by
  induction tokens generalizing builder with
  | nil => exact shown
  | cons token tokens ih => exact ih (shown.push token)

theorem Shows.finish (shown : builder.Shows index) : Forest.Shows index builder.finish := by
  have none : (builder.closeMany builder.openElements.length).openElements = [] := by
    have names : (builder.closeMany builder.openElements.length).names = [] := by
      rw [names_closeMany, List.drop_eq_nil_iff, Builder.names, List.length_map]
    exact List.map_eq_nil_iff.mp names
  obtain inside | outside := shown.closeMany builder.openElements.length
  · rw [none] at inside
    exact inside.elim
  · exact Forest.shows_reverse.mpr outside

theorem shows_appendText_self (nodes : List Node) :
    Forest.Shows index (appendText (Placeholder.text index) nodes) := by
  have filled : Placeholder.text index ≠ "" := by
    intro same
    rw [← String.toList_inj, Placeholder.text, String.toList_ofList, Placeholder.chars,
      Placeholder.opening_eq] at same
    cases same
  have chars : (Placeholder.text index).toList = Placeholder.chars index := String.toList_ofList
  unfold appendText
  rw [if_neg filled]
  split
  · refine .inl ?_
    show Placeholder.chars index <:+: _
    rw [String.toList_append, chars]
    exact (List.suffix_append _ _).isInfix
  · refine .inl ?_
    show Placeholder.chars index <:+: (Placeholder.text index).toList
    exact chars.symm ▸ List.infix_rfl

/-- A placeholder that is read as content shows. -/
theorem shows_push_text (free : Free builder.names) :
    (builder.push (.text (Placeholder.text index))).Shows index := by
  obtain ⟨opened, roots⟩ := builder
  cases opened with
  | nil => exact .inr (shows_appendText_self roots)
  | cons innermost outer =>
    refine .inl (.inl ⟨shows_appendText_self _, fun element member => ?_⟩)
    apply free
    obtain rfl | later := List.mem_cons.mp member
    · exact List.mem_cons_self
    · exact List.mem_cons_of_mem _ (List.mem_map_of_mem later)

end Builder

end Markup

/-! ## Placeholders between segments -/

open LexerState

/-- A placeholder that is read as content shows. -/
theorem shows_of_data {reader : SegmentReader} {state : LexerState} (inStep : InStep reader state)
    (here : reader.state = .data) {builder : Builder} (confined : Confined builder.names state)
    (index : Nat) :
    ((state.advance (Placeholder.chars index)).2.foldl Builder.push builder).Shows index := by
  have free : Free builder.names := by
    obtain rfl | ⟨reference, rfl⟩ := inStep.of_data here
    · exact Reads.free confined
    · exact Reads.free confined
  obtain ⟨before, read, texts⟩ := inStep.advance_word here .placeholders index
  rw [Wording.word_placeholders] at read
  have calm : ∀ token ∈ before, token.isTag = false := fun token member => by
    obtain ⟨text, rfl⟩ := texts token member
    rfl
  rw [read, List.foldl_append, Interchangeable.texts (Placeholder.chars index)]
  apply Builder.shows_push_text
  rw [Builder.names_foldl_push calm]
  exact free

/-- The placeholder of a value whose position is content shows. -/
theorem shows_of_position {first : List Char} {rest : List (List Char)} {reader : SegmentReader}
    {state : LexerState} {builder : Builder} {next : Nat} {places : List Position}
    (read : reader.positionsFrom next (first :: rest) = .ok places)
    (inStep : InStep reader state) (confined : Confined builder.names state)
    (steady : state.straysIn (normalizeLines first ++
      Sketch.fill .placeholders (Sketch.behindHoles next rest)) = false)
    {rank : Nat} (child : places[rank]? = some .child) :
    ((state.run (normalizeLines first ++
      Sketch.fill .placeholders (Sketch.behindHoles next rest))).foldl Builder.push builder).Shows
        (next + rank) := by
  induction rest generalizing first reader state builder next places rank with
  | nil =>
    cases read
    cases child
  | cons second rest ih =>
    unfold SegmentReader.positionsFrom at read
    split at read
    · cases read
    next position after placed =>
    cases later : after.positionsFrom (next + 1) (second :: rest) with
    | error error => simp [later, Except.map] at read
    | ok more =>
      simp only [later, Except.map] at read
      cases read
      rw [Sketch.behindHoles, Sketch.fill_hole, Wording.word_placeholders, Sketch.fill_append,
        Sketch.fill_ofText] at steady ⊢
      rw [straysIn_append, straysIn_append, Bool.or_eq_false_iff, Bool.or_eq_false_iff] at steady
      obtain ⟨steadyFirst, -, steadyRest⟩ := steady
      -- Behind the first segment, and then behind the placeholder, the readers are together.
      have together := inStep.feed steadyFirst
      rw [← inStep.feed_normalizeLines steadyFirst] at together
      have beyond := together.place placed .placeholders next
      have opened := Confines.advance confined (normalizeLines first)
      have openedBeyond := Confines.advance opened (Placeholder.chars next)
      rw [run_append, run_append, List.foldl_append, List.foldl_append]
      cases rank with
      | zero =>
        obtain rfl := Option.some.inj child
        obtain ⟨here, -, -⟩ | ⟨-, other, -⟩ | ⟨_, -, other, -⟩ :=
          SegmentReader.place_eq_ok placed
        · exact (shows_of_data together here opened next).foldl_push _
        · cases other
        · cases other
      | succ rank =>
        have shown := ih later beyond openedBeyond steadyRest child
        rwa [Nat.add_assoc, Nat.add_comm 1] at shown

/-- Whether the lexer strays anywhere in the markup of a literal. -/
def straysInLiteral (segments : List String) : Bool :=
  LexerState.start.straysIn (normalizeLines (Placeholder.join segments).toList)

theorem normalizeLines_join (segments : List String) :
    normalizeLines (Placeholder.join segments).toList =
      Sketch.fill .placeholders (Sketch.ofSegments (segments.map String.toList)) := by
  have joined := normalizeLines_joinCharsWith .placeholders (segments.map String.toList)
  rw [← joinWith_chars, joinWith, String.toList_ofList]
  exact joined

theorem Forest.shows_parse {segments : List String} {places : List Position}
    (read : positions segments = .ok places) (steady : straysInLiteral segments = false)
    {index : Nat} (child : places[index]? = some .child) :
    Forest.Shows index (Forest.parse (Placeholder.join segments)) := by
  unfold positions at read
  dsimp only at read
  split at read
  · cases read
  next filled =>
  split at read
  · cases read
  rw [straysInLiteral, normalizeLines_join] at steady
  rw [Forest.parse, Forest.ofTokens, tokens, normalizeLines_join]
  obtain ⟨first, rest, same⟩ := List.exists_cons_of_ne_nil filled
  rw [same] at read steady ⊢
  have empty : Confined Builder.empty.names LexerState.start := Reads.data (List.forall_mem_nil _)
  have shown := shows_of_position read (.data rfl) empty
    (by rwa [Sketch.ofSegments, Sketch.fill_append, Sketch.fill_ofText] at steady) child
  rw [Nat.zero_add] at shown
  rw [Sketch.ofSegments, Sketch.fill_append, Sketch.fill_ofText]
  exact shown.finish

/-! ## Where the parts are -/

/-- A path that leads through no element with raw text. -/
def OutsideRawText (forest : Forest) (path : Path) : Prop :=
  ∀ front name space attributes children, front <+: path →
    forest.at? front = some (.element name space attributes children) → name ∉ rawTextElements

theorem OutsideRawText.inside {before behind children : Forest} {name : String}
    {space : Option String} {attributes : List (String × String)} {path : Path}
    (outside : OutsideRawText children path) (plain : name ∉ rawTextElements) :
    OutsideRawText (before ++ .element name space attributes children :: behind)
      (before.length :: path) := by
  intro front other otherSpace otherAttributes otherChildren prior leads
  obtain rfl | ⟨rest, rfl, priorRest⟩ := List.prefix_cons_iff.mp prior
  · cases leads
  cases rest with
  | nil =>
    have here : name = other ∧ space = otherSpace ∧ attributes = otherAttributes ∧
        children = otherChildren := by simpa [Forest.at?] using leads
    rwa [← here.1]
  | cons index rest =>
    have within : children.at? (index :: rest) =
        some (.element other otherSpace otherAttributes otherChildren) := by
      simpa [Forest.at?, Node.children] using leads
    exact outside _ _ _ _ _ priorRest within

theorem OutsideRawText.single {forest : Forest} {index : Nat} {data : String}
    (text : forest.at? [index] = some (.text data)) : OutsideRawText forest [index] := by
  intro front name space attributes children prior leads
  obtain rfl | ⟨rest, rfl, priorRest⟩ := List.prefix_cons_iff.mp prior
  · cases leads
  obtain rfl := List.prefix_nil.mp priorRest
  rw [text] at leads
  cases leads

theorem Stencil.exists_path_of_mem_ofPieces {pieces : List Placeholder.Piece} {parent : Path}
    {index : Nat} {part : Part} (member : part ∈ (ofPieces pieces).partsAt parent index) :
    ∃ child, part = .node (parent ++ [child]) := by
  induction pieces generalizing index with
  | nil => cases member
  | cons piece pieces ih =>
    cases piece with
    | run data => exact ih member
    | placeholder found =>
      obtain rfl | later := List.mem_cons.mp member
      · exact ⟨index, rfl⟩
      · exact ih later

/-- A placeholder between pieces of text is a part straight below the parent. -/
theorem Stencil.exists_getElem?_partsAt_ofPieces (pieces : List Placeholder.Piece)
    (behind : Stencil) {rank : Nat} (less : rank < (Placeholder.indices pieces).length)
    (before : Forest) (parent : Path) :
    ∃ child, ((ofPieces pieces ++ behind).partsAt parent before.length)[rank]? =
        some (.node (parent ++ [child])) ∧
      OutsideRawText (before ++ (ofPieces pieces ++ behind).forest) [child] := by
  have sized : rank < ((ofPieces pieces).partsAt parent before.length).length := by
    rwa [length_partsAt, count_ofPieces]
  have part := List.getElem?_eq_getElem sized
  obtain ⟨child, node⟩ := exists_path_of_mem_ofPieces (List.mem_of_getElem? part)
  have whole : ((ofPieces pieces ++ behind).partsAt parent before.length)[rank]? =
      some (.node (parent ++ [child])) := by
    rw [partsAt_append, List.getElem?_append_left sized, part, node]
  obtain ⟨path, tree, leads, here, suits⟩ :=
    exists_at?_of_mem_partsAt before rfl (List.mem_of_getElem? whole)
  obtain rfl := List.append_cancel_left leads
  obtain rfl : tree = .text "" := suits
  exact ⟨child, whole, .single here⟩

section

variable {name : String} {space : Option String} {static bound : List (String × String)}
  {below rest : Stencil} {parent : Path} {index rank : Nat} {part : Part}

/-- The parts of an element are those of its attributes, and then those inside. -/
theorem Stencil.getElem?_partsAt_below
    (found : (below.partsAt (parent ++ [index]) 0)[rank]? = some part) :
    ((element name space static bound below rest).partsAt parent index)[bound.length + rank]? =
      some part := by
  have within := (List.getElem?_eq_some_iff.mp found).1
  rwa [partsAt, List.getElem?_append_right (by simp), length_boundParts, Nat.add_sub_cancel_left,
    List.getElem?_append_left within]

/-- Behind them come those of the siblings. -/
theorem Stencil.getElem?_partsAt_rest
    (found : (rest.partsAt parent (index + 1))[rank]? = some part) :
    ((element name space static bound below rest).partsAt parent index)[
      bound.length + (below.count + rank)]? = some part := by
  rwa [partsAt, List.getElem?_append_right (by simp), length_boundParts, Nat.add_sub_cancel_left,
    List.getElem?_append_right (by simp), length_partsAt, Nat.add_sub_cancel_left]

end

/-- The part with the index of a placeholder that shows is outside of raw text. -/
theorem Stencil.Cut.outsideRawText {next : Nat} {forest : Forest} {stencil : Stencil}
    (cut : Stencil.Cut next forest stencil) {index : Nat} (small : index < Placeholder.bound)
    (shown : Forest.Shows index forest) (before : Forest) (parent : Path) :
    ∃ rank path, index = next + rank ∧
      (stencil.partsAt parent before.length)[rank]? = some (.node (parent ++ path)) ∧
      OutsideRawText (before ++ stencil.forest) path := by
  induction cut generalizing before parent with
  | done => cases shown
  | @element next name space pairs bound children rest below behind named clean marked spelled
      inside after ihInside ihAfter =>
    obtain ⟨plain, shown⟩ | shown := shown
    · obtain ⟨rank, path, rfl, part, outside⟩ := ihInside shown [] (parent ++ [before.length])
      rw [List.append_assoc] at part
      exact ⟨bound.length + rank, before.length :: path, by omega, getElem?_partsAt_below part,
        outside.inside plain⟩
    · obtain ⟨rank, path, rfl, part, outside⟩ := ihAfter shown
        (before ++ [.element name space (Stencil.staticPairs pairs) below.forest]) parent
      rw [List.length_append, List.length_singleton] at part
      exact ⟨bound.length + (below.count + rank), path, by omega, getElem?_partsAt_rest part,
        by simpa [Stencil.forest] using outside⟩
  | @text next data rest behind absent after ih =>
    obtain here | shown := shown
    · rw [Placeholder.occursIn_of_infix here] at absent
      cases absent
    · obtain ⟨rank, path, same, part, outside⟩ := ih shown (before ++ [.text data]) parent
      exact ⟨rank, path, same, by simpa [Stencil.partsAt] using part,
        by simpa [Stencil.forest] using outside⟩
  | @pieces next data rest behind found order after ih =>
    obtain here | shown := shown
    · have marked := Sketch.mem_indices_of_infix small here
      rw [order] at marked
      obtain ⟨rank, less, rfl⟩ := List.mem_range'.mp marked
      obtain ⟨child, part, outside⟩ :=
        exists_getElem?_partsAt_ofPieces _ behind less before parent
      exact ⟨rank, [child], by rw [Nat.one_mul], part, outside⟩
    · obtain ⟨rank, path, rfl, part, outside⟩ := ih shown
        (before ++ (Stencil.ofPieces (Placeholder.split data.toList)).forest) parent
      refine ⟨(Placeholder.indices (Placeholder.split data.toList)).length + rank, path,
        by omega, ?_, by simpa using outside⟩
      rw [Stencil.partsAt_append, List.getElem?_append_right (by simp), Stencil.length_partsAt,
        Stencil.count_ofPieces, Nat.add_sub_cancel_left]
      simpa using part
  | @comment next data rest behind absent after ih =>
    obtain here | shown := shown
    · exact here.elim
    · obtain ⟨rank, path, same, part, outside⟩ := ih shown (before ++ [.comment data]) parent
      exact ⟨rank, path, same, by simpa [Stencil.partsAt] using part,
        by simpa [Stencil.forest] using outside⟩

/-- No value becomes part of a script, a style sheet or the like, if the lexer does not stray. -/
theorem outsideRawText_of_steady {segments : List String} {blueprint : Blueprint}
    (compiled : Blueprint.compile .standard segments = .ok blueprint)
    (steady : straysInLiteral segments = false) {path : Path} (part : .node path ∈ blueprint.parts) :
    OutsideRawText blueprint.forest path := by
  obtain ⟨forest, stencil, placed, parsed, rfl, cut⟩ := Blueprint.compile_eq_ok compiled
  cases parsed
  obtain ⟨index, here⟩ := List.getElem?_of_mem part
  have child : (stencil.blueprint.parts.map Part.position)[index]? = some .child := by
    rw [List.getElem?_map, here]
    rfl
  have small : index < Placeholder.bound := by
    apply cut.inOrder.lt_bound
    have inside := (List.getElem?_eq_some_iff.mp here).1
    rw [Stencil.blueprint, Stencil.length_partsAt] at inside
    exact List.mem_range'.mpr ⟨index, inside, by omega⟩
  have shown := Forest.shows_parse placed steady child
  obtain ⟨rank, found, same, leads, outside⟩ := cut.outsideRawText small shown [] []
  rw [Nat.zero_add] at same
  have again : some (Part.node path) = some (.node ([] ++ found)) := by
    rw [← here, ← leads, same]
    rfl
  obtain rfl : path = found := by simpa using again
  exact outside

theorem outsideRawText_of_steady_page :
    OutsideRawText [.element "script" none [] [.text "a<b"], .comment " c ",
      .element "p" none [] [.text ""]] [2, 0] :=
  have compiled : Blueprint.compile .standard
      ["<script>a<b</script ><!-- c --><p title=", ">", "</p>"] =
        .ok ⟨[.element "script" none [] [.text "a<b"], .comment " c ",
          .element "p" none [] [.text ""]],
          [.attribute ⟨[2], "title", "title"⟩, .node [2, 0]]⟩ := by
    rw [Blueprint.compile_standard]
    decide +kernel
  outsideRawText_of_steady compiled (by decide +kernel) (by decide)

/-- The name in an end tag is that of the element only up to its last letter, and the value is in the
middle of a script. -/
theorem exists_part_in_raw_text :
    ∃ segments blueprint path, Blueprint.compile .standard segments = .ok blueprint ∧
      .node path ∈ blueprint.parts ∧ ¬ OutsideRawText blueprint.forest path := by
  refine ⟨["<script></scriptx>", "</script>"],
    ⟨[.element "script" none [] [.text "</scriptx>", .text ""]], [.node [0, 1]]⟩, [0, 1],
    by decide +kernel, by decide, fun outside => ?_⟩
  exact outside [0] "script" none [] [.text "</scriptx>", .text ""] ⟨[1], rfl⟩ rfl (by decide)

end LiveMarkup
