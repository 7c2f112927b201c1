import LiveMarkup.Proofs.Mattering

/-! # Literals that are accepted

No literal is rejected whose values are well placed in the forest of its markup
(`compile_of_wellPlaced`), as long as the segment reader keeps up with the lexer until the last value:
it misses, among others, the comments that end early.  What it rejects by rule is a value right behind
a less-than sign, which begins a tag for it even where the lexer takes it for text.  The placeholders
in the forest have to be those of the values, and not others that are spelled by references.

With the reader and the lexer together at the end of each segment, the values have their places one
after another (`exists_positionsFrom`). -/

namespace LiveMarkup

open Markup Placeholder

-- The forest of a text that is not known is never worked out.
attribute [local irreducible] Forest.parse

/-! ## Where the lexer is -/

/-- The state of the lexer behind a front part of the markup. -/
def stateBehind (front : Sketch) : LexerState :=
  (LexerState.start.advance (front.fill .placeholders)).1

/-- What has been built by then. -/
def builtBehind (front : Sketch) : Builder :=
  (LexerState.start.advance (front.fill .placeholders)).2.foldl Builder.push .empty

theorem stateBehind_append (front more : Sketch) :
    stateBehind (front ++ more) = ((stateBehind front).advance (more.fill .placeholders)).1 := by
  rw [stateBehind, Sketch.fill_append, LexerState.advance_append]
  rfl

theorem confined_behind (front : Sketch) :
    Confined (builtBehind front).names (stateBehind front) := by
  have empty : Confined Builder.empty.names LexerState.start := Reads.data (List.forall_mem_nil _)
  exact Confines.advance empty _

theorem Markup.Builder.Clean.foldl_push {builder : Builder} (clean : builder.Clean)
    {tokens : List Token} (meets : ∀ token ∈ tokens, token.Meets undisturbed) :
    (tokens.foldl Builder.push builder).Clean := by
  induction tokens generalizing builder with
  | nil => exact clean
  | cons token tokens ih =>
    rw [List.forall_mem_cons] at meets
    refine ih ?_ meets.2
    intro name member
    cases token with
    | startTag tag attributes selfClosing =>
      rw [Builder.names_startTag] at member
      split at member
      · exact clean name member
      · obtain rfl | member := List.mem_cons.mp member
        · exact meets.1.1
        · exact clean name member
    | endTag tag =>
      obtain ⟨count, names⟩ := builder.exists_names_endTag tag
      rw [names] at member
      exact clean name (List.mem_of_mem_drop member)
    | text | comment | doctype | mistake =>
      rw [Builder.names_push_of_not_isTag rfl] at member
      exact clean name member

/-- The markup of a literal is read from the start. -/
theorem parse_joinWith_eq_complete (wording : Wording) (segments : List String) :
    Forest.parse (joinWith wording.word segments) =
      Builder.empty.complete .start
        ((Sketch.ofSegments (segments.map String.toList)).fill wording) := by
  rw [← normalizeLines_joinCharsWith, Forest.parse, Forest.ofTokens, tokens, joinWith,
    String.toList_ofList]
  rfl

/-- The forest of a literal with other words in it, if its values are well placed and its placeholders
are those of the values. -/
theorem WellPlaced.parse_joinWith {segments : List String}
    (placed : WellPlaced (segments.length - 1) (Forest.parse (join segments)))
    (genuine : ∀ word : Nat → List Char, (∀ index, IsWord (word index)) →
      Forest.Unmarked (Forest.parse (joinWith word segments))) (wording : Wording) :
    Forest.parse (joinWith wording.word segments) =
      rewriteForest wording.word (Forest.parse (join segments)) := by
  have clean : Forest.Every surveyed (Forest.parse (join segments)) :=
    placed.undisturbed.imp
      (fun _ _ ⟨named, pairs⟩ => ⟨named, fun pair member => (pairs pair member).2⟩)
      (fun _ _ => trivial) fun _ => id
  exact parse_joinWith_of_inOrder placed.order clean
    (fun size => genuine _ (Wording.isWord_long size)) wording

/-- Each value makes a difference where the lexer comes to it. -/
theorem WellPlaced.matters {segments : List String}
    (placed : WellPlaced (segments.length - 1) (Forest.parse (join segments)))
    (genuine : ∀ word : Nat → List Char, (∀ index, IsWord (word index)) →
      Forest.Unmarked (Forest.parse (joinWith word segments)))
    {front behind : Sketch} {index : Nat}
    (same : Sketch.ofSegments (segments.map String.toList) = front ++ .hole index :: behind) :
    Matters (segments.length - 1) (Forest.parse (join segments)) (builtBehind front)
      (stateBehind front) index (behind.fill .placeholders) := by
  have holes := Sketch.holes_ofSegments (segments.map String.toList)
  rw [same, Sketch.holes_append, Sketch.holes_hole, List.length_map] at holes
  have below : index < segments.length - 1 := by
    rw [← List.mem_range, ← holes]
    simp
  have once : (Sketch.holes front ++ index :: Sketch.holes behind).Nodup := holes ▸ List.nodup_range
  rw [List.nodup_middle, List.nodup_cons, List.mem_append, not_or] at once
  -- With another word only in this place, the markup is the same elsewhere.
  have elsewhere {sketch : Sketch} (absent : index ∉ Sketch.holes sketch) :
      sketch.fill (.doubled index) = sketch.fill .placeholders :=
    Sketch.fill_congr fun other member =>
      Wording.doubled_of_ne fun equal => absent (equal ▸ member)
  have parsed (wording : Wording) (alike : front.fill wording = front.fill .placeholders) :
      Forest.parse (joinWith wording.word segments) =
        (builtBehind front).complete (stateBehind front)
          (wording.word index ++ behind.fill wording) := by
    rw [builtBehind, stateBehind, ← Builder.complete_append, ← alike, ← Sketch.fill_hole,
      ← Sketch.fill_append, ← same, parse_joinWith_eq_complete]
  have whole := parsed .placeholders rfl
  rw [show Wording.placeholders.word = chars from rfl, joinWith_chars] at whole
  have clean : (builtBehind front).Clean := by
    have every := placed.undisturbed
    rw [whole, Builder.complete, Builder.every_finish, builtBehind, ← List.foldl_append,
      Builder.every_foldl_push fun _ => trivial] at every
    have empty : Builder.empty.Clean := List.forall_mem_nil _
    exact empty.foldl_push fun token member => every.2 token (List.mem_append_left _ member)
  refine ⟨placed, below, clean, whole.symm, fun equal => ?_⟩
  -- If it made no difference, the word would be rewritten nowhere, but there is a spot for it.
  have doubled := parsed (.doubled index) (elsewhere once.1.1)
  rw [elsewhere once.1.2, equal, placed.parse_joinWith genuine] at doubled
  have unchanged := placed.parse_joinWith genuine .placeholders
  rw [show Wording.placeholders.word = chars from rfl, joinWith_chars] at unchanged
  obtain ⟨place, spot⟩ := placed.order.mem_spots (List.mem_range.mpr below)
  exact notMem_spots_of_rewriteForest_eq (doubled.trans unchanged) place spot

/-! ## Between two segments -/

theorem exists_normalizeLines_cons (c : Char) (text : List Char) :
    ∃ rest, normalizeLines (c :: text) = (if c = '\r' then '\n' else c) :: rest := by
  by_cases line : c = '\r'
  · subst line
    cases text with
    | nil => exact ⟨_, rfl⟩
    | cons d text =>
      by_cases feed : d = '\n'
      · subst feed
        exact ⟨normalizeLines text, rfl⟩
      · exact ⟨normalizeLines (d :: text), by rw [normalizeLines]; rfl; simp [feed]⟩
  · rw [normalizeLines_cons line, if_neg line]
    exact ⟨_, rfl⟩

/-- The reader sees from the next segment alone whether a value ends before it. -/
theorem SegmentReader.endsUnquoted_eq (next : List Char) (index : Nat) (rest : List (List Char)) :
    endsUnquoted next rest.isEmpty = endsUnquoted
      (normalizeLines next ++ (Sketch.behindHoles index rest).fill .placeholders) true := by
  cases next with
  | nil =>
    cases rest with
    | nil => rfl
    | cons segment rest => simp [endsUnquoted, normalizeLines, Sketch.behindHoles,
        Wording.word_placeholders, chars, opening_eq, isBlank]
  | cons c next =>
    obtain ⟨more, same⟩ := exists_normalizeLines_cons c next
    rw [same]
    by_cases line : c = '\r'
    · subst line
      rfl
    · rw [if_neg line]
      rfl

theorem SegmentReader.head?_eq_quote_iff {quote : Char} (quotes : isQuote quote = true)
    (next : List Char) (index : Nat) (rest : List (List Char)) :
    next.head? = some quote ↔
      (normalizeLines next ++ (Sketch.behindHoles index rest).fill .placeholders).head? =
        some quote := by
  have other : quote ≠ '{' ∧ quote ≠ '\n' ∧ quote ≠ '\r' := by
    simp only [isQuote, Bool.or_eq_true, beq_iff_eq] at quotes
    obtain rfl | rfl := quotes <;> decide
  cases next with
  | nil =>
    cases rest with
    | nil => rfl
    | cons segment rest => simp [normalizeLines, Sketch.behindHoles, Wording.word_placeholders,
        chars, opening_eq, other.1.symm]
  | cons c next =>
    obtain ⟨more, same⟩ := exists_normalizeLines_cons c next
    rw [same]
    by_cases line : c = '\r'
    · subst line
      simp [other.2.1.symm, other.2.2.symm]
    · rw [if_neg line]
      rfl

/-- Only a less-than sign begins a tag. -/
theorem SegmentReader.eq_less_of_step_tagOpen {reader : SegmentReader} {c : Char}
    (begins : (reader.step c).state = .tagOpen) : c = '<' := by
  -- Whatever the state, any other character leads to another one.
  by_contra other
  revert begins
  cases here : reader.state <;>
    simp only [step, here, stepData, stepBeforeAttributeName, stepRawText, closeTag, enter, nameTag,
      nameAttribute] <;>
    repeat' split
  all_goals simp_all

theorem SegmentReader.feed_ne_tagOpen {reader : SegmentReader} (closed : reader.state ≠ .tagOpen)
    {text : List Char} (ending : text.getLast? ≠ some '<') :
    (reader.feed text).state ≠ .tagOpen := by
  cases text using List.reverseRecOn with
  | nil => exact closed
  | append_singleton text c =>
    intro begins
    rw [feed, List.foldl_append] at begins
    rw [eq_less_of_step_tagOpen begins] at ending
    simp at ending

theorem SegmentReader.ne_tagOpen_of_place {reader after : SegmentReader} {next : List Char}
    {last : Bool} {position : Position} (placed : reader.place next last = .ok (position, after)) :
    after.state ≠ .tagOpen := by
  obtain ⟨here, -, rfl⟩ | ⟨-, -, rfl⟩ | ⟨quote, -, -, rfl⟩ := place_eq_ok placed
  · simp [here]
  · simp [enter]
  · simp [enter]

/-- No value is taken right behind a less-than sign. -/
theorem SegmentReader.place_less_ne_ok {reader after : SegmentReader} {next : List Char} {last : Bool}
    {position : Position} : (reader.step '<').place next last ≠ .ok (position, after) := by
  intro placed
  have dark : isBlank '<' = false := by decide
  -- From no state does the sign lead to one in which a value is taken.
  have away : (reader.step '<').state ≠ .data ∧ (reader.step '<').state ≠ .beforeAttributeValue ∧
      ∀ quote, (reader.step '<').state ≠ .quotedValue quote true := by
    cases here : reader.state <;>
      simp only [step, here, stepData, stepBeforeAttributeName, stepRawText, closeTag, enter, nameTag,
        nameAttribute] <;>
      repeat' split
    all_goals simp_all
  obtain ⟨here, -⟩ | ⟨here, -⟩ | ⟨quote, here, -⟩ := place_eq_ok placed
  · exact away.1 here
  · exact away.2.1 here
  · exact away.2.2 quote here

theorem SegmentReader.getLast?_ne_less_of_positionsFrom {reader : SegmentReader} {index : Nat}
    {segments : List (List Char)} {places : List Position}
    (read : reader.positionsFrom index segments = .ok places) :
    ∀ segment ∈ segments.dropLast, segment.getLast? ≠ some '<' := by
  induction segments generalizing reader index places with
  | nil => nofun
  | cons segment segments ih =>
    cases segments with
    | nil => nofun
    | cons next rest =>
      rw [List.dropLast_cons_of_ne_nil (List.cons_ne_nil next rest), List.forall_mem_cons]
      unfold positionsFrom at read
      split at read
      · cases read
      · next position after placed =>
        refine ⟨fun ending => ?_, ?_⟩
        · obtain ⟨front, rfl⟩ := List.getLast?_eq_some_iff.mp ending
          rw [feed, List.foldl_append] at placed
          exact place_less_ne_ok placed
        · cases later : after.positionsFrom (index + 1) (next :: rest) with
          | error => rw [later] at read; cases read
          | ok => exact ih later

/-- Where all values have positions, none is right behind a less-than sign. -/
theorem getLast?_ne_less_of_positions {segments : List String} {places : List Position}
    (read : positions segments = .ok places) :
    ∀ segment ∈ segments.dropLast, segment.toList.getLast? ≠ some '<' := by
  unfold positions at read
  dsimp only at read
  split at read
  · cases read
  split at read
  · cases read
  · have endings := SegmentReader.getLast?_ne_less_of_positionsFrom read
    rwa [← List.map_dropLast, List.forall_mem_map] at endings

/-! ## Paths -/

theorem Markup.Forest.Every.of_at? {spec : NodeSpec} {forest : Forest} {path : Path} {node : Node}
    (every : Forest.Every spec forest) (leads : forest.at? path = some node) : node.Every spec := by
  induction path generalizing forest with
  | nil => cases leads
  | cons index path ih =>
    rw [Forest.at?, Option.bind_eq_some_iff] at leads
    obtain ⟨tree, here, leads⟩ := leads
    have within := Forest.every_iff.mp every tree (List.mem_of_getElem? here)
    cases path with
    | nil => exact Option.some.inj leads ▸ within
    | cons next path =>
      refine ih ?_ leads
      cases tree with
      | element => exact within.2
      | text | comment => trivial

/-- Where there are no elements with raw text, everything is outside of them. -/
theorem OutsideRawText.of_every {forest : Forest}
    (plain : Forest.Every { element := fun name _ => name ∉ rawTextElements } forest)
    (path : Path) : OutsideRawText forest path :=
  fun _ _ _ _ _ _ leads => (plain.of_at? leads).1

theorem WellPlaced.of_plain {count : Nat} {forest : Forest}
    (order : InOrder forest (List.range count)) (clean : Forest.Every LiveMarkup.undisturbed forest)
    (plain : Forest.Every { element := fun name _ => name ∉ rawTextElements } forest) :
    WellPlaced count forest :=
  ⟨order, clean, fun path _ _ _ => .of_every plain path⟩

/-! ## Through a literal -/

/-- Whether the lexer goes its own way anywhere in the markup of a literal. -/
def swervesInLiteral (segments : List String) : Bool :=
  LexerState.start.swervesIn (normalizeLines (join segments).toList)

/-- Every value has a place, which is that of its placeholder in the forest. -/
theorem exists_positionsFrom {count : Nat} {forest : Forest} {sketch : Sketch}
    (matters : ∀ (front : Sketch) (index : Nat) (behind : Sketch),
      sketch = front ++ .hole index :: behind →
        Matters count forest (builtBehind front) (stateBehind front) index
          (behind.fill .placeholders))
    {first : List Char} {rest : List (List Char)} {front : Sketch} {next : Nat}
    (same : sketch =
      front ++ (Sketch.ofText (normalizeLines first) ++ Sketch.behindHoles next rest))
    {reader : SegmentReader} (together : Together reader (stateBehind front))
    (closed : reader.state ≠ .tagOpen)
    (endings : ∀ segment ∈ (first :: rest).dropLast, segment.getLast? ≠ some '<')
    (steady : rest ≠ [] → (stateBehind front).swervesIn (normalizeLines first ++
      (Sketch.behindHoles next rest.dropLast).fill .placeholders) = false) :
    ∃ places, reader.positionsFrom next (first :: rest) = .ok places ∧
      ∀ rank < rest.length, ∃ position place, places[rank]? = some position ∧
        (next + rank, place) ∈ Forest.spots forest ∧ position.Fits place := by
  induction rest generalizing first front next reader with
  | nil => exact ⟨[], rfl, nofun⟩
  | cons second rest ih =>
    have calm := steady (List.cons_ne_nil second rest)
    rw [LexerState.swervesIn_append, Bool.or_eq_false_iff] at calm
    rw [List.dropLast_cons_of_ne_nil (List.cons_ne_nil second rest),
      List.forall_mem_cons] at endings
    -- At the end of the first segment the readers are together, and there the value is placed.
    let upTo : Sketch := front ++ Sketch.ofText (normalizeLines first)
    have here : Together (reader.feed first) (stateBehind upTo) := by
      rw [stateBehind_append, Sketch.fill_ofText]
      exact together.feed_segment calm.1
    have split : sketch = upTo ++ .hole next ::
        (Sketch.ofText (normalizeLines second) ++ Sketch.behindHoles (next + 1) rest) := by
      rw [same, Sketch.behindHoles, List.append_assoc]
    have value := matters upTo next _ split
    rw [Sketch.fill_append, Sketch.fill_ofText] at value
    obtain ⟨position, after, place, placed, spot, fits⟩ :=
      value.place here (confined_behind upTo) (SegmentReader.feed_ne_tagOpen closed endings.1)
        (SegmentReader.endsUnquoted_eq second (next + 1) rest)
        fun quote quotes => SegmentReader.head?_eq_quote_iff quotes second (next + 1) rest
    have beyond : Together after (stateBehind (upTo ++ [.hole next])) := by
      rw [stateBehind_append, Sketch.fill_hole, Sketch.fill_nil, List.append_nil]
      exact here.place placed .placeholders next
    obtain ⟨places, read, found⟩ := ih (by simpa using split) beyond
      (SegmentReader.ne_tagOpen_of_place placed) endings.2 fun more => by
        have later := calm.2
        rw [List.dropLast_cons_of_ne_nil more, Sketch.behindHoles, Sketch.fill_hole,
          Sketch.fill_append, Sketch.fill_ofText, LexerState.swervesIn_append,
          Bool.or_eq_false_iff] at later
        rw [stateBehind_append, stateBehind_append, Sketch.fill_hole, Sketch.fill_nil,
          List.append_nil, Sketch.fill_ofText]
        exact later.2
    refine ⟨position :: places, by simp [SegmentReader.positionsFrom, placed, read, Except.map], ?_⟩
    intro rank less
    cases rank with
    | zero => exact ⟨position, place, rfl, spot, fits⟩
    | succ rank =>
      obtain ⟨position, place, isThere, spot, fits⟩ := found rank (by simpa using less)
      exact ⟨position, place, isThere, by rwa [Nat.add_comm rank, ← Nat.add_assoc], fits⟩

/-- The values have positions, which are the places of the placeholders. -/
theorem WellPlaced.exists_positions {segments : List String} (filled : segments ≠ [])
    (unreserved : ∀ segment ∈ segments, occursIn segment.toList = false)
    (placed : WellPlaced (segments.length - 1) (Forest.parse (join segments)))
    (genuine : ∀ word : Nat → List Char, (∀ index, IsWord (word index)) →
      Forest.Unmarked (Forest.parse (joinWith word segments)))
    (endings : ∀ segment ∈ segments.dropLast, segment.toList.getLast? ≠ some '<')
    (steady : swervesInLiteral segments.dropLast = false) :
    ∃ places, positions segments = .ok places ∧ places.length = segments.length - 1 ∧
      ∀ spot ∈ Forest.spots (Forest.parse (join segments)),
        ∃ position, places[spot.1]? = some position ∧ position.Fits spot.2 := by
  obtain ⟨first, rest, rfl⟩ := List.exists_cons_of_ne_nil filled
  have start : Together .start (stateBehind []) := .start
  obtain ⟨places, read, found⟩ := exists_positionsFrom
    (fun front index behind same => placed.matters genuine same)
    (List.nil_append _).symm start (by simp [SegmentReader.start])
    (by rwa [← List.map_cons, ← List.map_dropLast, List.forall_mem_map]) fun more => by
      have whole := steady
      rw [swervesInLiteral, normalizeLines_join, List.dropLast_cons_of_ne_nil (by simpa using more),
        List.map_cons, Sketch.ofSegments, Sketch.fill_append, Sketch.fill_ofText] at whole
      rwa [List.map_dropLast] at whole
  -- No segment is refused for the reserved text.
  have reserved : ((first :: rest).map String.toList).findIdx? occursIn = none := by
    rw [List.findIdx?_eq_none_iff, List.forall_mem_map]
    exact unreserved
  have scanned : positions (first :: rest) = .ok places := by
    rw [positions, if_neg (by simp), reserved]
    exact read
  refine ⟨places, scanned, ?_, fun entry spot => ?_⟩
  · have lengths := length_positions scanned
    omega
  obtain ⟨index, place⟩ := entry
  -- The place that was found for the index is the only one that it has.
  have member : index ∈ List.range ((first :: rest).length - 1) :=
    placed.order.perm_spots.mem_iff.mp (List.mem_map_of_mem spot)
  obtain ⟨position, other, here, there, fits⟩ := found index (by simpa using member)
  rw [Nat.zero_add] at there
  rw [placed.order.spot_unique List.nodup_range spot there]
  exact ⟨position, here, fits⟩

/-- A literal whose values are well placed in the forest of its markup compiles, if the lexer does
nothing up to the last value that the segment reader misses (`steady`).  The placeholders in the
forest have to be those of the values (`genuine`), and no value may stand right behind a less-than
sign (`endings`), where the segment reader never takes one (`getLast?_ne_less_of_positions`). -/
theorem compile_of_wellPlaced {segments : List String} (filled : segments ≠ [])
    (unreserved : ∀ segment ∈ segments, occursIn segment.toList = false)
    (placed : WellPlaced (segments.length - 1) (Forest.parse (join segments)))
    (genuine : ∀ word : Nat → List Char, (∀ index, IsWord (word index)) →
      Forest.Unmarked (Forest.parse (joinWith word segments)))
    (endings : ∀ segment ∈ segments.dropLast, segment.toList.getLast? ≠ some '<')
    (steady : swervesInLiteral segments.dropLast = false) :
    ∃ places blueprint, positions segments = .ok places ∧
      Blueprint.compile .standard segments = .ok blueprint := by
  obtain ⟨places, read, length, fits⟩ :=
    placed.exists_positions filled unreserved genuine endings steady
  have consecutive : List.range (segments.length - 1) =
      List.range' 0 (List.range (segments.length - 1)).length := by
    rw [List.length_range, List.range_eq_range']
  obtain ⟨stencil, cut, -, found⟩ := placed.order.exists_cut consecutive placed.undisturbed fits
  have same : stencil.blueprint.parts.map Part.position = places := by
    rw [Stencil.blueprint, found [] 0, ← length, positionsAt_range]
  have surveyed := Blueprint.survey_of_cut cut
  rw [same] at surveyed
  refine ⟨places, stencil.blueprint, read, ?_⟩
  rw [Blueprint.compile_eq, read]
  exact surveyed

theorem InOrder.single {data : String} {own : List Nat}
    (same : Placeholder.indices (split data.toList) = own) : InOrder [.text data] own := by
  rw [← same, ← List.append_nil (Placeholder.indices _)]
  exact .text .nil

theorem wellPlaced_page : WellPlaced 2 (Forest.parse (join ["<p id=", ">", "</p>"])) := by
  have parsed : Forest.parse (join ["<p id=", ">", "</p>"]) =
      [.element "p" none [("id", text 0)] [.text (text 1)]] := by decide +kernel
  have clean : undisturbed.element "p" [("id", text 0)] := by
    unfold undisturbed
    decide +kernel
  rw [parsed]
  exact .of_plain
    (.element (.of_eq (by decide +kernel : _ = [0])) (.single (by decide +kernel : _ = [1])) .nil)
    ⟨⟨clean, trivial, trivial⟩, trivial⟩ ⟨⟨by decide, trivial, trivial⟩, trivial⟩

/-- With words in it, this markup is an element with one word as an attribute and one as its text. -/
theorem parse_page (wording : Wording) :
    Forest.parse (joinWith wording.word ["<p id=", ">", "</p>"]) =
      [.element "p" none [("id", String.ofList (wording.word 0))]
        (Builder.appendText (String.ofList (wording.word 1)) []).reverse] := by
  let attr : OpenAttribute := ⟨⟨false, ['p'], []⟩, ['d', 'i'], []⟩
  have begun : LexerState.start.advance "<p id=".toList =
      LexerState.silently (.beforeAttributeValue attr) := by decide
  have valued : (LexerState.beforeAttributeValue attr).advance (wording.word 0) =
      LexerState.silently (.unquotedValue { attr with value := (wording.word 0).reverse }) := by
    have same : (LexerState.beforeAttributeValue attr).step '{' =
        (LexerState.unquotedValue attr).step '{' := rfl
    rw [LexerState.advance_word_congr same, LexerState.advance_unquotedValue attr (wording.calm 0)]
    simp [attr]
  have opened (value : List Char) :
      (LexerState.unquotedValue { attr with value }).advance ">".toList =
        (.start, [.startTag "p" [("id", String.ofList value.reverse)] false]) := rfl
  have closed : LexerState.start.run "</p>".toList = [.endTag "p"] := by decide
  have read := parse_joinWith_eq_complete wording ["<p id=", ">", "</p>"]
  rw [show (Sketch.ofSegments (["<p id=", ">", "</p>"].map String.toList)).fill wording =
      "<p id=".toList ++
        (wording.word 0 ++ (">".toList ++ (wording.word 1 ++ "</p>".toList))) from rfl,
    Builder.complete_append, begun, LexerState.silently, Builder.complete_append, valued,
    LexerState.silently, Builder.complete_append, opened, Builder.complete_append,
    LexerState.start, LexerState.advance_content_word, Interchangeable.texts,
    Builder.complete] at read
  rw [read, show LexerState.behindWord .data = .data from rfl, ← LexerState.start, closed,
    List.reverse_reverse]
  rfl

theorem unmarked_page {word : Nat → List Char} (words : ∀ index, IsWord (word index)) :
    Forest.Unmarked (Forest.parse (joinWith word ["<p id=", ">", "</p>"])) := by
  have parsed := parse_page (.ofWords word words)
  rw [show (Wording.ofWords word words).word = word from rfl] at parsed
  have plain : Plain (word 1 ++ []) := (words 1).plain_append trivial
  have inside : Builder.appendText (String.ofList (word 1)) [] =
      if String.ofList (word 1) = "" then [] else [.text (String.ofList (word 1))] := rfl
  rw [parsed, inside]
  refine ⟨⟨List.forall_mem_singleton.mpr ?_, ?_⟩, trivial⟩
  · rw [String.toList_ofList]
    exact (words 0).index?_eq_none
  · split
    · trivial
    · exact ⟨by simpa [unmarked, Node.Every] using plain, trivial⟩

theorem compile_of_wellPlaced_page :
    WellPlaced 2 (Forest.parse (join ["<p id=", ">", "</p>"])) ∧
      ∃ places blueprint, positions ["<p id=", ">", "</p>"] = .ok places ∧
        Blueprint.compile .standard ["<p id=", ">", "</p>"] = .ok blueprint :=
  ⟨wellPlaced_page, compile_of_wellPlaced (by decide) (by decide) wellPlaced_page
    (fun _ words => unmarked_page words) (by decide) (by decide +kernel)⟩

/-- The first literal is rejected for what the segment reader misses: a comment ends at its first
greater-than sign if that comes first in it.  In the second one, what the lexer takes for text is a
tag name for the segment reader.  In the third one the placeholder gets lost in a repeated attribute,
and one that is spelled by a reference is well placed instead. -/
theorem wellPlaced_rejected :
    (Forest.parse (join ["<!-->", ""]) = [.comment "", .text (text 0)] ∧
      WellPlaced 1 [.comment "", .text (text 0)] ∧
      (∀ segment ∈ ["<!-->", ""], occursIn segment.toList = false) ∧
      positions ["<!-->", ""] = .error (.misplaced 0 .comment) ∧
      Blueprint.compile .standard ["<!-->", ""] = .error (.misplaced 0 .comment)) ∧
    (Forest.parse (join ["<", "></div>"]) = [.text ("<" ++ text 0 ++ ">")] ∧
      WellPlaced 1 [.text ("<" ++ text 0 ++ ">")] ∧
      (∀ segment ∈ ["<", "></div>"], occursIn segment.toList = false) ∧
      positions ["<", "></div>"] = .error (.misplaced 0 .tagName) ∧
      Blueprint.compile .standard ["<", "></div>"] = .error (.misplaced 0 .tagName)) ∧
    Forest.parse (join ["<p a=1 a=", ">&#123;\x7bstencil-part-0\x7d\x7d</p>"]) =
        [.element "p" none [("a", "1")] [.text (text 0)]] ∧
      WellPlaced 1 [.element "p" none [("a", "1")] [.text (text 0)]] ∧
      (∀ segment ∈ ["<p a=1 a=", ">&#123;\x7bstencil-part-0\x7d\x7d</p>"],
        occursIn segment.toList = false) ∧
      Blueprint.compile .standard ["<p a=1 a=", ">&#123;\x7bstencil-part-0\x7d\x7d</p>"] =
        .error (.moved 0) := by
  have unspoilt : undisturbed.comment "" := by
    unfold undisturbed
    decide +kernel
  have behind : WellPlaced 1 [.comment "", .text (text 0)] :=
    .of_plain (.comment (.single (by decide +kernel))) ⟨unspoilt, trivial, trivial⟩
      ⟨trivial, trivial, trivial⟩
  have bare : WellPlaced 1 [.text ("<" ++ text 0 ++ ">")] :=
    .of_plain (.single (by decide +kernel)) ⟨trivial, trivial⟩ ⟨trivial, trivial⟩
  have clean : undisturbed.element "p" [("a", "1")] := by
    unfold undisturbed
    decide +kernel
  have inside : WellPlaced 1 [.element "p" none [("a", "1")] [.text (text 0)]] :=
    .of_plain
      (.element (.of_eq (by decide +kernel : _ = [])) (.single (by decide +kernel : _ = [0])) .nil)
      ⟨⟨clean, trivial, trivial⟩, trivial⟩ ⟨⟨by decide, trivial, trivial⟩, trivial⟩
  exact ⟨⟨by decide +kernel, behind, by decide, by decide +kernel, by decide +kernel⟩,
    ⟨by decide +kernel, bare, by decide, by decide +kernel, by decide +kernel⟩,
    by decide +kernel, inside, by decide +kernel, by decide +kernel⟩

end LiveMarkup
