import LiveMarkup.Proofs.Survey
import LiveMarkup.Proofs.Tidying
import Mathlib.Data.List.Nodup

/-! # Compiling is sound for every parser

Whatever forest a parser returns, a literal that compiles has its parts where the forest has the
placeholders: each part leads to a node of its sort, the placeholders of the forest come in order and
without repetition, and putting them back gives the forest again.  All of this is read off `Cut`,
one induction for each property. -/

namespace LiveMarkup

open Markup

/-! ## Following a path -/

def Markup.Node.children : Node → Forest
  | .element _ _ _ children => children
  | _ => []

def Markup.Node.isElement : Node → Bool
  | .element _ _ _ _ => true
  | _ => false

/-- The node that a path leads to from the roots of a forest. -/
def Markup.Forest.at? (forest : Forest) : Path → Option Node
  | [] => none
  | index :: rest =>
    forest[index]?.bind fun node =>
      match rest with
      | [] => some node
      | _ :: _ => Forest.at? node.children rest

/-- Whether a node is of the sort that a part needs: an element, or an empty text. -/
def Part.Suits : Part → Node → Prop
  | .attribute _, found => found.isElement = true
  | .node _, found => found = .text ""

/-- The paths of the parts that are content. -/
def anchorPaths (parts : List Part) : List Path :=
  parts.filterMap fun part =>
    match part with
    | .attribute _ => none
    | .node path => some path

namespace Stencil

/-- Every part of a stencil leads to a node of its sort, behind any nodes that come before. -/
theorem exists_at?_of_mem_partsAt {stencil : Stencil} (before : Forest) {parent : Path}
    {index : Nat} (size : before.length = index) {part : Part}
    (member : part ∈ stencil.partsAt parent index) :
    ∃ rest node, part.path = parent ++ rest ∧
      Forest.at? (before ++ stencil.forest) rest = some node ∧ part.Suits node := by
  -- The induction is on the stencil, for any nodes before it: positions are counted from there.
  subst size
  induction stencil generalizing before parent with
  | done => simp [partsAt] at member
  | element name space static bound children rest ihChildren ihRest =>
    simp only [partsAt, List.mem_append] at member
    obtain member | member | member := member
    · obtain ⟨pair, -, rfl⟩ := List.mem_map.mp member
      exact ⟨[before.length], .element name space static children.forest, rfl,
        by simp [forest, Forest.at?], rfl⟩
    · obtain ⟨path, node, same, leads, suits⟩ := ihChildren [] member
      refine ⟨before.length :: path, node, by simp [same], ?_, suits⟩
      cases path with
      | nil => simp [Forest.at?] at leads
      | cons first path =>
        rw [List.nil_append] at leads
        simpa [forest, Forest.at?, Node.children] using leads
    · obtain ⟨path, node, same, leads, suits⟩ :=
        ihRest (before ++ [.element name space static children.forest]) (by simpa using member)
      exact ⟨path, node, same, by simpa [forest] using leads, suits⟩
  | text data rest ih =>
    obtain ⟨path, node, same, leads, suits⟩ :=
      ih (before ++ [.text data]) (by simpa [partsAt] using member)
    exact ⟨path, node, same, by simpa [forest] using leads, suits⟩
  | comment data rest ih =>
    obtain ⟨path, node, same, leads, suits⟩ :=
      ih (before ++ [.comment data]) (by simpa [partsAt] using member)
    exact ⟨path, node, same, by simpa [forest] using leads, suits⟩
  | gap rest ih =>
    obtain rfl | member := List.mem_cons.mp member
    · exact ⟨[before.length], .text "", rfl, by simp [forest, Forest.at?], rfl⟩
    · obtain ⟨path, node, same, leads, suits⟩ := ih (before ++ [.text ""]) (by simpa using member)
      exact ⟨path, node, same, by simpa [forest] using leads, suits⟩

theorem mem_anchorPaths {parts : List Part} {path : Path} :
    path ∈ anchorPaths parts ↔ Part.node path ∈ parts := by
  unfold anchorPaths
  rw [List.mem_filterMap]
  constructor
  · rintro ⟨part, member, same⟩
    match part with
    | .attribute part => cases same
    | .node place =>
      cases same
      exact member
  · intro member
    exact ⟨_, member, rfl⟩

theorem nodup_anchorPaths_append {first second : List Part} (region : Path → Prop)
    (here : (anchorPaths first).Nodup) (there : (anchorPaths second).Nodup)
    (inside : ∀ part ∈ second, region part.path) (outside : ∀ part ∈ first, ¬ region part.path) :
    (anchorPaths (first ++ second)).Nodup := by
  unfold anchorPaths
  rw [List.filterMap_append]
  refine List.nodup_append'.mpr ⟨here, there, ?_⟩
  intro path member again
  exact outside _ (mem_anchorPaths.mp member) (inside _ (mem_anchorPaths.mp again))

theorem anchorPaths_boundParts (path : Path) (bound : List (String × String)) :
    anchorPaths (boundParts path bound) = [] := by
  simp [anchorPaths, boundParts]

/-- No two gaps are at the same path. -/
theorem nodup_anchorPaths (stencil : Stencil) (parent : Path) (index : Nat) :
    (anchorPaths (stencil.partsAt parent index)).Nodup := by
  induction stencil generalizing parent index with
  | done => simp [partsAt, anchorPaths]
  | element _ _ _ bound children rest ihChildren ihRest =>
    rw [partsAt, anchorPaths, List.filterMap_append, ← anchorPaths, anchorPaths_boundParts]
    exact nodup_anchorPaths_append (Below parent (index + 1)) (ihChildren _ _) (ihRest _ _)
      (fun part member => below_of_mem_partsAt member)
      (fun part member => (below_of_mem_partsAt member).not_later)
  | text _ rest ih | comment _ rest ih => exact ih parent (index + 1)
  | gap rest ih =>
    have here : (anchorPaths [.node (parent ++ [index])]).Nodup := by simp [anchorPaths]
    refine nodup_anchorPaths_append (Below parent (index + 1)) here (ih _ _)
      (fun part member => below_of_mem_partsAt member) ?_
    intro part member below
    rw [List.mem_singleton.mp member] at below
    exact below.ne_here rfl

end Stencil

/-! ## The placeholders of a forest -/

/-- `InOrder forest list` says that the list has the indices of all placeholders that are in texts of
the forest or whole values of attributes, in preorder.  Those in the attributes of one element come
before those inside of it, in any order. -/
inductive InOrder : Forest → List Nat → Prop where
  | nil : InOrder [] []
  | element {name : String} {space : Option String} {pairs : List (String × String)}
      {children rest : Forest} {own below behind : List Nat}
      (attributes : (pairs.filterMap fun pair => Placeholder.index? pair.2.toList).Perm own)
      (inside : InOrder children below) (after : InOrder rest behind) :
      InOrder (.element name space pairs children :: rest) (own ++ below ++ behind)
  | text {data : String} {rest : Forest} {behind : List Nat} (after : InOrder rest behind) :
      InOrder (.text data :: rest) (Placeholder.indices (Placeholder.split data.toList) ++ behind)
  | comment {data : String} {rest : Forest} {behind : List Nat} (after : InOrder rest behind) :
      InOrder (.comment data :: rest) behind

/-- Indices of placeholders are small. -/
theorem InOrder.lt_bound {forest : Forest} {indices : List Nat} (order : InOrder forest indices) :
    ∀ index ∈ indices, index < Placeholder.bound := by
  induction order with
  | nil => nofun
  | element attributes _ _ inside after =>
    intro index member
    rw [List.mem_append, List.mem_append] at member
    obtain (own | below) | behind := member
    · obtain ⟨pair, -, found⟩ := List.mem_filterMap.mp (attributes.mem_iff.mpr own)
      exact Placeholder.lt_bound_of_index? found
    · exact inside index below
    · exact after index behind
  | text _ after =>
    intro index member
    obtain own | behind := List.mem_append.mp member
    · exact Placeholder.lt_bound_of_placeholder_mem_split (Placeholder.mem_indices_iff.mp own)
    · exact after index behind
  | comment _ after => exact after

theorem map_snd_markedPairs (pairs : List (String × String)) :
    (Stencil.markedPairs pairs).map Prod.snd =
      pairs.filterMap fun pair => Placeholder.index? pair.2.toList := by
  unfold Stencil.markedPairs
  rw [List.map_filterMap]
  congr 1
  funext pair
  cases Placeholder.index? pair.2.toList <;> rfl

theorem Placeholder.indices_split_of_not_occursIn {text : List Char}
    (absent : occursIn text = false) : indices (split text) = [] := by
  have plain := Plain.of_not_occursIn absent
  cases text with
  | nil => simp [indices]
  | cons c cs => simp [plain.split, indices]

theorem Stencil.Cut.inOrder {next : Nat} {forest : Forest} {stencil : Stencil}
    (cut : Stencil.Cut next forest stencil) :
    InOrder forest (List.range' next stencil.count) := by
  induction cut with
  | done => exact .nil
  | @element next name space pairs bound children rest below behind named clean marked spelled
      inside after ihInside ihAfter =>
    have own : (pairs.filterMap fun pair => Placeholder.index? pair.2.toList).Perm
        (List.range' next bound.length) := by
      have indices := marked.map Prod.snd
      rw [map_snd_markedPairs] at indices
      simpa using indices
    have parts : InOrder (.element name space pairs children :: rest) _ :=
      .element own ihInside ihAfter
    rw [List.range'_append_1, Nat.add_assoc next, List.range'_append_1] at parts
    simpa [count, Nat.add_assoc] using parts
  | @text next data rest behind absent after ih =>
    have parts : InOrder (.text data :: rest) _ := .text ih
    rw [Placeholder.indices_split_of_not_occursIn absent] at parts
    exact parts
  | @pieces next data rest behind found order after ih =>
    have parts : InOrder (.text data :: rest) _ := .text ih
    rw [order] at parts
    simp only [List.length_range'] at parts
    rw [List.range'_append_1] at parts
    simpa [count_append] using parts
  | comment absent after ih => exact .comment ih

/-! ## Putting placeholders back -/

/-- Words as fillings, the first of which has the given index. -/
def wordFillings (word : Nat → List Char) (next count : Nat) : List Filling :=
  (List.range' next count).map fun index => .text (String.ofList (word index))

section

variable (word : Nat → List Char)

theorem drop_wordFillings (next count dropped : Nat) :
    (wordFillings word next count).drop dropped =
      wordFillings word (next + dropped) (count - dropped) := by
  simp [wordFillings, ← List.map_drop, List.drop_range']

theorem zipWith_wordFillings {bound : List (String × String)} {next count : Nat}
    (enough : bound.length ≤ count) :
    List.zipWith (fun pair filling => (pair.1, filling.value)) bound
        (wordFillings word next count) =
      ((bound.map Prod.fst).zipIdx next).map fun entry =>
        (entry.1, String.ofList (word entry.2)) := by
  induction bound generalizing next count with
  | nil => rfl
  | cons pair bound ih =>
    obtain _ | count := count
    · simp at enough
    · simp only [List.length_cons, Nat.add_le_add_iff_right] at enough
      have later := @ih (next + 1) count enough
      simp only [wordFillings] at later
      simp [wordFillings, List.range'_succ, later]

/-- An attribute is static or has a placeholder as its value, for which a word is written. -/
theorem rewrite_pairs_perm (pairs : List (String × String)) :
    (pairs.map fun pair => (pair.1, Placeholder.rewriteValue word pair.2)).Perm
      (Stencil.staticPairs pairs ++
        (Stencil.markedPairs pairs).map fun entry => (entry.1, String.ofList (word entry.2))) := by
  induction pairs with
  | nil => exact .refl _
  | cons pair pairs ih =>
    obtain ⟨name, value⟩ := pair
    cases read : Placeholder.index? value.toList with
    | some index =>
      rw [Stencil.staticPairs_marked read, Stencil.markedPairs_marked read]
      simp only [List.map_cons, Placeholder.rewriteValue, read]
      exact (ih.cons _).trans List.perm_middle.symm
    | none =>
      rw [Stencil.staticPairs_static read, Stencil.markedPairs_static read]
      simp only [List.map_cons, Placeholder.rewriteValue, read, List.cons_append]
      exact ih.cons _

/-- The pieces of a text, each as a text of its own, merge into the text with words for its
placeholders. -/
theorem merge_fill_ofPieces (pieces : List Placeholder.Piece) (behind : Stencil) (next count : Nat)
    (order : Placeholder.indices pieces =
      List.range' next (Placeholder.indices pieces).length)
    (enough : (Placeholder.indices pieces).length + behind.count ≤ count) :
    Forest.merge ((Stencil.ofPieces pieces ++ behind).fill (wordFillings word next count)) =
      joinText (String.ofList (pieces.flatMap (Placeholder.Piece.written word)))
        (Forest.merge (behind.fill (wordFillings word
          (next + (Placeholder.indices pieces).length)
          (count - (Placeholder.indices pieces).length)))) := by
  induction pieces generalizing next count with
  | nil => simp [Stencil.ofPieces, Placeholder.indices]
  | cons piece pieces ih =>
    cases piece with
    | run data =>
      simp only [Placeholder.indices] at order enough ⊢
      simp only [Stencil.ofPieces, Stencil.text_append, Stencil.fill, merge_text,
        List.flatMap_cons, Placeholder.Piece.written, String.ofList_append, joinText_append]
      rw [ih next count order enough]
    | placeholder index =>
      simp only [Placeholder.indices, List.length_cons, List.range'_succ, List.cons.injEq]
        at order enough
      obtain ⟨rfl, order⟩ := order
      obtain _ | count := count
      · omega
      have later := ih (index + 1) count order (by omega)
      simp only [Stencil.ofPieces, Stencil.gap_append, Stencil.fill, wordFillings,
        List.range'_succ, List.map_cons, List.head?_cons, Option.map_some, Option.getD_some,
        Filling.content_text, List.cons_append, List.nil_append, List.tail_cons, merge_text,
        List.flatMap_cons, Placeholder.Piece.written, String.ofList_append, joinText_append,
        Placeholder.indices, List.length_cons] at later ⊢
      rw [later, Nat.add_sub_add_right, Nat.add_right_comm index, Nat.add_assoc]

/-- Words in the gaps of a stencil give the forest that it was cut from with the words in place of
its placeholders, up to the order of attributes and the division of texts. -/
theorem Stencil.Cut.alike {next : Nat} {forest : Forest} {stencil : Stencil}
    (cut : Stencil.Cut next forest stencil) {count : Nat} (enough : stencil.count ≤ count) :
    Alike (Forest.merge (Placeholder.rewriteForest word forest))
      (Forest.merge (stencil.fill (wordFillings word next count))) := by
  induction cut generalizing count with
  | done => exact .nil
  | @element next name space pairs bound children rest below behind named clean marked spelled
      inside after ihInside ihAfter =>
    simp only [Stencil.count] at enough
    simp only [Placeholder.rewriteForest, Placeholder.rewriteNode, Stencil.fill, merge_element,
      drop_wordFillings]
    refine .element ?_ (ihInside (by omega)) ?_
    · rw [zipWith_wordFillings word (by omega)]
      exact (rewrite_pairs_perm word pairs).trans ((marked.map _).append_left _)
    · rw [← Nat.add_assoc]
      exact ihAfter (by omega)
  | @text next data rest behind absent after ih =>
    simp only [Placeholder.rewriteForest, Placeholder.rewriteNode, merge_text, Stencil.fill,
      Placeholder.rewriteText_of_not_occursIn word absent]
    exact (ih enough).joinText data
  | @pieces next data rest behind found order after ih =>
    rw [Stencil.count_append, Stencil.count_ofPieces] at enough
    rw [merge_fill_ofPieces word _ _ _ _ order enough]
    exact (ih (by omega)).joinText _
  | comment absent after ih => exact .comment (ih enough)

end

theorem Stencil.attribute_notMem_partsAt_ofPieces (pieces : List Placeholder.Piece)
    {parent : Path} {index : Nat} {part : AttributePart} :
    .attribute part ∉ (Stencil.ofPieces pieces).partsAt parent index := by
  induction pieces generalizing index with
  | nil => exact List.not_mem_nil
  | cons piece pieces ih =>
    cases piece with
    | run data => exact ih
    | placeholder found => simpa [Stencil.ofPieces, Stencil.partsAt] using ih

/-- The name of a dynamic attribute is the one that its author wrote, up to case. -/
theorem Stencil.Cut.lowerCase_name {next : Nat} {forest : Forest} {stencil : Stencil}
    (cut : Stencil.Cut next forest stencil) {parent : Path} {index : Nat} {part : AttributePart}
    (member : .attribute part ∈ stencil.partsAt parent index) :
    lowerCase part.name = lowerCase part.rawName := by
  induction cut generalizing parent index with
  | done => cases member
  | element named clean marked spelled inside after ihInside ihAfter =>
    simp only [Stencil.partsAt, List.mem_append] at member
    obtain member | member | member := member
    · obtain ⟨pair, bound, same⟩ := List.mem_map.mp member
      cases same
      exact spelled pair bound
    · exact ihInside member
    · exact ihAfter member
  | text absent after ih | comment absent after ih => exact ih member
  | pieces found order after ih =>
    rw [Stencil.partsAt_append] at member
    obtain member | member := List.mem_append.mp member
    · exact absurd member (Stencil.attribute_notMem_partsAt_ofPieces _)
    · exact ih member

/-! ## Positions -/

theorem SegmentReader.length_positionsFrom {reader : SegmentReader} {index : Nat}
    {segments : List (List Char)} {places : List Position}
    (read : reader.positionsFrom index segments = .ok places) :
    places.length = segments.length - 1 := by
  induction segments generalizing reader index places with
  | nil =>
    cases read
    rfl
  | cons segment segments ih =>
    cases segments with
    | nil =>
      cases read
      rfl
    | cons next rest =>
      unfold SegmentReader.positionsFrom at read
      split at read
      · cases read
      · next position between placed =>
        cases later : between.positionsFrom (index + 1) (next :: rest) with
        | error error => simp [later, Except.map] at read
        | ok more =>
          simp only [later, Except.map] at read
          cases read
          have lengths := ih later
          simp only [List.length_cons] at lengths ⊢
          omega

/-- There is one position between any two segments, and at least one segment. -/
theorem length_positions {segments : List String} {places : List Position}
    (read : positions segments = .ok places) : places.length + 1 = segments.length := by
  unfold positions at read
  simp only at read
  split at read
  · cases read
  next filled =>
  split at read
  · cases read
  have lengths := SegmentReader.length_positionsFrom read
  rw [List.length_map] at lengths
  have some : segments ≠ [] := by simpa using filled
  have positive := List.length_pos_iff.mpr some
  omega

/-! ## Compiling -/

/-- A literal that compiles has positions, its markup parses, and its blueprint is that of a stencil
that the parsed forest is cut into. -/
theorem Blueprint.compile_eq_ok {parser : Parser} {segments : List String} {blueprint : Blueprint}
    (compiled : Blueprint.compile parser segments = .ok blueprint) :
    ∃ forest stencil, positions segments = .ok (blueprint.parts.map Part.position) ∧
      parser.parse (Placeholder.join segments) = .ok forest ∧
      blueprint = stencil.blueprint ∧ Stencil.Cut 0 forest stencil := by
  rw [Blueprint.compile_eq] at compiled
  cases placed : positions segments with
  | error error =>
    rw [placed] at compiled
    cases compiled
  | ok places =>
    cases parsed : parser.parse (Placeholder.join segments) with
    | error message =>
      rw [placed, parsed] at compiled
      cases compiled
    | ok forest =>
      rw [placed, parsed] at compiled
      obtain ⟨stencil, same, cut, rfl⟩ := Blueprint.survey_eq_ok compiled
      exact ⟨forest, stencil, rfl, rfl, same, cut⟩

/-- What the everyday parser reads are the characters of the joined segments. -/
theorem Blueprint.compile_standard (segments : List String) :
    Blueprint.compile .standard segments = (positions segments).bind fun places =>
      Blueprint.survey places (Forest.ofTokens (LexerState.start.run
        (normalizeLines (Placeholder.joinChars (segments.map String.toList))))) := by
  simp only [Blueprint.compile_eq, Parser.standard, Forest.parse, tokens, Placeholder.join,
    String.toList_ofList]
  rfl

/-- A part is where the position of its value says, and of the sort that it says. -/
theorem position_child_iff {stencil : Stencil} {index : Nat} :
    (stencil.blueprint.parts.map Part.position)[index]? = some .child ↔
      ∃ path, stencil.blueprint.parts[index]? = some (.node path) ∧
        stencil.blueprint.forest.at? path = some (.text "") := by
  rw [List.getElem?_map, Option.map_eq_some_iff]
  constructor
  · rintro ⟨part, here, same⟩
    match part with
    | .attribute part => cases same
    | .node path =>
      obtain ⟨rest, node, rfl, leads, rfl⟩ :=
        Stencil.exists_at?_of_mem_partsAt [] rfl (List.mem_of_getElem? here)
      exact ⟨_, here, leads⟩
  · rintro ⟨path, here, -⟩
    exact ⟨_, here, rfl⟩

theorem position_attribute_iff {forest : Forest} {stencil : Stencil}
    (cut : Stencil.Cut 0 forest stencil) {index : Nat} {rawName : String} :
    (stencil.blueprint.parts.map Part.position)[index]? = some (.attribute rawName) ↔
      ∃ part node, stencil.blueprint.parts[index]? = some (.attribute part) ∧
        part.rawName = rawName ∧ lowerCase part.name = lowerCase rawName ∧
        stencil.blueprint.forest.at? part.path = some node ∧ node.isElement = true := by
  rw [List.getElem?_map, Option.map_eq_some_iff]
  constructor
  · rintro ⟨part, here, same⟩
    match part with
    | .node path => cases same
    | .attribute part =>
      cases same
      have member := List.mem_of_getElem? here
      obtain ⟨rest, node, path, leads, suits⟩ :=
        Stencil.exists_at?_of_mem_partsAt [] rfl member
      rw [List.nil_append] at path leads
      rw [← path] at leads
      exact ⟨part, node, here, rfl, cut.lowerCase_name member, leads, suits⟩
  · rintro ⟨part, node, here, rfl, -, -, -⟩
    exact ⟨_, here, rfl⟩

/-- What a blueprint has to do with the segments of its literal, the positions of the values, and the
forest that the markup was parsed to. -/
structure Blueprint.Faithful (segments : List String) (places : List Position) (forest : Forest)
    (blueprint : Blueprint) : Prop where
  /-- There is one part for each value. -/
  count : blueprint.parts.length + 1 = segments.length
  /-- A part is an anchor just where the value is content, and leads to an empty text. -/
  content : ∀ index : Nat, places[index]? = some .child ↔
    ∃ path, blueprint.parts[index]? = some (.node path) ∧
      blueprint.forest.at? path = some (.text "")
  /-- A part is an attribute just where the value is that of an attribute so called, and leads to
  an element. -/
  attributes : ∀ (index : Nat) (rawName : String), places[index]? = some (.attribute rawName) ↔
    ∃ part node, blueprint.parts[index]? = some (.attribute part) ∧
      part.rawName = rawName ∧ lowerCase part.name = lowerCase rawName ∧
      blueprint.forest.at? part.path = some node ∧ node.isElement = true
  /-- No two anchors are at one place. -/
  apart : (anchorPaths blueprint.parts).Nodup
  /-- The placeholders of the forest come in order, each once. -/
  order : InOrder forest (List.range blueprint.parts.length)
  /-- With the placeholders back in the parts, the blueprint is the parsed forest, in which they are
  written without leading zeros. -/
  restored : Alike (Forest.merge (Placeholder.rewriteForest Placeholder.chars forest))
    (Forest.merge (blueprint.weave (wordFillings Placeholder.chars 0 blueprint.parts.length)))

/-- A literal that compiles has positions, its markup parses, and the blueprint is faithful to
them. -/
theorem compile_faithful {parser : Parser} {segments : List String} {blueprint : Blueprint}
    (compiled : Blueprint.compile parser segments = .ok blueprint) :
    ∃ places forest, positions segments = .ok places ∧
      parser.parse (Placeholder.join segments) = .ok forest ∧
      blueprint.Faithful segments places forest := by
  obtain ⟨forest, stencil, placed, parsed, rfl, cut⟩ := Blueprint.compile_eq_ok compiled
  have parts : stencil.blueprint.parts.length = stencil.count :=
    Stencil.length_partsAt stencil [] 0
  refine ⟨_, forest, placed, parsed, ?_⟩
  constructor
  case count => rw [← length_positions placed, List.length_map]
  case content => exact fun index => position_child_iff
  case attributes => exact fun index rawName => position_attribute_iff cut
  case apart => exact Stencil.nodup_anchorPaths stencil [] 0
  case order =>
    rw [parts, List.range_eq_range']
    exact cut.inOrder
  case restored =>
    rw [Stencil.weave_blueprint, parts]
    exact cut.alike _ (Nat.le_refl _)

/-- A parser that gives one forest whatever it reads.  The forest has a placeholder with a leading
zero and its attributes in no order. -/
def Parser.fixed : Parser :=
  { parse := fun _ => .ok [.element "p" none
      [("x", "\x7b\x7bstencil-part-00\x7d\x7d"), ("id", "k")]
      [.text "some \x7b\x7bstencil-part-1\x7d\x7d text"]] }

theorem compile_fixed :
    Blueprint.compile Parser.fixed ["<p id=k X=", ">some ", " text</p>"] =
      .ok { forest := [.element "p" none [("id", "k")] [.text "some ", .text "", .text " text"]]
            parts := [.attribute { path := [0], name := "x", rawName := "X" },
              .node [0, 1]] } := by
  decide +kernel

theorem compile_faithful_fixed :
    Blueprint.compile Parser.fixed ["<p id=k X=", ">some ", " text</p>"] =
      .ok { forest := [.element "p" none [("id", "k")] [.text "some ", .text "", .text " text"]]
            parts := [.attribute { path := [0], name := "x", rawName := "X" },
              .node [0, 1]] } ∧
    ∃ places forest, positions ["<p id=k X=", ">some ", " text</p>"] = .ok places ∧
      Parser.fixed.parse (Placeholder.join ["<p id=k X=", ">some ", " text</p>"]) =
        .ok forest ∧
      Blueprint.Faithful ["<p id=k X=", ">some ", " text</p>"] places forest
        { forest := [.element "p" none [("id", "k")] [.text "some ", .text "", .text " text"]]
          parts := [.attribute { path := [0], name := "x", rawName := "X" },
            .node [0, 1]] } :=
  ⟨compile_fixed, compile_faithful compile_fixed⟩

end LiveMarkup
