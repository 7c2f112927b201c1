import LiveMarkup.Proofs.Nesting
import LiveMarkup.Proofs.Words

/-! # Building a sketch

The forest of filled tokens is a filled sketch of a forest, the same one for different words, as long
as the words make no difference to the names of tags (`fill_ofTokens`).  What a forest sketch holds
comes from the token sketches. -/

namespace LiveMarkup

open Markup

/-! ## Forests -/

/-- A node of which the data and the values are sketches.  The attributes are as they are written. -/
inductive NodeSketch where
  | element (name : String) (space : Option String) (attributes : List PairSketch)
      (children : List NodeSketch)
  | text (data : Sketch)
  | comment (data : Sketch)

abbrev ForestSketch :=
  List NodeSketch

mutual

def NodeSketch.fill (wording : Wording) : NodeSketch → Node
  | .element name space attributes children =>
    .element name space (sortAttributes (attributes.map (PairSketch.fill wording)))
      (ForestSketch.fill wording children)
  | .text data => .text (String.ofList (Sketch.fill wording data))
  | .comment data => .comment (String.ofList (Sketch.fill wording data))

def ForestSketch.fill (wording : Wording) : List NodeSketch → Forest
  | [] => []
  | tree :: rest => tree.fill wording :: ForestSketch.fill wording rest

end

mutual

def NodeSketch.Every (pairs : List PairSketch → Prop) (data : Sketch → Prop) : NodeSketch → Prop
  | .element _ _ attributes children => pairs attributes ∧ ForestSketch.Every pairs data children
  | .text text => data text
  | .comment text => data text

/-- What is asked of attributes, and of texts and comments, is so of all in a forest. -/
def ForestSketch.Every (pairs : List PairSketch → Prop) (data : Sketch → Prop) :
    List NodeSketch → Prop
  | [] => True
  | tree :: rest => tree.Every pairs data ∧ ForestSketch.Every pairs data rest

end

namespace ForestSketch

variable {wording : Wording} {pairs : List PairSketch → Prop} {data : Sketch → Prop}

theorem fill_eq_map (forest : ForestSketch) : fill wording forest = forest.map (·.fill wording) := by
  induction forest with
  | nil => rfl
  | cons tree rest ih => rw [fill, ih, List.map_cons]

theorem fill_reverse (forest : ForestSketch) :
    fill wording forest.reverse = (fill wording forest).reverse := by
  rw [fill_eq_map, fill_eq_map, List.map_reverse]

theorem every_iff {forest : ForestSketch} :
    Every pairs data forest ↔ ∀ tree ∈ forest, tree.Every pairs data := by
  induction forest with
  | nil => exact ⟨fun _ => nofun, fun _ => trivial⟩
  | cons tree rest ih => rw [Every, ih, List.forall_mem_cons]

end ForestSketch

/-! ## Builders -/

/-- An open element, with its last child first. -/
structure ElementSketch where
  name : String
  space : Option String
  attributes : List PairSketch
  children : List NodeSketch

namespace ElementSketch

def close (element : ElementSketch) : NodeSketch :=
  .element element.name element.space element.attributes element.children.reverse

def fill (wording : Wording) (element : ElementSketch) : OpenElement where
  name := element.name
  space := element.space
  attributes := sortAttributes (element.attributes.map (PairSketch.fill wording))
  children := ForestSketch.fill wording element.children

theorem fill_close (wording : Wording) (element : ElementSketch) :
    element.close.fill wording = (element.fill wording).close := by
  rw [close, NodeSketch.fill, ForestSketch.fill_reverse]
  rfl

end ElementSketch

/-- A forest sketch under construction. -/
structure BuilderSketch where
  opened : List ElementSketch
  roots : List NodeSketch

namespace BuilderSketch

def empty : BuilderSketch :=
  ⟨[], []⟩

def edit (builder : BuilderSketch) (change : List NodeSketch → List NodeSketch) : BuilderSketch :=
  match builder.opened with
  | [] => { builder with roots := change builder.roots }
  | innermost :: outer =>
    { builder with opened := { innermost with children := change innermost.children } :: outer }

def append (builder : BuilderSketch) (tree : NodeSketch) : BuilderSketch :=
  builder.edit (tree :: ·)

def appendText (data : Sketch) (nodes : List NodeSketch) : List NodeSketch :=
  if data = [] then nodes
  else
    match nodes with
    | .text before :: rest => .text (before ++ data) :: rest
    | nodes => .text data :: nodes

def spaceFor (builder : BuilderSketch) (name : String) : Option String :=
  if name = "svg" then some svgNamespace
  else builder.opened.head?.bind (·.space)

def closeInnermost (builder : BuilderSketch) : BuilderSketch :=
  match builder.opened with
  | [] => builder
  | innermost :: outer => append { builder with opened := outer } innermost.close

def closeMany (builder : BuilderSketch) : Nat → BuilderSketch
  | 0 => builder
  | count + 1 => builder.closeInnermost.closeMany count

/-- Takes in one token.  Names are those with placeholders in them. -/
def push (builder : BuilderSketch) : TokenSketch → BuilderSketch
  | .startTag name attributes selfClosing =>
    let name := String.ofList (Sketch.fill .placeholders name)
    let element : ElementSketch :=
      { name, space := builder.spaceFor name, attributes, children := [] }
    if selfClosing || isVoid name then builder.append element.close
    else { builder with opened := element :: builder.opened }
  | .endTag name =>
    match builder.opened.findIdx? (·.name == String.ofList (Sketch.fill .placeholders name)) with
    | some inner => builder.closeMany (inner + 1)
    | none => builder
  | .text data => builder.edit (appendText data)
  | .comment data => builder.append (.comment data)
  | .doctype | .mistake => builder

def finish (builder : BuilderSketch) : ForestSketch :=
  (builder.closeMany builder.opened.length).roots.reverse

/-! ## Filling a builder -/

def fill (wording : Wording) (builder : BuilderSketch) : Builder where
  openElements := builder.opened.map (·.fill wording)
  roots := ForestSketch.fill wording builder.roots

variable {wording : Wording} {builder : BuilderSketch}

theorem fill_edit {change : List NodeSketch → List NodeSketch} {change' : List Node → List Node}
    (same : ∀ nodes, ForestSketch.fill wording (change nodes) =
      change' (ForestSketch.fill wording nodes)) :
    (builder.edit change).fill wording = (builder.fill wording).edit change' := by
  obtain ⟨opened, roots⟩ := builder
  cases opened with
  | nil => simp [edit, fill, Builder.edit, same]
  | cons innermost outer => simp [edit, fill, Builder.edit, ElementSketch.fill, same]

theorem fill_append (tree : NodeSketch) :
    (builder.append tree).fill wording = (builder.fill wording).append (tree.fill wording) :=
  fill_edit fun _ => rfl

theorem fill_appendText (data : Sketch) (nodes : List NodeSketch) :
    ForestSketch.fill wording (appendText data nodes) =
      Builder.appendText (String.ofList (Sketch.fill wording data))
        (ForestSketch.fill wording nodes) := by
  unfold appendText Builder.appendText
  by_cases empty : data = []
  · simp [empty]
  have filled : String.ofList (Sketch.fill wording data) ≠ "" := by
    intro same
    rw [← String.toList_inj, String.toList_ofList] at same
    exact empty (Sketch.fill_eq_nil_iff.mp same)
  rw [if_neg empty, if_neg filled]
  cases nodes with
  | nil => rfl
  | cons first rest =>
    cases first with
    | text before => simp [ForestSketch.fill, NodeSketch.fill]
    | _ => rfl

theorem fill_closeInnermost :
    builder.closeInnermost.fill wording = (builder.fill wording).closeInnermost := by
  obtain ⟨opened, roots⟩ := builder
  cases opened with
  | nil => rfl
  | cons innermost outer =>
    rw [closeInnermost, fill_append, ElementSketch.fill_close]
    rfl

theorem fill_closeMany (count : Nat) :
    (builder.closeMany count).fill wording = (builder.fill wording).closeMany count := by
  induction count generalizing builder with
  | zero => rfl
  | succ count ih => rw [closeMany, ih, fill_closeInnermost, Builder.closeMany]

theorem fill_finish : ForestSketch.fill wording builder.finish = (builder.fill wording).finish := by
  rw [finish, ForestSketch.fill_reverse, Builder.finish, ← fill_closeMany]
  simp [fill]

end BuilderSketch

/-- The words make no difference to the name of a start tag, which is one of the given names, or to
what an end tag of one of these names would close. -/
def TokenSketch.Steady (wording : Wording) (names : List String) : TokenSketch → Prop
  | startTag name _ _ =>
    Sketch.fill wording name = Sketch.fill .placeholders name ∧
      String.ofList (Sketch.fill .placeholders name) ∈ names
  | endTag name =>
    ∀ known ∈ names, known = String.ofList (Sketch.fill wording name) ↔
      known = String.ofList (Sketch.fill .placeholders name)
  | _ => True

theorem findIdx?_congr {α : Type} {list : List α} {test other : α → Bool}
    (same : ∀ x ∈ list, test x = other x) : list.findIdx? test = list.findIdx? other := by
  induction list with
  | nil => rfl
  | cons x list ih =>
    rw [List.forall_mem_cons] at same
    rw [List.findIdx?_cons, List.findIdx?_cons, same.1, ih same.2]

namespace BuilderSketch

variable {wording : Wording} {builder : BuilderSketch} {names : List String}

theorem fill_push (known : ∀ element ∈ builder.opened, element.name ∈ names) {token : TokenSketch}
    (steady : token.Steady wording names) :
    (builder.push token).fill wording = (builder.fill wording).push (token.fill wording) := by
  cases token with
  | startTag name attributes selfClosing =>
    obtain ⟨same, -⟩ := steady
    have space (name : String) :
        (builder.fill wording).spaceFor name = builder.spaceFor name := by
      obtain ⟨opened, roots⟩ := builder
      cases opened <;> rfl
    simp only [push, TokenSketch.fill, Builder.push, same, space]
    split
    · rw [fill_append]
      rfl
    · rfl
  | endTag name =>
    have closes : (builder.fill wording).openElements.findIdx?
          (·.name == String.ofList (Sketch.fill wording name)) =
        builder.opened.findIdx? (·.name == String.ofList (Sketch.fill .placeholders name)) := by
      rw [fill, List.findIdx?_map]
      refine findIdx?_congr fun element member => ?_
      exact Bool.eq_iff_iff.mpr (by simpa [ElementSketch.fill] using steady _ (known element member))
    simp only [push, TokenSketch.fill, Builder.push, closes]
    cases builder.opened.findIdx?
        (·.name == String.ofList (Sketch.fill .placeholders name)) with
    | none => rfl
    | some inner => exact fill_closeMany _
  | text data => exact fill_edit (fill_appendText data)
  | comment data => exact fill_append (.comment data)
  | doctype | mistake => rfl

theorem known_edit (known : ∀ element ∈ builder.opened, element.name ∈ names)
    (change : List NodeSketch → List NodeSketch) :
    ∀ element ∈ (builder.edit change).opened, element.name ∈ names := by
  obtain ⟨opened, roots⟩ := builder
  cases opened with
  | nil => exact known
  | cons innermost outer =>
    rw [List.forall_mem_cons] at known
    exact List.forall_mem_cons.mpr known

theorem known_closeMany (known : ∀ element ∈ builder.opened, element.name ∈ names) (count : Nat) :
    ∀ element ∈ (builder.closeMany count).opened, element.name ∈ names := by
  induction count generalizing builder with
  | zero => exact known
  | succ count ih =>
    obtain ⟨opened, roots⟩ := builder
    cases opened with
    | nil => exact ih known
    | cons innermost outer => exact ih (known_edit (List.forall_mem_cons.mp known).2 _)

theorem known_push (known : ∀ element ∈ builder.opened, element.name ∈ names) {token : TokenSketch}
    (steady : token.Steady wording names) :
    ∀ element ∈ (builder.push token).opened, element.name ∈ names := by
  cases token with
  | startTag name attributes selfClosing =>
    unfold push
    dsimp only
    split
    · exact known_edit known _
    · exact List.forall_mem_cons.mpr ⟨steady.2, known⟩
  | endTag name =>
    unfold push
    dsimp only
    split
    · exact known_closeMany known _
    · exact known
  | text data => exact known_edit known _
  | comment data => exact known_edit known _
  | doctype | mistake => exact known

end BuilderSketch

/-- The forest sketch of a sequence of token sketches. -/
def ForestSketch.ofTokens (tokens : List TokenSketch) : ForestSketch :=
  (tokens.foldl BuilderSketch.push .empty).finish

theorem ForestSketch.fill_ofTokens {wording : Wording} {names : List String}
    {tokens : List TokenSketch} (steady : ∀ token ∈ tokens, token.Steady wording names) :
    fill wording (ofTokens tokens) = Forest.ofTokens (tokens.map (TokenSketch.fill wording)) := by
  have going (builder : BuilderSketch) (known : ∀ element ∈ builder.opened, element.name ∈ names) :
      (tokens.foldl BuilderSketch.push builder).fill wording =
        (tokens.map (TokenSketch.fill wording)).foldl Builder.push (builder.fill wording) := by
    induction tokens generalizing builder with
    | nil => rfl
    | cons token tokens ih =>
      rw [List.forall_mem_cons] at steady
      rw [List.foldl_cons, ih steady.2 _ (BuilderSketch.known_push known steady.1),
        BuilderSketch.fill_push known steady.1, List.map_cons, List.foldl_cons]
  rw [ofTokens, BuilderSketch.fill_finish, going .empty nofun]
  rfl

/-! ## What a forest sketch holds -/

/-- What is asked of attributes, and of texts and comments, of a token. -/
def TokenSketch.Fits (pairs : List PairSketch → Prop) (data : Sketch → Prop) : TokenSketch → Prop
  | startTag _ attributes _ => pairs attributes
  | text content | comment content => data content
  | _ => True

namespace BuilderSketch

variable {pairs : List PairSketch → Prop} {data : Sketch → Prop} {builder : BuilderSketch}

/-- What is asked is so of everything so far. -/
structure Every (pairs : List PairSketch → Prop) (data : Sketch → Prop) (builder : BuilderSketch) :
    Prop where
  roots : ForestSketch.Every pairs data builder.roots
  opened : ∀ element ∈ builder.opened,
    pairs element.attributes ∧ ForestSketch.Every pairs data element.children

theorem Every.edit (every : builder.Every pairs data)
    {change : List NodeSketch → List NodeSketch}
    (keeps : ∀ nodes, ForestSketch.Every pairs data nodes →
      ForestSketch.Every pairs data (change nodes)) : (builder.edit change).Every pairs data := by
  obtain ⟨opened, roots⟩ := builder
  cases opened with
  | nil => exact ⟨keeps _ every.roots, nofun⟩
  | cons innermost outer =>
    obtain ⟨inner, others⟩ := List.forall_mem_cons.mp every.opened
    exact ⟨every.roots, List.forall_mem_cons.mpr ⟨⟨inner.1, keeps _ inner.2⟩, others⟩⟩

theorem every_appendText (joins : ∀ first second, data first → data second → data (first ++ second))
    {text : Sketch} (fits : data text) {nodes : List NodeSketch}
    (every : ForestSketch.Every pairs data nodes) :
    ForestSketch.Every pairs data (appendText text nodes) := by
  unfold appendText
  split
  · exact every
  split
  · exact ⟨joins _ _ every.1 fits, every.2⟩
  · exact ⟨fits, every⟩

theorem every_close {element : ElementSketch} (fits : pairs element.attributes)
    (every : ForestSketch.Every pairs data element.children) : element.close.Every pairs data := by
  refine ⟨fits, ForestSketch.every_iff.mpr fun tree member => ?_⟩
  exact ForestSketch.every_iff.mp every tree (List.mem_reverse.mp member)

theorem Every.closeMany (every : builder.Every pairs data) (count : Nat) :
    (builder.closeMany count).Every pairs data := by
  induction count generalizing builder with
  | zero => exact every
  | succ count ih =>
    obtain ⟨opened, roots⟩ := builder
    cases opened with
    | nil => exact ih every
    | cons innermost outer =>
      obtain ⟨inner, others⟩ := List.forall_mem_cons.mp every.opened
      have outside : Every pairs data ⟨outer, roots⟩ := ⟨every.roots, others⟩
      exact ih (outside.edit fun nodes holds => ⟨every_close inner.1 inner.2, holds⟩)

theorem Every.push (joins : ∀ first second, data first → data second → data (first ++ second))
    (every : builder.Every pairs data) {token : TokenSketch} (fits : token.Fits pairs data) :
    (builder.push token).Every pairs data := by
  cases token with
  | startTag name attributes selfClosing =>
    unfold BuilderSketch.push
    dsimp only
    split
    · exact every.edit fun nodes holds => ⟨every_close fits trivial, holds⟩
    · exact ⟨every.roots, List.forall_mem_cons.mpr ⟨⟨fits, trivial⟩, every.opened⟩⟩
  | endTag name =>
    unfold BuilderSketch.push
    dsimp only
    split
    · exact every.closeMany _
    · exact every
  | text text => exact every.edit fun nodes holds => every_appendText joins fits holds
  | comment text => exact every.edit fun nodes holds => ⟨fits, holds⟩
  | doctype | mistake => exact every

end BuilderSketch

theorem ForestSketch.every_ofTokens {pairs : List PairSketch → Prop} {data : Sketch → Prop}
    (joins : ∀ first second, data first → data second → data (first ++ second))
    {tokens : List TokenSketch} (fits : ∀ token ∈ tokens, token.Fits pairs data) :
    ForestSketch.Every pairs data (ofTokens tokens) := by
  have going (builder : BuilderSketch) (every : builder.Every pairs data) :
      (tokens.foldl BuilderSketch.push builder).Every pairs data := by
    induction tokens generalizing builder with
    | nil => exact every
    | cons token tokens ih =>
      rw [List.forall_mem_cons] at fits
      exact ih fits.2 _ (every.push joins fits.1)
  have roots := ((going .empty ⟨trivial, nofun⟩).closeMany
    (tokens.foldl BuilderSketch.push .empty).opened.length).roots
  exact ForestSketch.every_iff.mpr fun tree member =>
    ForestSketch.every_iff.mp roots tree (List.mem_reverse.mp member)

end LiveMarkup
