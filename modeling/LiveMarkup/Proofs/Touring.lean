import LiveMarkup.Proofs.Confinement
import LiveMarkup.Proofs.Rewording

/-! # Forests keep the order of tokens

Whoever walks around a forest meets the start tags, the characters and the comments that it has been
built from, in their order, and the ends of elements where the end tags say.  `Forest.tour` is that
walk, `outline` tells from the tokens alone what is met on it, and `Forest.tour_ofTokens` says that
both are the same for all tokens, however badly they are nested, and with mistakes among them.

An element is put where it belongs when it ends only, possibly with many others.  So the invariant is
about the walk around what is built so far: it goes in from the outermost open element to the innermost
one, and a token makes it longer at its end (`Builder.tour_push`). -/

namespace LiveMarkup.Markup

/-! ## Walks -/

/-- What is met on a walk around a forest: the beginnings and the ends of elements, each character of a
text, and comments. -/
inductive Landmark where
  | opening (name : String) (attributes : List (String × String))
  | letter (char : Char)
  | comment (data : String)
  | closing (name : String)
  deriving DecidableEq, Repr

def Landmark.isClosing : Landmark → Bool
  | closing _ => true
  | _ => false

def lettersOf (data : String) : List Landmark :=
  data.toList.map .letter

mutual

def Node.tour : Node → List Landmark
  | .element name _ attributes children =>
    .opening name attributes :: (Forest.tour children ++ [.closing name])
  | .text data => lettersOf data
  | .comment data => [.comment data]

/-- What is met on the walk around sibling nodes and all below them. -/
def Forest.tour : List Node → List Landmark
  | [] => []
  | node :: rest => node.tour ++ Forest.tour rest

end

/-! ## Tokens -/

/-- The open elements that an end tag closes, where the innermost one is the first: all up to one of its
name, or none. -/
def closedBy (name : String) (opened : List String) : List String :=
  if name ∈ opened then opened.takeWhile (· != name) ++ [name] else []

/-- The open elements that an end tag leaves open. -/
def leftBy (name : String) (opened : List String) : List String :=
  if name ∈ opened then (opened.dropWhile (· != name)).tail else opened

/-- What is to be met on the walk around the forest of some tokens, if elements of the given names are
open already.  What is open behind the last token is closed there. -/
def outline (opened : List String) : List Token → List Landmark
  | [] => opened.map .closing
  | .startTag name attributes selfClosing :: rest =>
    .opening name (sortAttributes attributes) ::
      if selfClosing || isVoid name then .closing name :: outline opened rest
      else outline (name :: opened) rest
  | .endTag name :: rest =>
    (closedBy name opened).map .closing ++ outline (leftBy name opened) rest
  | .text data :: rest => lettersOf data ++ outline opened rest
  | .comment data :: rest => .comment data :: outline opened rest
  | .doctype :: rest | .mistake :: rest => outline opened rest

/-- What a token adds, apart from the ends of elements. -/
def Token.landmarks : Token → List Landmark
  | startTag name attributes _ => [.opening name (sortAttributes attributes)]
  | text data => lettersOf data
  | comment data => [.comment data]
  | endTag _ | doctype | mistake => []

theorem filter_lettersOf (data : String) :
    (lettersOf data).filter (!·.isClosing) = lettersOf data := by
  simp [lettersOf, Landmark.isClosing]

theorem filter_closings (names : List String) :
    (names.map Landmark.closing).filter (!·.isClosing) = [] := by
  simp [Landmark.isClosing]

/-- Between the ends of elements there is what the tokens add, one behind the other. -/
theorem filter_outline (opened : List String) (tokens : List Token) :
    (outline opened tokens).filter (!·.isClosing) = tokens.flatMap Token.landmarks := by
  induction tokens generalizing opened with
  | nil => exact filter_closings opened
  | cons token rest ih =>
    rw [List.flatMap_cons]
    cases token with
    | startTag name attributes selfClosing =>
      rw [outline, Token.landmarks, List.filter_cons_of_pos rfl]
      split
      · rw [List.filter_cons_of_neg (by simp [Landmark.isClosing]), ih, List.singleton_append]
      · rw [ih, List.singleton_append]
    | endTag name =>
      rw [outline, List.filter_append, filter_closings, ih]
      rfl
    | text data =>
      rw [outline, List.filter_append, filter_lettersOf, ih]
      rfl
    | comment data =>
      rw [outline, List.filter_cons_of_pos rfl, ih]
      rfl
    | doctype | mistake =>
      rw [outline, ih]
      rfl

/-- An end tag closes as many elements as there are up to the first of its name. -/
theorem closedBy_of_findIdx? {name : String} {opened : List String} {inner : Nat}
    (found : opened.findIdx? (· == name) = some inner) :
    closedBy name opened = opened.take (inner + 1) ∧
      leftBy name opened = opened.drop (inner + 1) := by
  induction opened generalizing inner with
  | nil => cases found
  | cons other outer ih =>
    rw [List.findIdx?_cons] at found
    by_cases same : other = name
    · obtain rfl : inner = 0 := by simpa [same, eq_comm] using found
      simp [closedBy, leftBy, same]
    · rw [beq_false_of_ne same] at found
      obtain ⟨further, there, rfl⟩ := Option.map_eq_some_iff.mp found
      -- The one of that name is further out, and so this one is closed with it.
      have member : name ∈ outer := by
        have among : outer.any (· == name) = true := by rw [← List.findIdx?_isSome, there]; rfl
        simpa using among
      have ⟨closed, left⟩ := ih there
      simp only [closedBy, leftBy, if_pos member] at closed left
      simp [closedBy, leftBy, member, same, closed, left]

/-- A stray end tag closes nothing. -/
theorem closedBy_of_notMem {name : String} {opened : List String} (absent : name ∉ opened) :
    closedBy name opened = [] ∧ leftBy name opened = opened :=
  ⟨if_neg absent, if_neg absent⟩

/-! ## Parts of walks -/

theorem Forest.tour_append (first second : Forest) :
    Forest.tour (first ++ second) = Forest.tour first ++ Forest.tour second := by
  induction first with
  | nil => rfl
  | cons node rest ih => rw [List.cons_append, Forest.tour, Forest.tour, ih, List.append_assoc]

theorem Forest.tour_concat (nodes : Forest) (node : Node) :
    Forest.tour (node :: nodes).reverse = Forest.tour nodes.reverse ++ node.tour := by
  rw [List.reverse_cons, Forest.tour_append, Forest.tour, Forest.tour, List.append_nil]

namespace Builder

variable {builder : Builder}

theorem tour_appendText (data : String) (nodes : List Node) :
    Forest.tour (appendText data nodes).reverse =
      Forest.tour nodes.reverse ++ lettersOf data := by
  unfold appendText
  split
  · next empty => simp [empty, lettersOf]
  split
  · next before rest =>
    rw [Forest.tour_concat, Forest.tour_concat]
    simp [Node.tour, lettersOf]
  · exact Forest.tour_concat nodes (.text data)

/-- The walk to the innermost of the open elements, past all that is finished. -/
def tourOpen : List OpenElement → List Landmark
  | [] => []
  | innermost :: outer =>
    tourOpen outer ++
      .opening innermost.name innermost.attributes :: Forest.tour innermost.children.reverse

/-- The walk around what is built so far. -/
def tour (builder : Builder) : List Landmark :=
  Forest.tour builder.roots.reverse ++ tourOpen builder.openElements

theorem tour_edit {change : List Node → List Node} {added : List Landmark}
    (adds : ∀ nodes, Forest.tour (change nodes).reverse = Forest.tour nodes.reverse ++ added) :
    (builder.edit change).tour = builder.tour ++ added := by
  obtain ⟨opened, roots⟩ := builder
  cases opened with
  | nil => simp [tour, edit, tourOpen, adds]
  | cons innermost outer => simp [tour, edit, tourOpen, adds]

theorem tour_append (node : Node) : (builder.append node).tour = builder.tour ++ node.tour :=
  tour_edit fun nodes => Forest.tour_concat nodes node

theorem tour_closeInnermost :
    builder.closeInnermost.tour = builder.tour ++ (builder.names.take 1).map .closing := by
  obtain ⟨opened, roots⟩ := builder
  cases opened with
  | nil => simp [closeInnermost, names]
  | cons innermost outer =>
    rw [closeInnermost, tour_append]
    simp [tour, tourOpen, names, OpenElement.close, Node.tour]

theorem tour_closeMany (count : Nat) :
    (builder.closeMany count).tour = builder.tour ++ (builder.names.take count).map .closing := by
  induction count generalizing builder with
  | zero => simp [closeMany]
  | succ count ih =>
    have names : builder.closeInnermost.names = builder.names.drop 1 := names_closeMany 1
    rw [closeMany, ih, tour_closeInnermost, names, List.append_assoc, ← List.map_append,
      Nat.add_comm, List.take_add]

/-- A token makes the walk longer by what it stands for. -/
theorem tour_push (token : Token) (rest : List Token) :
    (builder.push token).tour ++ outline (builder.push token).names rest =
      builder.tour ++ outline builder.names (token :: rest) := by
  cases token with
  | startTag name attributes selfClosing =>
    rw [names_startTag, outline, push]
    split
    · rw [tour_append]
      simp [OpenElement.close, Node.tour, Forest.tour]
    · simp [tour, tourOpen, Forest.tour]
  | endTag name =>
    rw [outline, push]
    -- The builder looks for an element of that name, and the outline for the name.
    have same : builder.openElements.findIdx? (·.name == name) =
        builder.names.findIdx? (· == name) := by
      rw [names, List.findIdx?_map]
      rfl
    rw [same]
    split
    · next inner found =>
      obtain ⟨closed, left⟩ := closedBy_of_findIdx? found
      rw [tour_closeMany, names_closeMany, closed, left, List.append_assoc]
    · next none =>
      have absent : name ∉ builder.names := by
        intro member
        simpa using List.findIdx?_eq_none_iff.mp none name member
      obtain ⟨closed, left⟩ := closedBy_of_notMem absent
      rw [closed, left]
      rfl
  | text data =>
    rw [outline, names_push_of_not_isTag rfl, push, tour_edit (tour_appendText data),
      List.append_assoc]
  | comment data =>
    rw [outline, names_push_of_not_isTag rfl, push, tour_append, List.append_assoc]
    rfl
  | doctype | mistake => rfl

theorem tour_finish : Forest.tour builder.finish = builder.tour ++ builder.names.map .closing := by
  have all : builder.openElements.length = builder.names.length := (List.length_map _).symm
  have closed : (builder.closeMany builder.openElements.length).openElements = [] := by
    apply List.map_eq_nil_iff.mp
    show (builder.closeMany builder.openElements.length).names = []
    rw [names_closeMany, all, List.drop_length]
  calc Forest.tour builder.finish
      = (builder.closeMany builder.openElements.length).tour := by
        simp [finish, tour, closed, tourOpen]
    _ = builder.tour ++ builder.names.map .closing := by
        rw [tour_closeMany, all, List.take_length]

/-- All tokens together make the walk longer by what they stand for. -/
theorem tour_foldl_push (tokens : List Token) :
    Forest.tour (tokens.foldl push builder).finish =
      builder.tour ++ outline builder.names tokens := by
  induction tokens generalizing builder with
  | nil => exact tour_finish
  | cons token rest ih => rw [List.foldl_cons, ih, tour_push]

end Builder

/-- On the walk around the forest of some tokens, everything is met that they stand for, in their order,
and each end of an element where the tokens put it.  Each stretch of text is one text, and an element
has the first of all attributes with one name. -/
theorem Forest.tour_ofTokens (tokens : List Token) :
    Forest.tour (ofTokens tokens) = outline [] tokens ∧
      (Forest.tour (ofTokens tokens)).filter (!·.isClosing) = tokens.flatMap Token.landmarks ∧
      Settled (ofTokens tokens) ∧
      ∀ attributes, Sorted (sortAttributes attributes) ∧
        ∀ pair, pair ∈ sortAttributes attributes ↔
          attributes.find? (fun other => other.1 = pair.1) = some pair := by
  have whole : Forest.tour (ofTokens tokens) = outline [] tokens := Builder.tour_foldl_push tokens
  have joined : Settled (ofTokens tokens) := settled_ofTokens tokens
  refine ⟨whole, ?_, joined, fun attributes => ⟨sorted_sortAttributes attributes, ?_⟩⟩
  · rw [whole, filter_outline]
  · exact fun pair => mem_sortAttributes_iff

/-- An end tag closes what has been opened inside its element, and a stray one closes nothing. -/
example : Forest.ofTokens [.startTag "p" [] false, .startTag "b" [] false, .text "x", .endTag "i",
      .text "y", .endTag "p", .comment "z"] =
    [.element "p" none [] [.element "b" none [] [.text "xy"]], .comment "z"] := by
  decide +kernel

end LiveMarkup.Markup
