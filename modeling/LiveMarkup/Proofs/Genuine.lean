import LiveMarkup.Proofs.Building
import LiveMarkup.Proofs.Rewording
import Mathlib.Algebra.Order.BigOperators.Group.List
import Mathlib.Algebra.Order.Group.Nat
import Mathlib.Algebra.Order.Ring.Nat
import Mathlib.Data.List.Find

/-! # Values where their author wrote them

A blueprint with words in its parts is what the markup with these words in it is parsed to, provided
that the markup spells no placeholder by itself (`parse_joinWith_iff`).  It can spell one by
character references, and if a real placeholder gets lost at the same time, for instance in a
repeated attribute, the spelled one takes its place.

If nothing but holes makes a placeholder in the forest, each hole is in a text or a value
(`mem_known_of_inOrder`), hence none is in a name, and then words make no difference to how the
tokens are nested. -/

namespace LiveMarkup

open Markup Placeholder

-- The forest of a text that is not known is never worked out.
attribute [local irreducible] Forest.parse

/-! ## What holes a token shows -/

namespace TokenSketch

/-- The holes in texts, comments and values. -/
def shown : TokenSketch → List Nat
  | startTag _ attributes _ => attributes.flatMap fun pair => Sketch.holes pair.2
  | text data | comment data => Sketch.holes data
  | endTag _ | doctype | mistake => []

/-- The holes in names. -/
def hidden : TokenSketch → List Nat
  | startTag name attributes _ => Sketch.holes name ++ attributes.flatMap fun pair => Sketch.holes pair.1
  | endTag name => Sketch.holes name
  | text _ | comment _ | doctype | mistake => []

theorem count_holes (token : TokenSketch) (index : Nat) :
    token.holes.count index = token.shown.count index + token.hidden.count index := by
  cases token with
  | startTag name attributes selfClosing =>
    have pairs : (attributes.flatMap PairSketch.holes).count index =
        (attributes.flatMap fun pair => Sketch.holes pair.2).count index +
          (attributes.flatMap fun pair => Sketch.holes pair.1).count index := by
      induction attributes with
      | nil => rfl
      | cons pair attributes ih =>
        simp only [List.flatMap_cons, List.count_append, PairSketch.holes, ih]
        omega
    simp only [holes, shown, hidden, List.count_append, pairs]
    omega
  | _ => simp [holes, shown, hidden]

theorem count_flatMap_holes (tokens : List TokenSketch) (index : Nat) :
    (tokens.flatMap holes).count index =
      (tokens.flatMap shown).count index + (tokens.flatMap hidden).count index := by
  induction tokens with
  | nil => rfl
  | cons token tokens ih =>
    simp only [List.flatMap_cons, List.count_append, count_holes, ih]
    omega

/-- If every hole is shown, no name has one. -/
theorem hidden_eq_nil {tokens : List TokenSketch} {size : Nat}
    (within : Within (tokens.flatMap holes) (List.range size))
    (shows_ : ∀ index < size, index ∈ tokens.flatMap shown) :
    ∀ token ∈ tokens, token.hidden = [] := by
  have none : tokens.flatMap hidden = [] := by
    refine List.eq_nil_iff_forall_not_mem.mpr fun index member => ?_
    have most := within index
    rw [count_flatMap_holes] at most
    have least := List.count_pos_iff.mpr member
    by_cases small : index < size
    · have once : (List.range size).count index ≤ 1 := List.nodup_iff_count_le_one.mp
        List.nodup_range index
      have first := List.count_pos_iff.mpr (shows_ index small)
      omega
    · have never : (List.range size).count index = 0 :=
        List.count_eq_zero.mpr fun listed => small (List.mem_range.mp listed)
      omega
  exact List.flatMap_eq_nil_iff.mp none

end TokenSketch

/-! ## What a survey has seen -/

/-- Nothing but texts and whole values has a placeholder in it, apart from the names of attributes
with such values. -/
def surveyed : NodeSpec where
  element name attributes := occursIn name.toList = false ∧
    ∀ pair ∈ attributes, index? pair.2.toList = none → occursIn pair.2.toList = false
  comment data := occursIn data.toList = false

theorem Stencil.Cut.every_surveyed {next : Nat} {forest : Forest} {stencil : Stencil}
    (cut : Stencil.Cut next forest stencil) : Forest.Every surveyed forest := by
  induction cut with
  | done => trivial
  | element named clean marked spelled inside after ihInside ihAfter =>
    refine ⟨⟨⟨named, fun pair member none => ?_⟩, ihInside⟩, ihAfter⟩
    exact (clean pair (List.mem_filter.mpr ⟨member, by rw [none]; rfl⟩)).2
  | text absent after ih => exact ⟨trivial, ih⟩
  | pieces found order after ih => exact ⟨trivial, ih⟩
  | comment absent after ih => exact ⟨absent, ih⟩

/-! ## Placeholders are holes -/

section

variable {size : Nat} {known : List Nat}

/-- The names of the attributes are short, and the holes in their values are known. -/
def KnownPairs (size : Nat) (known : List Nat) (attributes : List PairSketch) : Prop :=
  ∀ pair ∈ attributes, pair.1.length ≤ size ∧ ∀ index ∈ Sketch.holes pair.2, index ∈ known

def KnownText (known : List Nat) (data : Sketch) : Prop :=
  ∀ index ∈ Sketch.holes data, index ∈ known

variable (small : ∀ index ∈ known, index < bound)

include small

/-- If long words leave no placeholder in the attributes, a value that is one is a hole. -/
theorem mem_known_of_value {attributes : List PairSketch} (pairs : KnownPairs size known attributes)
    (unmarked : ∀ pair ∈ sortAttributes (attributes.map (PairSketch.fill (.long size))),
      index? pair.2.toList = none)
    {pair : String × String}
    (member : pair ∈ sortAttributes (attributes.map (PairSketch.fill .placeholders)))
    {index : Nat} (found : index? pair.2.toList = some index) : index ∈ known := by
  obtain ⟨sketch, first, rfl⟩ := mem_sortAttributes_map_iff.mp member
  have listed := List.mem_of_find?_eq_some first
  -- An attribute that counts among those with placeholders also counts among those with long words.
  have kept : sketch.fill (.long size) ∈
      sortAttributes (attributes.map (PairSketch.fill (.long size))) := by
    refine mem_sortAttributes_map_iff.mpr ⟨sketch, ?_, rfl⟩
    obtain ⟨-, before, behind, rfl, others⟩ := List.find?_eq_some_iff_append.mp first
    refine List.find?_eq_some_iff_append.mpr ⟨by simp, before, behind, rfl, fun other earlier => ?_⟩
    have apart := others other earlier
    simp only [Bool.not_eq_true', decide_eq_false_iff_not] at apart ⊢
    intro same
    rw [PairSketch.fill, PairSketch.fill, String.ofList_inj] at same
    apply apart
    rw [PairSketch.fill, PairSketch.fill, Sketch.fill_long_injective
      (pairs other (List.mem_append_left _ earlier)).1 (pairs sketch listed).1 same]
  have none := unmarked _ kept
  simp only [PairSketch.fill, String.toList_ofList] at found none
  have hole := Sketch.eq_hole_of_index?_fill
    (fun index member => small index ((pairs sketch listed).2 index member)) found none
  exact (pairs sketch listed).2 index (by simp [hole])

/-- If long words leave no placeholder in a forest, then with placeholders in it there are only
known ones. -/
theorem mem_known_of_inOrder (forest : ForestSketch)
    (every : ForestSketch.Every (KnownPairs size known) (KnownText known) forest)
    (unmarked : Forest.Unmarked (ForestSketch.fill (.long size) forest)) {indices : List Nat}
    (order : InOrder (ForestSketch.fill .placeholders forest) indices) :
    ∀ index ∈ indices, index ∈ known :=
  match forest with
  | [] => by
    cases order
    nofun
  | .element name space attributes children :: rest => by
    obtain ⟨⟨pairs, below⟩, behind⟩ := every
    obtain ⟨⟨plain, plainBelow⟩, plainBehind⟩ := unmarked
    cases order with
    | element own inside after =>
      intro index member
      rw [List.mem_append, List.mem_append] at member
      obtain (member | member) | member := member
      · obtain ⟨pair, listed, found⟩ := List.mem_filterMap.mp (own.mem_iff.mpr member)
        exact mem_known_of_value small pairs plain listed found
      · exact mem_known_of_inOrder children below plainBelow inside index member
      · exact mem_known_of_inOrder rest behind plainBehind after index member
  | .text data :: rest => by
    cases order with
    | text after =>
      intro index member
      obtain member | member := List.mem_append.mp member
      · have plain : Plain (String.ofList (Sketch.fill (.long size) data)).toList := unmarked.1
        rw [String.toList_ofList] at plain member
        rw [(Sketch.split_fill (fun hole member => small hole (every.1 hole member)) plain).1] at member
        exact every.1 index member
      · exact mem_known_of_inOrder rest every.2 unmarked.2 after index member
  | .comment data :: rest => by
    cases order with
    | comment after => exact mem_known_of_inOrder rest every.2 unmarked.2 after

end

/-! ## Words in a forest sketch -/

theorem Sketch.fill_eq_of_not_occursIn {sketch : Sketch} {wording : Wording}
    (absent : occursIn (Sketch.fill .placeholders sketch) = false) :
    Sketch.fill wording sketch = Sketch.fill .placeholders sketch :=
  fill_of_holes_eq_nil (holes_eq_nil absent)

/-- The names of the attributes have no holes, and the holes in their values are known. -/
def NamedPairs (known : List Nat) (attributes : List PairSketch) : Prop :=
  ∀ pair ∈ attributes, Sketch.holes pair.1 = [] ∧ ∀ index ∈ Sketch.holes pair.2, index ∈ known

/-- Words in the values do not matter for which attributes count. -/
theorem NamedPairs.find?_congr {known : List Nat} {attributes : List PairSketch}
    (named : NamedPairs known attributes) {wording other : Wording} {pair : PairSketch}
    (member : pair ∈ attributes) :
    (attributes.find? fun earlier => (earlier.fill wording).1 = (pair.fill wording).1) =
      attributes.find? fun earlier => (earlier.fill other).1 = (pair.fill other).1 := by
  have name (listed : PairSketch) (isListed : listed ∈ attributes) :
      (listed.fill wording).1 = (listed.fill other).1 := by
    have same : Sketch.fill wording listed.1 = Sketch.fill other listed.1 :=
      Sketch.fill_of_holes_eq_nil (named listed isListed).1
    rw [PairSketch.fill, PairSketch.fill, same]
  refine List.find?_congr fun earlier isListed => ?_
  rw [name earlier isListed, name pair member]

section

variable {size : Nat} {known : List Nat} (small : ∀ index ∈ known, index < bound)

include small

/-- Writing words for placeholders in a value is filling its sketch with the words. -/
theorem rewriteValue_fill {value : Sketch} (holes : ∀ index ∈ Sketch.holes value, index ∈ known)
    (unmarked : index? (Sketch.fill (.long size) value) = none)
    (whole : index? (Sketch.fill .placeholders value) = none →
      occursIn (Sketch.fill .placeholders value) = false) (wording : Wording) :
    rewriteValue wording.word (String.ofList (Sketch.fill .placeholders value)) =
      String.ofList (Sketch.fill wording value) := by
  unfold rewriteValue
  rw [String.toList_ofList]
  cases found : index? (Sketch.fill .placeholders value) with
  | none => exact congrArg String.ofList (Sketch.fill_eq_of_not_occursIn (whole found)).symm
  | some index =>
    have hole := Sketch.eq_hole_of_index?_fill
      (fun index member => small index (holes index member)) found unmarked
    simp [hole]

/-- The same for the attributes of an element. -/
theorem map_rewriteValue_fill {attributes : List PairSketch} (named : NamedPairs known attributes)
    (unmarked : ∀ pair ∈ sortAttributes (attributes.map (PairSketch.fill (.long size))),
      index? pair.2.toList = none)
    (whole : ∀ pair ∈ sortAttributes (attributes.map (PairSketch.fill .placeholders)),
      index? pair.2.toList = none → occursIn pair.2.toList = false) (wording : Wording) :
    ((sortAttributes (attributes.map (PairSketch.fill .placeholders))).map fun pair =>
        (pair.1, rewriteValue wording.word pair.2)) =
      sortAttributes (attributes.map (PairSketch.fill wording)) := by
  -- Each attribute that counts is rewritten to the one with the words.
  have rewritten (sketch : PairSketch) (member : sketch ∈ attributes)
      (counts : attributes.find? (fun other =>
        (other.fill .placeholders).1 = (sketch.fill .placeholders).1) = some sketch) :
      ((sketch.fill .placeholders).1, rewriteValue wording.word (sketch.fill .placeholders).2) =
        sketch.fill wording := by
    have plain := unmarked _ (mem_sortAttributes_map_iff.mpr
      ⟨sketch, (named.find?_congr member).trans counts, rfl⟩)
    have clean := whole _ (mem_sortAttributes_map_iff.mpr ⟨sketch, counts, rfl⟩)
    simp only [PairSketch.fill, String.toList_ofList] at plain clean ⊢
    rw [rewriteValue_fill small (named sketch member).2 plain clean,
      Sketch.fill_of_holes_eq_nil (named sketch member).1]
  have sorted : Sorted ((sortAttributes (attributes.map (PairSketch.fill .placeholders))).map
      fun pair => (pair.1, rewriteValue wording.word pair.2)) := by
    simpa [Sorted, Function.comp_def] using
      sorted_sortAttributes (attributes.map (PairSketch.fill .placeholders))
  refine sorted.ext (sorted_sortAttributes _) fun pair => ?_
  rw [List.mem_map, mem_sortAttributes_map_iff]
  constructor
  · rintro ⟨pair, member, rfl⟩
    obtain ⟨sketch, counts, rfl⟩ := mem_sortAttributes_map_iff.mp member
    have listed := List.mem_of_find?_eq_some counts
    exact ⟨sketch, (named.find?_congr listed).trans counts, (rewritten sketch listed counts).symm⟩
  · rintro ⟨sketch, counts, rfl⟩
    have listed := List.mem_of_find?_eq_some counts
    have again : attributes.find? (fun other =>
        (other.fill .placeholders).1 = (sketch.fill .placeholders).1) = some sketch :=
      (named.find?_congr listed).trans counts
    exact ⟨_, mem_sortAttributes_map_iff.mpr ⟨sketch, again, rfl⟩, rewritten sketch listed again⟩

/-- The same for a forest that holds no placeholders but its holes. -/
theorem rewriteForest_fill (forest : ForestSketch)
    (every : ForestSketch.Every (NamedPairs known) (KnownText known) forest)
    (unmarked : Forest.Unmarked (ForestSketch.fill (.long size) forest))
    (clean : Forest.Every surveyed (ForestSketch.fill .placeholders forest)) (wording : Wording) :
    rewriteForest wording.word (ForestSketch.fill .placeholders forest) =
      ForestSketch.fill wording forest :=
  match forest with
  | [] => rfl
  | .element name space attributes children :: rest => by
    have pairs := map_rewriteValue_fill small every.1.1 unmarked.1.1 clean.1.1.2 wording
    have below := rewriteForest_fill children every.1.2 unmarked.1.2 clean.1.2 wording
    have behind := rewriteForest_fill rest every.2 unmarked.2 clean.2 wording
    simp only [ForestSketch.fill, NodeSketch.fill, rewriteForest, rewriteNode, pairs, below, behind]
  | .text data :: rest => by
    have plain : Plain (String.ofList (Sketch.fill (.long size) data)).toList := unmarked.1
    rw [String.toList_ofList] at plain
    have text := (Sketch.split_fill (fun hole member => small hole (every.1 hole member)) plain).2
      wording
    have behind := rewriteForest_fill rest every.2 unmarked.2 clean.2 wording
    simp only [ForestSketch.fill, NodeSketch.fill, rewriteForest, rewriteNode, rewriteText,
      String.toList_ofList, text, behind]
  | .comment data :: rest => by
    have absent : occursIn (String.ofList (Sketch.fill .placeholders data)).toList = false := clean.1
    rw [String.toList_ofList] at absent
    have behind := rewriteForest_fill rest every.2 unmarked.2 clean.2 wording
    simp only [ForestSketch.fill, NodeSketch.fill, rewriteForest, rewriteNode,
      Sketch.fill_eq_of_not_occursIn absent, behind]

end

/-! ## Markup with words -/

/-- What is asked can be asked less strictly. -/
theorem Markup.Forest.Every.imp {spec weaker : NodeSpec} {forest : Forest}
    (every : Forest.Every spec forest)
    (element : ∀ name attributes, spec.element name attributes → weaker.element name attributes)
    (text : ∀ data, spec.text data → weaker.text data)
    (comment : ∀ data, spec.comment data → weaker.comment data) : Forest.Every weaker forest :=
  match forest with
  | [] => trivial
  | .element _ _ _ _ :: _ =>
    ⟨⟨element _ _ every.1.1, imp every.1.2 element text comment⟩, imp every.2 element text comment⟩
  | .text _ :: _ => ⟨text _ every.1, imp every.2 element text comment⟩
  | .comment _ :: _ => ⟨comment _ every.1, imp every.2 element text comment⟩

/-- Words, as what is written into a sketch. -/
def Wording.ofWords (word : Nat → List Char) (words : ∀ index, IsWord (word index)) : Wording where
  word := word
  proper index := by
    obtain ⟨letters, -, lower, word⟩ := words index
    refine ⟨_, word, .of_forall fun c member => ?_⟩
    obtain member | member := List.mem_append.mp member
    · simp [isCalm, lower c member]
    · rw [List.mem_singleton.mp member]
      rfl

theorem Wording.isWord_long (size index : Nat) : IsWord ((Wording.long (size + 1)).word index) := by
  refine ⟨List.replicate (size + 1 + index) 'a', ?_, fun c member => ?_, rfl⟩
  · rw [Nat.add_right_comm]
    exact List.cons_ne_nil _ _
  · rw [List.eq_of_mem_replicate member]
    rfl

namespace TokenSketch

/-- The name of a start tag, with placeholders. -/
def startName? : TokenSketch → Option String
  | startTag name _ _ => some (String.ofList (Sketch.fill .placeholders name))
  | _ => none

/-- A bound of the lengths of the names. -/
def width : TokenSketch → Nat
  | startTag name attributes _ => name.length + (attributes.map fun pair => pair.1.length).sum
  | endTag name => name.length
  | text _ | comment _ | doctype | mistake => 0

variable {tokens : List TokenSketch}

theorem mem_startNames {name : Sketch} {attributes : List PairSketch} {selfClosing : Bool}
    (member : startTag name attributes selfClosing ∈ tokens) :
    String.ofList (Sketch.fill .placeholders name) ∈ tokens.filterMap startName? :=
  List.mem_filterMap.mpr ⟨_, member, rfl⟩

/-- If no start tag has a hole in its name, longer words than the names of end tags make no
difference to what is closed. -/
theorem steady_long {size : Nat} (short : ∀ token ∈ tokens, token.width ≤ size)
    (clean : ∀ known ∈ tokens.filterMap startName?, occursIn known.toList = false) :
    ∀ token ∈ tokens, token.Steady (.long size) (tokens.filterMap startName?) := by
  intro token member
  cases token with
  | startTag name attributes selfClosing =>
    have listed := mem_startNames member
    have absent := clean _ listed
    rw [String.toList_ofList] at absent
    exact ⟨Sketch.fill_eq_of_not_occursIn absent, listed⟩
  | endTag name =>
    intro known isKnown
    have absent := clean known isKnown
    obtain ⟨opener, isOpener, named⟩ := List.mem_filterMap.mp isKnown
    cases opener with
    | startTag first attributes selfClosing =>
      obtain rfl := Option.some.inj named
      rw [String.toList_ofList] at absent
      have shortFirst := short _ isOpener
      have shortName := short _ member
      simp only [width] at shortFirst shortName
      rw [String.ofList_inj, String.ofList_inj]
      constructor
      · intro same
        rw [← Sketch.fill_eq_of_not_occursIn absent] at same
        rw [Sketch.fill_long_injective (by omega) shortName same]
      · intro same
        have whole := absent
        rw [same] at whole
        rw [same]
        exact (Sketch.fill_eq_of_not_occursIn whole).symm
    | _ => cases named
  | _ => trivial

/-- If no name has a hole in it, no words make a difference to what is closed. -/
theorem steady_of_hidden_eq_nil (shows_ : ∀ token ∈ tokens, token.hidden = []) (wording : Wording) :
    ∀ token ∈ tokens, token.Steady wording (tokens.filterMap startName?) := by
  intro token member
  have whole := shows_ token member
  cases token with
  | startTag name attributes selfClosing =>
    exact ⟨Sketch.fill_of_holes_eq_nil (List.append_eq_nil_iff.mp whole).1, mem_startNames member⟩
  | endTag name =>
    intro known isKnown
    have same : Sketch.fill wording name = Sketch.fill .placeholders name :=
      Sketch.fill_of_holes_eq_nil whole
    rw [same]
  | _ => trivial

/-- What is shown is known. -/
theorem fits_shown {size : Nat} (short : ∀ token ∈ tokens, token.width ≤ size) :
    ∀ token ∈ tokens,
      token.Fits (KnownPairs size (tokens.flatMap shown)) (KnownText (tokens.flatMap shown)) := by
  intro token member
  cases token with
  | startTag name attributes selfClosing =>
    intro pair listed
    have least : pair.1.length ≤ (attributes.map fun pair => pair.1.length).sum :=
      List.le_sum_of_mem (List.mem_map_of_mem listed)
    have most := short _ member
    simp only [width] at most
    refine ⟨by omega, fun index hole => List.mem_flatMap.mpr ⟨_, member, ?_⟩⟩
    exact List.mem_flatMap.mpr ⟨pair, listed, hole⟩
  | text data | comment data => exact fun index hole => List.mem_flatMap.mpr ⟨_, member, hole⟩
  | _ => trivial

/-- If no name has a hole in it, attributes are named without holes. -/
theorem fits_named {known : List Nat} (fits : ∀ token ∈ tokens,
      ∃ size, token.Fits (KnownPairs size known) (KnownText known))
    (shows_ : ∀ token ∈ tokens, token.hidden = []) :
    ∀ token ∈ tokens, token.Fits (NamedPairs known) (KnownText known) := by
  intro token member
  obtain ⟨size, fits⟩ := fits token member
  have whole := shows_ token member
  cases token with
  | startTag name attributes selfClosing =>
    have names := List.flatMap_eq_nil_iff.mp (List.append_eq_nil_iff.mp whole).2
    exact fun pair listed => ⟨names pair listed, (fits pair listed).2⟩
  | text data | comment data => exact fits
  | _ => trivial

end TokenSketch

theorem KnownText.append {known : List Nat} {first second : Sketch} (front : KnownText known first)
    (back : KnownText known second) : KnownText known (first ++ second) := by
  intro index hole
  rw [Sketch.holes_append] at hole
  exact (List.mem_append.mp hole).elim (front index) (back index)

/-- If the placeholders of a literal come in order in its forest, and words leave no placeholder in its
markup, the words come where the placeholders have been. -/
theorem parse_joinWith_of_inOrder {segments : List String}
    (order : InOrder (Forest.parse (join segments)) (List.range (segments.length - 1)))
    (clean : Forest.Every surveyed (Forest.parse (join segments)))
    (unmarked : ∀ size, Forest.Unmarked (Forest.parse (joinWith (Wording.long (size + 1)).word segments)))
    (wording : Wording) :
    Forest.parse (joinWith wording.word segments) =
      rewriteForest wording.word (Forest.parse (join segments)) := by
  obtain ⟨tokens, read, within⟩ := exists_tokens segments
  have original := read .placeholders
  rw [show Wording.placeholders.word = chars from rfl, joinWith_chars] at original
  -- The start tags that are found have names without placeholders.
  have named : ∀ known ∈ tokens.filterMap TokenSketch.startName?, occursIn known.toList = false := by
    have elements : Forest.Every { element := fun name _ => occursIn name.toList = false } _ :=
      clean.imp (fun _ _ holds => holds.1) (fun _ _ => trivial) fun _ _ => trivial
    rw [original, Forest.every_ofTokens] at elements
    intro known isKnown
    obtain ⟨opener, isOpener, name⟩ := List.mem_filterMap.mp isKnown
    cases opener with
    | startTag => exact Option.some.inj name ▸ elements _ (List.mem_map_of_mem isOpener)
    | _ => cases name
  have short : ∀ token ∈ tokens, token.width ≤ (tokens.map TokenSketch.width).sum + 1 :=
    fun token member => (List.le_sum_of_mem (List.mem_map_of_mem member)).trans (Nat.le_succ _)
  have fits := TokenSketch.fits_shown short
  have joins (first second : Sketch) : KnownText (tokens.flatMap TokenSketch.shown) first →
      KnownText (tokens.flatMap TokenSketch.shown) second → _ := KnownText.append
  have small : ∀ index ∈ tokens.flatMap TokenSketch.shown, index < bound := by
    intro index member
    apply order.lt_bound
    have positive := List.count_pos_iff.mpr member
    have most := within index
    rw [TokenSketch.count_flatMap_holes] at most
    exact List.count_pos_iff.mp (by omega)
  -- With long words and with placeholders, the tokens nest alike, and so all holes are shown.
  have long := unmarked (tokens.map TokenSketch.width).sum
  rw [read, ← ForestSketch.fill_ofTokens (TokenSketch.steady_long short named)] at long
  have steady (token : TokenSketch) (member : token ∈ tokens) :
      token.Steady .placeholders (tokens.filterMap TokenSketch.startName?) := by
    cases token with
    | startTag => exact ⟨rfl, TokenSketch.mem_startNames member⟩
    | endTag => exact fun _ _ => Iff.rfl
    | _ => trivial
  rw [original, ← ForestSketch.fill_ofTokens steady] at order clean
  have known := mem_known_of_inOrder small _ (ForestSketch.every_ofTokens joins fits) long order
  have whole := TokenSketch.hidden_eq_nil within fun index less =>
    known index (List.mem_range.mpr less)
  -- Hence no name has a hole, and any words nest alike.
  have every := ForestSketch.every_ofTokens joins <|
    TokenSketch.fits_named (fun token member => ⟨_, fits token member⟩) whole
  rw [original, read, ← ForestSketch.fill_ofTokens steady,
    ← ForestSketch.fill_ofTokens (TokenSketch.steady_of_hidden_eq_nil whole wording)]
  exact (rewriteForest_fill small _ every long clean wording).symm

/-- If words leave no placeholder in the markup of a literal that compiles, they come where the
placeholders have been. -/
theorem parse_joinWith_of_unmarked {segments : List String} {blueprint : Blueprint}
    (compiled : Blueprint.compile .standard segments = .ok blueprint)
    (unmarked : ∀ size, Forest.Unmarked (Forest.parse (joinWith (Wording.long (size + 1)).word segments)))
    (wording : Wording) :
    Forest.parse (joinWith wording.word segments) =
      rewriteForest wording.word (Forest.parse (join segments)) := by
  obtain ⟨forest, stencil, placed, parsed, rfl, cut⟩ := Blueprint.compile_eq_ok compiled
  obtain rfl : Forest.parse (join segments) = forest := Except.ok.inj parsed
  have size : segments.length - 1 = stencil.count := by
    have lengths := length_positions placed
    rw [List.length_map, show stencil.blueprint.parts.length = stencil.count from
      Stencil.length_partsAt stencil [] 0] at lengths
    omega
  have order := cut.inOrder
  rw [← List.range_eq_range', ← size] at order
  exact parse_joinWith_of_inOrder order cut.every_surveyed unmarked wording

/-- A blueprint with words in its parts is what the markup with the words is parsed to, provided that
words in the markup leave no placeholder in it. -/
theorem parse_joinWith_iff {segments : List String} {blueprint : Blueprint}
    (compiled : Blueprint.compile .standard segments = .ok blueprint) :
    (∀ word : Nat → List Char, (∀ index, IsWord (word index)) →
      Forest.parse (joinWith word segments) =
        Forest.ordered (Forest.merge
          (blueprint.weave (wordFillings word 0 blueprint.parts.length)))) ↔
      ∀ word : Nat → List Char, (∀ index, IsWord (word index)) →
        Forest.Unmarked (Forest.parse (joinWith word segments)) := by
  constructor
  · intro woven word words
    rw [woven word words, ordered_weave compiled words]
    exact unmarked_rewriteForest words _
  · intro unmarked word words
    rw [ordered_weave compiled words]
    exact parse_joinWith_of_unmarked compiled
      (fun size => unmarked _ (Wording.isWord_long size)) (.ofWords word words)

/-- Each attribute that is repeated here is repeated behind its value, and what is spelled by a
reference is no placeholder. -/
theorem parse_joinWith_iff_page :
    Blueprint.compile .standard ["<p b=", " b=1>&#123;\x7bstencil-part- ", "</p>"] =
      .ok ⟨[.element "p" none [] [.text "\x7b\x7bstencil-part- ", .text ""]],
        [.attribute ⟨[0], "b", "b"⟩, .node [0, 1]]⟩ ∧
    ((∀ word : Nat → List Char, (∀ index, IsWord (word index)) →
      Forest.parse (joinWith word ["<p b=", " b=1>&#123;\x7bstencil-part- ", "</p>"]) =
        Forest.ordered (Forest.merge (Blueprint.weave
          ⟨[.element "p" none [] [.text "\x7b\x7bstencil-part- ", .text ""]],
            [.attribute ⟨[0], "b", "b"⟩, .node [0, 1]]⟩ (wordFillings word 0 2)))) ↔
      ∀ word : Nat → List Char, (∀ index, IsWord (word index)) →
        Forest.Unmarked (Forest.parse
          (joinWith word ["<p b=", " b=1>&#123;\x7bstencil-part- ", "</p>"]))) :=
  have compiled : Blueprint.compile .standard ["<p b=", " b=1>&#123;\x7bstencil-part- ", "</p>"] =
      .ok ⟨[.element "p" none [] [.text "\x7b\x7bstencil-part- ", .text ""]],
        [.attribute ⟨[0], "b", "b"⟩, .node [0, 1]]⟩ := by
    rw [Blueprint.compile_standard]
    decide +kernel
  ⟨compiled, parse_joinWith_iff compiled⟩

/-- The placeholder gets lost in a repeated attribute, and the one that is spelled by a reference is
taken for it. -/
theorem exists_spelled_placeholder :
    ∃ segments blueprint word, Blueprint.compile .standard segments = .ok blueprint ∧
      (∀ index, IsWord (word index)) ∧ Forest.parse (joinWith word segments) ≠
        Forest.ordered (Forest.merge
          (blueprint.weave (wordFillings word 0 blueprint.parts.length))) := by
  refine ⟨["<p a=1 a=", "><b a='&#123;\x7bstencil-part-0\x7d\x7d'></b></p>"],
    ⟨[.element "p" none [("a", "1")] [.element "b" none [] []]], [.attribute ⟨[0, 0], "a", "a"⟩]⟩,
    fun _ => ['{', 'x', '}'], by decide +kernel,
    fun _ => ⟨['x'], by decide, List.forall_mem_singleton.mpr (by decide), rfl⟩, ?_⟩
  decide +kernel

end LiveMarkup
