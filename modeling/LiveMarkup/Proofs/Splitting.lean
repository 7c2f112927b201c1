import LiveMarkup.Proofs.Placeholder
import Mathlib.Data.List.Chain

/-! # Taking a text apart

There is exactly one way to take a text apart into placeholders and runs such that no run is empty, no
two runs meet, and no run has a placeholder in it, and `split` finds it (`split_exact`).  So it does
not matter how a text came about: the pieces of joined segments are the segments and the placeholders
that were put between them (`split_join`), whatever the segments begin and end with.  Nor does it
matter how a text is gone through: `split` looks at every character, and a search for the next opening
and the closing behind it gives the same pieces (`split_eq_splitBySearch`).

A placeholder that begins in front of another one ends in front of it (`read?_of_append`), which is
why the runs of a decomposition are found as they are. -/

namespace LiveMarkup.Placeholder

/-! ## Texts that are placeholders -/

theorem index?_eq_some_iff_digits {text : List Char} {index : Nat} :
    index? text = some index ↔
      ∃ digits, text = opening ++ digits ++ closing ∧ digits ≠ [] ∧ (∀ c ∈ digits, c.isDigit) ∧
        Nat.ofDigitChars 10 digits 0 = index ∧ index < bound := by
  simp only [index?_eq_some_iff, read?_eq_some_iff, List.append_nil, List.append_assoc]

/-- What is read off the front of a text is a placeholder. -/
theorem read?_eq_some_iff_index? {text rest : List Char} {index : Nat} :
    read? text = some (index, rest) ↔ ∃ word, index? word = some index ∧ text = word ++ rest := by
  constructor
  · intro read
    obtain ⟨digits, rfl, valid⟩ := read?_eq_some_iff.mp read
    exact ⟨opening ++ digits ++ closing, index?_eq_some_iff_digits.mpr ⟨digits, rfl, valid⟩,
      by simp⟩
  · rintro ⟨word, found, rfl⟩
    simpa using read?_append (index?_eq_some_iff.mp found) rest

/-- Behind its first two characters, a placeholder has no opening brace. -/
theorem index?_braces {word : List Char} {index : Nat} (found : index? word = some index) :
    ∃ tail, word = '{' :: '{' :: 's' :: tail ∧ '{' ∉ tail := by
  obtain ⟨digits, rfl, -, allDigits, -⟩ := index?_eq_some_iff_digits.mp found
  refine ⟨_, by rw [opening_eq]; rfl, ?_⟩
  have noDigit : '{' ∉ digits := fun member => absurd (allDigits _ member) (by decide)
  simp [closing, noDigit]

/-- A placeholder that begins in front of another one ends in front of it. -/
theorem read?_of_append {text rest behind behind' : List Char} {index index' : Nat}
    (filled : text ≠ []) (read : read? (text ++ rest) = some (index, behind))
    (next : read? rest = some (index', behind')) : ∃ inner, read? text = some (index, inner) := by
  obtain ⟨word, found, same⟩ := read?_eq_some_iff_index?.mp read
  obtain ⟨word', found', rfl⟩ := read?_eq_some_iff_index?.mp next
  obtain ⟨tail', rfl, -⟩ := index?_braces found'
  obtain inside | across := List.append_eq_append_iff.mp same
  · -- The text ends inside of the placeholder, where the second one would begin.
    obtain ⟨front, rfl, overlap⟩ := inside
    -- Its tail has no opening brace, and a second placeholder has two in a row.
    obtain ⟨tail, spelled, calm⟩ := index?_braces found
    obtain _ | ⟨c, front⟩ := front
    · rw [List.append_nil] at found
      exact ⟨[], index?_eq_some_iff.mp found⟩
    obtain ⟨rfl, overlap⟩ := List.cons_eq_cons.mp overlap
    obtain _ | ⟨first, _ | ⟨second, text⟩⟩ := text
    · exact absurd rfl filled
    · simp_all
    · have member : '{' ∈ 's' :: tail := by
        simp only [List.cons_append, List.cons.injEq] at spelled
        rw [← spelled.2.2]
        simp
      simp [calm] at member
  · obtain ⟨inner, rfl, -⟩ := across
    exact ⟨inner, read?_eq_some_iff_index?.mpr ⟨word, found, rfl⟩⟩

/-! ## Decompositions -/

namespace Piece

/-- Whether a piece is a run. -/
def IsRun : Piece → Prop
  | run _ => True
  | placeholder _ => False

/-- What can be written for a piece: a run as it is, and for an index any placeholder with it. -/
def Writes : Piece → List Char → Prop
  | run text, word => word = text
  | placeholder index, word => index? word = some index

end Piece

/-- A text with no placeholder in it. -/
def Bare (text : List Char) : Prop :=
  ∀ word, word <:+: text → index? word = none

/-- A text taken apart into pieces.  No run is empty, no two runs meet, and no run has a placeholder
in it. -/
structure Decomposition (text : List Char) (pieces : List Piece) : Prop where
  whole : ∃ words, List.Forall₂ Piece.Writes pieces words ∧ words.flatten = text
  filled : ∀ run, .run run ∈ pieces → run ≠ []
  apart : pieces.IsChain fun piece next => ¬ (piece.IsRun ∧ next.IsRun)
  bare : ∀ run, .run run ∈ pieces → Bare run

theorem Plain.read?_eq_none {text : List Char} (plain : Plain text) : read? text = none := by
  cases text with
  | nil => rfl
  | cons c cs => exact plain.1

theorem Plain.bare {text : List Char} (plain : Plain text) : Bare text := by
  rintro word ⟨before, after, rfl⟩
  cases found : index? word with
  | none => rfl
  | some index =>
    rw [List.append_assoc] at plain
    have read : read? (word ++ after) = some (index, after) :=
      read?_eq_some_iff_index?.mpr ⟨word, found, rfl⟩
    rw [plain.of_append.read?_eq_none] at read
    cases read

theorem Bare.read?_eq_none {text : List Char} (bare : Bare text) : read? text = none := by
  cases read : read? text with
  | none => rfl
  | some found =>
    obtain ⟨word, valid, rfl⟩ := read?_eq_some_iff_index?.mp read
    rw [bare word (List.prefix_append word _).isInfix] at valid
    cases valid

theorem Bare.tail {c : Char} {cs : List Char} (bare : Bare (c :: cs)) : Bare cs :=
  fun word inside => bare word (inside.trans (List.suffix_cons c cs).isInfix)

/-! ## What `split` finds -/

/-- A character in front of a text is written in front of its pieces. -/
theorem Piece.exists_words_cons (c : Char) {pieces : List Piece} {words : List (List Char)}
    (writes : List.Forall₂ Piece.Writes pieces words) :
    ∃ others, List.Forall₂ Piece.Writes (Piece.cons c pieces) others ∧
      others.flatten = c :: words.flatten := by
  cases writes with
  | nil => exact ⟨[[c]], .cons rfl .nil, rfl⟩
  | @cons piece word pieces words first rest =>
    cases piece with
    | run text =>
      obtain rfl : word = text := first
      exact ⟨(c :: word) :: words, .cons rfl rest, rfl⟩
    | placeholder index => exact ⟨[c] :: word :: words, .cons rfl (.cons first rest), rfl⟩

theorem Piece.apart_cons (c : Char) {pieces : List Piece}
    (apart : pieces.IsChain fun piece next => ¬ (piece.IsRun ∧ next.IsRun)) :
    (Piece.cons c pieces).IsChain fun piece next => ¬ (piece.IsRun ∧ next.IsRun) := by
  cases pieces with
  | nil => exact .singleton _
  | cons piece pieces =>
    cases piece with
    | run text =>
      rw [Piece.cons, List.isChain_cons]
      exact List.isChain_cons.mp apart
    | placeholder index =>
      refine List.isChain_cons.mpr ⟨?_, apart⟩
      rintro next ⟨⟩
      exact fun runs => runs.2

theorem decomposition_split (text : List Char) : Decomposition text (split text) := by
  constructor
  case filled => exact fun run member => (plain_of_run_mem_split member).1
  case bare => exact fun run member => (plain_of_run_mem_split member).2.bare
  case whole =>
    induction text using split.induct with
    | case1 => exact ⟨[], by simp, rfl⟩
    | case2 c cs index rest read ih =>
      obtain ⟨words, writes, same⟩ := ih
      obtain ⟨word, found, spelled⟩ := read?_eq_some_iff_index?.mp read
      rw [split_of_read? read, spelled]
      exact ⟨word :: words, .cons found writes, congrArg (word ++ ·) same⟩
    | case3 c cs none ih =>
      obtain ⟨words, writes, rfl⟩ := ih
      rw [split_of_read?_none none]
      exact Piece.exists_words_cons c writes
  case apart =>
    induction text using split.induct with
    | case1 => simp
    | case2 c cs index rest read ih =>
      rw [split_of_read? read, List.isChain_cons]
      exact ⟨fun next _ runs => runs.1, ih⟩
    | case3 c cs none ih =>
      rw [split_of_read?_none none]
      exact Piece.apart_cons c ih

/-! ## There is no other way -/

/-- No placeholder begins in a run, with the given text behind it. -/
def Passed (rest : List Char) : List Char → Prop
  | [] => True
  | c :: cs => read? (c :: cs ++ rest) = none ∧ Passed rest cs

/-- A run is found as it is if no placeholder begins in it and one begins behind it, or nothing follows
it. -/
theorem Passed.split_append {text rest : List Char} (passed : Passed rest text) (filled : text ≠ [])
    (stops : rest = [] ∨ ∃ found, read? rest = some found) :
    split (text ++ rest) = .run text :: split rest := by
  induction text with
  | nil => exact absurd rfl filled
  | cons c cs ih =>
    obtain ⟨none, passed⟩ := passed
    rw [List.cons_append] at none ⊢
    rw [split_of_read?_none none]
    cases cs with
    | nil =>
      rw [List.nil_append]
      obtain rfl | ⟨next, behind⟩ := stops
      · simp [Piece.cons]
      · rw [split_of_read? behind, Piece.cons]
        simp
    | cons d ds =>
      rw [ih passed (by simp)]
      rfl

/-- A placeholder that begins in the run would have to end in it, and there is none. -/
theorem Bare.passed {text rest : List Char} (bare : Bare text)
    (stops : rest = [] ∨ ∃ found, read? rest = some found) : Passed rest text := by
  induction text with
  | nil => trivial
  | cons c cs ih =>
    refine ⟨?_, ih bare.tail⟩
    cases read : read? (c :: cs ++ rest) with
    | none => rfl
    | some found =>
      obtain rfl | ⟨next, behind⟩ := stops
      · rw [List.append_nil, bare.read?_eq_none] at read
        cases read
      · obtain ⟨inner, inside⟩ := read?_of_append (List.cons_ne_nil c cs) read behind
        rw [bare.read?_eq_none] at inside
        cases inside

theorem Bare.split_append {text rest : List Char} (bare : Bare text) (filled : text ≠ [])
    (stops : rest = [] ∨ ∃ found, read? rest = some found) :
    split (text ++ rest) = .run text :: split rest :=
  (bare.passed stops).split_append filled stops

theorem Decomposition.split_eq {text : List Char} {pieces : List Piece}
    (parts : Decomposition text pieces) : split text = pieces := by
  obtain ⟨⟨words, writes, rfl⟩, filled, apart, bare⟩ := parts
  induction writes with
  | nil => simp
  | @cons piece word pieces words first rest ih =>
    -- What is written for the first piece is what is split off, and the rest is a decomposition again.
    obtain ⟨alone, apart⟩ := List.isChain_cons.mp apart
    have later := ih (fun run member => filled run (List.mem_cons_of_mem _ member)) apart
      fun run member => bare run (List.mem_cons_of_mem _ member)
    rw [List.flatten_cons]
    cases piece with
    | placeholder index =>
      have read : read? (word ++ words.flatten) = some (index, words.flatten) :=
        read?_eq_some_iff_index?.mpr ⟨word, first, rfl⟩
      rw [split_of_read? read, later]
    | run text =>
      obtain rfl : word = text := first
      rw [(bare word List.mem_cons_self).split_append (filled word List.mem_cons_self) ?_, later]
      -- Two runs do not meet, so a placeholder comes next if anything does.
      cases rest with
      | nil => exact .inl rfl
      | @cons next word' _ words' second _ =>
        cases next with
        | run _ => exact absurd ⟨trivial, trivial⟩ (alone _ rfl)
        | placeholder index =>
          exact .inr ⟨_, read?_eq_some_iff_index?.mpr ⟨word', second, rfl⟩⟩

theorem split_eq_iff {text : List Char} {pieces : List Piece} :
    split text = pieces ↔ Decomposition text pieces :=
  ⟨fun same => same ▸ decomposition_split text, Decomposition.split_eq⟩

/-- A text is a placeholder if it is written like one, and splitting a text takes it apart in the one
way there is. -/
theorem split_exact (text : List Char) :
    (∀ index, index? text = some index ↔
      ∃ digits, text = opening ++ digits ++ closing ∧ digits ≠ [] ∧ (∀ c ∈ digits, c.isDigit) ∧
        Nat.ofDigitChars 10 digits 0 = index ∧ index < bound) ∧
      ∀ pieces, split text = pieces ↔ Decomposition text pieces :=
  ⟨fun _ => index?_eq_some_iff_digits, fun _ => split_eq_iff⟩

/-! ## Searching for placeholders -/

/-- A segment as a piece, which is none if there is nothing in it. -/
def Piece.ofSegment (segment : List Char) : List Piece :=
  if segment = [] then [] else [.run segment]

theorem Passed.split_segment {segment rest : List Char} (passed : Passed rest segment)
    (stops : rest = [] ∨ ∃ found, read? rest = some found) :
    split (segment ++ rest) = Piece.ofSegment segment ++ split rest := by
  unfold Piece.ofSegment
  split
  · next empty => rw [empty]; rfl
  · next filled => exact passed.split_append filled stops

/-- A text cut in front of the first place where a word, which is not empty, stands in it. -/
def search (word : List Char) : List Char → Option (List Char × List Char)
  | [] => none
  | c :: cs =>
    if word.isPrefixOf (c :: cs) then some ([], c :: cs)
    else (search word cs).map fun (before, found) => (c :: before, found)

theorem search_eq_some {word text before found : List Char}
    (stands : search word text = some (before, found)) :
    text = before ++ found ∧ word <+: found := by
  induction text generalizing before with
  | nil => cases stands
  | cons c cs ih =>
    unfold search at stands
    split at stands
    · next front =>
      cases stands
      exact ⟨rfl, List.isPrefixOf_iff_prefix.mp front⟩
    · obtain ⟨⟨before, found⟩, later, same⟩ := Option.map_eq_some_iff.mp stands
      cases same
      obtain ⟨rfl, front⟩ := ih later
      exact ⟨rfl, front⟩

/-- A word whose first character is nowhere in front of it is found. -/
theorem search_append {c : Char} {word before : List Char} (absent : c ∉ before)
    (rest : List Char) :
    search (c :: word) (before ++ c :: (word ++ rest)) = some (before, c :: (word ++ rest)) := by
  induction before with
  | nil => simp [search]
  | cons d before ih =>
    rw [List.mem_cons, not_or] at absent
    simp [search, absent.1, ih absent.2]

/-- The placeholder that begins a text, if the closing that comes first in it ends one: its index and
what follows it. -/
def endAt? (text : List Char) : Option (Nat × List Char) :=
  (search closing text).bind fun (inner, closed) =>
    (index? (inner ++ closing)).map fun index => (index, closed.drop closing.length)

/-- No placeholder has a closing in it before its end, so it does not matter which way it is read. -/
theorem endAt?_eq_read? (text : List Char) : endAt? text = read? text := by
  refine Option.ext fun ⟨index, rest⟩ => ?_
  constructor
  · intro ends
    obtain ⟨⟨inner, closed⟩, stands, ends⟩ := Option.bind_eq_some_iff.mp ends
    obtain ⟨_, found, same⟩ := Option.map_eq_some_iff.mp ends
    cases same
    obtain ⟨rfl, rest, rfl⟩ := search_eq_some stands
    refine read?_eq_some_iff_index?.mpr ⟨inner ++ closing, found, ?_⟩
    rw [List.drop_left, List.append_assoc]
  · intro read
    obtain ⟨digits, rfl, filled, allDigits, value, small⟩ := read?_eq_some_iff.mp read
    have absent : '}' ∉ opening ++ digits := by
      rw [List.mem_append, not_or]
      exact ⟨by decide, fun member => absurd (allDigits _ member) (by decide)⟩
    have stands : search closing (opening ++ (digits ++ (closing ++ rest))) =
        some (opening ++ digits, closing ++ rest) := by
      rw [← List.append_assoc]
      exact search_append absent rest
    have found : index? (opening ++ digits ++ closing) = some index :=
      index?_eq_some_iff_digits.mpr ⟨digits, rfl, filled, allDigits, value, small⟩
    rw [endAt?, stands, Option.bind_some]
    dsimp only
    rw [found, Option.map_some, List.drop_left]

/-- Takes a text apart by searching for the next opening, and for the closing behind it.  What is in
front of the text has been searched already. -/
def splitBySearch (front text : List Char) : List Piece :=
  match _stands : search opening text with
  | none => Piece.ofSegment (front ++ text)
  | some (before, found) =>
    match _ends : endAt? found with
    | some (index, rest) =>
      Piece.ofSegment (front ++ before) ++ .placeholder index :: splitBySearch [] rest
    | none => splitBySearch (front ++ before ++ opening) (found.drop opening.length)
  termination_by text.length
  decreasing_by
    · obtain ⟨rfl, -⟩ := search_eq_some _stands
      rw [endAt?_eq_read?] at _ends
      have shorter := read?_length _ends
      rw [List.length_append]
      omega
    · obtain ⟨rfl, more, rfl⟩ := search_eq_some _stands
      have some : 0 < opening.length := by decide
      simp only [List.drop_left, List.length_append]
      omega

theorem read?_eq_none_of_unopened {text : List Char} (apart : ¬ opening <+: text) :
    read? text = none := by
  rw [read?, if_neg (by rwa [List.isPrefixOf_iff_prefix])]

theorem passed_append {first second rest : List Char} :
    Passed rest (first ++ second) ↔ Passed (second ++ rest) first ∧ Passed rest second := by
  induction first with
  | nil => simp [Passed]
  | cons c first ih => simp [Passed, ih, and_assoc]

/-- No placeholder begins in front of the first opening. -/
theorem passed_of_search {text before found : List Char}
    (stands : search opening text = some (before, found)) : Passed found before := by
  induction text generalizing before with
  | nil => cases stands
  | cons c cs ih =>
    have whole := search_eq_some stands
    unfold search at stands
    split at stands
    · cases stands
      trivial
    · next apart =>
      obtain ⟨⟨before, found⟩, later, same⟩ := Option.map_eq_some_iff.mp stands
      cases same
      refine ⟨read?_eq_none_of_unopened ?_, ih later⟩
      rwa [← whole.1, ← List.isPrefixOf_iff_prefix]

theorem passed_of_search_eq_none {text : List Char} (absent : search opening text = none) :
    Passed [] text := by
  induction text with
  | nil => trivial
  | cons c cs ih =>
    unfold search at absent
    split at absent
    · cases absent
    · next apart =>
      refine ⟨read?_eq_none_of_unopened ?_, ih (Option.map_eq_none_iff.mp absent)⟩
      rwa [List.append_nil, ← List.isPrefixOf_iff_prefix]

/-- No other opening begins in an opening, so it can be passed over as a whole. -/
theorem passed_opening {rest : List Char} (none : read? (opening ++ rest) = none) :
    Passed rest opening := by
  rw [opening_eq] at none ⊢
  refine ⟨none, ?_⟩
  simp [Passed, read?, opening_eq]

/-- The next opening begins a placeholder. -/
theorem splitBySearch_of_endAt? {front text before found rest : List Char} {index : Nat}
    (stands : search opening text = some (before, found)) (ends : endAt? found = some (index, rest)) :
    splitBySearch front text =
      Piece.ofSegment (front ++ before) ++ .placeholder index :: splitBySearch [] rest := by
  rw [splitBySearch]
  split
  · simp_all
  · split <;> simp_all

/-- The next opening begins none. -/
theorem splitBySearch_of_endAt?_none {front text before found : List Char}
    (stands : search opening text = some (before, found)) (ends : endAt? found = none) :
    splitBySearch front text =
      splitBySearch (front ++ before ++ opening) (found.drop opening.length) := by
  rw [splitBySearch]
  split
  · simp_all
  · split <;> simp_all

theorem splitBySearch_of_none {front text : List Char} (absent : search opening text = none) :
    splitBySearch front text = Piece.ofSegment (front ++ text) := by
  rw [splitBySearch]
  split <;> simp_all

theorem splitBySearch_eq {front text : List Char} (passed : Passed text front) :
    splitBySearch front text = split (front ++ text) := by
  induction front, text using splitBySearch.induct with
  | case1 front text absent =>
    have whole : Passed [] (front ++ text) :=
      passed_append.mpr ⟨by rwa [List.append_nil], passed_of_search_eq_none absent⟩
    have alone := whole.split_segment (.inl rfl)
    rw [List.append_nil, split_nil, List.append_nil] at alone
    rw [splitBySearch_of_none absent, alone]
  | case2 front text before found stands index rest ends ih =>
    have whole := passed_append.mpr ⟨(search_eq_some stands).1 ▸ passed, passed_of_search stands⟩
    have read : read? found = some (index, rest) := endAt?_eq_read? found ▸ ends
    rw [splitBySearch_of_endAt? stands ends, ih trivial, (search_eq_some stands).1,
      ← List.append_assoc, whole.split_segment (.inr ⟨_, read⟩), split_of_read? read]
    rfl
  | case3 front text before found stands ends ih =>
    obtain ⟨rfl, rest, rfl⟩ := search_eq_some stands
    rw [splitBySearch_of_endAt?_none stands ends]
    rw [List.drop_left] at ih ⊢
    have none : read? (opening ++ rest) = none := endAt?_eq_read? _ ▸ ends
    have whole : Passed rest (front ++ before ++ opening) :=
      passed_append.mpr ⟨passed_append.mpr ⟨passed, passed_of_search stands⟩, passed_opening none⟩
    rw [ih whole]
    simp only [List.append_assoc]

/-- Splitting a text gives what is found by searching through it. -/
theorem split_eq_splitBySearch (text : List Char) : split text = splitBySearch [] text :=
  (splitBySearch_eq (show Passed text [] from trivial)).symm

/-! ## Joined segments -/

/-- The given segments, with placeholders between them, of which the first one has the given index. -/
def Piece.alternating (index : Nat) : List (List Char) → List Piece
  | [] => []
  | [segment] => ofSegment segment
  | segment :: next :: rest =>
    ofSegment segment ++ placeholder index :: alternating (index + 1) (next :: rest)

theorem Bare.of_not_occursIn {text : List Char} (absent : occursIn text = false) : Bare text :=
  (Plain.of_not_occursIn absent).bare

theorem Bare.split_segment {segment rest : List Char} (bare : Bare segment)
    (stops : rest = [] ∨ ∃ found, read? rest = some found) :
    split (segment ++ rest) = Piece.ofSegment segment ++ split rest :=
  (bare.passed stops).split_segment stops

theorem split_append_joinFrom {first : List Char} {rest : List (List Char)} {index : Nat}
    (free : ∀ segment ∈ first :: rest, occursIn segment = false)
    (few : index + rest.length ≤ bound) :
    split (first ++ joinFrom index rest) = Piece.alternating index (first :: rest) := by
  induction rest generalizing first index with
  | nil =>
    have bare := Bare.of_not_occursIn (free first List.mem_cons_self)
    rw [joinFrom, bare.split_segment (.inl rfl), split_nil, List.append_nil]
    rfl
  | cons next rest ih =>
    have bare := Bare.of_not_occursIn (free first List.mem_cons_self)
    rw [List.length_cons] at few
    have small : index < bound := by omega
    have behind := read?_chars small (next ++ joinFrom (index + 1) rest)
    rw [joinFrom, List.append_assoc, bare.split_segment (.inr ⟨_, behind⟩),
      split_of_read? behind, ih (fun segment member => free segment (.tail _ member)) (by omega)]
    rfl

/-- Splitting joined segments gives the segments back, with the placeholders between them. -/
theorem split_join {segments : List String}
    (free : ∀ segment ∈ segments, occursIn segment.toList = false)
    (few : segments.length - 1 < bound) :
    split (join segments).toList = Piece.alternating 0 (segments.map String.toList) := by
  rw [join, String.toList_ofList]
  cases segments with
  | nil => exact split_nil
  | cons first rest =>
    refine split_append_joinFrom ?_ ?_
    · rw [← List.map_cons]
      exact List.forall_mem_map.mpr free
    · rw [List.length_cons, Nat.add_sub_cancel] at few
      rw [List.length_map, Nat.zero_add]
      exact few.le

/-- Braces, digits and parts of placeholders meet the placeholders between them. -/
theorem split_join_seams :
    let segments := ["a\x7b", "\x7d\x7d\x7b\x7bstencil-part", "", "7\x7d"]
    (∀ segment ∈ segments, occursIn segment.toList = false) ∧ segments.length - 1 < bound ∧
      split (join segments).toList = [.run ['a', '{'], .placeholder 0,
        .run ('}' :: '}' :: opening.dropLast), .placeholder 1, .placeholder 2, .run ['7', '}']] := by
  intro segments
  have free : ∀ segment ∈ segments, occursIn segment.toList = false := by decide
  have few : segments.length - 1 < bound := by decide
  exact ⟨free, few, (split_join free few).trans (by decide)⟩

end LiveMarkup.Placeholder
