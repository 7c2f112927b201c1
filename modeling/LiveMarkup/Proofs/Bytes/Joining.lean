import LiveMarkup.Proofs.Capturing
import LiveMarkup.Proofs.Words
import LiveMarkup.Proofs.Bytes.Agreement

/-! # Segments read as one text

Between two segments a value is not read, the reader is just put where it goes on behind the value.
This is where the placeholder of the value would have taken it (`SegmentReader.feed_chars`), so reading
one segment after the other comes to the same as reading them at once, with the placeholders between
them (`SegmentReader.feed_joined`).

For the reader of bytes this has to be read off from the segment reader: it looks ahead in raw text, and
the offsets that it remembers are others in the joined text.  At a place for a value it remembers none,
and then it is known from the segment reader that it tracks (`Tracks.unique`). -/

namespace LiveMarkup

open Markup

namespace SegmentReader

variable {reader : SegmentReader} {text : List Char}

/-! ## A placeholder -/

theorem feed_calm (calm : Calm text) (stays : ∀ c, Quiet c → reader.step c = reader) :
    reader.feed text = reader := by
  have quiet : ∀ c ∈ text, Quiet c := by
    intro c member
    obtain calm | rfl := calm.forall c member
    · exact .of_isCalm calm
    · exact .dash
  clear calm
  induction text with
  | nil => rfl
  | cons c text ih =>
    rw [feed, List.foldl_cons, stays c (quiet c List.mem_cons_self)]
    exact ih fun other member => quiet other (List.mem_cons_of_mem c member)

/-- Where a value can stand, its placeholder takes the reader to where it goes on behind the value. -/
theorem feed_chars (spelled : Spelled text reader) {next : List Char} {last : Bool}
    {position : Position} {after : SegmentReader}
    (placed : reader.place next last = .ok (position, after)) (index : Nat) :
    reader.feed (Placeholder.chars index) = after := by
  obtain ⟨rest, word, calm⟩ := Wording.placeholders.proper index
  rw [Wording.word_placeholders] at word
  rw [word, feed, List.foldl_cons]
  obtain ⟨here, -, rfl⟩ | ⟨here, -, rfl⟩ | ⟨quote, here, -, rfl⟩ := place_eq_ok placed
  · have stays (c : Char) (quiet : Quiet c) : after.step c = after := by
      rw [step, here]
      dsimp only
      rw [stepData, if_neg quiet.ne_less, enter, ← here]
    rw [stays '{' (.of_isCalm rfl)]
    exact feed_calm calm stays
  · have begun : reader.step '{' = reader.enter .unquotedValue := by
      rw [step, here]
      rfl
    rw [begun]
    refine feed_calm calm fun c quiet => ?_
    simp [step, enter, quiet.solid, quiet.ne_greater]
  · have quotes : isQuote quote = true := by
      unfold Spelled at spelled
      rw [here] at spelled
      simpa [isQuote] using spelled.1
    have collects (empty : Bool) (c : Char) (quiet : Quiet c) :
        (reader.enter (.quotedValue quote empty)).step c = reader.enter (.quotedValue quote false) := by
      simp [step, enter, quiet.ne_quote quotes]
    have opened : reader = reader.enter (.quotedValue quote true) := by
      rw [enter, ← here]
    have begun := collects true '{' (.of_isCalm rfl)
    rw [← opened] at begun
    rw [begun]
    exact feed_calm calm (collects false)

/-! ## All placeholders -/

theorem feed_joinFrom {there : SegmentReader} {segment target : List Char}
    {others : List (List Char)} {index : Nat} (spelled : Spelled [] reader)
    (arrives : Arrives Crosses reader (segment :: others) index there target) (number : Nat) :
    reader.feed (segment ++ Placeholder.joinFrom number (others.take index)) = there.feed target := by
  induction index generalizing reader segment others number with
  | zero =>
    cases arrives
    rw [List.take_zero, Placeholder.joinFrom, List.append_nil]
  | succ index ih =>
    cases arrives with
    | @later _ after _ _ next _ rest _ crosses arrives =>
    obtain ⟨position, placed⟩ := crosses
    have spelled' := spelled.feed segment
    rw [List.take_succ_cons, Placeholder.joinFrom, List.append_assoc, feed, List.foldl_append,
      List.foldl_append, ← ih (spelled'.place placed).1 arrives (number + 1),
      ← feed_chars spelled' placed number]
    rfl

/-- The reader behind the segment with the given index, read for itself and in the joined text. -/
theorem feed_joined {segments : List (List Char)} {index : Nat} {there : SegmentReader}
    {target : List Char} (arrives : Arrives Crosses start segments index there target) :
    start.feed (Placeholder.joinChars (segments.take (index + 1))) = there.feed target := by
  cases segments with
  | nil => cases arrives
  | cons segment others => exact feed_joinFrom (show Spelled [] start from trivial) arrives 0

end SegmentReader

/-! ## Bytes -/

/-- Where a value can stand, there is only one reader of bytes that tracks the segment reader. -/
theorem Tracks.unique {text other : String} {i j : Nat} {bytes bytes' : ByteReader}
    {reader : SegmentReader} (tracks : Tracks text i bytes reader)
    (tracks' : Tracks other j bytes' reader) {next : String} {last : Bool}
    {place : Position × ByteReader} (placed : bytes.place next last = .ok place) :
    bytes' = bytes := by
  have states : bytes'.state = bytes.state := by
    have state := tracks.state
    have state' := tracks'.state
    unfold ByteReader.place at placed
    -- Of the states that a value can stand in, none has an offset that could differ.
    generalize bytes'.state = there at state'
    generalize bytes.state = here at state placed
    generalize reader.state = both at state state'
    cases state with
    | data =>
      cases state'
      rfl
    | beforeAttributeValue =>
      cases state'
      rfl
    | @quotedValue quote empty plain =>
      generalize same : Char.ofUInt8 quote = c at state'
      cases state' with
      | quotedValue =>
        rw [ofUInt8_injective same]
    | _ => cases placed
  obtain ⟨state, tag, closing, lastAttribute⟩ := bytes
  obtain ⟨state', tag', closing', lastAttribute'⟩ := bytes'
  cases states
  rw [show tag' = tag from tracks'.tag.trans tracks.tag.symm,
    show closing' = closing from tracks'.closing.trans tracks.closing.symm,
    show lastAttribute' = lastAttribute from tracks'.lastAttribute.trans tracks.lastAttribute.symm]

/-- Where the reader of bytes comes to, the segment reader does. -/
theorem Arrives.chars {segments : List String} {index : Nat} {bytes there : ByteReader}
    {reader : SegmentReader} {target : String}
    (arrives : Arrives ByteReader.Crosses bytes segments index there target)
    (tracks : ∀ text i, Tracks text i bytes reader) :
    ∃ there', Arrives SegmentReader.Crosses reader (segments.map String.toList) index there'
      target.toList ∧ ∀ text i, Tracks text i there there' := by
  induction arrives generalizing reader with
  | now => exact ⟨reader, .now, tracks⟩
  | @later _ _ _ segment next _ rest _ crosses _ ih =>
    obtain ⟨read, position, fed, placed⟩ := crosses
    obtain ⟨other, fed', tracks'⟩ := (tracks segment 0).readFrom (.start segment)
    obtain rfl : read = other := Except.ok.inj (fed.symm.trans fed')
    have both := tracks'.place next rest.isEmpty
    rw [placed] at both
    generalize placed' : (reader.feed segment.toList).place next.toList rest.isEmpty = result at both
    cases both with
    | ok further =>
      obtain ⟨there', arrives', further'⟩ := ih further
      refine ⟨there', .later ⟨position, ?_⟩ arrives', further'⟩
      rw [List.isEmpty_map]
      exact placed'

namespace ByteReader

theorem exists_crosses {reader : ByteReader} {number : Nat} {segment next : String}
    {rest : List String} {places : List Position}
    (read : reader.positionsFrom number (segment :: next :: rest) = .ok (.ok places)) :
    ∃ after more, reader.Crosses segment next rest.isEmpty after ∧
      after.positionsFrom (number + 1) (next :: rest) = .ok (.ok more) := by
  rw [positionsFrom] at read
  split at read
  · cases read
  next behind fed =>
  split at read
  · cases read
  next position after placed =>
  obtain ⟨result, later, mapped⟩ := exists_of_map_eq_ok read
  obtain ⟨more, rfl, -⟩ := exists_of_map_eq_ok mapped
  exact ⟨after, more, ⟨behind, position, fed, placed⟩, later⟩

/-- If the values have positions, the reader comes to each segment but the last one, and behind it to a
place for a value. -/
theorem exists_arrives {reader : ByteReader} {number : Nat} {segments : List String}
    {places : List Position} (read : reader.positionsFrom number segments = .ok (.ok places))
    {index : Nat} (between : index + 1 < segments.length) :
    ∃ there target next last after, Arrives Crosses reader segments index there target ∧
      there.Crosses target next last after := by
  induction index generalizing reader number segments places with
  | zero =>
    obtain _ | ⟨segment, _ | ⟨next, rest⟩⟩ := segments
    · cases between
    · exact absurd between (Nat.lt_irrefl 1)
    · obtain ⟨after, -, crosses, -⟩ := exists_crosses read
      exact ⟨reader, segment, next, _, after, .now, crosses⟩
  | succ index ih =>
    obtain _ | ⟨segment, _ | ⟨next, rest⟩⟩ := segments
    · cases between
    · exact absurd (Nat.lt_of_succ_lt_succ between) (Nat.not_lt_zero _)
    · obtain ⟨_, _, crosses, later⟩ := exists_crosses read
      obtain ⟨there, target, beyond, last, after, arrives, crosses'⟩ :=
        ih later (Nat.lt_of_succ_lt_succ between)
      exact ⟨there, target, beyond, last, after, .later crosses arrives, crosses'⟩

theorem positionsFrom_of_positions {segments : List String} {places : List Position}
    (read : LiveMarkup.positions segments = .ok places) :
    start.positionsFrom 0 segments = .ok (.ok places) := by
  have same := positions_eq segments
  rw [read, positions] at same
  split at same
  · cases same
  split at same
  · cases same
  · exact same

/-- The reader behind the segment with the given index, where it is to place a value. -/
def ReadsTo (segments : List String) (index : Nat) (behind : ByteReader) : Prop :=
  ∃ reader segment, Arrives Crosses start segments index reader segment ∧
    reader.feed segment = .ok behind

/-- What the reader has read segment by segment, the segment reader has read from the joined text. -/
theorem ReadsTo.tracks {segments : List String} {index : Nat} {behind : ByteReader}
    (readsTo : ReadsTo segments index behind) :
    ∃ text i, Tracks text i behind
      (SegmentReader.start.feed (Placeholder.join (segments.take (index + 1))).toList) := by
  obtain ⟨reader, segment, arrives, fed⟩ := readsTo
  obtain ⟨there, arrives', tracks⟩ := arrives.chars tracks_start
  obtain ⟨other, fed', tracks'⟩ := (tracks segment 0).readFrom (.start segment)
  obtain rfl : behind = other := Except.ok.inj (fed.symm.trans fed')
  refine ⟨segment, segment.utf8ByteSize, ?_⟩
  rw [Placeholder.join, String.toList_ofList, List.map_take, SegmentReader.feed_joined arrives']
  exact tracks'

end ByteReader

/-- The segment reader behind the segment with the given index, where it is to place a value. -/
def SegmentReader.ReadsTo (segments : List (List Char)) (index : Nat) (behind : SegmentReader) :
    Prop :=
  ∃ reader segment, Arrives Crosses start segments index reader segment ∧
    reader.feed segment = behind

/-- Reading segments is reading the markup that they make.  If the values of a literal have positions,
then in front of each value both readers are where they come to, from the start and without a stop, in
the text of the segments so far with the placeholders between them. -/
theorem feed_join {segments : List String} {places : List Position}
    (read : positions segments = .ok places) {index : Nat} (between : index + 1 < segments.length) :
    (∃ behind, ByteReader.start.feed (Placeholder.join (segments.take (index + 1))) = .ok behind ∧
      ∀ reader, ByteReader.ReadsTo segments index reader ↔ reader = behind) ∧
    ∀ reader, SegmentReader.ReadsTo (segments.map String.toList) index reader ↔
      reader = SegmentReader.start.feed (Placeholder.join (segments.take (index + 1))).toList := by
  obtain ⟨there, target, next, last, after, arrives, behind, position, fed, placed⟩ :=
    ByteReader.exists_arrives (ByteReader.positionsFrom_of_positions read) between
  have readsTo : ByteReader.ReadsTo segments index behind := ⟨there, target, arrives, fed⟩
  obtain ⟨_, _, tracks⟩ := readsTo.tracks
  -- From here on `behind` is the only reader that tracks the segment reader behind the joined text.
  constructor
  · obtain ⟨whole, joined, tracks'⟩ := (ByteReader.tracks_start _ 0).readFrom
      (.start (Placeholder.join (segments.take (index + 1))))
    obtain rfl := tracks.unique tracks' placed
    refine ⟨whole, joined, fun reader => ⟨fun readsTo' => ?_, ?_⟩⟩
    · obtain ⟨_, _, tracks''⟩ := readsTo'.tracks
      exact tracks.unique tracks'' placed
    · rintro rfl
      exact readsTo
  · have joined {there : SegmentReader} {target : List Char}
        (arrives : Arrives SegmentReader.Crosses .start (segments.map String.toList) index there
          target) :
        there.feed target =
          SegmentReader.start.feed (Placeholder.join (segments.take (index + 1))).toList := by
      rw [Placeholder.join, String.toList_ofList, List.map_take, SegmentReader.feed_joined arrives]
    intro reader
    constructor
    · rintro ⟨there, target, arrives, rfl⟩
      exact joined arrives
    · rintro rfl
      obtain ⟨there', arrives', -⟩ := arrives.chars ByteReader.tracks_start
      exact ⟨there', _, arrives', joined arrives'⟩

/-- Behind a quoted value, a letter outside of ASCII and the end tag of raw text. -/
theorem feed_join_styled :
    let segments := ["<p id='", "'>né", "</p><style>b</style><i title=", ">"]
    positions segments = .ok [.attribute "id", .child, .attribute "title"] ∧
      (∃ behind, ByteReader.start.feed (Placeholder.join (segments.take (2 + 1))) = .ok behind ∧
        ∀ reader, ByteReader.ReadsTo segments 2 reader ↔ reader = behind) ∧
      ∀ reader, SegmentReader.ReadsTo (segments.map String.toList) 2 reader ↔
        reader = SegmentReader.start.feed (Placeholder.join (segments.take (2 + 1))).toList := by
  intro segments
  have read : positions segments = .ok [.attribute "id", .child, .attribute "title"] := by
    decide +kernel
  exact ⟨read, feed_join read (by decide)⟩

end LiveMarkup
