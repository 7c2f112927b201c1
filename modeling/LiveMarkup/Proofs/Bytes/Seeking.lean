import LiveMarkup.Proofs.Lockstep.RawText
import LiveMarkup.Proofs.Bytes.Offsets

/-! # Looking up an end tag

The segment reader goes through raw text letter by letter and waits for the start of an end tag.
Looking that up at once leads to the same place: the two agree on where the first one is, or that there
is none (`feed_waiting`).  Only the first character of what is looked for is a less-than sign, so an end
tag that breaks off hides no other one (`feed_unfinished`). -/

namespace LiveMarkup

open Markup SegmentReader

/-! ## Finding a text in a text -/

theorem exists_of_offset? {sought text : List Char} {offset : Nat}
    (found : offset? sought text = some offset) : ∃ front back,
      text = front ++ (sought ++ back) ∧ offset = (String.ofList front).utf8ByteSize := by
  induction text generalizing offset with
  | nil =>
    rw [offset?] at found
    split at found
    · next empty =>
      cases found
      exact ⟨[], [], by rw [empty]; rfl, rfl⟩
    · cases found
  | cons c text ih =>
    rw [offset?] at found
    split at found
    · next begins =>
      cases found
      obtain ⟨back, same⟩ := List.isPrefixOf_iff_prefix.mp begins
      exact ⟨[], back, same.symm, rfl⟩
    · obtain ⟨further, later, rfl⟩ := Option.map_eq_some_iff.mp found
      obtain ⟨front, back, rfl, rfl⟩ := ih later
      exact ⟨c :: front, back, rfl, (utf8ByteSize_cons c front).symm⟩

/-! ## Small letters -/

theorem utf8Size_toLower (c : Char) : c.toLower.utf8Size = c.utf8Size := by
  unfold Char.toLower
  split
  · next capital =>
    -- A capital letter and its small one are both of ASCII.
    have bounds : 'Z'.val.toNat = 90 ∧ ('a'.val - 'A'.val).toNat = 32 ∧ (127 : UInt32).toNat = 127 := by
      decide
    simp only [UInt32.le_iff_toNat_le, ge_iff_le] at capital
    have large : c.utf8Size = 1 := by
      rw [Char.utf8Size_eq_one_iff, UInt32.le_iff_toNat_le]
      omega
    rw [large, Char.utf8Size_eq_one_iff, UInt32.le_iff_toNat_le, UInt32.toNat_add]
    omega
  · rfl

theorem utf8ByteSize_toLower (text : List Char) :
    (String.ofList (text.map Char.toLower)).utf8ByteSize = (String.ofList text).utf8ByteSize := by
  induction text with
  | nil => rfl
  | cons c text ih => rw [List.map_cons, utf8ByteSize_cons, utf8ByteSize_cons, utf8Size_toLower, ih]

theorem toList_lowerCase (text : List Char) :
    (lowerCase (String.ofList text)).toList = text.map Char.toLower := by
  rw [lowerCase, String.toList_map, String.toList_ofList]

/-- Where an end tag is found among small letters, it is spelled in the text, perhaps with capital
ones. -/
theorem exists_endTag {tag : String} {text : List Char} {offset : Nat}
    (found : offset? (endTagStart tag) (text.map Char.toLower) = some offset) :
    ∃ front name back, text = front ++ '<' :: '/' :: (name ++ back) ∧
      offset = (String.ofList front).utf8ByteSize ∧ name.map Char.toLower = tag.toList := by
  obtain ⟨before, after, split, rfl⟩ := exists_of_offset? found
  obtain ⟨front, rest, rfl, rfl, begun⟩ := List.map_eq_append_iff.mp split
  obtain ⟨word, back, rfl, spelled, -⟩ := List.map_eq_append_iff.mp begun
  obtain ⟨less, others, rfl, first, behind⟩ := List.map_eq_cons_iff.mp spelled
  obtain ⟨slash, name, rfl, second, named⟩ := List.map_eq_cons_iff.mp behind
  obtain rfl := eq_of_toLower_eq first rfl
  obtain rfl := eq_of_toLower_eq second rfl
  exact ⟨front, name, back, rfl, utf8ByteSize_toLower front, named⟩

/-- An end tag begins with two characters of one byte. -/
theorem Remains.endTag {text : String} {i : Nat} {front rest : List Char}
    (remains : Remains text i (front ++ '<' :: '/' :: rest)) :
    Remains text (i + (String.ofList front).utf8ByteSize + 2) rest :=
  remains.skip.next.next

/-! ## Waiting for an end tag -/

namespace SegmentReader

variable {reader : SegmentReader} {missing text : List Char} {c : Char}

/-- A reader in raw text that waits for a whole end tag. -/
def waiting (reader : SegmentReader) : SegmentReader :=
  reader.enter (.rawText (endTagStart reader.tag))

/-- A reader that has read the name of the element in an end tag. -/
def leaving (reader : SegmentReader) : SegmentReader :=
  reader.enter (.tagName true reader.tag.toList.reverse)

theorem step_broken (filled : missing ≠ [])
    (broken : missing = endTagStart reader.tag ∨ missing.head? ≠ some c.toLower) :
    (reader.enter (.rawText missing)).step c = reader.waiting.step c := by
  have restart {missing : List Char} (filled : missing ≠ [])
      (broken : missing = endTagStart reader.tag ∨ missing.head? ≠ some c.toLower) :
      (reader.enter (.rawText missing)).step c =
        reader.enter (.rawText (restarted reader.tag c)) := by
    show (reader.enter (.rawText missing)).stepRawText missing c = _
    exact stepRawText_restart filled broken
  rw [restart filled broken]
  exact (restart (List.cons_ne_nil _ _) (.inl rfl)).symm

theorem step_expected (rest : List Char) :
    (reader.enter (.rawText (c.toLower :: rest))).step c =
      if rest = [] then reader.leaving else reader.enter (.rawText rest) := by
  show stepRawText (reader.enter (.rawText (c.toLower :: rest))) (c.toLower :: rest) c = _
  rw [stepRawText, if_pos rfl]
  rfl

theorem step_waiting (other : c ≠ '<') : reader.waiting.step c = reader.waiting := by
  show stepRawText reader.waiting (endTagStart reader.waiting.tag) c = _
  have restart : reader.waiting.stepRawText (endTagStart reader.waiting.tag) c =
      reader.waiting.enter (.rawText (restarted reader.waiting.tag c)) :=
    stepRawText_restart (List.cons_ne_nil _ _) (.inl rfl)
  rw [restart, restarted, if_neg other]
  rfl

/-- What becomes of an end tag of which something is missing still: it is all there, it breaks off and
might not have begun, or the text ends. -/
inductive Unfinished (reader : SegmentReader) (missing text : List Char) : Prop where
  | found {word back : List Char} (split : text = word ++ back)
      (spelled : word.map Char.toLower = missing)
      (leaves : (reader.enter (.rawText missing)).feed text = reader.leaving.feed back)
  | broken (other : ¬ missing <+: text.map Char.toLower)
      (restarts : (reader.enter (.rawText missing)).feed text = reader.waiting.feed text)
  | ended (short : text.length < missing.length)
      (waits : ∃ left, (reader.enter (.rawText missing)).feed text = reader.enter (.rawText left))

theorem feed_unfinished (filled : missing ≠ []) (inside : '<' ∉ missing) :
    Unfinished reader missing text := by
  induction text generalizing missing with
  | nil => exact .ended (List.length_pos_iff.mpr filled) ⟨missing, rfl⟩
  | cons c text ih =>
    obtain ⟨expected, rest, rfl⟩ := List.exists_cons_of_ne_nil filled
    have reads (reader : SegmentReader) : reader.feed (c :: text) = (reader.step c).feed text := rfl
    by_cases accepted : c.toLower = expected
    · subst accepted
      have other : c ≠ '<' := by
        rintro rfl
        exact inside List.mem_cons_self
      by_cases last : rest = []
      · have split : c :: text = [c] ++ text := rfl
        refine .found split (by rw [last]; rfl) ?_
        rw [reads, step_expected, if_pos last]
      · have step : (reader.enter (.rawText (c.toLower :: rest))).step c =
            reader.enter (.rawText rest) := by rw [step_expected, if_neg last]
        cases ih last (fun member => inside (List.mem_cons_of_mem _ member)) with
        | @found word back split spelled leaves =>
          have split' : c :: text = (c :: word) ++ back := by rw [split]; rfl
          refine .found split' ?_ ?_
          · rw [List.map_cons, spelled]
          · rw [reads, step, leaves]
        | broken differs restarts =>
          refine .broken (fun begins => differs ?_) ?_
          · exact (List.cons_prefix_cons.mp begins).2
          · rw [reads, step, restarts, reads, step_waiting other]
        | ended short waits =>
          refine .ended (Nat.succ_lt_succ short) ?_
          rwa [reads, step]
    · refine .broken (fun begins => ?_) ?_
      · exact accepted (List.cons_prefix_cons.mp begins).1.symm
      · rw [reads, step_broken filled (.inr (by simpa using Ne.symm accepted)), reads]

/-- Looking up the end tag comes to the same end as waiting for it. -/
inductive Sought (reader : SegmentReader) (text : List Char) : Option Nat → Prop where
  | found {front name back : List Char} (split : text = front ++ '<' :: '/' :: (name ++ back))
      (spelled : name.map Char.toLower = reader.tag.toList)
      (leaves : reader.waiting.feed text = reader.leaving.feed back) :
      Sought reader text (some (String.ofList front).utf8ByteSize)
  | nowhere (waits : ∃ left, reader.waiting.feed text = reader.enter (.rawText left)) :
      Sought reader text none

theorem Sought.cons {offset : Option Nat} (sought : Sought reader text offset)
    (same : reader.waiting.feed (c :: text) = reader.waiting.feed text) :
    Sought reader (c :: text) (offset.map (c.utf8Size + ·)) := by
  cases sought with
  | @found front name back split spelled leaves =>
    rw [Option.map_some, ← utf8ByteSize_cons]
    exact .found (by rw [split]; rfl) spelled (same.trans leaves)
  | nowhere waits => exact .nowhere (by rwa [same])

theorem offset?_of_short {sought : List Char} (short : text.length < sought.length) :
    offset? sought text = none := by
  refine Option.eq_none_iff_forall_ne_some.mpr fun offset found => ?_
  obtain ⟨front, back, rfl, -⟩ := exists_of_offset? found
  simp only [List.length_append] at short
  omega

theorem lessThan_not_mem (listed : reader.tag ∈ rawTextElements) : '<' ∉ '/' :: reader.tag.toList := by
  intro member
  obtain same | member := List.mem_cons.mp member
  · exact absurd same (by decide)
  · exact ne_of_isAlpha (isAlpha_of_listed listed _ member) '<' rfl rfl

/-- The reader waits in raw text for the end tag that comes first. -/
theorem feed_waiting (listed : reader.tag ∈ rawTextElements) (text : List Char) :
    Sought reader text (offset? (endTagStart reader.tag) (text.map Char.toLower)) := by
  induction text with
  | nil => exact .nowhere ⟨_, rfl⟩
  | cons c text ih =>
    rw [List.map_cons, offset?, utf8Size_toLower]
    by_cases less : c = '<'
    · subst less
      -- One end tag may begin here, and if it breaks off, the first one is further on.
      have begins : (endTagStart reader.tag).isPrefixOf ('<'.toLower :: text.map Char.toLower) = true ↔
          '/' :: reader.tag.toList <+: text.map Char.toLower := by
        rw [List.isPrefixOf_iff_prefix]
        exact List.prefix_cons_inj '<'
      have unfinished : Unfinished reader ('/' :: reader.tag.toList) text :=
        feed_unfinished (List.cons_ne_nil _ _) (lessThan_not_mem listed)
      cases unfinished with
      | @found word back split spelled leaves =>
        have whole : '/' :: reader.tag.toList <+: text.map Char.toLower := by
          rw [split, List.map_append, spelled]
          exact List.prefix_append _ _
        rw [if_pos (begins.mpr whole)]
        obtain ⟨slash, name, rfl, second, named⟩ := List.map_eq_cons_iff.mp spelled
        obtain rfl := eq_of_toLower_eq second rfl
        have here : '<' :: text = [] ++ '<' :: '/' :: (name ++ back) := by rw [split]; rfl
        exact .found here named leaves
      | broken other restarts =>
        rw [if_neg (mt begins.mp other)]
        exact ih.cons restarts
      | ended short waits =>
        have other : ¬ '/' :: reader.tag.toList <+: text.map Char.toLower := by
          intro whole
          have := whole.length_le
          rw [List.length_map] at this
          omega
        rw [if_neg (mt begins.mp other), offset?_of_short]
        · exact .nowhere waits
        · rw [List.length_map]
          exact Nat.lt_succ_of_lt short
    · have other : ¬ (endTagStart reader.tag).isPrefixOf (c.toLower :: text.map Char.toLower) := by
        rw [List.isPrefixOf_iff_prefix]
        intro whole
        exact less (eq_of_toLower_eq (List.cons_prefix_cons.mp whole).1.symm rfl)
      rw [if_neg other]
      exact ih.cons (congrArg (feed · text) (step_waiting less))

end SegmentReader

end LiveMarkup
