import LiveMarkup.Proofs.Planting.Parting
import Mathlib.Order.Monotone.Basic

/-! # One bed with two lists of values

A bed is tended with two lists of values that only differ at one index.  It comes to the same but for
what that part shows, and for the numbers of the nodes that are created after those of that part.

The one part creates more nodes in the one case than in the other, and those behind are shifted by
the difference (`NodeId.shift`). -/

namespace LiveMarkup

open Document Markup

/-- The numbers from the first one on become those from the second one on. -/
def NodeId.shift (first second : Nat) (node : NodeId) : NodeId :=
  if node.number < first then node else ⟨second + (node.number - first)⟩

/-- No two numbers become the same, but for those that are left out on the way. -/
theorem NodeId.shift_injective {least first second : Nat} (enough : least ≤ second)
    {node other : NodeId} (kept : node.number < least ∨ first ≤ node.number)
    (kept' : other.number < least ∨ first ≤ other.number)
    (same : node.shift first second = other.shift first second) : node = other := by
  obtain ⟨number⟩ := node
  obtain ⟨number'⟩ := other
  unfold NodeId.shift at same
  dsimp only at kept kept' same
  split at same <;> split at same <;> simp only [NodeId.mk.injEq] at same ⊢ <;> omega

theorem Shifts.shift_lower {first second start stop : Nat} (early : stop ≤ first) :
    Shifts (NodeId.shift first second) start stop start :=
  .of_fixed fun _ below => if_pos (Nat.lt_of_lt_of_le below early)

theorem Shifts.shift_upper {first second start stop : Nat} (past : first ≤ start) :
    Shifts (NodeId.shift first second) start stop (second + (start - first)) := by
  intro number least _
  rw [NodeId.shift, if_neg (Nat.not_lt.mpr (past.trans least)), NodeId.mk.injEq]
  dsimp only
  omega

/-- Lists that only differ at one index are the same up to there. -/
theorem take_eq_take {values values' : List Value} {index count : Nat}
    (same : ∀ other, other ≠ index → values'[other]? = values[other]?) (early : count ≤ index) :
    values'.take count = values.take count := by
  refine List.ext_getElem? fun other => ?_
  rw [List.getElem?_take, List.getElem?_take]
  split
  · next below => exact same other (Nat.ne_of_lt (Nat.lt_of_lt_of_le below early))
  · rfl

/-- Goes on with a bed by giving one of its parts a new value. -/
def Harvest.tendPart (update : PlotUpdate) (parent : NodeId) (harvest : Harvest Bed) (index : Nat)
    (value : Value) : Harvest Bed :=
  let more := harvest.result.tendPart update parent index value harvest.next
  ⟨more.result, more.next, harvest.deeds ++ more.deeds⟩

/-- Two harvests, with a number of parts tended, differ in one part alone.  Their beds are the same but
for what this part shows and for the numbers of nodes.  Up to this part both have created the same
nodes, and behind it as many. -/
structure Harvest.Abreast (first second index count : Nat) (harvest harvest' : Harvest Bed) :
    Prop where
  blanks : harvest'.result.blank index =
    (harvest.result.blank index).renumber (NodeId.shift first second)
  before : count ≤ index → harvest'.next = harvest.next
  behind : index < count →
    first ≤ harvest.next ∧ harvest'.next = second + (harvest.next - first)

namespace Bed

/-- One more of the values is given to the part that comes next. -/
theorem tend_take_succ (update : PlotUpdate) (parent : NodeId) {bed : Bed} {values : List Value}
    {count : Nat} (inside : count < bed.stencil.count) {value : Value}
    (given : values[count]? = some value) (next : Nat) :
    bed.tend update parent (values.take (count + 1)) next =
      (bed.tend update parent (values.take count) next).tendPart update parent count value := by
  have length : (values.take count).length = count :=
    List.length_take_of_le (Nat.le_of_lt (List.getElem?_eq_some_iff.mp given).1)
  have snoc : bed.tend update parent (values.take count ++ [value]) next = _ :=
    tend_snoc update parent (length.symm ▸ inside) value next
  rwa [length, ← Option.toList_some, ← given, ← List.take_add_one] at snoc

/-- Two values for the same part, in a bed whose nodes keep their numbers. -/
theorem blank_tendPart_renumber {rename : NodeId → NodeId} {update : PlotUpdate}
    (anchors : update.Anchors) (parent : NodeId) {bed : Bed} (worn : bed.Worn) (index : Nat)
    (value other : Value) (next : Nat) (same : ∀ node ∈ bed.grove.nodes, rename node = node) :
    (bed.tendPart update parent index other next).result.blank index =
      ((bed.tendPart update parent index value next).result.blank index).renumber rename := by
  rw [← blank_tendPart anchors parent worn index value other]
  refine (renumber_eq_self fun node member => same node ?_).symm
  rw [nodes_blank_tendPart anchors] at member
  exact (nodes_blank_sublist bed index).subset member

section

variable {update : PlotUpdate} {parent : NodeId} {bed : Bed} {values values' : List Value}
  {index next : Nat}

/-- No nodes are given up on the way from part to part. -/
theorem monotone_next_tend (renames : update.Renames id)
    (enough : values.length = bed.stencil.count) :
    Monotone fun count => (bed.tend update parent (values.take count) next).next := by
  refine monotone_nat_of_le_succ fun count => ?_
  by_cases inside : count < values.length
  · have given := List.getElem?_eq_getElem inside
    rw [tend_take_succ update parent (enough ▸ inside) given]
    exact (renames_tendPart renames _ parent count _ _).1
  · have all := Nat.le_of_not_lt inside
    rw [List.take_of_length_le all, List.take_of_length_le (Nat.le_succ_of_le all)]

/-- Two harvests that differ in one part alone go on to do so when another part is given a new value,
which takes the same changes. -/
theorem abreast_tendPart {first second count : Nat} {harvest harvest' : Harvest Bed}
    (abreast : harvest.Abreast first second index count harvest')
    (renames : ∀ rename, update.Renames rename) (stays : parent.shift first second = parent)
    (distinct : harvest.result.stencil.Distinct) (apart : count ≠ index) (value : Value)
    (early : count < index → (harvest.tendPart update parent count value).next ≤ first) :
    (harvest.tendPart update parent count value).Abreast first second index (count + 1)
        (harvest'.tendPart update parent count value) ∧
      (harvest'.tendPart update parent count value).deeds = harvest'.deeds ++
        (harvest.result.tendPart update parent count value harvest.next).deeds.map
          (Mutation.renumber (NodeId.shift first second)) := by
  have grows : harvest.next ≤ (harvest.tendPart update parent count value).next :=
    (renames_tendPart (renames id) harvest.result parent count value harvest.next).1
  -- Before the part in question nothing is renumbered, and behind it all is shifted by as much.
  have shifts : Shifts (NodeId.shift first second) harvest.next
      (harvest.tendPart update parent count value).next harvest'.next := by
    obtain before | behind := Nat.lt_or_gt_of_ne apart
    · rw [abreast.before (Nat.le_of_lt before)]
      exact .shift_lower (early before)
    · obtain ⟨past, next⟩ := abreast.behind behind
      rw [next]
      exact .shift_upper past
  obtain ⟨blanks, next, deeds⟩ :=
    tendPart_of_blank_eq (renames _) stays distinct apart abreast.blanks value shifts
  have next : (harvest'.tendPart update parent count value).next =
      harvest'.next + ((harvest.tendPart update parent count value).next - harvest.next) := next
  refine ⟨⟨blanks, fun before => ?_, fun behind => ?_⟩, congrArg _ deeds⟩
  · rw [next, abreast.before (Nat.le_of_succ_le before), Nat.add_sub_of_le grows]
  · obtain ⟨past, same⟩ :=
      abreast.behind (Nat.lt_of_le_of_ne (Nat.le_of_lt_succ behind) (Ne.symm apart))
    omega

/-- So it does when both lists have the same value for that part. -/
theorem abreast_succ {first second count : Nat} (renames : ∀ rename, update.Renames rename)
    (stays : parent.shift first second = parent) (distinct : bed.stencil.Distinct)
    (within : count < bed.stencil.count) (apart : count ≠ index) {value : Value}
    (given : values[count]? = some value) (given' : values'[count]? = some value)
    (abreast : (bed.tend update parent (values.take count) next).Abreast first second index count
      (bed.tend update parent (values'.take count) next))
    (early : count < index →
      (bed.tend update parent (values.take (count + 1)) next).next ≤ first) :
    (bed.tend update parent (values.take (count + 1)) next).Abreast first second index (count + 1)
        (bed.tend update parent (values'.take (count + 1)) next) ∧
      ∃ deeds, (bed.tend update parent (values.take (count + 1)) next).deeds =
          (bed.tend update parent (values.take count) next).deeds ++ deeds ∧
        (bed.tend update parent (values'.take (count + 1)) next).deeds =
          (bed.tend update parent (values'.take count) next).deeds ++
            deeds.map (Mutation.renumber (NodeId.shift first second)) := by
  rw [tend_take_succ update parent within given] at early ⊢
  rw [tend_take_succ update parent within given']
  obtain ⟨abreast, deeds⟩ :=
    abreast_tendPart abreast renames stays (by simpa using distinct) apart value early
  exact ⟨abreast, _, rfl, deeds⟩

/-- Before the part in question there is no difference. -/
theorem abreast_self {first second count : Nat} {harvest : Harvest Bed} (early : count ≤ index)
    (below : ∀ node ∈ harvest.result.grove.nodes, node.number < first) :
    harvest.Abreast first second index count harvest where
  blanks := (renumber_eq_self fun node member =>
    if_pos (below node ((nodes_blank_sublist _ _).subset member))).symm
  before _ := rfl
  behind late := absurd late (Nat.not_lt.mpr early)

/-- What the part in question shows does not matter. -/
theorem abreast_tendPart_own (anchors : update.Anchors) {harvest : Harvest Bed}
    (worn : harvest.result.Worn) (value other : Value)
    (below : ∀ node ∈ harvest.result.grove.nodes,
      node.number < (harvest.tendPart update parent index value).next) :
    (harvest.tendPart update parent index value).Abreast
      (harvest.tendPart update parent index value).next
      (harvest.tendPart update parent index other).next index (index + 1)
      (harvest.tendPart update parent index other) where
  blanks := blank_tendPart_renumber anchors parent worn index value other harvest.next
    fun node member => if_pos (below node member)
  before late := absurd late (Nat.not_succ_le_self index)
  behind _ := ⟨Nat.le_refl _, by simp⟩

/-- If two lists of values only differ at one index, then a bed that is tended with them comes to the
same but for what that part shows and for the numbers of the nodes that are created later on, and the
other parts take the same changes. -/
theorem tend_of_same_but (renames : ∀ rename, update.Renames rename) (anchors : update.Anchors)
    (worn : bed.Worn) (distinct : bed.stencil.Distinct) (inside : index < bed.stencil.count)
    (enough : values.length = bed.stencil.count) (enough' : values'.length = bed.stencil.count)
    (same : ∀ other, other ≠ index → values'[other]? = values[other]?)
    (above : parent.number < next)
    (bounded : ∀ count ≤ index,
      ∀ node ∈ (bed.tend update parent (values.take count) next).result.grove.nodes,
        node.number < (bed.tend update parent (values.take count) next).next) :
    let work (count : Nat) := bed.tend update parent (values.take count) next
    let work' (count : Nat) := bed.tend update parent (values'.take count) next
    let rename := NodeId.shift (work (index + 1)).next (work' (index + 1)).next
    (∀ count ≤ bed.stencil.count,
      (work' count).result.blank index = ((work count).result.blank index).renumber rename) ∧
    ∀ other < bed.stencil.count, other ≠ index → ∃ deeds,
      (work (other + 1)).deeds = (work other).deeds ++ deeds ∧
        (work' (other + 1)).deeds =
          (work' other).deeds ++ deeds.map (Mutation.renumber rename) := by
  intro work work' rename
  have equal {count : Nat} (early : count ≤ index) : work' count = work count :=
    congrArg (bed.tend update parent · next) (take_eq_take same early)
  have grows : Monotone fun count => (work count).next := monotone_next_tend (renames id) enough
  have below {count : Nat} (early : count ≤ index) (node : NodeId)
      (member : node ∈ (work count).result.grove.nodes) :
      node.number < (work (index + 1)).next :=
    Nat.lt_of_lt_of_le (bounded count early node member) (grows (Nat.le_succ_of_le early))
  have stays : rename parent = parent := by
    have start : next ≤ (work (index + 1)).next := by simpa [work] using grows (Nat.zero_le _)
    exact if_pos (Nat.lt_of_lt_of_le above start)
  -- Both lists have a value for each part, and the same one for all parts but one.
  have given {count : Nat} (within : count < bed.stencil.count) :
      values[count]? = some (values.get ⟨count, Nat.lt_of_lt_of_eq within enough.symm⟩) :=
    List.getElem?_eq_getElem _
  have step {count : Nat} (within : count < bed.stencil.count) (apart : count ≠ index)
      (abreast : (work count).Abreast (work (index + 1)).next (work' (index + 1)).next index count
        (work' count)) :=
    abreast_succ renames stays distinct within apart (given within)
      ((same count apart).trans (given within)) abreast
      fun early => grows (Nat.succ_le_succ (Nat.le_of_lt early))
  have abreast (count : Nat) (within : count ≤ bed.stencil.count) :
      (work count).Abreast (work (index + 1)).next (work' (index + 1)).next index count
        (work' count) := by
    induction count with
    | zero =>
      rw [equal (Nat.zero_le index)]
      exact abreast_self (Nat.zero_le index) (below (Nat.zero_le index))
    | succ count ih =>
      by_cases own : count = index
      · subst own
        have given' := List.getElem?_eq_getElem (Nat.lt_of_lt_of_eq inside enough'.symm)
        have more : work (count + 1) = (work count).tendPart update parent count _ :=
          tend_take_succ update parent within (given within) next
        have more' : work' (count + 1) = (work' count).tendPart update parent count _ :=
          tend_take_succ update parent within given' next
        have low := below (Nat.le_refl count)
        rw [more', equal (Nat.le_refl count)]
        rw [more] at low ⊢
        exact abreast_tendPart_own anchors (worn.tend ..) _ _ low
      · exact (step within own (ih (Nat.le_of_succ_le within))).1
  exact ⟨fun count within => (abreast count within).blanks, fun other within apart =>
    (step within apart (abreast other (Nat.le_of_lt within))).2⟩

end

end Bed

end LiveMarkup
