import LiveMarkup.Proofs.Planting.Renumbering
import LiveMarkup.Proofs.Planting.Yielding

/-! # The parts of a bed, one by one

A bed is tended part by part.  `Bed.tendPart` gives one part a new value, and `Bed.blank` leaves out
what one part shows.

What one part shows does not matter to the tending of another one (`Bed.tendPart_blank`).  Together
with the tending of nodes that have other numbers, this compares two beds that differ in the output
of one part (`Bed.tendPart_of_blank_eq`). -/

namespace LiveMarkup

open Document Markup

/-! ## Attributes -/

namespace Fixture

/-- The attributes of an element with an empty text in place of the value of one of them. -/
def hush (name : String) (attributes : List (String × String)) : List (String × String) :=
  attributes.map fun pair => if pair.1 = name then (name, "") else pair

/-- A dynamic attribute without the value that is remembered. -/
def forget (fixture : Fixture) : Fixture :=
  { fixture with last := none }

@[simp] theorem names_forget (fixture : Fixture) : fixture.forget.names = fixture.names :=
  rfl

@[simp] theorem forget_tended (fixture : Fixture) (value : Value) :
    (fixture.tended value).forget = fixture.forget := by
  unfold tended
  split <;> rfl

theorem hush_putAttribute_self (name value other : String) (attributes : List (String × String)) :
    hush name (putAttribute name value attributes) =
      hush name (putAttribute name other attributes) := by
  induction attributes with
  | nil => simp [putAttribute, hush]
  | cons pair attributes ih =>
    obtain ⟨key, kept⟩ := pair
    unfold putAttribute
    by_cases same : key = name
    · simp [hush, same]
    · rw [if_neg same, if_neg same]
      exact List.cons_eq_cons.mpr ⟨rfl, ih⟩

theorem hush_putAttribute_of_mem {name : String} {attributes : List (String × String)}
    (present : name ∈ attributes.map Prod.fst) (value : String) :
    hush name (putAttribute name value attributes) = hush name attributes := by
  induction attributes with
  | nil => cases present
  | cons pair attributes ih =>
    obtain ⟨key, kept⟩ := pair
    unfold putAttribute
    by_cases same : key = name
    · simp [hush, same]
    · rw [if_neg same]
      obtain here | there := List.mem_cons.mp present
      · exact absurd here.symm same
      · exact List.cons_eq_cons.mpr ⟨rfl, ih there⟩

theorem hush_putAttribute_of_ne {name other : String} (apart : other ≠ name) (value : String)
    (attributes : List (String × String)) :
    hush name (putAttribute other value attributes) =
      putAttribute other value (hush name attributes) := by
  induction attributes with
  | nil => simp [putAttribute, hush, apart]
  | cons pair attributes ih =>
    obtain ⟨key, kept⟩ := pair
    unfold putAttribute
    by_cases same : key = other
    · subst same
      simp [hush, apart]
    · by_cases own : key = name
      · subst own
        rw [if_neg same]
        simp only [hush, List.map_cons, if_true, if_neg same]
        exact List.cons_eq_cons.mpr ⟨rfl, ih⟩
      · rw [if_neg same]
        simp only [hush, List.map_cons, if_neg own, if_neg same]
        exact List.cons_eq_cons.mpr ⟨rfl, ih⟩

/-- Whatever value an attribute is given, the others come to the same. -/
theorem hush_dressed {fixture : Fixture} {attributes : List (String × String)}
    (worn : fixture.Worn attributes) (value : Value) :
    hush fixture.part.name (fixture.dressed value attributes) =
      hush fixture.part.name (putAttribute fixture.part.name "" attributes) := by
  unfold dressed
  split
  · next keeps =>
    have remembers : fixture.last.isSome := by
      unfold Fixture.keeps at keeps
      cases last : fixture.last with
      | none => simp [last] at keeps
      | some value => rfl
    exact (hush_putAttribute_of_mem (worn remembers) "").symm
  · exact hush_putAttribute_self _ _ _ _

theorem hush_dressed_of_ne {fixture : Fixture} {name : String} (apart : fixture.part.name ≠ name)
    (value : Value) (attributes : List (String × String)) :
    hush name (fixture.dressed value attributes) =
      fixture.dressed value (hush name attributes) := by
  unfold dressed
  split
  · rfl
  · exact hush_putAttribute_of_ne apart _ _

/-! ## The attributes of an element, one by one -/

theorem getElem?_tendAll (node : NodeId) {fixtures : List Fixture} {values : List Value}
    {index : Nat} (behind : values.length ≤ index) (next : Nat) :
    (tendAll node fixtures values next).result[index]? = fixtures[index]? := by
  induction fixtures generalizing values index with
  | nil => rfl
  | cons fixture fixtures ih =>
    cases values with
    | nil => rfl
    | cons value values =>
      obtain _ | index := index
      · cases behind
      · exact ih (Nat.le_of_succ_le_succ behind)

@[simp] theorem length_tendAll (node : NodeId) (fixtures : List Fixture) (values : List Value)
    (next : Nat) : (tendAll node fixtures values next).result.length = fixtures.length := by
  have names := congrArg List.length (names_tendAll node fixtures values next)
  rwa [List.length_map, List.length_map] at names

/-- Values in excess do not matter. -/
theorem tendAll_excess (node : NodeId) {fixtures : List Fixture} {values : List Value}
    (enough : fixtures.length ≤ values.length) (more : List Value) :
    tendAll node fixtures (values ++ more) = tendAll node fixtures values := by
  induction fixtures generalizing values with
  | nil => cases values <;> cases more <;> rfl
  | cons fixture fixtures ih =>
    cases values with
    | nil => cases enough
    | cons value values =>
      rw [List.cons_append, tendAll, tendAll, ih (Nat.le_of_succ_le_succ enough)]

theorem dressAll_excess {fixtures : List Fixture} {values : List Value}
    (enough : fixtures.length ≤ values.length) (more : List Value)
    (attributes : List (String × String)) :
    dressAll fixtures (values ++ more) attributes = dressAll fixtures values attributes := by
  induction fixtures generalizing values attributes with
  | nil => cases values <;> cases more <;> rfl
  | cons fixture fixtures ih =>
    cases values with
    | nil => cases enough
    | cons value values => exact ih (Nat.le_of_succ_le_succ enough) _

/-- One more value is given to the attribute that comes next. -/
theorem tendAll_snoc (node : NodeId) {fixtures : List Fixture} {fixture : Fixture}
    {values : List Value} (here : fixtures[values.length]? = some fixture) (value : Value)
    (next : Nat) :
    tendAll node fixtures (values ++ [value]) next =
      ⟨(tendAll node fixtures values next).result.set values.length (fixture.tended value), next,
        (tendAll node fixtures values next).deeds ++ fixture.deeds node value⟩ := by
  induction fixtures generalizing values with
  | nil => cases here
  | cons first fixtures ih =>
    cases values with
    | nil =>
      cases here
      simp [tendAll]
    | cons earlier values =>
      simp [tendAll, ih here]

theorem dressAll_snoc {fixtures : List Fixture} {fixture : Fixture} {values : List Value}
    (here : fixtures[values.length]? = some fixture) (value : Value)
    (attributes : List (String × String)) :
    dressAll fixtures (values ++ [value]) attributes =
      fixture.dressed value (dressAll fixtures values attributes) := by
  induction fixtures generalizing values attributes with
  | nil => cases here
  | cons first fixtures ih =>
    cases values with
    | nil =>
      cases here
      simp [dressAll]
    | cons earlier values => exact ih here _

end Fixture

/-- An update that leaves anchors where they are. -/
def PlotUpdate.Anchors (update : PlotUpdate) : Prop :=
  ∀ parent plot value next, (update parent plot value next).result.anchor = plot.anchor

theorem Plot.anchors_tend (layout : Template → Stencil) (room : Nat) :
    PlotUpdate.Anchors (tend layout room) := by
  have texts (data : String) (plot : Plot) (next : Nat) :
      (plot.showText data next).result.anchor = plot.anchor := by
    cases plot <;> rfl
  intro parent plot value next
  cases room with
  | zero => exact texts "" plot next
  | succ room =>
    cases value
    case template template values =>
      unfold tend showTemplate
      split
      · split <;> rfl
      · rfl
    case items values =>
      unfold tend showList
      split <;> rfl
    all_goals exact texts _ plot next

/-! ## One part of a bed -/

namespace Bed

/-- Gives the part with the given index a new value. -/
def tendPart (update : PlotUpdate) (parent : NodeId) : Bed → Nat → Value → Tend Bed
  | done, _, _ => pure done
  | element node name space static attributes fixtures below rest, index, value =>
    match fixtures[index]? with
    | some fixture => do
      Tend.record (fixture.deeds node value)
      pure (element node name space static (fixture.dressed value attributes)
        (fixtures.set index (fixture.tended value)) below rest)
    | none =>
      if index < fixtures.length + below.stencil.count then
        (element node name space static attributes fixtures · rest) <$>
          below.tendPart update node (index - fixtures.length) value
      else
        element node name space static attributes fixtures below <$>
          rest.tendPart update parent (index - (fixtures.length + below.stencil.count)) value
  | text node data rest, index, value => text node data <$> rest.tendPart update parent index value
  | comment node data rest, index, value =>
    comment node data <$> rest.tendPart update parent index value
  | gap plot rest, 0, value => (gap · rest) <$> update parent plot value
  | gap plot rest, index + 1, value => gap plot <$> rest.tendPart update parent index value

/-- A bed without what the part with the given index shows: the value of an attribute, or all that
is in a plot but the anchor. -/
def blank : Bed → Nat → Bed
  | done, _ => done
  | element node name space static attributes fixtures below rest, index =>
    match fixtures[index]? with
    | some fixture =>
      element node name space static (Fixture.hush fixture.part.name attributes)
        (fixtures.set index fixture.forget) below rest
    | none =>
      if index < fixtures.length + below.stencil.count then
        element node name space static attributes fixtures (below.blank (index - fixtures.length))
          rest
      else
        element node name space static attributes fixtures below
          (rest.blank (index - (fixtures.length + below.stencil.count)))
  | text node data rest, index => text node data (rest.blank index)
  | comment node data rest, index => comment node data (rest.blank index)
  | gap plot rest, 0 => gap (.text plot.anchor "") rest
  | gap plot rest, index + 1 => gap plot (rest.blank index)

/-! ## Part by part -/

/-- Tending does not change what a bed is a copy of. -/
@[simp] theorem stencil_tend (update : PlotUpdate) (parent : NodeId) (bed : Bed)
    (values : List Value) (next : Nat) :
    (bed.tend update parent values next).result.stencil = bed.stencil := by
  induction bed generalizing parent values next with
  | done => rfl
  | element node name space static attributes fixtures below rest ihBelow ihRest =>
    simp [tend, stencil, ihBelow, ihRest, Fixture.names_tendAll]
  | text node data rest ih | comment node data rest ih => simp [tend, stencil, ih]
  | gap plot rest ih => cases values <;> simp [tend, stencil, ih]

/-- Values in excess do not matter. -/
theorem tend_excess (update : PlotUpdate) (parent : NodeId) {bed : Bed} {values : List Value}
    (enough : bed.stencil.count ≤ values.length) (more : List Value) :
    bed.tend update parent (values ++ more) = bed.tend update parent values := by
  have fills (others : List Value) :
      Fills bed.stencil.count (values.take bed.stencil.count) others :=
    .inl (List.length_take_of_le enough)
  conv_lhs => rw [← List.take_append_drop bed.stencil.count values, List.append_assoc]
  conv_rhs => rw [← List.take_append_drop bed.stencil.count values]
  rw [tend_append update parent (fills _), tend_append update parent (fills _)]

/-- One more value is given to the part that comes next. -/
theorem tend_snoc (update : PlotUpdate) (parent : NodeId) {bed : Bed} {values : List Value}
    (inside : values.length < bed.stencil.count) (value : Value) (next : Nat) :
    bed.tend update parent (values ++ [value]) next =
      (bed.tend update parent values >>= fun bed =>
        bed.tendPart update parent values.length value) next := by
  induction bed generalizing parent values next with
  | done => cases inside
  | element node name space static attributes fixtures below rest ihBelow ihRest =>
    rw [stencil, Stencil.count, List.length_map] at inside
    have nothing {count : Nat} (fewer : values.length < count) :
        (values ++ [value]).drop count = [] ∧ values.drop count = [] :=
      ⟨List.drop_eq_nil_of_le (by simpa using Nat.succ_le_of_lt fewer),
        List.drop_eq_nil_of_le (Nat.le_of_lt fewer)⟩
    have dropped {count : Nat} (enough : count ≤ values.length) :
        (values ++ [value]).drop count = values.drop count ++ [value] :=
      List.drop_append_of_le_length enough
    -- The part that comes next is an attribute of the element, or inside of it, or behind it.
    by_cases own : values.length < fixtures.length
    · have here : fixtures[values.length]? = some fixtures[values.length] :=
        List.getElem?_eq_getElem own
      have still := (Fixture.getElem?_tendAll node (Nat.le_refl _) next).trans here
      simp [tend, tendPart, nothing own, nothing (Nat.lt_add_right below.stencil.count own),
        Fixture.tendAll_snoc node here, Fixture.dressAll_snoc here, still]
    · have past : fixtures.length ≤ values.length := Nat.le_of_not_lt own
      have none : (Fixture.tendAll node fixtures values next).result[values.length]? = none :=
        List.getElem?_eq_none (by simpa using past)
      by_cases inner : values.length < fixtures.length + below.stencil.count
      · have fewer : (values.drop fixtures.length).length < below.stencil.count := by
          rw [List.length_drop]
          omega
        have snoc := ihBelow node fewer
        rw [List.length_drop] at snoc
        simp [tend, tendPart, nothing inner, dropped past, Fixture.tendAll_excess node past,
          Fixture.dressAll_excess past, none, inner, snoc]
      · have beyond : fixtures.length + below.stencil.count ≤ values.length :=
          Nat.le_of_not_lt inner
        have enough : below.stencil.count ≤ (values.drop fixtures.length).length := by
          rw [List.length_drop]
          omega
        have fewer : (values.drop (fixtures.length + below.stencil.count)).length <
            rest.stencil.count := by
          rw [List.length_drop]
          omega
        have snoc := ihRest parent fewer
        rw [List.length_drop] at snoc
        simp [tend, tendPart, dropped past, dropped beyond, Fixture.tendAll_excess node past,
          Fixture.dressAll_excess past, tend_excess update node enough, none, inner, snoc]
  | text node data rest ih | comment node data rest ih => simp [tend, tendPart, ih parent inside]
  | gap plot rest ih =>
    cases values with
    | nil => simp [tend, tendPart]
    | cons first values =>
      have fewer : values.length < rest.stencil.count := Nat.lt_of_succ_lt_succ inside
      simp [tend, tendPart, ih parent fewer]

/-! ## Without one part -/

theorem map_names_set {fixtures : List Fixture} {fixture changed : Fixture} {index : Nat}
    (here : fixtures[index]? = some fixture) (same : changed.names = fixture.names) :
    (fixtures.set index changed).map Fixture.names = fixtures.map Fixture.names := by
  obtain ⟨inside, rfl⟩ := List.getElem?_eq_some_iff.mp here
  rw [List.map_set, same]
  refine List.ext_getElem? fun other => ?_
  by_cases own : index = other
  · subst own
    simp [inside]
  · simp [List.getElem?_set_ne own]

@[simp] theorem stencil_blank (bed : Bed) (index : Nat) :
    (bed.blank index).stencil = bed.stencil := by
  induction bed generalizing index with
  | done => rfl
  | element node name space static attributes fixtures below rest ihBelow ihRest =>
    unfold blank
    cases here : fixtures[index]? with
    | some fixture =>
      simp only [stencil, map_names_set here (Fixture.names_forget fixture)]
    | none =>
      dsimp only
      split <;> simp [stencil, ihBelow, ihRest]
  | text node data rest ih | comment node data rest ih => simp [blank, stencil, ih]
  | gap plot rest ih => cases index <;> simp [blank, stencil, ih]

@[simp] theorem stencil_tendPart (update : PlotUpdate) (parent : NodeId) (bed : Bed) (index : Nat)
    (value : Value) (next : Nat) :
    (bed.tendPart update parent index value next).result.stencil = bed.stencil := by
  induction bed generalizing parent index with
  | done => rfl
  | element node name space static attributes fixtures below rest ihBelow ihRest =>
    unfold tendPart
    cases here : fixtures[index]? with
    | some fixture =>
      have names := map_names_set here (fixture.names_tended value)
      simp only [Tend.bind_apply, Tend.pure_apply, stencil, names]
    | none =>
      dsimp only
      split <;> simp [stencil, ihBelow, ihRest]
  | text node data rest ih | comment node data rest ih => simp [tendPart, stencil, ih]
  | gap plot rest ih => cases index <;> simp [tendPart, stencil, ih]

theorem nodes_blank_sublist (bed : Bed) (index : Nat) :
    (bed.blank index).grove.nodes.Sublist bed.grove.nodes := by
  induction bed generalizing index with
  | done => exact .refl _
  | element node name space static attributes fixtures below rest ihBelow ihRest =>
    unfold blank
    split
    · exact .refl _
    · split
      · exact ((ihBelow _).append (.refl _)).cons_cons node
      · exact ((List.Sublist.refl _).append (ihRest _)).cons_cons node
  | text node data rest ih | comment node data rest ih => exact (ih index).cons_cons node
  | gap plot rest ih =>
    cases index with
    | zero =>
      obtain ⟨data, behind, same⟩ := plot.grove_eq_cons
      have first : [plot.anchor].Sublist plot.grove.nodes := by
        rw [same, Grove.nodes_cons]
        exact List.singleton_sublist.mpr List.mem_cons_self
      simp only [blank, grove, Plot.grove, Grove.nodes_append, Grove.nodes_leaf]
      exact first.append (.refl _)
    | succ index =>
      simp only [blank, grove, Grove.nodes_append]
      exact (List.Sublist.refl _).append (ih index)

/-- Giving a part a new value does not depend on the numbers of nodes. -/
theorem renames_tendPart {rename : NodeId → NodeId} {update : PlotUpdate}
    (renames : update.Renames rename) (bed : Bed) (parent : NodeId) (index : Nat) (value : Value) :
    Tend.Renames rename (Bed.renumber rename) (bed.tendPart update parent index value)
      ((bed.renumber rename).tendPart update (rename parent) index value) := by
  induction bed generalizing parent index with
  | done => exact .pure rfl
  | element node name space static attributes fixtures below rest ihBelow ihRest =>
    simp only [renumber, tendPart, stencil_renumber]
    cases here : fixtures[index]? with
    | some fixture => exact .bind (.record (fixture.deeds_renumber node value)) fun _ => .pure rfl
    | none =>
      dsimp only
      split
      · exact (ihBelow node _).map fun _ => rfl
      · exact (ihRest parent _).map fun _ => rfl
  | text node data rest ih | comment node data rest ih => exact (ih parent index).map fun _ => rfl
  | gap plot rest ih =>
    cases index with
    | zero => exact (renames parent plot value).map fun _ => rfl
    | succ index => exact (ih parent index).map fun _ => rfl

/-- No two attributes of an element have one name. -/
theorem name_ne_of_distinct {static : List (String × String)} {fixtures : List Fixture}
    (distinct : (static.map Prod.fst ++ (fixtures.map Fixture.names).map Prod.fst).Nodup)
    {index other : Nat} (apart : index ≠ other) {fixture fixture' : Fixture}
    (here : fixtures[index]? = some fixture) (there : fixtures[other]? = some fixture') :
    fixture.part.name ≠ fixture'.part.name := by
  have once := (List.nodup_append'.mp distinct).2.1
  rw [List.map_map] at once
  intro same
  have inside : index < (fixtures.map (Prod.fst ∘ Fixture.names)).length := by
    rw [List.length_map]
    exact (List.getElem?_eq_some_iff.mp here).1
  refine apart ((List.getElem?_inj inside once).mp ?_)
  rw [List.getElem?_map, List.getElem?_map, here, there]
  exact congrArg some same

/-- What one part shows does not matter to the tending of another one. -/
theorem tendPart_blank (update : PlotUpdate) (parent : NodeId) {bed : Bed}
    (distinct : bed.stencil.Distinct) {index other : Nat} (apart : other ≠ index) (value : Value)
    (next : Nat) :
    (bed.blank index).tendPart update parent other value next =
      ((Bed.blank · index) <$> bed.tendPart update parent other value) next := by
  induction bed generalizing parent index other with
  | done => rfl
  | element node name space static attributes fixtures below rest ihBelow ihRest =>
    obtain ⟨once, distinctBelow, distinctRest⟩ := distinct
    simp only [tendPart]
    -- Each of the two parts is an attribute here, or it is inside the element or behind it.
    cases here : fixtures[index]? with
    | some fixture =>
      cases there : fixtures[other]? with
      | some fixture' =>
        have names := name_ne_of_distinct once apart there here
        have kept : (fixtures.set index fixture.forget)[other]? = some fixture' := by
          rw [List.getElem?_set_ne (Ne.symm apart), there]
        have kept' : (fixtures.set other (fixture'.tended value))[index]? = some fixture := by
          rw [List.getElem?_set_ne apart, here]
        simp [blank, tendPart, here, kept, kept', Fixture.hush_dressed_of_ne names,
          List.set_comm _ _ apart]
      | none =>
        have kept : (fixtures.set index fixture.forget)[other]? = none := by
          rw [List.getElem?_set_ne (Ne.symm apart), there]
        simp only [blank, tendPart, here, kept, List.length_set]
        split <;> simp [blank, here]
    | none =>
      have past : fixtures.length ≤ index := List.getElem?_eq_none_iff.mp here
      cases there : fixtures[other]? with
      | some fixture' =>
        have kept : (fixtures.set other (fixture'.tended value))[index]? = none := by
          rw [List.getElem?_set_ne apart, here]
        by_cases inner : index < fixtures.length + below.stencil.count <;>
          simp [blank, tendPart, here, there, kept, inner]
      | none =>
        have past' : fixtures.length ≤ other := List.getElem?_eq_none_iff.mp there
        simp only [blank, here]
        by_cases inner : index < fixtures.length + below.stencil.count
        · by_cases inner' : other < fixtures.length + below.stencil.count
          · have further : other - fixtures.length ≠ index - fixtures.length := by omega
            simp [blank, tendPart, here, there, inner, inner', ihBelow node distinctBelow further]
          · simp [blank, tendPart, here, there, inner, inner']
        · by_cases inner' : other < fixtures.length + below.stencil.count
          · simp [blank, tendPart, here, there, inner, inner']
          · have further : other - (fixtures.length + below.stencil.count) ≠
                index - (fixtures.length + below.stencil.count) := by omega
            simp [blank, tendPart, here, there, inner, inner', ihRest parent distinctRest further]
  | text node data rest ih | comment node data rest ih =>
    simp [blank, tendPart, ih parent distinct apart]
  | gap plot rest ih =>
    obtain _ | index := index
    · obtain _ | other := other
      · exact absurd rfl apart
      · simp [blank, tendPart]
    · obtain _ | other := other
      · simp [blank, tendPart]
      · have further : other ≠ index := fun same => apart (congrArg (· + 1) same)
        simp [blank, tendPart, ih parent distinct further]

/-! ## The same part with two values -/

/-- Whatever value a part is given, the others come to the same. -/
theorem blank_tendPart {update : PlotUpdate} (anchors : update.Anchors) (parent : NodeId)
    {bed : Bed} (worn : bed.Worn) (index : Nat) (value other : Value) (next : Nat) :
    (bed.tendPart update parent index value next).result.blank index =
      (bed.tendPart update parent index other next).result.blank index := by
  induction bed generalizing parent index with
  | done => rfl
  | element node name space static attributes fixtures below rest ihBelow ihRest =>
    obtain ⟨own, inner, later⟩ := worn
    cases here : fixtures[index]? with
    | some fixture =>
      have among := own fixture (List.mem_of_getElem? here)
      have kept (value : Value) :
          (fixtures.set index (fixture.tended value))[index]? = some (fixture.tended value) := by
        rw [List.getElem?_set_self (List.getElem?_eq_some_iff.mp here).1]
      simp [tendPart, blank, here, kept, Fixture.hush_dressed among]
    | none =>
      by_cases inside : index < fixtures.length + below.stencil.count
      · simp [tendPart, blank, here, inside, ihBelow node inner]
      · simp [tendPart, blank, here, inside, ihRest parent later]
  | text node data rest ih | comment node data rest ih =>
    have worn : rest.Worn := worn
    simp [tendPart, blank, ih parent worn]
  | gap plot rest ih =>
    cases index with
    | zero => simp [tendPart, blank, anchors parent plot]
    | succ index =>
      have worn : rest.Worn := worn
      simp [tendPart, blank, ih parent worn]

/-- Two beds that only differ in what one part shows, and in the numbers of nodes, go on to do so
when another part is given a new value, which takes the same changes. -/
theorem tendPart_of_blank_eq {rename : NodeId → NodeId} {update : PlotUpdate}
    (renames : update.Renames rename) {parent : NodeId} (stays : rename parent = parent)
    {bed bed' : Bed} (distinct : bed.stencil.Distinct) {index other : Nat} (apart : other ≠ index)
    (same : bed'.blank index = (bed.blank index).renumber rename) (value : Value) {next next' : Nat}
    (shifts : Shifts rename next (bed.tendPart update parent other value next).next next') :
    let harvest := bed.tendPart update parent other value next
    let harvest' := bed'.tendPart update parent other value next'
    harvest'.result.blank index = (harvest.result.blank index).renumber rename ∧
      harvest'.next = next' + (harvest.next - next) ∧
      harvest'.deeds = harvest.deeds.map (Mutation.renumber rename) := by
  have stencil : bed'.stencil = bed.stencil := by
    rw [← stencil_blank bed' index, same, stencil_renumber, stencil_blank]
  have left := tendPart_blank update parent distinct apart value next
  have right := tendPart_blank update parent (stencil ▸ distinct) apart value next'
  obtain ⟨-, agree⟩ := renames_tendPart renames (bed.blank index) parent other value next
  rw [stays, ← same, left] at agree
  have agree := agree next' shifts
  rwa [right] at agree

/-- Giving a part a new value leaves the nodes as they are, but for those that the part shows. -/
theorem nodes_blank_tendPart {update : PlotUpdate} (anchors : update.Anchors) (parent : NodeId)
    (bed : Bed) (index : Nat) (value : Value) (next : Nat) :
    ((bed.tendPart update parent index value next).result.blank index).grove.nodes =
      (bed.blank index).grove.nodes := by
  induction bed generalizing parent index with
  | done => rfl
  | element node name space static attributes fixtures below rest ihBelow ihRest =>
    cases here : fixtures[index]? with
    | some fixture =>
      have kept : (fixtures.set index (fixture.tended value))[index]? =
          some (fixture.tended value) := by
        rw [List.getElem?_set_self (List.getElem?_eq_some_iff.mp here).1]
      simp [tendPart, blank, here, kept, grove]
    | none =>
      by_cases inside : index < fixtures.length + below.stencil.count
      · simp [tendPart, blank, here, inside, ihBelow node, grove]
      · simp [tendPart, blank, here, inside, ihRest parent, grove]
  | text node data rest ih | comment node data rest ih =>
    simp [tendPart, blank, ih parent, grove]
  | gap plot rest ih =>
    cases index with
    | zero => simp [tendPart, blank, anchors parent plot, grove, Plot.grove]
    | succ index => simp [tendPart, blank, ih parent, grove]

end Bed

end LiveMarkup
