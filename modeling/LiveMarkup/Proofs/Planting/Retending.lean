import LiveMarkup.Proofs.Committing
import LiveMarkup.Proofs.Planting.Parting
import LiveMarkup.Proofs.Planting.States

/-! # Tending again

A bed that has been given some values and is given the same ones again stays as it is.  No node is
created, and the only changes that are recorded set attributes to what they are already: a list and a
refused template are not remembered, so they are committed again.

`Plot.Rests` says this of one plot and one value.  A tended plot rests, by induction on the room for
templates and lists (`Plot.settles_tend`), and the attributes of an element do because they have
different names. -/

namespace LiveMarkup

open Document Markup

variable {σ : Type}

/-! ## Attributes and their values -/

/-- A dynamic attribute of an element, and a value that is given to it. -/
structure Assignment where
  element : NodeId
  part : AttributePart
  value : Value

mutual

/-- The dynamic attributes in an instance, with those of given values that go to them. -/
def Instance.assigned : Instance σ → List Value → List Assignment
  | .mk _ _ bindings, values => Binding.assigned bindings values

def Binding.assigned : List (Binding σ) → List Value → List Assignment
  | .attribute own :: bindings, value :: values =>
    ⟨own.element, own.part, value⟩ :: Binding.assigned bindings values
  | .outlet outlet :: bindings, value :: values =>
    Outlet.assigned outlet value ++ Binding.assigned bindings values
  | _, _ => []

def Outlet.assigned : Outlet σ → Value → List Assignment
  | .nested _ inner, .template _ values => Instance.assigned inner values
  | .items _ outlets, .items values => Outlet.assignedAll outlets values
  | _, _ => []

def Outlet.assignedAll : List (Outlet σ) → List Value → List Assignment
  | outlet :: outlets, value :: values =>
    Outlet.assigned outlet value ++ Outlet.assignedAll outlets values
  | _, _ => []

end

/-- The changes that set attributes again whose values are not remembered. -/
def resets (assigned : List Assignment) : List Mutation :=
  (assigned.filter fun entry => !entry.value.isPrimitive).map fun entry =>
    .setAttribute entry.element entry.part.name entry.value.shownText

@[simp] theorem resets_nil : resets [] = [] :=
  rfl

@[simp] theorem resets_append (assigned more : List Assignment) :
    resets (assigned ++ more) = resets assigned ++ resets more := by
  simp [resets]

theorem Binding.assigned_append (bindings more : List (Binding σ)) (values : List Value) :
    Binding.assigned (bindings ++ more) values =
      Binding.assigned bindings values ++ Binding.assigned more (values.drop bindings.length) := by
  induction bindings generalizing values with
  | nil => simp [Binding.assigned]
  | cons binding bindings ih =>
    cases values with
    | nil => cases binding <;> cases more <;> simp [Binding.assigned]
    | cons value values => cases binding <;> simp [Binding.assigned, ih]

/-! ## One attribute -/

namespace Fixture

/-- An attribute remembers the value that it has been given, if that is primitive. -/
theorem keeps_tended (fixture : Fixture) (value : Value) :
    (fixture.tended value).keeps value = value.isPrimitive := by
  unfold tended
  by_cases keeps : fixture.keeps value
  · obtain ⟨last, -, same⟩ := Option.any_eq_true _ _ |>.mp keeps
    rw [if_pos keeps, keeps, (Value.samePrimitive_iff.mp same).2]
  · rw [if_neg keeps]
    cases primitive : value.isPrimitive with
    | true => simp [Fixture.keeps, Value.samePrimitive_iff, primitive]
    | false => simp [Fixture.keeps]

@[simp] theorem tended_tended (fixture : Fixture) (value : Value) :
    (fixture.tended value).tended value = fixture.tended value := by
  have keeps := fixture.keeps_tended value
  cases primitive : value.isPrimitive with
  | true => rw [Fixture.tended, if_pos (keeps.trans primitive)]
  | false =>
    have forgets : ¬ fixture.keeps value := fun holds => by
      rw [Fixture.tended, if_pos holds, holds, primitive] at keeps
      cases keeps
    simp [Fixture.tended, forgets, primitive]

theorem deeds_tended (node : NodeId) (fixture : Fixture) (value : Value) :
    (fixture.tended value).deeds node value = resets [⟨node, fixture.part, value⟩] := by
  rw [deeds, keeps_tended, part_tended]
  cases primitive : value.isPrimitive <;> simp [resets, primitive]

/-- What the attributes of an element are given. -/
def assigned (node : NodeId) (fixtures : List Fixture) (values : List Value) : List Assignment :=
  List.zipWith (fun (fixture : Fixture) value => ⟨node, fixture.part, value⟩) fixtures values

theorem assigned_bindings (node : NodeId) (fixtures : List Fixture) (values : List Value) :
    Binding.assigned (fixtures.map fun fixture =>
      Binding.attribute (fixture.binding node : AttributeBinding σ)) values =
      assigned node fixtures values := by
  induction fixtures generalizing values with
  | nil => cases values <;> rfl
  | cons fixture fixtures ih =>
    cases values with
    | nil => rfl
    | cons value values => exact congrArg _ (ih values)

theorem exists_of_mem_assigned {node : NodeId} {fixtures : List Fixture} {values : List Value}
    {entry : Assignment} (member : entry ∈ assigned node fixtures values) :
    ∃ (index : Nat) (fixture : Fixture) (value : Value), fixtures[index]? = some fixture ∧
      values[index]? = some value ∧ entry = ⟨node, fixture.part, value⟩ := by
  obtain ⟨index, there⟩ := List.mem_iff_getElem?.mp member
  rw [assigned, List.getElem?_zipWith] at there
  cases own : fixtures[index]? with
  | none => simp [own] at there
  | some fixture =>
    cases given : values[index]? with
    | none => simp [own, given] at there
    | some value =>
      simp only [own, given, Option.some.injEq] at there
      exact ⟨index, fixture, value, own, given, there.symm⟩

/-- What is assigned does not depend on what is remembered. -/
theorem assigned_tendAll (node : NodeId) (fixtures : List Fixture) (values others : List Value)
    (next : Nat) :
    assigned node (tendAll node fixtures values next).result others =
      assigned node fixtures others := by
  induction fixtures generalizing values others with
  | nil => cases values <;> rfl
  | cons fixture fixtures ih =>
    cases values with
    | nil => rfl
    | cons value values =>
      cases others with
      | nil => rfl
      | cons other others => simpa [tendAll, assigned] using ih values others

/-- Attributes that have been given values and are given them again. -/
theorem tendAll_tendAll (node : NodeId) (fixtures : List Fixture) (values : List Value)
    (next next' : Nat) :
    let tended := (tendAll node fixtures values next).result
    tendAll node tended values next' = ⟨tended, next', resets (assigned node tended values)⟩ := by
  induction fixtures generalizing values with
  | nil => cases values <;> rfl
  | cons fixture fixtures ih =>
    cases values with
    | nil => rfl
    | cons value values =>
      have here : (fixture.tended value).deeds node value =
          resets [⟨node, (fixture.tended value).part, value⟩] := by
        rw [deeds_tended, part_tended]
      have behind := ih values
      dsimp only at behind
      simp only [tendAll, Tend.bind_apply, Tend.record_apply, Tend.pure_apply, behind, here,
        tended_tended, List.append_nil, next_tendAll]
      exact congrArg _ (resets_append _ _).symm

/-! ## The attributes of an element -/

theorem lookup_dressed_of_ne {fixture : Fixture} {name : String} (apart : name ≠ fixture.part.name)
    (value : Value) (attributes : List (String × String)) :
    (fixture.dressed value attributes).lookup name = attributes.lookup name := by
  unfold dressed
  split
  · rfl
  · exact lookup_putAttribute_of_ne apart _ _

/-- Other attributes keep their values. -/
theorem lookup_dressAll {fixtures : List Fixture} {name : String}
    (apart : name ∉ fixtures.map (·.part.name)) (values : List Value)
    (attributes : List (String × String)) :
    (dressAll fixtures values attributes).lookup name = attributes.lookup name := by
  induction fixtures generalizing values attributes with
  | nil => rfl
  | cons fixture fixtures ih =>
    cases values with
    | nil => rfl
    | cons value values =>
      rw [List.map_cons, List.mem_cons, not_or] at apart
      exact (ih apart.2 values _).trans (lookup_dressed_of_ne apart.1 value attributes)

/-- A value that is not primitive is set. -/
theorem lookup_dressed {fixture : Fixture} {value : Value} (inert : value.isPrimitive = false)
    (attributes : List (String × String)) :
    (fixture.dressed value attributes).lookup fixture.part.name = some value.shownText := by
  have forgets : fixture.keeps value ≠ true := by
    intro keeps
    obtain ⟨last, -, same⟩ := Option.any_eq_true _ _ |>.mp keeps
    rw [(Value.samePrimitive_iff.mp same).2] at inert
    cases inert
  rw [dressed, if_neg forgets, lookup_putAttribute_self]

/-- Attributes of different names show the values that are not primitive. -/
theorem lookup_dressAll_of_getElem? {fixtures : List Fixture} {values : List Value}
    (once : (fixtures.map (·.part.name)).Nodup) {index : Nat} {fixture : Fixture} {value : Value}
    (own : fixtures[index]? = some fixture) (given : values[index]? = some value)
    (inert : value.isPrimitive = false) (attributes : List (String × String)) :
    (dressAll fixtures values attributes).lookup fixture.part.name = some value.shownText := by
  induction fixtures generalizing values index attributes with
  | nil => cases own
  | cons first fixtures ih =>
    obtain _ | ⟨head, values⟩ := values
    · cases given
    rw [List.map_cons, List.nodup_cons] at once
    cases index with
    | zero =>
      cases own
      cases given
      exact (lookup_dressAll once.1 values _).trans (lookup_dressed inert attributes)
    | succ index => exact ih once.2 own given _

/-- What shows already does not change. -/
theorem dressAll_of_lookup (node : NodeId) {fixtures : List Fixture} {values : List Value}
    {attributes : List (String × String)} (next : Nat)
    (shows : ∀ (index : Nat) (fixture : Fixture) (value : Value), fixtures[index]? = some fixture →
      values[index]? = some value → value.isPrimitive = false →
      attributes.lookup fixture.part.name = some value.shownText) :
    dressAll (tendAll node fixtures values next).result values attributes = attributes := by
  induction fixtures generalizing values with
  | nil => rfl
  | cons fixture fixtures ih =>
    cases values with
    | nil => rfl
    | cons value values =>
      have here : (fixture.tended value).dressed value attributes = attributes := by
        rw [dressed, keeps_tended, part_tended]
        cases primitive : value.isPrimitive with
        | true => rfl
        | false => exact putAttribute_of_lookup (shows 0 fixture value rfl rfl primitive)
      simp only [tendAll, Tend.bind_apply, Tend.record_apply, Tend.pure_apply, dressAll, here]
      exact ih fun index => shows (index + 1)

/-- Elements that have been dressed stay as they are. -/
theorem dressAll_dressAll (node : NodeId) {fixtures : List Fixture}
    (once : (fixtures.map (·.part.name)).Nodup) (values : List Value)
    (attributes : List (String × String)) (next : Nat) :
    dressAll (tendAll node fixtures values next).result values (dressAll fixtures values attributes) =
      dressAll fixtures values attributes :=
  dressAll_of_lookup node next fun _ _ _ own given inert =>
    lookup_dressAll_of_getElem? once own given inert attributes

end Fixture

/-! ## Settled values -/

/-- A value for a part may be what something has settled to.  It is not deferred, and templates that
are content are of the given sort. -/
inductive Value.SettledFor (sort : Template → Prop) : Part → Value → Prop where
  | primitive {part : Part} {value : Value} (shape : value.shape = .primitive) :
      SettledFor sort part value
  | bound {own : AttributePart} {value : Value} (shape : value.shape ≠ .deferred) :
      SettledFor sort (.attribute own) value
  | template {path : Path} {template : Template} {values : List Value} (fits : sort template)
      (inside : ∀ (index : Nat) (part : Part) (value : Value),
        template.blueprint.parts[index]? = some part → values[index]? = some value →
        SettledFor sort part value) :
      SettledFor sort (.node path) (.template template values)
  | items {path : Path} {values : List Value}
      (inside : ∀ value ∈ values, SettledFor sort (.node path) value) :
      SettledFor sort (.node path) (.items values)

/-- Each part has a settled value, as long as there are any. -/
def AllSettled (sort : Template → Prop) (parts : List Part) (values : List Value) : Prop :=
  ∀ (index : Nat) (part : Part) (value : Value), parts[index]? = some part →
    values[index]? = some value → value.SettledFor sort part

variable {sort : Template → Prop}

theorem Value.SettledFor.shape_ne {part : Part} {value : Value} (settled : value.SettledFor sort part) :
    value.shape ≠ .deferred := by
  cases settled with
  | primitive shape => simp [shape]
  | bound shape => exact shape
  | template => exact nofun
  | items => exact nofun

namespace AllSettled

variable {part : Part} {parts more : List Part} {value : Value} {values : List Value}

theorem left (settled : AllSettled sort (parts ++ more) values) : AllSettled sort parts values := by
  intro index part value there given
  have early : index < parts.length := (List.getElem?_eq_some_iff.mp there).1
  exact settled index part value (by rwa [List.getElem?_append_left early]) given

theorem right (settled : AllSettled sort (parts ++ more) values) :
    AllSettled sort more (values.drop parts.length) := by
  intro index part value there given
  rw [List.getElem?_drop] at given
  refine settled (parts.length + index) part value ?_ given
  rwa [List.getElem?_append_right (Nat.le_add_right _ _), Nat.add_sub_cancel_left]

theorem head (settled : AllSettled sort (part :: parts) (value :: values)) :
    value.SettledFor sort part :=
  settled 0 part value rfl rfl

theorem tail (settled : AllSettled sort (part :: parts) (value :: values)) :
    AllSettled sort parts values :=
  fun index => settled (index + 1)

theorem cons (here : value.SettledFor sort part) (behind : AllSettled sort parts values) :
    AllSettled sort (part :: parts) (value :: values) := by
  intro index first own there given
  cases index with
  | zero =>
    cases there
    cases given
    exact here
  | succ index => exact behind index first own there given

end AllSettled

/-! ## What is set again -/

/-- If the value of an attribute is not remembered, it is a list or a template, and the attribute is
what it would be set to again. -/
def Assignment.Stands (document : Document) (entry : Assignment) : Prop :=
  entry.value.isPrimitive = false →
    (entry.value.shape = .template ∨ entry.value.shape = .items) ∧
      document.attribute? entry.element entry.part.name = some entry.value.shownText

theorem Fixture.stands_assigned {document : Document} {node : NodeId} {name : String}
    {space : Option String} {fixtures : List Fixture} {values : List Value}
    {attributes : List (String × String)}
    (data : document.data? node = some (.element name space (dressAll fixtures values attributes)))
    (once : (fixtures.map (·.part.name)).Nodup) {path : Path}
    (settled : AllSettled sort (Stencil.boundParts path (fixtures.map Fixture.names)) values) :
    ∀ entry ∈ assigned node fixtures values, entry.Stands document := by
  intro entry member inert
  obtain ⟨index, fixture, value, own, given, rfl⟩ := exists_of_mem_assigned member
  constructor
  · have resolved := (settled index _ value (by simp [Stencil.boundParts, own]; rfl) given).shape_ne
    cases shape : value.shape <;> simp_all [Value.isPrimitive]
  · simp only [Document.attribute?, data]
    exact lookup_dressAll_of_getElem? once own given inert attributes

/-! ## Rest -/

section

variable (σ : Type) (update : PlotUpdate) (parent : NodeId)

/-- A plot with a value stays as it is when it is given that value again. -/
structure Plot.Rests (plot : Plot) (value : Value) : Prop where
  again : ∀ next, update parent plot value next =
    ⟨plot, next, resets ((plot.outlet : Outlet σ).assigned value)⟩
  stands : ∀ (document : Document) (above : Option NodeId), plot.grove.Bears document above →
    ∀ entry ∈ (plot.outlet : Outlet σ).assigned value, entry.Stands document

/-- A bed with values stays as it is when it is given them again. -/
structure Bed.Rests (bed : Bed) (values : List Value) : Prop where
  again : ∀ next, bed.tend update parent values next =
    ⟨bed, next, resets (Binding.assigned (bed.bindings : List (Binding σ)) values)⟩
  stands : ∀ (document : Document) (above : Option NodeId), bed.grove.Bears document above →
    ∀ entry ∈ Binding.assigned (bed.bindings : List (Binding σ)) values, entry.Stands document

/-- Plots in a row with items stay as they are when they are given them again. -/
structure Plot.AllRest (plots : List Plot) (values : List Value) : Prop where
  again : ∀ next, showItems update parent plots values next =
    ⟨plots, next, resets (Outlet.assignedAll (Plot.outlets plots : List (Outlet σ)) values)⟩
  stands : ∀ (document : Document) (above : Option NodeId),
    (Plot.groves plots).Bears document above →
    ∀ entry ∈ Outlet.assignedAll (Plot.outlets plots : List (Outlet σ)) values, entry.Stands document

/-- An update that leaves every sound plot at rest. -/
def PlotUpdate.Settles (sort : Template → Prop) : Prop :=
  ∀ (parent : NodeId) {plot : Plot} {value : Value} {path : Path} (next : Nat), plot.Sound →
    value.SettledFor sort (.node path) →
    Plot.Rests σ update parent (update parent plot value next).result value

end

variable {update : PlotUpdate}

theorem Bed.assigned_element (node : NodeId) (name : String) (space : Option String)
    (static attributes : List (String × String)) (fixtures : List Fixture) (below rest : Bed)
    (values : List Value) :
    let whole := element node name space static attributes fixtures below rest
    Binding.assigned (whole.bindings : List (Binding σ)) values =
      Fixture.assigned node fixtures values ++
        (Binding.assigned (below.bindings : List (Binding σ)) (values.drop fixtures.length) ++
          Binding.assigned (rest.bindings : List (Binding σ))
            (values.drop (fixtures.length + below.stencil.count))) := by
  dsimp only
  rw [bindings, Binding.assigned_append, Binding.assigned_append, Fixture.assigned_bindings,
    List.length_map, length_bindings, List.drop_drop]

/-- A tended bed is at rest. -/
theorem Bed.rests_tend (settles : update.Settles σ sort) {bed : Bed} (sound : bed.Sound)
    (distinct : bed.stencil.Distinct) {path : Path} {child : Nat} {values : List Value}
    (settled : AllSettled sort (bed.stencil.partsAt path child) values) (parent : NodeId)
    (next : Nat) :
    Bed.Rests σ update parent (bed.tend update parent values next).result values := by
  induction bed generalizing values parent path child next with
  | done =>
    constructor
    case again => exact fun next => by cases values <;> rfl
    case stands => cases values <;> exact fun _ _ _ => List.forall_mem_nil _
  | element node name space static attributes fixtures below rest ihBelow ihRest =>
    obtain ⟨once, distinctBelow, distinctRest⟩ := distinct
    obtain ⟨soundBelow, soundRest⟩ := sound
    -- The attributes have different names, so setting one again leaves the others as they are.
    have named : (fixtures.map (·.part.name)).Nodup := by
      have own := (List.nodup_append.mp once).2.1
      rwa [List.map_map] at own
    have inner := settled.right.left
    have later := settled.right.right
    rw [Stencil.length_boundParts, List.length_map] at inner later
    rw [Stencil.length_partsAt, List.drop_drop] at later
    have own' := Fixture.tendAll_tendAll node fixtures values next
    have below' := ihBelow soundBelow distinctBelow inner node
      (Fixture.tendAll node fixtures values next).next
    have rest' := ihRest soundRest distinctRest later parent
      (below.tend update node (values.drop fixtures.length)
        (Fixture.tendAll node fixtures values next).next).next
    dsimp only at own'
    constructor
    case again =>
      intro next
      simp only [tend, Tend.bind_apply, Tend.pure_apply, Fixture.length_tendAll, stencil_tend, own',
        below'.again, rest'.again, Fixture.dressAll_dressAll node named, assigned_element,
        resets_append, List.append_nil]
    case stands =>
      rintro document above ⟨cell, bears, behind⟩
      simp only [tend, Tend.bind_apply, Tend.pure_apply, assigned_element, Fixture.length_tendAll,
        stencil_tend, Fixture.assigned_tendAll]
      refine List.forall_mem_append.mpr ⟨?_, List.forall_mem_append.mpr ⟨?_, ?_⟩⟩
      · exact Fixture.stands_assigned (Document.data?_of_cell? cell) named settled.left
      · exact below'.stands document _ bears
      · exact rest'.stands document above behind
  | text node data rest ih =>
    have rest' := ih sound distinct settled parent next
    constructor
    case again => exact fun next => by simp [tend, rest'.again, bindings]
    case stands => exact fun document above bears => rest'.stands document above bears.2.2
  | comment node data rest ih =>
    have rest' := ih sound distinct settled parent next
    constructor
    case again => exact fun next => by simp [tend, rest'.again, bindings]
    case stands => exact fun document above bears => rest'.stands document above bears.2.2
  | gap plot rest ih =>
    obtain ⟨soundPlot, soundRest⟩ := sound
    cases values with
    | nil =>
      constructor
      case again => exact fun next => rfl
      case stands => exact fun _ _ _ => List.forall_mem_nil _
    | cons value values =>
      have here := settles parent next soundPlot settled.head
      have rest' := ih soundRest distinct settled.tail parent (update parent plot value next).next
      constructor
      case again =>
        intro next
        simp [tend, here.again, rest'.again, bindings, Binding.assigned]
      case stands =>
        intro document above bears
        obtain ⟨own, behind⟩ := Grove.bears_append.mp bears
        exact List.forall_mem_append.mpr
          ⟨here.stands document above own, rest'.stands document above behind⟩

namespace Plot

variable {parent : NodeId} {value : Value}

/-- A text has no attributes. -/
theorem assigned_text (anchor : NodeId) (data : String) (value : Value) :
    ((text anchor data).outlet : Outlet σ).assigned value = [] := by
  rw [outlet]
  split <;> cases value <;> rfl

/-- A text that is shown stays. -/
theorem rests_showText {data : String}
    (shows : ∀ plot : Plot, update parent plot value = plot.showText data) (plot : Plot) (next : Nat) :
    Plot.Rests σ update parent (update parent plot value next).result value := by
  have result : (update parent plot value next).result = text plot.anchor data := by
    rw [shows]
    cases plot <;> rfl
  rw [result]
  constructor
  case again => exact fun next => by simp [shows, showText, writing, assigned_text]
  case stands => simp [assigned_text]

/-- Items that have been given their values are at rest. -/
theorem rests_showItems (settles : update.Settles σ sort) {path : Path} {plots : List Plot}
    (sound : Plot.AllSound plots) {values : List Value}
    (settled : ∀ value ∈ values, value.SettledFor sort (.node path)) (parent : NodeId) (next : Nat) :
    Plot.AllRest σ update parent (showItems update parent plots values next).result values := by
  induction values generalizing plots next with
  | nil =>
    have gone : (showItems update parent plots [] next).result = [] := by cases plots <;> rfl
    rw [gone]
    exact ⟨fun next => rfl, nofun⟩
  | cons value values ih =>
    obtain ⟨own, others⟩ := List.forall_mem_cons.mp settled
    have cons {first : Plot} {rest : List Plot} (here : Plot.Rests σ update parent first value)
        (behind : Plot.AllRest σ update parent rest values) :
        Plot.AllRest σ update parent (first :: rest) (value :: values) := by
      constructor
      case again =>
        intro next
        simp [showItems, here.again, behind.again, outlets, Outlet.assignedAll]
      case stands =>
        intro document above bears
        obtain ⟨inside, after⟩ := Grove.bears_append.mp bears
        exact List.forall_mem_append.mpr
          ⟨here.stands document above inside, behind.stands document above after⟩
    cases plots with
    | nil => exact cons (settles parent (next + 1) trivial own) (ih sound others _)
    | cons plot plots => exact cons (settles parent next sound.1 own) (ih sound.2 others _)

variable {layout : Template → Stencil}

/-- A plot that has been given a settled value is at rest, whatever it has shown before. -/
theorem settles_tend (laid : Layout sort layout)
    (distinct : ∀ template, sort template → ∀ stencil : Stencil,
      template.blueprint = stencil.blueprint → stencil.Distinct) (room : Nat) :
    (tend layout room).Settles σ sort := by
  induction room with
  | zero => exact fun parent plot value path next _ _ => rests_showText (fun plot => rfl) plot next
  | succ room ih =>
    intro parent plot value path next sound settled
    match value with
    | .template template values =>
      cases settled with
      | primitive shape => cases shape
      | template fits inside =>
      -- The old bed and a new one are tended alike.
      have nested (anchor : NodeId) {bed : Bed} (sound : bed.Sound)
          (same : template.blueprint = bed.stencil.blueprint) (next : Nat) :
          Plot.Rests σ (tend layout (room + 1)) parent
            (nested anchor template (bed.tend (tend layout room) parent values next).result)
            (.template template values) := by
        have parts : AllSettled sort (bed.stencil.partsAt [] 0) values := by
          rw [same] at inside
          exact inside
        have rests := Bed.rests_tend ih sound (distinct template fits _ same) parts parent next
        constructor
        case again =>
          intro next
          simp [tend, showTemplate, rests.again, outlet, Outlet.assigned, Instance.assigned]
        case stands => exact fun document above bears => rests.stands document above bears.2.2
      have replaced (plot : Plot) (next : Nat) : Plot.Rests σ (tend layout (room + 1)) parent
          (plot.replace layout (tend layout room) parent template values next).result
          (.template template values) := by
        refine nested plot.anchor ((layout template).sound_sow none [] 0 _) ?_ _
        rw [Stencil.stencil_sow]
        exact laid template fits
      cases plot with
      | nested anchor old bed =>
        by_cases same : old = template
        · subst same
          simpa [tend, showTemplate] using nested anchor sound.2 sound.1 next
        · simpa [tend, showTemplate, same] using replaced (.nested anchor old bed) next
      | text anchor data => exact replaced (.text anchor data) next
      | items anchor plots => exact replaced (.items anchor plots) next
    | .items values =>
      cases settled with
      | primitive shape => cases shape
      | items inside =>
      have listed (anchor : NodeId) {plots : List Plot} (sound : Plot.AllSound plots) (next : Nat) :
          Plot.Rests σ (tend layout (room + 1)) parent
            (items anchor (showItems (tend layout room) parent plots values next).result)
            (.items values) := by
        have rests := rests_showItems ih sound inside parent next
        constructor
        case again =>
          intro next
          simp [tend, showList, rests.again, outlet, Outlet.assigned]
        case stands => exact fun document above bears => rests.stands document above bears.2.2
      have none : Plot.AllSound [] := trivial
      cases plot with
      | items anchor plots => exact listed anchor sound next
      | text anchor data => exact listed anchor none next
      | nested anchor old bed => exact listed anchor none _
    | .empty | .text _ | .integer _ | .float _ | .bool _ | .deferred _ =>
      exact rests_showText (fun plot => rfl) plot next

end Plot

end LiveMarkup
