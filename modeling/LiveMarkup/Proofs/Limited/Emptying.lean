import LiveMarkup.Proofs.Limited.Mirroring

/-! # Templates that count as empty

An update on a stage that shows little is compared with one in which a template that no instance can
be made of never gets as far as to be instantiated: it is reported, in one diagnostic, and counts as
the empty value from then on (`emptyMissing`).  The two come to the same, but for the nodes of the
copies that could not be bound, and for the numbers of the nodes created after them
(`Outlet.mirrors_update`).

No outlet ever holds an instance of such a template, as `Outlet.Tame` says.  So it always takes a
new one to show it, and that takes away what was there before it fails. -/

namespace LiveMarkup

open Document Markup

variable {α β σ : Type}

/-! ## Updates that revise values -/

/-- A way to go on with what the value of a content part has resolved to.  The number is the depth of
what is inside of it. -/
abbrev Revision (σ : Type) :=
  Nat → Value → RenderM σ Value

/-- Gives an outlet a new value, as `Outlet.update` does, but goes on with what the resolved value is
revised to. -/
def Outlet.updateWith (revise : Revision σ) (setting : Setting σ) : Nat → OutletUpdate σ
  | 0, part, outlet, _ => do
    report part (setting.depthAt 0) (.tooDeep setting.config.depthLimit)
    outlet.vacate
  | room + 1, part, outlet, value => do
    match ← (setting.environment.resolve setting.config.maxInvocations value).run with
    | .error error =>
      report part (setting.depthAt (room + 1)) error
      outlet.vacate
    | .ok value =>
      match ← revise (setting.depthAt room) value with
      | .template template values =>
        outlet.showTemplate setting (updateWith revise setting room) part (setting.depthAt room)
          template values
      | .items values => outlet.showList (updateWith revise setting room) part values
      | value => outlet.showText (value.primitiveText.getD "")

/-- With all values as they are, this is the update of an outlet. -/
theorem Outlet.updateWith_pure (setting : Setting σ) (room : Nat) :
    Outlet.updateWith (fun _ value => pure value) setting room = Outlet.update setting room := by
  induction room with
  | zero => rfl
  | succ room ih =>
    funext part outlet value
    rw [Outlet.updateWith, Outlet.update, ih]
    refine congrArg _ (funext fun outcome => ?_)
    obtain error | value := outcome
    · rfl
    · cases value <;> rfl

/-- A template that has a part beyond what the stage shows is reported, with the first such part, and
counts as empty. -/
def emptyMissing (limit : Nat) : Revision σ
  | depth, .template template values =>
    match template.missing? limit with
    | none => pure (.template template values)
    | some (index, path) => do
      report index depth (.noNode path)
      pure .empty
  | _, value => pure value

variable {setting : Setting σ} {limit count : Nat} {rename : NodeId → NodeId}

/-! ## Attributes -/

/-- An attribute part of the default strategy, and the one of the element with the other number. -/
def AttributeBinding.Corresponds (rename : NodeId → NodeId) (size : Nat)
    (binding binding' : AttributeBinding σ) : Prop :=
  (binding.element.number < size ∧ binding.strategy = .setAttribute) ∧
    binding' = { binding with element := rename binding.element }

theorem AttributeBinding.mirrors_commit {binding : AttributeBinding σ}
    (has : binding.element.number < count) (plain : binding.strategy = .setAttribute)
    (part depth : Nat) (value : Value) :
    Mirrors limit rename count (binding.commit part depth value)
      (({ binding with element := rename binding.element } : AttributeBinding σ).commit part depth
        value) (AttributeBinding.Corresponds · · · ·) := by
  obtain ⟨element, own, strategy, last⟩ := binding
  obtain rfl : strategy = .setAttribute := plain
  have sets (text : String) {size : Nat} : Parallel rename size
      (do
        Stage.note (.attributeSet own.name text)
        Stage.setAttribute element own.name text
        pure (.ok ()) : StageM (Except ResolutionError Unit))
      (do
        Stage.note (.attributeSet own.name text)
        Stage.setAttribute (rename element) own.name text
        pure (.ok ())) fun _ (result result' : Except ResolutionError Unit) =>
          result = .ok () ∧ result' = .ok () :=
    .noting ((parallel_setAttribute _ _ _).bind fun _ _ _ _ _ => .pure fun _ _ => ⟨rfl, rfl⟩)
  have keeps (last : Option Value) {size : Nat} (more : count ≤ size) :
      AttributeBinding.Corresponds rename size
        (⟨element, own, .setAttribute, last⟩ : AttributeBinding σ)
        ⟨rename element, own, .setAttribute, last⟩ :=
    ⟨⟨Nat.lt_of_lt_of_le has more, rfl⟩, rfl⟩
  unfold AttributeBinding.commit
  dsimp only
  cases texts : value.attributeText with
  | ok text =>
    rw [commit_setAttribute _ _ texts, commit_setAttribute _ _ texts]
    refine .scene (sets text) fun size _ _ more results => ?_
    obtain ⟨rfl, rfl⟩ := results
    exact .pure fun _ more' => keeps _ (Nat.le_trans more more')
  | error error =>
    have nothing : Value.empty.attributeText = .ok "" := rfl
    rw [commit_setAttribute_error _ _ texts, commit_setAttribute_error _ _ texts]
    simp only [liftM_pure, pure_bind]
    refine .reporting ?_
    rw [commit_setAttribute _ _ nothing, commit_setAttribute _ _ nothing]
    refine .scene (sets "") fun size _ _ more results => ?_
    obtain ⟨rfl, rfl⟩ := results
    exact .pure fun _ more' => keeps _ (Nat.le_trans more more')

section

variable (yields : setting.environment.Yields Template.Compiled)

include yields

theorem AttributeBinding.mirrors_update {binding : AttributeBinding σ}
    (has : binding.element.number < count) (plain : binding.strategy = .setAttribute)
    (part depth : Nat) {value : Value} (proper : value.Proper Template.Compiled) :
    Mirrors limit rename count (binding.update setting part depth value)
      (({ binding with element := rename binding.element } : AttributeBinding σ).update setting part
        depth value) (AttributeBinding.Corresponds · · · ·) := by
  -- The strategy and what was shown last do not depend on the numbering, so both sides decide
  -- alike.
  have resolved (value : Value) : Mirrors limit rename count
      (if binding.last.any (·.samePrimitive value) then do
        Stage.note .attributeSame
        pure binding
      else binding.commit part depth value : RenderM σ (AttributeBinding σ))
      (if binding.last.any (·.samePrimitive value) then do
        Stage.note .attributeSame
        pure { binding with element := rename binding.element }
      else ({ binding with element := rename binding.element } : AttributeBinding σ).commit part depth
        value) (AttributeBinding.Corresponds · · · ·) := by
    split
    · exact .noting (.pure fun _ more => ⟨⟨Nat.lt_of_lt_of_le has more, plain⟩, rfl⟩)
    · exact mirrors_commit has plain part depth value
  unfold AttributeBinding.update
  refine .follow (follows_resolveLevels yields.alike _ proper) ?_
  intro result result' read first second
  cases first with
  | error error =>
    generalize named : setting.relabel error = relabelled at second
    cases second with
    | error error' =>
      dsimp only
      rw [named]
      exact .reporting (resolved .empty)
  | ok holds =>
    cases second with
    | ok holds' =>
      obtain ⟨rfl, -⟩ := holds
      obtain ⟨rfl, -⟩ := holds'
      exact resolved _

/-! ## Bindings -/

/-- Two ways to give an outlet new content come to the same for all outlets that are tame. -/
def OutletUpdate.Mirrors (limit : Nat) (update update' : OutletUpdate σ) : Prop :=
  ∀ ⦃rename : NodeId → NodeId⦄ ⦃count : Nat⦄ (part : Nat) ⦃outlet : Outlet σ⦄,
    outlet.Tame limit (·.number < count) → ∀ ⦃value : Value⦄, value.Proper Template.Compiled →
      LiveMarkup.Mirrors limit rename count (update part outlet value)
        (update' part (outlet.renumber rename) value) (Outlet.Corresponds limit · · · ·)

/-- Tame bindings, and those with other numbers. -/
def Binding.AllCorrespond (limit : Nat) (rename : NodeId → NodeId) (size : Nat)
    (bindings bindings' : List (Binding σ)) : Prop :=
  Binding.AllTame limit (·.number < size) bindings ∧ bindings' = Binding.renumberAll rename bindings

variable {update update' : OutletUpdate σ} (mirrors : update.Mirrors limit update')

include mirrors

theorem mirrors_updateBindings (depth index : Nat) {bindings : List (Binding σ)}
    (tame : Binding.AllTame limit (·.number < count) bindings) (parts : List Part)
    {values : List Value} (proper : ∀ value ∈ values, value.Proper Template.Compiled) :
    Mirrors limit rename count (updateBindings setting update depth index bindings parts values)
      (updateBindings setting update' depth index (Binding.renumberAll rename bindings) parts values)
      (Binding.AllCorrespond limit · · · ·) := by
  have done {rename : NodeId → NodeId} {count : Nat} {bindings : List (Binding σ)}
      (tame : Binding.AllTame limit (·.number < count) bindings) :
      Mirrors limit rename count (pure bindings : RenderM σ (List (Binding σ)))
        (pure (Binding.renumberAll rename bindings)) (Binding.AllCorrespond limit · · · ·) :=
    .pure fun _ more => ⟨tame.later more, rfl⟩
  induction bindings generalizing index parts values count rename with
  | nil =>
    cases parts <;> cases values <;> exact done tame
  | cons binding bindings ih =>
    cases parts with
    | nil => exact done tame
    | cons part parts =>
    cases values with
    | nil => exact done tame
    | cons value values =>
    obtain ⟨here, later⟩ := List.forall_mem_cons.mp proper
    obtain ⟨first, rest⟩ := tame
    -- The numbering may have changed with the first binding.  The others only know nodes from before.
    have behind (rename' : NodeId → NodeId) (size : Nat) (first first' : Binding σ)
        (more : count ≤ size) (same : ∀ node : NodeId, node.number < count → rename' node = rename node)
        (kept : first.Tame limit (·.number < size) ∧ first' = first.renumber rename') :
        Mirrors limit rename' size
          (do
            let rest ← updateBindings setting update depth (index + 1) bindings parts values
            pure (first :: rest))
          (do
            let rest ← updateBindings setting update' depth (index + 1)
              (Binding.renumberAll rename bindings) parts values
            pure (first' :: rest)) (Binding.AllCorrespond limit · · · ·) := by
      obtain ⟨kept, rfl⟩ := kept
      rw [← rest.renumberAll_congr same]
      refine (ih (index + 1) (rest.later more) parts later).bind ?_
      rintro rename'' size' others _ more' same' ⟨tame, rfl⟩
      refine .pure fun _ more'' => ⟨⟨?_, ?_⟩, ?_⟩
      · exact kept.later (Nat.le_trans more' more'')
      · exact tame.later more''
      · rw [Binding.renumberAll, kept.renumber_congr same']
    rw [Binding.renumberAll, updateBindings, updateBindings]
    obtain binding | outlet := binding
    · refine .noting (.bind (.map ((binding.mirrors_update yields first.1 first.2 index depth here).mono
        ?_)) behind)
      rintro rename' size binding _ - - ⟨kept, rfl⟩ - -
      exact ⟨kept, rfl⟩
    · refine .noting (.bind (.map ((mirrors index first here).mono ?_)) behind)
      rintro rename' size outlet _ - - ⟨kept, rfl⟩ - -
      exact ⟨kept, rfl⟩

theorem Instance.mirrors_update (depth : Nat) {inner : Instance σ}
    (tame : inner.Tame limit (·.number < count)) {values : List Value}
    (proper : ∀ value ∈ values, value.Proper Template.Compiled) :
    Mirrors limit rename count (inner.update setting update depth values)
      ((inner.renumber rename).update setting update' depth values)
      (Instance.Corresponds limit · inner.template · · ·) := by
  obtain ⟨template, roots, bindings⟩ := inner
  obtain ⟨near, all, tame⟩ := tame
  refine (mirrors_updateBindings yields mirrors depth 0 tame template.blueprint.parts proper).bind ?_
  rintro rename' size updated _ more same ⟨tame, rfl⟩
  refine .pure fun _ more' => ⟨⟨near, fun root member => ?_, ?_⟩, rfl, ?_⟩
  · exact Nat.lt_of_lt_of_le (all root member) (Nat.le_trans more more')
  · exact tame.later more'
  · have roots' : roots.map rename' = roots.map rename :=
      List.map_congr_left fun root member => same root (all root member)
    exact congrArg (Instance.mk template · _) roots'.symm

/-! ## Templates -/

section

variable (plain : setting.strategies = []) {template : Template} (near : template.missing? limit = none)
  {values : List Value} (proper : ∀ value ∈ values, value.Proper Template.Compiled)

include plain near proper

theorem Outlet.mirrors_replace (part depth : Nat) {outlet : Outlet σ}
    (tame : outlet.Tame limit (·.number < count)) :
    Mirrors limit rename count
      (Outlet.showTemplate.replace setting update part depth outlet template values)
      (Outlet.showTemplate.replace setting update' part depth (outlet.renumber rename) template values)
      (Outlet.Corresponds limit · · · ·) := by
  unfold Outlet.showTemplate.replace
  rw [plain, Outlet.anchor_renumber]
  refine .perform tame.parallel_clear fun size _ _ more _ => ?_
  have anchor := Nat.lt_of_lt_of_le tame.anchor more
  refine .perform (parallel_make near) fun size' made made' more' both => ?_
  obtain ⟨rfl, makes⟩ := both
  obtain ⟨missing, error⟩ | inner := made
  · refine .noting (.reporting (.pure fun _ later => ⟨?_, rfl⟩))
    exact Nat.lt_of_lt_of_le anchor (Nat.le_trans more' later)
  · obtain ⟨tame, same⟩ := makes inner rfl
    refine .perform (parallel_place part tame.roots) fun size'' _ _ more'' _ => ?_
    have anchor := Nat.lt_of_lt_of_le anchor (Nat.le_trans more' more'')
    refine .map ((Instance.mirrors_update yields mirrors depth
      (tame.later more'') proper).mono ?_)
    rintro rename' last updated _ later same ⟨tame, -, rfl⟩ - -
    refine ⟨⟨Nat.lt_of_lt_of_le anchor later, tame⟩, ?_⟩
    exact congrArg (Outlet.nested · _) (same _ anchor).symm

/-- A template that no part is missing of is shown, in the instance that is there if it is of the same
template. -/
theorem Outlet.mirrors_showTemplate (part depth : Nat) {outlet : Outlet σ}
    (tame : outlet.Tame limit (·.number < count)) :
    Mirrors limit rename count (outlet.showTemplate setting update part depth template values)
      ((outlet.renumber rename).showTemplate setting update' part depth template values)
      (Outlet.Corresponds limit · · · ·) := by
  have replaces : Mirrors limit rename count _ _ (Outlet.Corresponds limit · · · ·) :=
    Outlet.mirrors_replace yields mirrors plain near proper part depth tame
  cases outlet with
  | vacant anchor => exact replaces
  | text anchor data => exact replaces
  | items anchor outlets => exact replaces
  | nested anchor inner =>
    rw [Outlet.renumber] at replaces ⊢
    unfold Outlet.showTemplate
    dsimp only
    rw [Instance.template_renumber]
    split
    · obtain ⟨anchor, tame⟩ := tame
      refine .noting (.map ((Instance.mirrors_update yields mirrors depth tame proper).mono ?_))
      rintro rename' size updated _ more same ⟨tame, -, rfl⟩ - -
      exact ⟨⟨Nat.lt_of_lt_of_le anchor more, tame⟩, congrArg (Outlet.nested · _) (same _ anchor).symm⟩
    · exact replaces

end

/-! ## Lists -/

/-- Tame outlets, and those with other numbers. -/
def Outlet.AllCorrespond (limit : Nat) (rename : NodeId → NodeId) (size : Nat)
    (outlets outlets' : List (Outlet σ)) : Prop :=
  Outlet.AllTame limit (·.number < size) outlets ∧ outlets' = Outlet.renumberAll rename outlets

omit yields in
theorem Outlet.mirrors_showItems (part item : Nat) {last : NodeId} (has : last.number < count)
    {outlets : List (Outlet σ)} (tame : Outlet.AllTame limit (·.number < count) outlets)
    {values : List Value} (proper : ∀ value ∈ values, value.Proper Template.Compiled) :
    Mirrors limit rename count (Outlet.showItems update part item last outlets values)
      (Outlet.showItems update' part item (rename last) (Outlet.renumberAll rename outlets) values)
      (Outlet.AllCorrespond limit · · · ·) := by
  induction values generalizing item last outlets count rename with
  | nil =>
    cases outlets with
    | nil => exact .pure fun _ _ => ⟨trivial, rfl⟩
    | cons outlet outlets =>
      exact .noting (.perform tame.parallel_dropAll fun _ _ _ _ _ => .pure fun _ _ => ⟨trivial, rfl⟩)
  | cons value values ih =>
    obtain ⟨here, later⟩ := List.forall_mem_cons.mp proper
    -- As with bindings, whether the first outlet was there or its anchor has just been created.
    have behind {rename : NodeId → NodeId} {count : Nat} {outlets : List (Outlet σ)}
        (tame : Outlet.AllTame limit (·.number < count) outlets) (rename' : NodeId → NodeId)
        (size : Nat) (first first' : Outlet σ) (more : count ≤ size)
        (same : ∀ node : NodeId, node.number < count → rename' node = rename node)
        (kept : first.Corresponds limit rename' size first') :
        Mirrors limit rename' size
          (do
            let rest ← Outlet.showItems update part (item + 1) first.lastNode outlets values
            pure (first :: rest))
          (do
            let rest ← Outlet.showItems update' part (item + 1) first'.lastNode
              (Outlet.renumberAll rename outlets) values
            pure (first' :: rest)) (Outlet.AllCorrespond limit · · · ·) := by
      obtain ⟨kept, rfl⟩ := kept
      obtain ⟨has, renumbered⟩ := @Outlet.Tame.lastNode σ limit _ rename' _ kept
      rw [← tame.renumberAll_congr same, renumbered]
      refine (ih (item + 1) has (tame.later more) later).bind ?_
      rintro rename'' size' others _ more' same' ⟨tame, rfl⟩
      refine .pure fun _ more'' => ⟨⟨?_, ?_⟩, ?_⟩
      · exact kept.later (Nat.le_trans more' more'')
      · exact tame.later more''
      · rw [Outlet.renumberAll, kept.renumber_congr same']
    cases outlets with
    | cons outlet outlets =>
      exact (mirrors part tame.1 here).bind (behind tame.2)
    | nil =>
      refine .perform (parallel_makeAnchor part item last) fun size anchor _ more renumbered => ?_
      obtain ⟨known, rfl⟩ := renumbered
      have vacant : (Outlet.vacant anchor : Outlet σ).Tame limit (·.number < size) := known
      have nothing : Outlet.AllTame limit (·.number < size) ([] : List (Outlet σ)) := trivial
      exact (mirrors part vacant here).bind (behind nothing)

omit yields in
/-- A list is shown, in the outlets that are there if one was shown before. -/
theorem Outlet.mirrors_showList (part : Nat) {outlet : Outlet σ}
    (tame : outlet.Tame limit (·.number < count)) {values : List Value}
    (proper : ∀ value ∈ values, value.Proper Template.Compiled) :
    Mirrors limit rename count (outlet.showList update part values)
      ((outlet.renumber rename).showList update' part values) (Outlet.Corresponds limit · · · ·) := by
  have shows {size : Nat} {anchor : NodeId} (more : count ≤ size) (has : anchor.number < size)
      {outlets : List (Outlet σ)} (tame : Outlet.AllTame limit (·.number < size) outlets) :
      Mirrors limit rename size (.items anchor <$> Outlet.showItems update part 0 anchor outlets values)
        (.items (rename anchor) <$> Outlet.showItems update' part 0 (rename anchor)
          (Outlet.renumberAll rename outlets) values) (Outlet.Corresponds limit · · · ·) := by
    refine .map ((Outlet.mirrors_showItems mirrors part 0 has tame proper).mono ?_)
    rintro rename' size' updated _ more same ⟨tame, rfl⟩ - -
    exact ⟨⟨Nat.lt_of_lt_of_le has more, tame⟩, congrArg (Outlet.items · _) (same _ has).symm⟩
  have replaces : Mirrors limit rename count
      (do
        outlet.clear
        .items outlet.anchor <$> Outlet.showItems update part 0 outlet.anchor [] values :
          RenderM σ (Outlet σ))
      (do
        (outlet.renumber rename).clear
        .items (outlet.renumber rename).anchor <$>
          Outlet.showItems update' part 0 (outlet.renumber rename).anchor [] values)
      (Outlet.Corresponds limit · · · ·) := by
    refine .perform tame.parallel_clear fun size _ _ more _ => ?_
    rw [Outlet.anchor_renumber]
    exact shows more (Nat.lt_of_lt_of_le tame.anchor more) trivial
  cases outlet with
  | vacant anchor => exact replaces
  | text anchor data => exact replaces
  | nested anchor inner => exact replaces
  | items anchor outlets => exact shows (Nat.le_refl _) tame.1 tame.2

end

/-! ## Templates that are missing a part -/

/-- A copy that cannot be bound only adds to a document. -/
theorem Instance.grows_copied {template : Template} (compiled : template.Compiled) {stage : Stage}
    (limited : stage.shortcomings = .showing limit) (tidy : stage.document.Tidy) :
    (copied template stage).2.shortcomings = stage.shortcomings ∧
      stage.document.Grows (copied template stage).2.document := by
  obtain ⟨grove, next, deeds, -, short, raised, new, -⟩ := exists_copied compiled limited
  obtain ⟨-, size, embeds, -⟩ := parallel_copyAll template.blueprint.forest stage.document.size stage
    stage (Nat.le_refl _) ⟨rfl, .refl tidy⟩
  exact ⟨short, size, fun node has => raised.added.moves.kept node has id, embeds.document.tidy, deeds,
    raised.logs.mutations, new⟩

/-- An outlet that has no instance of a template gets a new one to show it. -/
theorem Outlet.showTemplate_eq_replace {outlet : Outlet σ} {template : Template}
    (other : ∀ anchor inner, outlet = .nested anchor inner → inner.template ≠ template)
    (update : OutletUpdate σ) (part depth : Nat) (values : List Value) :
    outlet.showTemplate setting update part depth template values =
      Outlet.showTemplate.replace setting update part depth outlet template values := by
  cases outlet with
  | vacant anchor => rfl
  | text anchor data => rfl
  | items anchor outlets => rfl
  | nested anchor inner => exact if_neg (other anchor inner rfl)

/-- Where no instance can be made, the outlet is cleared all the same, and the part is reported. -/
theorem Outlet.run_replace_missing (plain : setting.strategies = []) {template : Template}
    (compiled : template.Compiled) {index : Nat} {path : Path}
    (missing : template.missing? limit = some (index, path)) {outlet : Outlet σ}
    {stage cleared copy : Stage} (clears : (outlet.clear.run stage).2 = cleared)
    (limited : cleared.shortcomings = .showing limit)
    (copies : (Instance.copied template cleared).2 = copy) (update : OutletUpdate σ)
    (part depth : Nat) (values : List Value) (reported : Array Diagnostic) (world : σ) :
    let diagnostic : Diagnostic := { part := index, depth, error := .noNode path }
    (((Outlet.showTemplate.replace setting update part depth outlet template values).run
        reported).run world).run stage =
      (((.vacant outlet.anchor, reported.push diagnostic), world),
        { copy with
          journal := (copy.journal.push (.nestedMissing part)).push (.reported diagnostic) }) := by
  have failed := Instance.make_of_missing ([] : List (Strategy σ)) compiled limited missing
  unfold Outlet.showTemplate.replace
  subst clears copies
  rw [plain]
  exact (run_perform rfl reported world).trans (run_perform failed reported world)

/-- To show a template that is missing a part comes to what is shown for the empty value, and the
part is reported. -/
theorem Outlet.mirrors_missing (plain : setting.strategies = []) {template : Template}
    (compiled : template.Compiled) {index : Nat} {path : Path}
    (missing : template.missing? limit = some (index, path)) (update : OutletUpdate σ)
    (part depth : Nat) {outlet : Outlet σ} (tame : outlet.Tame limit (·.number < count))
    (values : List Value) :
    Mirrors limit rename count
      (do
        report index depth (.noNode path)
        outlet.showText "" : RenderM σ (Outlet σ))
      ((outlet.renumber rename).showTemplate setting update part depth template values)
      (Outlet.Corresponds limit · · · ·) := by
  have other (anchor : NodeId) (inner : Instance σ)
      (same : outlet.renumber rename = .nested anchor inner) : inner.template ≠ template := by
    cases outlet with
    | nested anchor inner =>
      cases same
      rw [Instance.template_renumber]
      exact tame.2.template_ne missing
    | _ => cases same
  rw [Outlet.showTemplate_eq_replace other, tame.showText_empty]
  intro stage stage' reported reported' world world' enough limited embeds reports worlds
  subst reports worlds
  let noted : Stage :=
    { stage with journal := stage.journal.push (.reported ⟨index, depth, .noNode path⟩) }
  obtain ⟨short, grows, embeds, -⟩ :=
    tame.parallel_clear noted stage' enough ⟨embeds.shortcomings, embeds.document⟩
  have limited' := embeds.shortcomings.trans (short.trans limited)
  -- From here on only the second document changes: it gets the nodes of a copy that stays where it is.
  obtain ⟨short', grown⟩ := Instance.grows_copied compiled limited' embeds.document.tidy_other
  have run := Outlet.run_replace_missing plain compiled missing rfl limited' rfl update part depth
    values reported' world'
  have anchor := Nat.lt_of_lt_of_le tame.anchor (Nat.le_trans enough grows)
  rw [run]
  refine ⟨rfl, rfl, short.trans limited, grows, _, fun node has => ?_, ⟨?_, embeds.document.grow grown⟩,
    anchor, ?_⟩
  · exact Document.ahead_of_has (Nat.lt_of_lt_of_le has grows)
  · exact short'.trans embeds.shortcomings
  · rw [Outlet.anchor_renumber]
    exact congrArg Outlet.vacant (Document.ahead_of_has anchor).symm

/-- Outlets are updated as if every template that is missing a part were reported and then empty. -/
theorem Outlet.mirrors_update (yields : setting.environment.Yields Template.Compiled)
    (plain : setting.strategies = []) (room : Nat) :
    OutletUpdate.Mirrors limit (Outlet.updateWith (emptyMissing limit) setting room)
      (Outlet.update setting room) := by
  have vacates {rename : NodeId → NodeId} {count : Nat} {outlet : Outlet σ}
      (tame : outlet.Tame limit (·.number < count)) (part depth : Nat) (error : ResolutionError) :
      Mirrors limit rename count
        (do
          report part depth error
          outlet.vacate : RenderM σ (Outlet σ))
        (do
          report part depth error
          (outlet.renumber rename).vacate) (Outlet.Corresponds limit · · · ·) :=
    .reporting (.performed tame.parallel_vacate fun _ _ _ _ => id)
  have shows {rename : NodeId → NodeId} {count : Nat} {outlet : Outlet σ}
      (tame : outlet.Tame limit (·.number < count)) (data : String) :
      Mirrors limit rename count (outlet.showText data : RenderM σ (Outlet σ))
        ((outlet.renumber rename).showText data) (Outlet.Corresponds limit · · · ·) :=
    .performed (tame.parallel_showText data) fun _ _ _ _ => id
  induction room with
  | zero => exact fun rename count part outlet tame value _ => vacates tame part _ _
  | succ room ih =>
    intro rename count part outlet tame value proper
    have follows := follows_resolve yields.alike proper
    rw [Outlet.updateWith, Outlet.update]
    refine .follow follows fun result result' read first second => ?_
    cases first with
    | error error =>
      cases second with
      | error error => exact vacates tame part _ error
    | ok holds =>
    cases second with
    | ok holds' =>
    obtain ⟨rfl, proper⟩ := holds
    obtain ⟨rfl, -⟩ := holds'
    rename_i value
    cases value with
    | template template values =>
      cases proper with
      | primitive shape => cases shape
      | template compiled _ inside =>
      dsimp only
      -- The two updates part here, and only if a part is missing.
      cases missing : template.missing? limit with
      | none =>
        have revised (depth : Nat) : (emptyMissing limit depth (.template template values) :
            RenderM σ Value) = pure (.template template values) := by
          rw [emptyMissing, missing]
        rw [revised, pure_bind]
        exact Outlet.mirrors_showTemplate yields ih plain missing inside part _ tame
      | some missed =>
        obtain ⟨index, path⟩ := missed
        have revised (depth : Nat) : (emptyMissing limit depth (.template template values) :
            RenderM σ Value) = (do
              report index depth (.noNode path)
              pure .empty) := by
          rw [emptyMissing, missing]
        rw [revised, bind_assoc]
        exact Outlet.mirrors_missing plain compiled missing _ part _ tame values
    | items values =>
      cases proper with
      | primitive shape => cases shape
      | items inside => exact Outlet.mirrors_showList ih part tame inside
    | _ => exact shows tame _

end LiveMarkup
