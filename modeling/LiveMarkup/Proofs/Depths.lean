import LiveMarkup.Proofs.Committing
import LiveMarkup.Proofs.Holding

/-! # How deep templates and items are rendered

The depth limit is looked at when content is brought up to date, which is one level after a template
has been put there.  So nothing is ever more than one level deeper than the limit, and if no part
reports that it is too deep, then what is there is a template without content of its own
(`render_within_limit`).

`Stays` judges work that reports failures by two postconditions: one that always holds, and one that
holds unless something too deep has been reported.  Content that is one level too deep always
reports, so that its second postcondition may be false. -/

namespace LiveMarkup

variable {α β : Type} {σ : Type}

/-! ## What is nested -/

/-- A template or an item in some content, with the number of templates and lists around it. -/
inductive Nesting where
  | template (depth : Nat) (template : Template)
  | item (depth : Nat)
  deriving DecidableEq

def Nesting.depth : Nesting → Nat
  | .template depth _ => depth
  | .item depth => depth

/-- A template without a part that is content. -/
def Nesting.Closed : Nesting → Prop
  | .template _ shown => ∀ path, .node path ∉ shown.blueprint.parts
  | .item _ => False

/-- Within a limit, or a template one level deeper that has no content of its own. -/
def Nesting.Within (limit : Nat) (nesting : Nesting) : Prop :=
  nesting.depth ≤ limit ∨ nesting.depth = limit + 1 ∧ nesting.Closed

mutual

/-- All templates and items below an instance of the given depth. -/
def Instance.nestings (depth : Nat) : Instance σ → List Nesting
  | .mk _ _ bindings => Binding.nestings depth bindings

/-- All templates and items in the content of some parts of the given depth. -/
def Binding.nestings (depth : Nat) : List (Binding σ) → List Nesting
  | [] => []
  | .attribute _ :: bindings => Binding.nestings depth bindings
  | .outlet outlet :: bindings => Outlet.nestings depth outlet ++ Binding.nestings depth bindings

def Outlet.nestings (depth : Nat) : Outlet σ → List Nesting
  | .vacant _ | .text _ _ => []
  | .nested _ inner => .template (depth + 1) inner.template :: Instance.nestings (depth + 1) inner
  | .items _ outlets => Outlet.itemNestings (depth + 1) outlets

/-- Items of the given depth, and all templates and items in them. -/
def Outlet.itemNestings (depth : Nat) : List (Outlet σ) → List Nesting
  | [] => []
  | outlet :: outlets =>
    .item depth :: Outlet.nestings depth outlet ++ Outlet.itemNestings depth outlets

end

/-! ## Matching parts -/

mutual

/-- The bindings of an instance, and those of all instances in it, are of the parts of their
templates. -/
def Instance.Whole : Instance σ → Prop
  | .mk template _ bindings => Binding.AllWhole bindings template.blueprint.parts

def Binding.AllWhole : List (Binding σ) → List Part → Prop
  | [], [] => True
  | .attribute _ :: bindings, .attribute _ :: parts => Binding.AllWhole bindings parts
  | .outlet outlet :: bindings, .node _ :: parts =>
    Outlet.Whole outlet ∧ Binding.AllWhole bindings parts
  | _, _ => False

def Outlet.Whole : Outlet σ → Prop
  | .vacant _ | .text _ _ => True
  | .nested _ inner => Instance.Whole inner
  | .items _ outlets => Outlet.AllWhole outlets

def Outlet.AllWhole : List (Outlet σ) → Prop
  | [] => True
  | outlet :: outlets => Outlet.Whole outlet ∧ Outlet.AllWhole outlets

end

/-- All that a first binding can be of. -/
theorem Binding.AllWhole.of_cons {binding : Binding σ} {bindings : List (Binding σ)}
    {parts : List Part} (whole : Binding.AllWhole (binding :: bindings) parts) :
    ∃ part rest, parts = part :: rest ∧ Binding.AllWhole bindings rest ∧
      ((∃ own entry, binding = .attribute own ∧ part = .attribute entry) ∨
        ∃ outlet path, binding = .outlet outlet ∧ part = .node path ∧ outlet.Whole) := by
  cases parts with
  | nil => cases binding <;> simp [Binding.AllWhole] at whole
  | cons part rest =>
    refine ⟨part, rest, rfl, ?_⟩
    match binding, part with
    | .attribute own, .attribute entry =>
      exact ⟨by simpa [Binding.AllWhole] using whole, .inl ⟨own, entry, rfl, rfl⟩⟩
    | .outlet content, .node path =>
      simp only [Binding.AllWhole] at whole
      exact ⟨whole.2, .inr ⟨content, path, rfl, rfl, whole.1⟩⟩
    | .attribute own, .node path => simp [Binding.AllWhole] at whole
    | .outlet content, .attribute entry => simp [Binding.AllWhole] at whole

/-- A new instance is whole. -/
theorem Instance.whole_bindAll {strategies : List (Strategy σ)} {stage : Stage}
    {roots : List NodeId} {index : Nat} {parts : List Part} {bindings : List (Binding σ)}
    (bound : bindAll strategies stage roots index parts = .ok bindings) :
    Binding.AllWhole bindings parts := by
  induction parts generalizing index bindings with
  | nil =>
    cases bound
    simp [Binding.AllWhole]
  | cons part parts ih =>
    obtain ⟨node, rest, -, later, rfl⟩ := bindAll_cons_eq_ok.mp bound
    obtain part | path := part
    · simpa [bind, Binding.AllWhole] using ih later
    · simpa [bind, Binding.AllWhole, Outlet.Whole] using ih later

theorem Instance.whole_make {strategies : List (Strategy σ)} {template : Template} {stage : Stage}
    {inner : Instance σ} (made : ((make strategies template).run stage).1 = .ok inner) :
    inner.template = template ∧ inner.Whole := by
  obtain ⟨same, copied, bound⟩ := bindAll_of_make made
  cases inner with
  | mk template roots bindings =>
    obtain rfl := same
    exact ⟨rfl, whole_bindAll bound⟩

/-! ## Work that reports what is too deep -/

/-- Values with a value for each part of every template in them. -/
abbrev Value.Full : Value → Prop :=
  Value.Proper fun _ => True

/-- A diagnostic about content that is too deep. -/
def Diagnostic.IsTooDeep (diagnostic : Diagnostic) : Prop :=
  ∃ limit, diagnostic.error = .tooDeep limit

/-- The result of some work is always as told first, and unless the work reports that something is
too deep, it is also as told then. -/
def Stays (action : RenderM σ α) (always clear : α → Prop) : Prop :=
  ∀ failures world stage, ∃ more,
    let outcome := ((action.run failures).run world).run stage
    outcome.1.1.2 = failures ++ more ∧ always outcome.1.1.1 ∧
      ((∀ diagnostic ∈ more, ¬ diagnostic.IsTooDeep) → clear outcome.1.1.1)

theorem Outcomes.of_ok {name : ResolutionError → ResolutionError} {same : α → β → Prop}
    {outcome : Except ResolutionError α} {read : Except ResolutionError β} {result : α}
    (outcomes : Outcomes name same outcome read) (ok : outcome = .ok result) :
    ∃ value, same result value := by
  subst ok
  cases outcomes with
  | ok holds => exact ⟨_, holds⟩

namespace Stays

variable {always clear : α → Prop}

protected theorem pure {result : α} (holds : always result) (clears : clear result) :
    Stays (pure result : RenderM σ α) always clear :=
  fun _ _ _ => ⟨#[], by simp; rfl, holds, fun _ => clears⟩

theorem bind {action : RenderM σ β} {next : β → RenderM σ α} {first second : β → Prop}
    (stays : Stays action first second)
    (goes : ∀ result, first result →
      Stays (next result) always fun after => second result → clear after) :
    Stays (action >>= next) always clear := by
  intro failures world stage
  obtain ⟨more, reports, holds, clears⟩ := stays failures world stage
  let outcome := ((action.run failures).run world).run stage
  obtain ⟨further, reports', holds', clears'⟩ :=
    goes outcome.1.1.1 holds outcome.1.1.2 outcome.1.2 outcome.2
  refine ⟨more ++ further, ?_, holds', fun none => ?_⟩
  · rw [← Array.append_assoc, ← reports]
    exact reports'
  · have noneThen := fun diagnostic member => none diagnostic (Array.mem_append_right _ member)
    have noneAtFirst := fun diagnostic member => none diagnostic (Array.mem_append_left _ member)
    exact clears' noneThen (clears noneAtFirst)

theorem mono {action : RenderM σ α} {stronger clearer : α → Prop}
    (stays : Stays action stronger clearer) (weaken : ∀ result, stronger result → always result)
    (weaker : ∀ result, stronger result → clearer result → clear result) :
    Stays action always clear := by
  intro failures world stage
  obtain ⟨more, reports, holds, clears⟩ := stays failures world stage
  exact ⟨more, reports, weaken _ holds, fun none => weaker _ holds (clears none)⟩

theorem mapping {action : RenderM σ β} {convert : β → α}
    (stays : Stays action (fun result => always (convert result))
      fun result => clear (convert result)) :
    Stays (convert <$> action) always clear :=
  stays

/-- Work on the stage that nothing is known of. -/
theorem work {action : StageM β} {next : β → RenderM σ α}
    (goes : ∀ result, Stays (next result) always clear) :
    Stays (liftM action >>= next) always clear :=
  fun failures world _ => goes _ failures world _

/-- A new instance is made, or not. -/
theorem making {strategies : List (Strategy σ)} {template : Template}
    {next : Except (Nat × ResolutionError) (Instance σ) → RenderM σ α}
    (goes : ∀ made, (∀ inner, made = .ok inner → inner.template = template ∧ inner.Whole) →
      Stays (next made) always clear) :
    Stays (liftM (Instance.make strategies template) >>= next) always clear :=
  fun failures world _ => goes _ (fun _ => Instance.whole_make) failures world _

theorem performed {action : StageM α} (comes : ∀ stage, always (action.run stage).1)
    (clears : ∀ stage, clear (action.run stage).1) :
    Stays (liftM action : RenderM σ α) always clear :=
  fun _ _ stage => ⟨#[], by simp; rfl, comes stage, fun _ => clears stage⟩

theorem reporting {part depth : Nat} {error : ResolutionError} {next : Unit → RenderM σ α}
    (goes : Stays (next ()) always fun result => (∀ limit, error ≠ .tooDeep limit) → clear result) :
    Stays (report part depth error >>= next) always clear := by
  intro failures world stage
  obtain ⟨more, reports, holds, clears⟩ := goes (failures.push ⟨part, depth, error⟩) world
    { stage with journal := stage.journal.push (.reported ⟨part, depth, error⟩) }
  refine ⟨#[⟨part, depth, error⟩] ++ more, ?_, holds, fun none => ?_⟩
  · rw [← Array.append_assoc, ← Array.push_eq_append]
    exact reports
  · refine clears (fun diagnostic member => none diagnostic (Array.mem_append_right _ member)) ?_
    exact fun limit same =>
      none _ (Array.mem_append_left _ (Array.mem_singleton.mpr rfl)) ⟨limit, same⟩

/-- A value is resolved.  One with enough values in it resolves to another. -/
theorem resolving {setting : Setting σ} (yields : setting.environment.Yields fun _ => True)
    {value : Value} (full : value.Full)
    {next : Except ResolutionError Value → RenderM σ α}
    (goes : ∀ outcome, (∀ value, outcome = .ok value → value.Full) →
      Stays (next outcome) always clear) :
    Stays (liftM (setting.environment.resolve setting.config.maxInvocations value).run >>= next)
      always clear := by
  intro failures world stage
  have follows := follows_resolve yields.alike full
  obtain ⟨-, -, -, outcomes⟩ := follows stage world world rfl
  let outcome := ((setting.environment.resolve setting.config.maxInvocations value).run.run
    world).run stage
  refine goes outcome.1.1 (fun settled same => ?_) failures outcome.1.2 outcome.2
  obtain ⟨_, rfl, proper⟩ := outcomes.of_ok same
  exact proper

end Stays

/-! ## Bringing instances up to date -/

section

variable {setting : Setting σ} {depth : Nat} {update : OutletUpdate σ}

/-- Content of the given depth is whole, and nothing in it is far beyond the limit. -/
def Outlet.Near (limit depth : Nat) (outlet : Outlet σ) : Prop :=
  outlet.Whole ∧ ∀ nesting ∈ outlet.nestings depth, nesting.depth ≤ limit + 1

/-- Content of the given depth is within the limit, and so is all that is nested in it. -/
def Outlet.Clear (limit depth : Nat) (outlet : Outlet σ) : Prop :=
  depth ≤ limit ∧ ∀ nesting ∈ outlet.nestings depth, nesting.Within limit

/-- A way to give content a new value leaves it near a limit, and clear of it unless it reports. -/
def Bounds (limit depth : Nat) (update : OutletUpdate σ) : Prop :=
  ∀ part outlet value, outlet.Whole → value.Full →
    Stays (update part outlet value) (Outlet.Near limit depth) (Outlet.Clear limit depth)

/-- Updating an attribute adds to the reports. -/
theorem stays_attribute (binding : AttributeBinding σ) (part : Nat) (value : Value) :
    Stays (binding.update setting part depth value) (fun _ => True) fun _ => True := by
  intro failures world stage
  obtain ⟨after, commits, errors, world', stage', -, plain, -⟩ :=
    Occasion.exists_update ⟨setting, part, depth, value, failures, world, stage⟩ binding
  exact ⟨_, congrArg (·.1.1.2) plain, trivial, fun _ => trivial⟩

/-- Bindings that match parts, with what is nested in them near the limit. -/
def Binding.AllNear (limit depth : Nat) (parts : List Part) (bindings : List (Binding σ)) : Prop :=
  Binding.AllWhole bindings parts ∧ ∀ nesting ∈ Binding.nestings depth bindings,
    nesting.depth ≤ limit + 1

/-- Bindings with all that is nested in them within the limit.  If one of their parts is content, so
is that part. -/
def Binding.AllClear (limit depth : Nat) (parts : List Part) (bindings : List (Binding σ)) : Prop :=
  (∀ path, .node path ∈ parts → depth ≤ limit) ∧
    ∀ nesting ∈ Binding.nestings depth bindings, nesting.Within limit

variable {limit : Nat}

/-- All bindings of an instance are updated. -/
theorem stays_bindings (bounds : Bounds limit depth update) {index : Nat}
    {bindings : List (Binding σ)} {parts : List Part} {values : List Value}
    (whole : Binding.AllWhole bindings parts) (count : values.length = parts.length)
    (full : ∀ value ∈ values, value.Full) :
    Stays (updateBindings setting update depth index bindings parts values)
      (Binding.AllNear limit depth parts) (Binding.AllClear limit depth parts) := by
  induction bindings generalizing index parts values with
  | nil =>
    cases parts with
    | nil =>
      exact .pure (by simp [Binding.AllNear, Binding.AllWhole, Binding.nestings])
        (by simp [Binding.AllClear, Binding.nestings])
    | cons part parts => simp [Binding.AllWhole] at whole
  | cons binding bindings ih =>
    obtain ⟨part, rest, rfl, wholeRest, kinds⟩ := whole.of_cons
    obtain ⟨value, more, rfl⟩ := List.exists_cons_of_length_eq_add_one count
    obtain ⟨fullValue, fullRest⟩ := List.forall_mem_cons.mp full
    have goes (index : Nat) : Stays (updateBindings setting update depth index bindings rest more)
        (Binding.AllNear limit depth rest) (Binding.AllClear limit depth rest) :=
      ih wholeRest (by simpa using count) fullRest
    rw [updateBindings]
    refine .work fun _ => ?_
    obtain ⟨own, entry, rfl, rfl⟩ | ⟨outlet, path, rfl, rfl, wholeOutlet⟩ := kinds
    · -- An attribute nests nothing, so all that counts is what comes behind it.
      have first : Stays (Binding.attribute <$> own.update setting index depth value)
          (fun after => ∃ own, after = .attribute own) fun _ => True :=
        .mapping ((stays_attribute own index value).mono (fun own _ => ⟨own, rfl⟩) fun _ _ => id)
      refine first.bind fun _ same => (goes (index + 1)).bind fun others near => ?_
      obtain ⟨own, rfl⟩ := same
      refine .pure ?_ fun clear _ => ?_
      · simpa [Binding.AllNear, Binding.AllWhole, Binding.nestings] using near
      · simpa [Binding.AllClear, Binding.nestings] using clear
    · have first : Stays (Binding.outlet <$> update index outlet value)
          (fun after => ∃ outlet, after = .outlet outlet ∧ outlet.Near limit depth)
          fun after => ∀ outlet, after = .outlet outlet → outlet.Clear limit depth :=
        .mapping ((bounds index outlet value wholeOutlet fullValue).mono
          (fun outlet near => ⟨outlet, rfl, near⟩) (by rintro _ _ clear _ ⟨⟩; exact clear))
      refine first.bind fun _ same => (goes (index + 1)).bind fun others near => ?_
      obtain ⟨outlet, rfl, nearFirst⟩ := same
      refine .pure ?_ fun clear clearFirst => ?_
      · simp only [Binding.AllNear, Binding.AllWhole, Binding.nestings, List.forall_mem_append]
        exact ⟨⟨nearFirst.1, near.1⟩, nearFirst.2, near.2⟩
      · simp only [Binding.AllClear, Binding.nestings, List.forall_mem_append]
        exact ⟨fun _ _ => (clearFirst outlet rfl).1, (clearFirst outlet rfl).2, clear.2⟩

/-- An instance of the given depth is whole, and nothing in it is far beyond the limit. -/
def Instance.Near (limit depth : Nat) (inner : Instance σ) : Prop :=
  inner.Whole ∧ ∀ nesting ∈ inner.nestings depth, nesting.depth ≤ limit + 1

/-- All that is nested in an instance of the given depth is within the limit.  If it has content, so
is that depth. -/
def Instance.Clear (limit depth : Nat) (inner : Instance σ) : Prop :=
  (∀ path, .node path ∈ inner.template.blueprint.parts → depth ≤ limit) ∧
    ∀ nesting ∈ inner.nestings depth, nesting.Within limit

theorem stays_instance (bounds : Bounds limit depth update) {inner : Instance σ}
    {values : List Value} (whole : inner.Whole)
    (full : (Value.template inner.template values).Full) :
    Stays (inner.update setting update depth values)
      (fun after => after.template = inner.template ∧ after.Near limit depth)
      (Instance.Clear limit depth) := by
  obtain ⟨template, roots, bindings⟩ := inner
  cases full with
  | primitive shape => cases shape
  | template _ count inside =>
    rw [Instance.update]
    refine (stays_bindings bounds whole count inside).bind fun after near => ?_
    exact .pure ⟨rfl, near⟩ id

/-- A nested template is one level deeper than its part, and if it is beyond the limit it has no
content. -/
theorem stays_nested (bounds : Bounds limit (depth + 1) update) (within : depth ≤ limit)
    {inner : Instance σ} {values : List Value} (whole : inner.Whole)
    (full : (Value.template inner.template values).Full) (anchor : NodeId) :
    Stays (.nested anchor <$> inner.update setting update (depth + 1) values)
      (Outlet.Near limit depth) (Outlet.Clear limit depth) := by
  refine .mapping ((stays_instance bounds whole full).mono ?_ ?_)
  · rintro after ⟨-, wholeAfter, near⟩
    refine ⟨by simpa [Outlet.Whole] using wholeAfter, ?_⟩
    simp only [Outlet.nestings, List.forall_mem_cons, Nesting.depth]
    exact ⟨by omega, near⟩
  · rintro after ⟨-, -⟩ ⟨content, clear⟩
    refine ⟨within, ?_⟩
    simp only [Outlet.nestings, List.forall_mem_cons]
    refine ⟨?_, clear⟩
    by_cases closed : ∀ path, .node path ∉ after.template.blueprint.parts
    · exact (Nat.lt_or_eq_of_le within).imp id fun same => ⟨congrArg (· + 1) same, closed⟩
    · push Not at closed
      obtain ⟨path, member⟩ := closed
      exact .inl (content path member)

theorem near_vacant (limit depth : Nat) (anchor : NodeId) :
    (Outlet.vacant anchor : Outlet σ).Near limit depth := by
  simp [Outlet.Near, Outlet.Whole, Outlet.nestings]

theorem clear_vacant (within : depth ≤ limit) (anchor : NodeId) :
    (Outlet.vacant anchor : Outlet σ).Clear limit depth := by
  simp [Outlet.Clear, Outlet.nestings, within]

namespace Outlet

/-- A new instance, or the failure to make one. -/
theorem stays_replace (bounds : Bounds limit (depth + 1) update) (within : depth ≤ limit)
    (part : Nat) (outlet : Outlet σ) {template : Template} {values : List Value}
    (full : (Value.template template values).Full) :
    Stays (showTemplate.replace setting update part (depth + 1) outlet template values)
      (Outlet.Near limit depth) (Outlet.Clear limit depth) := by
  unfold showTemplate.replace
  refine .work fun _ => .making fun made whole => ?_
  cases made with
  | error failure =>
    refine .work fun _ => .reporting (.pure (near_vacant limit depth _) fun _ => ?_)
    exact clear_vacant within _
  | ok inner =>
    obtain ⟨rfl, wholeInner⟩ := whole inner rfl
    exact .work fun _ => stays_nested bounds within wholeInner full _

theorem stays_showTemplate (bounds : Bounds limit (depth + 1) update) (within : depth ≤ limit)
    (part : Nat) {outlet : Outlet σ} (whole : outlet.Whole) {template : Template}
    {values : List Value} (full : (Value.template template values).Full) :
    Stays (showTemplate setting update part (depth + 1) outlet template values)
      (Outlet.Near limit depth) (Outlet.Clear limit depth) := by
  have replaces : Stays (showTemplate.replace setting update part (depth + 1) outlet template values)
      (Outlet.Near limit depth) (Outlet.Clear limit depth) :=
    stays_replace bounds within part outlet full
  cases outlet with
  | nested anchor inner =>
    by_cases same : inner.template = template
    · subst same
      simp only [showTemplate, if_true]
      exact .work fun _ => stays_nested bounds within (by simpa [Whole] using whole) full anchor
    · simpa only [showTemplate, if_neg same] using replaces
  | _ => exact replaces

/-- Items of the given depth are whole, and nothing in them is far beyond the limit. -/
def AllNear (limit depth : Nat) (outlets : List (Outlet σ)) : Prop :=
  AllWhole outlets ∧ ∀ nesting ∈ itemNestings depth outlets, nesting.depth ≤ limit + 1

/-- Items of the given depth are within the limit, and so is all that is nested in them. -/
def AllClear (limit depth : Nat) (outlets : List (Outlet σ)) : Prop :=
  ∀ nesting ∈ itemNestings depth outlets, nesting.Within limit

theorem AllNear.cons {outlet : Outlet σ} {outlets : List (Outlet σ)} (most : depth ≤ limit + 1)
    (first : outlet.Near limit depth) (rest : AllNear limit depth outlets) :
    AllNear limit depth (outlet :: outlets) := by
  refine ⟨by simpa [AllWhole] using ⟨first.1, rest.1⟩, ?_⟩
  simp only [itemNestings, List.forall_mem_append, List.cons_append, List.forall_mem_cons]
  exact ⟨most, first.2, rest.2⟩

theorem AllClear.cons {outlet : Outlet σ} {outlets : List (Outlet σ)}
    (first : outlet.Clear limit depth) (rest : AllClear limit depth outlets) :
    AllClear limit depth (outlet :: outlets) := by
  simp only [AllClear, itemNestings, List.forall_mem_append, List.cons_append, List.forall_mem_cons]
  exact ⟨.inl first.1, first.2, rest⟩

/-- Each item that is left is one that has been updated. -/
theorem stays_showItems (bounds : Bounds limit depth update) (most : depth ≤ limit + 1) (part : Nat)
    {item : Nat} {last : NodeId} {outlets : List (Outlet σ)} (whole : AllWhole outlets)
    {values : List Value} (full : ∀ value ∈ values, value.Full) :
    Stays (showItems update part item last outlets values)
      (AllNear limit depth) (AllClear limit depth) := by
  induction values generalizing item last outlets with
  | nil =>
    have near : AllNear limit depth ([] : List (Outlet σ)) := by
      simp [AllNear, AllWhole, itemNestings]
    have clear : AllClear limit depth ([] : List (Outlet σ)) := by simp [AllClear, itemNestings]
    cases outlets with
    | nil => exact .pure near clear
    | cons outlet outlets => exact .work fun _ => .work fun _ => .pure near clear
  | cons value values ih =>
    obtain ⟨fullValue, fullRest⟩ := List.forall_mem_cons.mp full
    cases outlets with
    | nil =>
      refine .work fun anchor => (bounds part _ value (by simp [Whole]) fullValue).bind ?_
      exact fun first near => (ih whole fullRest).bind fun rest nearRest =>
        .pure (.cons most near nearRest) fun clearRest clear => .cons clear clearRest
    | cons outlet outlets =>
      simp only [AllWhole] at whole
      refine (bounds part outlet value whole.1 fullValue).bind ?_
      exact fun first near => (ih whole.2 fullRest).bind fun rest nearRest =>
        .pure (.cons most near nearRest) fun clearRest clear => .cons clear clearRest

theorem stays_showList (bounds : Bounds limit (depth + 1) update) (within : depth ≤ limit)
    (part : Nat) {outlet : Outlet σ} (whole : outlet.Whole) {values : List Value}
    (full : ∀ value ∈ values, value.Full) :
    Stays (showList update part outlet values)
      (Outlet.Near limit depth) (Outlet.Clear limit depth) := by
  have shows {anchor : NodeId} {outlets : List (Outlet σ)} (whole : AllWhole outlets) :
      Stays (.items anchor <$> showItems update part 0 anchor outlets values)
        (Outlet.Near limit depth) (Outlet.Clear limit depth) := by
    refine .mapping ((stays_showItems bounds (by omega) part whole full).mono ?_ ?_)
    · simp [AllNear, Near, Whole, nestings]
    · simp [AllClear, Clear, nestings, within]
  cases outlet with
  | items anchor outlets => exact shows (by simpa [Whole] using whole)
  | _ => exact .work fun _ => shows (by simp [AllWhole])

/-- Vacant outlets and texts nest nothing. -/
theorem stays_vacate (outlet : Outlet σ) {clear : Outlet σ → Prop}
    (clears : ∀ anchor, clear (.vacant anchor)) :
    Stays (liftM outlet.vacate : RenderM σ (Outlet σ)) (Outlet.Near limit depth) clear :=
  .performed (fun _ => near_vacant limit depth _) fun _ => clears _

theorem stays_showText (within : depth ≤ limit) (outlet : Outlet σ) (data : String) :
    Stays (liftM (outlet.showText data) : RenderM σ (Outlet σ)) (Outlet.Near limit depth)
      (Outlet.Clear limit depth) := by
  have shows (stage : Stage) : ∃ anchor text,
      ((outlet.showText data).run stage).1 = .vacant anchor ∨
        ((outlet.showText data).run stage).1 = .text anchor text := by
    have shown (outlet : Outlet σ) (stage : Stage) : ∃ anchor text,
        ((showText.show' outlet data).run stage).1 = .vacant anchor ∨
          ((showText.show' outlet data).run stage).1 = .text anchor text := by
      unfold showText.show'
      split
      · exact ⟨outlet.anchor, data, .inl rfl⟩
      · exact ⟨outlet.anchor, data, .inr rfl⟩
    cases outlet with
    | vacant anchor => exact shown _ stage
    | text anchor old =>
      unfold showText
      by_cases same : old = data
      · simp only [if_pos same]
        exact ⟨anchor, old, .inr rfl⟩
      · simp only [if_neg same]
        exact shown _ stage
    | nested anchor inner => exact shown _ _
    | items anchor outlets => exact shown _ _
  refine .performed (fun stage => ?_) fun stage => ?_
  · obtain ⟨anchor, text, same | same⟩ := shows stage <;> simp [same, Near, Whole, nestings]
  · obtain ⟨anchor, text, same | same⟩ := shows stage <;> simp [same, Clear, nestings, within]

/-- With the room for a depth, content of this depth stays near the limit. -/
theorem bounds_update (yields : setting.environment.Yields fun _ => True) {room depth : Nat}
    (limited : depth + room = setting.config.depthLimit + 1) :
    Bounds setting.config.depthLimit depth (Outlet.update setting room) := by
  induction room generalizing depth with
  | zero =>
    intro part outlet value whole full
    refine .reporting (stays_vacate outlet fun anchor clear => ?_)
    exact absurd rfl (clear _)
  | succ room ih =>
    intro part outlet value whole full
    have within : depth ≤ setting.config.depthLimit := by omega
    have deeper : setting.depthAt room = depth + 1 := by
      unfold Setting.depthAt
      omega
    have inside : Bounds setting.config.depthLimit (depth + 1) (Outlet.update setting room) :=
      ih (by omega)
    unfold Outlet.update
    rw [deeper]
    refine .resolving yields full fun outcome settles => ?_
    cases outcome with
    | error error =>
      exact .reporting (stays_vacate outlet fun anchor _ => clear_vacant within anchor)
    | ok value =>
      have full := settles value rfl
      cases value with
      | template template values => exact stays_showTemplate inside within part whole full
      | items values =>
        cases full with
        | primitive shape => cases shape
        | items full => exact stays_showList inside within part whole full
      | _ => exact stays_showText within outlet _

end Outlet

end

/-! ## Calls -/

namespace Renderer

/-- All instances of a renderer are whole. -/
def Whole (renderer : Renderer σ) : Prop :=
  ∀ container inner, renderer.instance? container = some inner → inner.Whole

/-- Preparing gives a whole instance of the template, or none. -/
theorem stays_prepare (setting : Setting σ) (container : NodeId) {previous : Option (Instance σ)}
    (whole : ∀ inner, previous = some inner → inner.Whole) (template : Template) :
    Stays (prepare setting container previous template)
      (fun made => ∀ inner, made = some inner → inner.template = template ∧ inner.Whole)
      fun _ => True := by
  unfold prepare
  cases kept : previous.filter (·.template = template) with
  | some inner =>
    obtain ⟨same, fits⟩ := Option.filter_eq_some_iff.mp kept
    refine .work fun _ => .pure ?_ trivial
    rintro _ ⟨⟩
    exact ⟨by simpa using fits, whole inner same⟩
  | none =>
    refine .work fun _ => .making fun made known => ?_
    cases made with
    | ok inner =>
      have puts : (inner.roots.forM fun root =>
          (liftM (Stage.append container root) : RenderM σ Unit)) =
          liftM (inner.roots.forM (Stage.append container)) := forM_liftM ..
      dsimp only
      rw [puts]
      refine .work fun _ => .pure ?_ trivial
      rintro _ ⟨⟩
      exact known inner rfl
    | error failure => exact .work fun _ => .reporting (.pure nofun fun _ => trivial)

theorem stays_renderInto {setting : Setting σ} (yields : setting.environment.Yields fun _ => True)
    (container : NodeId) {previous : Option (Instance σ)}
    (whole : ∀ inner, previous = some inner → inner.Whole) {template : Template}
    {values : List Value} (full : (Value.template template values).Full) :
    Stays (renderInto setting container previous ⟨template, values⟩)
      (fun made => ∀ inner, made = some inner → inner.Near setting.config.depthLimit 0)
      fun made => ∀ inner, made = some inner → inner.Clear setting.config.depthLimit 0 := by
  unfold renderInto
  refine .work fun _ => (stays_prepare setting container whole template).bind fun made known => ?_
  cases made with
  | some inner =>
    obtain ⟨rfl, wholeInner⟩ := known inner rfl
    have bounds := Outlet.bounds_update yields (Nat.zero_add (setting.config.depthLimit + 1))
    refine .mapping ((stays_instance bounds wholeInner full).mono ?_ ?_)
    · rintro after ⟨-, near⟩ _ ⟨⟩
      exact near
    · rintro after - clear - _ ⟨⟩
      exact clear
  | none => exact .pure nofun nofun

variable {config : Config} {renderer : Renderer σ} {environment : Environment σ}
  {template : Template} {values : List Value}

/-- A call leaves a container with what the limit allows, and other containers as they are. -/
theorem whole_render (whole : renderer.Whole) (yields : environment.Yields fun _ => True)
    (full : (Value.template template values).Full) (container : NodeId) (world : σ) :
    let outcome := renderer.render environment container ⟨template, values⟩ world
    outcome.2.1.Whole ∧ ∀ inner, outcome.2.1.instance? container = some inner →
      inner.Near renderer.config.depthLimit 0 ∧
        ((∀ diagnostic ∈ outcome.1.diagnostics, ¬ diagnostic.IsTooDeep) →
          inner.Clear renderer.config.depthLimit 0) := by
  intro outcome
  let setting : Setting σ := ⟨environment, renderer.config, renderer.strategies⟩
  let rendered := ((renderInto setting container (renderer.instance? container)
    ⟨template, values⟩).run #[] |>.run world).run renderer.stage
  have stays : Stays (renderInto setting container (renderer.instance? container) ⟨template, values⟩)
      _ _ := stays_renderInto yields container (whole container) full
  obtain ⟨more, reports, near, clear⟩ := stays #[] world renderer.stage
  have lookup (other : NodeId) : outcome.2.1.instance? other =
      if other = container then rendered.1.1.1 else renderer.instance? other :=
    lookup_updated rendered.1.1.1 renderer.instances container other
  refine ⟨fun other inner held => ?_, fun inner held => ?_⟩
  · rw [lookup] at held
    split at held
    · exact (near inner held).1
    · exact whole other inner held
  · rw [lookup, if_pos rfl] at held
    refine ⟨near inner held, fun none => clear (fun diagnostic member => ?_) inner held⟩
    have listed : outcome.1.diagnostics = (#[] ++ more).toList := congrArg Array.toList reports
    exact none diagnostic (by simpa [listed] using member)

/-- The states of a renderer, with any strategies, however its stage falls short, and whatever else
happens to the stage.  A template is only ever rendered with a value for each of its parts. -/
inductive Occurs (config : Config) : Renderer σ → Prop where
  | empty (shortcomings : Shortcomings) : Occurs config (.empty shortcomings config)
  | elsewhere {renderer : Renderer σ} (occurs : Occurs config renderer) (stage : Stage) :
      Occurs config { renderer with stage }
  | strategy {renderer : Renderer σ} (occurs : Occurs config renderer) (strategy : Strategy σ) :
      Occurs config (renderer.addStrategy strategy)
  | render {renderer : Renderer σ} (occurs : Occurs config renderer) {environment : Environment σ}
      (yields : environment.Yields fun _ => True) {template : Template} {values : List Value}
      (full : (Value.template template values).Full) (container : NodeId) (world : σ) :
      Occurs config (renderer.render environment container ⟨template, values⟩ world).2.1
  | release {renderer : Renderer σ} (occurs : Occurs config renderer) (container : NodeId) :
      Occurs config (renderer.release container).2

theorem Occurs.whole (occurs : renderer.Occurs config) :
    renderer.config = config ∧ renderer.Whole := by
  induction occurs with
  | empty shortcomings => exact ⟨rfl, nofun⟩
  | elsewhere _ stage ih => exact ih
  | strategy _ strategy ih => exact ih
  | render _ yields full container world ih =>
    exact ⟨ih.1, (whole_render ih.2 yields full container world).1⟩
  | @release renderer _ container ih =>
    unfold Renderer.release
    cases held : renderer.instance? container with
    | none => exact ih
    | some inner =>
      refine ⟨ih.1, fun other kept same => ?_⟩
      change (without renderer.instances container).lookup other = some kept at same
      rw [lookup_without] at same
      split at same
      · cases same
      · exact ih.2 other kept same

end Renderer

/-- Nothing in a container is more than one level beyond the limit.  If no part reports that it is
too deep, what is beyond the limit is a template without content of its own. -/
theorem render_within_limit {config : Config} {renderer : Renderer σ}
    (occurs : renderer.Occurs config) {environment : Environment σ}
    (yields : environment.Yields fun _ => True) {template : Template} {values : List Value}
    (full : (Value.template template values).Full) (container : NodeId) (world : σ) :
    let outcome := renderer.render environment container ⟨template, values⟩ world
    ∀ inner, outcome.2.1.instance? container = some inner →
      (∀ nesting ∈ inner.nestings 0, nesting.depth ≤ config.depthLimit + 1) ∧
        ((∀ diagnostic ∈ outcome.1.diagnostics, ∀ limit, diagnostic.error ≠ .tooDeep limit) →
          ∀ nesting ∈ inner.nestings 0, nesting.depth ≤ config.depthLimit ∨
            nesting.depth = config.depthLimit + 1 ∧ nesting.Closed) := by
  intro outcome inner held
  obtain ⟨rfl, whole⟩ := occurs.whole
  obtain ⟨near, clear⟩ := (renderer.whole_render whole yields full container world).2 inner held
  refine ⟨near.2, fun none => (clear fun diagnostic member => ?_).2⟩
  rintro ⟨limit, same⟩
  exact none diagnostic member limit same

/-! ## One level too deep -/

/-- A template with content in an element. -/
def Template.framed : Template where
  id := ⟨0, 0⟩
  literal := ⟨0⟩
  segments := ["<p>", "</p>"]
  blueprint := { forest := [.element "p" none [] [.text ""]], parts := [.node [0, 0]] }

/-- A template without parts. -/
def Template.bare : Template where
  id := ⟨0, 1⟩
  literal := ⟨1⟩
  segments := ["<b></b>"]
  blueprint := { forest := [.element "b" none [] []], parts := [] }

/-- A renderer that allows no nesting, with an empty container. -/
def Renderer.shallow : Renderer Nat :=
  .fresh { depthLimit := 0 } (Document.empty.create (.element "main" none [])).2

theorem Renderer.occurs_shallow : Renderer.shallow.Occurs { depthLimit := 0 } :=
  .elsewhere (.empty {}) _

/-- A template without parts is shown beyond the limit, and nothing is reported. -/
theorem exists_template_beyond_limit :
    let outcome := Renderer.shallow.render Environment.counting ⟨0⟩
      ⟨.framed, [.template .bare []]⟩ 0
    Renderer.shallow.Occurs { depthLimit := 0 } ∧
      Blueprint.compile .standard Template.framed.segments = .ok Template.framed.blueprint ∧
      Blueprint.compile .standard Template.bare.segments = .ok Template.bare.blueprint ∧
      outcome.1.diagnostics = [] ∧
      (outcome.2.1.instance? ⟨0⟩).map (·.nestings 0) = some [.template 1 .bare] :=
  ⟨Renderer.occurs_shallow, by decide +kernel⟩

theorem render_within_limit_shallow :
    let outcome := Renderer.shallow.render Environment.counting ⟨0⟩
      ⟨.framed, [.template .bare []]⟩ 0
    ∃ inner, outcome.2.1.instance? ⟨0⟩ = some inner ∧ outcome.1.diagnostics = [] ∧
      (∀ nesting ∈ inner.nestings 0, nesting.depth ≤ 1) ∧
        ∀ nesting ∈ inner.nestings 0, nesting.depth ≤ 0 ∨ nesting.depth = 1 ∧ nesting.Closed := by
  intro outcome
  have full : (Value.template .framed [.template .bare []]).Full := by
    refine .template trivial rfl fun value member => ?_
    obtain rfl := List.mem_singleton.mp member
    exact .template trivial rfl nofun
  have silent : outcome.1.diagnostics = [] := by decide +kernel
  cases held : outcome.2.1.instance? ⟨0⟩ with
  | none =>
    have some : (outcome.2.1.instance? ⟨0⟩).isSome := by decide +kernel
    rw [held] at some
    cases some
  | some inner =>
    obtain ⟨near, clear⟩ := render_within_limit Renderer.occurs_shallow
      Environment.yields_counting full ⟨0⟩ 0 inner held
    exact ⟨inner, rfl, silent, near, clear (by simp [outcome, silent])⟩

end LiveMarkup
