import LiveMarkup.Proofs.Planting.Vacating

/-! # Where strategies come from

An attribute part is given its strategy when its instance is made, and keeps it from then on.  So all
strategies at work in the instances of a renderer are the one that sets attributes and those that have
been registered (`Emerges.enlisted`).

This takes no more than a look at results, whatever becomes of the document: `Brings` is a judgement
on these alone. -/

namespace LiveMarkup

open Markup

variable {α β γ σ : Type}

mutual

/-- The strategies of all attribute parts of an instance and of those in its content. -/
def Instance.strategies : Instance σ → List (Strategy σ)
  | .mk _ _ bindings => Binding.strategies bindings

def Binding.strategies : List (Binding σ) → List (Strategy σ)
  | [] => []
  | .attribute binding :: bindings => binding.strategy :: Binding.strategies bindings
  | .outlet outlet :: bindings => Outlet.strategies outlet ++ Binding.strategies bindings

def Outlet.strategies : Outlet σ → List (Strategy σ)
  | .vacant _ | .text _ _ => []
  | .nested _ inner => Instance.strategies inner
  | .items _ outlets => Outlet.itemStrategies outlets

def Outlet.itemStrategies : List (Outlet σ) → List (Strategy σ)
  | [] => []
  | outlet :: outlets => Outlet.strategies outlet ++ Outlet.itemStrategies outlets

end

theorem Binding.strategies_append (bindings more : List (Binding σ)) :
    strategies (bindings ++ more) = strategies bindings ++ strategies more := by
  induction bindings with
  | nil => rfl
  | cons binding bindings ih =>
    obtain own | outlet := binding
    · simp [strategies, ih]
    · simp [strategies, ih]

/-! ## Results of work -/

/-- Whatever the environment and the stage are like, the result of some work is as told. -/
def Brings (action : RenderM σ α) (post : α → Prop) : Prop :=
  ∀ failures world stage, post (((action.run failures).run world).run stage).1.1.1

namespace Brings

variable {post : α → Prop}

protected theorem pure {result : α} (holds : post result) :
    Brings (pure result : RenderM σ α) post :=
  fun _ _ _ => holds

theorem bind {action : RenderM σ β} {next : β → RenderM σ α} {between : β → Prop}
    (first : Brings action between) (second : ∀ result, between result → Brings (next result) post) :
    Brings (action >>= next) post :=
  fun failures world stage => second _ (first failures world stage) _ _ _

/-- Work whose result does not matter. -/
theorem after {action : RenderM σ β} {next : β → RenderM σ α}
    (brings : ∀ result, Brings (next result) post) : Brings (action >>= next) post :=
  fun _ _ _ => brings _ _ _ _

theorem mapping {action : RenderM σ γ} {convert : γ → β} {next : β → RenderM σ α}
    (brings : Brings (action >>= fun result => next (convert result)) post) :
    Brings (convert <$> action >>= next) post :=
  brings

theorem performed {action : StageM α} (comes : ∀ stage, post (action.run stage).1) :
    Brings (liftM action : RenderM σ α) post :=
  fun _ _ stage => comes stage

end Brings

/-- The result of work that leaves a document as told is as told, too. -/
theorem Achieves.and {action : RenderM σ α} {document : Document} {post : α → Document → Prop}
    {also : α → Prop} (achieves : Achieves action document post) (brings : Brings action also) :
    Achieves action document fun result after => post result after ∧ also result := by
  intro failures world stage same whole
  obtain ⟨wholeAfter, holds⟩ := achieves failures world stage same whole
  exact ⟨wholeAfter, holds, brings failures world stage⟩

/-! ## Attributes -/

section

variable {setting : Setting σ} {known : Strategy σ → Prop} {update : OutletUpdate σ}

theorem brings_commit (binding : AttributeBinding σ) (part depth : Nat) (value : Value) :
    Brings (binding.commit part depth value) (·.strategy = binding.strategy) := by
  unfold AttributeBinding.commit
  refine .after fun result => ?_
  cases result with
  | ok _ => exact .pure rfl
  | error error =>
    refine .after fun _ => .after fun result => ?_
    cases result with
    | ok _ => exact .pure rfl
    | error error => exact .after fun _ => .pure rfl

theorem brings_attribute (binding : AttributeBinding σ) (part depth : Nat) (value : Value) :
    Brings (binding.update setting part depth value) (·.strategy = binding.strategy) := by
  have renew (value : Value) : Brings
      (if binding.last.any (·.samePrimitive value) then do
        Stage.note .attributeSame
        pure binding
      else binding.commit part depth value : RenderM σ (AttributeBinding σ))
      (·.strategy = binding.strategy) := by
    split
    · exact .after fun _ => .pure rfl
    · exact brings_commit binding part depth value
  unfold AttributeBinding.update
  refine .after fun result => ?_
  cases result with
  | ok value => exact renew value
  | error error => exact .after fun _ => renew .empty

/-! ## Content -/

/-- Updates of outlets bring in known strategies only. -/
def Retains (known : Strategy σ → Prop) (update : OutletUpdate σ) : Prop :=
  ∀ (part : Nat) (outlet : Outlet σ) (value : Value), (∀ strategy ∈ outlet.strategies, known strategy) →
    Brings (update part outlet value) fun updated => ∀ strategy ∈ updated.strategies, known strategy

theorem brings_bindings (retains : Retains known update) (depth : Nat) {bindings : List (Binding σ)}
    (staffed : ∀ strategy ∈ Binding.strategies bindings, known strategy) (index : Nat)
    (parts : List Part) (values : List Value) :
    Brings (updateBindings setting update depth index bindings parts values) fun updated =>
      ∀ strategy ∈ Binding.strategies updated, known strategy := by
  induction bindings generalizing index parts values with
  | nil => exact .pure staffed
  | cons binding bindings ih =>
    obtain _ | ⟨part, parts⟩ := parts
    · exact .pure staffed
    obtain _ | ⟨value, values⟩ := values
    · exact .pure staffed
    unfold updateBindings
    refine .after fun _ => ?_
    obtain own | outlet := binding
    · obtain ⟨here, later⟩ := List.forall_mem_cons.mp staffed
      refine .mapping ((brings_attribute own index depth value).bind fun updated same => ?_)
      refine (ih later (index + 1) parts values).bind fun others rest => .pure ?_
      exact List.forall_mem_cons.mpr ⟨same ▸ here, rest⟩
    · obtain ⟨here, later⟩ := List.forall_mem_append.mp staffed
      refine .mapping ((retains index outlet value here).bind fun updated first => ?_)
      refine (ih later (index + 1) parts values).bind fun others rest => .pure ?_
      exact List.forall_mem_append.mpr ⟨first, rest⟩

theorem brings_instance (retains : Retains known update) (depth : Nat) {inner : Instance σ}
    (staffed : ∀ strategy ∈ inner.strategies, known strategy) (values : List Value) :
    Brings (inner.update setting update depth values) fun updated =>
      ∀ strategy ∈ updated.strategies, known strategy := by
  obtain ⟨template, roots, bindings⟩ := inner
  exact (brings_bindings retains depth staffed 0 _ values).bind fun updated known => .pure known

namespace Outlet

theorem brings_vacate (outlet : Outlet σ) :
    Brings (liftM outlet.vacate : RenderM σ (Outlet σ)) fun updated =>
      ∀ strategy ∈ updated.strategies, known strategy :=
  .performed fun _ => nofun

theorem brings_showText (outlet : Outlet σ) (data : String) :
    Brings (liftM (outlet.showText data) : RenderM σ (Outlet σ)) fun updated =>
      ∀ strategy ∈ updated.strategies, known strategy := by
  have shown (outlet : Outlet σ) (stage : Stage) :
      ∀ strategy ∈ ((showText.show' outlet data).run stage).1.strategies, known strategy := by
    unfold showText.show'
    split
    · nofun
    · nofun
  refine .performed fun stage => ?_
  cases outlet with
  | text anchor old =>
    unfold showText
    dsimp only
    split
    · nofun
    · exact shown _ _
  | vacant anchor | nested anchor inner | items anchor outlets => exact shown _ _

end Outlet

/-- What is chosen among known strategies is known. -/
theorem Strategy.known_choose {strategies : List (Strategy σ)} (default : known setAttribute)
    (registered : ∀ strategy ∈ strategies, known strategy) (part : AttributePart) :
    known (choose strategies part) := by
  unfold choose
  cases claimed : strategies.find? (·.claims part) with
  | none => exact default
  | some strategy => exact registered strategy (List.mem_of_find?_eq_some claimed)

namespace Instance

theorem staffed_bindAll {strategies : List (Strategy σ)} (default : known .setAttribute)
    (registered : ∀ strategy ∈ strategies, known strategy) {stage : Stage} {roots : List NodeId}
    {index : Nat} {parts : List Part} {bindings : List (Binding σ)}
    (bound : bindAll strategies stage roots index parts = .ok bindings) :
    ∀ strategy ∈ Binding.strategies bindings, known strategy := by
  induction parts generalizing index bindings with
  | nil =>
    cases bound
    nofun
  | cons part parts ih =>
    obtain ⟨node, rest, -, later, rfl⟩ := bindAll_cons_eq_ok.mp bound
    have behind := ih later
    obtain part | path := part
    · exact List.forall_mem_cons.mpr ⟨Strategy.known_choose default registered part, behind⟩
    · exact behind

/-- A new instance has known strategies only. -/
theorem staffed_make {strategies : List (Strategy σ)} (default : known .setAttribute)
    (registered : ∀ strategy ∈ strategies, known strategy) {template : Template} {stage : Stage}
    {inner : Instance σ} (made : ((make strategies template).run stage).1 = .ok inner) :
    ∀ strategy ∈ inner.strategies, known strategy := by
  obtain ⟨-, copied, bound⟩ := bindAll_of_make made
  obtain ⟨_, roots, bindings⟩ := inner
  exact staffed_bindAll default registered bound

end Instance

/-- A new instance is made, or not. -/
theorem Brings.making {strategies : List (Strategy σ)} {template : Template} {post : α → Prop}
    {next : Except (Nat × ResolutionError) (Instance σ) → RenderM σ α}
    (default : known .setAttribute) (registered : ∀ strategy ∈ strategies, known strategy)
    (brings : ∀ made, (∀ inner, made = .ok inner → ∀ strategy ∈ inner.strategies, known strategy) →
      Brings (next made) post) :
    Brings (liftM (Instance.make strategies template) >>= next) post :=
  fun _ _ _ => brings _ (fun _ => Instance.staffed_make default registered) _ _ _

namespace Outlet

theorem brings_replace (retains : Retains known update) (default : known .setAttribute)
    (registered : ∀ strategy ∈ setting.strategies, known strategy) (part depth : Nat)
    (outlet : Outlet σ) (template : Template) (values : List Value) :
    Brings (showTemplate.replace setting update part depth outlet template values) fun updated =>
      ∀ strategy ∈ updated.strategies, known strategy := by
  unfold showTemplate.replace
  refine .after fun _ => .making default registered fun made staffed => ?_
  cases made with
  | error failure => exact .after fun _ => .after fun _ => .pure nofun
  | ok inner =>
    refine .after fun _ => ?_
    rw [map_eq_pure_bind]
    exact (brings_instance retains depth (staffed inner rfl) values).bind fun updated known =>
      .pure known

theorem brings_showTemplate (retains : Retains known update) (default : known .setAttribute)
    (registered : ∀ strategy ∈ setting.strategies, known strategy) (part depth : Nat)
    {outlet : Outlet σ} (staffed : ∀ strategy ∈ outlet.strategies, known strategy)
    (template : Template) (values : List Value) :
    Brings (showTemplate setting update part depth outlet template values) fun updated =>
      ∀ strategy ∈ updated.strategies, known strategy := by
  have replaced := brings_replace retains default registered part depth outlet template values
  cases outlet with
  | nested anchor inner =>
    unfold showTemplate
    dsimp only
    split
    · refine .after fun _ => ?_
      rw [map_eq_pure_bind]
      exact (brings_instance retains depth staffed values).bind fun updated known => .pure known
    · exact replaced
  | vacant anchor | text anchor data | items anchor outlets => exact replaced

theorem brings_showItems (retains : Retains known update) (part item : Nat) (last : NodeId)
    {outlets : List (Outlet σ)} (staffed : ∀ strategy ∈ itemStrategies outlets, known strategy)
    (values : List Value) :
    Brings (showItems update part item last outlets values) fun updated =>
      ∀ strategy ∈ itemStrategies updated, known strategy := by
  induction values generalizing item last outlets with
  | nil =>
    cases outlets with
    | nil => exact .pure (List.forall_mem_nil _)
    | cons outlet outlets => exact .after fun _ => .after fun _ => .pure (List.forall_mem_nil _)
  | cons value values ih =>
    -- Once the first item is there, the others come behind the last of its nodes.
    have further (outlet : Outlet σ) (here : ∀ strategy ∈ outlet.strategies, known strategy)
        {rest : List (Outlet σ)} (later : ∀ strategy ∈ itemStrategies rest, known strategy) :
        Brings (do
          let first ← update part outlet value
          let others ← showItems update part (item + 1) first.lastNode rest values
          pure (first :: others)) fun updated =>
            ∀ strategy ∈ itemStrategies updated, known strategy := by
      refine (retains part outlet value here).bind fun first updated => ?_
      refine (ih (item + 1) first.lastNode later).bind fun others rest => .pure ?_
      exact List.forall_mem_append.mpr ⟨updated, rest⟩
    cases outlets with
    | nil =>
      unfold showItems
      exact .after fun anchor =>
        further (.vacant anchor) (List.forall_mem_nil _) (List.forall_mem_nil _)
    | cons outlet outlets =>
      obtain ⟨here, later⟩ := List.forall_mem_append.mp staffed
      unfold showItems
      exact further outlet here later

theorem brings_showList (retains : Retains known update) (part : Nat) {outlet : Outlet σ}
    (staffed : ∀ strategy ∈ outlet.strategies, known strategy) (values : List Value) :
    Brings (showList update part outlet values) fun updated =>
      ∀ strategy ∈ updated.strategies, known strategy := by
  have shown {outlets : List (Outlet σ)}
      (staffed : ∀ strategy ∈ itemStrategies outlets, known strategy) (anchor : NodeId) :
      Brings (Outlet.items anchor <$> showItems update part 0 anchor outlets values) fun updated =>
        ∀ strategy ∈ updated.strategies, known strategy := by
    rw [map_eq_pure_bind]
    exact (brings_showItems retains part 0 anchor staffed values).bind fun updated known =>
      .pure known
  have anew : Brings (do
      liftM outlet.clear
      Outlet.items outlet.anchor <$> showItems update part 0 outlet.anchor [] values) fun updated =>
        ∀ strategy ∈ updated.strategies, known strategy :=
    .after fun _ => @shown [] (List.forall_mem_nil _) outlet.anchor
  cases outlet with
  | items anchor outlets => exact shown staffed anchor
  | vacant anchor | text anchor data | nested anchor inner => exact anew

theorem retains_update (default : known .setAttribute)
    (registered : ∀ strategy ∈ setting.strategies, known strategy) (room : Nat) :
    Retains known (Outlet.update setting room) := by
  induction room with
  | zero =>
    intro part outlet value staffed
    exact .after fun _ => brings_vacate outlet
  | succ room ih =>
    intro part outlet value staffed
    unfold Outlet.update
    refine .after fun outcome => ?_
    cases outcome with
    | error error => exact .after fun _ => brings_vacate outlet
    | ok value =>
      cases value with
      | template template values =>
        exact brings_showTemplate ih default registered part _ staffed template values
      | items values => exact brings_showList ih part staffed values
      | _ => exact brings_showText outlet _

end Outlet

end

/-! ## Calls -/

namespace Renderer

variable {setting : Setting σ} {known : Strategy σ → Prop} {previous : Option (Instance σ)}

theorem brings_prepare (default : known .setAttribute)
    (registered : ∀ strategy ∈ setting.strategies, known strategy) (container : NodeId)
    (staffed : ∀ inner, previous = some inner → ∀ strategy ∈ inner.strategies, known strategy)
    (template : Template) :
    Brings (prepare setting container previous template) fun prepared =>
      ∀ inner, prepared = some inner → ∀ strategy ∈ inner.strategies, known strategy := by
  unfold prepare
  cases kept : previous.filter (·.template = template) with
  | some inner =>
    refine .after fun _ => .pure ?_
    rintro _ ⟨⟩
    exact staffed inner (Option.filter_eq_some_iff.mp kept).1
  | none =>
    refine .after fun _ => .making default registered fun made staffed => ?_
    cases made with
    | error failure => exact .after fun _ => .after fun _ => .pure nofun
    | ok inner =>
      refine .after fun _ => .pure ?_
      rintro _ ⟨⟩
      exact staffed inner rfl

theorem brings_renderInto (default : known .setAttribute)
    (registered : ∀ strategy ∈ setting.strategies, known strategy) (container : NodeId)
    (staffed : ∀ inner, previous = some inner → ∀ strategy ∈ inner.strategies, known strategy)
    (result : TemplateResult) :
    Brings (renderInto setting container previous result) fun updated =>
      ∀ inner, updated = some inner → ∀ strategy ∈ inner.strategies, known strategy := by
  unfold renderInto
  refine .after fun _ => (brings_prepare default registered container staffed _).bind
    fun prepared staffed => ?_
  cases prepared with
  | none => exact .pure nofun
  | some inner =>
    dsimp only
    rw [map_eq_pure_bind]
    refine (brings_instance (Outlet.retains_update default registered _) 0 (staffed inner rfl)
      result.values).bind fun updated known => .pure ?_
    rintro _ ⟨⟩
    exact known

/-- All strategies in the instances of a renderer are the default one or have been registered. -/
theorem Emerges.enlisted {sort : Template → Prop} {config : Config} {renderer : Renderer σ}
    (emerges : renderer.Emerges sort config) {container : NodeId} {inner : Instance σ}
    (held : renderer.instance? container = some inner) :
    ∀ strategy ∈ inner.strategies, strategy = .setAttribute ∨ strategy ∈ renderer.strategies := by
  induction emerges generalizing container inner with
  | fresh built => cases held
  | elsewhere _ edits untouched journal ih => exact ih held
  | strategy _ modest ih =>
    intro strategy member
    exact (ih held strategy member).imp_right (List.mem_append_left _)
  | @render renderer _ target has apart environment yields template values proper world ih =>
    let setting : Setting σ := ⟨environment, renderer.config, renderer.strategies⟩
    let rendered := ((renderInto setting target (renderer.instance? target)
      ⟨template, values⟩).run #[] |>.run world).run renderer.stage
    have brings : Brings (renderInto setting target (renderer.instance? target) ⟨template, values⟩)
        fun updated => ∀ inner, updated = some inner → ∀ strategy ∈ inner.strategies,
          strategy = .setAttribute ∨ strategy ∈ renderer.strategies :=
      brings_renderInto (.inl rfl) (fun _ => .inr) target (fun _ => @ih target _) _
    -- The container has what the call brought, and all others have what they had.
    change ((rendered.1.1.1.map (target, ·)).toList ++
      without renderer.instances target).lookup container = some inner at held
    rw [lookup_updated] at held
    split at held
    · exact brings #[] world renderer.stage inner held
    · exact ih held
  | @release renderer _ target ih =>
    obtain ⟨-, strategies⟩ := renderer.plain_release target
    rw [strategies]
    unfold Renderer.release at held
    cases there : renderer.instance? target with
    | none =>
      rw [there] at held
      exact ih held
    | some other =>
      rw [there] at held
      change (without renderer.instances target).lookup container = some inner at held
      rw [lookup_without] at held
      split at held
      · cases held
      · exact ih held

end Renderer

end LiveMarkup
