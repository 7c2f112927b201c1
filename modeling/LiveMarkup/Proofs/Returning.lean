import LiveMarkup.Proofs.Unmetered
import LiveMarkup.Proofs.Moves

/-! # Rendering returns

Whatever deferred computations yield, and however a stage falls short, rendering without a meter
returns, with the outcome of rendering, and it stays within the limits of its configuration
(`Renderer.render_returns`).

`Returns` compares a program that may never return with one that does, and is kept by sequencing.
With it, each function is compared with its metered one in the order of its recursion: the outlets
by the room that is left, a sweep by the children that are. -/

namespace LiveMarkup

variable {σ α β : Type}

/-- A call that stays within the limits. -/
def Call.Within (config : Config) : Call → Prop
  | update depth => depth ≤ config.depthLimit + 1
  | chain invocations => invocations ≤ config.maxInvocations
  | descent depth level => level ≤ config.depthLimit - depth

namespace Running

theorem record_nil (running : Running σ) : running.record [] = running := by
  rw [record, List.append_nil]

theorem record_append (running : Running σ) (calls more : List Call) :
    running.record (calls ++ more) = (running.record calls).record more := by
  rw [record, record, record, List.append_assoc]

end Running

namespace Unmetered

/-- A program returns, with the outcome of an action, and makes calls within the limits. -/
def Returns (config : Config) (program : UnmeteredM σ α) (action : RenderM σ α) : Prop :=
  ∀ running : Running σ, ∃ calls : List Call, (∀ call ∈ calls, call.Within config) ∧
    program.run running = some ((running.record calls).perform action)

namespace Returns

variable {config : Config}

theorem work (action : RenderM σ α) : Returns config (work action) action :=
  fun running => ⟨[], nofun, by rw [running.record_nil]; rfl⟩

protected theorem pure (result : α) :
    Returns config (pure result : UnmeteredM σ α) (pure result) :=
  fun running => ⟨[], nofun, by rw [running.record_nil]; rfl⟩

theorem bind {program : UnmeteredM σ β} {action : RenderM σ β} {next : β → UnmeteredM σ α}
    {after : β → RenderM σ α} (first : Returns config program action)
    (second : ∀ result, Returns config (next result) (after result)) :
    Returns config (program >>= next) (action >>= after) := by
  intro running
  obtain ⟨calls, within, ran⟩ := first running
  obtain ⟨more, within', ran'⟩ :=
    second ((running.record calls).perform action).1 ((running.record calls).perform action).2
  refine ⟨calls ++ more, List.forall_mem_append.mpr ⟨within, within'⟩, ?_⟩
  rw [StateT.run_bind, ran, running.record_append]
  exact ran'

/-- A call on record, which is no part of the outcome. -/
theorem record {call : Call} (within : call.Within config) {next : Unit → UnmeteredM σ α}
    {action : RenderM σ α} (returns : Returns config (next ()) action) :
    Returns config (record call >>= next) action := by
  intro running
  obtain ⟨calls, within', ran⟩ := returns (running.record [call])
  refine ⟨call :: calls, List.forall_mem_cons.mpr ⟨within, within'⟩, ?_⟩
  rw [← List.singleton_append, running.record_append]
  exact ran

/-- Work that may fail to resolve a value fails or goes on without a meter as it does with one. -/
theorem attempt {program : ExceptT ResolutionError (UnmeteredM σ) β} {action : ResolveM σ β}
    {next : β → ExceptT ResolutionError (UnmeteredM σ) α} {after : β → ResolveM σ α}
    (first : Returns config program.run (liftM action.run))
    (second : ∀ result, Returns config (next result).run (liftM (after result).run)) :
    Returns config (program >>= next).run (liftM (action >>= after).run) := by
  rw [ExceptT.run_bind, ExceptT.run_bind, liftM_bind]
  refine first.bind fun result => ?_
  cases result with
  | ok result => exact second result
  | error error => exact .pure _

theorem attempt_record {call : Call} (within : call.Within config)
    {next : Unit → ExceptT ResolutionError (UnmeteredM σ) α}
    {action : RenderM σ (Except ResolutionError α)}
    (returns : Returns config (next ()).run action) :
    Returns config (ExceptT.lift (Unmetered.record call) >>= next).run action := by
  rw [ExceptT.run_bind, ExceptT.run_lift, map_eq_pure_bind, bind_assoc]
  exact .record within returns

theorem mapM {program : Value → ExceptT ResolutionError (UnmeteredM σ) Value}
    {action : Value → ResolveM σ Value}
    (each : ∀ value, Returns config (program value).run (liftM (action value).run))
    (values : List Value) :
    Returns config (values.mapM program).run (liftM (values.mapM action).run) := by
  induction values with
  | nil =>
    rw [List.mapM_nil, List.mapM_nil]
    exact .pure _
  | cons value values ih =>
    rw [List.mapM_cons, List.mapM_cons]
    exact (each value).attempt fun first => ih.attempt fun rest => .pure _

end Returns

variable (setting : Setting σ)

/-! ## Resolving -/

/-- Without a meter, a chain of deferred values comes to an end as it does after so many invocations
with one. -/
theorem returns_trampoline (invocations left : Nat)
    (total : invocations + left = setting.config.maxInvocations) (value : Value) :
    Returns setting.config (trampoline setting invocations value)
      (liftM (setting.environment.trampoline setting.config.maxInvocations left value).run) := by
  have within : (Call.chain invocations).Within setting.config := Nat.le.intro total
  induction left generalizing invocations value with
  | zero =>
    cases value
    case deferred computation =>
      have finished : invocations = setting.config.maxInvocations := total
      unfold trampoline
      rw [if_pos finished]
      exact .record within (.pure _)
    all_goals
      unfold trampoline
      exact .record within (.pure _)
  | succ left ih =>
    cases value
    case deferred computation =>
      have unfinished : invocations ≠ setting.config.maxInvocations := by omega
      have further : invocations + 1 + left = setting.config.maxInvocations := by omega
      have within : (Call.chain (invocations + 1)).Within setting.config := Nat.le.intro further
      unfold trampoline Environment.trampoline
      rw [if_neg unfinished, ExceptT.run_bind, liftM_bind]
      refine .bind (.work (liftM (setting.environment.call computation).run)) fun result => ?_
      cases result with
      | ok value => exact ih _ further value within
      | error error => exact .record within (.pure _)
    all_goals
      unfold trampoline
      exact .record within (.pure _)

theorem returns_resolve (value : Value) :
    Returns setting.config (trampoline setting 0 value)
      (liftM (setting.environment.resolve setting.config.maxInvocations value).run) :=
  returns_trampoline setting 0 _ (Nat.zero_add _) value

/-- Without a meter, a value in lists is resolved as it is with so many levels left. -/
theorem returns_resolveNested (depth level left : Nat)
    (total : level + left = setting.config.depthLimit - depth) (value : Value) :
    Returns setting.config (resolveNested setting depth level value).run
      (liftM (setting.environment.resolveLevels setting.config.maxInvocations
        (setting.config.depthLimit - depth) left value).run) := by
  have within : (Call.descent depth level).Within setting.config := Nat.le.intro total
  have resolves := returns_resolve setting value
  induction left generalizing level value with
  | zero =>
    have bottom : setting.config.depthLimit - depth ≤ level := Nat.le_of_eq total.symm
    unfold resolveNested Environment.resolveLevels
    refine .attempt_record within (.attempt resolves fun value => ?_)
    cases value
    case items values =>
      dsimp only
      rw [if_pos bottom]
      exact .pure _
    all_goals exact .pure _
  | succ left ih =>
    have above : ¬ setting.config.depthLimit - depth ≤ level := by omega
    have further : level + 1 + left = setting.config.depthLimit - depth := by omega
    unfold resolveNested Environment.resolveLevels
    refine .attempt_record within (.attempt resolves fun value => ?_)
    cases value
    case items values =>
      dsimp only
      rw [if_neg above]
      refine .attempt (.mapM (fun value => ?_) values) fun values => .pure _
      exact ih _ further value (Nat.le.intro further) (returns_resolve setting value)
    all_goals exact .pure _

/-! ## Updating -/

theorem returns_updateAttribute (binding : AttributeBinding σ) (part : Nat) {depth : Nat}
    (within : (Call.update depth).Within setting.config) (value : Value) :
    Returns setting.config (updateAttribute setting binding part depth value)
      (binding.update setting part depth value) := by
  have resolves := returns_resolveNested setting depth 0 _ (Nat.zero_add _) value
  unfold updateAttribute AttributeBinding.update
  have commits (value : Value) : Returns setting.config
      (if binding.last.any (·.samePrimitive value) then do
        work (liftM (Stage.note .attributeSame))
        pure binding
      else work (binding.commit part depth value))
      (if binding.last.any (·.samePrimitive value) then do
        liftM (Stage.note .attributeSame)
        pure binding
      else binding.commit part depth value) := by
    split
    · exact .bind (.work _) fun _ => .pure _
    · exact .work _
  refine .record within (.bind resolves fun outcome => ?_)
  cases outcome with
  | ok value => exact commits value
  | error error => exact .bind (.work _) fun _ => commits .empty

/-- Without a meter, an outlet is brought up to date at a depth as it is with the room left
there. -/
def Updates (depth : Nat) (update : OutletUpdate σ) : Prop :=
  ∀ part outlet value,
    Returns setting.config (updateOutlet setting depth part outlet value) (update part outlet value)

section

variable {setting : Setting σ} {depth : Nat} {update : OutletUpdate σ}

theorem returns_updateBindings (updates : Updates setting depth update)
    (within : (Call.update depth).Within setting.config) (index : Nat)
    (bindings : List (Binding σ)) (parts : List Part) (values : List Value) :
    Returns setting.config (updateBindings setting depth index bindings parts values)
      (LiveMarkup.updateBindings setting update depth index bindings parts values) := by
  induction bindings generalizing index parts values with
  | nil =>
    unfold updateBindings
    exact .pure _
  | cons binding bindings ih =>
    cases parts with
    | nil =>
      unfold updateBindings
      exact .pure _
    | cons part parts =>
      cases values with
      | nil =>
        unfold updateBindings
        exact .pure _
      | cons value values =>
        -- Whatever the first binding comes to, the others follow in the same way.
        have rest (first : Binding σ) : Returns setting.config
            (do
              let rest ← updateBindings setting depth (index + 1) bindings parts values
              pure (first :: rest))
            (do
              let rest ←
                LiveMarkup.updateBindings setting update depth (index + 1) bindings parts values
              pure (first :: rest)) :=
          .bind (ih (index + 1) parts values) fun _ => .pure _
        unfold updateBindings LiveMarkup.updateBindings
        refine .bind (.work _) fun _ => ?_
        obtain binding | outlet := binding
        · simp only [map_eq_pure_bind, bind_assoc, pure_bind]
          exact .bind (returns_updateAttribute setting binding index within value) fun _ => rest _
        · simp only [map_eq_pure_bind, bind_assoc, pure_bind]
          exact .bind (updates index outlet value) fun _ => rest _

theorem returns_showItems (updates : Updates setting depth update) (part item : Nat) (last : NodeId)
    (outlets : List (Outlet σ)) (values : List Value) :
    Returns setting.config (showItems setting depth part item last outlets values)
      (Outlet.showItems update part item last outlets values) := by
  induction values generalizing item last outlets with
  | nil =>
    cases outlets with
    | nil =>
      unfold showItems
      exact .pure _
    | cons outlet outlets =>
      unfold showItems
      exact .bind (.work _) fun _ => .bind (.work _) fun _ => .pure _
  | cons value values ih =>
    cases outlets with
    | nil =>
      unfold showItems
      refine .bind (.work _) fun anchor => .bind (updates part _ value) fun first => ?_
      exact .bind (ih (item + 1) first.lastNode []) fun _ => .pure _
    | cons outlet outlets =>
      unfold showItems
      refine .bind (updates part outlet value) fun first => ?_
      exact .bind (ih (item + 1) first.lastNode outlets) fun _ => .pure _

theorem returns_showTemplate (updates : Updates setting depth update)
    (within : (Call.update depth).Within setting.config) (part : Nat) (outlet : Outlet σ)
    (template : Template) (values : List Value) :
    Returns setting.config (showTemplate setting depth part outlet template values)
      (outlet.showTemplate setting update part depth template values) := by
  have inside (anchor : NodeId) (inner : Instance σ) : Returns setting.config
      (do
        let bindings ←
          updateBindings setting depth 0 inner.bindings inner.template.blueprint.parts values
        pure (Outlet.nested anchor (.mk inner.template inner.roots bindings)))
      (Outlet.nested anchor <$> inner.update setting update depth values) :=
    .bind (returns_updateBindings updates within 0 _ _ _) fun _ => .pure _
  -- Both branches below end by updating an instance, the one that was there or a new one.
  have replace : Returns setting.config
      (replaceTemplate setting depth part outlet template values)
      (Outlet.showTemplate.replace setting update part depth outlet template values) := by
    unfold replaceTemplate
    refine .bind (.work _) fun _ => .bind (.work _) fun making => ?_
    cases making with
    | error missing => exact .bind (.work _) fun _ => .bind (.work _) fun _ => .pure _
    | ok inner => exact .bind (.work _) fun _ => inside outlet.anchor inner
  unfold showTemplate
  cases outlet
  case nested anchor inner =>
    unfold Outlet.showTemplate
    dsimp only
    split
    · exact .bind (.work _) fun _ => inside anchor inner
    · exact replace
  all_goals exact replace

end

/-- Outlets are brought up to date in the room that is left below the limit, and there is some at
every depth up to the one behind it. -/
theorem updates_outlet (depth room : Nat) (total : depth + room = setting.config.depthLimit + 1) :
    Updates setting depth (Outlet.update setting room) := by
  have within : (Call.update depth).Within setting.config := Nat.le.intro total
  have here : setting.depthAt room = depth := by
    unfold Setting.depthAt
    omega
  -- The room is the limit less the depth, so that it runs out exactly where the limit is passed.
  induction room generalizing depth with
  | zero =>
    intro part outlet value
    have beyond : setting.config.depthLimit < depth := by omega
    unfold updateOutlet Outlet.update
    rw [here]
    refine .record within ?_
    rw [if_pos beyond]
    exact .work _
  | succ room ih =>
    intro part outlet value
    have below : ¬ setting.config.depthLimit < depth := by omega
    have further : depth + 1 + room = setting.config.depthLimit + 1 := by omega
    have there : setting.depthAt room = depth + 1 := by
      unfold Setting.depthAt
      omega
    have within' : (Call.update (depth + 1)).Within setting.config := Nat.le.intro further
    have updates := ih (depth + 1) further within' there
    unfold updateOutlet Outlet.update
    rw [here, there]
    refine .record within ?_
    rw [if_neg below]
    refine .bind (returns_resolve setting value) fun outcome => ?_
    match outcome with
    | .error error => exact .work _
    | .ok (.template template values) =>
      exact returns_showTemplate updates within' part outlet template values
    | .ok (.items values) =>
      cases outlet
      case items anchor outlets =>
        exact .bind (returns_showItems updates part 0 anchor outlets values) fun _ => .pure _
      all_goals
        refine .bind (.work _) fun _ => ?_
        exact .bind (returns_showItems updates part 0 _ [] values) fun _ => .pure _
    | .ok .empty | .ok (.text _) | .ok (.integer _) | .ok (.float _) | .ok (.bool _)
    | .ok (.deferred _) => exact .work _

end Unmetered

/-! ## Sweeping -/

namespace Stage

theorem run_remove (stage : Stage) (node : NodeId) :
    ((remove node).run stage).2 =
      if stage.shortcomings.keepsRemoved then stage
      else { stage with document := stage.document.remove node } := by
  unfold remove
  cases keeps : stage.shortcomings.keepsRemoved <;> simp [keeps, edit] <;> rfl

theorem mem_children_of_firstChild {stage : Stage} {container child : NodeId}
    (first : stage.firstChild container = some child) :
    child ∈ stage.document.children container := by
  unfold firstChild Stage.child at first
  dsimp only at first
  split at first
  · exact List.mem_of_getElem? first
  · cases first

/-- A first child that is removed and is not the first child any more has left fewer children. -/
theorem fewer_of_remove {stage : Stage} {container child : NodeId}
    (first : stage.firstChild container = some child)
    (gone : ((remove child).run stage).2.firstChild container ≠ some child) :
    (((remove child).run stage).2.document.children container).length <
      (stage.document.children container).length := by
  rw [run_remove] at gone ⊢
  cases keeps : stage.shortcomings.keepsRemoved with
  | true =>
    rw [keeps, if_pos rfl] at gone
    exact absurd first gone
  | false =>
    rw [keeps, if_neg Bool.false_ne_true] at gone
    rw [if_neg Bool.false_ne_true]
    have children : (stage.document.remove child).children container =
        if stage.document.parent child = some container then
          (stage.document.children container).filter (· != child)
        else stage.document.children container :=
      stage.document.children_detach child container
    by_cases placed : stage.document.parent child = some container
    · rw [if_pos placed] at children
      rw [children]
      exact List.length_filter_lt_length_iff_exists.mpr
        ⟨child, mem_children_of_firstChild first, by simp⟩
    · -- The child has stayed, so it is the first one still.
      rw [if_neg placed] at children
      unfold firstChild Stage.child at first gone
      rw [children] at gone
      exact absurd first gone

end Stage

theorem Renderer.run_sweep (container : NodeId) (count : Nat) (stage : Stage) :
    (sweep container (count + 1)).run stage =
      match stage.firstChild container with
      | none => ((), stage)
      | some child =>
        let later := ((Stage.remove child).run stage).2
        if later.firstChild container = some child then (Stage.note (.notRemoved child)).run later
        else (sweep container count).run later := by
  conv => lhs; unfold sweep
  change StateT.run (match stage.firstChild container with | none => _ | some _ => _) stage = _
  cases first : stage.firstChild container with
  | none => rfl
  | some child =>
    change StateT.run (if ((Stage.remove child).run stage).2.firstChild container = some child
      then _ else _) ((Stage.remove child).run stage).2 = _
    by_cases stays : ((Stage.remove child).run stage).2.firstChild container = some child
    · rw [if_pos stays]
      exact (if_pos stays).symm
    · rw [if_neg stays]
      exact (if_neg stays).symm

namespace Unmetered

theorem run_sweep (container : NodeId) (running : Running σ) :
    (sweep container).run running =
      match running.stage.firstChild container with
      | none => some ((), running)
      | some child =>
        let later := (running.perform (liftM (Stage.remove child))).2
        if later.stage.firstChild container = some child then
          some (later.perform (liftM (Stage.note (.notRemoved child))))
        else (sweep container).run later := by
  conv => lhs; unfold sweep
  change StateT.run (match running.stage.firstChild container with
    | none => _ | some _ => _) running = _
  cases first : running.stage.firstChild container with
  | none => rfl
  | some child =>
    change StateT.run (if (running.perform (liftM (Stage.remove child))).2.stage.firstChild
      container = some child then _ else _) (running.perform (liftM (Stage.remove child))).2 = _
    by_cases stays : (running.perform (liftM (Stage.remove child))).2.stage.firstChild container =
        some child
    · rw [if_pos stays]
      exact (if_pos stays).symm
    · rw [if_neg stays]
      exact (if_neg stays).symm

/-- Without a meter, a sweep comes to an end as it does with one that allows for all children. -/
theorem run_sweep_eq (container : NodeId) (count : Nat) (running : Running σ)
    (enough : (running.stage.document.children container).length ≤ count) :
    (sweep container).run running =
      some (running.perform (liftM (Renderer.sweep container count))) := by
  induction count generalizing running with
  | zero =>
    have none : running.stage.firstChild container = none := by
      cases first : running.stage.firstChild container with
      | none => rfl
      | some child =>
        have member := Stage.mem_children_of_firstChild first
        rw [List.length_eq_zero_iff.mp (Nat.le_zero.mp enough)] at member
        cases member
    rw [run_sweep, none]
    rfl
  | succ count ih =>
    have performed : running.perform (liftM (Renderer.sweep container (count + 1))) =
        let outcome := (Renderer.sweep container (count + 1)).run running.stage
        (outcome.1, { running with stage := outcome.2 }) :=
      rfl
    rw [performed, run_sweep, Renderer.run_sweep]
    cases first : running.stage.firstChild container with
    | none => rfl
    | some child =>
      dsimp only
      by_cases stays : ((Stage.remove child).run running.stage).2.firstChild container = some child
      · rw [if_pos stays]
        exact if_pos stays
      · have fewer := Stage.fewer_of_remove first stays
        rw [if_neg stays]
        exact (if_neg stays).trans (ih _ (Nat.le_of_lt_succ (Nat.lt_of_lt_of_le fewer enough)))

/-! ## Rendering -/

/-- A new instance is put in, or the diagnostic of a missing one is reported. -/
theorem returns_make (setting : Setting σ) (container : NodeId) (template : Template) :
    Returns setting.config
      (do
        match ← work (liftM (Instance.make setting.strategies template)) with
        | .ok inner =>
          work (inner.roots.forM fun root => liftM (Stage.append container root))
          pure (some inner)
        | .error (part, error) =>
          work (liftM (Stage.note .instanceMissing))
          work (report part 0 error)
          pure none)
      (do
        match ← (liftM (Instance.make setting.strategies template) : RenderM σ _) with
        | .ok inner =>
          inner.roots.forM fun root => liftM (Stage.append container root)
          pure (some inner)
        | .error (part, error) =>
          liftM (Stage.note .instanceMissing)
          report part 0 error
          pure none) := by
  refine .bind (.work _) fun making => ?_
  cases making with
  | error missing => exact .bind (.work _) fun _ => .bind (.work _) fun _ => .pure _
  | ok inner => exact .bind (.work _) fun _ => .pure _

theorem returns_prepare (setting : Setting σ) (container : NodeId) (previous : Option (Instance σ))
    (template : Template) :
    Returns setting.config (prepare setting container previous template)
      (Renderer.prepare setting container previous template) := by
  have sweeps : Returns setting.config (sweep (σ := σ) container)
      (liftM (do
        Renderer.sweep container ((← get).document.children container).length : StageM Unit)) := by
    intro running
    refine ⟨[], List.forall_mem_nil _, ?_⟩
    rw [running.record_nil]
    exact run_sweep_eq container _ running (Nat.le_refl _)
  have makes := returns_make setting container template
  unfold prepare Renderer.prepare
  cases previous.filter (·.template = template) with
  | some inner => exact .bind (.work _) fun _ => .pure _
  | none =>
    unfold Renderer.evict
    cases previous with
    | some previous =>
      dsimp only
      simp only [liftM_bind, bind_assoc]
      exact .bind (.work _) fun _ => .bind (.work _) fun _ => .bind sweeps fun _ => makes
    | none => exact .bind sweeps fun _ => makes

theorem returns_renderInto (setting : Setting σ) (container : NodeId)
    (previous : Option (Instance σ)) (result : TemplateResult) :
    Returns setting.config (renderInto setting container previous result)
      (Renderer.renderInto setting container previous result) := by
  have updates : Updates setting 0 (Outlet.update setting (setting.config.depthLimit + 1)) :=
    updates_outlet setting 0 _ (Nat.zero_add _)
  unfold renderInto Renderer.renderInto
  refine .bind (.work _) fun _ => ?_
  refine .bind (returns_prepare setting container previous _) fun inner => ?_
  cases inner with
  | none => exact .pure _
  | some inner =>
    exact .bind (returns_updateBindings updates (Nat.zero_le _) 0 _ _ _) fun _ => .pure _

/-- A call that has no meter returns what one with meters does. -/
theorem exists_render (renderer : Renderer σ) (environment : Environment σ) (container : NodeId)
    (result : TemplateResult) (world : σ) : ∃ calls : List Call,
    render renderer environment container result world =
      some (renderer.render environment container result world, calls) := by
  let setting : Setting σ :=
    { environment, config := renderer.config, strategies := renderer.strategies }
  obtain ⟨calls, -, ran⟩ := returns_renderInto setting container (renderer.instance? container)
    result ⟨renderer.stage, world, #[], []⟩
  refine ⟨calls, ?_⟩
  unfold render
  dsimp only
  rw [ran]
  rfl

end Unmetered

/-- Rendering returns, whatever deferred computations yield and however the stage falls short.  No
part is brought up to date deeper than one level below the limit, no chain of deferred values is
invoked more often than allowed, and the value of an attribute is not resolved through more levels
of lists than the templates and lists around it leave. -/
theorem Renderer.render_returns (renderer : Renderer σ) (environment : Environment σ)
    (container : NodeId) (result : TemplateResult) (world : σ) :
    ∃ calls : List Call, Unmetered.render renderer environment container result world =
        some (renderer.render environment container result world, calls) ∧
      ∀ call ∈ calls, call.Within renderer.config := by
  let setting : Setting σ :=
    { environment, config := renderer.config, strategies := renderer.strategies }
  obtain ⟨calls, within, ran⟩ := Unmetered.returns_renderInto setting container
    (renderer.instance? container) result ⟨renderer.stage, world, #[], []⟩
  refine ⟨calls, ?_, within⟩
  unfold Unmetered.render
  dsimp only
  rw [ran]
  rfl

end LiveMarkup
