import LiveMarkup.Proofs.Planting.Upkeep

/-! # Errors about anchors

Before nodes are put behind an anchor or behind the last node of an item, their parent is looked up,
and if there is none, an error is noted and the nodes stay invisible.  No other work notes such an
error, whatever stage it is done on (`Mutes`).

`Hushes` says the same of work that may report, when it is done on a certain document.  Work in
several steps is judged by it on the documents that come in between, which `Achieves` tells. -/

namespace LiveMarkup

open Document Markup

variable {α β γ σ : Type}

/-- An error about an anchor that has no parent. -/
def Event.IsDetached : Event → Prop
  | nestedUnplaced _ | itemUnplaced _ _ => True
  | _ => False

/-- From the first stage to the second one, entries have been added to the journal, but no error about
an anchor without a parent. -/
def Stage.Hushed (before after : Stage) : Prop :=
  ∃ events, after.journal.toList = before.journal.toList ++ events ∧
    ∀ event ∈ events, ¬ event.IsDetached

namespace Stage.Hushed

variable {before between after : Stage}

theorem of_same (same : after.journal = before.journal) : before.Hushed after :=
  ⟨[], by simp [same], nofun⟩

theorem trans (first : before.Hushed between) (second : between.Hushed after) :
    before.Hushed after := by
  obtain ⟨events, journal, fine⟩ := first
  obtain ⟨more, journal', fine'⟩ := second
  refine ⟨events ++ more, by rw [journal', journal, List.append_assoc], fun event member => ?_⟩
  obtain member | member := List.mem_append.mp member
  · exact fine event member
  · exact fine' event member

theorem bind {action : StageM β} {next : β → StageM α} (first : before.Hushed (action.run before).2)
    (second : let outcome := action.run before
      outcome.2.Hushed ((next outcome.1).run outcome.2).2) :
    before.Hushed ((action >>= next).run before).2 :=
  first.trans second

theorem get {next : Stage → StageM α} (hushed : before.Hushed ((next before).run before).2) :
    before.Hushed ((MonadState.get >>= next).run before).2 :=
  hushed

end Stage.Hushed

/-! ## Work on a stage -/

/-- On any stage, work notes no error about an anchor without a parent. -/
def Mutes (action : StageM α) : Prop :=
  ∀ stage : Stage, stage.Hushed (action.run stage).2

namespace Mutes

protected theorem pure (result : α) : Mutes (pure result) :=
  fun _ => .of_same rfl

theorem bind {action : StageM β} {next : β → StageM α} (first : Mutes action)
    (second : ∀ result, Mutes (next result)) : Mutes (action >>= next) :=
  fun stage => (first stage).trans (second _ _)

theorem get {next : Stage → StageM α} (mutes : ∀ stage, Mutes (next stage)) :
    Mutes (MonadState.get >>= next) :=
  fun stage => mutes stage stage

theorem forM {list : List β} {action : β → StageM Unit} (each : ∀ entry, Mutes (action entry)) :
    Mutes (list.forM action) := by
  induction list with
  | nil => exact .pure ()
  | cons first rest ih => exact bind (each first) fun _ => ih

theorem mapM {list : List β} {action : β → StageM α} (each : ∀ entry, Mutes (action entry)) :
    Mutes (list.mapM action) := by
  induction list with
  | nil => exact .pure []
  | cons first rest ih =>
    rw [List.mapM_cons]
    exact bind (each first) fun _ => bind ih fun _ => .pure _

theorem edit (change : Document → Document) : Mutes (Stage.edit change) :=
  fun _ => .of_same rfl

theorem create (data : NodeData) : Mutes (Stage.create data) :=
  fun _ => .of_same rfl

theorem note {event : Event} (fine : ¬ event.IsDetached) : Mutes (Stage.note event) :=
  fun _ => ⟨[event], Array.toList_push, by simpa using fine⟩

theorem setAttribute (element : NodeId) (name value : String) :
    Mutes (Stage.setAttribute element name value) := by
  unfold Stage.setAttribute
  refine get fun stage => ?_
  split
  · exact edit _
  · exact note id

theorem setText (node : NodeId) (data : String) : Mutes (Stage.setText node data) := by
  unfold Stage.setText
  refine get fun stage => ?_
  split
  · exact note id
  · exact edit _

theorem insertBefore (parent node : NodeId) (reference : Option NodeId) :
    Mutes (Stage.insertBefore parent node reference) := by
  unfold Stage.insertBefore
  cases reference with
  | none => exact edit _
  | some reference =>
    refine get fun stage => ?_
    split
    · exact edit _
    · exact bind (note id) fun _ => edit _

theorem remove (node : NodeId) : Mutes (Stage.remove node) := by
  unfold Stage.remove
  refine get fun stage => ?_
  split
  · exact .pure ()
  · exact edit _

mutual

theorem copy : ∀ tree : Node, Mutes (Stage.copy tree)
  | .element name space attributes children => by
    rw [Stage.copy]
    exact bind (create _) fun element => bind (forM fun pair => setAttribute _ _ _) fun _ =>
      bind (copyInto element children) fun _ => .pure element
  | .text data => create (.text data)
  | .comment data => create (.comment data)

theorem copyInto : ∀ (parent : NodeId) (forest : List Node), Mutes (Stage.copyInto parent forest)
  | _, [] => .pure ()
  | parent, tree :: rest => by
    rw [Stage.copyInto]
    exact bind (copy tree) fun root => bind (insertBefore parent root none) fun _ =>
      copyInto parent rest

end

end Mutes

mutual

theorem Instance.mutes_detach : ∀ inner : Instance σ, Mutes inner.detach
  | .mk template roots bindings => by
    rw [Instance.detach]
    exact .bind (Instance.mutes_clearRoots bindings _) fun _ => .forM .remove

theorem Instance.mutes_clearRoots : ∀ (bindings : List (Binding σ)) (parts : List Part),
    Mutes (Instance.clearRoots bindings parts)
  | [], _ => .pure ()
  | .attribute _ :: _, [] => .pure ()
  | .outlet _ :: _, [] => .pure ()
  | .attribute _ :: bindings, _ :: parts => Instance.mutes_clearRoots bindings parts
  | .outlet outlet :: bindings, part :: parts => by
    rw [Instance.clearRoots]
    split
    · exact .bind outlet.mutes_clear fun _ => Instance.mutes_clearRoots bindings parts
    · exact Instance.mutes_clearRoots bindings parts

theorem Outlet.mutes_clear : ∀ outlet : Outlet σ, Mutes outlet.clear
  | .vacant _ => .pure ()
  | .text anchor _ => Mutes.setText anchor ""
  | .nested _ inner => inner.mutes_detach
  | .items _ outlets => Outlet.mutes_dropAll outlets

theorem Outlet.mutes_dropAll : ∀ outlets : List (Outlet σ), Mutes (Outlet.dropAll outlets)
  | [] => .pure ()
  | outlet :: rest => by
    rw [Outlet.dropAll]
    refine .bind outlet.mutes_clear fun _ => ?_
    exact .bind (.remove outlet.anchor) fun _ => Outlet.mutes_dropAll rest

end

theorem Instance.mutes_make (strategies : List (Strategy σ)) (template : Template) :
    Mutes (make strategies template) := by
  unfold make
  refine .bind (.mapM .copy) fun roots => .get fun stage => ?_
  split
  · exact .pure _
  · exact .bind (.note id) fun _ => .pure _

namespace Outlet

theorem mutes_vacate (outlet : Outlet σ) : Mutes outlet.vacate :=
  .bind outlet.mutes_clear fun _ => .pure _

theorem mutes_showText (outlet : Outlet σ) (data : String) : Mutes (outlet.showText data) := by
  have shows (outlet : Outlet σ) : Mutes (showText.show' outlet data) := by
    unfold showText.show'
    split
    · exact outlet.mutes_vacate
    · exact .bind (.note id) fun _ => .bind (Mutes.setText _ _) fun _ => .pure _
  unfold showText
  split
  · split
    · exact .bind (.note id) fun _ => .pure _
    · exact shows _
  · exact shows _
  · exact .bind (mutes_vacate _) shows
  · exact .bind (mutes_vacate _) shows

/-- The roots of an instance are put behind an anchor that has a parent. -/
theorem hushed_place (part : Nat) {anchor parent : NodeId} (inner : Instance σ) {stage : Stage}
    (attached : stage.document.parent anchor = some parent) :
    stage.Hushed ((place part anchor inner).run stage).2 := by
  unfold place
  refine .get ?_
  simp only [attached]
  exact Mutes.forM (fun _ => .insertBefore _ _ _) stage

/-- An anchor is made behind a node that has a parent. -/
theorem hushed_makeAnchor (part item : Nat) {last parent : NodeId} {stage : Stage}
    (attached : stage.document.parent last = some parent) :
    stage.Hushed ((makeAnchor part item last).run stage).2 := by
  unfold makeAnchor
  refine .bind (Mutes.create _ stage) (.get ?_)
  -- The node that is created before the parent is looked up is another one.
  have kept : (((Stage.create (.text "")).run stage).2.document).parent last = some parent := by
    obtain ⟨cell, found, -⟩ := Option.bind_eq_some_iff.mp attached
    have known := (moves_create (.text "") stage.document).kept last (has_of_cell? found) id
    exact (congrArg (·.bind Cell.parent) known).trans attached
  simp only [kept]
  exact Mutes.bind (.insertBefore _ _ _) (fun _ => .pure _) _

end Outlet

/-! ## What comes from outside -/

/-- Invoking computations notes no error about an anchor without a parent. -/
def Environment.Discreet (environment : Environment σ) : Prop :=
  ∀ computation world, ∀ event ∈ (environment.invoke computation world).1.events, ¬ event.IsDetached

/-- Committing values notes no error about an anchor without a parent. -/
def Strategy.Discreet (strategy : Strategy σ) : Prop :=
  ∀ element part value world, Mutes ((strategy.commit element part value).run world)

theorem Strategy.discreet_setAttribute : (setAttribute : Strategy σ).Discreet := by
  intro element part value world
  simp only [setAttribute]
  cases value.attributeText with
  | error error => exact .pure _
  | ok text => exact Mutes.bind (.note id) fun _ => .bind (.setAttribute _ _ _) fun _ => .pure _

namespace Mutes

theorem attempt {action : ResolveM σ β} {next : β → ResolveM σ α}
    (first : ∀ world, Mutes (action.run.run world))
    (second : ∀ result world, Mutes ((next result).run.run world)) (world : σ) :
    Mutes ((action >>= next).run.run world) := by
  rw [ExceptT.run_bind, StateT.run_bind]
  refine .bind (first world) fun outcome => ?_
  obtain ⟨error | result, world⟩ := outcome
  · exact .pure _
  · exact second result world

end Mutes

namespace Environment

variable {environment : Environment σ}

theorem mutes_call (discreet : environment.Discreet) (computation : Deferred) (world : σ) :
    Mutes ((environment.call computation).run.run world) := by
  intro stage
  rw [run_call]
  exact ⟨_, Array.toList_appendList, discreet computation world⟩

theorem mutes_trampoline (discreet : environment.Discreet) (limit left : Nat) (value : Value)
    (world : σ) : Mutes ((environment.trampoline limit left value).run.run world) := by
  induction left generalizing value world with
  | zero =>
    cases value with
    | deferred computation => exact .pure _
    | _ => exact .pure _
  | succ left ih =>
    cases value with
    | deferred computation =>
      exact Mutes.attempt (mutes_call discreet computation) (fun value => ih value) world
    | _ => exact .pure _

theorem mutes_mapM {action : Value → ResolveM σ Value}
    (each : ∀ value world, Mutes ((action value).run.run world)) (values : List Value) (world : σ) :
    Mutes ((values.mapM action).run.run world) := by
  induction values generalizing world with
  | nil => exact .pure _
  | cons value values ih =>
    rw [List.mapM_cons]
    exact Mutes.attempt (each value) (fun first => Mutes.attempt ih fun rest world => .pure _) world

theorem mutes_resolveLevels (discreet : environment.Discreet) (limit levels left : Nat)
    (value : Value) (world : σ) :
    Mutes ((environment.resolveLevels limit levels left value).run.run world) := by
  induction left generalizing value world with
  | zero =>
    unfold resolveLevels
    refine Mutes.attempt (mutes_trampoline discreet limit limit value) (fun value world => ?_) world
    cases value with
    | items values => exact .pure _
    | _ => exact .pure _
  | succ left ih =>
    unfold resolveLevels
    refine Mutes.attempt (mutes_trampoline discreet limit limit value) (fun value world => ?_) world
    cases value with
    | items values =>
      exact Mutes.attempt (mutes_mapM ih values) (fun values world => .pure _) world
    | _ => exact .pure _

end Environment

/-! ## Work that may report -/

/-- On the stages among the given ones, work notes no error about an anchor without a parent. -/
def Hushes (action : RenderM σ α) (among : Stage → Prop) : Prop :=
  ∀ failures world (stage : Stage), among stage →
    stage.Hushed (((action.run failures).run world).run stage).2

/-- A stage that does not fall short, with the given document. -/
def Stage.Sets (document : Document) (stage : Stage) : Prop :=
  stage.document = document ∧ stage.shortcomings = {}

/-- Any stage. -/
abbrev Stage.Any (_ : Stage) : Prop :=
  True

namespace Hushes

variable {among : Stage → Prop} {document : Document}

protected theorem pure (result : α) : Hushes (pure result : RenderM σ α) among :=
  fun _ _ _ _ => .of_same rfl

theorem always {action : RenderM σ α} (hushes : Hushes action Stage.Any) : Hushes action among :=
  fun failures world stage _ => hushes failures world stage trivial

theorem bind {action : RenderM σ β} {next : β → RenderM σ α} (first : Hushes action among)
    (second : ∀ result, Hushes (next result) Stage.Any) : Hushes (action >>= next) among :=
  fun failures world stage known =>
    (first failures world stage known).trans (second _ _ _ _ trivial)

/-- What comes next is done on a document that is as told. -/
theorem achieve {action : RenderM σ β} {next : β → RenderM σ α} {between : β → Document → Prop}
    (first : Hushes action (Stage.Sets document)) (achieves : Achieves action document between)
    (second : ∀ result after, between result after → Hushes (next result) (Stage.Sets after)) :
    Hushes (action >>= next) (Stage.Sets document) := by
  intro failures world stage known
  obtain ⟨whole, holds⟩ := achieves failures world stage known.1 known.2
  exact (first failures world stage known).trans (second _ _ holds _ _ _ ⟨rfl, whole⟩)

theorem mapping {action : RenderM σ γ} {convert : γ → β} {next : β → RenderM σ α}
    (hushes : Hushes (action >>= fun result => next (convert result)) among) :
    Hushes (convert <$> action >>= next) among :=
  hushes

/-- Work on the stage alone. -/
theorem perform {action : StageM β} {next : β → RenderM σ α} {between : β → Document → Prop}
    (hushed : ∀ stage : Stage, stage.document = document → stage.Hushed (action.run stage).2)
    (performs : Performs action document between)
    (second : ∀ result after, between result after → Hushes (next result) (Stage.Sets after)) :
    Hushes (liftM action >>= next) (Stage.Sets document) := by
  intro failures world stage known
  obtain ⟨whole, holds⟩ := performs stage known.1 known.2
  exact (hushed stage known.1).trans (second _ _ holds failures world _ ⟨rfl, whole⟩)

theorem performed {action : StageM α} (mutes : Mutes action) :
    Hushes (liftM action : RenderM σ α) among :=
  fun _ _ stage _ => mutes stage

/-- Work on the stage that depends on the environment, whatever it gives. -/
theorem regardless {action : SceneM σ β} {next : β → RenderM σ α}
    (mutes : ∀ world, Mutes (action.run world))
    (second : ∀ result, Hushes (next result) Stage.Any) :
    Hushes (liftM action >>= next) among :=
  fun failures world stage _ => (mutes world stage).trans (second _ failures _ _ trivial)

/-- What goes along with a reading leaves the document as it is. -/
theorem follow {action : SceneM σ β} {next : β → RenderM σ α} {reading : StateM σ γ}
    {same : β → γ → Prop} (mutes : ∀ world, Mutes (action.run world))
    (follows : Follows Eq action reading same)
    (second : ∀ result read, same result read → Hushes (next result) (Stage.Sets document)) :
    Hushes (liftM action >>= next) (Stage.Sets document) := by
  intro failures world stage known
  obtain ⟨-, kept, shortcomings, holds⟩ := follows stage world world rfl
  exact (mutes world stage).trans
    (second _ _ holds failures _ _ ⟨kept.trans known.1, shortcomings.trans known.2⟩)

theorem noting {event : Event} {next : Unit → RenderM σ α} (fine : ¬ event.IsDetached)
    (hushes : Hushes (next ()) (Stage.Sets document)) :
    Hushes (liftM (Stage.note event) >>= next) (Stage.Sets document) :=
  fun failures world stage known => (Mutes.note fine stage).trans (hushes failures world _ known)

theorem reporting {part depth : Nat} {error : ResolutionError} {next : Unit → RenderM σ α}
    (hushes : Hushes (next ()) (Stage.Sets document)) :
    Hushes (report part depth error >>= next) (Stage.Sets document) :=
  fun _ world stage known => (Mutes.note id stage).trans (hushes _ world _ known)

theorem report (part depth : Nat) (error : ResolutionError) :
    Hushes (LiveMarkup.report part depth error : RenderM σ Unit) among :=
  fun _ _ stage _ => Mutes.note id stage

end Hushes

end LiveMarkup
