import LiveMarkup.Proofs.Planting.Modesty
import LiveMarkup.Proofs.Planting.States

/-! # Updates with modest strategies

Whatever modest strategies make of the values, an update leaves an instance in the document that is
backed by a bed again, in the place of the old one.  What the values are does not matter, and so
this needs no reading to go along with.  The argument is an induction on the room for templates and
lists (`upkeeps_update`). -/

namespace LiveMarkup

open Document Markup

variable {α β γ σ : Type}

/-! ## Work that may report -/

/-- Work takes a document to one that is as told, and gives a result that is as told, whatever the
environment is like and has been reported so far. -/
def Achieves (action : RenderM σ α) (document : Document) (post : α → Document → Prop) : Prop :=
  ∀ (reported : Array Diagnostic) (world : σ),
    Performs ((action.run reported).run world) document fun outcome after => post outcome.1.1 after

namespace Achieves

variable {document : Document} {post : α → Document → Prop}

protected theorem pure {result : α} (holds : post result document) :
    Achieves (Pure.pure result : RenderM σ α) document post :=
  fun _ _ => Performs.pure holds

theorem bind {action : RenderM σ β} {next : β → RenderM σ α} {between : β → Document → Prop}
    (first : Achieves action document between)
    (second : ∀ result after, between result after → Achieves (next result) after post) :
    Achieves (action >>= next) document post :=
  fun reported world => (first reported world).bind fun outcome after holds =>
    second outcome.1.1 after holds outcome.1.2 outcome.2

theorem mono {action : RenderM σ α} {stronger : α → Document → Prop}
    (achieves : Achieves action document stronger)
    (weaken : ∀ result after, stronger result after → post result after) :
    Achieves action document post :=
  fun reported world => (achieves reported world).mono fun _ _ => weaken _ _

theorem mapping {action : RenderM σ γ} {convert : γ → β} {next : β → RenderM σ α}
    (achieves : Achieves (action >>= fun result => next (convert result)) document post) :
    Achieves (convert <$> action >>= next) document post :=
  achieves

/-- Work on the stage alone. -/
theorem perform {action : StageM β} {next : β → RenderM σ α} {between : β → Document → Prop}
    (performs : Performs action document between)
    (achieves : ∀ result after, between result after → Achieves (next result) after post) :
    Achieves (liftM action >>= next) document post :=
  fun reported world => performs.bind fun result after holds =>
    achieves result after holds reported world

theorem performed {action : StageM α} (performs : Performs action document post) :
    Achieves (liftM action : RenderM σ α) document post :=
  fun _ _ => performs.bind fun _ _ holds => .pure holds

/-- Work on the stage that depends on the environment, whatever it gives. -/
theorem regardless {action : SceneM σ β} {next : β → RenderM σ α} {between : Document → Prop}
    (performs : ∀ world, Performs (action.run world) document fun _ after => between after)
    (achieves : ∀ result after, between after → Achieves (next result) after post) :
    Achieves (liftM action >>= next) document post :=
  fun reported world => (performs world).bind fun outcome after holds =>
    achieves outcome.1 after holds reported outcome.2

/-- What goes along with a reading leaves the document as it is. -/
theorem follow {action : SceneM σ β} {next : β → RenderM σ α} {reading : StateM σ γ}
    {same : β → γ → Prop} (follows : Follows Eq action reading same)
    (achieves : ∀ result read, same result read → Achieves (next result) document post) :
    Achieves (liftM action >>= next) document post := by
  intro reported world stage known whole
  obtain ⟨-, kept, shortcomings, holds⟩ := follows stage world world rfl
  exact achieves _ _ holds reported _ _ (kept.trans known) (shortcomings.trans whole)

theorem noting {event : Event} {next : Unit → RenderM σ α}
    (achieves : Achieves (next ()) document post) :
    Achieves (liftM (Stage.note event) >>= next) document post :=
  fun reported world _ same whole => achieves reported world _ same whole

theorem reporting {part depth : Nat} {error : ResolutionError} {next : Unit → RenderM σ α}
    (achieves : Achieves (next ()) document post) :
    Achieves (report part depth error >>= next) document post :=
  fun _ world _ same whole => achieves _ world _ same whole

end Achieves

section

variable {sort : Template → Prop} {setting : Setting σ} {document : Document} {place : Place}
  {inside behind : Grove} {node : NodeId} {tag : String} {space : Option String}
  {attributes : List (String × String)}

/-! ## Attributes -/

/-- An element has other attributes, and nothing else in its grove has changed. -/
theorem Regrown.redress {after : Document} {changed : List (String × String)}
    (site : Site document place (.cons node (.element tag space attributes) inside behind))
    (moves : document.Moves (· = node) after)
    (cell : after.cell? node =
      some ⟨.element tag space changed, some place.parent, inside.roots⟩) :
    Regrown place document (.cons node (.element tag space attributes) inside behind) after
      (.cons node (.element tag space changed) inside behind) := by
  -- The element is neither its parent nor among the nodes around it, so those cells are kept.
  have once := site.nodup_nodes
  have parent := site.parent_notMem
  simp only [Grove.nodes_cons, List.nodup_cons, List.mem_cons, not_or, List.mem_append] at once parent
  have kept {other : NodeId} (has : document.Has other) (apart : other ≠ node) :
      after.cell? other = document.cell? other := moves.kept other has apart
  constructor
  case site =>
    constructor
    case cell => exact (kept site.has_parent parent.1).trans site.cell
    case bears =>
      refine ⟨cell, site.bears.2.1.congr fun other member => ?_,
        site.bears.2.2.congr fun other member => ?_⟩
      · exact kept (site.has (by simp [member])) fun same => once.1.1 (same ▸ member)
      · exact kept (site.has (by simp [member])) fun same => once.1.2 (same ▸ member)
    case around => exact fun other member => moves.has (site.around other member)
    case once => exact site.once
  case moves => exact moves.weaken fun other _ own => .inr (by simp [own])
  case fresh => exact fun other member => .inl (by simpa using member)

/-- A modest strategy commits a value. -/
theorem Strategy.Modest.performs_commit {strategy : Strategy σ} (modest : strategy.Modest)
    (site : Site document place (.cons node (.element tag space attributes) inside behind))
    (part : AttributePart) (value : Value) (world : σ) :
    Performs ((strategy.commit node part value).run world) document fun _ after => ∃ changed,
      Regrown place document (.cons node (.element tag space attributes) inside behind) after
        (.cons node (.element tag space changed) inside behind) :=
  (modest site.bears.1 part value world).mono fun _ _ ⟨moves, changed, cell⟩ =>
    ⟨changed, .redress site moves cell⟩

/-- A binding has changed no more than the attributes of its element. -/
def Redressed (place : Place) (document : Document) (binding : AttributeBinding σ) (tag : String)
    (space : Option String) (attributes : List (String × String)) (inside behind : Grove)
    (updated : AttributeBinding σ) (after : Document) : Prop :=
  updated.plain = binding.plain ∧ updated.strategy = binding.strategy ∧ ∃ changed,
    Regrown place document (.cons binding.element (.element tag space attributes) inside behind) after
      (.cons binding.element (.element tag space changed) inside behind)

theorem achieves_commit {binding : AttributeBinding σ} (modest : binding.strategy.Modest)
    (site : Site document place
      (.cons binding.element (.element tag space attributes) inside behind))
    (part depth : Nat) (value : Value) :
    Achieves (binding.commit part depth value) document
      (Redressed place document binding tag space attributes inside behind) := by
  unfold AttributeBinding.commit
  refine .regardless (modest.performs_commit site binding.part value) fun result between first => ?_
  obtain ⟨changed, regrown⟩ := first
  cases result with
  | ok _ => exact .pure ⟨rfl, rfl, changed, regrown⟩
  | error error =>
    refine .reporting ?_
    refine .regardless (modest.performs_commit regrown.site binding.part .empty)
      fun result after second => ?_
    obtain ⟨changed, more⟩ := second
    have redressed : Redressed place document binding tag space attributes inside behind
        { binding with last := none } after := ⟨rfl, rfl, changed, regrown.trans more⟩
    cases result with
    | ok _ => exact .pure redressed
    | error error => exact .noting (.pure redressed)

theorem achieves_attribute (yields : setting.environment.Yields sort) {binding : AttributeBinding σ}
    (modest : binding.strategy.Modest)
    (site : Site document place
      (.cons binding.element (.element tag space attributes) inside behind))
    {value : Value} (proper : value.Proper sort) (part depth : Nat) :
    Achieves (binding.update setting part depth value) document
      (Redressed place document binding tag space attributes inside behind) := by
  have renew (value : Value) : Achieves
      (if binding.last.any (·.samePrimitive value) then do
        Stage.note .attributeSame
        pure binding
      else binding.commit part depth value : RenderM σ (AttributeBinding σ)) document
      (Redressed place document binding tag space attributes inside behind) := by
    split
    · exact .noting (.pure ⟨rfl, rfl, attributes, .refl site⟩)
    · exact achieves_commit modest site part depth value
  unfold AttributeBinding.update
  refine .follow (follows_resolveLevels yields.alike _ proper) fun result read _ => ?_
  cases result with
  | ok value => exact renew value
  | error error => exact .reporting (renew .empty)

/-- The attributes of an element have new values. -/
theorem achieves_attributes (yields : setting.environment.Yields sort) (update : OutletUpdate σ)
    (depth : Nat) {fixtures : List Fixture} {bindings : List (Binding σ)}
    (plain : Binding.plainAll bindings = Fixture.bindings node fixtures)
    (modest : Binding.AllModest bindings) {values : List Value}
    (proper : ∀ value ∈ values, value.Proper sort)
    (site : Site document place (.cons node (.element tag space attributes) inside behind))
    (parts : List Part) (index : Nat) :
    Achieves (updateBindings setting update depth index bindings parts values) document
      fun updated after => Binding.plainAll updated = Fixture.bindings node fixtures ∧
        Binding.AllModest updated ∧ ∃ changed,
          Regrown place document (.cons node (.element tag space attributes) inside behind) after
            (.cons node (.element tag space changed) inside behind) := by
  have idle : Binding.plainAll bindings = Fixture.bindings node fixtures ∧
      Binding.AllModest bindings ∧ ∃ changed,
        Regrown place document (.cons node (.element tag space attributes) inside behind) document
          (.cons node (.element tag space changed) inside behind) :=
    ⟨plain, modest, attributes, .refl site⟩
  -- Each binding goes on from the document that the one before it has left, with the same grove but
  -- for the attributes.
  induction bindings generalizing fixtures values parts attributes document index with
  | nil => exact .pure idle
  | cons binding bindings ih =>
    obtain _ | ⟨fixture, fixtures⟩ := fixtures
    · cases plain
    obtain ⟨first, others⟩ := List.cons_eq_cons.mp plain
    obtain own | outlet := binding
    swap
    · cases first
    obtain _ | ⟨part, parts⟩ := parts
    · exact .pure idle
    obtain _ | ⟨value, values⟩ := values
    · exact .pure idle
    have kept : own.plain = fixture.binding node := Binding.attribute.inj first
    obtain rfl : own.element = node := congrArg AttributeBinding.element kept
    unfold updateBindings
    refine .noting (.mapping ?_)
    refine (achieves_attribute yields modest.1 site (proper value List.mem_cons_self) index
      depth).bind fun updated between redressed => ?_
    obtain ⟨same, strategy, changed, regrown⟩ := redressed
    have fine : updated.strategy.Modest := strategy ▸ modest.1
    refine (ih others modest.2 (fun value member => proper value (List.mem_cons_of_mem _ member))
      regrown.site parts (index + 1) ⟨others, modest.2, changed, .refl regrown.site⟩).bind
        fun rest after renewed => .pure ?_
    obtain ⟨plain, modest, changed, more⟩ := renewed
    refine ⟨?_, ⟨fine, modest⟩, changed, regrown.trans more⟩
    rw [Binding.plainAll, Binding.plain, same, kept, plain]
    rfl

/-! ## All parts -/

/-- An outlet is backed by another plot, which has grown in place of the old one. -/
structure Plot.Upkept (place : Place) (document : Document) (plot : Plot) (updated : Outlet σ)
    (after : Document) (grown : Plot) : Prop where
  backs : grown.Backs updated
  anchor : grown.anchor = plot.anchor
  sound : grown.Sound
  regrown : Regrown place document plot.grove after grown.grove

/-- Bindings are backed by another bed, which has grown in place of the old one. -/
structure Bed.Upkept (place : Place) (document : Document) (bed : Bed) (updated : List (Binding σ))
    (after : Document) (grown : Bed) : Prop where
  backs : grown.Backs updated
  roots : grown.roots = bed.roots
  stencil : grown.stencil = bed.stencil
  sound : grown.Sound
  regrown : Regrown place document bed.grove after grown.grove

namespace Bed.Upkept

variable {bindings others : List (Binding σ)} {outlet : Outlet σ} {between after : Document}
  {plot first : Plot} {rest grown : Bed} {data : String}

theorem text (site : Site document place (Bed.text node data rest).grove)
    (upkept : rest.Upkept (place.past [node]) document bindings after grown) :
    (Bed.text node data rest).Upkept place document bindings after (.text node data grown) where
  backs := ⟨upkept.backs.plain, upkept.backs.modest⟩
  roots := congrArg (node :: ·) upkept.roots
  stencil := congrArg (Stencil.text data) upkept.stencil
  sound := upkept.sound
  regrown := upkept.regrown.tail site

theorem comment (site : Site document place (Bed.comment node data rest).grove)
    (upkept : rest.Upkept (place.past [node]) document bindings after grown) :
    (Bed.comment node data rest).Upkept place document bindings after
      (.comment node data grown) where
  backs := ⟨upkept.backs.plain, upkept.backs.modest⟩
  roots := congrArg (node :: ·) upkept.roots
  stencil := congrArg (Stencil.comment data) upkept.stencil
  sound := upkept.sound
  regrown := upkept.regrown.tail site

/-- A part in a gap has been updated, and then those behind it. -/
theorem gap (site : Site document place (Bed.gap plot rest).grove)
    (upkept : plot.Upkept (place.facing rest.grove.roots) document outlet between first)
    (more : rest.Upkept (place.past first.grove.roots) between others after grown) :
    (Bed.gap plot rest).Upkept place document (.outlet outlet :: others) after
      (.gap first grown) where
  backs := .gap upkept.backs more.backs
  roots := List.cons_eq_cons.mpr ⟨upkept.anchor, more.roots⟩
  stencil := congrArg Stencil.gap more.stencil
  sound := ⟨upkept.sound, more.sound⟩
  regrown :=
    have here := upkept.regrown.left site
    here.trans (more.regrown.right here.site)

end Bed.Upkept

/-- Updates of outlets leave outlets that are backed by plots. -/
def Upkeeps (sort : Template → Prop) (update : OutletUpdate σ) : Prop :=
  ∀ (part : Nat) {plot : Plot} {outlet : Outlet σ} {value : Value} {document : Document}
    {place : Place}, plot.Backs outlet → plot.Sound → value.Proper sort →
    Site document place plot.grove →
    Achieves (update part outlet value) document fun updated after =>
      ∃ grown, Plot.Upkept place document plot updated after grown

theorem achieves_bed (yields : setting.environment.Yields sort) {update : OutletUpdate σ}
    (upkeeps : Upkeeps sort update) (depth : Nat) {bed : Bed} {bindings : List (Binding σ)}
    (backs : bed.Backs bindings) (sound : bed.Sound) {values : List Value}
    (proper : ∀ value ∈ values, value.Proper sort) {document : Document} {place : Place}
    (site : Site document place bed.grove) (path : Path) (child index : Nat) :
    Achieves (updateBindings setting update depth index bindings (bed.stencil.partsAt path child)
      values) document fun updated after =>
        ∃ grown, Bed.Upkept place document bed updated after grown := by
  induction bed generalizing bindings values document place path child index with
  | done =>
    obtain rfl := backs.of_done
    exact .pure ⟨.done, backs, rfl, rfl, trivial, .refl site⟩
  | element node name space static attributes fixtures below rest ihBelow ihRest =>
    obtain ⟨own, inner, later, rfl, mine, modest, inside, behind⟩ := backs.of_element
    obtain ⟨soundBelow, soundRest⟩ := sound
    have properBehind := Value.proper_drop proper
    have ownLength : own.length = fixtures.length := by
      simpa using congrArg List.length mine
    have innerLength : inner.length = below.stencil.count := by
      simpa using congrArg List.length inside.plain
    -- The values are dealt out to the element's own attributes, to what is below and to what is behind.
    simp only [Bed.stencil, Stencil.partsAt]
    rw [updateBindings_split _ _ _ _ (by simp [ownLength]),
      updateBindings_split _ _ _ _ (by simp [innerLength])]
    simp only [bind_assoc, pure_bind]
    refine (achieves_attributes yields update depth mine modest (Value.proper_take proper _) site _
      index).bind fun own' between renewed => ?_
    obtain ⟨mine', modest', changed, redressed⟩ := renewed
    refine (ihBelow inside soundBelow (Value.proper_take (properBehind _) _) redressed.site.inside
      (path ++ [child]) 0 _).bind fun inner' between' tended => ?_
    obtain ⟨below', upkept⟩ := tended
    have regrown := redressed.trans (upkept.regrown.inside redressed.site)
    refine (ihRest behind soundRest (Value.proper_drop (properBehind _) _) regrown.site.tail path
      (child + 1) _).bind fun later' after tended => .pure ?_
    obtain ⟨rest', more⟩ := tended
    refine ⟨.element node name space static changed fixtures below' rest',
      .element mine' modest' upkept.backs more.backs, congrArg (node :: ·) more.roots, ?_,
      ⟨upkept.sound, more.sound⟩, regrown.trans (more.regrown.tail regrown.site)⟩
    rw [Bed.stencil, upkept.stencil, more.stencil]
    rfl
  | text node data rest ih =>
    have behind : rest.Backs bindings := ⟨backs.plain, backs.modest⟩
    refine (ih behind sound proper site.tail path (child + 1) index).mono
      fun updated after tended => ?_
    obtain ⟨grown, upkept⟩ := tended
    exact ⟨.text node data grown, upkept.text site⟩
  | comment node data rest ih =>
    have behind : rest.Backs bindings := ⟨backs.plain, backs.modest⟩
    refine (ih behind sound proper site.tail path (child + 1) index).mono
      fun updated after tended => ?_
    obtain ⟨grown, upkept⟩ := tended
    exact ⟨.comment node data grown, upkept.comment site⟩
  | gap plot rest ih =>
    obtain ⟨soundPlot, soundRest⟩ := sound
    obtain ⟨outlet, later, rfl, here, behind⟩ := backs.of_gap
    obtain _ | ⟨value, values⟩ := values
    · rw [updateBindings_nil]
      exact .pure ⟨.gap plot rest, backs, rfl, rfl, ⟨soundPlot, soundRest⟩, .refl site⟩
    simp only [Bed.stencil, Stencil.partsAt, updateBindings]
    refine .noting (.mapping ?_)
    refine (upkeeps index here soundPlot (proper value List.mem_cons_self) site.left).bind
      fun updated between renewed => ?_
    obtain ⟨first, upkept⟩ := renewed
    have regrown := upkept.regrown.left site
    refine (ih behind soundRest (fun value member => proper value (List.mem_cons_of_mem _ member))
      regrown.site.right path (child + 1) (index + 1)).bind fun others after tended => .pure ?_
    obtain ⟨grown, more⟩ := tended
    exact ⟨.gap first grown, .gap site upkept more⟩

/-! ## Texts -/

namespace Plot

variable {plot : Plot} {outlet : Outlet σ}

theorem Backs.vacate (backs : plot.Backs outlet) :
    outlet.vacate = (plot.outlet : Outlet σ).vacate := by
  unfold Outlet.vacate
  rw [backs.clear, backs.anchor, anchor_outlet]

theorem Backs.showText (backs : plot.Backs outlet) (data : String) :
    outlet.showText data = (plot.outlet : Outlet σ).showText data := by
  have vacate := backs.vacate
  cases plot with
  | text anchor shown => rw [backs.of_text]
  | nested anchor template bed =>
    obtain ⟨bindings, rfl, -⟩ := backs.of_nested
    unfold Outlet.showText
    dsimp only
    rw [vacate]
    rfl
  | items anchor plots =>
    obtain ⟨outlets, rfl, -⟩ := backs.of_items
    unfold Outlet.showText
    dsimp only
    rw [vacate]
    rfl

theorem achieves_showText (backs : plot.Backs outlet) (sound : plot.Sound)
    (site : Site document place plot.grove) (data : String) :
    Achieves (liftM (outlet.showText data) : RenderM σ (Outlet σ)) document fun updated after =>
      ∃ grown, Upkept place document plot updated after grown := by
  rw [backs.showText]
  refine .performed ((tills_showText sound site data).mono fun updated after yields => ?_)
  have shown : (plot.showText data document.size).result = text plot.anchor data := by
    cases plot <;> rfl
  have tilled := yields.tilled
  rw [shown] at tilled
  refine ⟨text plot.anchor data, ?_, rfl, trivial, tilled.regrown⟩
  rw [yields.outlet, shown]
  exact .text _ _

theorem achieves_vacate (backs : plot.Backs outlet) (sound : plot.Sound)
    (site : Site document place plot.grove) :
    Achieves (liftM outlet.vacate : RenderM σ (Outlet σ)) document fun updated after =>
      ∃ grown, Upkept place document plot updated after grown := by
  rw [backs.vacate]
  refine .performed ((tills_vacate sound site).mono fun updated after yields => ?_)
  rw [showText_apply_empty] at yields
  refine ⟨text plot.anchor "", ?_, rfl, trivial, yields.tilled.regrown⟩
  rw [yields.outlet]
  exact .text _ _

end Plot

/-! ## Templates -/

/-- Parts are bound to the same nodes, whatever strategies there are. -/
theorem Instance.exists_bindAll {strategies : List (Strategy σ)}
    (modest : ∀ strategy ∈ strategies, strategy.Modest) {stage : Stage} {roots : List NodeId}
    {index : Nat} {parts : List Part} {bound : List (Binding σ)}
    (binds : bindAll [] stage roots index parts = .ok bound) :
    ∃ bindings, bindAll strategies stage roots index parts = .ok bindings ∧
      Binding.plainAll bindings = bound ∧ Binding.AllModest bindings := by
  induction parts generalizing index bound with
  | nil =>
    cases binds
    exact ⟨[], rfl, rfl, trivial⟩
  | cons part parts ih =>
    unfold bindAll at binds ⊢
    cases found : stage.locate roots part.path with
    | none => simp [found] at binds
    | some node =>
      simp only [found] at binds ⊢
      cases later : bindAll ([] : List (Strategy σ)) stage roots (index + 1) parts with
      | error error =>
        rw [later] at binds
        cases binds
      | ok others =>
        rw [later] at binds
        cases binds
        obtain ⟨bindings, also, plain, fine⟩ := ih later
        refine ⟨bind strategies node part :: bindings, by rw [also]; rfl, ?_, ?_, fine⟩
        · rw [Binding.plainAll, plain]
          cases part <;> rfl
        · obtain own | content := part
          · exact Strategy.Modest.choose modest own
          · exact trivial

/-- A new instance is backed by the bed that is sown from its template's stencil. -/
theorem raises_make_modest {strategies : List (Strategy σ)}
    (modest : ∀ strategy ∈ strategies, strategy.Modest) (document : Document) {template : Template}
    {stencil : Stencil} (layout : template.blueprint = stencil.blueprint) :
    Performs (Instance.make strategies template) document fun result after =>
      let harvest := stencil.sow none [] 0 document.size
      ∃ bindings, result = .ok (.mk template harvest.result.roots bindings) ∧
        harvest.result.Backs bindings ∧
        Raised document harvest.result.grove harvest.next harvest.deeds after := by
  unfold Instance.make
  rw [layout]
  refine (stencil.raises [] 0 document).bind fun roots after ⟨same, raised⟩ => ?_
  subst same
  refine .get fun stage same whole => ?_
  subst same
  have binds : Instance.bindAll ([] : List (Strategy σ)) stage
      (stencil.sow none [] 0 document.size).result.roots 0 stencil.blueprint.parts =
        .ok (stencil.sow none [] 0 document.size).result.bindings :=
    @Stencil.bindAll_sow σ stage whole _ stencil none none [] [] document.size raised.added.bears rfl 0
  obtain ⟨bindings, bound, plain, fine⟩ := Instance.exists_bindAll modest binds
  rw [bound]
  exact .noting (.pure ⟨bindings, rfl, ⟨plain, fine⟩, raised⟩)

section

variable {update : OutletUpdate σ} {template : Template} {values : List Value} {plot : Plot}
  {outlet : Outlet σ}

theorem achieves_instance (yields : setting.environment.Yields sort)
    (upkeeps : Upkeeps sort update) (depth : Nat) {bed : Bed}
    (laid : template.blueprint = bed.stencil.blueprint) {bindings : List (Binding σ)}
    (backs : bed.Backs bindings) (sound : bed.Sound)
    (proper : ∀ value ∈ values, value.Proper sort) (site : Site document place bed.grove) :
    Achieves ((Instance.mk template bed.roots bindings).update setting update depth values) document
      fun updated after => ∃ grown bindings, updated = .mk template grown.roots bindings ∧
        template.blueprint = grown.stencil.blueprint ∧
        Bed.Upkept place document bed bindings after grown := by
  have parts : template.blueprint.parts = bed.stencil.partsAt [] 0 := by rw [laid]; rfl
  simp only [Instance.update, Instance.template, Instance.bindings, Instance.roots, parts]
  refine (achieves_bed yields upkeeps depth backs sound proper site [] 0 0).bind
    fun bindings after tended => .pure ?_
  obtain ⟨grown, upkept⟩ := tended
  exact ⟨grown, bindings, by rw [upkept.roots], by rw [laid, upkept.stencil], upkept⟩

/-- A template in a new instance. -/
theorem Plot.achieves_replace (yields : setting.environment.Yields sort)
    (upkeeps : Upkeeps sort update) (modest : ∀ strategy ∈ setting.strategies, strategy.Modest)
    {stencil : Stencil} (laid : template.blueprint = stencil.blueprint)
    (backs : plot.Backs outlet) (sound : plot.Sound) (site : Site document place plot.grove)
    (proper : ∀ value ∈ values, value.Proper sort) (part depth : Nat) :
    Achieves (Outlet.showTemplate.replace setting update part depth outlet template values) document
      fun updated after => ∃ grown, Upkept place document plot updated after grown := by
  unfold Outlet.showTemplate.replace
  rw [backs.clear, backs.anchor]
  -- Nothing but the anchor is left, and the new roots are put in behind it before they are updated.
  refine .perform (sound.tills_clear site) fun _ cleared leaf => ?_
  refine .perform (raises_make_modest modest cleared laid)
    fun result made ⟨bindings, known, fits, raised⟩ => ?_
  subst known
  dsimp only
  have roots := stencil.roots_sow none [] 0 cleared.size
  refine .perform (tills_place part leaf.site raised roots rfl) fun _ placed tilled => ?_
  have grown := leaf.regrown.trans tilled.regrown
  have blueprint : template.blueprint =
      (stencil.sow none [] 0 cleared.size).result.stencil.blueprint := by
    rw [Stencil.stencil_sow, laid]
  rw [map_eq_pure_bind]
  refine (achieves_instance yields upkeeps depth blueprint fits (stencil.sound_sow none [] 0 _) proper
    grown.site.tail).bind fun updated after ⟨bed, bindings, same, laid, upkept⟩ => .pure ?_
  subst same
  exact ⟨nested plot.anchor template bed, .nested upkept.backs _ _, rfl, ⟨laid, upkept.sound⟩,
    grown.trans (upkept.regrown.tail grown.site)⟩

/-- A template, in the instance that is there if it is of the same template. -/
theorem Plot.achieves_showTemplate (yields : setting.environment.Yields sort)
    (upkeeps : Upkeeps sort update) (modest : ∀ strategy ∈ setting.strategies, strategy.Modest)
    {stencil : Stencil} (laid : template.blueprint = stencil.blueprint)
    (backs : plot.Backs outlet) (sound : plot.Sound) (site : Site document place plot.grove)
    (proper : ∀ value ∈ values, value.Proper sort) (part depth : Nat) :
    Achieves (Outlet.showTemplate setting update part depth outlet template values) document
      fun updated after => ∃ grown, Upkept place document plot updated after grown := by
  -- All outlets but that of an instance of the same template are replaced.
  have replaces := achieves_replace yields upkeeps modest laid backs sound site proper part depth
  cases plot with
  | text anchor data =>
    obtain rfl := backs.of_text
    rw [Plot.outlet] at replaces ⊢
    split <;> rename_i holds
    · rw [if_pos holds] at replaces
      exact replaces
    · rw [if_neg holds] at replaces
      exact replaces
  | nested anchor old bed =>
    obtain ⟨bindings, rfl, inside⟩ := backs.of_nested
    obtain ⟨laidOld, soundBed⟩ := sound
    unfold Outlet.showTemplate
    dsimp only [Instance.template]
    by_cases same : old = template
    · subst same
      simp only [if_true]
      refine .noting ?_
      rw [map_eq_pure_bind]
      refine (achieves_instance yields upkeeps depth laidOld inside soundBed proper site.tail).bind
        fun updated after ⟨grown, bindings, same, laid, upkept⟩ => .pure ?_
      subst same
      exact ⟨nested anchor old grown, .nested upkept.backs _ _, rfl, ⟨laid, upkept.sound⟩,
        upkept.regrown.tail site⟩
    · simp only [same, if_false]
      exact replaces
  | items anchor plots =>
    obtain ⟨outlets, rfl, -⟩ := backs.of_items
    exact replaces

/-! ## Lists -/

/-- Outlets are backed by other plots, which have grown in place of the old ones. -/
structure Plot.AllUpkept (place : Place) (document : Document) (plots : List Plot)
    (updated : List (Outlet σ)) (after : Document) (grown : List Plot) : Prop where
  backs : BackAll grown updated
  sound : AllSound grown
  regrown : Regrown place document (groves plots) after (groves grown)

/-- One item is there, and then those behind it have been updated. -/
theorem Plot.AllUpkept.cons {plots behind grown : List Plot} {first : Plot} {updated : Outlet σ}
    {others : List (Outlet σ)} {between after : Document} (backs : first.Backs updated)
    (sound : first.Sound)
    (regrown : Regrown place document (groves plots) between (first.grove ++ groves behind))
    (more : AllUpkept (place.past first.grove.roots) between behind others after grown) :
    AllUpkept place document plots (updated :: others) after (first :: grown) where
  backs := .cons backs more.backs
  sound := ⟨sound, more.sound⟩
  regrown := regrown.trans (more.regrown.right regrown.site)

/-- Outlets for the items of a list: some are there already, some are missing, and some are in
excess. -/
theorem Plot.achieves_showItems (upkeeps : Upkeeps sort update) (part item : Nat) {last : NodeId}
    {plots : List Plot} {outlets : List (Outlet σ)} (backs : BackAll plots outlets)
    (sound : AllSound plots) (proper : ∀ value ∈ values, value.Proper sort)
    (site : Site document place (groves plots)) (final : place.before.getLast? = some last)
    (inside : document.parent last = some place.parent) :
    Achieves (Outlet.showItems update part item last outlets values) document
      fun updated after => ∃ grown, AllUpkept place document plots updated after grown := by
  induction values generalizing item last plots outlets document place with
  | nil =>
    cases plots with
    | nil =>
      obtain rfl := backs.of_nil
      exact .pure ⟨[], backs, trivial, .refl site⟩
    | cons plot plots =>
      have drops := backs.dropAll
      obtain ⟨outlet, rest, rfl, -⟩ := backs.of_cons
      unfold Outlet.showItems
      rw [drops]
      refine .noting (.perform (sound.tills_dropAll site) fun _ after dropped => .pure ?_)
      exact ⟨[], ⟨rfl, trivial⟩, trivial, dropped.regrown⟩
  | cons value values ih =>
    have properFirst := proper value List.mem_cons_self
    have properRest := fun value member => proper value (List.mem_cons_of_mem _ member)
    -- Once the first item is there, the others come behind the last of its nodes.
    have further {updated : Outlet σ} {first : Plot} {rest : List (Outlet σ)} {behind : List Plot}
        {between : Document} (backsFirst : first.Backs updated) (backsRest : BackAll behind rest)
        (soundFirst : first.Sound) (soundBehind : AllSound behind)
        (regrown : Regrown place document (groves plots) between (first.grove ++ groves behind)) :
        Achieves (do
          let others ← Outlet.showItems update part (item + 1) updated.lastNode rest values
          pure (updated :: others)) between
          fun updated after => ∃ grown, AllUpkept place document plots updated after grown := by
      have last := @Plot.Sound.last σ _ _ _ soundFirst regrown.site.left
      rw [← backsFirst.lastNode] at last
      refine (ih (item + 1) backsRest soundBehind properRest regrown.site.right last.1 last.2).bind
        fun others after shown => .pure ?_
      obtain ⟨grown, more⟩ := shown
      exact ⟨first :: grown, .cons backsFirst soundFirst regrown more⟩
    cases plots with
    | nil =>
      obtain rfl := backs.of_nil
      unfold Outlet.showItems
      refine .perform (tills_makeAnchor site final inside part item)
        fun anchor made anchored => ?_
      obtain ⟨same, leaf⟩ := anchored
      have vacant : (text anchor "").Backs (.vacant anchor : Outlet σ) :=
        ⟨by simp [Plot.outlet, Outlet.plain], trivial⟩
      refine (upkeeps part vacant trivial properFirst leaf.site).bind
        fun updated between renewed => ?_
      obtain ⟨first, upkept⟩ := renewed
      have here := leaf.regrown.trans upkept.regrown
      rw [← Grove.append_nil (Plot.grove _)] at here
      exact further upkept.backs backs upkept.sound trivial here
    | cons plot plots =>
      obtain ⟨outlet, rest, rfl, here, there⟩ := backs.of_cons
      obtain ⟨soundPlot, soundPlots⟩ := sound
      unfold Outlet.showItems
      refine (upkeeps part here soundPlot properFirst site.left).bind
        fun updated between renewed => ?_
      obtain ⟨first, upkept⟩ := renewed
      exact further upkept.backs there upkept.sound soundPlots (upkept.regrown.left site)

/-- A list, in the outlets that are there if a list was shown before. -/
theorem Plot.achieves_showList (upkeeps : Upkeeps sort update) (backs : plot.Backs outlet)
    (sound : plot.Sound) (site : Site document place plot.grove)
    (proper : ∀ value ∈ values, value.Proper sort) (part : Nat) :
    Achieves (Outlet.showList update part outlet values) document
      fun updated after => ∃ grown, Upkept place document plot updated after grown := by
  -- From an anchor on, with the outlets of a list or none behind it.
  have behind {plots : List Plot} {outlets : List (Outlet σ)} {between : Document}
      (backs : BackAll plots outlets) (sound : AllSound plots)
      (regrown : Regrown place document plot.grove between (items plot.anchor plots).grove) :
      Achieves
        (Outlet.items plot.anchor <$> Outlet.showItems update part 0 plot.anchor outlets values)
        between fun updated after => ∃ grown, Upkept place document plot updated after grown := by
    rw [map_eq_pure_bind]
    refine (achieves_showItems upkeeps part 0 backs sound proper regrown.site.tail
      (by simp [Place.past]) (parent_of_cell? regrown.site.bears.1)).bind
        fun updated after ⟨grown, backs, sound, more⟩ => .pure ?_
    exact ⟨items plot.anchor grown, .items backs _, rfl, sound,
      regrown.trans (more.tail regrown.site)⟩
  have anew : Achieves (do
      liftM outlet.clear
      Outlet.items outlet.anchor <$> Outlet.showItems update part 0 outlet.anchor [] values) document
      fun updated after => ∃ grown, Upkept place document plot updated after grown := by
    rw [backs.clear, backs.anchor]
    refine .perform (sound.tills_clear site) fun _ cleared leaf => ?_
    exact @behind [] [] cleared ⟨rfl, trivial⟩ trivial leaf.regrown
  cases plot with
  | text anchor data =>
    obtain rfl := backs.of_text
    rw [Plot.outlet] at anew ⊢
    split <;> rename_i holds
    · rw [if_pos holds] at anew
      exact anew
    · rw [if_neg holds] at anew
      exact anew
  | nested anchor template bed =>
    obtain ⟨bindings, rfl, -⟩ := backs.of_nested
    exact anew
  | items anchor plots =>
    obtain ⟨outlets, rfl, all⟩ := backs.of_items
    exact behind all sound (.refl site)

end

/-! ## All values -/

/-- An update of an outlet leaves one that is backed by a plot. -/
theorem upkeeps_update {layout : Template → Stencil} (yields : setting.environment.Yields sort)
    (modest : ∀ strategy ∈ setting.strategies, strategy.Modest) (laid : Layout sort layout)
    (room : Nat) : Upkeeps sort (Outlet.update setting room) := by
  induction room with
  | zero =>
    intro part plot outlet value document place backs sound proper site
    exact .reporting (Plot.achieves_vacate backs sound site)
  | succ room ih =>
    intro part plot outlet value document place backs sound proper site
    rw [Outlet.update]
    -- What the value comes to is as good as the value, which is all that is asked of it.
    refine .follow (follows_resolve yields.alike proper) fun resolved read outcomes => ?_
    cases outcomes with
    | error error => exact .reporting (Plot.achieves_vacate backs sound site)
    | @ok resolved _ holds =>
      obtain ⟨rfl, proper⟩ := holds
      cases resolved with
      | template template values =>
        cases proper with
        | primitive shape => cases shape
        | template sorted count inside =>
          exact Plot.achieves_showTemplate yields ih modest (laid template sorted) backs sound site
            inside part _
      | items values =>
        cases proper with
        | primitive shape => cases shape
        | items inside => exact Plot.achieves_showList ih backs sound site inside part
      | _ => exact Plot.achieves_showText backs sound site _

end

end LiveMarkup
