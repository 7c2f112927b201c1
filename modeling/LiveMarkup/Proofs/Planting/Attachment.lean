import LiveMarkup.Proofs.Planting.Enlisting
import LiveMarkup.Proofs.Planting.Muting
import LiveMarkup.Proofs.Planting.Stretching

/-! # Anchors stay attached

What an outlet shows is one run of siblings from its anchor on, in whatever state a renderer is
(`Renderer.outputs_contiguous`).  It stays so while parts are being updated, and so neither an anchor
nor the last node of an item is ever without a parent when nodes are to be put behind it.

Of one outlet this is `quiets_update`, by induction on the room for templates and lists.  As long as
values are proper and strategies modest, the documents in between are told by `upkeeps_update`. -/

namespace LiveMarkup

open Document Markup

variable {α σ : Type}

/-- What is brought in from outside is proper and modest, and notes no error about an anchor without a
parent. -/
structure Setting.Discreet (sort : Template → Prop) (setting : Setting σ) : Prop where
  yields : setting.environment.Yields sort
  environment : setting.environment.Discreet
  modest : ∀ strategy ∈ setting.strategies, strategy.Modest
  strategies : ∀ strategy ∈ setting.strategies, strategy.Discreet

section

variable {sort : Template → Prop} {setting : Setting σ} {document : Document} {place : Place}
  {update : OutletUpdate σ}

/-! ## Attributes -/

theorem hushes_commit {binding : AttributeBinding σ} (discreet : binding.strategy.Discreet)
    (part depth : Nat) (value : Value) : Hushes (binding.commit part depth value) Stage.Any := by
  unfold AttributeBinding.commit
  refine .regardless (discreet binding.element binding.part value) fun result => ?_
  cases result with
  | ok _ => exact .pure _
  | error error =>
    refine .bind (.report part depth error) fun _ => ?_
    refine .regardless (discreet binding.element binding.part .empty) fun result => ?_
    cases result with
    | ok _ => exact .pure _
    | error error => exact .bind (.performed (.note id)) fun _ => .pure _

theorem hushes_attribute (quiet : setting.environment.Discreet) {binding : AttributeBinding σ}
    (discreet : binding.strategy.Discreet) (part depth : Nat) (value : Value) :
    Hushes (binding.update setting part depth value) Stage.Any := by
  have renew (value : Value) : Hushes
      (if binding.last.any (·.samePrimitive value) then do
        Stage.note .attributeSame
        pure binding
      else binding.commit part depth value : RenderM σ (AttributeBinding σ)) Stage.Any := by
    split
    · exact .bind (.performed (.note id)) fun _ => .pure _
    · exact hushes_commit discreet part depth value
  unfold AttributeBinding.update
  refine .regardless (Environment.mutes_resolveLevels quiet _ _ _ value) fun result => ?_
  cases result with
  | ok value => exact renew value
  | error error => exact .bind (.report part depth _) fun _ => renew .empty

/-- The attributes of an element are given new values. -/
theorem hushes_attributes (quiet : setting.environment.Discreet) (update : OutletUpdate σ)
    (depth : Nat) {node : NodeId} {fixtures : List Fixture} {bindings : List (Binding σ)}
    (plain : Binding.plainAll bindings = Fixture.bindings node fixtures)
    (discreet : ∀ strategy ∈ Binding.strategies bindings, strategy.Discreet) (values : List Value)
    (parts : List Part) (index : Nat) :
    Hushes (updateBindings setting update depth index bindings parts values) Stage.Any := by
  induction bindings generalizing fixtures values parts index with
  | nil => exact .pure _
  | cons binding bindings ih =>
    obtain _ | ⟨fixture, fixtures⟩ := fixtures
    · cases plain
    obtain ⟨first, others⟩ := List.cons_eq_cons.mp plain
    obtain own | outlet := binding
    swap
    · cases first
    obtain ⟨here, later⟩ := List.forall_mem_cons.mp discreet
    obtain _ | ⟨part, parts⟩ := parts
    · exact .pure _
    obtain _ | ⟨value, values⟩ := values
    · exact .pure _
    unfold updateBindings
    refine .bind (.performed (.note id)) fun _ => .mapping ?_
    refine .bind (hushes_attribute quiet here index depth value) fun updated => ?_
    exact .bind (ih others later values parts (index + 1)) fun rest => .pure _

/-! ## All parts -/

/-- Updates of outlets that a document has leave such outlets, and note no error about an anchor without
a parent. -/
structure Quiets (sort : Template → Prop) (update : OutletUpdate σ) : Prop where
  upkeeps : Upkeeps sort update
  hushes : ∀ (part : Nat) {plot : Plot} {outlet : Outlet σ} {value : Value} {document : Document}
    {place : Place}, plot.Houses document place outlet → value.Proper sort →
    (∀ strategy ∈ outlet.strategies, strategy.Discreet) →
    Hushes (update part outlet value) (Stage.Sets document)

/-- An outlet is updated first. -/
theorem Quiets.achieve (quiets : Quiets sort update) (part : Nat) {plot : Plot} {outlet : Outlet σ}
    {value : Value} {next : Outlet σ → RenderM σ α} (houses : plot.Houses document place outlet)
    (proper : value.Proper sort) (discreet : ∀ strategy ∈ outlet.strategies, strategy.Discreet)
    (second : ∀ updated after grown, Plot.Upkept place document plot updated after grown →
      Hushes (next updated) (Stage.Sets after)) :
    Hushes (update part outlet value >>= next) (Stage.Sets document) :=
  .achieve (quiets.hushes part houses proper discreet)
    (quiets.upkeeps part houses.backs houses.sound proper houses.site)
    fun updated after ⟨grown, upkept⟩ => second updated after grown upkept

theorem hushes_bed (civil : setting.Discreet sort) (quiets : Quiets sort update) (depth : Nat)
    {bed : Bed} {bindings : List (Binding σ)} (backs : bed.Backs bindings) (sound : bed.Sound)
    {values : List Value} (proper : ∀ value ∈ values, value.Proper sort)
    (discreet : ∀ strategy ∈ Binding.strategies bindings, strategy.Discreet) {document : Document}
    {place : Place} (site : Site document place bed.grove) (path : Path) (child index : Nat) :
    Hushes (updateBindings setting update depth index bindings (bed.stencil.partsAt path child) values)
      (Stage.Sets document) := by
  induction bed generalizing bindings values document place path child index with
  | done =>
    obtain rfl := backs.of_done
    exact .pure _
  | element node name space static attributes fixtures below rest ihBelow ihRest =>
    obtain ⟨own, inner, later, rfl, mine, modest, inside, behind⟩ := backs.of_element
    obtain ⟨soundBelow, soundRest⟩ := sound
    rw [Binding.strategies_append, Binding.strategies_append] at discreet
    obtain ⟨discreetOwn, discreet⟩ := List.forall_mem_append.mp discreet
    obtain ⟨discreetInner, discreetLater⟩ := List.forall_mem_append.mp discreet
    have properBehind := Value.proper_drop proper
    have ownLength : own.length = fixtures.length := by
      simpa using congrArg List.length mine
    have innerLength : inner.length = below.stencil.count := by
      simpa using congrArg List.length inside.plain
    simp only [Bed.stencil, Stencil.partsAt]
    rw [updateBindings_split _ _ _ _ (by simp [ownLength]),
      updateBindings_split _ _ _ _ (by simp [innerLength])]
    simp only [bind_assoc, pure_bind]
    -- Of each step, one judgement says that it is quiet and the other which document it leaves.
    refine .achieve
      (hushes_attributes civil.environment update depth mine discreetOwn _ _ index).always
      (achieves_attributes civil.yields update depth mine modest (Value.proper_take proper _) site _
        index) fun own' between renewed => ?_
    obtain ⟨-, -, changed, redressed⟩ := renewed
    have there := redressed.site.inside
    refine .achieve
      (ihBelow inside soundBelow (Value.proper_take (properBehind _) _) discreetInner there _ 0 _)
      (achieves_bed civil.yields quiets.upkeeps depth inside soundBelow
        (Value.proper_take (properBehind _) _) there _ 0 _) fun inner' between' tended => ?_
    obtain ⟨below', upkept⟩ := tended
    have regrown := redressed.trans (upkept.regrown.inside redressed.site)
    exact .bind (ihRest behind soundRest (Value.proper_drop (properBehind _) _) discreetLater
      regrown.site.tail path (child + 1) _) fun rest => .pure _
  | text node data rest ih | comment node data rest ih =>
    exact ih ⟨backs.plain, backs.modest⟩ sound proper discreet site.tail path (child + 1) index
  | gap plot rest ih =>
    obtain ⟨soundPlot, soundRest⟩ := sound
    obtain ⟨outlet, later, rfl, here, behind⟩ := backs.of_gap
    obtain ⟨discreetHere, discreetLater⟩ := List.forall_mem_append.mp discreet
    obtain _ | ⟨value, values⟩ := values
    · rw [updateBindings_nil]
      exact .pure _
    obtain ⟨properHere, properLater⟩ := List.forall_mem_cons.mp proper
    simp only [Bed.stencil, Stencil.partsAt, updateBindings]
    refine .noting id (.mapping ?_)
    refine quiets.achieve index ⟨here, soundPlot, site.left⟩ properHere discreetHere
      fun updated between first upkept => ?_
    have regrown := upkept.regrown.left site
    exact .bind (ih behind soundRest properLater discreetLater regrown.site.right path (child + 1)
      (index + 1)) fun others => .pure _

theorem hushes_instance (civil : setting.Discreet sort) (quiets : Quiets sort update) (depth : Nat)
    {template : Template} {bed : Bed} (laid : template.blueprint = bed.stencil.blueprint)
    {bindings : List (Binding σ)} (backs : bed.Backs bindings) (sound : bed.Sound)
    {values : List Value}
    (proper : ∀ value ∈ values, value.Proper sort)
    (discreet : ∀ strategy ∈ Binding.strategies bindings, strategy.Discreet)
    (site : Site document place bed.grove) (roots : List NodeId) :
    Hushes ((Instance.mk template roots bindings).update setting update depth values)
      (Stage.Sets document) := by
  have parts : template.blueprint.parts = bed.stencil.partsAt [] 0 := by rw [laid]; rfl
  simp only [Instance.update, Instance.template, Instance.bindings, Instance.roots, parts]
  exact .bind (hushes_bed civil quiets depth backs sound proper discreet site [] 0 0)
    fun bindings => .pure _

/-! ## Templates and lists -/

section

variable {plot : Plot} {outlet : Outlet σ} {template : Template} {values : List Value}

/-- A new instance is backed by a bed and has discreet strategies. -/
theorem raises_make_discreet {strategies : List (Strategy σ)}
    (modest : ∀ strategy ∈ strategies, strategy.Modest)
    (discreet : ∀ strategy ∈ strategies, strategy.Discreet) (document : Document)
    {stencil : Stencil} (laid : template.blueprint = stencil.blueprint) :
    Performs (Instance.make strategies template) document fun result after =>
      let harvest := stencil.sow none [] 0 document.size
      ∃ bindings, result = .ok (.mk template harvest.result.roots bindings) ∧
        harvest.result.Backs bindings ∧
        Raised document harvest.result.grove harvest.next harvest.deeds after ∧
        ∀ strategy ∈ Binding.strategies bindings, strategy.Discreet := by
  intro stage same whole
  obtain ⟨wholeAfter, bindings, made, fits, raised⟩ :=
    raises_make_modest modest document laid stage same whole
  exact ⟨wholeAfter, bindings, made, fits, raised,
    Instance.staffed_make Strategy.discreet_setAttribute discreet made⟩

/-- A template in a new instance. -/
theorem hushes_replace (civil : setting.Discreet sort) (quiets : Quiets sort update)
    {stencil : Stencil} (laid : template.blueprint = stencil.blueprint)
    (houses : plot.Houses document place outlet) (proper : ∀ value ∈ values, value.Proper sort)
    (part depth : Nat) :
    Hushes (Outlet.showTemplate.replace setting update part depth outlet template values)
      (Stage.Sets document) := by
  obtain ⟨backs, sound, site⟩ := houses
  unfold Outlet.showTemplate.replace
  rw [backs.clear, backs.anchor]
  refine .perform (fun stage _ => Outlet.mutes_clear _ stage) (sound.tills_clear site)
    fun _ cleared leaf => ?_
  refine .perform (fun stage _ => Instance.mutes_make _ _ stage)
    (raises_make_discreet civil.modest civil.strategies cleared laid)
    fun result made ⟨bindings, known, fits, raised, staffed⟩ => ?_
  subst known
  dsimp only
  -- The anchor has kept its place while the nodes of the new instance have been created.
  have attached : made.parent plot.anchor = some place.parent :=
    parent_of_cell? (raised.added.site leaf.site).bears.1
  refine .perform (fun stage same => Outlet.hushed_place part _ (same ▸ attached))
    (Plot.tills_place part leaf.site raised (stencil.roots_sow none [] 0 cleared.size) rfl)
      fun _ placed tilled => ?_
  have grown := leaf.regrown.trans tilled.regrown
  have blueprint : template.blueprint =
      (stencil.sow none [] 0 cleared.size).result.stencil.blueprint := by
    rw [Stencil.stencil_sow, laid]
  rw [map_eq_pure_bind]
  exact .bind (hushes_instance civil quiets depth blueprint fits
    (stencil.sound_sow none [] 0 _) proper staffed grown.site.tail _) fun inner => .pure _

/-- A template, in the instance that is there if it is of the same template. -/
theorem hushes_showTemplate (civil : setting.Discreet sort) (quiets : Quiets sort update)
    {stencil : Stencil} (laid : template.blueprint = stencil.blueprint)
    (houses : plot.Houses document place outlet) (proper : ∀ value ∈ values, value.Proper sort)
    (staffed : ∀ strategy ∈ outlet.strategies, strategy.Discreet) (part depth : Nat) :
    Hushes (Outlet.showTemplate setting update part depth outlet template values)
      (Stage.Sets document) := by
  have replaces := hushes_replace civil quiets laid houses proper part depth
  cases outlet with
  | nested anchor inner =>
    obtain ⟨grove, -, ⟨bed, laidOld, -, inside, rfl, sound⟩, site⟩ := houses.exists_backed
    obtain ⟨old, roots, bindings⟩ := inner
    unfold Outlet.showTemplate
    dsimp only
    split
    · refine .noting id ?_
      rw [map_eq_pure_bind]
      exact .bind (hushes_instance civil quiets depth laidOld inside sound proper staffed site roots)
        fun inner => .pure _
    · exact replaces
  | vacant anchor | text anchor data | items anchor outlets => exact replaces

/-- Outlets for the items of a list: some are there already, some are missing, and some are in
excess. -/
theorem hushes_showItems (quiets : Quiets sort update) (part item : Nat) {last : NodeId}
    {plots : List Plot} {outlets : List (Outlet σ)} (backs : Plot.BackAll plots outlets)
    (sound : Plot.AllSound plots) (proper : ∀ value ∈ values, value.Proper sort)
    (discreet : ∀ strategy ∈ Outlet.itemStrategies outlets, strategy.Discreet)
    (site : Site document place (Plot.groves plots)) (final : place.before.getLast? = some last)
    (attached : document.parent last = some place.parent) :
    Hushes (Outlet.showItems update part item last outlets values) (Stage.Sets document) := by
  induction values generalizing item last plots outlets document place with
  | nil =>
    cases outlets with
    | nil => exact .pure _
    | cons outlet outlets =>
      unfold Outlet.showItems
      exact .noting id (.bind (.performed (Outlet.mutes_dropAll _)) fun _ => .pure _)
  | cons value values ih =>
    obtain ⟨properFirst, properRest⟩ := List.forall_mem_cons.mp proper
    -- The last node of an item has a parent, since it is one of the run of siblings of the item.
    have further {updated : Outlet σ} {first : Plot} {rest : List (Outlet σ)} {behind : List Plot}
        {between : Document} (backsFirst : first.Backs updated)
        (backsRest : Plot.BackAll behind rest) (soundFirst : first.Sound)
        (soundBehind : Plot.AllSound behind)
        (discreetRest : ∀ strategy ∈ Outlet.itemStrategies rest, strategy.Discreet)
        (site : Site between place (first.grove ++ Plot.groves behind)) :
        Hushes (do
          let others ← Outlet.showItems update part (item + 1) updated.lastNode rest values
          pure (updated :: others)) (Stage.Sets between) := by
      have last := @Plot.Sound.last σ _ _ _ soundFirst site.left
      rw [← backsFirst.lastNode] at last
      exact .bind (ih (item + 1) backsRest soundBehind properRest discreetRest site.right last.1
        last.2) fun others => .pure _
    cases plots with
    | nil =>
      obtain rfl := backs.of_nil
      unfold Outlet.showItems
      refine .perform (fun stage same => Outlet.hushed_makeAnchor part item (same ▸ attached))
        (Plot.tills_makeAnchor site final attached part item) fun anchor made anchored => ?_
      obtain ⟨-, leaf⟩ := anchored
      have vacant : (Plot.text anchor "").Backs (.vacant anchor : Outlet σ) :=
        ⟨by simp [Plot.outlet, Outlet.plain], trivial⟩
      refine quiets.achieve part ⟨vacant, trivial, leaf.site⟩ properFirst (List.forall_mem_nil _)
        fun updated between first upkept => ?_
      have site := upkept.regrown.site
      rw [← Grove.append_nil (Plot.grove _)] at site
      exact further upkept.backs backs upkept.sound trivial (List.forall_mem_nil _) site
    | cons plot plots =>
      obtain ⟨outlet, rest, rfl, here, there⟩ := backs.of_cons
      obtain ⟨soundPlot, soundPlots⟩ := sound
      obtain ⟨discreetHere, discreetRest⟩ := List.forall_mem_append.mp discreet
      unfold Outlet.showItems
      refine quiets.achieve part ⟨here, soundPlot, site.left⟩ properFirst discreetHere
        fun updated between first upkept => ?_
      exact further upkept.backs there upkept.sound soundPlots discreetRest
        (upkept.regrown.left site).site

/-- A list, in the outlets that are there if a list was shown before. -/
theorem hushes_showList (quiets : Quiets sort update) (houses : plot.Houses document place outlet)
    (proper : ∀ value ∈ values, value.Proper sort)
    (discreet : ∀ strategy ∈ outlet.strategies, strategy.Discreet) (part : Nat) :
    Hushes (Outlet.showList update part outlet values) (Stage.Sets document) := by
  -- From an anchor on, with the outlets of a list or none behind it.
  have behind {anchor : NodeId} {plots : List Plot} {outlets : List (Outlet σ)} {between : Document}
      (backs : Plot.BackAll plots outlets) (sound : Plot.AllSound plots)
      (discreet : ∀ strategy ∈ Outlet.itemStrategies outlets, strategy.Discreet)
      (attached : between.parent anchor = some place.parent)
      (site : Site between (place.past [anchor]) (Plot.groves plots)) :
      Hushes (Outlet.items anchor <$> Outlet.showItems update part 0 anchor outlets values)
        (Stage.Sets between) := by
    rw [map_eq_pure_bind]
    exact .bind (hushes_showItems quiets part 0 backs sound proper discreet site
      (by simp [Place.past]) attached) fun outlets => .pure _
  have anew : Hushes (do
      liftM outlet.clear
      Outlet.items outlet.anchor <$> Outlet.showItems update part 0 outlet.anchor [] values)
      (Stage.Sets document) := by
    obtain ⟨backs, sound, site⟩ := houses
    rw [backs.clear, backs.anchor]
    refine .perform (fun stage _ => Outlet.mutes_clear _ stage) (sound.tills_clear site)
      fun _ cleared leaf => ?_
    exact @behind _ [] [] cleared ⟨rfl, trivial⟩ trivial (List.forall_mem_nil _)
      (parent_of_cell? leaf.site.bears.1) leaf.site.tail
  cases outlet with
  | items anchor outlets =>
    have attached := houses.stands.anchor
    obtain ⟨plots, -, backs, sound, site⟩ := houses.exists_plots
    exact behind backs sound discreet attached site
  | vacant anchor | text anchor data | nested anchor inner => exact anew

end

/-! ## All values -/

/-- An update of an outlet that the document has notes no error about an anchor without a parent. -/
theorem quiets_update {layout : Template → Stencil} (civil : setting.Discreet sort)
    (laid : Layout sort layout) (room : Nat) : Quiets sort (Outlet.update setting room) := by
  have vacates (part depth : Nat) (error : ResolutionError) (outlet : Outlet σ)
      (document : Document) : Hushes (do
        report part depth error
        liftM outlet.vacate : RenderM σ (Outlet σ)) (Stage.Sets document) :=
    .reporting (.performed outlet.mutes_vacate)
  refine ⟨upkeeps_update civil.yields civil.modest laid room, ?_⟩
  induction room with
  | zero =>
    intro part plot outlet value document place houses proper discreet
    exact vacates _ _ _ outlet document
  | succ room ih =>
    intro part plot outlet value document place houses proper discreet
    rw [Outlet.update]
    have inside : Quiets sort (Outlet.update setting room) :=
      ⟨upkeeps_update civil.yields civil.modest laid room, ih⟩
    -- Resolving leaves the document as it is, and what it gives is as proper as the value.
    refine .follow (Environment.mutes_trampoline civil.environment _ _ value)
      (follows_resolve civil.yields.alike proper) fun resolved read outcomes => ?_
    cases outcomes with
    | error error => exact vacates _ _ _ outlet document
    | @ok resolved _ holds =>
      obtain ⟨rfl, proper⟩ := holds
      cases resolved with
      | template template values =>
        cases proper with
        | primitive shape => cases shape
        | template sorted count within =>
          exact hushes_showTemplate civil inside (laid template sorted) houses within discreet part _
      | items values =>
        cases proper with
        | primitive shape => cases shape
        | items within => exact hushes_showList inside houses within discreet part
      | _ => exact .performed (outlet.mutes_showText _)

end

/-! ## Calls -/

namespace Renderer

variable {sort : Template → Prop} {setting : Setting σ} {document : Document} {container : NodeId}
  {previous : Option (Instance σ)} {inner : Instance σ} {template : Template} {values : List Value}
  {layout : Template → Stencil}

theorem mutes_sweep (container : NodeId) (count : Nat) : Mutes (sweep container count) := by
  induction count with
  | zero => exact .pure ()
  | succ count ih =>
    unfold sweep
    refine .get fun stage => ?_
    split
    · exact .pure ()
    · refine .bind (.remove _) fun _ => .get fun stage => ?_
      split
      · exact .note id
      · exact ih

theorem mutes_evict (container : NodeId) (previous : Option (Instance σ)) :
    Mutes (evict container previous) := by
  unfold evict
  cases previous with
  | none => exact .get fun stage => mutes_sweep container _
  | some previous =>
    exact .bind (.note id) fun _ => .bind previous.mutes_detach fun _ => .get fun stage =>
      mutes_sweep container _

theorem hushes_prepare (setting : Setting σ) (container : NodeId) (previous : Option (Instance σ))
    (template : Template) : Hushes (prepare setting container previous template) Stage.Any := by
  unfold prepare
  cases previous.filter (·.template = template) with
  | some inner => exact .bind (.performed (.note id)) fun _ => .pure _
  | none =>
    refine .bind (.performed (mutes_evict container previous)) fun _ => ?_
    refine .bind (.performed (Instance.mutes_make _ template)) fun made => ?_
    cases made with
    | ok inner =>
      dsimp only
      rw [forM_liftM]
      exact .bind (.performed (.forM fun root => .insertBefore container root none)) fun _ => .pure _
    | error failure =>
      exact .bind (.performed (.note id)) fun _ => .bind (.report _ _ _) fun _ => .pure _

/-- A result in a new instance, in a container that is emptied first. -/
theorem hushes_renderInto {data : NodeData} {outer : Option NodeId} {reached : Document → Prop}
    (civil : setting.Discreet sort) (laid : Layout sort layout)
    (sorted : sort template) (proper : ∀ value ∈ values, value.Proper sort)
    (staffed : ∀ inner, previous = some inner → ∀ strategy ∈ inner.strategies, strategy.Discreet)
    (other : previous.filter (·.template = template) = none)
    (evicts : Performs (evict container previous) document fun _ emptied =>
      Site emptied (.inside container data outer) .nil ∧ reached emptied) :
    Hushes (renderInto setting container previous ⟨template, values⟩) (Stage.Sets document) := by
  have brings :=
    brings_prepare Strategy.discreet_setAttribute civil.strategies container staffed template
  unfold renderInto
  refine .noting id (.achieve (hushes_prepare setting container previous template).always
    ((achieves_prepare civil.modest (laid template sorted) other evicts).and brings) ?_)
  rintro _ placed ⟨⟨emptied, bed, bindings, -, rfl, blueprint, backs, sound, grown⟩, staffed⟩
  dsimp only
  rw [map_eq_pure_bind]
  exact .bind (hushes_instance civil (quiets_update civil laid _) 0 blueprint backs sound proper
    (staffed _ rfl) grown.site _) fun inner => .pure _

/-- A result in the instance that is there. -/
theorem hushes_renderInto_kept {place : Place} {grove : Grove}
    (civil : setting.Discreet sort) (laid : Layout sort layout)
    (proper : ∀ value ∈ values, value.Proper sort) (backed : inner.Backed grove)
    (staffed : ∀ strategy ∈ inner.strategies, strategy.Discreet) (site : Site document place grove) :
    Hushes (renderInto setting container (some inner) ⟨inner.template, values⟩)
      (Stage.Sets document) := by
  obtain ⟨bed, blueprint, -, backs, rfl, sound⟩ := backed
  obtain ⟨template, roots, bindings⟩ := inner
  unfold renderInto prepare
  simp only [Instance.template, Option.filter_some, decide_true, if_true, bind_assoc, pure_bind]
  refine .noting id (.noting id ?_)
  rw [map_eq_pure_bind]
  exact .bind (hushes_instance civil (quiets_update civil laid _) 0 blueprint backs sound proper
    staffed site roots) fun inner => .pure _

variable {config : Config} {renderer : Renderer σ} {environment : Environment σ}

theorem Furnished.hushed_render (furnished : renderer.Furnished config) (laid : Layout sort layout)
    (has : renderer.stage.document.Has container) (yields : environment.Yields sort)
    (quiet : environment.Discreet)
    (discreet : ∀ strategy ∈ renderer.strategies, strategy.Discreet)
    (staffed : ∀ inner, renderer.instance? container = some inner →
      ∀ strategy ∈ inner.strategies, strategy.Discreet)
    (proper : (Value.template template values).Proper sort) (world : σ) :
    renderer.stage.Hushed
      (renderer.render environment container ⟨template, values⟩ world).2.1.stage := by
  cases proper with
  | primitive shape => cases shape
  | template sorted count inside =>
  obtain ⟨holding, modest⟩ := furnished
  let setting : Setting σ := ⟨environment, renderer.config, renderer.strategies⟩
  have civil : setting.Discreet sort := ⟨yields, quiet, modest, discreet⟩
  suffices Hushes (renderInto setting container (renderer.instance? container) ⟨template, values⟩)
      (Stage.Sets renderer.stage.document) from this #[] world renderer.stage ⟨rfl, holding.whole⟩
  cases held : renderer.instance? container with
  | none =>
    obtain ⟨cell, found⟩ := has.exists_cell?
    exact hushes_renderInto civil laid sorted inside nofun rfl
      (performs_evict_bare found holding.sound)
  | some inner =>
    obtain ⟨grove, backed, data, outer, site⟩ := holding.lives container inner held
    by_cases same : inner.template = template
    · subst same
      exact hushes_renderInto_kept civil laid inside backed
        (staffed inner held) site
    · have other : (some inner).filter (·.template = template) = none := by simp [same]
      exact hushes_renderInto civil laid sorted inside
        (fun _ known => staffed _ (held.trans known)) other (performs_evict backed site)

/-- In every container, each outlet has its output in one run of siblings from its anchor on, and the
runs of the outlets of an instance are apart.  So rendering never comes upon an anchor without a
parent, and neither does releasing. -/
theorem outputs_contiguous (emerges : renderer.Emerges Template.Compiled config) :
    (∀ container inner, renderer.instance? container = some inner →
      (∀ outlet, inner.Live outlet → ∃ parent, outlet.Stands renderer.stage.document parent) ∧
        ∀ other, inner.Includes other →
          other.outlets.Pairwise fun first second => first.stretch.Disjoint second.stretch) ∧
      ((∀ strategy ∈ renderer.strategies, strategy.Discreet) → ∀ container,
        renderer.stage.Hushed (renderer.release container).2.stage ∧
          (renderer.stage.document.Has container → ∀ {environment : Environment σ},
            environment.Yields Template.Compiled → environment.Discreet →
              ∀ {template : Template} {values : List Value},
                (Value.template template values).Proper Template.Compiled → ∀ world : σ,
                  renderer.stage.Hushed (renderer.render environment container
                    ⟨template, values⟩ world).2.1.stage)) := by
  obtain ⟨layout, laid⟩ := exists_layout fun template (compiled : template.Compiled) => compiled
  have furnished := emerges.furnished laid
  refine ⟨fun container inner held => ?_, fun discreet container => ⟨?_, ?_⟩⟩
  · obtain ⟨grove, backed, data, outer, site⟩ := furnished.holding.lives container inner held
    refine ⟨fun outlet live => ?_, fun other => backed.disjoint_stretches site⟩
    obtain ⟨plot, place, houses⟩ := backed.exists_houses site live
    exact ⟨place.parent, houses.stands⟩
  · unfold Renderer.release
    cases renderer.instance? container with
    | none => exact .of_same rfl
    | some inner => exact inner.mutes_detach renderer.stage
  · intro has environment yields quiet template values proper world
    refine furnished.hushed_render laid has yields quiet discreet (fun inner held => ?_) proper world
    intro strategy member
    obtain rfl | registered := emerges.enlisted held strategy member
    · exact Strategy.discreet_setAttribute
    · exact discreet strategy registered

theorem strategies_render (renderer : Renderer σ) (environment : Environment σ) (container : NodeId)
    (result : TemplateResult) (world : σ) :
    (renderer.render environment container result world).2.1.strategies = renderer.strategies :=
  rfl

/-- An anchor comes first, then the anchors of two items, and then what the second item shows. -/
theorem outputs_contiguous_stocked :
    stocked.stage.document.children ⟨0⟩ = [⟨1⟩, ⟨3⟩, ⟨4⟩, ⟨5⟩, ⟨6⟩, ⟨2⟩] ∧
      ∃ inner outlet, stocked.instance? ⟨0⟩ = some inner ∧ inner.outlets = [outlet] ∧
        outlet.stretch = [⟨1⟩, ⟨3⟩, ⟨4⟩, ⟨5⟩, ⟨6⟩] ∧ outlet.Stands stocked.stage.document ⟨0⟩ ∧
        stocked.stage.Hushed (stocked.release ⟨0⟩).2.stage ∧
        stocked.stage.Hushed (stocked.render Environment.counting ⟨0⟩
          ⟨Template.headed, [.items [.deferred ⟨0⟩, .text "c", .text "d"], .bool true]⟩
          3).2.1.stage := by
  have known : (stocked.instance? ⟨0⟩).map (fun inner => inner.outlets.map Outlet.stretch) =
      some [[⟨1⟩, ⟨3⟩, ⟨4⟩, ⟨5⟩, ⟨6⟩]] := by decide +kernel
  obtain ⟨inner, held, shown⟩ := Option.map_eq_some_iff.mp known
  obtain ⟨outlet, outlets, stretch⟩ := List.map_eq_singleton_iff.mp shown
  have discreet : ∀ strategy ∈ stocked.strategies, strategy.Discreet := by
    rw [stocked, strategies_render]
    exact List.forall_mem_singleton.mpr fun _ _ _ _ _ => .of_same rfl
  have text (data : String) : (Value.text data).Proper Template.Compiled := .primitive rfl
  have list : (Value.items [.deferred ⟨0⟩, .text "c", .text "d"]).Proper Template.Compiled :=
    .items (List.forall_mem_cons.mpr ⟨.deferred _, List.forall_mem_cons.mpr
      ⟨text "c", List.forall_mem_singleton.mpr (text "d")⟩⟩)
  obtain ⟨stands, hushed⟩ := outputs_contiguous emerges_stocked
  obtain ⟨parent, there⟩ :=
    (stands ⟨0⟩ inner held).1 outlet ⟨outlet, by rw [outlets]; exact List.mem_singleton_self _, .here⟩
  have above : stocked.stage.document.parent ⟨1⟩ = some ⟨0⟩ := by decide +kernel
  have anchor : outlet.anchor = ⟨1⟩ := List.head_eq_of_cons_eq stretch
  obtain rfl : parent = ⟨0⟩ := Option.some.inj (there.anchor.symm.trans (anchor ▸ above))
  have quiet : Environment.counting.Discreet := fun _ _ => nofun
  have has : stocked.stage.document.Has ⟨0⟩ := by decide +kernel
  exact ⟨by decide +kernel, inner, outlet, held, outlets, stretch, there, (hushed discreet ⟨0⟩).1,
    (hushed discreet ⟨0⟩).2 has Environment.yields_counting quiet
      (Template.proper_headed list (.primitive rfl)) 3⟩

end Renderer

end LiveMarkup
