import LiveMarkup.Proofs.Planting.Yielding
import LiveMarkup.Proofs.Updating

/-! # Updates come to tending

Every update of an outlet comes to the tending of its plot with what the value settles to: the new
outlet, the nodes in the document down to their numbers, and all recorded changes.  This is
`tends_update`, by induction on the room for templates and lists. -/

namespace LiveMarkup

open Document Markup

variable {σ τ : Type} {sort : Template → Prop} {related : σ → τ → Prop} {setting : Setting σ}
  {environment : Environment τ} {document : Document} {place : Place} {plot : Plot}

namespace Plot

/-! ## Texts -/

@[simp] theorem writing_self (anchor : NodeId) (data : String) : writing anchor data data = [] :=
  if_pos rfl

theorem showText_apply_empty (plot : Plot) (next : Nat) :
    plot.showText "" next = ⟨.text plot.anchor "", next, plot.clearing⟩ := by
  cases plot <;> simp [showText, clearing, anchor]

/-- The anchor of a cleared plot is that of a vacant one. -/
theorem tills_vacate (sound : plot.Sound) (site : Site document place plot.grove) :
    Performs (plot.outlet : Outlet σ).vacate document fun vacated after =>
      Yields place document plot (plot.showText "" document.size) vacated after := by
  refine (sound.tills_clear site).bind fun _ after cleared => .pure ?_
  rw [showText_apply_empty]
  exact ⟨by simp [outlet], rfl, trivial, cleared⟩

theorem showText_apply_text (anchor : NodeId) (shown data : String) (next : Nat) :
    (text anchor shown).showText data next =
      ⟨text anchor data, next, writing anchor shown data⟩ := by
  simp [showText]

/-- An anchor that shows another text, or none. -/
theorem tills_show' {anchor : NodeId} {shown data : String} (changes : shown = data → data = "")
    (site : Site document place (text anchor shown).grove) :
    Performs (Outlet.showText.show' ((text anchor shown).outlet : Outlet σ) data) document
      fun updated after =>
        Yields place document (text anchor shown) ((text anchor shown).showText data document.size)
          updated after := by
  have sound : (text anchor shown).Sound := trivial
  unfold Outlet.showText.show'
  by_cases nothing : data = ""
  · subst nothing
    rw [if_pos rfl]
    exact tills_vacate sound site
  · have other : shown ≠ data := fun same => nothing (changes same)
    rw [if_neg nothing]
    refine .noting ?_
    rw [anchor_outlet, showText_apply_text, writing, if_neg other]
    refine (tills_setText site data).bind fun _ after set => .pure ⟨?_, rfl, trivial, set⟩
    rw [outlet, if_neg nothing]
    rfl

/-- What was there is taken away before a text is shown. -/
theorem tills_showText_anew (sound : plot.Sound) (site : Site document place plot.grove)
    (data : String) :
    Performs ((plot.outlet : Outlet σ).vacate >>= fun vacated =>
      Outlet.showText.show' vacated data) document fun updated after =>
        Yields place document plot ⟨text plot.anchor data, document.size,
          plot.clearing ++ writing plot.anchor "" data⟩ updated after := by
  refine (tills_vacate sound site).bind fun vacated between yields => ?_
  rw [showText_apply_empty] at yields
  obtain ⟨rfl, -, -, tilled⟩ := yields
  refine (tills_show' Eq.symm tilled.site).mono fun updated after shown => ?_
  rw [showText_apply_text, tilled.size] at shown
  exact ⟨shown.outlet, rfl, trivial, tilled.trans shown.tilled⟩

/-- Showing a text leaves just the anchor with that text. -/
theorem tills_showText (sound : plot.Sound) (site : Site document place plot.grove)
    (data : String) :
    Performs ((plot.outlet : Outlet σ).showText data) document fun updated after =>
      Yields place document plot (plot.showText data document.size) updated after := by
  cases plot with
  | text anchor shown =>
    have shows := @tills_show' σ document place anchor shown data
    rw [outlet] at shows ⊢
    split
    · next nothing =>
      rw [if_pos nothing] at shows
      exact shows (fun same => same.symm.trans nothing) site
    · next filled =>
      rw [if_neg filled] at shows
      unfold Outlet.showText
      dsimp only
      split
      · next same =>
        subst same
        rw [showText_apply_text, writing_self]
        refine .noting (.pure ⟨?_, rfl, trivial, .refl site⟩)
        rw [outlet, if_neg filled]
      · next other => exact shows (fun same => absurd same other) site
  | nested anchor template bed =>
    have anew := @tills_showText_anew σ document place _ sound site data
    simpa [showText, outlet, Outlet.showText] using anew
  | items anchor plots =>
    have anew := @tills_showText_anew σ document place _ sound site data
    simpa [showText, outlet, Outlet.showText] using anew

/-! ## Templates -/

/-- The roots of a new instance are put behind an anchor. -/
theorem tills_place (part : Nat) {anchor : NodeId} {inner : Instance σ} {bed : Bed}
    {made : Document} {next : Nat} {deeds : List Mutation}
    (site : Site document place (.leaf anchor (.text "")))
    (raised : Raised document bed.grove next deeds made) (roots : bed.grove.roots = bed.roots)
    (own : inner.roots = bed.roots) :
    Performs (Outlet.place part anchor inner) made fun _ after =>
      Tilled place document (.leaf anchor (.text "")) next
        (deeds ++ bed.roots.map (.insert place.parent ·)) after
        (.cons anchor (.text "") .nil bed.grove) := by
  have here := raised.added.site site
  have loose : Loose made (place.past [anchor]) bed.grove := raised.added.loose site.tail
  have logs : Performs (Outlet.place part anchor inner) made
      fun _ after => made.Logs made.size (bed.roots.map (.insert place.parent ·)) after := by
    have parent : made.parent anchor = some place.parent := parent_of_cell? here.bears.1
    unfold Outlet.place
    refine .get fun stage same whole => ?_
    subst same
    simp only [parent, own]
    exact logs_insertAll _ _ _ _
  refine ((Outlet.performs_place part here loose (own.trans roots.symm)).and logs).mono
    fun _ after ⟨⟨inserted, moved⟩, logs⟩ => ⟨?_, ?_⟩
  · exact (Regrown.of_insert raised.added.moves raised.added.fresh inserted moved).tail site
  · have both := raised.logs.trans logs
    rwa [raised.logs.size] at both

end Plot

/-- The result of an action is wrapped, and a reading goes along with it all the same. -/
theorem Simulates.returning {α β γ : Type} {action : RenderM σ γ} {reading : ReadM τ β}
    {wrap : γ → α} {post : α → β → Document → Prop}
    (simulates : Simulates related action reading document fun result => post (wrap result)) :
    Simulates related (action >>= fun result => pure (wrap result)) reading document post :=
  simulates

/-- What a reading gives is wrapped, and an action goes along with it all the same. -/
theorem Simulates.wrapping {α β γ : Type} {action : RenderM σ α} {reading : ReadM τ γ}
    {wrap : γ → β} {post : α → β → Document → Prop}
    (simulates : Simulates related action reading document fun result read =>
      post result (wrap read)) :
    Simulates related action (wrap <$> reading) document post :=
  simulates

section

variable {update : OutletUpdate σ} {settle : Nat → Value → ReadM τ Value} {tend : PlotUpdate}

/-- An update of an instance comes to the tending of its bed. -/
theorem simulates_bed_instance (alike : setting.environment.Alike sort related environment)
    (tends : Tends sort related update settle tend) (depth : Nat) {template : Template} {bed : Bed}
    (laid : template.blueprint = bed.stencil.blueprint) (sound : bed.Sound) {values : List Value}
    (proper : ∀ value ∈ values, value.Proper sort) (site : Site document place bed.grove) :
    Simulates related ((bed.instance template).update setting update depth values)
      (Settling.parts environment setting.config settle depth 0 template.blueprint.parts values)
      document fun updated settled after =>
        let harvest := bed.tend tend place.parent settled document.size
        updated = harvest.result.instance template ∧
          Bed.Yields place document bed harvest updated.bindings after := by
  have parts : template.blueprint.parts = bed.stencil.partsAt [] 0 := by rw [laid]; rfl
  simp only [Instance.update, Bed.instance, Instance.template, Instance.bindings, Instance.roots,
    parts]
  refine ((simulates_bed alike tends depth sound proper site [] 0 0).mono
    fun bindings settled after tended => ?_).returning
  obtain ⟨-, yields⟩ := tended
  refine ⟨?_, yields⟩
  rw [yields.roots, yields.bindings]

variable {layout : Template → Stencil} {template : Template} {values : List Value}

/-- A template in a new instance. -/
theorem Plot.simulates_replace (alike : setting.environment.Alike sort related environment)
    (tends : Tends sort related update settle tend) (plain : setting.strategies = [])
    (laid : template.blueprint = (layout template).blueprint)
    (sound : plot.Sound) (site : Site document place plot.grove)
    (proper : ∀ value ∈ values, value.Proper sort) (part depth : Nat) :
    Simulates related
      (Outlet.showTemplate.replace setting update part depth plot.outlet template values)
      (Settling.parts environment setting.config settle depth 0 template.blueprint.parts values)
      document fun updated settled after => Plot.Yields place document plot
        (plot.replace layout tend place.parent template settled document.size) updated after := by
  unfold Outlet.showTemplate.replace
  rw [plain]
  -- The old output is cleared, an instance is made and placed behind the anchor, and then it is
  -- updated.
  refine .perform (sound.tills_clear site) fun _ cleared leaf => ?_
  refine .perform (raises_make cleared laid) fun result made ⟨known, raised⟩ => ?_
  subst known
  rw [leaf.size] at raised ⊢
  have roots := (layout template).roots_sow none [] 0 document.size
  dsimp only
  rw [anchor_outlet]
  refine .perform (tills_place part leaf.site raised roots rfl) fun _ placed tilled => ?_
  have grown := leaf.trans tilled
  have blueprint : template.blueprint =
      ((layout template).sow none [] 0 document.size).result.stencil.blueprint := by
    rw [Stencil.stencil_sow, laid]
  rw [map_eq_pure_bind]
  refine ((simulates_bed_instance alike tends depth blueprint
    ((layout template).sound_sow none [] 0 _) proper grown.site.tail).mono
      fun updated settled after ⟨same, yields⟩ => ?_).returning
  subst same
  rw [grown.size] at yields ⊢
  refine ⟨rfl, rfl, ⟨blueprint.trans (congrArg Stencil.blueprint yields.stencil.symm),
    yields.sound⟩, ?_⟩
  have all := grown.trans (yields.tilled.tail grown.site)
  simpa [replace, grove, Place.past] using all

/-- A template, in the instance that is there if it is of the same template. -/
theorem Plot.simulates_showTemplate (alike : setting.environment.Alike sort related environment)
    (tends : Tends sort related update settle tend) (plain : setting.strategies = [])
    (laid : template.blueprint = (layout template).blueprint)
    (sound : plot.Sound) (site : Site document place plot.grove)
    (proper : ∀ value ∈ values, value.Proper sort) (part depth : Nat) :
    Simulates related
      (Outlet.showTemplate setting update part depth plot.outlet template values)
      (Settling.parts environment setting.config settle depth 0 template.blueprint.parts values)
      document fun updated settled after => Plot.Yields place document plot
        (plot.showTemplate layout tend place.parent template settled document.size) updated
          after := by
  have replaces := Plot.simulates_replace alike tends plain laid sound site proper part depth
  cases plot with
  | text anchor data =>
    rw [outlet] at replaces ⊢
    split <;> rename_i holds
    · rw [if_pos holds] at replaces
      exact replaces
    · rw [if_neg holds] at replaces
      exact replaces
  | nested anchor old bed =>
    obtain ⟨laidOld, soundBed⟩ := sound
    rw [outlet] at replaces ⊢
    unfold Outlet.showTemplate Plot.showTemplate
    dsimp only [Instance.template]
    -- Only an instance of the same template is updated where it is.
    by_cases same : old = template
    · subst same
      simp only [if_true]
      refine .noting ?_
      rw [map_eq_pure_bind]
      refine ((simulates_bed_instance alike tends depth laidOld soundBed proper site.tail).mono
        fun updated settled after ⟨same, yields⟩ => ?_).returning
      subst same
      exact ⟨rfl, rfl, ⟨laidOld.trans (congrArg Stencil.blueprint yields.stencil.symm),
        yields.sound⟩, yields.tilled.tail site⟩
    · simp only [same, if_false]
      exact replaces
  | items anchor plots => exact replaces

/-! ## Lists -/

/-- The anchor of a new item is put right behind the last node before it. -/
theorem Plot.tills_makeAnchor (site : Site document place .nil) {last : NodeId}
    (final : place.before.getLast? = some last)
    (inside : document.parent last = some place.parent) (part item : Nat) :
    Performs (Outlet.makeAnchor part item last) document fun anchor after =>
      anchor = ⟨document.size⟩ ∧
        Tilled place document .nil (document.size + 1) [.insert place.parent anchor] after
          (text anchor "").grove := by
  have logs : Performs (Outlet.makeAnchor part item last) document fun anchor after =>
      anchor = ⟨document.size⟩ ∧
        document.Logs (document.size + 1) [.insert place.parent anchor] after := by
    unfold Outlet.makeAnchor
    refine (raises_create document (.text "")).bind fun anchor created raises => ?_
    obtain ⟨same, raised⟩ := raises
    have parent : created.parent last = some place.parent := by
      have has := site.around last (List.mem_append_left _ (List.mem_of_getLast? final))
      rw [Document.parent, raised.added.moves.kept last has id, ← Document.parent, inside]
    refine .get fun stage known _ => ?_
    subst known
    simp only [parent]
    refine (logs_insertBefore _ place.parent anchor _).bind fun _ after inserted => .pure ⟨same, ?_⟩
    have both := raised.logs.trans inserted
    rwa [raised.logs.size] at both
  exact ((Outlet.performs_makeAnchor site final inside part item).and logs).mono
    fun anchor after made => ⟨made.2.1, made.1, made.2.2⟩

/-- A plot is the last one before the next. -/
theorem Plot.Sound.last (sound : plot.Sound) (site : Site document place plot.grove) :
    (place.past plot.grove.roots).before.getLast? = some (plot.outlet : Outlet σ).lastNode ∧
      document.parent (plot.outlet : Outlet σ).lastNode = some place.parent := by
  have last : plot.grove.roots.getLast? = some (plot.outlet : Outlet σ).lastNode := sound.lastNode
  refine ⟨?_, site.bears.parent_of_root (List.mem_of_getLast? last)⟩
  rw [Place.past, List.getLast?_append, last]
  rfl

/-- Plots for the items of a list: some are there already, some are missing, and some are in
excess. -/
theorem Plot.simulates_showItems (tends : Tends sort related update settle tend) (part item : Nat)
    {last : NodeId} {plots : List Plot} (sound : AllSound plots)
    (proper : ∀ value ∈ values, value.Proper sort) (site : Site document place (groves plots))
    (final : place.before.getLast? = some last)
    (inside : document.parent last = some place.parent) :
    Simulates related (Outlet.showItems update part item last (outlets plots) values)
      (Settling.items (settle part) values) document
      fun updated settled after =>
        let harvest := showItems tend place.parent plots settled document.size
        updated = outlets harvest.result ∧ AllSound harvest.result ∧
          Tilled place document (groves plots) harvest.next harvest.deeds after
            (groves harvest.result) := by
  induction values generalizing item last plots document place with
  | nil =>
    cases plots with
    | nil => exact .pure ⟨rfl, trivial, .refl site⟩
    | cons plot plots =>
      unfold outlets Outlet.showItems
      refine .noting (.perform (sound.tills_dropAll site) fun _ after dropped => .pure ?_)
      exact ⟨rfl, trivial, by simpa [showItems, groves] using dropped⟩
  | cons value values ih =>
    have properFirst := proper value List.mem_cons_self
    have properRest := fun value member => proper value (List.mem_cons_of_mem _ member)
    -- Once the first item is there, the others come behind the last of its nodes.
    have further {first : Plot} {behind : List Plot} {between : Document} {next : Nat}
        {deeds : List Mutation} (soundFirst : first.Sound) (soundBehind : AllSound behind)
        (tilled : Tilled place document (groves plots) next deeds between
          (first.grove ++ groves behind)) :
        Simulates related (Outlet.showItems update part (item + 1)
          (first.outlet : Outlet σ).lastNode (outlets behind) values)
          (Settling.items (settle part) values) between
          fun updated settled after =>
            let harvest := showItems tend place.parent behind settled next
            updated = outlets harvest.result ∧ AllSound harvest.result ∧
              Tilled place document (groves plots) harvest.next (deeds ++ harvest.deeds) after
                (first.grove ++ groves harvest.result) := by
      have last := @Plot.Sound.last σ _ _ _ soundFirst tilled.site.left
      refine (ih (item + 1) soundBehind properRest tilled.site.right last.1 last.2).mono
        fun updated settled after shown => ?_
      obtain ⟨same, sound, more⟩ := shown
      rw [tilled.size] at same sound more
      exact ⟨same, sound, tilled.trans (more.right tilled.site)⟩
    cases plots with
    | nil =>
      unfold outlets Outlet.showItems Settling.items
      refine .perform (tills_makeAnchor site final inside part item) fun _ made anchored => ?_
      obtain ⟨rfl, leaf⟩ := anchored
      have vacant : (Outlet.vacant ⟨document.size⟩ : Outlet σ) =
          (text ⟨document.size⟩ "").outlet := by simp [outlet]
      have nothing : (text ⟨document.size⟩ "").Sound := trivial
      rw [vacant]
      refine (tends part properFirst nothing leaf.site).bind fun updated first between yields => ?_
      rw [leaf.size] at yields
      obtain ⟨rfl, -, soundFirst, tilled⟩ := yields
      have here := leaf.trans tilled
      rw [← Grove.append_nil (Plot.grove _)] at here
      have others := @further _ [] _ _ _ soundFirst trivial here
      refine others.bind fun _ settled after shown => .pure ?_
      obtain ⟨rfl, sound, more⟩ := shown
      refine ⟨rfl, ⟨soundFirst, sound⟩, ?_⟩
      simpa [showItems, groves] using more
    | cons plot plots =>
      obtain ⟨soundPlot, soundPlots⟩ := sound
      unfold outlets Outlet.showItems Settling.items
      refine (tends part properFirst soundPlot site.left).bind
        fun updated first between yields => ?_
      obtain ⟨rfl, -, soundFirst, tilled⟩ := yields
      refine (further soundFirst soundPlots (tilled.left site)).bind
        fun _ settled after shown => .pure ?_
      obtain ⟨rfl, sound, more⟩ := shown
      refine ⟨rfl, ⟨soundFirst, sound⟩, ?_⟩
      simpa [showItems, groves, Place.facing] using more

/-- A list, in the plots that are there if a list was shown before. -/
theorem Plot.simulates_showList (tends : Tends sort related update settle tend)
    (sound : plot.Sound) (site : Site document place plot.grove)
    (proper : ∀ value ∈ values, value.Proper sort) (part : Nat) :
    Simulates related (Outlet.showList update part plot.outlet values)
      (Settling.items (settle part) values) document
      fun updated settled after => Plot.Yields place document plot
        (plot.showList tend place.parent settled document.size) updated after := by
  -- Items are put behind their anchor; whatever else was shown is cleared first (`anew`).
  have behind {anchor : NodeId} {plots : List Plot} {between : Document} {next : Nat}
      {deeds : List Mutation} (soundPlots : AllSound plots)
      (tilled : Tilled place document plot.grove next deeds between (items anchor plots).grove) :
      Simulates related
        (Outlet.items anchor <$> Outlet.showItems update part 0 anchor (outlets plots) values)
        (Settling.items (settle part) values) between
        fun updated settled after =>
          let harvest := showItems tend place.parent plots settled next
          updated = (items anchor harvest.result).outlet ∧ (items anchor harvest.result).Sound ∧
            Tilled place document plot.grove harvest.next (deeds ++ harvest.deeds) after
              (items anchor harvest.result).grove := by
    rw [map_eq_pure_bind]
    refine ((simulates_showItems tends part 0 soundPlots proper tilled.site.tail
      (by simp [Place.past]) (parent_of_cell? tilled.site.bears.1)).mono
        fun _ settled after shown => ?_).returning
    obtain ⟨rfl, sound, more⟩ := shown
    rw [tilled.size] at sound more ⊢
    exact ⟨rfl, sound, tilled.trans (more.tail tilled.site)⟩
  have anew : Simulates related
      (do
        liftM (plot.outlet : Outlet σ).clear
        Outlet.items (plot.outlet : Outlet σ).anchor <$>
          Outlet.showItems update part 0 (plot.outlet : Outlet σ).anchor [] values)
      (Settling.items (settle part) values) document
      fun updated settled after => Plot.Yields place document plot
        ((do
          Tend.record plot.clearing
          items plot.anchor <$> showItems tend place.parent [] settled : Tend Plot) document.size)
        updated after := by
    refine .perform (sound.tills_clear site) fun _ cleared leaf => ?_
    rw [anchor_outlet]
    refine (@behind plot.anchor [] _ _ _ trivial leaf).mono
      fun updated settled after shown => ?_
    obtain ⟨same, sound, tilled⟩ := shown
    exact ⟨same, rfl, sound, by simpa using tilled⟩
  cases plot with
  | text anchor data =>
    rw [outlet] at anew ⊢
    split <;> rename_i holds
    · rw [if_pos holds] at anew
      exact anew
    · rw [if_neg holds] at anew
      exact anew
  | nested anchor template bed => exact anew
  | items anchor plots =>
    refine (behind sound (.refl site)).mono fun updated settled after shown => ?_
    obtain ⟨same, sound, tilled⟩ := shown
    exact ⟨same, rfl, sound, tilled⟩

end

/-! ## All values -/

/-- An update of an outlet comes to the tending of its plot with what the value settles to. -/
theorem tends_update {layout : Template → Stencil}
    (alike : setting.environment.Alike sort related environment) (plain : setting.strategies = [])
    (laid : ∀ template, sort template → template.blueprint = (layout template).blueprint)
    (room : Nat) :
    Tends sort related (Outlet.update setting room)
      (Settling.content environment setting.config room) (Plot.tend layout room) := by
  -- What cannot be shown is reported, and the plot is left empty.
  have fails {part depth : Nat} {error : ResolutionError} {plot : Plot} {document : Document}
      {place : Place} (sound : plot.Sound) (site : Site document place plot.grove) :
      Simulates related
        (do
          report part depth error
          liftM (plot.outlet : Outlet σ).vacate)
        (do
          Reading.complain part depth error
          pure Value.empty : ReadM τ Value) document
        fun updated _ after =>
          Plot.Yields place document plot (plot.showText "" document.size) updated after :=
    .reporting (.performed (Plot.tills_vacate sound site) fun _ _ => id)
  induction room with
  | zero =>
    intro part plot value document place proper sound site
    exact fails sound site
  | succ room ih =>
    intro part plot value document place proper sound site
    rw [Outlet.update, Settling.content]
    refine .follow (follows_resolve alike proper) fun resolved read outcomes => ?_
    cases outcomes with
    | error error => exact fails sound site
    | @ok resolved _ holds =>
      obtain ⟨rfl, proper⟩ := holds
      cases resolved with
      | template template values =>
        cases proper with
        | primitive shape => cases shape
        | template sorted count inside =>
          exact .wrapping (Plot.simulates_showTemplate alike ih plain (laid template sorted) sound
            site inside part _)
      | items values =>
        cases proper with
        | primitive shape => cases shape
        | items inside => exact .wrapping (Plot.simulates_showList ih sound site inside part)
      | _ => exact .performed (Plot.tills_showText sound site _) fun _ _ => id

end LiveMarkup
