import LiveMarkup.Proofs.Clearing
import LiveMarkup.Proofs.Copying
import LiveMarkup.Proofs.Parts

/-! # Updating shows what is read

Whatever an outlet held before, an update leaves the document with the forest that is read for the
new value.  This is `renews_update`, by induction on the room for templates and lists.  Every way to
give an outlet new content keeps to its place: a new instance goes right behind the anchor, and the
anchor of a new item right behind the last node of the item before it. -/

namespace LiveMarkup

open Document Markup

variable {σ τ : Type} {sort : Template → Prop} {related : σ → τ → Prop} {setting : Setting σ}
  {environment : Environment τ} {document : Document} {place : Place} {grove : Grove}

namespace Outlet

/-- An outlet's grove starts with its anchor, and the anchor of a fitting outlet is in its place. -/
theorem performs_vacate {outlet : Outlet σ} (fits : outlet.Fits grove)
    (site : Site document place grove) :
    Performs outlet.vacate document fun vacated after => vacated = .vacant outlet.anchor ∧
      Regrown place document grove after (.leaf outlet.anchor (.text "")) :=
  (fits.performs_clear site).bind fun _ _ cleared => .pure ⟨rfl, cleared⟩

/-! ## Texts -/

/-- An anchor that shows a text, of an outlet that is vacant or shows a text itself. -/
theorem performs_show' {outlet : Outlet σ} {shown : String}
    (fits : outlet.Fits (.leaf outlet.anchor (.text shown)))
    (site : Site document place (.leaf outlet.anchor (.text shown))) (data : String) :
    Performs (showText.show' outlet data) document fun updated after =>
      updated.anchor = outlet.anchor ∧ updated.Fits (.leaf outlet.anchor (.text data)) ∧
        Regrown place document (.leaf outlet.anchor (.text shown)) after
          (.leaf outlet.anchor (.text data)) := by
  unfold showText.show'
  by_cases nothing : data = ""
  · subst nothing
    rw [if_pos rfl]
    refine (performs_vacate fits site).mono fun _ after ⟨same, vacated⟩ => ?_
    subst same
    exact ⟨rfl, .vacant, vacated⟩
  · rw [if_neg nothing]
    refine .noting ((performs_setText site data).bind fun _ after set => .pure ?_)
    exact ⟨rfl, .text nothing, set⟩

/-- Showing a text leaves just the anchor with that text. -/
theorem performs_showText {outlet : Outlet σ} (fits : outlet.Fits grove)
    (site : Site document place grove) (data : String) :
    Performs (outlet.showText data) document fun updated after =>
      updated.anchor = outlet.anchor ∧ updated.Fits (.leaf outlet.anchor (.text data)) ∧
        Regrown place document grove after (.leaf outlet.anchor (.text data)) := by
  have anew : ∀ outlet : Outlet σ, outlet.Fits grove → Performs
      (outlet.vacate >>= fun vacated => showText.show' vacated data) document
      fun updated after => updated.anchor = outlet.anchor ∧
        updated.Fits (.leaf outlet.anchor (.text data)) ∧
        Regrown place document grove after (.leaf outlet.anchor (.text data)) := by
    intro outlet fits
    refine (performs_vacate fits site).bind fun _ between ⟨same, vacated⟩ => ?_
    subst same
    refine (performs_show' .vacant vacated.site data).mono
      fun updated after ⟨anchor, fits, shown⟩ => ?_
    exact ⟨anchor, fits, vacated.trans shown⟩
  cases fits with
  | vacant => exact performs_show' .vacant site data
  | @text anchor shown filled =>
    unfold showText
    dsimp only
    split
    · next same =>
      subst same
      exact .noting (.pure ⟨rfl, .text filled, .refl site⟩)
    · exact performs_show' (.text filled) site data
  | nested held => exact anew _ (.nested held)
  | items held => exact anew _ (.items held)

/-! ## Templates -/

/-- The roots of a new instance are put behind an anchor. -/
theorem performs_place (part : Nat) {anchor : NodeId} {inner : Instance σ}
    (site : Site document place (.leaf anchor (.text "")))
    (loose : Loose document (place.past [anchor]) grove) (roots : inner.roots = grove.roots) :
    Performs (Outlet.place part anchor inner) document fun _ after =>
      Site after (place.past [anchor]) grove ∧
        document.Moves (fun node => node = place.parent ∨ node ∈ grove.nodes) after := by
  have behind : Site document (place.past [anchor]) .nil := site.tail
  have parent : document.parent anchor = some place.parent := parent_of_cell? site.bears.1
  have next : document.nextSibling anchor = place.behind.head? :=
    behind.nextSibling (by simp [Place.past]) parent
  unfold Outlet.place
  refine .get fun stage same whole => ?_
  subst same
  simp only [parent, next, roots]
  exact performs_insertAll behind loose

section

variable {update : OutletUpdate σ} {content : Nat → Value → ReadM τ Forest}
  {outlet : Outlet σ} {template : Template} {values : List Value}

/-- A template in a new instance. -/
theorem simulates_replace (alike : setting.environment.Alike sort related environment)
    (renews : Renews sort related update content) (plain : setting.strategies = [])
    (fits : outlet.Fits grove) (site : Site document place grove) {stencil : Stencil}
    (layout : template.blueprint = stencil.blueprint) (distinct : stencil.Distinct)
    (count : values.length = template.blueprint.parts.length)
    (proper : ∀ value ∈ values, value.Proper sort) (part depth : Nat) :
    Simulates related
      (showTemplate.replace setting update part depth outlet template values)
      (do
        let inside ←
          Reading.template environment setting.config content depth template values
        pure (.text "" :: inside)) document
      (Settles place document grove outlet) := by
  unfold showTemplate.replace
  rw [plain]
  refine .perform (fits.performs_clear site) fun _ cleared leaf => ?_
  refine .perform (performs_make cleared layout distinct) fun _ made result => ?_
  obtain ⟨inner, forest, rfl, rfl, roots, held, added⟩ := result
  have behind : Site cleared (place.past [outlet.anchor]) .nil := leaf.site.tail
  refine .perform (performs_place part (added.site leaf.site) (added.loose behind) roots)
    fun _ placed ⟨inserted, moved⟩ => ?_
  have grown := (Regrown.of_insert added.moves added.fresh inserted moved).tail leaf.site
  rw [map_eq_pure_bind]
  refine (simulates_instance alike renews depth held count proper inserted).bind
    fun updated inside after ⟨_, grove', regrown, held, looks⟩ => .pure ?_
  exact ⟨rfl, _, (leaf.trans grown).trans (regrown.tail grown.site), .nested held,
    by rw [← looks]; rfl⟩

/-- A template, in the instance that is there if it is of the same template. -/
theorem simulates_showTemplate (alike : setting.environment.Alike sort related environment)
    (renews : Renews sort related update content) (plain : setting.strategies = [])
    (fits : outlet.Fits grove) (site : Site document place grove) {stencil : Stencil}
    (layout : template.blueprint = stencil.blueprint) (distinct : stencil.Distinct)
    (count : values.length = template.blueprint.parts.length)
    (proper : ∀ value ∈ values, value.Proper sort) (part depth : Nat) :
    Simulates related (showTemplate setting update part depth outlet template values)
      (do
        let inside ←
          Reading.template environment setting.config content depth template values
        pure (.text "" :: inside)) document
      (Settles place document grove outlet) := by
  have replaces := simulates_replace alike renews plain fits site layout distinct count proper part
    depth
  unfold showTemplate
  cases fits with
  | @nested anchor inner below held =>
    dsimp only
    split
    · next same =>
      subst same
      refine .noting ?_
      rw [map_eq_pure_bind]
      refine (simulates_instance alike renews depth held count proper site.tail).bind
        fun updated inside after ⟨_, grown, regrown, held, looks⟩ => .pure ?_
      exact ⟨rfl, _, regrown.tail site, .nested held, by rw [← looks]; rfl⟩
    · exact replaces
  | _ => exact replaces

/-! ## Lists -/

/-- The anchor of a new item is put right behind the last node before it. -/
theorem performs_makeAnchor (site : Site document place .nil) {last : NodeId}
    (final : place.before.getLast? = some last)
    (inside : document.parent last = some place.parent) (part item : Nat) :
    Performs (makeAnchor part item last) document fun anchor after =>
      Regrown place document .nil after (.leaf anchor (.text "")) := by
  unfold makeAnchor
  refine (performs_create document (.text "")).bind fun anchor created added => ?_
  have there := added.site site
  have parent : created.parent last = some place.parent := by
    have has := site.around last (List.mem_append_left _ (List.mem_of_getLast? final))
    rw [Document.parent, added.moves.kept last has id, ← Document.parent, inside]
  have next := there.nextSibling final parent
  refine .get fun stage same _ => ?_
  subst same
  simp only [parent, next]
  refine (performs_insertBefore there (added.loose site)).bind fun _ after inserted => .pure ?_
  exact .of_insert added.moves added.fresh inserted.1 (inserted.2.weaken fun node _ own =>
    own.imp_right fun same => by simp [same])

/-- An item is the last one before the next. -/
theorem Fits.last {updated : Outlet σ} {grown : Grove} (fits : updated.Fits grown)
    (site : Site document place grown) :
    (place.past grown.roots).before.getLast? = some updated.lastNode ∧
      document.parent updated.lastNode = some place.parent := by
  have last := fits.lastNode
  refine ⟨?_, ?_⟩
  · rw [Place.past, List.getLast?_append, last]
    rfl
  · exact site.bears.parent_of_root (List.mem_of_getLast? last)

/-- Outlets for the items of a list: some are there already, some are missing, and some are in
excess. -/
theorem simulates_showItems (renews : Renews sort related update content) (part item : Nat)
    {last : NodeId} {outlets : List (Outlet σ)} (fits : AllFit outlets grove)
    (proper : ∀ value ∈ values, value.Proper sort) (site : Site document place grove)
    (final : place.before.getLast? = some last)
    (inside : document.parent last = some place.parent) :
    Simulates related (showItems update part item last outlets values)
      (Reading.items (content part) values) document
      fun updated forest after => ∃ grown,
        Regrown place document grove after grown ∧ AllFit updated grown ∧
          grown.forest = forest := by
  induction values generalizing item last outlets grove document place with
  | nil =>
    cases fits with
    | nil => exact .pure ⟨.nil, .refl site, .nil, rfl⟩
    | cons here there =>
      unfold showItems
      refine .noting (.perform ((AllFit.cons here there).performs_dropAll site)
        fun _ after dropped => .pure ?_)
      exact ⟨.nil, dropped, .nil, rfl⟩
  | cons value values ih =>
    have properFirst := proper value List.mem_cons_self
    have properRest := fun value member => proper value (List.mem_cons_of_mem _ member)
    -- Once the first item is there, the others come behind the last of its nodes.
    have further : ∀ {first : Outlet σ} {forest : Forest} {between : Document}
        {segment behind : Grove} {outlets : List (Outlet σ)},
        Regrown place document grove between (segment ++ behind) → first.Fits segment →
        segment.forest = forest → AllFit outlets behind →
        Simulates related
          (showItems update part (item + 1) first.lastNode outlets values >>= fun rest =>
            pure (first :: rest))
          (Reading.items (content part) values >>= fun more => pure (forest ++ more)) between
          fun updated forest after => ∃ grown,
            Regrown place document grove after grown ∧ AllFit updated grown ∧
              grown.forest = forest := by
      intro first forest between segment behind outlets regrown held looks there
      have last := held.last regrown.site.left
      refine (ih (item + 1) there properRest regrown.site.right last.1 last.2).bind
        fun rest more after ⟨grown, regrownRest, fits, looksRest⟩ => .pure ?_
      exact ⟨_, regrown.trans (regrownRest.right regrown.site), .cons held fits,
        by rw [Grove.forest_append, looks, looksRest]⟩
    cases fits with
    | nil =>
      unfold showItems Reading.items
      refine .perform (performs_makeAnchor site final inside part item) fun anchor made leaf => ?_
      refine (renews part properFirst .vacant leaf.site).bind
        fun first forest between ⟨_, segment, regrown, held, looks⟩ => ?_
      refine further ?_ held looks .nil
      rw [Grove.append_nil]
      exact leaf.trans regrown
    | cons here there =>
      unfold showItems Reading.items
      refine (renews part properFirst here site.left).bind
        fun first forest between ⟨_, segment, regrown, held, looks⟩ => ?_
      exact further (regrown.left site) held looks there

/-- A list, in the outlets that are there if a list was shown before. -/
theorem simulates_showList (renews : Renews sort related update content)
    (fits : outlet.Fits grove) (site : Site document place grove)
    (proper : ∀ value ∈ values, value.Proper sort) (part : Nat) :
    Simulates related (showList update part outlet values)
      (do
        let inside ← Reading.items (content part) values
        pure (.text "" :: inside)) document
      (Settles place document grove outlet) := by
  -- Whatever the anchor has behind it, items are shown in its place.
  have behind : ∀ {anchor : NodeId} {below : Grove} {outlets : List (Outlet σ)}
      {between : Document}, anchor = outlet.anchor → AllFit outlets below →
      Regrown place document grove between (.cons anchor (.text "") .nil below) →
      Simulates related
        (items anchor <$> showItems update part 0 anchor outlets values)
        (do
          let inside ← Reading.items (content part) values
          pure (.text "" :: inside)) between
        (Settles place document grove outlet) := by
    intro anchor below outlets between same held regrown
    have site := regrown.site
    rw [map_eq_pure_bind]
    refine (simulates_showItems renews part 0 held proper site.tail (by simp [Place.past])
      (parent_of_cell? site.bears.1)).bind fun updated inside after ⟨grown, more, held, looks⟩ =>
        .pure ⟨same, _, regrown.trans (more.tail site), .items held, by rw [← looks]; rfl⟩
  have anew : Simulates related
      (do
        liftM outlet.clear
        items outlet.anchor <$> showItems update part 0 outlet.anchor [] values)
      (do
        let inside ← Reading.items (content part) values
        pure (.text "" :: inside)) document
      (Settles place document grove outlet) :=
    .perform (fits.performs_clear site) fun _ cleared leaf => behind rfl .nil leaf
  unfold showList
  cases fits with
  | items held => exact behind rfl held (.refl site)
  | _ => exact anew

end

/-! ## All values -/

theorem simulates_showText {outlet : Outlet σ} (fits : outlet.Fits grove)
    (site : Site document place grove) (data : String) :
    Simulates related (liftM (outlet.showText data)) (pure [.text data] : ReadM τ Forest) document
      (Settles place document grove outlet) :=
  .performed (performs_showText fits site data) fun _ _ ⟨anchor, fits, shown⟩ =>
    ⟨anchor, _, shown, fits, rfl⟩

theorem simulates_vacate {outlet : Outlet σ} (fits : outlet.Fits grove)
    (site : Site document place grove) {part depth : Nat} {error : ResolutionError} :
    Simulates related
      (do
        report part depth error
        liftM outlet.vacate)
      (do
        Reading.complain part depth error
        pure [.text ""] : ReadM τ Forest) document
      (Settles place document grove outlet) := by
  refine .reporting (.performed (performs_vacate fits site)
    fun updated after ⟨same, vacated⟩ => ?_)
  subst same
  exact ⟨rfl, _, vacated, .vacant, rfl⟩

/-- An update of an outlet shows what is read. -/
theorem renews_update (alike : setting.environment.Alike sort related environment)
    (plain : setting.strategies = [])
    (laid : ∀ template, sort template →
      ∃ stencil : Stencil, template.blueprint = stencil.blueprint ∧ stencil.Distinct)
    {room : Nat} (within : room ≤ setting.config.depthLimit + 1) :
    Renews sort related (Outlet.update setting room)
      (Reading.content environment setting.config (setting.depthAt room)) := by
  induction room with
  | zero =>
    intro part outlet value document place grove proper fits site
    -- Without any room left, the depth is beyond the limit, and both give up.
    have deep : ¬ setting.depthAt 0 ≤ setting.config.depthLimit := by
      simp [Setting.depthAt]
    rw [Outlet.update, Reading.content, if_neg deep]
    exact simulates_vacate fits site
  | succ room ih =>
    intro part outlet value document place grove proper fits site
    -- With room left, the depth is within the limit, and what is inside is one level deeper.
    have shallow : setting.depthAt (room + 1) ≤ setting.config.depthLimit := by
      simp only [Setting.depthAt]
      omega
    have deeper : setting.depthAt (room + 1) + 1 = setting.depthAt room := by
      simp only [Setting.depthAt]
      omega
    have renews := ih (by omega)
    rw [Outlet.update, Reading.content, if_pos shallow, deeper]
    refine .follow (follows_resolve alike proper) fun resolved read outcomes => ?_
    cases outcomes with
    | error error => exact simulates_vacate fits site
    | @ok resolved _ holds =>
      obtain ⟨rfl, proper⟩ := holds
      cases resolved with
      | template template values =>
        cases proper with
        | primitive shape => cases shape
        | template sorted count inside =>
          obtain ⟨stencil, layout, distinct⟩ := laid template sorted
          exact simulates_showTemplate alike renews plain fits site layout distinct count inside
            part _
      | items values =>
        cases proper with
        | primitive shape => cases shape
        | items inside => exact simulates_showList renews fits site inside part
      | _ => exact simulates_showText fits site _

end Outlet

end LiveMarkup
