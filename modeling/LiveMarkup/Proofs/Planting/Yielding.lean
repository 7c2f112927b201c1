import LiveMarkup.Proofs.Planting.Fixtures

/-! # The parts of a bed with new values

`Tends` says of an update of single outlets that it comes to the tending of plots.  Along the nodes of
a bed this carries over to all parts of an instance, in order. -/

namespace LiveMarkup

open Document Markup

variable {σ τ : Type} {sort : Template → Prop} {related : σ → τ → Prop} {setting : Setting σ}
  {environment : Environment τ} {document : Document} {place : Place}

/-- An outlet has become that of a plot, and the document has been changed as told. -/
structure Plot.Yields (place : Place) (document : Document) (plot : Plot) (harvest : Harvest Plot)
    (updated : Outlet σ) (after : Document) : Prop where
  outlet : updated = harvest.result.outlet
  anchor : harvest.result.anchor = plot.anchor
  sound : harvest.result.Sound
  tilled : Tilled place document plot.grove harvest.next harvest.deeds after harvest.result.grove

/-- Bindings have become those of a bed, and the document has been changed as told. -/
structure Bed.Yields (place : Place) (document : Document) (bed : Bed) (harvest : Harvest Bed)
    (updated : List (Binding σ)) (after : Document) : Prop where
  bindings : updated = harvest.result.bindings
  roots : harvest.result.roots = bed.roots
  stencil : harvest.result.stencil = bed.stencil
  sound : harvest.result.Sound
  tilled : Tilled place document bed.grove harvest.next harvest.deeds after harvest.result.grove

/-- Updates of outlets come to the tending of plots with settled values. -/
def Tends (sort : Template → Prop) (related : σ → τ → Prop) (update : OutletUpdate σ)
    (settle : Nat → Value → ReadM τ Value) (tend : PlotUpdate) : Prop :=
  ∀ (part : Nat) {plot : Plot} {value : Value} {document : Document} {place : Place},
    value.Proper sort → plot.Sound → Site document place plot.grove →
    Simulates related (update part plot.outlet value) (settle part value) document
      fun updated settled after =>
        Plot.Yields place document plot (tend place.parent plot settled document.size) updated after

namespace Bed

@[simp] theorem tend_nil (update : PlotUpdate) (parent : NodeId) (bed : Bed) :
    bed.tend update parent [] = pure bed := by
  induction bed generalizing parent with
  | done => rfl
  | element node name space static attributes fixtures below rest ihBelow ihRest =>
    simp only [tend, Fixture.tendAll_nil, Fixture.dressAll_nil, List.drop_nil, ihBelow, ihRest]
    rfl
  | text node data rest ih | comment node data rest ih =>
    rw [tend, ih]
    rfl
  | gap plot rest ih => rfl

/-- The values of an element's attributes, of what is inside of it, and of what comes behind. -/
theorem tend_element (update : PlotUpdate) (parent node : NodeId) (name : String)
    (space : Option String) (static attributes : List (String × String)) {fixtures : List Fixture}
    {below rest : Bed} {own inner later : List Value}
    (ownFills : Fills fixtures.length own (inner ++ later))
    (innerFills : Fills below.stencil.count inner later)
    (enough : below.tend update node (inner ++ later) = below.tend update node inner) :
    (element node name space static attributes fixtures below rest).tend update parent
        (own ++ (inner ++ later)) =
      (do
        let fixtures' ← Fixture.tendAll node fixtures own
        let below ← below.tend update node inner
        let rest ← rest.tend update parent later
        pure (element node name space static (Fixture.dressAll fixtures own attributes) fixtures'
          below rest)) := by
  rw [tend, Fixture.tendAll_append ownFills, Fixture.dressAll_append ownFills, ← List.drop_drop,
    ownFills.drop, innerFills.drop, enough]

/-- Values in excess do not matter. -/
theorem tend_append (update : PlotUpdate) (parent : NodeId) {bed : Bed} {values more : List Value}
    (fills : Fills bed.stencil.count values more) :
    bed.tend update parent (values ++ more) = bed.tend update parent values := by
  obtain count | ⟨-, rfl⟩ := fills
  · induction bed generalizing parent values more with
    | done => rfl
    | element node name space static attributes fixtures below rest ihBelow ihRest =>
      simp only [stencil, Stencil.count, List.length_map] at count
      obtain ⟨own, others, rfl, ownCount, count⟩ := exists_append_of_length count
      obtain ⟨inner, later, rfl, innerCount, laterCount⟩ := exists_append_of_length count
      rw [List.append_assoc, List.append_assoc,
        tend_element _ _ _ _ _ _ _ (.inl ownCount) (.inl innerCount) (ihBelow node innerCount),
        tend_element _ _ _ _ _ _ _ (.inl ownCount) (.inl innerCount) (ihBelow node innerCount),
        ihRest parent laterCount]
    | text node data rest ih | comment node data rest ih => rw [tend, tend, ih parent count]
    | gap plot rest ih =>
      obtain _ | ⟨value, values⟩ := values
      · cases count
      · rw [List.cons_append, tend, tend, ih parent (Nat.succ.inj count)]
  · rw [List.append_nil]

end Bed

namespace Bed.Yields

variable {tend : PlotUpdate} {node : NodeId} {rest : Bed} {bindings more : List (Binding σ)}
  {between between' after : Document}

/-- The attributes of an element, what is inside of it and what comes behind are tended one after the
other. -/
theorem element {name : String} {space : Option String} {static attributes : List (String × String)}
    {fixtures : List Fixture} {below : Bed} {own inner later : List Value}
    (ownFills : Fills fixtures.length own (inner ++ later))
    (innerFills : Fills below.stencil.count inner later)
    (ownTilled :
      let harvest := Fixture.tendAll node fixtures own document.size
      Tilled place document (.cons node (.element name space attributes) below.grove rest.grove)
        harvest.next harvest.deeds between
        (.cons node (.element name space (Fixture.dressAll fixtures own attributes)) below.grove
          rest.grove))
    (innerYields :
      Bed.Yields
        (.inside node (.element name space (Fixture.dressAll fixtures own attributes))
          (some place.parent))
        between below (below.tend tend node inner between.size) bindings between')
    (laterYields :
      Bed.Yields (place.past [node]) between' rest (rest.tend tend place.parent later between'.size)
        more after) :
    Bed.Yields place document (.element node name space static attributes fixtures below rest)
      ((Bed.element node name space static attributes fixtures below rest).tend tend place.parent
        (own ++ (inner ++ later)) document.size)
      (Fixture.bindings node (Fixture.tendAll node fixtures own document.size).result ++
        (bindings ++ more)) after := by
  have tilled := ownTilled.trans (innerYields.tilled.inside ownTilled.site)
  rw [ownTilled.size] at innerYields tilled
  rw [tilled.size] at laterYields
  rw [tend_element _ _ _ _ _ _ _ ownFills innerFills (tend_append _ _ innerFills)]
  simp only [Tend.bind_apply, Tend.pure_apply, List.append_nil]
  constructor
  case bindings => rw [innerYields.bindings, laterYields.bindings]; rfl
  case roots => exact congrArg (node :: ·) laterYields.roots
  case stencil =>
    rw [Bed.stencil, Bed.stencil, Stencil.element.injEq]
    exact ⟨rfl, rfl, rfl, Fixture.names_tendAll node fixtures own _, innerYields.stencil,
      laterYields.stencil⟩
  case sound => exact ⟨innerYields.sound, laterYields.sound⟩
  case tilled =>
    have all := tilled.trans (laterYields.tilled.tail tilled.site)
    rw [List.append_assoc] at all
    exact all

/-- A plot is tended with the first value, and what comes behind with the others. -/
theorem gap {plot : Plot} {first : Value} {others : List Value} {outlet : Outlet σ}
    (site : Site document place (Bed.gap plot rest).grove)
    (yields : Plot.Yields (place.facing rest.grove.roots) document plot
      (tend place.parent plot first document.size) outlet between)
    (later : Bed.Yields
      (place.past (tend place.parent plot first document.size).result.grove.roots) between rest
      (rest.tend tend place.parent others between.size) more after) :
    Bed.Yields place document (.gap plot rest)
      ((Bed.gap plot rest).tend tend place.parent (first :: others) document.size)
      (.outlet outlet :: more) after := by
  have tilled := yields.tilled.left site
  rw [tilled.size] at later
  simp only [Bed.tend, Tend.bind_apply, Tend.pure_apply, List.append_nil]
  constructor
  case bindings => rw [yields.outlet, later.bindings]; rfl
  case roots => exact List.cons_eq_cons.mpr ⟨yields.anchor, later.roots⟩
  case stencil => exact congrArg Stencil.gap later.stencil
  case sound => exact ⟨yields.sound, later.sound⟩
  case tilled => exact tilled.trans (later.tilled.right tilled.site)

end Bed.Yields

theorem simulates_bed (alike : setting.environment.Alike sort related environment)
    {update : OutletUpdate σ} {settle : Nat → Value → ReadM τ Value} {tend : PlotUpdate}
    (tends : Tends sort related update settle tend) (depth : Nat) {bed : Bed} (sound : bed.Sound)
    {values : List Value} (proper : ∀ value ∈ values, value.Proper sort) {document : Document}
    {place : Place} (site : Site document place bed.grove) (path : Path) (child index : Nat) :
    Simulates related
      (updateBindings setting update depth index bed.bindings (bed.stencil.partsAt path child)
        values)
      (Settling.parts environment setting.config settle depth index
        (bed.stencil.partsAt path child) values) document
      fun updated settled after => settled.length = min bed.stencil.count values.length ∧
        Bed.Yields place document bed (bed.tend tend place.parent settled document.size) updated
          after := by
  induction bed generalizing values document place path child index with
  | done =>
    simp only [Bed.stencil, Stencil.partsAt, Bed.bindings, updateBindings, Settling.parts]
    exact .pure ⟨by simp [Stencil.count], rfl, rfl, rfl, trivial, .refl site⟩
  | element node name space static attributes fixtures below rest ihBelow ihRest =>
    obtain ⟨soundBelow, soundRest⟩ := sound
    have properBehind := Value.proper_drop proper
    simp only [Bed.stencil, Stencil.partsAt, Bed.bindings]
    rw [updateBindings_split _ _ _ _ (by simp), Settling.parts_append,
      updateBindings_split _ _ _ _ (by simp), Settling.parts_append]
    simp only [bind_assoc, pure_bind, Stencil.length_boundParts, Stencil.length_partsAt,
      List.length_map]
    -- The attributes come first, then what is inside of the element, and then what is behind it,
    -- each with its share of the values.
    refine (simulates_fixtures alike update settle depth (path ++ [child])
      (Value.proper_take proper _) site index).bind fun _ own between attended => ?_
    obtain ⟨ownCount, rfl, ownTilled⟩ := attended
    refine (ihBelow soundBelow (Value.proper_take (properBehind _) _) ownTilled.site.inside
      (path ++ [child]) 0 _).bind fun _ inner between' tended => ?_
    obtain ⟨innerCount, innerYields⟩ := tended
    have tilled := ownTilled.trans (innerYields.tilled.inside ownTilled.site)
    refine (ihRest soundRest (Value.proper_drop (properBehind _) _) tilled.site.tail path (child + 1)
      _).bind fun _ later after finished => .pure ?_
    obtain ⟨laterCount, laterYields⟩ := finished
    simp only [List.length_take, List.length_drop] at ownCount innerCount laterCount
    -- If the values end early, nothing has been read for the parts behind.
    have ownFills : Fills fixtures.length own (inner ++ later) := by
      rw [Fills, List.append_eq_nil_iff, ← List.length_eq_zero_iff, ← List.length_eq_zero_iff]
      omega
    have innerFills : Fills below.stencil.count inner later := by
      rw [Fills, ← List.length_eq_zero_iff]
      omega
    refine ⟨?_, .element ownFills innerFills ownTilled innerYields laterYields⟩
    simp only [List.length_append, Stencil.count, List.length_map]
    omega
  | text node data rest ih =>
    refine (ih sound proper site.tail path (child + 1) index).mono
      fun updated settled after tended => ?_
    obtain ⟨count, yields⟩ := tended
    exact ⟨count, yields.bindings, congrArg (node :: ·) yields.roots,
      congrArg (Stencil.text data) yields.stencil, yields.sound, yields.tilled.tail site⟩
  | comment node data rest ih =>
    refine (ih sound proper site.tail path (child + 1) index).mono
      fun updated settled after tended => ?_
    obtain ⟨count, yields⟩ := tended
    exact ⟨count, yields.bindings, congrArg (node :: ·) yields.roots,
      congrArg (Stencil.comment data) yields.stencil, yields.sound, yields.tilled.tail site⟩
  | gap plot rest ih =>
    obtain ⟨soundPlot, soundRest⟩ := sound
    obtain _ | ⟨value, values⟩ := values
    · rw [updateBindings_nil]
      exact .pure ⟨by simp, rfl, rfl, rfl, ⟨soundPlot, soundRest⟩, .refl site⟩
    simp only [Bed.stencil, Stencil.partsAt, Bed.bindings, updateBindings, Settling.parts]
    refine .noting (.mapping ?_)
    refine (tends index (proper value List.mem_cons_self) soundPlot site.left).bind
      fun updated first between yields => ?_
    have tilled := yields.tilled.left site
    refine (ih soundRest (fun value member => proper value (List.mem_cons_of_mem _ member))
      tilled.site.right path (child + 1) (index + 1)).bind
        fun bindings others after tended => .pure ?_
    obtain ⟨count, more⟩ := tended
    exact ⟨by simp [Stencil.count, count], .gap site yields more⟩

end LiveMarkup
