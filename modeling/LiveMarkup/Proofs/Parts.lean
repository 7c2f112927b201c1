import LiveMarkup.Proofs.Attributes

/-! # The parts of one template

Updating the parts of an instance in order leaves the document with its template's forest and what is
read for the values in the gaps, provided that updates of single outlets do their share: `Renews`
says what that is.  The argument runs along the stencil of the template. -/

namespace LiveMarkup

open Document Markup

variable {σ τ : Type} {sort : Template → Prop} {related : σ → τ → Prop} {setting : Setting σ}
  {environment : Environment τ}

/-- What comes of an outlet: it keeps its anchor, and in place of its grove there is one that looks
like the given forest. -/
def Outlet.Settles (place : Place) (document : Document) (grove : Grove) (outlet updated : Outlet σ)
    (forest : Forest) (after : Document) : Prop :=
  updated.anchor = outlet.anchor ∧ ∃ grown,
    Regrown place document grove after grown ∧ updated.Fits grown ∧ grown.forest = forest

/-- Updates of outlets go along with a reading, and outlets come to look as it is read. -/
def Renews (sort : Template → Prop) (related : σ → τ → Prop) (update : OutletUpdate σ)
    (content : Nat → Value → ReadM τ Forest) : Prop :=
  ∀ (part : Nat) {outlet : Outlet σ} {value : Value} {document : Document} {place : Place}
    {grove : Grove}, value.Proper sort → outlet.Fits grove → Site document place grove →
    Simulates related (update part outlet value) (content part value) document
      (Outlet.Settles place document grove outlet)

/-! ## Parts in order -/

theorem updateBindings_append (update : OutletUpdate σ) (depth index : Nat)
    {first second : List (Binding σ)} {parts more : List Part} {values others : List Value}
    (bindings : first.length = parts.length) (count : values.length = parts.length) :
    updateBindings setting update depth index (first ++ second) (parts ++ more)
        (values ++ others) =
      (do
        let here ← updateBindings setting update depth index first parts values
        let there ← updateBindings setting update depth (index + parts.length) second more others
        pure (here ++ there)) := by
  induction parts generalizing first values index with
  | nil =>
    rw [List.length_nil, List.length_eq_zero_iff] at bindings count
    subst bindings count
    simp [updateBindings]
  | cons part parts ih =>
    obtain _ | ⟨binding, first⟩ := first
    · cases bindings
    obtain _ | ⟨value, values⟩ := values
    · cases count
    have later := @ih (index + 1) first values (Nat.succ.inj bindings) (Nat.succ.inj count)
    cases binding <;>
      simp only [List.cons_append, updateBindings, bind_assoc, pure_bind, later,
        List.length_cons, Nat.add_comm parts.length 1, Nat.add_assoc]

theorem Reading.fillings_append (config : Config) (content : Nat → Value → ReadM τ Forest)
    (depth index : Nat) {parts more : List Part} {values others : List Value}
    (count : values.length = parts.length) :
    Reading.fillings environment config content depth index (parts ++ more) (values ++ others) =
      (do
        let here ← Reading.fillings environment config content depth index parts values
        let there ←
          Reading.fillings environment config content depth (index + parts.length) more others
        pure (here ++ there)) := by
  induction parts generalizing values index with
  | nil =>
    rw [List.length_nil, List.length_eq_zero_iff] at count
    subst count
    simp [Reading.fillings]
  | cons part parts ih =>
    obtain _ | ⟨value, values⟩ := values
    · cases count
    have later := @ih (index + 1) values (Nat.succ.inj count)
    cases part <;>
      simp only [List.cons_append, Reading.fillings, bind_assoc, pure_bind, later,
        List.length_cons, Nat.add_comm parts.length 1, Nat.add_assoc]

theorem exists_append_of_length {α : Type} {values : List α} {first second : Nat}
    (count : values.length = first + second) :
    ∃ here there, values = here ++ there ∧ here.length = first ∧ there.length = second :=
  ⟨values.take first, values.drop first, (List.take_append_drop first values).symm,
    by simp; omega, by simp; omega⟩

theorem zipWith_bound_append {bound : List (String × String)} {fillings : List Filling}
    (count : fillings.length = bound.length) (more : List Filling) :
    List.zipWith (fun pair filling => (pair.1, filling.value)) bound (fillings ++ more) =
      List.zipWith (fun pair filling => (pair.1, filling.value)) bound fillings := by
  induction bound generalizing fillings with
  | nil => simp
  | cons pair bound ih =>
    obtain _ | ⟨filling, fillings⟩ := fillings
    · cases count
    simp [ih (Nat.succ.inj count)]

/-- The fillings of an element's attributes, of what is inside of it, and of what comes behind. -/
theorem Stencil.fill_element {name : String} {space : Option String}
    {static bound : List (String × String)} {below rest : Stencil}
    {own inner later : List Filling} (ownCount : own.length = bound.length)
    (innerCount : inner.length = below.count)
    (enough : below.fill (inner ++ later) = below.fill inner) :
    (element name space static bound below rest).fill (own ++ (inner ++ later)) =
      .element name space
          (static ++ List.zipWith (fun pair filling => (pair.1, filling.value)) bound own)
          (below.fill inner) :: rest.fill later := by
  rw [fill, zipWith_bound_append ownCount, ← ownCount, ← innerCount, List.drop_left, enough,
    ← List.length_append, ← List.append_assoc, List.drop_left]

/-- Only as many fillings count as there are parts. -/
theorem Stencil.fill_of_length {stencil : Stencil} {fillings : List Filling}
    (count : fillings.length = stencil.count) (more : List Filling) :
    stencil.fill (fillings ++ more) = stencil.fill fillings := by
  induction stencil generalizing fillings more with
  | done => rfl
  | element name space static bound below rest ihBelow ihRest =>
    obtain ⟨own, others, rfl, ownCount, count⟩ := exists_append_of_length count
    obtain ⟨inner, later, rfl, innerCount, laterCount⟩ := exists_append_of_length count
    rw [List.append_assoc, List.append_assoc,
      fill_element ownCount innerCount (ihBelow innerCount _),
      fill_element ownCount innerCount (ihBelow innerCount _), ihRest laterCount]
  | text data rest ih | comment data rest ih => simp [fill, ih count]
  | gap rest ih =>
    obtain _ | ⟨filling, fillings⟩ := fillings
    · cases count
    have later := ih (Nat.succ.inj count) more
    simp [fill, later]

/-- Wherever a stencil stands, updating its parts in order goes along with reading their fillings, and
leaves its forest with these. -/
def Stencil.Simulated (sort : Template → Prop) (related : σ → τ → Prop) (setting : Setting σ)
    (environment : Environment τ) (update : OutletUpdate σ) (content : Nat → Value → ReadM τ Forest)
    (depth : Nat) (stencil : Stencil) : Prop :=
  ∀ {bindings : List (Binding σ)} {grove : Grove} {roots : List NodeId} {values : List Value}
    {document : Document} {place : Place}, stencil.Fits bindings grove roots →
    values.length = stencil.count → (∀ value ∈ values, value.Proper sort) →
    Site document place grove → ∀ (path : Path) (child index : Nat),
    Simulates related
      (updateBindings setting update depth index bindings (stencil.partsAt path child) values)
      (Reading.fillings environment setting.config content depth index
        (stencil.partsAt path child) values) document
      fun updated fillings after => fillings.length = stencil.count ∧ ∃ grown,
        Regrown place document grove after grown ∧ stencil.Fits updated grown roots ∧
          grown.forest = stencil.fill fillings

namespace Stencil.Simulated

variable {update : OutletUpdate σ} {content : Nat → Value → ReadM τ Forest} {depth : Nat}
  {rest : Stencil}

/-- The attributes of an element come first, then the parts inside of it, and then those behind. -/
theorem element (alike : setting.environment.Alike sort related environment) {name : String}
    {space : Option String} {static bound : List (String × String)} {below : Stencil}
    (distinct : (static.map Prod.fst ++ bound.map Prod.fst).Nodup)
    (inside : below.Simulated sort related setting environment update content depth)
    (behind : rest.Simulated sort related setting environment update content depth) :
    (Stencil.element name space static bound below rest).Simulated sort related setting environment
      update content depth := by
  intro bindings grove roots values document place fits count proper site path child index
  cases fits with
  | @element _ _ _ _ shown _ _ node own inner later _ _ kids roots attributes children after =>
    obtain ⟨own', others, rfl, ownCount, count⟩ := exists_append_of_length count
    obtain ⟨inner', later', rfl, innerCount, laterCount⟩ := exists_append_of_length count
    obtain ⟨ownProper, proper⟩ := List.forall_mem_append.mp proper
    obtain ⟨innerProper, laterProper⟩ := List.forall_mem_append.mp proper
    rw [Stencil.partsAt, updateBindings_append _ _ _ (by simp [attributes.length])
        (by simp [ownCount]), Reading.fillings_append _ _ _ _ (by simp [ownCount]),
      updateBindings_append _ _ _ (by simp [children.length]) (by simp [innerCount]),
      Reading.fillings_append _ _ _ _ (by simp [innerCount])]
    simp only [bind_assoc, pure_bind]
    refine (simulates_attributes alike update content depth (path ++ [child]) attributes
      distinct ownCount ownProper site index).bind
        fun _ ownFillings between attended => ?_
    obtain ⟨own, same, ownLengths, attributes, set⟩ := attended
    subst same
    refine (inside children innerCount innerProper set.site.inside (path ++ [child]) 0 _).bind
      fun inner innerFillings between' tended => ?_
    obtain ⟨innerLengths, below', grownBelow, children, looks⟩ := tended
    have grownInside := set.trans (grownBelow.inside set.site)
    refine (behind after laterCount laterProper grownInside.site.tail path (child + 1) _).bind
      fun later laterFillings after' finished => ?_
    obtain ⟨laterLengths, rest', grownRest, after, looks'⟩ := finished
    refine .pure ⟨?_, _, grownInside.trans (grownRest.tail grownInside.site),
      .element attributes children after, ?_⟩
    · simp [Stencil.count, ownLengths, innerLengths, laterLengths]
    · rw [Stencil.fill_element ownLengths innerLengths
        (Stencil.fill_of_length innerLengths _), ← looks, ← looks']
      rfl

/-- The outlet in a gap is updated, and then the parts behind it. -/
theorem gap (renews : Renews sort related update content)
    (behind : rest.Simulated sort related setting environment update content depth) :
    (Stencil.gap rest).Simulated sort related setting environment update content depth := by
  intro bindings grove roots values document place fits count proper site path child index
  cases fits with
  | @gap _ outlet later segment _ roots held after =>
    obtain _ | ⟨value, values⟩ := values
    · cases count
    rw [Stencil.partsAt, updateBindings, Reading.fillings]
    refine .noting (.mapping ?_)
    refine (renews index (proper value List.mem_cons_self) held site.left).bind
      fun updated forest between renewed => ?_
    obtain ⟨anchor, segment', grownSegment, held, looks⟩ := renewed
    have grownHere := grownSegment.left site
    refine (behind after (Nat.succ.inj count)
      (fun value member => proper value (List.mem_cons_of_mem _ member)) grownHere.site.right path
      (child + 1) (index + 1)).bind
        fun later fillings after' finished => ?_
    obtain ⟨lengths, behind', grownBehind, after, looks'⟩ := finished
    refine .pure ⟨by simp [Stencil.count, lengths], _,
      grownHere.trans (grownBehind.right grownHere.site), ?_, ?_⟩
    · rw [← anchor]
      exact .gap held after
    · simp [Stencil.fill, looks, looks']

end Stencil.Simulated

/-- Updating the parts of a stencil in order leaves its forest with the fillings that are read. -/
theorem simulates_parts (alike : setting.environment.Alike sort related environment)
    {update : OutletUpdate σ} {content : Nat → Value → ReadM τ Forest}
    (renews : Renews sort related update content) (depth : Nat) {stencil : Stencil}
    (distinct : stencil.Distinct) :
    stencil.Simulated sort related setting environment update content depth := by
  induction stencil with
  | done =>
    intro bindings grove roots values document place fits count proper site path child index
    cases fits
    obtain rfl := List.length_eq_zero_iff.mp count
    rw [Stencil.partsAt, updateBindings, Reading.fillings]
    · exact .pure ⟨rfl, .nil, .refl site, .done, rfl⟩
    all_goals simp
  | element name space static bound below rest ihBelow ihRest =>
    obtain ⟨distinctHere, distinctBelow, distinctRest⟩ := distinct
    exact Stencil.Simulated.element alike distinctHere (ihBelow distinctBelow) (ihRest distinctRest)
  | text data rest ih =>
    intro bindings grove roots values document place fits count proper site path child index
    cases fits with
    | text after =>
      refine (ih distinct after count proper site.tail path (child + 1) index).mono
        fun updated fillings later finished => ?_
      obtain ⟨lengths, grown, regrown, fits, looks⟩ := finished
      exact ⟨lengths, _, regrown.tail site, .text fits, by simp [looks, Stencil.fill, NodeData.node]⟩
  | comment data rest ih =>
    intro bindings grove roots values document place fits count proper site path child index
    cases fits with
    | comment after =>
      refine (ih distinct after count proper site.tail path (child + 1) index).mono
        fun updated fillings later finished => ?_
      obtain ⟨lengths, grown, regrown, fits, looks⟩ := finished
      exact ⟨lengths, _, regrown.tail site, .comment fits,
        by simp [looks, Stencil.fill, NodeData.node]⟩
  | gap rest ih => exact Stencil.Simulated.gap renews (ih distinct)

/-- Updating an instance leaves it with the forest that is read for its template. -/
theorem simulates_instance (alike : setting.environment.Alike sort related environment)
    {update : OutletUpdate σ} {content : Nat → Value → ReadM τ Forest}
    (renews : Renews sort related update content) (depth : Nat) {inner : Instance σ}
    {grove : Grove} (fits : inner.Fits grove) {values : List Value}
    (count : values.length = inner.template.blueprint.parts.length)
    (proper : ∀ value ∈ values, value.Proper sort) {document : Document} {place : Place}
    (site : Site document place grove) :
    Simulates related (inner.update setting update depth values)
      (Reading.template environment setting.config content depth inner.template values) document
      fun updated forest after => updated.template = inner.template ∧ ∃ grown,
        Regrown place document grove after grown ∧ updated.Fits grown ∧ grown.forest = forest := by
  cases fits with
  | @mk template stencil roots bindings _ layout distinct held =>
    have parts : template.blueprint.parts = stencil.partsAt [] 0 := by rw [layout]; rfl
    simp only [Instance.template, parts, Stencil.length_partsAt] at count
    simp only [Instance.update, Reading.template, Instance.template, Instance.bindings, parts]
    refine (simulates_parts alike renews depth distinct held count proper site [] 0 0).bind
      fun updated fillings after finished => .pure ?_
    obtain ⟨lengths, grown, regrown, held, looks⟩ := finished
    refine ⟨rfl, grown, regrown, .mk layout distinct held, ?_⟩
    rw [layout, Stencil.weave_blueprint, looks]

end LiveMarkup
