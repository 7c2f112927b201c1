import LiveMarkup.Proofs.Catalogs
import LiveMarkup.Proofs.Copying

/-! # What workshops keep to

However a program uses the catalogs of a workshop, a literal has one template in a catalog from the
first time that it compiles until the catalog is cleared, and no other literal and no other catalog
has the same one (`Workshop.keeps`).

What becomes of a catalog is a matter of the requests to it, so the catalogs can be followed one by
one (`Workshop.catalog?_after`). -/

namespace LiveMarkup

/-! ## Parts and bindings -/

section

variable {σ : Type}

theorem Instance.length_bindAll {strategies : List (Strategy σ)} {stage : Stage}
    {roots : List NodeId} {index : Nat} {parts : List Part} {bindings : List (Binding σ)}
    (bound : bindAll strategies stage roots index parts = .ok bindings) :
    bindings.length = parts.length := by
  induction parts generalizing index bindings with
  | nil =>
    cases bound
    rfl
  | cons part parts ih =>
    obtain ⟨node, rest, -, later, rfl⟩ := bindAll_cons_eq_ok.mp bound
    exact congrArg (· + 1) (ih later)

theorem length_updateBindings (setting : Setting σ) (update : OutletUpdate σ) (depth index : Nat)
    (bindings : List (Binding σ)) (parts : List Part) (values : List Value)
    (diagnostics : Array Diagnostic) (world : σ) (stage : Stage) :
    ((((updateBindings setting update depth index bindings parts values).run diagnostics).run
      world).run stage).1.1.1.length = bindings.length := by
  induction bindings generalizing index parts values diagnostics world stage with
  | nil => rfl
  | cons binding bindings ih =>
    cases parts with
    | nil => rfl
    | cons part parts =>
      cases values with
      | nil => rfl
      | cons value values => cases binding <;> exact congrArg (· + 1) (ih _ _ _ _ _ _)

/-- The instances that are made of a template, and what updates of any kind make of them. -/
inductive Instance.Of (template : Template) : Instance σ → Prop where
  | made {strategies : List (Strategy σ)} {stage : Stage} {inner : Instance σ}
      (making : ((Instance.make strategies template).run stage).1 = .ok inner) : Of template inner
  | updated {inner : Instance σ} (before : Of template inner) (setting : Setting σ)
      (update : OutletUpdate σ) (depth : Nat) (values : List Value)
      (diagnostics : Array Diagnostic) (world : σ) (stage : Stage) :
      Of template
        ((((inner.update setting update depth values).run diagnostics).run world).run stage).1.1.1

/-- An instance has a binding for each part of its template. -/
theorem Instance.Of.length_bindings {template : Template} {inner : Instance σ}
    (of : Instance.Of template inner) :
    inner.bindings.length = template.blueprint.parts.length := by
  induction of with
  | made making =>
    obtain ⟨_, _, bound⟩ := bindAll_of_make making
    exact length_bindAll bound
  | updated before setting update depth values diagnostics world stage ih =>
    exact (length_updateBindings ..).trans ih

end

/-! ## Workshops -/

namespace Workshop

variable {segments : LiteralId → List String} {workshop : Workshop} {place : Nat}
  {request : Request} {requests : List Request} {id : LiteralId}

/-- What a workshop makes of a request: the template that is asked for, if there is such a catalog,
and the workshop afterwards. -/
def serve (segments : LiteralId → List String) (workshop : Workshop) :
    Request → Option (Except LiteralError Template) × Workshop
  | .template place id => workshop.template place ⟨id, segments id⟩
  | .html place id values =>
    let outcome := workshop.html place ⟨id, segments id⟩ values
    (outcome.1.map (·.map (·.template)), outcome.2)
  | .clear place => (none, workshop.clear place)

/-- The workshop after requests to its catalogs. -/
def after (segments : LiteralId → List String) (workshop : Workshop) (requests : List Request) :
    Workshop :=
  requests.foldl (fun workshop request => (workshop.serve segments request).2) workshop

/-- A request is served by the catalog that it names. -/
theorem serve_fst (workshop : Workshop) (request : Request) :
    (workshop.serve segments request).1 =
      (workshop.catalog? request.place).bind fun catalog => (catalog.serve segments request).1 := by
  cases request with
  | template place id =>
    dsimp only [serve, template, Request.place]
    cases workshop.catalog? place <;> rfl
  | html place id values =>
    dsimp only [serve, html, htmlRecorded, Request.place]
    cases workshop.catalog? place <;> rfl
  | clear place =>
    cases found : workshop.catalog? place <;> simp [serve, Request.place, found, Catalog.serve]

theorem catalog?_setCatalog (workshop : Workshop) {catalog : Catalog} (place other : Nat)
    (found : workshop.catalog? place = some catalog) (changed : Catalog) :
    (workshop.setCatalog place changed).catalog? other =
      (workshop.catalog? other).map fun catalog => if place = other then changed else catalog := by
  unfold setCatalog catalog? at *
  obtain ⟨inside, -⟩ := List.getElem?_eq_some_iff.mp found
  rw [List.getElem?_set]
  by_cases same : place = other
  · subst same
    simp [inside]
  · simp [same]

/-- Only the catalog that a request names is concerned by it. -/
theorem catalog?_serve (workshop : Workshop) (request : Request) (place : Nat) :
    (workshop.serve segments request).2.catalog? place =
      (workshop.catalog? place).map fun catalog =>
        if request.place = place then (catalog.serve segments request).2 else catalog := by
  have unknown (absent : workshop.catalog? request.place = none) : workshop.catalog? place =
      (workshop.catalog? place).map fun catalog =>
        if request.place = place then (catalog.serve segments request).2 else catalog := by
    by_cases same : request.place = place
    · rw [← same, absent]
      rfl
    · simp [same]
  have known {catalog : Catalog} (found : workshop.catalog? request.place = some catalog) :
      (workshop.setCatalog request.place (catalog.serve segments request).2).catalog? place =
        (workshop.catalog? place).map fun catalog =>
          if request.place = place then (catalog.serve segments request).2 else catalog := by
    rw [catalog?_setCatalog _ _ _ found]
    by_cases same : request.place = place
    · rw [← same, found]
      simp
    · simp [same]
  cases found : workshop.catalog? request.place with
  | none =>
    have same := unknown found
    cases request <;>
    · simp only [Request.place] at found same ⊢
      simpa only [serve, template, html, htmlRecorded, clear, found] using same
  | some catalog =>
    have same := known found
    cases request <;>
    · simp only [Request.place] at found same ⊢
      simp only [serve, template, html, htmlRecorded, clear, found]
      exact same

theorem catalog?_after (workshop : Workshop) (requests : List Request) (place : Nat) :
    (workshop.after segments requests).catalog? place =
      (workshop.catalog? place).map (Catalog.after segments place · requests) := by
  induction requests generalizing workshop with
  | nil => simp [after]
  | cons request requests ih =>
    have later := ih (workshop.serve segments request).2
    rw [catalog?_serve, Option.map_map] at later
    exact later

theorem catalog?_ofParsers (parsers : List Parser) (place : Nat) :
    (ofParsers parsers).catalog? place = parsers[place]?.map (Catalog.empty place) := by
  simp [ofParsers, catalog?]

theorem after_append (workshop : Workshop) (first second : List Request) :
    workshop.after segments (first ++ second) =
      (workshop.after segments first).after segments second :=
  List.foldl_append

/-- After requests, each catalog is sound and has its own place and parser. -/
theorem exists_catalog_after {parsers : List Parser} {catalog : Catalog}
    (found : ((ofParsers parsers).after segments requests).catalog? place = some catalog) :
    ∃ parser, parsers[place]? = some parser ∧
      catalog = (Catalog.empty place parser).after segments place requests ∧
      catalog.Sound segments ∧ catalog.name = place ∧ catalog.parser = parser := by
  rw [catalog?_after, catalog?_ofParsers, Option.map_map] at found
  obtain ⟨parser, known, rfl⟩ := Option.map_eq_some_iff.mp found
  have same := @Catalog.after_same segments (.empty place parser) place requests
  exact ⟨parser, known, rfl, (Catalog.sound_empty place parser).after place requests, same⟩

/-! ## All catalogs -/

/-- After earlier requests, a request to the catalog at a place gives the template of a literal. -/
structure Gives (segments : LiteralId → List String) (workshop : Workshop) (earlier : List Request)
    (request : Request) (place : Nat) (id : LiteralId) (template : Template) : Prop where
  used : request.use? = some (place, id)
  given : ((workshop.after segments earlier).serve segments request).1 = some (.ok template)

theorem Gives.exists_catalog {earlier : List Request} {template : Template}
    (gives : workshop.Gives segments earlier request place id template) :
    ∃ catalog, (workshop.after segments earlier).catalog? place = some catalog ∧
      (catalog.serve segments request).1 = some (.ok template) := by
  have given := gives.given
  rw [serve_fst, Catalog.serve_place_eq gives.used] at given
  exact Option.bind_eq_some_iff.mp given

/-- Two requests give the same template if they are for the same literal in the same catalog, and it
has not been cleared in between. -/
theorem identical_iff {parsers : List Parser} {before between : List Request}
    {first second : Request} {place place' : Nat} {id id' : LiteralId}
    {template template' : Template}
    (gives : (ofParsers parsers).Gives segments before first place id template)
    (again : (ofParsers parsers).Gives segments (before ++ first :: between) second place' id'
      template') :
    (template = template' ↔ place = place' ∧ id = id' ∧ .clear place ∉ between) ∧
      (template.id = template'.id ↔ place = place' ∧ id = id' ∧ .clear place ∉ between) := by
  suffices identical : (template.id = template'.id →
      place = place' ∧ id = id' ∧ .clear place ∉ between) ∧
      (place = place' ∧ id = id' ∧ .clear place ∉ between → template = template') from
    ⟨⟨fun same => identical.1 (congrArg Template.id same), identical.2⟩,
      ⟨identical.1, fun kept => congrArg Template.id (identical.2 kept)⟩⟩
  obtain ⟨catalog, found, given⟩ := gives.exists_catalog
  obtain ⟨catalog', found', given'⟩ := again.exists_catalog
  obtain ⟨parser, -, -, sound, name, -⟩ := exists_catalog_after found
  obtain ⟨parser', -, -, sound', name', -⟩ := exists_catalog_after found'
  have known := Catalog.lookup_of_serve gives.used given
  have known' := Catalog.lookup_of_serve again.used given'
  have served := sound.serve first
  have served' := sound'.serve second
  have here : template.id.catalog = place :=
    (served.named _ (Catalog.mem_of_lookup known)).trans ((catalog.serve_same first).1.trans name)
  have there : template'.id.catalog = place' :=
    (served'.named _ (Catalog.mem_of_lookup known')).trans
      ((catalog'.serve_same second).1.trans name')
  by_cases one : place = place'
  · subst one
    -- The second request is to the catalog that the first one has left.
    have follows : catalog' =
        (catalog.serve segments first).2.after segments place between := by
      rw [after_append, catalog?_after, found, Option.map_some, Catalog.after_cons,
        if_pos (Catalog.serve_place_eq gives.used)] at found'
      exact (Option.some.inj found').symm
    -- A template made after clearing has a serial number that no earlier one of the catalog has.
    by_cases cleared : .clear place ∈ between
    · have since : catalog'.Since (template.id.serial + 1) :=
        follows ▸ Catalog.since_of_clear (served.made _ (Catalog.mem_of_lookup known)) cleared
      have later := (since.serve second).2 _ (Catalog.mem_of_lookup known')
      refine ⟨fun equal => ?_, fun kept => absurd cleared kept.2.2⟩
      rw [← equal] at later
      exact absurd later (Nat.lt_irrefl _)
    · have kept : catalog'.templates.lookup id = some template :=
        follows ▸ Catalog.lookup_after known cleared
      have still : (catalog'.serve segments second).2.templates.lookup id = some template :=
        Catalog.lookup_serve kept fun clears => by
          have used := again.used
          rw [clears] at used
          cases used
      refine ⟨fun equal => ⟨rfl, served'.literal_unique still known' equal, cleared⟩, ?_⟩
      rintro ⟨-, rfl, -⟩
      exact Option.some.inj (still.symm.trans known')
  · refine ⟨fun equal => absurd ?_ one, fun kept => absurd kept.1 one⟩
    rw [← here, ← there, equal]

/-- The literals that a catalog has given templates of since it was cleared are as many as it tells,
and each counts once. -/
theorem exists_literals {parsers : List Parser} {catalog : Catalog}
    (found : ((ofParsers parsers).after segments requests).catalog? place = some catalog) :
    ∃ literals : List LiteralId, literals.Nodup ∧ catalog.size = literals.length ∧
      ∀ id, id ∈ literals ↔ ∃ before request behind template,
        requests = before ++ request :: behind ∧
        (ofParsers parsers).Gives segments before request place id template ∧
        .clear place ∉ behind := by
  obtain ⟨parser, known, rfl, sound, -, -⟩ := exists_catalog_after found
  refine ⟨_, sound.literals, (List.length_map _).symm, fun id => ?_⟩
  have served (before : List Request) {request : Request} (here : request.place = place) :
      (((ofParsers parsers).after segments before).serve segments request).1 =
        (((Catalog.empty place parser).after segments place before).serve segments request).1 := by
    rw [serve_fst, here, catalog?_after, catalog?_ofParsers, known]
    rfl
  rw [Catalog.mem_literals_iff rfl]
  constructor
  · rintro ⟨before, request, behind, template, split, used, gives, kept⟩
    have given := (served before (Catalog.serve_place_eq used)).trans gives
    exact ⟨before, request, behind, template, split, ⟨used, given⟩, kept⟩
  · rintro ⟨before, request, behind, template, split, gives, kept⟩
    have given := (served before (Catalog.serve_place_eq gives.used)).symm.trans gives.given
    exact ⟨before, request, behind, template, split, gives.used, given, kept⟩

theorem html_fst (workshop : Workshop) (place : Nat) (literal : Literal) (values : List Value) :
    (workshop.html place literal values).1 =
      (workshop.catalog? place).map fun catalog => (catalog.html literal values).1 := by
  unfold html htmlRecorded
  cases workshop.catalog? place <;> rfl

theorem template_fst (workshop : Workshop) (place : Nat) (literal : Literal) :
    (workshop.template place literal).1 =
      (workshop.catalog? place).map fun catalog => (catalog.template literal).1 := by
  unfold template
  cases workshop.catalog? place <;> rfl

/-- A request that fails leaves all catalogs as they are. -/
theorem serve_failed {error : LiteralError}
    (fails : (workshop.serve segments request).1 = some (.error error)) :
    (workshop.serve segments request).2.catalogs = workshop.catalogs := by
  refine List.ext_getElem? fun place => ?_
  change (workshop.serve segments request).2.catalog? place = workshop.catalog? place
  rw [catalog?_serve]
  cases found : workshop.catalog? place with
  | none => rfl
  | some catalog =>
    rw [Option.map_some, Option.some.injEq]
    split
    · next here =>
      rw [serve_fst, here, found, Option.bind_some] at fails
      obtain ⟨_, -, served⟩ | ⟨_, id, -, ⟨error, served⟩ | ⟨template, -, served⟩ |
        ⟨blueprint, -, -, served⟩⟩ := catalog.serve_cases segments request <;>
          rw [served] at fails ⊢ <;> cases fails
    · rfl

/-- What a workshop with empty catalogs, one for each parser, keeps to. -/
structure Keeps (segments : LiteralId → List String) (parsers : List Parser) : Prop where
  /-- Two requests give the same template, or templates of one identity, exactly if they are for the
  same literal in the same catalog, and it has not been cleared in between. -/
  identical : ∀ before first between second place place' id id' template template',
    (ofParsers parsers).Gives segments before first place id template →
    (ofParsers parsers).Gives segments (before ++ first :: between) second place' id' template' →
      (template = template' ↔ place = place' ∧ id = id' ∧ .clear place ∉ between) ∧
      (template.id = template'.id ↔ place = place' ∧ id = id' ∧ .clear place ∉ between)
  /-- A result has a value for each part of its template, and an instance of the template has a
  binding for each of them, from its making on and through every update. -/
  paired : ∀ earlier place id values result,
    (((ofParsers parsers).after segments earlier).html place ⟨id, segments id⟩ values).1 =
      some (.ok result) →
    result.values = values ∧ result.values.length = result.template.blueprint.parts.length ∧
      ∀ (σ : Type) (inner : Instance σ), Instance.Of result.template inner →
        inner.bindings.length = result.values.length
  /-- The number of values is found fault with exactly if it is not the number of segments less one,
  and then nothing is compiled. -/
  counted : ∀ earlier place id values, place < parsers.length →
    ((∃ count given, (((ofParsers parsers).after segments earlier).html place ⟨id, segments id⟩
      values).1 = some (.error (.valueCount count given))) ↔
        (segments id).length ≠ values.length + 1) ∧
    ((segments id).length ≠ values.length + 1 →
      (((ofParsers parsers).after segments earlier).html place ⟨id, segments id⟩ values).1 =
        some (.error (.valueCount (segments id).length values.length)) ∧
      ((ofParsers parsers).after segments earlier).htmlEvents place ⟨id, segments id⟩ values = [])
  /-- A template is what the parser of the catalog makes of the literal, and where there is none the
  literal does not compile. -/
  compiled : ∀ earlier place id parser, parsers[place]? = some parser →
    ∃ answer, (((ofParsers parsers).after segments earlier).template place
        ⟨id, segments id⟩).1 = some answer ∧
      answer.map (·.blueprint) = Blueprint.compile parser (segments id) ∧
      ∀ values : List Value, (segments id).length = values.length + 1 →
        (((ofParsers parsers).after segments earlier).html place ⟨id, segments id⟩ values).1 =
          some (answer.map fun template => { template, values })
  /-- A request that fails leaves all catalogs as they are. -/
  failed : ∀ earlier request error,
    (((ofParsers parsers).after segments earlier).serve segments request).1 =
      some (.error error) →
    (((ofParsers parsers).after segments earlier).serve segments request).2.catalogs =
      ((ofParsers parsers).after segments earlier).catalogs
  /-- A catalog tells the number of literals that have got a template since it was cleared. -/
  size : ∀ requests place catalog,
    ((ofParsers parsers).after segments requests).catalog? place = some catalog →
    ∃ literals : List LiteralId, literals.Nodup ∧ catalog.size = literals.length ∧
      ∀ id, id ∈ literals ↔ ∃ before request behind template,
        requests = before ++ request :: behind ∧
        (ofParsers parsers).Gives segments before request place id template ∧
        .clear place ∉ behind

theorem keeps (segments : LiteralId → List String) (parsers : List Parser) :
    Keeps segments parsers := by
  -- The catalog that a place with a parser has after requests.
  have present (earlier : List Request) {place : Nat} {parser : Parser}
      (known : parsers[place]? = some parser) :
      ∃ catalog, ((ofParsers parsers).after segments earlier).catalog? place = some catalog ∧
        catalog.Sound segments ∧ catalog.parser = parser := by
    have found : ((ofParsers parsers).after segments earlier).catalog? place = some
        ((Catalog.empty place parser).after segments place earlier) := by
      rw [catalog?_after, catalog?_ofParsers, known]
      rfl
    obtain ⟨_, also, -, sound, -, same⟩ := exists_catalog_after found
    rw [known] at also
    cases also
    exact ⟨_, found, sound, same⟩
  constructor
  case identical =>
    intro before first between second place place' id id' template template' gives again
    exact identical_iff gives again
  case paired =>
    intro earlier place id values result gives
    rw [html_fst] at gives
    obtain ⟨catalog, found, gives⟩ := Option.map_eq_some_iff.mp gives
    obtain ⟨parser, -, -, sound, -, -⟩ := exists_catalog_after found
    obtain ⟨fitting, template, asked, rfl⟩ := Catalog.html_eq_ok gives
    have fits : values.length = template.blueprint.parts.length :=
      Nat.succ.inj (fitting.symm.trans (sound.count_parts asked).symm)
    exact ⟨rfl, fits, fun σ inner of => of.length_bindings.trans fits.symm⟩
  case counted =>
    intro earlier place id values inside
    obtain ⟨catalog, found, sound, -⟩ := present earlier (List.getElem?_eq_getElem inside)
    rw [html_fst, found]
    simp only [Option.map_some, Option.some.injEq]
    refine ⟨catalog.html_eq_valueCount_iff id values sound, fun differ => ?_⟩
    refine ⟨catalog.html_unfit differ, ?_⟩
    simp only [htmlEvents, htmlRecorded, found, catalog.htmlRecorded_unfit differ, Recorded.map]
  case compiled =>
    intro earlier place id parser known
    obtain ⟨catalog, found, sound, rfl⟩ := present earlier known
    refine ⟨_, by rw [template_fst, found]; rfl, sound.map_template id, fun values fits => ?_⟩
    rw [html_fst, found, Option.map_some, catalog.html_fst_fit fits]
  case failed =>
    intro earlier request error fails
    exact serve_failed fails
  case size =>
    intro requests place catalog found
    exact exists_literals found

end Workshop

end LiveMarkup
