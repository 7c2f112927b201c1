import LiveMarkup.Proofs.Compilation
import LiveMarkup.Template.Workshop
import Mathlib.Data.List.Induction

/-! # What a catalog remembers

A catalog serves requests one after another.  `Catalog.serve_cases` says all that one request can do
to it, and what any number of them keep is proved from that: that what is remembered has been
compiled from the segments of its literal, that it is remembered until the catalog is cleared, and
that no template is made twice.

`Catalog.mem_literals_iff` reads the literals of a catalog off the requests: those that have been
given a template since the catalog was cleared. -/

namespace LiveMarkup

/-! ## Compiling does not count values -/

namespace Survey

variable {α β : Type}

/-- A survey that does not find fault with the number of values that a literal is given. -/
def Uncounting (action : Survey α) : Prop :=
  ∀ surveyor segments values, action surveyor ≠ .error (.valueCount segments values)

theorem uncounting_pure (result : α) : Uncounting (pure result) :=
  nofun

theorem Uncounting.bind {action : Survey α} {next : α → Survey β} (first : Uncounting action)
    (second : ∀ result, Uncounting (next result)) : Uncounting (action >>= next) := by
  intro surveyor segments values same
  change (action surveyor >>= fun pair => next pair.1 pair.2) = _ at same
  cases outcome : action surveyor with
  | error error =>
    rw [outcome] at same
    obtain rfl : error = _ := Except.error.inj same
    exact first surveyor segments values outcome
  | ok pair =>
    rw [outcome] at same
    exact second pair.1 pair.2 segments values same

theorem uncounting_refuse (place : Misplacement) : Uncounting (refuse place : Survey α) :=
  nofun

theorem uncounting_note (part : Part) : Uncounting (note part) :=
  nofun

theorem uncounting_throw {error : LiteralError} (other : ∀ segments values,
    error ≠ .valueCount segments values) : Uncounting (throw error : Survey α) := by
  intro surveyor segments values same
  exact other segments values (Except.error.inj same)

theorem uncounting_meet (found : Nat) : Uncounting (meet found) := by
  rintro ⟨upcoming, parts⟩ segments values same
  cases upcoming with
  | nil => cases same
  | cons position rest =>
    change (if found = parts.length then (pure position : Survey Position)
      else throw (.outOfOrder parts.length found)) _ = _ at same
    split at same <;> cases same

theorem uncounting_sortOut (pairs : List (String × String)) : Uncounting (sortOut pairs) := by
  induction pairs with
  | nil => exact uncounting_pure _
  | cons pair pairs ih =>
    unfold sortOut
    split
    · exact ih.bind fun _ => uncounting_pure _
    · split
      · exact uncounting_refuse _
      split
      · exact uncounting_refuse _
      · exact ih.bind fun _ => uncounting_pure _

theorem uncounting_attributes (path : Path) (bound : List (String × Nat)) :
    Uncounting (attributes path bound) := by
  induction bound with
  | nil => exact uncounting_pure _
  | cons entry bound ih =>
    unfold attributes
    refine (uncounting_meet _).bind fun position => ?_
    split
    · split
      · exact (uncounting_note _).bind fun _ => ih
      · exact uncounting_throw nofun
    · exact uncounting_throw nofun

theorem uncounting_pieces (parent : Path) (index : Nat) (pieces : List Placeholder.Piece) :
    Uncounting (Survey.pieces parent index pieces) := by
  induction pieces generalizing index with
  | nil => exact uncounting_pure _
  | cons piece pieces ih =>
    cases piece with
    | run data => exact (ih _).bind fun _ => uncounting_pure _
    | placeholder found =>
      unfold Survey.pieces
      refine (uncounting_meet _).bind fun position => ?_
      split
      · exact (uncounting_note _).bind fun _ => (ih _).bind fun _ => uncounting_pure _
      · exact uncounting_throw nofun

mutual

theorem uncounting_node (parent : Path) (index : Nat) : ∀ tree : Markup.Node,
    Uncounting (node parent index tree)
  | .element name space pairs children => by
    unfold node
    split
    · exact uncounting_refuse _
    · exact (uncounting_sortOut _).bind fun _ => (uncounting_attributes _ _).bind fun _ =>
        (uncounting_nodes _ _ children).bind fun _ => uncounting_pure _
  | .text data => by
    unfold node
    split
    · exact uncounting_pieces _ _ _
    · exact uncounting_pure _
  | .comment data => by
    unfold node
    split
    · exact uncounting_refuse _
    · exact uncounting_pure _

theorem uncounting_nodes (parent : Path) (index : Nat) : ∀ trees : List Markup.Node,
    Uncounting (nodes parent index trees)
  | [] => uncounting_pure _
  | first :: rest => by
    unfold nodes
    exact (uncounting_node _ _ first).bind fun _ => (uncounting_nodes _ _ rest).bind fun _ =>
      uncounting_pure _

end

end Survey

theorem SegmentReader.positionsFrom_ne_valueCount {reader : SegmentReader}
    {index count values : Nat} (segments : List (List Char)) :
    reader.positionsFrom index segments ≠ .error (.valueCount count values) := by
  fun_induction SegmentReader.positionsFrom reader index segments with
  | case1 => nofun
  | case2 reader index segment next rest reader' position placed ih =>
    intro same
    rcases outcome : SegmentReader.positionsFrom _ (index + 1) (next :: rest) with error | places
    · rw [outcome] at same ih
      exact ih same
    · rw [outcome] at same
      cases same
  | case3 => nofun

/-- Whether a literal compiles has nothing to do with the values that it is used with. -/
theorem Blueprint.compile_ne_valueCount (parser : Parser) (segments : List String)
    (count values : Nat) :
    Blueprint.compile parser segments ≠ .error (.valueCount count values) := by
  intro same
  rw [Blueprint.compile_eq] at same
  cases placed : positions segments with
  | error error =>
    rw [placed] at same
    obtain rfl : error = _ := Except.error.inj same
    unfold positions at placed
    dsimp only at placed
    split at placed
    · cases placed
    split at placed
    · cases placed
    · exact SegmentReader.positionsFrom_ne_valueCount _ placed
  | ok places =>
    rw [placed] at same
    cases parsed : parser.parse (Placeholder.join segments) with
    | error message =>
      rw [parsed] at same
      cases same
    | ok forest =>
      rw [parsed] at same
      simp only [Except.bind, Except.mapError] at same
      unfold Blueprint.survey at same
      have uncounting := Survey.uncounting_nodes [] 0 forest ⟨places, []⟩ count values
      simp only [bind, Except.bind, StateT.run] at same
      split at same
      · next error outcome =>
        obtain rfl : error = _ := Except.error.inj same
        exact uncounting outcome
      · split at same <;> cases same

/-! ## One catalog -/

/-- A request to one of the catalogs of a workshop, which are named by their places. -/
inductive Request where
  /-- Looks for the template of a literal. -/
  | template (place : Nat) (literal : LiteralId)
  /-- Uses a literal with values. -/
  | html (place : Nat) (literal : LiteralId) (values : List Value)
  | clear (place : Nat)

namespace Request

def place : Request → Nat
  | template place _ | html place _ _ | clear place => place

/-- The catalog and the literal of a request that uses one. -/
def use? : Request → Option (Nat × LiteralId)
  | template place literal | html place literal _ => some (place, literal)
  | clear _ => none

end Request

namespace Catalog

variable {segments : LiteralId → List String} {catalog : Catalog} {place : Nat} {request : Request}
  {requests : List Request} {id other : LiteralId} {template template' : Template}

/-- The template that is made of a literal. -/
def fresh (catalog : Catalog) (literal : Literal) (blueprint : Blueprint) : Template where
  id := { catalog := catalog.name, serial := catalog.made }
  literal := literal.id
  segments := literal.segments
  blueprint := blueprint

/-- The catalog with a template that has just been made. -/
def keep (catalog : Catalog) (template : Template) : Catalog :=
  { catalog with
    made := catalog.made + 1
    templates := (template.literal, template) :: catalog.templates }

/-- A template is remembered, or cannot be made, or is made. -/
theorem template_cases (catalog : Catalog) (literal : Literal) :
    (∃ template, catalog.templates.lookup literal.id = some template ∧
      catalog.template literal = (.ok template, catalog)) ∨
    catalog.templates.lookup literal.id = none ∧
      ((∃ error, Blueprint.compile catalog.parser literal.segments = .error error ∧
        catalog.template literal = (.error error, catalog)) ∨
      ∃ blueprint, Blueprint.compile catalog.parser literal.segments = .ok blueprint ∧
        catalog.template literal =
          (.ok (catalog.fresh literal blueprint),
            catalog.keep (catalog.fresh literal blueprint))) := by
  unfold template templateRecorded Blueprint.compile
  cases known : catalog.templates.lookup literal.id with
  | some template => exact .inl ⟨template, rfl, rfl⟩
  | none =>
    refine .inr ⟨rfl, ?_⟩
    dsimp only
    cases compiled : (Blueprint.compileRecorded catalog.parser literal.segments).outcome with
    | error error => exact .inl ⟨error, rfl, rfl⟩
    | ok blueprint => exact .inr ⟨blueprint, rfl, rfl⟩

theorem fits_iff {values : List Value} :
    fits ⟨id, segments id⟩ values = true ↔ (segments id).length = values.length + 1 :=
  beq_iff_eq

/-- A use of a literal with as many values as it takes looks for its template. -/
theorem htmlRecorded_fit (catalog : Catalog) {values : List Value}
    (fitting : (segments id).length = values.length + 1) :
    catalog.htmlRecorded ⟨id, segments id⟩ values =
      (catalog.templateRecorded ⟨id, segments id⟩).map fun (template, catalog) =>
        (template.map fun template => { template, values }, catalog) :=
  if_pos (fits_iff.mpr fitting)

/-- A use with more or fewer values is found fault with, and nothing is looked for or compiled. -/
theorem htmlRecorded_unfit (catalog : Catalog) {values : List Value}
    (differ : (segments id).length ≠ values.length + 1) :
    catalog.htmlRecorded ⟨id, segments id⟩ values =
      { outcome := (.error (.valueCount (segments id).length values.length), catalog)
        events := [] } :=
  if_neg (mt fits_iff.mp differ)

/-- A literal is compiled exactly if it has not got a template yet. -/
theorem compiling_mem_templateRecorded (catalog : Catalog) (literal : Literal) :
    .compiling ∈ (catalog.templateRecorded literal).events ↔
      catalog.templates.lookup literal.id = none := by
  unfold templateRecorded
  cases catalog.templates.lookup literal.id with
  | some template => simp
  | none =>
    have compiling := Blueprint.compiling_mem_events catalog.parser literal.segments
    simpa using compiling

/-- A use of a literal compiles it exactly if it has as many values as the literal takes, and the
literal has not got a template yet. -/
theorem compiling_mem_htmlRecorded (catalog : Catalog) (id : LiteralId) (values : List Value) :
    .compiling ∈ (catalog.htmlRecorded ⟨id, segments id⟩ values).events ↔
      (segments id).length = values.length + 1 ∧ catalog.templates.lookup id = none := by
  by_cases fitting : (segments id).length = values.length + 1
  · rw [catalog.htmlRecorded_fit fitting, and_iff_right fitting]
    exact catalog.compiling_mem_templateRecorded ⟨id, segments id⟩
  · rw [catalog.htmlRecorded_unfit fitting]
    simp [fitting]

/-- What a catalog makes of a request: the template that is asked for, and the catalog
afterwards. -/
def serve (segments : LiteralId → List String) (catalog : Catalog) :
    Request → Option (Except LiteralError Template) × Catalog
  | .template _ id =>
    let outcome := catalog.template ⟨id, segments id⟩
    (some outcome.1, outcome.2)
  | .html _ id values =>
    let outcome := catalog.html ⟨id, segments id⟩ values
    (some (outcome.1.map (·.template)), outcome.2)
  | .clear _ => (none, catalog.clear)

/-- A use of a literal with as many values as it takes asks for its template. -/
theorem serve_html (catalog : Catalog) {id : LiteralId} {values : List Value}
    (fitting : (segments id).length = values.length + 1) (place : Nat) :
    catalog.serve segments (.html place id values) =
      catalog.serve segments (.template place id) := by
  dsimp only [serve, html, template]
  rw [catalog.htmlRecorded_fit fitting, Recorded.map]
  obtain ⟨⟨template, after⟩, events⟩ := catalog.templateRecorded ⟨id, segments id⟩
  cases template <;> rfl

/-- A request is one to clear the catalog, or it leaves the catalog as it is, or a template is made
for it. -/
theorem serve_cases (segments : LiteralId → List String) (catalog : Catalog) (request : Request) :
    (∃ place, request = .clear place ∧ catalog.serve segments request = (none, catalog.clear)) ∨
    (∃ place id, request.use? = some (place, id) ∧
      ((∃ error, catalog.serve segments request = (some (.error error), catalog)) ∨
      (∃ template, catalog.templates.lookup id = some template ∧
        catalog.serve segments request = (some (.ok template), catalog)) ∨
      (∃ blueprint, catalog.templates.lookup id = none ∧
        Blueprint.compile catalog.parser (segments id) = .ok blueprint ∧
        catalog.serve segments request =
          (some (.ok (catalog.fresh ⟨id, segments id⟩ blueprint)),
            catalog.keep (catalog.fresh ⟨id, segments id⟩ blueprint))))) := by
  have looks (place : Nat) (id : LiteralId) :
      (∃ error, catalog.serve segments (.template place id) = (some (.error error), catalog)) ∨
      (∃ template, catalog.templates.lookup id = some template ∧
        catalog.serve segments (.template place id) = (some (.ok template), catalog)) ∨
      (∃ blueprint, catalog.templates.lookup id = none ∧
        Blueprint.compile catalog.parser (segments id) = .ok blueprint ∧
        catalog.serve segments (.template place id) =
          (some (.ok (catalog.fresh ⟨id, segments id⟩ blueprint)),
            catalog.keep (catalog.fresh ⟨id, segments id⟩ blueprint))) := by
    dsimp only [serve]
    obtain ⟨template, known, same⟩ | ⟨none, ⟨error, -, same⟩ | ⟨blueprint, compiled, same⟩⟩ :=
      catalog.template_cases ⟨id, segments id⟩
    · exact .inr (.inl ⟨template, known, by rw [same]⟩)
    · exact .inl ⟨error, by rw [same]⟩
    · exact .inr (.inr ⟨blueprint, none, compiled, by rw [same]⟩)
  cases request with
  | clear place => exact .inl ⟨place, rfl, rfl⟩
  | template place id => exact .inr ⟨place, id, rfl, looks place id⟩
  | html place id values =>
    refine .inr ⟨place, id, rfl, ?_⟩
    by_cases fitting : (segments id).length = values.length + 1
    · rw [catalog.serve_html fitting]
      exact looks place id
    · refine .inl ⟨.valueCount (segments id).length values.length, ?_⟩
      dsimp only [serve, html]
      rw [catalog.htmlRecorded_unfit fitting]
      rfl

/-- What a catalog remembers has been compiled by its parser, and each template has an identity of
its own. -/
structure Sound (segments : LiteralId → List String) (catalog : Catalog) : Prop where
  compiled : ∀ entry ∈ catalog.templates,
    Blueprint.compile catalog.parser (segments entry.1) = .ok entry.2.blueprint
  named : ∀ entry ∈ catalog.templates, entry.2.id.catalog = catalog.name
  made : ∀ entry ∈ catalog.templates, entry.2.id.serial < catalog.made
  literals : (catalog.templates.map Prod.fst).Nodup
  serials : (catalog.templates.map (·.2.id.serial)).Nodup

theorem sound_empty (name : Nat) (parser : Parser) : (empty name parser).Sound segments :=
  ⟨nofun, nofun, nofun, List.nodup_nil, List.nodup_nil⟩

theorem mem_of_lookup {entries : List (LiteralId × Template)}
    (known : entries.lookup id = some template) : (id, template) ∈ entries := by
  obtain ⟨before, behind, rfl, -⟩ := List.lookup_eq_some_iff.mp known
  simp

theorem notMem_of_lookup {entries : List (LiteralId × Template)}
    (absent : entries.lookup id = none) : id ∉ entries.map Prod.fst := by
  intro member
  obtain ⟨entry, among, rfl⟩ := List.mem_map.mp member
  have differs := List.lookup_eq_none_iff.mp absent entry among
  simp at differs

namespace Sound

theorem serve (sound : catalog.Sound segments) (request : Request) :
    (catalog.serve segments request).2.Sound segments := by
  obtain ⟨place, -, same⟩ | ⟨place, id, -, ⟨error, same⟩ | ⟨template, known, same⟩ |
    ⟨blueprint, absent, compiled, same⟩⟩ := catalog.serve_cases segments request
  · rw [same]
    exact ⟨nofun, nofun, nofun, List.nodup_nil, List.nodup_nil⟩
  · rwa [same]
  · rwa [same]
  · rw [same]
    constructor
    case compiled => exact List.forall_mem_cons.mpr ⟨compiled, sound.compiled⟩
    case named => exact List.forall_mem_cons.mpr ⟨rfl, sound.named⟩
    case made =>
      exact List.forall_mem_cons.mpr ⟨Nat.lt_succ_self _, fun entry member =>
        Nat.lt_succ_of_lt (sound.made entry member)⟩
    case literals => exact List.nodup_cons.mpr ⟨notMem_of_lookup absent, sound.literals⟩
    case serials =>
      refine List.nodup_cons.mpr ⟨fun member => ?_, sound.serials⟩
      obtain ⟨entry, among, equal⟩ := List.mem_map.mp member
      exact absurd (sound.made entry among) (by rw [equal]; exact Nat.lt_irrefl _)

/-- Two literals with one template are one. -/
theorem literal_unique (sound : catalog.Sound segments)
    (known : catalog.templates.lookup id = some template)
    (also : catalog.templates.lookup other = some template') (same : template.id = template'.id) :
    id = other := by
  have equal := List.inj_on_of_nodup_map sound.serials (mem_of_lookup known) (mem_of_lookup also)
    (congrArg TemplateId.serial same)
  exact congrArg Prod.fst equal

end Sound

/-! ## Uses with values -/

theorem html_unfit (catalog : Catalog) {values : List Value}
    (differ : (segments id).length ≠ values.length + 1) :
    (catalog.html ⟨id, segments id⟩ values).1 =
      .error (.valueCount (segments id).length values.length) := by
  rw [html, catalog.htmlRecorded_unfit differ]

theorem html_fst_fit (catalog : Catalog) {values : List Value}
    (fitting : (segments id).length = values.length + 1) :
    (catalog.html ⟨id, segments id⟩ values).1 =
      (catalog.template ⟨id, segments id⟩).1.map fun template => { template, values } := by
  rw [html, catalog.htmlRecorded_fit fitting]
  rfl

theorem html_eq_ok {values : List Value} {result : TemplateResult}
    (gives : (catalog.html ⟨id, segments id⟩ values).1 = .ok result) :
    (segments id).length = values.length + 1 ∧ ∃ template,
      (catalog.template ⟨id, segments id⟩).1 = .ok template ∧ result = { template, values } := by
  by_cases fitting : (segments id).length = values.length + 1
  · rw [catalog.html_fst_fit fitting] at gives
    cases asked : (catalog.template ⟨id, segments id⟩).1 with
    | error error =>
      rw [asked] at gives
      cases gives
    | ok template =>
      rw [asked] at gives
      cases gives
      exact ⟨fitting, template, rfl, rfl⟩
  · rw [catalog.html_unfit fitting] at gives
    cases gives

namespace Sound

/-- What a catalog answers is what its parser makes of the literal. -/
theorem map_template (sound : catalog.Sound segments) (id : LiteralId) :
    (catalog.template ⟨id, segments id⟩).1.map (·.blueprint) =
      Blueprint.compile catalog.parser (segments id) := by
  obtain ⟨template, known, same⟩ | ⟨-, ⟨error, compiled, same⟩ | ⟨blueprint, compiled, same⟩⟩ :=
    catalog.template_cases ⟨id, segments id⟩
  · rw [same, sound.compiled _ (mem_of_lookup known)]
    rfl
  · rw [same, compiled]
    rfl
  · rw [same, compiled]
    rfl

/-- A template has one part less than its literal has segments. -/
theorem count_parts (sound : catalog.Sound segments)
    (asked : (catalog.template ⟨id, segments id⟩).1 = .ok template) :
    template.blueprint.parts.length + 1 = (segments id).length := by
  have compiled := sound.map_template id
  rw [asked] at compiled
  obtain ⟨forest, stencil, placed, -, -, -⟩ := Blueprint.compile_eq_ok compiled.symm
  rw [← length_positions placed, List.length_map]

end Sound

/-- The number of values is found fault with if it is not the number of segments less one. -/
theorem html_eq_valueCount_iff (catalog : Catalog) (id : LiteralId) (values : List Value)
    (sound : catalog.Sound segments) :
    (∃ count given, (catalog.html ⟨id, segments id⟩ values).1 = .error (.valueCount count given)) ↔
      (segments id).length ≠ values.length + 1 := by
  constructor
  · rintro ⟨count, given, fails⟩ fitting
    rw [catalog.html_fst_fit fitting] at fails
    have compiled := sound.map_template id
    cases asked : (catalog.template ⟨id, segments id⟩).1 with
    | ok template =>
      rw [asked] at fails
      cases fails
    | error error =>
      rw [asked] at fails compiled
      cases fails
      exact Blueprint.compile_ne_valueCount _ _ _ _ compiled.symm
  · exact fun differ => ⟨_, _, catalog.html_unfit differ⟩

/-! ## Runs of requests -/

/-- A catalog at a place after requests to catalogs anywhere. -/
def after (segments : LiteralId → List String) (place : Nat) (catalog : Catalog)
    (requests : List Request) : Catalog :=
  requests.foldl (fun catalog request =>
    if request.place = place then (catalog.serve segments request).2 else catalog) catalog

@[simp] theorem after_nil : catalog.after segments place [] = catalog :=
  rfl

@[simp] theorem after_cons : catalog.after segments place (request :: requests) =
    (if request.place = place then (catalog.serve segments request).2 else catalog).after segments
      place requests :=
  rfl

theorem after_append (first second : List Request) :
    catalog.after segments place (first ++ second) =
      (catalog.after segments place first).after segments place second :=
  List.foldl_append

/-- What every request to a catalog keeps is kept by all requests. -/
theorem after_induction {motive : Catalog → Prop}
    (step : ∀ catalog request, request ∈ requests → request.place = place → motive catalog →
      motive (catalog.serve segments request).2)
    (start : motive catalog) : motive (catalog.after segments place requests) := by
  induction requests generalizing catalog with
  | nil => exact start
  | cons request requests ih =>
    rw [after_cons]
    refine ih (fun catalog later member => step catalog later (List.mem_cons_of_mem _ member)) ?_
    split
    · next here => exact step catalog request List.mem_cons_self here start
    · exact start

theorem Sound.after (sound : catalog.Sound segments) (place : Nat) (requests : List Request) :
    (catalog.after segments place requests).Sound segments :=
  after_induction (fun _ request _ _ sound => sound.serve request) sound

/-- A catalog keeps its identity and its parser. -/
theorem serve_same (catalog : Catalog) (request : Request) :
    (catalog.serve segments request).2.name = catalog.name ∧
      (catalog.serve segments request).2.parser = catalog.parser := by
  obtain ⟨_, -, served⟩ | ⟨_, id, -, ⟨error, served⟩ | ⟨template, -, served⟩ |
    ⟨blueprint, -, -, served⟩⟩ := catalog.serve_cases segments request <;>
  · rw [served]
    exact ⟨rfl, rfl⟩

theorem after_same : (catalog.after segments place requests).name = catalog.name ∧
    (catalog.after segments place requests).parser = catalog.parser := by
  refine after_induction
    (motive := fun after => after.name = catalog.name ∧ after.parser = catalog.parser)
    (fun served request _ _ same => ?_) ⟨rfl, rfl⟩
  obtain ⟨name, parser⟩ := @serve_same segments served request
  exact ⟨name.trans same.1, parser.trans same.2⟩

/-- What is remembered is so until the catalog is cleared. -/
theorem lookup_serve (known : catalog.templates.lookup id = some template)
    (kept : request ≠ .clear request.place) :
    (catalog.serve segments request).2.templates.lookup id = some template := by
  obtain ⟨_, rfl, -⟩ | ⟨_, other, -, ⟨error, served⟩ | ⟨template, -, served⟩ |
    ⟨blueprint, absent, -, served⟩⟩ := catalog.serve_cases segments request
  · exact absurd rfl kept
  · rwa [served]
  · rwa [served]
  · have different : (id == other) = false := by
      rw [beq_eq_false_iff_ne]
      rintro rfl
      rw [known] at absent
      cases absent
    rw [served]
    exact (List.lookup_cons ..).trans (by rw [fresh, different]; exact known)

theorem lookup_after (known : catalog.templates.lookup id = some template)
    (kept : .clear place ∉ requests) :
    (catalog.after segments place requests).templates.lookup id = some template := by
  refine after_induction (motive := fun after => after.templates.lookup id = some template)
    (fun catalog request member here known => ?_) known
  refine lookup_serve known fun clears => kept ?_
  rwa [clears, here] at member

/-- Templates that are made from now on have later numbers. -/
theorem made_le_serve (catalog : Catalog) (request : Request) :
    catalog.made ≤ (catalog.serve segments request).2.made := by
  obtain ⟨_, -, served⟩ | ⟨_, id, -, ⟨error, served⟩ | ⟨template, -, served⟩ |
    ⟨blueprint, -, -, served⟩⟩ := catalog.serve_cases segments request
  · exact (congrArg (·.2.made) served).ge
  · exact (congrArg (·.2.made) served).ge
  · exact (congrArg (·.2.made) served).ge
  · exact (Nat.le_succ _).trans (congrArg (·.2.made) served).ge

theorem made_le_after : catalog.made ≤ (catalog.after segments place requests).made :=
  after_induction (motive := fun after => catalog.made ≤ after.made)
    (fun served request _ _ fewer => fewer.trans (made_le_serve served request)) (Nat.le_refl _)

/-- Nothing that is remembered has been made before the given number of templates. -/
def Since (number : Nat) (catalog : Catalog) : Prop :=
  number ≤ catalog.made ∧ ∀ entry ∈ catalog.templates, number ≤ entry.2.id.serial

theorem Since.serve {number : Nat} (since : catalog.Since number) (request : Request) :
    (catalog.serve segments request).2.Since number := by
  obtain ⟨_, -, served⟩ | ⟨_, id, -, ⟨error, served⟩ | ⟨template, -, served⟩ |
    ⟨blueprint, -, -, served⟩⟩ := catalog.serve_cases segments request <;> rw [served]
  · exact ⟨since.1, nofun⟩
  · exact since
  · exact since
  · exact ⟨Nat.le_succ_of_le since.1, List.forall_mem_cons.mpr ⟨since.1, since.2⟩⟩

/-- What is remembered has been made after the catalog was cleared. -/
theorem since_of_clear {number : Nat} (made : number < catalog.made)
    (cleared : .clear place ∈ requests) :
    (catalog.after segments place requests).Since (number + 1) := by
  obtain ⟨before, behind, rfl⟩ := List.append_of_mem cleared
  have here : (Request.clear place).place = place := rfl
  rw [after_append, after_cons, if_pos here]
  refine after_induction (motive := Since (number + 1))
    (fun catalog request _ _ since => since.serve request) ⟨?_, nofun⟩
  exact (Nat.succ_le_of_lt made).trans made_le_after

/-- What is given for a request is remembered then. -/
theorem lookup_of_serve (used : request.use? = some (place, id))
    (gives : (catalog.serve segments request).1 = some (.ok template)) :
    (catalog.serve segments request).2.templates.lookup id = some template := by
  obtain ⟨_, rfl, -⟩ | ⟨_, other, also, cases⟩ := catalog.serve_cases segments request
  · cases used
  rw [used] at also
  cases also
  obtain ⟨error, served⟩ | ⟨template, known, served⟩ | ⟨blueprint, -, -, served⟩ := cases <;>
    rw [served] at gives ⊢ <;> cases gives
  · exact known
  · exact List.lookup_cons_self

theorem serve_place_eq {place' : Nat} (used : request.use? = some (place', id)) :
    request.place = place' := by
  cases request <;> cases used <;> rfl

/-- The literals of a catalog are those that it has given templates of since it was cleared. -/
theorem mem_literals_iff (start : catalog.templates = []) (requests : List Request) :
    id ∈ (catalog.after segments place requests).templates.map Prod.fst ↔
      ∃ before request behind template, requests = before ++ request :: behind ∧
        request.use? = some (place, id) ∧
        ((catalog.after segments place before).serve segments request).1 = some (.ok template) ∧
        .clear place ∉ behind := by
  induction requests using List.reverseRecOn with
  | nil => simp [start]
  | append_singleton requests last ih =>
    constructor
    · intro member
      rw [after_append, after_cons, after_nil] at member
      -- Either the last request has made a template, or it was there before.
      have earlier (known : id ∈ (catalog.after segments place requests).templates.map Prod.fst)
          (kept : last ≠ .clear place) : ∃ before request behind template,
            requests ++ [last] = before ++ request :: behind ∧
            request.use? = some (place, id) ∧
            ((catalog.after segments place before).serve segments request).1 =
              some (.ok template) ∧ .clear place ∉ behind := by
        obtain ⟨before, request, behind, template, rfl, used, gives, uncleared⟩ := ih.mp known
        refine ⟨before, request, behind ++ [last], template, by simp, used, gives, ?_⟩
        rw [List.mem_append, List.mem_singleton, not_or]
        exact ⟨uncleared, Ne.symm kept⟩
      split at member
      · next here =>
        obtain ⟨_, rfl, served⟩ | ⟨_, other, used, ⟨error, served⟩ | ⟨template, known, served⟩ |
          ⟨blueprint, absent, -, served⟩⟩ := serve_cases segments _ last <;> rw [served] at member
        · cases member
        · exact earlier member fun clears => by rw [clears] at used; cases used
        · exact earlier member fun clears => by rw [clears] at used; cases used
        · obtain rfl | member := List.mem_cons.mp member
          · rw [serve_place_eq used] at here
            exact ⟨requests, last, [], _, rfl, here ▸ used, by rw [served], nofun⟩
          · exact earlier member fun clears => by rw [clears] at used; cases used
      · next away => exact earlier member fun clears => away (by rw [clears]; rfl)
    · rintro ⟨before, request, behind, template, split, used, gives, uncleared⟩
      rw [split, after_append, after_cons, if_pos (serve_place_eq used)]
      exact List.mem_map.mpr
        ⟨_, mem_of_lookup (lookup_after (lookup_of_serve used gives) uncleared), rfl⟩

end Catalog

end LiveMarkup
