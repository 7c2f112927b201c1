import LiveMarkup.Proofs.Planting.Settling

/-! # Attributes with new values

An update of the bindings of an element comes to the tending of its fixtures: which texts are set, and
what is remembered then. -/

namespace LiveMarkup

open Document Markup

variable {σ τ : Type} {sort : Template → Prop} {related : σ → τ → Prop} {setting : Setting σ}
  {environment : Environment τ} {document : Document} {place : Place} {node : NodeId} {tag : String}
  {space : Option String} {attributes : List (String × String)} {inside behind : Grove}

/-! ## Values for some parts and for others -/

/-- The first values are all that there are for some parts of the given number, and the others are for
other parts.  There may be too few of them. -/
def Fills (count : Nat) (values more : List Value) : Prop :=
  values.length = count ∨ values.length ≤ count ∧ more = []

theorem Fills.drop {count : Nat} {values more : List Value} (fills : Fills count values more) :
    (values ++ more).drop count = more := by
  obtain rfl | ⟨fewer, rfl⟩ := fills
  · exact List.drop_left
  · rw [List.append_nil, List.drop_eq_nil_of_le fewer]

/-! ## Fixtures -/

/-- A value that is the same as a primitive one has a text. -/
theorem Value.exists_attributeText {value other : Value} (same : other.samePrimitive value) :
    ∃ text, value.attributeText = .ok text := by
  cases value <;> cases other <;> first | exact ⟨_, rfl⟩ | cases same

/-- Only values that are not primitive are refused. -/
theorem Value.isPrimitive_of_error {value : Value} {error : ResolutionError}
    (refused : value.attributeText = .error error) : value.isPrimitive = false := by
  cases value <;> first | rfl | cases refused

namespace Fixture

@[simp] theorem names_tended (fixture : Fixture) (value : Value) :
    (fixture.tended value).names = fixture.names := by
  unfold tended
  split <;> rfl

@[simp] theorem tendAll_nil (node : NodeId) (fixtures : List Fixture) :
    tendAll node fixtures [] = pure fixtures := by
  cases fixtures <;> rfl

@[simp] theorem dressAll_nil (fixtures : List Fixture) (attributes : List (String × String)) :
    dressAll fixtures [] attributes = attributes := by
  cases fixtures <;> rfl

theorem names_tendAll (node : NodeId) (fixtures : List Fixture) (values : List Value) (next : Nat) :
    (tendAll node fixtures values next).result.map names = fixtures.map names := by
  induction fixtures generalizing values with
  | nil => rfl
  | cons fixture fixtures ih =>
    cases values with
    | nil => rfl
    | cons value values => simp [tendAll, ih]

/-- Setting attributes creates no nodes. -/
@[simp] theorem next_tendAll (node : NodeId) (fixtures : List Fixture) (values : List Value)
    (next : Nat) : (tendAll node fixtures values next).next = next := by
  induction fixtures generalizing values with
  | nil => rfl
  | cons fixture fixtures ih =>
    cases values with
    | nil => rfl
    | cons value values => simp [tendAll, ih]

/-- Values in excess do not matter. -/
theorem tendAll_append {fixtures : List Fixture} {values more : List Value}
    (fills : Fills fixtures.length values more) (node : NodeId) :
    tendAll node fixtures (values ++ more) = tendAll node fixtures values := by
  obtain enough | ⟨-, rfl⟩ := fills
  · induction fixtures generalizing values with
    | nil => cases values <;> cases more <;> rfl
    | cons fixture fixtures ih =>
      cases values with
      | nil => cases enough
      | cons value values => simp [tendAll, ih (Nat.succ.inj enough)]
  · rw [List.append_nil]

theorem dressAll_append {fixtures : List Fixture} {values more : List Value}
    (fills : Fills fixtures.length values more) (attributes : List (String × String)) :
    dressAll fixtures (values ++ more) attributes = dressAll fixtures values attributes := by
  obtain enough | ⟨-, rfl⟩ := fills
  · induction fixtures generalizing values attributes with
    | nil => cases values <;> cases more <;> rfl
    | cons fixture fixtures ih =>
      cases values with
      | nil => cases enough
      | cons value values => exact ih _ (Nat.succ.inj enough)
  · rw [List.append_nil]

end Fixture

/-! ## One attribute -/

/-- A value that is committed becomes the text of an attribute, or an empty one if it is refused. -/
theorem simulates_commit_fixture {fixture : Fixture}
    (site : Site document place (.cons node (.element tag space attributes) inside behind))
    {value : Value} (changes : fixture.keeps value = false) (part depth : Nat) :
    Simulates related ((fixture.binding node : AttributeBinding σ).commit part depth value)
      (match value.attributeText with
        | .error error => Reading.complain part depth error >>= fun _ => pure value
        | .ok _ => pure value : ReadM τ Value) document
      fun updated settled after => settled = value ∧
        updated = (fixture.tended value).binding node ∧
        Tilled place document (.cons node (.element tag space attributes) inside behind)
          document.size (fixture.deeds node value) after
          (.cons node (.element tag space (fixture.dressed value attributes)) inside behind) := by
  -- Whatever the value, it comes to one attribute with the text that is shown.
  have commits : Performs (do
      Stage.note (.attributeSet fixture.part.name value.shownText)
      Stage.setAttribute node fixture.part.name value.shownText
      pure (.ok ()) : StageM (Except ResolutionError Unit)) document fun result after =>
      result = .ok () ∧ Tilled place document
        (.cons node (.element tag space attributes) inside behind) document.size
        (fixture.deeds node value) after
        (.cons node (.element tag space (fixture.dressed value attributes)) inside behind) := by
    refine .noting ((tills_setAttribute site _ _).bind fun _ after set => .pure ⟨rfl, ?_⟩)
    simpa [Fixture.dressed, Fixture.deeds, changes] using set
  unfold AttributeBinding.commit
  cases texts : value.attributeText with
  | ok text =>
    have shown : value.shownText = text := by simp [Value.shownText, texts]
    rw [shown] at commits
    rw [Fixture.binding, commit_setAttribute _ _ texts]
    refine .scene commits ?_
    rintro _ after ⟨rfl, tilled⟩
    refine .pure ⟨rfl, ?_, tilled⟩
    simp [Fixture.tended, changes, Fixture.binding]
  | error error =>
    have shown : value.shownText = "" := by simp [Value.shownText, texts]
    -- A value without a text is reported, and then an empty one is committed in its place.
    have nothing : Value.empty.attributeText = .ok "" := rfl
    rw [shown] at commits
    rw [Fixture.binding, commit_setAttribute_error _ _ texts]
    simp only [liftM_pure, pure_bind]
    refine .reporting ?_
    rw [commit_setAttribute _ _ nothing]
    refine .scene commits ?_
    rintro _ after ⟨rfl, tilled⟩
    refine .pure ⟨rfl, ?_, tilled⟩
    simp [Fixture.tended, changes, Fixture.binding, Value.isPrimitive_of_error texts]

/-- A value that has been resolved is committed unless it is remembered. -/
theorem simulates_resolved (fixture : Fixture)
    (site : Site document place (.cons node (.element tag space attributes) inside behind))
    (value : Value) (part depth : Nat) :
    Simulates related
      (if (fixture.binding node : AttributeBinding σ).last.any (·.samePrimitive value) then do
        Stage.note .attributeSame
        pure (fixture.binding node)
      else (fixture.binding node).commit part depth value)
      (match value.attributeText with
        | .error error => Reading.complain part depth error >>= fun _ => pure value
        | .ok _ => pure value : ReadM τ Value) document
      fun updated settled after => settled = value ∧
        updated = (fixture.tended value).binding node ∧
        Tilled place document (.cons node (.element tag space attributes) inside behind)
          document.size (fixture.deeds node value) after
          (.cons node (.element tag space (fixture.dressed value attributes)) inside behind) := by
  by_cases keeps : fixture.keeps value
  · have remembered : (fixture.binding node : AttributeBinding σ).last.any (·.samePrimitive value) =
        true := keeps
    obtain ⟨last, -, same⟩ := Option.any_eq_true _ _ |>.mp remembered
    obtain ⟨text, texts⟩ := Value.exists_attributeText same
    rw [if_pos remembered, texts]
    refine .noting (.pure ⟨rfl, ?_⟩)
    rw [Fixture.tended, if_pos keeps, Fixture.deeds, if_pos keeps, Fixture.dressed, if_pos keeps]
    exact ⟨rfl, .refl site⟩
  · have changes : ¬ (fixture.binding node : AttributeBinding σ).last.any (·.samePrimitive value) :=
      keeps
    rw [if_neg changes]
    exact simulates_commit_fixture site (by simpa using keeps) part depth

theorem simulates_fixture (alike : setting.environment.Alike sort related environment)
    (fixture : Fixture)
    (site : Site document place (.cons node (.element tag space attributes) inside behind))
    {value : Value} (proper : value.Proper sort) (part depth : Nat) :
    Simulates related ((fixture.binding node).update setting part depth value)
      (Settling.attributeValue environment setting.config part depth value) document
      fun updated settled after => updated = (fixture.tended settled).binding node ∧
        Tilled place document (.cons node (.element tag space attributes) inside behind)
          document.size (fixture.deeds node settled) after
          (.cons node (.element tag space (fixture.dressed settled attributes)) inside behind) := by
  unfold AttributeBinding.update Settling.attributeValue
  refine .follow (follows_resolveLevels alike _ proper) fun resolved read outcomes => ?_
  cases outcomes with
  | error error =>
    refine .reporting ((simulates_resolved fixture site .empty part depth).mono ?_)
    rintro updated settled after ⟨rfl, committed⟩
    exact committed
  | ok holds =>
    obtain ⟨rfl, -⟩ := holds
    refine (simulates_resolved fixture site _ part depth).mono ?_
    rintro updated settled after ⟨rfl, committed⟩
    exact committed

/-! ## All attributes of an element -/

/-- The bindings of all attributes of an element. -/
def Fixture.bindings (node : NodeId) (fixtures : List Fixture) : List (Binding σ) :=
  fixtures.map fun fixture => .attribute (fixture.binding node)

theorem simulates_fixtures (alike : setting.environment.Alike sort related environment)
    (update : OutletUpdate σ) (content : Nat → Value → ReadM τ Value) (depth : Nat) (path : Path)
    {fixtures : List Fixture} {values : List Value} (proper : ∀ value ∈ values, value.Proper sort)
    (site : Site document place (.cons node (.element tag space attributes) inside behind))
    (index : Nat) :
    Simulates related
      (updateBindings setting update depth index (Fixture.bindings node fixtures)
        (Stencil.boundParts path (fixtures.map Fixture.names)) values)
      (Settling.parts environment setting.config content depth index
        (Stencil.boundParts path (fixtures.map Fixture.names)) values) document
      fun updated settled after => settled.length = min fixtures.length values.length ∧
        let harvest := Fixture.tendAll node fixtures settled document.size
        updated = Fixture.bindings node harvest.result ∧
          Tilled place document (.cons node (.element tag space attributes) inside behind)
            harvest.next harvest.deeds after
            (.cons node (.element tag space (Fixture.dressAll fixtures settled attributes)) inside
              behind) := by
  induction fixtures generalizing attributes values document index with
  | nil => exact .pure ⟨by simp, rfl, .refl site⟩
  | cons fixture fixtures ih =>
    -- Where there are no more values, the other attributes are not looked at.
    obtain _ | ⟨value, values⟩ := values
    · rw [updateBindings_nil]
      exact .pure ⟨by simp, rfl, .refl site⟩
    simp only [Fixture.bindings, List.map_cons, updateBindings, Stencil.boundParts, Settling.parts]
    refine .noting (.mapping ?_)
    refine (simulates_fixture alike fixture site (proper value List.mem_cons_self) index
      depth).bind fun _ first between tended => ?_
    obtain ⟨rfl, tilled⟩ := tended
    refine (ih (fun value member => proper value (List.mem_cons_of_mem _ member)) tilled.site
      (index + 1)).bind fun _ others after tended => .pure ?_
    obtain ⟨count, rfl, more⟩ := tended
    rw [tilled.size] at more ⊢
    refine ⟨by simp [count], rfl, ?_⟩
    simpa [Fixture.tendAll, Fixture.dressAll] using tilled.trans more

end LiveMarkup
