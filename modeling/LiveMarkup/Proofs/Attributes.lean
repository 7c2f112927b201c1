import LiveMarkup.Proofs.Fitting
import LiveMarkup.Proofs.Resolving
import LiveMarkup.Proofs.Surgery

/-! # Dynamic attributes show what is read

Updating the binding of a dynamic attribute leaves the attribute with the text that is read for its
value: set anew, set for the first time behind the attributes before it, or left alone because it is
there already. -/

namespace LiveMarkup

open Document

variable {σ τ : Type} {sort : Template → Prop} {related : σ → τ → Prop} {setting : Setting σ}
  {environment : Environment τ}

/-! ## Reading -/

namespace Reading

/-- Reading the text of an attribute, one step after the other. -/
theorem orElse_attributeText (config : Config) (part depth : Nat) (value : Value) :
    orElse part depth "" (attributeText environment config depth value) =
      (liftM (settledDeep environment config (config.depthLimit - depth) value).run >>= fun read =>
        match read with
        | .error error => complain part depth error >>= fun _ => pure ""
        | .ok value =>
          match value.attributeText with
          | .error error => complain part depth error >>= fun _ => pure ""
          | .ok text => pure text : ReadM τ String) := by
  unfold orElse attributeText
  rw [ExceptT.run_bind, liftM_bind, bind_assoc]
  congr 1
  funext read
  cases read with
  | error error => rfl
  | ok value =>
    cases texts : value.attributeText with
    | error error => simp [texts]; rfl
    | ok text => simp [texts]; rfl

end Reading

/-! ## The last value -/

/-- Values that are the same primitive have the same text. -/
theorem attributeText_of_samePrimitive {value other : Value} (same : value.samePrimitive other) :
    value.attributeText = other.attributeText := by
  cases value <;> cases other <;> simp_all [Value.samePrimitive]

theorem putAttribute_behind {name text : String} {before pending : List (String × String)}
    (absent : name ∉ before.map Prod.fst)
    (next : ∀ pair ∈ pending.head?, pair.1 = name) :
    putAttribute name text (before ++ pending) = before ++ (name, text) :: pending.tail := by
  induction before with
  | nil =>
    cases pending with
    | nil => rfl
    | cons pair pending =>
      obtain ⟨other, kept⟩ := pair
      have same : other = name := next (other, kept) rfl
      simp [putAttribute, same]
  | cons pair before ih =>
    obtain ⟨other, kept⟩ := pair
    simp only [List.map_cons, List.mem_cons, not_or] at absent
    rw [List.cons_append, putAttribute, if_neg (Ne.symm absent.1), ih absent.2]
    rfl

/-! ## Committing -/

theorem commit_setAttribute (element : NodeId) (part : AttributePart) {value : Value} {text : String}
    (texts : value.attributeText = .ok text) :
    (Strategy.setAttribute : Strategy σ).commit element part value =
      liftM (do
        Stage.note (.attributeSet part.name text)
        Stage.setAttribute element part.name text
        pure (.ok ()) : StageM (Except ResolutionError Unit)) := by
  simp only [Strategy.setAttribute, texts]
  rfl

theorem commit_setAttribute_error (element : NodeId) (part : AttributePart) {value : Value}
    {error : ResolutionError} (texts : value.attributeText = .error error) :
    (Strategy.setAttribute : Strategy σ).commit element part value = pure (.error error) := by
  simp only [Strategy.setAttribute, texts]

section

variable {document : Document} {place : Place} {node : NodeId} {tag name : String}
  {space : Option String} {before pending : List (String × String)} {inside behind : Grove}
  {binding : AttributeBinding σ}

/-- Setting an attribute that is the next one to be shown. -/
theorem performs_commit (absent : name ∉ before.map Prod.fst)
    (next : ∀ pair ∈ pending.head?, pair.1 = name) (text : String)
    (site : Site document place
      (.cons node (.element tag space (before ++ pending)) inside behind)) :
    Performs (do
      Stage.note (.attributeSet name text)
      Stage.setAttribute node name text
      pure (.ok ()) : StageM (Except ResolutionError Unit)) document fun result after =>
      result = .ok () ∧ Regrown place document
        (.cons node (.element tag space (before ++ pending)) inside behind) after
        (.cons node (.element tag space (before ++ (name, text) :: pending.tail)) inside behind) := by
  refine .noting ((performs_setAttribute site name text).bind fun _ after set => .pure ⟨rfl, ?_⟩)
  rwa [putAttribute_behind absent next] at set

/-- Committing a value shows its text, and no text if there is none. -/
theorem simulates_commit (suits : binding.Suits node name)
    (absent : name ∉ before.map Prod.fst) (next : ∀ pair ∈ pending.head?, pair.1 = name)
    (site : Site document place
      (.cons node (.element tag space (before ++ pending)) inside behind)) (part depth : Nat)
    (value : Value) :
    Simulates related (binding.commit part depth value)
      (match value.attributeText with
        | .error error => Reading.complain part depth error >>= fun _ => pure ""
        | .ok text => pure text : ReadM τ String) document
      fun updated text after => updated.Shows node name text ∧ Regrown place document
        (.cons node (.element tag space (before ++ pending)) inside behind) after
        (.cons node (.element tag space (before ++ (name, text) :: pending.tail)) inside behind) := by
  obtain ⟨element, target, strategy, last⟩ := binding
  obtain ⟨rfl, rfl, rfl⟩ := suits
  unfold AttributeBinding.commit
  cases texts : value.attributeText with
  | ok text =>
    rw [commit_setAttribute _ _ texts]
    refine .scene (performs_commit absent next text site) ?_
    rintro _ after ⟨rfl, regrown⟩
    refine .pure ⟨⟨⟨rfl, rfl, rfl⟩, ?_⟩, regrown⟩
    intro last same
    dsimp only at same
    split at same
    · cases same
      exact texts
    · cases same
  | error error =>
    have nothing : Value.empty.attributeText = .ok "" := rfl
    rw [commit_setAttribute_error _ _ texts]
    simp only [liftM_pure, pure_bind]
    refine .reporting ?_
    rw [commit_setAttribute _ _ nothing]
    refine .scene (performs_commit absent next "" site) ?_
    rintro _ after ⟨rfl, regrown⟩
    exact .pure ⟨⟨⟨rfl, rfl, rfl⟩, nofun⟩, regrown⟩

/-- A value that is shown already is left alone. -/
theorem simulates_present (suits : binding.Suits node name)
    (absent : name ∉ before.map Prod.fst) (next : ∀ pair ∈ pending.head?, pair.1 = name)
    (known : ∀ last, binding.last = some last →
      ∃ shown, pending.head? = some shown ∧ last.attributeText = .ok shown.2)
    (site : Site document place
      (.cons node (.element tag space (before ++ pending)) inside behind)) (part depth : Nat)
    (value : Value) :
    Simulates related
      (if binding.last.any (·.samePrimitive value) then do
        Stage.note .attributeSame
        pure binding
      else binding.commit part depth value)
      (match value.attributeText with
        | .error error => Reading.complain part depth error >>= fun _ => pure ""
        | .ok text => pure text : ReadM τ String) document
      fun updated text after => updated.Shows node name text ∧ Regrown place document
        (.cons node (.element tag space (before ++ pending)) inside behind) after
        (.cons node (.element tag space (before ++ (name, text) :: pending.tail)) inside behind) := by
  split
  · next same =>
    cases remembered : binding.last with
    | none => simp [remembered] at same
    | some last =>
      obtain ⟨⟨other, text⟩, head, texts⟩ := known last remembered
      rw [remembered, Option.any_some] at same
      rw [← attributeText_of_samePrimitive same, texts]
      obtain ⟨rest, rfl⟩ := List.head?_eq_some_iff.mp head
      obtain rfl : other = name := next (other, text) rfl
      refine .noting (.pure ⟨⟨suits, ?_⟩, .refl site⟩)
      intro value again
      rw [remembered] at again
      cases again
      exact texts
  · exact simulates_commit suits absent next site part depth value

/-- An update of a dynamic attribute shows the text that is read, whether the attribute is set for
the first time or has been shown before. -/
theorem simulates_attribute (alike : setting.environment.Alike sort related environment)
    {value : Value} (proper : value.Proper sort) (suits : binding.Suits node name)
    (absent : name ∉ before.map Prod.fst) (next : ∀ pair ∈ pending.head?, pair.1 = name)
    (known : ∀ last, binding.last = some last →
      ∃ shown, pending.head? = some shown ∧ last.attributeText = .ok shown.2)
    (site : Site document place
      (.cons node (.element tag space (before ++ pending)) inside behind)) (part depth : Nat) :
    Simulates related (binding.update setting part depth value)
      (Reading.orElse part depth ""
        (Reading.attributeText environment setting.config depth value)) document
      fun updated text after => updated.Shows node name text ∧ Regrown place document
        (.cons node (.element tag space (before ++ pending)) inside behind) after
        (.cons node (.element tag space (before ++ (name, text) :: pending.tail)) inside behind) := by
  rw [Reading.orElse_attributeText]
  unfold AttributeBinding.update
  refine .follow (follows_resolveLevels alike _ proper) fun resolved read outcomes => ?_
  cases outcomes with
  | error error =>
    exact .reporting (simulates_present suits absent next known site part depth .empty)
  | ok holds =>
    obtain ⟨rfl, proper⟩ := holds
    exact simulates_present suits absent next known site part depth _

/-- Updating the dynamic attributes of an element shows the texts that are read, behind the static
attributes and in order. -/
theorem simulates_attributes (alike : setting.environment.Alike sort related environment)
    (update : OutletUpdate σ) (content : Nat → Value → ReadM τ Markup.Forest) (depth : Nat)
    (path : Path) {bound : List (String × String)} {own : List (AttributeBinding σ)}
    (fits : Bound node bound own pending)
    (distinct : (before.map Prod.fst ++ bound.map Prod.fst).Nodup) {values : List Value}
    (count : values.length = bound.length) (proper : ∀ value ∈ values, value.Proper sort)
    (site : Site document place
      (.cons node (.element tag space (before ++ pending)) inside behind)) (index : Nat) :
    Simulates related
      (updateBindings setting update depth index (own.map Binding.attribute)
        (Stencil.boundParts path bound) values)
      (Reading.fillings environment setting.config content depth index
        (Stencil.boundParts path bound) values) document
      fun updated fillings after => ∃ own',
        updated = own'.map Binding.attribute ∧ fillings.length = bound.length ∧
        Bound node bound own'
          (List.zipWith (fun pair filling => (pair.1, filling.value)) bound fillings) ∧
        Regrown place document
          (.cons node (.element tag space (before ++ pending)) inside behind) after
          (.cons node (.element tag space (before ++
            List.zipWith (fun pair filling => (pair.1, filling.value)) bound fillings))
            inside behind) := by
  induction bound generalizing own pending before values document index with
  | nil =>
    cases fits
    simp only [List.map_nil, updateBindings, Stencil.boundParts, Reading.fillings]
    exact .pure ⟨[], rfl, rfl, .nil, .refl site⟩
  | cons pair bound ih =>
    obtain ⟨name, rawName⟩ := pair
    obtain ⟨binding, own, rfl, suits, next, known, rest⟩ := fits.of_cons
    obtain _ | ⟨value, values⟩ := values
    · cases count
    have absent : name ∉ before.map Prod.fst := fun member =>
      (List.nodup_append'.mp distinct).2.2 member List.mem_cons_self
    simp only [List.map_cons, updateBindings, Stencil.boundParts, Reading.fillings]
    refine .noting (.mapping ?_)
    refine (simulates_attribute alike (proper value List.mem_cons_self) suits absent next known site
      index depth).bind fun binding text between updated => ?_
    obtain ⟨shows, set⟩ := updated
    rw [show before ++ (name, text) :: pending.tail = before ++ [(name, text)] ++ pending.tail by
      simp] at set
    -- For the other attributes, the one that has just been shown is one of those before.
    refine (ih rest ?_ (Nat.succ.inj count)
      (fun value member => proper value (List.mem_cons_of_mem _ member)) set.site
      (index + 1)).bind fun _ fillings after updated => ?_
    · simpa using distinct
    · obtain ⟨own, rfl, lengths, fits, more⟩ := updated
      refine .pure ⟨binding :: own, rfl, by simp [lengths], ?_, ?_⟩
      · exact .shown shows fits
      · simpa using set.trans more

end

end LiveMarkup
