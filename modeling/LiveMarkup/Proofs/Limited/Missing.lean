import LiveMarkup.Proofs.Limited.Embedding
import LiveMarkup.Proofs.Planting.Locating

/-! # Parts beyond what can be seen

On a stage that hides all but the first children of every node, an instance can be made of a template
unless one of its parts is reached by way of a hidden child.  The first such part is the one that is
reported (`Instance.make_of_missing`, `Instance.make_of_near`).

A copy is made without looking at any child.  So it is the same as on a stage that hides nothing
(`Blind`), and where its parts are is known from there. -/

namespace LiveMarkup

open Document Markup

variable {α β σ : Type}

/-! ## Parts -/

/-- Such a stage shows so many children of a node. -/
def Shortcomings.showing (limit : Nat) : Shortcomings :=
  { visibleChildren := some limit }

/-- Whether a part is reached by way of a child that is hidden.  A root is no child of any node. -/
def Part.Beyond (limit : Nat) (part : Part) : Prop :=
  ∃ index ∈ part.path.tail, limit ≤ index

instance (limit : Nat) : DecidablePred (Part.Beyond limit) :=
  fun part => inferInstanceAs (Decidable (∃ index ∈ part.path.tail, limit ≤ index))

/-- The first part that is beyond the given number of children, and its path, among parts the first of
which has the given index. -/
def Part.missing? (limit index : Nat) : List Part → Option (Nat × Path)
  | [] => none
  | part :: parts =>
    if part.Beyond limit then some (index, part.path) else missing? limit (index + 1) parts

def Template.missing? (limit : Nat) (template : Template) : Option (Nat × Path) :=
  Part.missing? limit 0 template.blueprint.parts

/-- A part is the first one beyond the given number of children. -/
structure Part.FirstBeyond (limit : Nat) (parts : List Part) (index : Nat) (part : Part) : Prop where
  found : parts[index]? = some part
  beyond : part.Beyond limit
  first : ∀ earlier < index, ∀ other, parts[earlier]? = some other → ¬ other.Beyond limit

namespace Part

variable {limit index start : Nat} {part : Part} {parts : List Part} {path : Path}

theorem missing?_eq_none_iff :
    missing? limit start parts = none ↔ ∀ part ∈ parts, ¬ part.Beyond limit := by
  induction parts generalizing start with
  | nil => simp [missing?]
  | cons part parts ih =>
    rw [missing?, List.forall_mem_cons]
    split
    · next beyond => simp [beyond]
    · next near => simp [ih, near]

theorem FirstBeyond.zero (beyond : part.Beyond limit) : FirstBeyond limit (part :: parts) 0 part :=
  ⟨rfl, beyond, nofun⟩

theorem FirstBeyond.succ_iff {other : Part} (near : ¬ other.Beyond limit) :
    FirstBeyond limit (other :: parts) (index + 1) part ↔ FirstBeyond limit parts index part := by
  constructor
  · rintro ⟨found, beyond, first⟩
    exact ⟨found, beyond, fun earlier less part' found' =>
      first (earlier + 1) (Nat.succ_lt_succ less) part' found'⟩
  · rintro ⟨found, beyond, first⟩
    refine ⟨found, beyond, fun earlier less part' found' => ?_⟩
    cases earlier with
    | zero =>
      cases found'
      exact near
    | succ earlier => exact first earlier (Nat.lt_of_succ_lt_succ less) part' found'

theorem le_of_missing? {later : Nat} (missing : missing? limit start parts = some (later, path)) :
    start ≤ later := by
  induction parts generalizing start with
  | nil => cases missing
  | cons part parts ih =>
    rw [missing?] at missing
    split at missing
    · cases missing
      exact Nat.le_refl _
    · exact Nat.le_of_succ_le (ih missing)

theorem missing?_eq_some_iff : missing? limit start parts = some (start + index, path) ↔
    ∃ part, FirstBeyond limit parts index part ∧ part.path = path := by
  -- The search counts up from `start`, so the induction is for any number to start from.
  induction parts generalizing start index with
  | nil =>
    simp only [missing?, reduceCtorEq, false_iff]
    rintro ⟨part, ⟨found, -, -⟩, -⟩
    cases found
  | cons part parts ih =>
    rw [missing?]
    split
    · next beyond =>
      constructor
      · intro same
        have numbers := congrArg (Option.map Prod.fst) same
        obtain rfl : index = 0 := by simpa using numbers
        cases same
        exact ⟨part, .zero beyond, rfl⟩
      · rintro ⟨part', first, rfl⟩
        cases index with
        | zero =>
          cases first.found
          rfl
        | succ index => exact absurd beyond (first.first 0 (Nat.succ_pos _) part rfl)
    · next near =>
      cases index with
      | zero =>
        constructor
        · intro missing
          exact absurd (le_of_missing? missing) (Nat.not_succ_le_self start)
        · rintro ⟨part', first, -⟩
          cases first.found
          exact absurd first.beyond near
      | succ index =>
        have shift : start + (index + 1) = start + 1 + index := by omega
        simp only [shift, ih, FirstBeyond.succ_iff near]

end Part

namespace Template

variable {limit index : Nat} {path : Path} {template : Template}

theorem missing?_eq_none_iff :
    template.missing? limit = none ↔ ∀ part ∈ template.blueprint.parts, ¬ part.Beyond limit :=
  Part.missing?_eq_none_iff

theorem missing?_eq_some_iff : template.missing? limit = some (index, path) ↔
    ∃ part, Part.FirstBeyond limit template.blueprint.parts index part ∧ part.path = path := by
  have numbered := @Part.missing?_eq_some_iff limit index 0 template.blueprint.parts path
  rwa [Nat.zero_add] at numbered

end Template

/-! ## Work that looks at no child -/

/-- An action does the same on a stage that falls short as on one that does not. -/
def Blind (action : StageM α) : Prop :=
  ∀ (stage : Stage) (shortcomings : Shortcomings),
    action.run { stage with shortcomings } =
      ((action.run stage).1, { (action.run stage).2 with shortcomings })

namespace Blind

protected theorem pure (result : α) : Blind (pure result : StageM α) :=
  fun _ _ => rfl

theorem bind {action : StageM β} {next : β → StageM α} (first : Blind action)
    (second : ∀ result, Blind (next result)) : Blind (action >>= next) := by
  intro stage shortcomings
  rw [StateT.run_bind, StateT.run_bind, first stage shortcomings]
  exact second _ _ shortcomings

theorem forM {list : List β} {action : β → StageM Unit} (each : ∀ entry, Blind (action entry)) :
    Blind (list.forM action) := by
  induction list with
  | nil => exact .pure ()
  | cons first rest ih => exact bind (each first) fun _ => ih

theorem mapM {list : List β} {action : β → StageM α} (each : ∀ entry, Blind (action entry)) :
    Blind (list.mapM action) := by
  induction list with
  | nil => exact .pure []
  | cons first rest ih =>
    rw [List.mapM_cons]
    exact bind (each first) fun _ => bind ih fun _ => .pure _

theorem edit (change : Document → Document) : Blind (Stage.edit change) :=
  fun _ _ => rfl

theorem note (event : Event) : Blind (Stage.note event) :=
  fun _ _ => rfl

theorem create (data : NodeData) : Blind (Stage.create data) :=
  fun _ _ => rfl

theorem setAttribute (element : NodeId) (name value : String) :
    Blind (Stage.setAttribute element name value) := by
  have choose (isElement : Bool) : Blind (if isElement then
      Stage.edit (·.setAttribute element name value) else Stage.note (.notAnElement name element)) := by
    split
    · exact edit _
    · exact note _
  exact fun stage => choose (stage.document.isElement element) stage

theorem append (parent node : NodeId) : Blind (Stage.append parent node) := by
  unfold Stage.append Stage.insertBefore
  exact edit _

mutual

theorem copy : ∀ tree : Node, Blind (Stage.copy tree)
  | .element name space attributes children => by
    rw [Stage.copy]
    exact bind (create _) fun element => bind (forM fun pair => setAttribute _ _ _) fun _ =>
      bind (copyInto element children) fun _ => .pure element
  | .text data => create (.text data)
  | .comment data => create (.comment data)

theorem copyInto : ∀ (parent : NodeId) (forest : List Node), Blind (Stage.copyInto parent forest)
  | _, [] => .pure ()
  | parent, tree :: rest => by
    rw [Stage.copyInto]
    exact bind (copy tree) fun root => bind (append parent root) fun _ => copyInto parent rest

end

end Blind

/-- Only nodes of the copy are changed. -/
theorem Stencil.deeds_sow (stencil : Stencil) (inside : Option NodeId) (path : Path)
    (child next : Nat) :
    ∀ mutation ∈ (stencil.sow inside path child next).deeds, next ≤ mutation.node.number := by
  have own (inside : Option NodeId) (next : Nat) :
      ∀ mutation ∈ inside.toList.map (Mutation.insert · ⟨next⟩), next ≤ mutation.node.number := by
    intro mutation member
    obtain ⟨parent, -, rfl⟩ := List.mem_map.mp member
    exact Nat.le_refl _
  induction stencil generalizing inside path child next with
  | done => nofun
  | element name space static bound below rest ihBelow ihRest =>
    have sets : ∀ mutation ∈ static.map fun pair => Mutation.setAttribute ⟨next⟩ pair.1 pair.2,
        next ≤ mutation.node.number := by
      intro mutation member
      obtain ⟨pair, -, rfl⟩ := List.mem_map.mp member
      exact Nat.le_refl _
    have inner := ihBelow (some ⟨next⟩) (path ++ [child]) 0 (next + 1)
    have grows : next + 1 ≤ (below.sow (some ⟨next⟩) (path ++ [child]) 0 (next + 1)).next := by
      obtain ⟨size, -⟩ := below.numbers_sow (some ⟨next⟩) (path ++ [child]) 0 (next + 1)
      omega
    have later := ihRest inside path (child + 1)
      (below.sow (some ⟨next⟩) (path ++ [child]) 0 (next + 1)).next
    simp only [sow, Tend.bind_apply, Tend.create_apply, Tend.record_apply, Tend.pure_apply,
      List.nil_append, List.append_nil]
    refine List.forall_mem_append.mpr ⟨sets, List.forall_mem_append.mpr ⟨fun mutation member =>
      Nat.le_of_succ_le (inner mutation member), List.forall_mem_append.mpr ⟨own inside next,
        fun mutation member => ?_⟩⟩⟩
    have := later mutation member
    omega
  | text data rest ih | comment data rest ih | gap rest ih =>
    have later := ih inside path (child + 1) (next + 1)
    simp only [sow, Tend.bind_apply, Tend.create_apply, Tend.record_apply, Tend.pure_apply,
      List.nil_append, List.append_nil]
    exact List.forall_mem_append.mpr
      ⟨own inside next, fun mutation member => Nat.le_of_succ_le (later mutation member)⟩

/-- However a stage falls short, a forest is copied on it as on any other. -/
theorem Stencil.copied (stencil : Stencil) (stage : Stage) :
    let harvest := stencil.sow none [] 0 stage.document.size
    let outcome : List NodeId × Stage := (stencil.forest.mapM Stage.copy).run stage
    outcome.1 = harvest.result.grove.roots ∧ outcome.2.shortcomings = stage.shortcomings ∧
      Raised stage.document harvest.result.grove harvest.next harvest.deeds outcome.2.document := by
  intro harvest outcome
  -- What is known of a stage without shortcomings goes over to this one.
  have blind : Blind (stencil.forest.mapM Stage.copy) := .mapM fun tree => .copy tree
  obtain ⟨-, roots, raised⟩ :=
    stencil.raises [] 0 stage.document { stage with shortcomings := {} } rfl rfl
  have same : outcome = _ := blind { stage with shortcomings := {} } stage.shortcomings
  rw [← stencil.roots_sow] at roots
  rw [same]
  exact ⟨roots, rfl, raised⟩

/-! ## Binding -/

namespace Instance

variable {strategies : List (Strategy σ)} {limit index : Nat} {path : Path} {stage : Stage}
  {roots : List NodeId} {parts : List Part}

/-- Every part that is not beyond what the stage shows can be located. -/
def Locates (limit : Nat) (stage : Stage) (roots : List NodeId) (parts : List Part) : Prop :=
  ∀ part ∈ parts, (stage.locate roots part.path).isSome ↔ ¬ part.Beyond limit

theorem bindAll_of_missing (locates : Locates limit stage roots parts) {start : Nat}
    (missing : Part.missing? limit start parts = some (index, path)) :
    bindAll strategies stage roots start parts = .error (index, .noNode path) := by
  induction parts generalizing start with
  | nil => cases missing
  | cons part parts ih =>
    obtain ⟨here, later⟩ := List.forall_mem_cons.mp locates
    rw [Part.missing?] at missing
    rw [bindAll]
    split at missing
    · next beyond =>
      cases missing
      have nowhere : stage.locate roots part.path = none := by
        rw [← Option.not_isSome_iff_eq_none, here]
        exact not_not_intro beyond
      rw [nowhere]
    · next near =>
      obtain ⟨node, found⟩ := Option.isSome_iff_exists.mp (here.mpr near)
      rw [found, ih later missing]
      rfl

theorem bindAll_of_near (locates : Locates limit stage roots parts)
    (near : ∀ part ∈ parts, ¬ part.Beyond limit) (start : Nat) :
    ∃ bindings, bindAll strategies stage roots start parts = .ok bindings := by
  induction parts generalizing start with
  | nil => exact ⟨[], rfl⟩
  | cons part parts ih =>
    obtain ⟨here, later⟩ := List.forall_mem_cons.mp locates
    obtain ⟨nearHere, nearLater⟩ := List.forall_mem_cons.mp near
    obtain ⟨node, found⟩ := Option.isSome_iff_exists.mp (here.mpr nearHere)
    obtain ⟨bindings, bound⟩ := ih later nearLater (start + 1)
    refine ⟨bind strategies node part :: bindings, ?_⟩
    rw [bindAll, found, bound]
    rfl

end Instance

/-- In a copy of its forest, a part can be located unless it is beyond what the stage shows. -/
theorem Stencil.locates {stencil : Stencil} {grove : Grove}
    (copies : grove.Copies (Forest.assigned stencil.forest)) {stage : Stage} {limit : Nat}
    (limited : stage.shortcomings = .showing limit) {parent : Option NodeId}
    (bears : grove.Bears stage.document parent) :
    Instance.Locates limit stage grove.roots stencil.blueprint.parts := by
  intro part member
  obtain ⟨node, tree, -, -, leads, -⟩ := exists_copy copies member
  have sees (index : Nat) : stage.sees index = true ↔ ¬ limit ≤ index := by
    simp [Stage.sees, limited, Shortcomings.showing]
  rw [bears.locate_roots, leads, ← not_iff_not, not_not, Part.Beyond]
  simp [List.all_eq_true, sees]

/-! ## Making -/

namespace Instance

variable (strategies : List (Strategy σ)) {template : Template} {limit : Nat} {stage : Stage}

/-- The copy of a forest and the stage with it. -/
def copied (template : Template) (stage : Stage) : List NodeId × Stage :=
  (template.blueprint.forest.mapM Stage.copy).run stage

/-- An instance is made of a copy and what its parts are bound to. -/
def assemble (template : Template) (roots : List NodeId) :
    Except (Nat × ResolutionError) (List (Binding σ)) →
      StageM (Except (Nat × ResolutionError) (Instance σ))
  | .error error => pure (.error error)
  | .ok bindings => do
    Stage.note (.instantiated roots.length bindings.length)
    pure (.ok (.mk template roots bindings))

theorem run_make (template : Template) (stage : Stage) :
    let outcome := copied template stage
    (make strategies template).run stage =
      (assemble template outcome.1
        (bindAll strategies outcome.2 outcome.1 0 template.blueprint.parts)).run outcome.2 := by
  intro outcome
  have assembles (after : Stage) : StateT.run (do
      match bindAll strategies (← get) outcome.1 0 template.blueprint.parts with
      | .error error => pure (.error error)
      | .ok bindings =>
        Stage.note (.instantiated outcome.1.length bindings.length)
        pure (.ok (.mk template outcome.1 bindings)) : StageM (Except _ (Instance σ))) after =
      (assemble template outcome.1
        (bindAll strategies after outcome.1 0 template.blueprint.parts)).run after := by
    rw [StateT.run_bind, StateT.run_get, pure_bind]
    cases bindAll strategies after outcome.1 0 template.blueprint.parts <;> rfl
  exact assembles outcome.2

variable (compiled : template.Compiled) (limited : stage.shortcomings = .showing limit)

include compiled limited

/-- A copy of the forest is put into the document, and nothing else changes.  In it, a part can be
located unless it is beyond what the stage shows. -/
theorem exists_copied :
    ∃ grove next deeds, (copied template stage).1 = grove.roots ∧
      (copied template stage).2.shortcomings = stage.shortcomings ∧
      Raised stage.document grove next deeds (copied template stage).2.document ∧
      (∀ mutation ∈ deeds, ¬ stage.document.Has mutation.node) ∧
      Locates limit (copied template stage).2 grove.roots template.blueprint.parts := by
  obtain ⟨stencil, layout⟩ := compiled.exists_stencil
  obtain ⟨roots, short, raised⟩ := stencil.copied stage
  have locates := Stencil.locates (stencil.copies_sow none [] 0 stage.document.size)
    (short.trans limited) raised.added.bears
  rw [copied, layout]
  exact ⟨_, _, _, roots, short, raised,
    fun mutation member => Nat.not_lt.mpr (stencil.deeds_sow none [] 0 _ mutation member), locates⟩

/-- Where no part is beyond what the stage shows, an instance is made. -/
theorem make_of_near (near : template.missing? limit = none) :
    ∃ inner, ((make strategies template).run stage).1 = .ok inner ∧ inner.template = template := by
  obtain ⟨grove, next, deeds, roots, -, -, -, locates⟩ := exists_copied compiled limited
  rw [← roots] at locates
  obtain ⟨bindings, bound⟩ := @bindAll_of_near σ strategies _ _ _ _ locates
    (Template.missing?_eq_none_iff.mp near) 0
  refine ⟨.mk template (copied template stage).1 bindings, ?_, rfl⟩
  rw [run_make, bound]
  rfl

/-- Else none is made, and the first part that is beyond is reported. -/
theorem make_of_missing {index : Nat} {path : Path}
    (missing : template.missing? limit = some (index, path)) :
    (make strategies template).run stage =
      (.error (index, .noNode path), (copied template stage).2) := by
  obtain ⟨grove, next, deeds, roots, -, -, -, locates⟩ := exists_copied compiled limited
  rw [← roots] at locates
  rw [run_make, bindAll_of_missing locates missing]
  rfl

end Instance

end LiveMarkup
