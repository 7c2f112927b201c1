import LiveMarkup.Proofs.Placeholder
import LiveMarkup.Proofs.Stencil
import LiveMarkup.Template.Survey
import Mathlib.Data.List.Perm.Basic

/-! # What a survey finds

A survey that succeeds has cut its forest into a stencil: `Cut` says how each node of the forest
turns into nodes of the stencil, and that the placeholders come up with consecutive indices on the
way.  `nodes_cut` shows this for the monadic survey, together with the parts and the positions that
the survey takes down; nothing later opens the survey again. -/

namespace LiveMarkup

open Markup

/-! ## Forests with placeholders -/

namespace Placeholder

/-- The indices of the placeholders among pieces. -/
def indices : List Piece → List Nat
  | [] => []
  | .run _ :: rest => indices rest
  | .placeholder index :: rest => index :: indices rest

theorem mem_indices_iff {pieces : List Piece} {index : Nat} :
    index ∈ indices pieces ↔ .placeholder index ∈ pieces := by
  induction pieces with
  | nil => simp [indices]
  | cons piece pieces ih => cases piece <;> simp [indices, ih]

end Placeholder

namespace Stencil

/-- The attributes whose value is no placeholder. -/
def staticPairs (pairs : List (String × String)) : List (String × String) :=
  pairs.filter fun pair => (Placeholder.index? pair.2.toList).isNone

/-- The names of the attributes whose whole value is a placeholder, with its index. -/
def markedPairs (pairs : List (String × String)) : List (String × Nat) :=
  pairs.filterMap fun pair => (Placeholder.index? pair.2.toList).map fun index => (pair.1, index)

section

variable {name value : String} {rest : List (String × String)}

theorem staticPairs_marked {index : Nat} (found : Placeholder.index? value.toList = some index) :
    staticPairs ((name, value) :: rest) = staticPairs rest := by
  simp [staticPairs, found]

theorem staticPairs_static (absent : Placeholder.index? value.toList = none) :
    staticPairs ((name, value) :: rest) = (name, value) :: staticPairs rest := by
  simp [staticPairs, absent]

theorem markedPairs_marked {index : Nat} (found : Placeholder.index? value.toList = some index) :
    markedPairs ((name, value) :: rest) = (name, index) :: markedPairs rest := by
  simp [markedPairs, found]

theorem markedPairs_static (absent : Placeholder.index? value.toList = none) :
    markedPairs ((name, value) :: rest) = markedPairs rest := by
  simp [markedPairs, absent]

end

/-- A text for each run and a gap for each placeholder. -/
def ofPieces : List Placeholder.Piece → Stencil
  | [] => done
  | .run data :: rest => text (String.ofList data) (ofPieces rest)
  | .placeholder _ :: rest => gap (ofPieces rest)

@[simp] theorem count_ofPieces (pieces : List Placeholder.Piece) :
    (ofPieces pieces).count = (Placeholder.indices pieces).length := by
  induction pieces with
  | nil => rfl
  | cons piece pieces ih => cases piece <;> simp [ofPieces, count, Placeholder.indices, ih]

/-- `Cut next forest stencil` says that the stencil is the forest with a gap or a dynamic attribute
in place of each placeholder, and that these are numbered from `next` on, in preorder. -/
inductive Cut : Nat → Forest → Stencil → Prop where
  | done {next : Nat} : Cut next [] done
  | element {next : Nat} {name : String} {space : Option String}
      {pairs bound : List (String × String)} {children rest : Forest} {below behind : Stencil}
      (named : Placeholder.occursIn name.toList = false)
      (clean : ∀ pair ∈ staticPairs pairs, Placeholder.occursIn pair.1.toList = false ∧
        Placeholder.occursIn pair.2.toList = false)
      (marked : (markedPairs pairs).Perm ((bound.map Prod.fst).zipIdx next))
      (spelled : ∀ pair ∈ bound, lowerCase pair.1 = lowerCase pair.2)
      (inside : Cut (next + bound.length) children below)
      (after : Cut (next + bound.length + below.count) rest behind) :
      Cut next (.element name space pairs children :: rest)
        (element name space (staticPairs pairs) bound below behind)
  | text {next : Nat} {data : String} {rest : Forest} {behind : Stencil}
      (absent : Placeholder.occursIn data.toList = false) (after : Cut next rest behind) :
      Cut next (.text data :: rest) (text data behind)
  | pieces {next : Nat} {data : String} {rest : Forest} {behind : Stencil}
      (found : Placeholder.occursIn data.toList = true)
      (order : Placeholder.indices (Placeholder.split data.toList) =
        List.range' next (Placeholder.indices (Placeholder.split data.toList)).length)
      (after : Cut (next + (Placeholder.indices (Placeholder.split data.toList)).length)
        rest behind) :
      Cut next (.text data :: rest) (ofPieces (Placeholder.split data.toList) ++ behind)
  | comment {next : Nat} {data : String} {rest : Forest} {behind : Stencil}
      (absent : Placeholder.occursIn data.toList = false) (after : Cut next rest behind) :
      Cut next (.comment data :: rest) (comment data behind)

theorem append_assoc (first second third : Stencil) :
    first ++ second ++ third = first ++ (second ++ third) := by
  induction first with
  | done => rfl
  | element _ _ _ _ _ rest _ ih | text _ rest ih | comment _ rest ih | gap rest ih => simp [ih]

@[simp] theorem append_done (stencil : Stencil) : stencil ++ done = stencil := by
  induction stencil with
  | done => rfl
  | element _ _ _ _ _ rest _ ih | text _ rest ih | comment _ rest ih | gap rest ih => simp [ih]

theorem Cut.append {next : Nat} {first second : Forest} {front back : Stencil}
    (cut : Cut next first front) (later : Cut (next + front.count) second back) :
    Cut next (first ++ second) (front ++ back) := by
  induction cut with
  | done => exact later
  | element named clean marked spelled inside after _ ih =>
    refine .element named clean marked spelled inside (ih ?_)
    simpa [count, Nat.add_assoc] using later
  | text absent after ih => exact .text absent (ih later)
  | pieces found order after ih =>
    rw [append_assoc]
    refine .pieces found order (ih ?_)
    simpa [count_append, Nat.add_assoc] using later
  | comment absent after ih => exact .comment absent (ih later)

end Stencil

/-- The position that a part was written in. -/
def Part.position : Part → Position
  | .attribute part => .attribute part.rawName
  | .node _ => .child

/-! ## Steps of a survey that succeed -/

namespace Survey

open Stencil

variable {α β : Type}

theorem bind_eq_ok {action : Survey α} {next : α → Survey β} {before after : Surveyor}
    {result : β} :
    (action >>= next) before = .ok (result, after) ↔
      ∃ value between, action before = .ok (value, between) ∧
        next value between = .ok (result, after) := by
  change (action before >>= fun pair => next pair.1 pair.2) = _ ↔ _
  cases action before with
  | error error => simp [bind, Except.bind]
  | ok pair =>
    constructor
    · intro same
      exact ⟨pair.1, pair.2, rfl, same⟩
    · rintro ⟨value, between, same, rest⟩
      cases same
      exact rest

theorem pure_eq_ok {value result : α} {before after : Surveyor} :
    (pure value : Survey α) before = .ok (result, after) ↔ value = result ∧ before = after := by
  change Except.ok (value, before) = .ok (result, after) ↔ _
  simp

theorem throw_ne_ok {error : LiteralError} {before after : Surveyor} {result : α} :
    (throw error : Survey α) before ≠ .ok (result, after) := by
  intro same
  cases same

theorem refuse_ne_ok {place : Misplacement} {before after : Surveyor} {result : α} :
    (refuse place : Survey α) before ≠ .ok (result, after) := by
  intro same
  cases same

theorem meet_eq_ok {found : Nat} {before after : Surveyor} {position : Position} :
    meet found before = .ok (position, after) ↔
      after = before ∧ found = before.parts.length ∧
        before.upcoming = position :: before.upcoming.tail := by
  obtain ⟨upcoming, parts⟩ := before
  cases upcoming with
  | nil =>
    constructor
    · intro same
      cases same
    · rintro ⟨-, -, same⟩
      cases same
  | cons first rest =>
    change (if found = parts.length then (pure first : Survey Position)
      else throw (.outOfOrder parts.length found)) _ = _ ↔ _
    split
    · next same =>
      rw [pure_eq_ok]
      constructor
      · rintro ⟨rfl, rfl⟩
        exact ⟨rfl, same, rfl⟩
      · rintro ⟨rfl, -, head⟩
        exact ⟨(List.cons.inj head).1, rfl⟩
    · next different =>
      constructor
      · intro same
        exact absurd same throw_ne_ok
      · rintro ⟨-, same, -⟩
        exact absurd same different

theorem note_eq_ok {part : Part} {before after : Surveyor} :
    note part before = .ok ((), after) ↔
      after = { upcoming := before.upcoming.tail, parts := before.parts ++ [part] } := by
  change Except.ok ((), _) = Except.ok ((), after) ↔ _
  simp [eq_comm]

/-! ## Attributes -/

theorem sortOut_eq_ok {pairs static : List (String × String)} {bound : List (String × Nat)}
    {before after : Surveyor} (sorted : sortOut pairs before = .ok ((static, bound), after)) :
    after = before ∧ static = staticPairs pairs ∧ bound = markedPairs pairs ∧
      ∀ pair ∈ staticPairs pairs, Placeholder.occursIn pair.1.toList = false ∧
        Placeholder.occursIn pair.2.toList = false := by
  induction pairs generalizing static bound after with
  | nil =>
    obtain ⟨same, rfl⟩ := pure_eq_ok.mp sorted
    cases same
    exact ⟨rfl, rfl, rfl, by simp [staticPairs]⟩
  | cons pair pairs ih =>
    obtain ⟨name, value⟩ := pair
    cases read : Placeholder.index? value.toList with
    | some found =>
      simp only [sortOut, read] at sorted
      obtain ⟨⟨static', bound'⟩, between, sortedRest, final⟩ := bind_eq_ok.mp sorted
      obtain ⟨same, rfl⟩ := pure_eq_ok.mp final
      cases same
      obtain ⟨rfl, rfl, rfl, clean⟩ := ih sortedRest
      rw [staticPairs_marked read, markedPairs_marked read]
      exact ⟨rfl, rfl, rfl, clean⟩
    | none =>
      simp only [sortOut, read] at sorted
      -- A placeholder in the name or in a part of the value would have been refused.
      split at sorted
      · exact absurd sorted refuse_ne_ok
      next nameClean =>
      split at sorted
      · exact absurd sorted refuse_ne_ok
      next valueClean =>
      obtain ⟨⟨static', bound'⟩, between, sortedRest, final⟩ := bind_eq_ok.mp sorted
      obtain ⟨same, rfl⟩ := pure_eq_ok.mp final
      cases same
      obtain ⟨rfl, rfl, rfl, clean⟩ := ih sortedRest
      rw [staticPairs_static read, markedPairs_static read]
      refine ⟨rfl, rfl, rfl, ?_⟩
      intro other member
      obtain rfl | member := List.mem_cons.mp member
      · exact ⟨by simpa using nameClean, by simpa using valueClean⟩
      · exact clean other member

theorem insertBound_perm (entry : String × Nat) (bound : List (String × Nat)) :
    (insertBound entry bound).Perm (entry :: bound) := by
  induction bound with
  | nil => exact .refl _
  | cons other rest ih =>
    unfold insertBound
    split
    · exact .refl _
    · exact (ih.cons other).trans (.swap entry other rest)

theorem inOrder_perm (bound : List (String × Nat)) : (inOrder bound).Perm bound := by
  induction bound with
  | nil => exact .refl _
  | cons entry rest ih => exact (insertBound_perm entry (inOrder rest)).trans (ih.cons entry)

/-- The parts of dynamic attributes are taken down if their indices are the next ones, in order, and
their positions are those of attributes of the same names up to case. -/
theorem attributes_eq_ok {path : Path} {entries : List (String × Nat)} {before after : Surveyor}
    (done : attributes path entries before = .ok ((), after)) :
    ∃ bound, entries = (bound.map Prod.fst).zipIdx before.parts.length ∧
      (∀ pair ∈ bound, lowerCase pair.1 = lowerCase pair.2) ∧
      after.parts = before.parts ++ boundParts path bound ∧
      before.upcoming = (boundParts path bound).map Part.position ++ after.upcoming := by
  induction entries generalizing before with
  | nil =>
    obtain ⟨-, rfl⟩ := pure_eq_ok.mp done
    exact ⟨[], by simp [boundParts]⟩
  | cons entry entries ih =>
    obtain ⟨name, found⟩ := entry
    obtain ⟨position, between, met, rest⟩ := bind_eq_ok.mp done
    -- The next position must be that of an attribute of this name.
    obtain ⟨rfl, rfl, head⟩ := meet_eq_ok.mp met
    obtain rawName | _ := position
    swap
    · exact absurd rest throw_ne_ok
    dsimp only at rest
    split at rest
    · next same =>
      obtain ⟨⟨⟩, noted, note, later⟩ := bind_eq_ok.mp rest
      obtain rfl := note_eq_ok.mp note
      obtain ⟨bound, rfl, spelled, parts, upcoming⟩ := ih later
      refine ⟨(name, rawName) :: bound, by simp, ?_, ?_, ?_⟩
      · intro pair member
        obtain rfl | member := List.mem_cons.mp member
        · exact same
        · exact spelled pair member
      · rw [parts]
        simp [boundParts]
      · dsimp only at upcoming
        rw [head, upcoming]
        simp [boundParts, Part.position]
    · exact absurd rest throw_ne_ok

/-! ## Texts -/

/-- The gaps of a text are taken down if their indices are the next ones, in order, and their
positions are those of content. -/
theorem pieces_eq_ok {parent : Path} {index : Nat} {list : List Placeholder.Piece}
    {before after : Surveyor} {result : List Node}
    (done : pieces parent index list before = .ok (result, after)) :
    result = (ofPieces list).forest ∧
      Placeholder.indices list =
        List.range' before.parts.length (Placeholder.indices list).length ∧
      after.parts = before.parts ++ (ofPieces list).partsAt parent index ∧
      before.upcoming = ((ofPieces list).partsAt parent index).map Part.position ++
        after.upcoming := by
  induction list generalizing before index result with
  | nil =>
    obtain ⟨rfl, rfl⟩ := pure_eq_ok.mp done
    simp [ofPieces, forest, partsAt, Placeholder.indices]
  | cons piece list ih =>
    cases piece with
    | run data =>
      obtain ⟨behind, between, later, final⟩ := bind_eq_ok.mp done
      obtain ⟨rfl, rfl⟩ := pure_eq_ok.mp final
      obtain ⟨rfl, order, parts, upcoming⟩ := ih later
      exact ⟨rfl, order, parts, upcoming⟩
    | placeholder found =>
      obtain ⟨position, between, met, rest⟩ := bind_eq_ok.mp done
      obtain ⟨rfl, rfl, head⟩ := meet_eq_ok.mp met
      obtain rawName | _ := position
      · exact absurd rest throw_ne_ok
      obtain ⟨⟨⟩, noted, note, more⟩ := bind_eq_ok.mp rest
      obtain rfl := note_eq_ok.mp note
      obtain ⟨behind, between, later, final⟩ := bind_eq_ok.mp more
      obtain ⟨rfl, rfl⟩ := pure_eq_ok.mp final
      obtain ⟨rfl, order, parts, upcoming⟩ := ih later
      refine ⟨rfl, ?_, ?_, ?_⟩
      · rw [List.length_append, List.length_singleton] at order
        simp only [Placeholder.indices, List.length_cons, List.range'_succ, List.cons.injEq,
          true_and]
        exact order
      · rw [parts]
        simp [ofPieces, partsAt]
      · dsimp only at upcoming
        rw [head, upcoming]
        simp [ofPieces, partsAt, Part.position]

/-! ## Nodes -/

/-- What a successful survey of sibling nodes amounts to: a stencil that the forest is cut into,
whose forest is the result and whose parts are those taken down. -/
def Surveyed (parent : Path) (index : Nat) (tree : Forest) (before after : Surveyor)
    (result : List Node) : Prop :=
  ∃ stencil : Stencil, result = stencil.forest ∧ Cut before.parts.length tree stencil ∧
    after.parts = before.parts ++ stencil.partsAt parent index ∧
    before.upcoming = (stencil.partsAt parent index).map Part.position ++ after.upcoming

mutual

theorem node_cut {parent : Path} {index : Nat} {before after : Surveyor} {result : List Node}
    (tree : Node) (done : node parent index tree before = .ok (result, after)) :
    Surveyed parent index [tree] before after result := by
  match tree with
  | .text data =>
    unfold node at done
    split at done
    · next found =>
      obtain ⟨rfl, order, parts, upcoming⟩ := pieces_eq_ok done
      refine ⟨ofPieces (Placeholder.split data.toList), rfl, ?_, parts, upcoming⟩
      simpa using (Cut.pieces found order .done : Cut _ _ (ofPieces _ ++ .done))
    · next absent =>
      obtain ⟨rfl, rfl⟩ := pure_eq_ok.mp done
      exact ⟨.text data .done, rfl, .text (by simpa using absent) .done, by simp [partsAt],
        by simp [partsAt]⟩
  | .comment data =>
    unfold node at done
    split at done
    · exact absurd done refuse_ne_ok
    · next absent =>
      obtain ⟨rfl, rfl⟩ := pure_eq_ok.mp done
      exact ⟨.comment data .done, rfl, .comment (by simpa using absent) .done, by simp [partsAt],
        by simp [partsAt]⟩
  | .element name space pairs children =>
    unfold node at done
    split at done
    · exact absurd done refuse_ne_ok
    next absent =>
    obtain ⟨⟨static, entries⟩, sorted, sortedOut, rest⟩ := bind_eq_ok.mp done
    obtain ⟨⟨⟩, attributed, noted, rest⟩ := bind_eq_ok.mp rest
    obtain ⟨inner, inside, surveyed, final⟩ := bind_eq_ok.mp rest
    obtain ⟨rfl, rfl⟩ := pure_eq_ok.mp final
    -- The attributes have taken down their parts, then the children theirs.
    obtain ⟨rfl, rfl, rfl, clean⟩ := sortOut_eq_ok sortedOut
    obtain ⟨bound, ordered, spelled, parts, upcoming⟩ := attributes_eq_ok noted
    obtain ⟨below, rfl, cut, moreParts, moreUpcoming⟩ := nodes_cut children surveyed
    rw [parts, List.length_append, length_boundParts] at cut
    refine ⟨.element name space (staticPairs pairs) bound below .done, rfl, ?_, ?_, ?_⟩
    · exact .element (by simpa using absent) clean (ordered ▸ (inOrder_perm _).symm) spelled cut
        .done
    · rw [moreParts, parts]
      simp [partsAt]
    · rw [upcoming, moreUpcoming]
      simp [partsAt]

theorem nodes_cut {parent : Path} {index : Nat} {before after : Surveyor} {result : List Node}
    (tree : List Node) (done : nodes parent index tree before = .ok (result, after)) :
    Surveyed parent index tree before after result := by
  match tree with
  | [] =>
    obtain ⟨rfl, rfl⟩ := pure_eq_ok.mp done
    exact ⟨.done, rfl, .done, by simp [partsAt], by simp [partsAt]⟩
  | first :: rest =>
    unfold nodes at done
    obtain ⟨here, between, surveyed, more⟩ := bind_eq_ok.mp done
    obtain ⟨behind, ended, later, final⟩ := bind_eq_ok.mp more
    obtain ⟨rfl, rfl⟩ := pure_eq_ok.mp final
    obtain ⟨front, rfl, cut, parts, upcoming⟩ := node_cut first surveyed
    obtain ⟨back, rfl, cutLater, moreParts, moreUpcoming⟩ := nodes_cut rest later
    rw [parts, List.length_append, length_partsAt] at cutLater
    refine ⟨front ++ back, (forest_append front back).symm, cut.append cutLater, ?_, ?_⟩
    · rw [moreParts, parts, partsAt_append, List.append_assoc]
    · rw [upcoming, moreUpcoming, partsAt_append, List.map_append, List.append_assoc]

end

end Survey

/-! ## The whole survey -/

/-- A blueprint comes from a stencil that the forest is cut into and whose parts are at the given
positions. -/
theorem Blueprint.survey_eq_ok {places : List Position} {forest : Forest} {blueprint : Blueprint}
    (surveyed : Blueprint.survey places forest = .ok blueprint) :
    ∃ stencil : Stencil, blueprint = stencil.blueprint ∧ Stencil.Cut 0 forest stencil ∧
      places = blueprint.parts.map Part.position := by
  unfold Blueprint.survey at surveyed
  cases run : (Survey.nodes [] 0 forest).run { upcoming := places, parts := [] } with
  | error error => simp [run, bind, Except.bind] at surveyed
  | ok pair =>
    obtain ⟨result, surveyor⟩ := pair
    simp only [run, bind, Except.bind] at surveyed
    split at surveyed
    · next finished =>
      cases surveyed
      obtain ⟨stencil, rfl, cut, parts, upcoming⟩ := Survey.nodes_cut forest run
      rw [List.nil_append] at parts
      rw [finished, List.append_nil] at upcoming
      refine ⟨stencil, ?_, cut, ?_⟩
      · rw [parts]
        rfl
      · rw [parts]
        exact upcoming
    · cases surveyed

end LiveMarkup
