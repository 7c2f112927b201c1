import LiveMarkup.Proofs.Planting.Matching

/-! # Updates that spare what is matched

`Sparing` says of a piece of a bed, and of what has become of it, that nodes in matched positions are
where they were, and that each change which has been recorded was due.  Pieces lie side by side, so
the rules that build it up are `Sparing.append`, one rule for each kind of node, and one each for pieces
that go away and for pieces that come anew.

A change of a piece is told as the loss of the old one next to the growth of the new one, so no rule
is needed for one change after another. -/

namespace LiveMarkup

open Document Markup

variable {before between after next : Nat} {deeds more : List Mutation} {node : NodeId}

/-! ## New nodes -/

/-- Whether a node has been created while the number of nodes has grown as told. -/
def Fresh (before after : Nat) (node : NodeId) : Prop :=
  before ≤ node.number ∧ node.number < after

/-- The nodes that have been created. -/
def created (before after : Nat) : List NodeId :=
  (List.range' before (after - before)).map NodeId.mk

theorem mem_created : node ∈ created before after ↔ Fresh before after node := by
  simp only [created, List.mem_map, List.mem_range'_1, Fresh]
  constructor
  · rintro ⟨number, range, rfl⟩
    show before ≤ number ∧ number < after
    omega
  · intro range
    exact ⟨node.number, by omega, rfl⟩

theorem created_append (first : before ≤ between) (second : between ≤ after) :
    created before between ++ created between after = created before after := by
  have shift : between = before + (between - before) := by omega
  have both : between - before + (after - between) = after - before := by omega
  rw [created, created, created, ← List.map_append, ← both]
  nth_rewrite 2 [shift]
  rw [← List.range'_append_1]

@[simp] theorem created_self (number : Nat) : created number number = [] := by
  simp [created]

@[simp] theorem created_succ (number : Nat) : created number (number + 1) = [⟨number⟩] := by
  simp [created]

theorem created_nodup (before after : Nat) : (created before after).Nodup :=
  List.Nodup.map (fun _ _ => congrArg NodeId.number) List.nodup_range'

/-! ## What may be done -/

/-- A change that is due: a text that differs from the one that its node `shows`, the value of a
dynamic attribute, an attribute of a new element, or a node that is new or goes away. -/
inductive Mutation.Due (shows bound : NodeId → String → Prop) (new gone : NodeId → Prop) :
    Mutation → Prop where
  | text {anchor : NodeId} {shown data : String} (known : shows anchor shown)
      (changes : shown ≠ data) : Due shows bound new gone (.setText anchor data)
  | dynamic {element : NodeId} {name value : String} (known : bound element name) :
      Due shows bound new gone (.setAttribute element name value)
  | dress {element : NodeId} {name value : String} (made : new element) :
      Due shows bound new gone (.setAttribute element name value)
  | insert {parent node : NodeId} (made : new node) : Due shows bound new gone (.insert parent node)
  | remove {node : NodeId} (away : gone node) : Due shows bound new gone (.remove node)

theorem Mutation.Due.mono {shows shows' bound bound' : NodeId → String → Prop}
    {new new' gone gone' : NodeId → Prop} {deed : Mutation} (due : deed.Due shows bound new gone)
    (texts : ∀ anchor shown, shows anchor shown → shows' anchor shown)
    (attributes : ∀ element name, bound element name → bound' element name ∨ new' element)
    (made : ∀ node, new node → new' node) (away : ∀ node, gone node → gone' node) :
    deed.Due shows' bound' new' gone' := by
  cases due with
  | text known changes => exact .text (texts _ _ known) changes
  | dynamic known =>
    obtain known | new := attributes _ _ known
    · exact .dynamic known
    · exact .dress new
  | dress new => exact .dress (made _ new)
  | insert new => exact .insert (made _ new)
  | remove gone => exact .remove (away _ gone)

/-- The node whose text a change sets. -/
def Mutation.retold? : Mutation → Option NodeId
  | .setText node _ => some node
  | _ => none

/-- The nodes whose texts are set. -/
def retold (deeds : List Mutation) : List NodeId :=
  deeds.filterMap Mutation.retold?

theorem retold_append (deeds more : List Mutation) :
    retold (deeds ++ more) = retold deeds ++ retold more :=
  List.filterMap_append

/-- Changes that are due without any texts set none. -/
theorem retold_eq_nil {bound : NodeId → String → Prop} {new gone : NodeId → Prop}
    (due : ∀ deed ∈ deeds, deed.Due (fun _ _ => False) bound new gone) : retold deeds = [] := by
  refine List.filterMap_eq_nil_iff.mpr fun deed member => ?_
  cases due deed member with
  | text known _ => exact known.elim
  | dynamic | dress | insert | remove => rfl

/-- Changes that are due in nodes which have been created. -/
def Makes (before after : Nat) (deeds : List Mutation) : Prop :=
  ∀ deed ∈ deeds, deed.Due (fun _ _ => False) (fun _ _ => False) (Fresh before after) fun _ => False

namespace Makes

theorem nil : Makes before after [] :=
  nofun

theorem append (first : Makes before after deeds) (second : Makes before after more) :
    Makes before after (deeds ++ more) :=
  List.forall_mem_append.mpr ⟨first, second⟩

theorem wider {before' after' : Nat} (makes : Makes before after deeds) (low : before' ≤ before)
    (high : after ≤ after') : Makes before' after' deeds :=
  fun deed member => (makes deed member).mono (fun _ _ => id) (fun _ _ => .inl)
    (fun _ fresh => ⟨low.trans fresh.1, fresh.2.trans_le high⟩) fun _ => id

/-- The attributes of a new element. -/
theorem dresses (more : before < after) {static : List (String × String)} :
    Makes before after (static.map fun pair => .setAttribute ⟨before⟩ pair.1 pair.2) := by
  intro deed member
  obtain ⟨pair, -, rfl⟩ := List.mem_map.mp member
  exact .dress ⟨Nat.le_refl _, more⟩

/-- A new node that is put in, if it is. -/
theorem inserts (more : before < after) {inside : Option NodeId} :
    Makes before after (inside.toList.map (.insert · ⟨before⟩)) := by
  intro deed member
  obtain ⟨parent, -, rfl⟩ := List.mem_map.mp member
  exact .insert ⟨Nat.le_refl _, more⟩

end Makes

/-! ## Pieces -/

/-- A piece of a bed: its nodes, its anchors with their texts, and its dynamic attributes. -/
structure Tract where
  grove : Grove
  texts : List (NodeId × String)
  bound : List (NodeId × String)

namespace Tract

def empty : Tract :=
  ⟨.nil, [], []⟩

instance : Append Tract :=
  ⟨fun first second => ⟨first.grove ++ second.grove, first.texts ++ second.texts,
    first.bound ++ second.bound⟩⟩

theorem append_def (first second : Tract) : first ++ second =
    ⟨first.grove ++ second.grove, first.texts ++ second.texts, first.bound ++ second.bound⟩ :=
  rfl

@[simp] theorem append_empty (tract : Tract) : tract ++ empty = tract := by
  rw [append_def, empty, Grove.append_nil, List.append_nil, List.append_nil]

/-- One node that is no anchor. -/
def leaf (node : NodeId) (data : NodeData) : Tract :=
  ⟨.leaf node data, [], []⟩

/-- An anchor. -/
def anchor (anchor : NodeId) (shown : String) : Tract :=
  ⟨.leaf anchor (.text shown), [(anchor, shown)], []⟩

/-- An element with what is inside of it. -/
def element (node : NodeId) (data : NodeData) (names : List String) (below : Tract) : Tract :=
  ⟨.cons node data below.grove .nil, below.texts, names.map (node, ·) ++ below.bound⟩

def anchors (tract : Tract) : List NodeId :=
  tract.texts.map Prod.fst

end Tract

/-- The texts of the anchors of a piece, the new ones of which have been empty. -/
def Tract.Shows (before after : Nat) (old new : Tract) (anchor : NodeId) (shown : String) : Prop :=
  (anchor, shown) ∈ old.texts ∨ Fresh before after anchor ∧ anchor ∈ new.anchors ∧ shown = ""

/-- A piece of a bed has been changed while the number of nodes has grown as told.  `kept` are its
nodes in matched positions, and `gone` the others. -/
structure Sparing (before after : Nat) (deeds : List Mutation) (old new : Tract)
    (kept kept' gone : List NodeId) : Prop where
  grows : before ≤ after
  same : kept' = kept
  whole : (kept ++ gone).Perm old.grove.nodes
  fresh : ∀ node ∈ new.grove.nodes, node ∈ kept ∨ Fresh before after node
  spliced : ∀ keep : NodeId → Prop, (∀ node ∈ gone, ¬ keep node) →
    (∀ node, Fresh before after node → ¬ keep node) → Grove.Spliced keep old.grove new.grove
  lasting : ∀ anchor ∈ old.anchors, anchor ∈ gone ∨ anchor ∈ new.anchors
  due : ∀ deed ∈ deeds, deed.Due (Tract.Shows before after old new)
    (fun element name => (element, name) ∈ old.bound) (Fresh before after) (· ∈ gone)
  once : (retold deeds).Subperm (old.anchors ++ created before after)

namespace Sparing

variable {old new old' new' : Tract} {kept kept' gone others others' away : List NodeId}

theorem nil (number : Nat) : Sparing number number [] .empty .empty [] [] [] where
  grows := Nat.le_refl _
  same := rfl
  whole := .refl _
  fresh := nofun
  spliced _ _ _ := .nil
  lasting := nofun
  due := nofun
  once := List.nil_subperm

theorem append (first : Sparing before between deeds old new kept kept' gone)
    (second : Sparing between after more old' new' others others' away) :
    Sparing before after (deeds ++ more) (old ++ old') (new ++ new') (kept ++ others)
      (kept' ++ others') (gone ++ away) := by
  have early (node : NodeId) (fresh : Fresh before between node) : Fresh before after node :=
    ⟨fresh.1, fresh.2.trans_le second.grows⟩
  have late (node : NodeId) (fresh : Fresh between after node) : Fresh before after node :=
    ⟨first.grows.trans fresh.1, fresh.2⟩
  constructor
  case grows => exact first.grows.trans second.grows
  case same => rw [first.same, second.same]
  case whole =>
    rw [Tract.append_def, Grove.nodes_append]
    -- Both sides list the nodes that are kept and those that are gone, in different orders.
    have swap : (kept ++ others ++ (gone ++ away)).Perm (kept ++ gone ++ (others ++ away)) := by
      rw [List.append_assoc, List.append_assoc]
      refine List.Perm.append_left kept ?_
      rw [← List.append_assoc, ← List.append_assoc]
      exact List.perm_append_comm.append_right away
    exact swap.trans (first.whole.append second.whole)
  case fresh =>
    intro node member
    rw [Tract.append_def, Grove.nodes_append, List.mem_append] at member
    obtain member | member := member
    · exact (first.fresh node member).imp (List.mem_append_left _) (early node)
    · exact (second.fresh node member).imp (List.mem_append_right _) (late node)
  case spliced =>
    intro keep lost gained
    refine (first.spliced keep ?_ ?_).append (second.spliced keep ?_ ?_)
    · exact fun node member => lost node (List.mem_append_left _ member)
    · exact fun node fresh => gained node (early node fresh)
    · exact fun node member => lost node (List.mem_append_right _ member)
    · exact fun node fresh => gained node (late node fresh)
  case lasting =>
    intro anchor member
    simp only [Tract.anchors, Tract.append_def, List.map_append, List.mem_append] at member ⊢
    obtain member | member := member
    · exact (first.lasting anchor member).imp .inl .inl
    · exact (second.lasting anchor member).imp .inr .inr
  case due =>
    intro deed member
    rw [List.mem_append] at member
    obtain member | member := member
    · -- What makes a change due in one piece does so in both together.
      refine (first.due deed member).mono ?_ ?_ early fun _ => List.mem_append_left _
      · rintro anchor shown (known | ⟨fresh, member, empty⟩)
        · exact .inl (List.mem_append_left _ known)
        · refine .inr ⟨early _ fresh, ?_, empty⟩
          rw [Tract.anchors, Tract.append_def, List.map_append]
          exact List.mem_append_left _ member
      · exact fun _ _ known => .inl (List.mem_append_left _ known)
    · refine (second.due deed member).mono ?_ ?_ late fun _ => List.mem_append_right _
      · rintro anchor shown (known | ⟨fresh, member, empty⟩)
        · exact .inl (List.mem_append_right _ known)
        · refine .inr ⟨late _ fresh, ?_, empty⟩
          rw [Tract.anchors, Tract.append_def, List.map_append]
          exact List.mem_append_right _ member
      · exact fun _ _ known => .inl (List.mem_append_right _ known)
  case once =>
    rw [retold_append, ← created_append first.grows second.grows, Tract.anchors, Tract.append_def,
      List.map_append]
    have swap : (old.anchors ++ created before between ++
        (old'.anchors ++ created between after)).Perm
          (old.anchors ++ old'.anchors ++ (created before between ++ created between after)) := by
      rw [List.append_assoc, List.append_assoc]
      refine List.Perm.append_left _ ?_
      rw [← List.append_assoc, ← List.append_assoc]
      exact List.perm_append_comm.append_right _
    exact (first.once.append second.once).trans swap.subperm

/-- The order of the changes does not matter. -/
theorem reorder (sparing : Sparing before after deeds old new kept kept' gone)
    (perm : deeds.Perm more) : Sparing before after more old new kept kept' gone :=
  { sparing with
    due := fun deed member => sparing.due deed (perm.mem_iff.mpr member)
    once := (perm.filterMap _).symm.subperm.trans sparing.once }

/-! ## Nodes that stay -/

theorem leaf (number : Nat) (node : NodeId) (data : NodeData) :
    Sparing number number [] (.leaf node data) (.leaf node data) [node] [node] [] where
  grows := Nat.le_refl _
  same := rfl
  whole := .refl _
  fresh _ member := .inl member
  spliced _ _ _ := .kept .nil .nil
  lasting := nofun
  due := nofun
  once := List.nil_subperm

theorem anchor (number : Nat) (anchor : NodeId) (shown data : String) :
    Sparing number number (Plot.writing anchor shown data) (.anchor anchor shown)
      (.anchor anchor data) [anchor] [anchor] [] where
  grows := Nat.le_refl _
  same := rfl
  whole := .refl _
  fresh _ member := .inl member
  spliced _ _ _ := .kept .nil .nil
  lasting _ member := .inr member
  due := by
    intro deed member
    unfold Plot.writing at member
    split at member
    · cases member
    · next changes =>
      obtain rfl := List.mem_singleton.mp member
      exact .text (.inl List.mem_cons_self) changes
  once := by
    rw [created_self, List.append_nil]
    unfold Plot.writing
    split
    · exact List.nil_subperm
    · exact List.Subperm.refl _

/-- An element stays with what is inside of it, and its own dynamic attributes may be set. -/
theorem element {names : List String} {data data' : NodeData}
    (sparing : Sparing before after deeds old new kept kept' gone)
    (own : ∀ deed ∈ more, ∃ name ∈ names, ∃ value, deed = .setAttribute node name value) :
    Sparing before after (more ++ deeds) (.element node data names old)
      (.element node data' names new) (node :: kept) (node :: kept') gone where
  grows := sparing.grows
  same := congrArg (node :: ·) sparing.same
  whole := by
    rw [Tract.element, Grove.nodes_cons, Grove.nodes_nil, List.append_nil]
    exact sparing.whole.cons node
  fresh other member := by
    rw [Tract.element, Grove.nodes_cons, Grove.nodes_nil, List.append_nil] at member
    obtain rfl | member := List.mem_cons.mp member
    · exact .inl List.mem_cons_self
    · exact (sparing.fresh other member).imp_left (List.mem_cons_of_mem _)
  spliced keep lost gained := .kept (sparing.spliced keep lost gained) .nil
  lasting := sparing.lasting
  due := by
    intro deed member
    obtain member | member := List.mem_append.mp member
    · obtain ⟨name, among, value, rfl⟩ := own deed member
      exact .dynamic (List.mem_append_left _ (List.mem_map_of_mem among))
    · exact (sparing.due deed member).mono (fun _ _ => id)
        (fun _ _ known => .inl (List.mem_append_right _ known)) (fun _ => id) fun _ => id
  once := by
    have none : retold more = [] := List.filterMap_eq_nil_iff.mpr fun deed member => by
      obtain ⟨name, -, value, rfl⟩ := own deed member
      rfl
    rw [retold_append, none]
    exact sparing.once

/-! ## Pieces that go away, and pieces that come -/

theorem lost (number : Nat) {tract : Tract}
    (due : ∀ deed ∈ deeds, deed.Due (fun anchor shown => (anchor, shown) ∈ tract.texts)
      (fun _ _ => False) (fun _ => False) (· ∈ tract.grove.nodes))
    (once : (retold deeds).Sublist tract.anchors) (anchors : ∀ anchor ∈ tract.anchors,
      anchor ∈ tract.grove.nodes) :
    Sparing number number deeds tract .empty [] [] tract.grove.nodes where
  grows := Nat.le_refl _
  same := rfl
  whole := .refl _
  fresh := nofun
  spliced _ lost _ := .of_lost lost
  lasting anchor member := .inl (anchors anchor member)
  due deed member := (due deed member).mono (fun _ _ => .inl) (fun _ _ => False.elim)
    (fun _ => False.elim) fun _ => id
  once := by
    rw [created_self, List.append_nil]
    exact once.subperm

/-- What is created, and changed after that, comes anew. -/
theorem grown (sparing : Sparing between after more old new kept kept' []) (grows : before ≤ between)
    (nodes : old.grove.nodes = created before between)
    (anchors : old.anchors.Sublist old.grove.nodes) (vacant : ∀ pair ∈ old.texts, pair.2 = "")
    (bound : ∀ pair ∈ old.bound, pair.1 ∈ old.grove.nodes)
    (makes : Makes before between deeds) :
    Sparing before after (deeds ++ more) .empty new [] [] [] := by
  have early (node : NodeId) (fresh : Fresh before between node) : Fresh before after node :=
    ⟨fresh.1, fresh.2.trans_le sparing.grows⟩
  have late (node : NodeId) (fresh : Fresh between after node) : Fresh before after node :=
    ⟨grows.trans fresh.1, fresh.2⟩
  have made (node : NodeId) (member : node ∈ old.grove.nodes) : Fresh before after node :=
    early node (mem_created.mp (nodes ▸ member))
  have fresh (node : NodeId) (member : node ∈ new.grove.nodes) : Fresh before after node := by
    obtain here | fresh := sparing.fresh node member
    · exact made node (sparing.whole.subset (List.mem_append_left _ here))
    · exact late node fresh
  constructor
  case grows => exact grows.trans sparing.grows
  case same => rfl
  case whole => exact .refl _
  case fresh => exact fun node member => .inr (fresh node member)
  case spliced => exact fun keep _ gained => .of_gained fun node member => gained node (fresh node member)
  case lasting => exact nofun
  case due =>
    intro deed member
    obtain member | member := List.mem_append.mp member
    · exact (makes deed member).mono (fun _ _ => False.elim) (fun _ _ => False.elim) early
        fun _ => False.elim
    · refine (sparing.due deed member).mono ?_ ?_ late fun _ => False.elim ∘ List.not_mem_nil
      · rintro anchor shown (known | ⟨fresh, there, empty⟩)
        · have here : anchor ∈ old.anchors := List.mem_map_of_mem known
          refine .inr ⟨made anchor (anchors.subset here), ?_, vacant _ known⟩
          exact (sparing.lasting anchor here).resolve_left List.not_mem_nil
        · exact .inr ⟨late anchor fresh, there, empty⟩
      · exact fun element name known => .inr (made element (bound _ known))
  case once =>
    rw [retold_append, retold_eq_nil makes, ← created_append grows sparing.grows]
    rw [nodes] at anchors
    exact sparing.once.trans (anchors.append_right _).subperm

end Sparing

end LiveMarkup
