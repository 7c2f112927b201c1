import LiveMarkup.Proofs.Limited.Embedding

/-! # The same work in a larger document

The same action, done to a stage and to one with a larger document, does the same, but for the numbers
of nodes (`Parallel`).  This is so for everything that rendering does to a document: nothing of it looks
at a node that it has not been led to. -/

namespace LiveMarkup

open Document Markup

variable {α β γ δ σ : Type} {rename : NodeId → NodeId} {count : Nat}

/-- The document of a stage is within that of another stage, which falls short in the same way. -/
structure Stage.Embeds (rename : NodeId → NodeId) (stage other : Stage) : Prop where
  shortcomings : other.shortcomings = stage.shortcomings
  document : stage.document.Embeds rename other.document

/-- Done to a document with so many nodes at least and to one that it is within, two actions come to
the same.  What they give is as told, with the number of nodes that there are then. -/
def Parallel (rename : NodeId → NodeId) (count : Nat) (action : StageM α) (other : StageM β)
    (post : Nat → α → β → Prop) : Prop :=
  ∀ stage stage' : Stage, count ≤ stage.document.size → stage.Embeds rename stage' →
    let outcome : α × Stage := action.run stage
    let outcome' : β × Stage := other.run stage'
    outcome.2.shortcomings = stage.shortcomings ∧ stage.document.size ≤ outcome.2.document.size ∧
      outcome.2.Embeds rename outcome'.2 ∧ post outcome.2.document.size outcome.1 outcome'.1

namespace Parallel

variable {post : Nat → α → β → Prop}

protected theorem pure {result : α} {result' : β}
    (holds : ∀ size, count ≤ size → post size result result') :
    Parallel rename count (pure result) (pure result') post :=
  fun _ _ enough embeds => ⟨rfl, Nat.le_refl _, embeds, holds _ enough⟩

theorem bind {action : StageM γ} {other : StageM δ} {next : γ → StageM α} {next' : δ → StageM β}
    {between : Nat → γ → δ → Prop} (first : Parallel rename count action other between)
    (second : ∀ size result result', count ≤ size → between size result result' →
      Parallel rename size (next result) (next' result') post) :
    Parallel rename count (action >>= next) (other >>= next') post := by
  intro stage stage' enough embeds
  obtain ⟨short, grows, embeds, holds⟩ := first stage stage' enough embeds
  obtain ⟨short', grows', embeds', holds'⟩ :=
    second _ _ _ (Nat.le_trans enough grows) holds _ _ (Nat.le_refl _) embeds
  exact ⟨short'.trans short, Nat.le_trans grows grows', embeds', holds'⟩

theorem mono {action : StageM α} {other : StageM β} {stronger : Nat → α → β → Prop}
    (parallel : Parallel rename count action other stronger)
    (weaken : ∀ size result result', count ≤ size → stronger size result result' →
      post size result result') : Parallel rename count action other post := by
  intro stage stage' enough embeds
  obtain ⟨short, grows, embeds, holds⟩ := parallel stage stage' enough embeds
  exact ⟨short, grows, embeds, weaken _ _ _ (Nat.le_trans enough grows) holds⟩

theorem get {next : Stage → StageM α} {next' : Stage → StageM β}
    (parallel : ∀ stage stage' : Stage, count ≤ stage.document.size → stage.Embeds rename stage' →
      Parallel rename stage.document.size (next stage) (next' stage') post) :
    Parallel rename count (MonadState.get >>= next) (MonadState.get >>= next') post :=
  fun stage stage' enough embeds =>
    parallel stage stage' enough embeds stage stage' (Nat.le_refl _) embeds

/-- Entries in the journals, which are not part of the documents. -/
theorem noting {event event' : Event} {next : Unit → StageM α} {next' : Unit → StageM β}
    (parallel : Parallel rename count (next ()) (next' ()) post) :
    Parallel rename count (Stage.note event >>= next) (Stage.note event' >>= next') post :=
  fun _ _ enough embeds => parallel _ _ enough ⟨embeds.shortcomings, embeds.document⟩

theorem note {event event' : Event} :
    Parallel rename count (Stage.note event) (Stage.note event') fun _ _ _ => True :=
  fun _ _ _ embeds => ⟨rfl, Nat.le_refl _, ⟨embeds.shortcomings, embeds.document⟩, trivial⟩

theorem edit {change change' : Document → Document}
    (size : ∀ document, (change document).size = document.size)
    (embeds : ∀ document document' : Document, count ≤ document.size →
      document.Embeds rename document' → (change document).Embeds rename (change' document')) :
    Parallel rename count (Stage.edit change) (Stage.edit change') fun _ _ _ => True :=
  fun stage _ enough within => ⟨rfl, Nat.le_of_eq (size stage.document).symm,
    ⟨within.shortcomings, embeds _ _ enough within.document⟩, trivial⟩

/-- The same is done for each one in a list. -/
theorem forM {list : List γ} {convert : γ → δ} {action : γ → StageM Unit} {other : δ → StageM Unit}
    (each : ∀ entry ∈ list, ∀ size, count ≤ size →
      Parallel rename size (action entry) (other (convert entry)) fun _ _ _ => True) :
    Parallel rename count (list.forM action) ((list.map convert).forM other) fun _ _ _ => True := by
  induction list generalizing count with
  | nil => exact .pure fun _ _ => trivial
  | cons first rest ih =>
    obtain ⟨here, later⟩ := List.forall_mem_cons.mp each
    refine (here count (Nat.le_refl _)).bind fun size _ _ enough _ => ?_
    exact ih fun entry member size' enough' => later entry member size' (Nat.le_trans enough enough')

end Parallel

/-! ## Primitive actions -/

/-- A node that exists, and the one with its other number. -/
def Renumbered (rename : NodeId → NodeId) (size : Nat) (node node' : NodeId) : Prop :=
  node.number < size ∧ node' = rename node

section

variable {parent node : NodeId}

theorem parallel_create (data : NodeData) :
    Parallel rename count (Stage.create data) (Stage.create data) (Renumbered rename) := by
  intro stage stage' _ embeds
  have size : (stage.document.create data).2.size = stage.document.size + 1 := size_create data
  refine ⟨rfl, size ▸ Nat.le_succ _, ⟨embeds.shortcomings, embeds.document.create data⟩, ?_, ?_⟩
  · exact size ▸ Nat.lt_succ_self _
  · exact (embeds.document.next 0).symm

theorem parallel_setAttribute (element : NodeId) (name value : String) :
    Parallel rename count (Stage.setAttribute element name value)
      (Stage.setAttribute (rename element) name value) fun _ _ _ => True := by
  unfold Stage.setAttribute
  refine .get fun stage stage' _ embeds => ?_
  rw [embeds.document.cells.isElement]
  split
  · refine .edit (fun document => ?_) fun _ _ _ within => within.setAttribute element name value
    unfold Document.setAttribute
    split
    · simp [Document.setData]
    · rfl
  · exact .note

theorem parallel_setText (node : NodeId) (data : String) :
    Parallel rename count (Stage.setText node data) (Stage.setText (rename node) data)
      fun _ _ _ => True := by
  unfold Stage.setText
  refine .get fun stage stage' _ embeds => ?_
  rw [embeds.document.cells.isElement]
  split
  · exact .note
  · refine .edit (fun document => ?_) fun _ _ _ within => within.setText node data
    unfold Document.setText
    split
    · simp [Document.setData]
    · simp [Document.setData]
    · rfl

theorem parallel_insertBefore (hasParent : parent.number < count) (has : node.number < count)
    (reference : Option NodeId) :
    Parallel rename count (Stage.insertBefore parent node reference)
      (Stage.insertBefore (rename parent) (rename node) (reference.map rename)) fun _ _ _ => True := by
  have inserts {size : Nat} (enough : count ≤ size) : Parallel rename size
      (Stage.edit (·.insertBefore parent node reference))
      (Stage.edit (·.insertBefore (rename parent) (rename node) (reference.map rename)))
      fun _ _ _ => True :=
    .edit (fun _ => size_insertBefore reference) fun _ _ enough' within =>
      have known := Nat.le_trans enough enough'
      within.insertBefore (Nat.lt_of_lt_of_le hasParent known) (Nat.lt_of_lt_of_le has known) reference
  unfold Stage.insertBefore
  cases reference with
  | none => exact inserts (Nat.le_refl _)
  | some reference =>
    refine .get fun stage stage' enough embeds => ?_
    -- A reference that is no child is put down in the journal, so it is one on both sides or on none.
    have same : stage'.isOtherChild (rename parent) (rename node) (rename reference) =
        stage.isOtherChild parent node reference := by
      have injective := embeds.document.injective
      rw [Stage.isOtherChild, (embeds.document.cells.detach injective node).children,
        Bool.eq_iff_iff, List.contains_iff_mem, List.mem_map_of_injective injective,
        ← List.contains_iff_mem, ← Stage.isOtherChild]
    rw [same]
    split
    · exact inserts enough
    · exact .noting (inserts enough)

theorem parallel_append (hasParent : parent.number < count) (has : node.number < count) :
    Parallel rename count (Stage.append parent node) (Stage.append (rename parent) (rename node))
      fun _ _ _ => True :=
  parallel_insertBefore hasParent has none

theorem parallel_remove (has : node.number < count) :
    Parallel rename count (Stage.remove node) (Stage.remove (rename node)) fun _ _ _ => True := by
  unfold Stage.remove
  refine .get fun stage stage' enough embeds => ?_
  rw [embeds.shortcomings]
  split
  · exact .pure fun _ _ => trivial
  · exact .edit (fun _ => by simp [Document.remove]) fun _ _ enough' within =>
      within.remove (Nat.lt_of_lt_of_le has (Nat.le_trans enough enough'))

end

/-! ## Copying -/

mutual

theorem parallel_copy : ∀ (tree : Node) (count : Nat),
    Parallel rename count (Stage.copy tree) (Stage.copy tree) (Renumbered rename)
  | .element name space attributes children, count => by
    rw [Stage.copy]
    refine (parallel_create _).bind fun size root root' _ renumbered => ?_
    obtain ⟨has, rfl⟩ := renumbered
    have sets : Parallel rename size
        (attributes.forM fun pair => Stage.setAttribute root pair.1 pair.2)
        ((attributes.map id).forM fun pair => Stage.setAttribute (rename root) pair.1 pair.2)
        fun _ _ _ => True :=
      .forM fun pair _ _ _ => parallel_setAttribute root pair.1 pair.2
    rw [List.map_id] at sets
    refine sets.bind fun size' _ _ more _ => ?_
    refine (parallel_copyInto children (Nat.lt_of_lt_of_le has more)).bind fun size'' _ _ more' _ => ?_
    exact .pure fun _ more'' =>
      ⟨Nat.lt_of_lt_of_le has (Nat.le_trans more (Nat.le_trans more' more'')), rfl⟩
  | .text data, count => parallel_create (.text data)
  | .comment data, count => parallel_create (.comment data)

theorem parallel_copyInto : ∀ (forest : List Node) {count : Nat} {parent : NodeId},
    parent.number < count → Parallel rename count (Stage.copyInto parent forest)
      (Stage.copyInto (rename parent) forest) fun _ _ _ => True
  | [], _, _, _ => .pure fun _ _ => trivial
  | tree :: rest, count, parent, hasParent => by
    rw [Stage.copyInto, Stage.copyInto]
    refine (parallel_copy tree count).bind fun size root root' enough renumbered => ?_
    obtain ⟨has, rfl⟩ := renumbered
    have hasParent := Nat.lt_of_lt_of_le hasParent enough
    refine (parallel_append hasParent has).bind fun size' _ _ more _ => ?_
    exact parallel_copyInto rest (Nat.lt_of_lt_of_le hasParent more)

end

/-- Nodes that exist, and those with their other numbers. -/
def AllRenumbered (rename : NodeId → NodeId) (size : Nat) (nodes nodes' : List NodeId) : Prop :=
  (∀ node ∈ nodes, node.number < size) ∧ nodes' = nodes.map rename

theorem parallel_copyAll (forest : Forest) (count : Nat) :
    Parallel rename count (forest.mapM Stage.copy) (forest.mapM Stage.copy)
      (AllRenumbered rename) := by
  induction forest generalizing count with
  | nil => exact .pure fun _ _ => ⟨nofun, rfl⟩
  | cons tree rest ih =>
    rw [List.mapM_cons]
    refine (parallel_copy tree count).bind fun size root root' _ renumbered => ?_
    obtain ⟨has, rfl⟩ := renumbered
    refine (ih size).bind fun size' roots roots' more renumbered => ?_
    obtain ⟨all, rfl⟩ := renumbered
    refine .pure fun _ enough => ⟨List.forall_mem_cons.mpr ⟨?_, fun node member => ?_⟩, rfl⟩
    · exact Nat.lt_of_lt_of_le has (Nat.le_trans more enough)
    · exact Nat.lt_of_lt_of_le (all node member) enough

/-! ## Looking -/

namespace Stage.Embeds

variable {stage other : Stage} (embeds : stage.Embeds rename other)

include embeds

theorem child (node : NodeId) (index : Nat) :
    other.child (rename node) index = (stage.child node index).map rename := by
  rw [Stage.child, Stage.child, embeds.shortcomings, embeds.document.cells.children,
    List.getElem?_map]
  split <;> rfl

/-- From other roots, a path leads to the node with the other number. -/
theorem locate (roots : List NodeId) (path : Path) :
    other.locate (roots.map rename) path = (stage.locate roots path).map rename := by
  have walk (path : Path) (start : Option NodeId) :
      path.foldl (fun node index => node.bind (other.child · index)) (start.map rename) =
        (path.foldl (fun node index => node.bind (stage.child · index)) start).map rename := by
    induction path generalizing start with
    | nil => rfl
    | cons index path ih =>
      have step : (start.map rename).bind (other.child · index) =
          (start.bind (stage.child · index)).map rename := by
        cases start with
        | none => rfl
        | some node => exact embeds.child node index
      rw [List.foldl_cons, List.foldl_cons, step, ih]
  cases path with
  | nil => rfl
  | cons index path =>
    rw [Stage.locate, Stage.locate, List.getElem?_map, walk]

end Stage.Embeds

/-- A path that starts at nodes that exist leads to one that does. -/
theorem Stage.has_of_locate {stage : Stage} (tidy : stage.document.Tidy) {roots : List NodeId}
    (known : ∀ root ∈ roots, stage.document.Has root) {path : Path} {node : NodeId}
    (leads : stage.locate roots path = some node) : stage.document.Has node := by
  have walk (path : Path) (start : Option NodeId) (known : ∀ node, start = some node →
      stage.document.Has node)
      (leads : path.foldl (fun node index => node.bind (stage.child · index)) start = some node) :
      stage.document.Has node := by
    induction path generalizing start with
    | nil => exact known node leads
    | cons index path ih =>
      refine ih _ (fun below found => ?_) leads
      obtain ⟨above, -, found⟩ := Option.bind_eq_some_iff.mp found
      rw [Stage.child] at found
      split at found
      · exact tidy.sound.has_of_mem_children (List.mem_of_getElem? found)
      · cases found
  cases path with
  | nil => cases leads
  | cons index path =>
    exact walk path _ (fun root found => known root (List.mem_of_getElem? found)) leads

end LiveMarkup
