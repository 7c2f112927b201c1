import LiveMarkup.Proofs.Limited.Tame

/-! # Updates in a larger document

Two updates come to the same, but for the numbers of nodes and for nodes that only one of the documents
has (`Mirrors`).  They invoke the same computations and report the same failures.

On the way, the second document may get nodes that the first one does not.  Then the numbers of the
nodes to come change.  Those of the nodes that there are stay as they are, which is what carries
`Mirrors.bind`. -/

namespace LiveMarkup

open Document Markup

variable {α β γ δ σ τ : Type} {limit count : Nat} {rename : NodeId → NodeId}

/-- On a stage that shows so many children, with so many nodes at least, and on one with a larger
document, two updates come to the same.  What they give is as told, with the numbering and the number of
nodes that there are then. -/
def Mirrors (limit : Nat) (rename : NodeId → NodeId) (count : Nat) (action : RenderM σ α)
    (other : RenderM σ β) (post : (NodeId → NodeId) → Nat → α → β → Prop) : Prop :=
  ∀ (stage stage' : Stage) (reported reported' : Array Diagnostic) (world world' : σ),
    count ≤ stage.document.size → stage.shortcomings = .showing limit → stage.Embeds rename stage' →
    reported' = reported → world' = world →
    let outcome : ((α × Array Diagnostic) × σ) × Stage :=
      ((action.run reported).run world).run stage
    let outcome' : ((β × Array Diagnostic) × σ) × Stage :=
      ((other.run reported').run world').run stage'
    outcome'.1.1.2 = outcome.1.1.2 ∧ outcome'.1.2 = outcome.1.2 ∧
      outcome.2.shortcomings = .showing limit ∧ stage.document.size ≤ outcome.2.document.size ∧
      ∃ rename' : NodeId → NodeId, (∀ node, stage.document.Has node → rename' node = rename node) ∧
        outcome.2.Embeds rename' outcome'.2 ∧
        post rename' outcome.2.document.size outcome.1.1.1 outcome'.1.1.1

/-- Work on the stage comes first, and the rest goes on from the stage that it leaves. -/
theorem run_perform {action : StageM γ} {next : γ → RenderM σ α} {stage after : Stage} {result : γ}
    (ran : action.run stage = (result, after)) (reported : Array Diagnostic) (world : σ) :
    (((liftM action >>= next).run reported).run world).run stage =
      (((next result).run reported).run world).run after := by
  have splits : (((liftM action >>= next).run reported).run world).run stage =
      (((next (action.run stage).1).run reported).run world).run (action.run stage).2 := rfl
  rw [splits, ran]

namespace Mirrors

variable {post : (NodeId → NodeId) → Nat → α → β → Prop}

protected theorem pure {result : α} {result' : β}
    (holds : ∀ size, count ≤ size → post rename size result result') :
    Mirrors limit rename count (pure result : RenderM σ α) (pure result') post :=
  fun _ _ _ _ _ _ enough limited embeds reports worlds =>
    ⟨reports, worlds, limited, Nat.le_refl _, rename, fun _ _ => rfl, embeds, holds _ enough⟩

theorem bind {action : RenderM σ γ} {other : RenderM σ δ} {next : γ → RenderM σ α}
    {next' : δ → RenderM σ β} {between : (NodeId → NodeId) → Nat → γ → δ → Prop}
    (first : Mirrors limit rename count action other between)
    (second : ∀ (rename' : NodeId → NodeId) size result result', count ≤ size →
      (∀ node : NodeId, node.number < count → rename' node = rename node) →
      between rename' size result result' →
        Mirrors limit rename' size (next result) (next' result') post) :
    Mirrors limit rename count (action >>= next) (other >>= next') post := by
  intro stage stage' reported reported' world world' enough limited embeds reports worlds
  obtain ⟨reports, worlds, limited, grows, rename', same, embeds, holds⟩ :=
    first stage stage' reported reported' world world' enough limited embeds reports worlds
  -- The numbering may have changed in between, but not for the nodes that the second action is given.
  have earlier (node : NodeId) (has : node.number < count) : rename' node = rename node :=
    same node (Nat.lt_of_lt_of_le has enough)
  obtain ⟨reports, worlds, limited, grows', rename'', same', embeds, holds⟩ :=
    second rename' _ _ _ (Nat.le_trans enough grows) earlier holds _ _ _ _ _ _ (Nat.le_refl _) limited
      embeds reports worlds
  refine ⟨reports, worlds, limited, Nat.le_trans grows grows', rename'', fun node has => ?_, embeds,
    holds⟩
  exact (same' node (Nat.lt_of_lt_of_le has grows)).trans (same node has)

theorem mono {action : RenderM σ α} {other : RenderM σ β}
    {stronger : (NodeId → NodeId) → Nat → α → β → Prop}
    (mirrors : Mirrors limit rename count action other stronger)
    (weaken : ∀ (rename' : NodeId → NodeId) size result result', count ≤ size →
      (∀ node : NodeId, node.number < count → rename' node = rename node) →
      stronger rename' size result result' → post rename' size result result') :
    Mirrors limit rename count action other post := by
  intro stage stage' reported reported' world world' enough limited embeds reports worlds
  obtain ⟨reports, worlds, limited, grows, rename', same, embeds, holds⟩ :=
    mirrors stage stage' reported reported' world world' enough limited embeds reports worlds
  exact ⟨reports, worlds, limited, grows, rename', same, embeds,
    weaken _ _ _ _ (Nat.le_trans enough grows)
      (fun node has => same node (Nat.lt_of_lt_of_le has enough)) holds⟩

/-- The results are wrapped up at the end. -/
theorem map {action : RenderM σ γ} {other : RenderM σ δ} {convert : γ → α} {convert' : δ → β}
    (mirrors : Mirrors limit rename count action other fun rename' size result result' =>
      (∀ node : NodeId, node.number < count → rename' node = rename node) → count ≤ size →
        post rename' size (convert result) (convert' result')) :
    Mirrors limit rename count (convert <$> action) (convert' <$> other) post := by
  intro stage stage' reported reported' world world' enough limited embeds reports worlds
  obtain ⟨reports, worlds, limited, grows, rename', same, embeds, holds⟩ :=
    mirrors stage stage' reported reported' world world' enough limited embeds reports worlds
  exact ⟨reports, worlds, limited, grows, rename', same, embeds,
    holds (fun node has => same node (Nat.lt_of_lt_of_le has enough)) (Nat.le_trans enough grows)⟩

/-- Work on the stages alone. -/
theorem perform {action : StageM γ} {other : StageM δ} {next : γ → RenderM σ α}
    {next' : δ → RenderM σ β} {between : Nat → γ → δ → Prop}
    (parallel : Parallel rename count action other between)
    (mirrors : ∀ size result result', count ≤ size → between size result result' →
      Mirrors limit rename size (next result) (next' result') post) :
    Mirrors limit rename count (liftM action >>= next) (liftM other >>= next') post := by
  intro stage stage' reported reported' world world' enough limited embeds reports worlds
  obtain ⟨short, grows, embeds, holds⟩ := parallel stage stage' enough embeds
  obtain ⟨reports, worlds, limited, grows', rename', same, embeds, holds⟩ :=
    mirrors _ _ _ (Nat.le_trans enough grows) holds _ _ reported reported' world world'
      (Nat.le_refl _) (short.trans limited) embeds reports worlds
  exact ⟨reports, worlds, limited, Nat.le_trans grows grows', rename',
    fun node has => same node (Nat.lt_of_lt_of_le has grows), embeds, holds⟩

theorem scene {action : StageM γ} {other : StageM δ} {next : γ → RenderM σ α}
    {next' : δ → RenderM σ β} {between : Nat → γ → δ → Prop}
    (parallel : Parallel rename count action other between)
    (mirrors : ∀ size result result', count ≤ size → between size result result' →
      Mirrors limit rename size (next result) (next' result') post) :
    Mirrors limit rename count (liftM (liftM action : SceneM σ γ) >>= next)
      (liftM (liftM other : SceneM σ δ) >>= next') post :=
  perform parallel mirrors

/-- Work on the stages at the end. -/
theorem performed {action : StageM α} {other : StageM β} {between : Nat → α → β → Prop}
    (parallel : Parallel rename count action other between)
    (holds : ∀ size result result', count ≤ size → between size result result' →
      post rename size result result') :
    Mirrors limit rename count (liftM action : RenderM σ α) (liftM other) post := by
  intro stage stage' reported reported' world world' enough limited embeds reports worlds
  obtain ⟨short, grows, embeds, between⟩ := parallel stage stage' enough embeds
  exact ⟨reports, worlds, short.trans limited, grows, rename, fun _ _ => rfl, embeds,
    holds _ _ _ (Nat.le_trans enough grows) between⟩

theorem noting {event event' : Event} {next : Unit → RenderM σ α} {next' : Unit → RenderM σ β}
    (mirrors : Mirrors limit rename count (next ()) (next' ()) post) :
    Mirrors limit rename count (liftM (Stage.note event) >>= next)
      (liftM (Stage.note event') >>= next') post :=
  fun _ _ _ _ _ _ enough limited embeds =>
    mirrors _ _ _ _ _ _ enough limited ⟨embeds.shortcomings, embeds.document⟩

/-- A failure is reported on both sides. -/
theorem reporting {part depth : Nat} {error : ResolutionError} {next : Unit → RenderM σ α}
    {next' : Unit → RenderM σ β} (mirrors : Mirrors limit rename count (next ()) (next' ()) post) :
    Mirrors limit rename count (report part depth error >>= next)
      (report part depth error >>= next') post := by
  intro stage stage' reported reported' world world' enough limited embeds reports worlds
  subst reports
  exact mirrors _ _ _ _ _ _ enough limited ⟨embeds.shortcomings, embeds.document⟩ rfl worlds

/-- Work in the environment, which goes along with one and the same reading, comes to what is read. -/
theorem follow {action : SceneM σ γ} {reading : StateM σ δ} {same : γ → δ → Prop}
    {next : γ → RenderM σ α} {next' : γ → RenderM σ β} (follows : Follows Eq action reading same)
    (mirrors : ∀ result result' read, same result read → same result' read →
      Mirrors limit rename count (next result) (next' result') post) :
    Mirrors limit rename count (liftM action >>= next) (liftM action >>= next') post := by
  intro stage stage' reported reported' world world' enough limited embeds reports worlds
  subst worlds
  obtain ⟨worlds, kept, short, holds⟩ := follows stage world' world' rfl
  obtain ⟨worlds', kept', short', holds'⟩ := follows stage' world' world' rfl
  have embeds' := Stage.Embeds.mk (short'.trans (embeds.shortcomings.trans short.symm))
    (kept' ▸ kept ▸ embeds.document)
  obtain ⟨reports, worlds, limited, grows, rename', same, embeds, holds⟩ :=
    mirrors _ _ _ holds holds' _ _ reported reported' _ _ (kept.symm ▸ enough) (short.trans limited)
      embeds' reports (worlds'.trans worlds.symm)
  exact ⟨reports, worlds, limited, kept ▸ grows, rename', kept ▸ same, embeds, holds⟩

end Mirrors

end LiveMarkup
