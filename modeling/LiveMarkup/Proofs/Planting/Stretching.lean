import LiveMarkup.Proofs.Planting.Vacating

/-! # Stretches of siblings

Among the siblings of its anchor, an outlet has a *stretch* of nodes: the anchor first, and behind it
the roots of an instance, each followed by what it has behind itself, or the stretches of items one
after another.  A stretch is computed from what is remembered of the outlet, and says nothing of a
document.

Where the renderer has put an outlet, its stretch is a run of the children of one node
(`Plot.Houses.stands`).  The stretch is the roots of the plot, although it looks for what is behind a
root by the anchors of all outlets (`Plot.Backs.roots_grove`). -/

namespace LiveMarkup

open Document Markup

variable {σ : Type} {document : Document} {place : Place} {node : NodeId}

mutual

/-- What an outlet has behind its anchor. -/
def Outlet.behind : Outlet σ → List NodeId
  | .vacant _ | .text _ _ => []
  | .nested _ inner => Instance.stretch inner
  | .items _ outlets => Outlet.stretches outlets

/-- The stretches of items, one after another. -/
def Outlet.stretches : List (Outlet σ) → List NodeId
  | [] => []
  | outlet :: outlets => outlet.anchor :: (Outlet.behind outlet ++ Outlet.stretches outlets)

/-- The roots of an instance, each followed by what it has behind itself. -/
def Instance.stretch : Instance σ → List NodeId
  | .mk _ roots bindings => roots.flatMap fun root => root :: Binding.behind root bindings

/-- What is behind a root: nothing, unless it is the anchor of an outlet. -/
def Binding.behind (root : NodeId) : List (Binding σ) → List NodeId
  | [] => []
  | .attribute _ :: bindings => Binding.behind root bindings
  | .outlet outlet :: bindings =>
    (if outlet.anchor = root then Outlet.behind outlet else []) ++ Binding.behind root bindings

end

/-- An outlet's anchor with what is behind it. -/
def Outlet.stretch (outlet : Outlet σ) : List NodeId :=
  outlet.anchor :: outlet.behind

def Binding.outlet? : Binding σ → Option (Outlet σ)
  | .attribute _ => none
  | .outlet content => some content

/-- The outlets of an instance itself, and not those of what they show. -/
def Instance.outlets (inner : Instance σ) : List (Outlet σ) :=
  inner.bindings.filterMap Binding.outlet?

/-- The text in the anchor of an outlet. -/
def Outlet.shown : Outlet σ → String
  | .text _ data => data
  | .vacant _ | .nested _ _ | .items _ _ => ""

/-- Whether an outlet is the given one, or somewhere in what that one shows. -/
inductive Outlet.Within (outlet : Outlet σ) : Outlet σ → Prop where
  | here : Within outlet outlet
  | nested {anchor : NodeId} {inner : Instance σ} {own : Outlet σ} (part : own ∈ inner.outlets)
      (within : Within outlet own) : Within outlet (.nested anchor inner)
  | item {anchor : NodeId} {outlets : List (Outlet σ)} {own : Outlet σ} (item : own ∈ outlets)
      (within : Within outlet own) : Within outlet (.items anchor outlets)

/-- Whether an outlet is one of an instance or somewhere in what one of them shows. -/
def Instance.Live (inner : Instance σ) (outlet : Outlet σ) : Prop :=
  ∃ own ∈ inner.outlets, outlet.Within own

/-- Whether an instance is the given one or somewhere in what that one shows. -/
def Instance.Includes (inner other : Instance σ) : Prop :=
  other = inner ∨ ∃ anchor, inner.Live (.nested anchor other)

/-- Whether a node is output of an outlet in a document: its anchor, a root or output of the parts of an
instance or of items that it shows, or inside of any of these. -/
inductive Outlet.Puts (document : Document) : Outlet σ → NodeId → Prop where
  | anchor (outlet : Outlet σ) : Puts document outlet outlet.anchor
  | root {anchor : NodeId} {inner : Instance σ} {node : NodeId} (root : node ∈ inner.roots) :
      Puts document (.nested anchor inner) node
  | part {anchor : NodeId} {inner : Instance σ} {own : Outlet σ} {node : NodeId}
      (part : own ∈ inner.outlets) (puts : Puts document own node) :
      Puts document (.nested anchor inner) node
  | item {anchor : NodeId} {outlets : List (Outlet σ)} {own : Outlet σ} {node : NodeId}
      (item : own ∈ outlets) (puts : Puts document own node) :
      Puts document (.items anchor outlets) node
  | inside {outlet : Outlet σ} {above node : NodeId} (puts : Puts document outlet above)
      (child : node ∈ document.children above) : Puts document outlet node

/-- The output of an outlet is one run of siblings among the children of a node, and all else of it is
inside of these siblings. -/
structure Outlet.Stands (document : Document) (outlet : Outlet σ) (parent : NodeId) : Prop where
  anchor : document.parent outlet.anchor = some parent
  run : ∃ before after, document.children parent = before ++ outlet.stretch ++ after
  siblings : ∀ node, node ∈ outlet.stretch ↔
    outlet.Puts document node ∧ document.parent node = some parent
  once : outlet.stretch.Nodup
  last : outlet.stretch.getLast? = some outlet.lastNode
  shown : document.data? outlet.anchor = some (.text outlet.shown)
  full : ∀ anchor data, outlet = .text anchor data → data ≠ ""

/-! ## Plots of a bed -/

/-- The plots in the gaps of a bed, without those in what they show. -/
def Bed.plots : Bed → List Plot
  | .done => []
  | .element _ _ _ _ _ _ below rest => below.plots ++ rest.plots
  | .text _ _ rest | .comment _ _ rest => rest.plots
  | .gap plot rest => plot :: rest.plots

namespace Bed

variable {bed : Bed} {plot : Plot}

theorem Sound.of_mem_plots (sound : bed.Sound) (member : plot ∈ bed.plots) : plot.Sound := by
  induction bed with
  | done => cases member
  | element _ _ _ _ _ _ below rest ihBelow ihRest =>
    obtain inside | behind := List.mem_append.mp member
    · exact ihBelow sound.1 inside
    · exact ihRest sound.2 behind
  | text _ _ rest ih | comment _ _ rest ih => exact ih sound member
  | gap first rest ih =>
    obtain rfl | behind := List.mem_cons.mp member
    · exact sound.1
    · exact ih sound.2 behind

theorem nodes_plot_sublist (member : plot ∈ bed.plots) :
    plot.grove.nodes.Sublist bed.grove.nodes := by
  induction bed with
  | done => cases member
  | element node _ _ _ _ _ below rest ihBelow ihRest =>
    obtain inside | behind := List.mem_append.mp member
    · exact .cons _ ((ihBelow inside).trans (List.sublist_append_left _ _))
    · exact .cons _ ((ihRest behind).trans (List.sublist_append_right _ _))
  | text _ _ rest ih | comment _ _ rest ih => exact .cons _ (ih member)
  | gap first rest ih =>
    rw [grove, Grove.nodes_append]
    obtain rfl | behind := List.mem_cons.mp member
    · exact List.sublist_append_left _ _
    · exact (ih behind).trans (List.sublist_append_right _ _)

/-- Each plot has its own place in the document. -/
theorem exists_site_plot (site : Site document place bed.grove) (member : plot ∈ bed.plots) :
    ∃ place, Site document place plot.grove := by
  induction bed generalizing place with
  | done => cases member
  | element _ _ _ _ _ _ below rest ihBelow ihRest =>
    obtain inside | behind := List.mem_append.mp member
    · exact ihBelow site.inside inside
    · exact ihRest site.tail behind
  | text _ _ rest ih | comment _ _ rest ih => exact ih site.tail member
  | gap first rest ih =>
    obtain rfl | behind := List.mem_cons.mp member
    · exact ⟨_, site.left⟩
    · exact ih site.right behind

end Bed

/-! ## Outlets that are backed -/

/-- The bindings of the attributes of an element have no outlet among them. -/
theorem Fixture.outlets_eq_nil {fixtures : List Fixture} {own : List (Binding σ)}
    (mine : Binding.plainAll own = fixtures.map (fun fixture => .attribute (fixture.binding node))) :
    own.filterMap Binding.outlet? = [] := by
  refine List.filterMap_eq_nil_iff.mpr fun binding member => ?_
  obtain entry | outlet := binding
  · rfl
  · have plain : Binding.plain (.outlet outlet) ∈ Binding.plainAll own := by
      rw [Binding.plainAll_eq_map]
      exact List.mem_map_of_mem member
    rw [mine] at plain
    obtain ⟨fixture, -, same⟩ := List.mem_map.mp plain
    cases same

/-- Each outlet of an instance is backed by a plot. -/
theorem Bed.Backs.exists_plot {bed : Bed} {bindings : List (Binding σ)} {outlet : Outlet σ}
    (backs : bed.Backs bindings) (member : outlet ∈ bindings.filterMap Binding.outlet?) :
    ∃ plot ∈ bed.plots, plot.Backs outlet := by
  induction bed generalizing bindings with
  | done =>
    rw [backs.of_done] at member
    cases member
  | element _ _ _ _ _ _ below rest ihBelow ihRest =>
    obtain ⟨own, inner, later, rfl, mine, -, inside, behind⟩ := backs.of_element
    rw [List.filterMap_append, List.filterMap_append, Fixture.outlets_eq_nil mine, List.nil_append,
      List.mem_append] at member
    obtain member | member := member
    · obtain ⟨plot, own, backs⟩ := ihBelow inside member
      exact ⟨plot, List.mem_append_left _ own, backs⟩
    · obtain ⟨plot, own, backs⟩ := ihRest behind member
      exact ⟨plot, List.mem_append_right _ own, backs⟩
  | text _ _ rest ih | comment _ _ rest ih => exact ih ⟨backs.plain, backs.modest⟩ member
  | gap first rest ih =>
    obtain ⟨own, later, rfl, here, behind⟩ := backs.of_gap
    obtain rfl | member : outlet = own ∨ outlet ∈ later.filterMap Binding.outlet? :=
      List.mem_cons.mp member
    · exact ⟨first, List.mem_cons_self, here⟩
    · obtain ⟨plot, own, backs⟩ := ih behind member
      exact ⟨plot, List.mem_cons_of_mem _ own, backs⟩

namespace Binding

theorem behind_append (root : NodeId) (bindings more : List (Binding σ)) :
    behind root (bindings ++ more) = behind root bindings ++ behind root more := by
  induction bindings with
  | nil => simp [behind]
  | cons binding bindings ih =>
    obtain entry | outlet := binding
    · simp [behind, ih]
    · simp [behind, ih]

/-- There is nothing behind a node that is no anchor. -/
theorem behind_eq_nil {root : NodeId} {bindings : List (Binding σ)}
    (other : ∀ outlet ∈ bindings.filterMap outlet?, outlet.anchor ≠ root) :
    behind root bindings = [] := by
  induction bindings with
  | nil => simp [behind]
  | cons binding bindings ih =>
    obtain entry | outlet := binding
    · simpa [behind] using ih other
    · obtain ⟨here, later⟩ := List.forall_mem_cons.mp other
      simpa [behind, here] using ih later

end Binding

/-- There is nothing behind a node outside of the bed. -/
theorem Bed.Backs.behind_eq_nil {bed : Bed} {bindings : List (Binding σ)} (backs : bed.Backs bindings)
    (outside : node ∉ bed.grove.nodes) : Binding.behind node bindings = [] := by
  refine Binding.behind_eq_nil fun outlet member => ?_
  obtain ⟨plot, own, here⟩ := backs.exists_plot member
  rintro rfl
  exact outside ((Bed.nodes_plot_sublist own).subset (here.anchor ▸ plot.anchor_mem_nodes))

theorem Fixture.behind_eq_nil {fixtures : List Fixture} {own : List (Binding σ)} {element : NodeId}
    (mine : Binding.plainAll own =
      fixtures.map (fun fixture => .attribute (fixture.binding element))) (root : NodeId) :
    Binding.behind root own = [] := by
  refine Binding.behind_eq_nil ?_
  rw [outlets_eq_nil mine]
  nofun

mutual

/-- The stretch of an outlet is the roots of the plot that backs it. -/
theorem Plot.Backs.roots_grove : ∀ {plot : Plot} {outlet : Outlet σ}, plot.Backs outlet →
    plot.grove.nodes.Nodup → plot.grove.roots = outlet.stretch
  | .text anchor data, outlet, backs, _ => by
    obtain rfl := backs.of_text
    rw [Plot.outlet]
    split <;> rfl
  | .nested anchor template bed, outlet, backs, once => by
    obtain ⟨bindings, rfl, inside⟩ := backs.of_nested
    have roots := inside.roots_grove once.of_cons
    rw [Plot.grove, Grove.roots_cons, roots]
    rfl
  | .items anchor plots, outlet, backs, once => by
    obtain ⟨outlets, rfl, inside⟩ := backs.of_items
    have roots := inside.roots_groves once.of_cons
    rw [Plot.grove, Grove.roots_cons, roots]
    rfl

theorem Plot.BackAll.roots_groves : ∀ {plots : List Plot} {outlets : List (Outlet σ)},
    Plot.BackAll plots outlets → (Plot.groves plots).nodes.Nodup →
      (Plot.groves plots).roots = Outlet.stretches outlets
  | [], outlets, backs, _ => by
    rw [backs.of_nil]
    rfl
  | plot :: plots, outlets, backs, once => by
    obtain ⟨outlet, rest, rfl, here, there⟩ := backs.of_cons
    rw [Plot.groves, Grove.nodes_append, List.nodup_append'] at once
    rw [Plot.groves, Grove.roots_append, here.roots_grove once.1, there.roots_groves once.2.1]
    rfl

theorem Bed.Backs.roots_grove : ∀ {bed : Bed} {bindings : List (Binding σ)}, bed.Backs bindings →
    bed.grove.nodes.Nodup →
      bed.grove.roots = bed.roots.flatMap fun root => root :: Binding.behind root bindings
  | .done, bindings, _, _ => rfl
  | .element node _ _ _ _ fixtures below rest, bindings, backs, once => by
    obtain ⟨own, inner, later, rfl, mine, -, inside, behind⟩ := backs.of_element
    rw [Bed.grove, Grove.nodes_cons, List.nodup_cons, List.mem_append, not_or,
      List.nodup_append'] at once
    obtain ⟨⟨notInside, notBehind⟩, -, onceRest, apart⟩ := once
    -- The outlets inside of the element have their anchors there, and so nothing behind a root.
    have here : Binding.behind node (own ++ (inner ++ later)) = [] := by
      rw [Binding.behind_append, Binding.behind_append, Fixture.behind_eq_nil mine,
        inside.behind_eq_nil notInside, behind.behind_eq_nil notBehind]
      rfl
    have others : ∀ root ∈ rest.roots,
        root :: Binding.behind root (own ++ (inner ++ later)) = root :: Binding.behind root later := by
      intro root member
      have outside : root ∉ below.grove.nodes := fun also =>
        apart also (rest.subset_roots member)
      rw [Binding.behind_append, Binding.behind_append, Fixture.behind_eq_nil mine,
        inside.behind_eq_nil outside]
      rfl
    rw [Bed.grove, Grove.roots_cons, Bed.roots, List.flatMap_cons, here, List.flatMap_congr others,
      behind.roots_grove onceRest]
    rfl
  | .text node _ rest, bindings, backs, once | .comment node _ rest, bindings, backs, once => by
    have behind : rest.Backs bindings := ⟨backs.plain, backs.modest⟩
    obtain ⟨notBehind, onceRest⟩ := List.nodup_cons.mp once
    rw [Bed.grove, Grove.roots_cons, Bed.roots, List.flatMap_cons, behind.behind_eq_nil notBehind,
      behind.roots_grove onceRest]
    rfl
  | .gap plot rest, bindings, backs, once => by
    obtain ⟨outlet, later, rfl, here, behind⟩ := backs.of_gap
    rw [Bed.grove, Grove.nodes_append, List.nodup_append'] at once
    obtain ⟨oncePlot, onceRest, apart⟩ := once
    -- An anchor is looked for among all outlets, and no other one has the same.
    have first : Binding.behind plot.anchor (.outlet outlet :: later) = outlet.behind := by
      rw [Binding.behind, if_pos here.anchor, behind.behind_eq_nil (apart plot.anchor_mem_nodes),
        List.append_nil]
    have others : ∀ root ∈ rest.roots, root :: Binding.behind root (.outlet outlet :: later) =
        root :: Binding.behind root later := by
      intro root member
      have outside : outlet.anchor ≠ root := by
        rintro rfl
        exact apart (here.anchor ▸ plot.anchor_mem_nodes) (rest.subset_roots member)
      rw [Binding.behind, if_neg outside, List.nil_append]
    rw [Bed.grove, Grove.roots_append, Bed.roots, List.flatMap_cons, first,
      List.flatMap_congr others, behind.roots_grove onceRest, here.roots_grove oncePlot, ← here.anchor]
    rfl

end

/-! ## Output -/

mutual

/-- What is behind an anchor is output. -/
theorem Outlet.puts_of_mem_behind : ∀ (outlet : Outlet σ), node ∈ outlet.behind →
    outlet.Puts document node
  | .vacant _, member | .text _ _, member => absurd member List.not_mem_nil
  | .nested anchor (.mk template roots bindings), member => by
    obtain ⟨root, known, member⟩ := List.mem_flatMap.mp member
    obtain rfl | member := List.mem_cons.mp member
    · exact .root known
    · obtain ⟨own, part, puts⟩ := Binding.puts_of_mem_behind root bindings member
      exact .part part puts
  | .items anchor outlets, member => by
    obtain ⟨own, item, puts⟩ := Outlet.puts_of_mem_stretches outlets member
    exact .item item puts

theorem Outlet.puts_of_mem_stretches : ∀ (outlets : List (Outlet σ)),
    node ∈ Outlet.stretches outlets → ∃ own ∈ outlets, own.Puts document node
  | [], member => absurd member List.not_mem_nil
  | outlet :: outlets, member => by
    obtain rfl | member := List.mem_cons.mp member
    · exact ⟨outlet, List.mem_cons_self, .anchor outlet⟩
    obtain here | there := List.mem_append.mp member
    · exact ⟨outlet, List.mem_cons_self, outlet.puts_of_mem_behind here⟩
    · obtain ⟨own, item, puts⟩ := Outlet.puts_of_mem_stretches outlets there
      exact ⟨own, List.mem_cons_of_mem _ item, puts⟩

theorem Binding.puts_of_mem_behind (root : NodeId) : ∀ (bindings : List (Binding σ)),
    node ∈ Binding.behind root bindings →
      ∃ own ∈ bindings.filterMap Binding.outlet?, own.Puts document node
  | [], member => absurd member List.not_mem_nil
  | .attribute _ :: bindings, member => Binding.puts_of_mem_behind root bindings member
  | .outlet outlet :: bindings, member => by
    obtain here | there := List.mem_append.mp member
    · split at here
      · exact ⟨outlet, List.mem_cons_self, outlet.puts_of_mem_behind here⟩
      · cases here
    · obtain ⟨own, part, puts⟩ := Binding.puts_of_mem_behind root bindings there
      exact ⟨own, List.mem_cons_of_mem _ part, puts⟩

end

/-- Every node of a grove is a root or has its parent in the grove. -/
theorem Grove.Bears.mem_roots_or {grove : Grove} {parent : Option NodeId}
    (bears : grove.Bears document parent) (member : node ∈ grove.nodes) :
    node ∈ grove.roots ∨ ∃ above ∈ grove.nodes, document.parent node = some above := by
  induction grove generalizing parent with
  | nil => cases member
  | cons first data below rest ihBelow ihRest =>
    obtain ⟨-, inside, behind⟩ := bears
    rw [nodes_cons, List.mem_cons, List.mem_append] at member
    obtain rfl | member | member := member
    · exact .inl List.mem_cons_self
    · obtain root | ⟨above, own, known⟩ := ihBelow inside member
      · exact .inr ⟨first, List.mem_cons_self, inside.parent_of_root root⟩
      · exact .inr ⟨above, by simp [own], known⟩
    · obtain root | ⟨above, own, known⟩ := ihRest behind member
      · exact .inl (List.mem_cons_of_mem _ root)
      · exact .inr ⟨above, by simp [own], known⟩

theorem Site.mem_roots_of_parent {grove : Grove} (site : Site document place grove)
    (member : node ∈ grove.nodes) (child : document.parent node = some place.parent) :
    node ∈ grove.roots := by
  refine (site.bears.mem_roots_or member).resolve_right fun ⟨above, own, known⟩ => ?_
  obtain rfl := Option.some.inj (child.symm.trans known)
  exact site.parent_notMem own

/-- An outlet is backed by a sound plot, which a document has at a place. -/
structure Plot.Houses (document : Document) (place : Place) (plot : Plot) (outlet : Outlet σ) :
    Prop where
  backs : plot.Backs outlet
  sound : plot.Sound
  site : Site document place plot.grove

/-- Each outlet of an instance has a plot of its own. -/
theorem Bed.Backs.exists_houses {bed : Bed} {bindings : List (Binding σ)} (backs : bed.Backs bindings)
    (sound : bed.Sound) (site : Site document place bed.grove) {outlet : Outlet σ}
    (member : outlet ∈ bindings.filterMap Binding.outlet?) :
    ∃ (plot : Plot) (place : Place), plot.Houses document place outlet ∧
      plot.grove.nodes ⊆ bed.grove.nodes := by
  obtain ⟨plot, own, here⟩ := backs.exists_plot member
  obtain ⟨place, there⟩ := Bed.exists_site_plot site own
  exact ⟨plot, place, ⟨here, sound.of_mem_plots own, there⟩, (Bed.nodes_plot_sublist own).subset⟩

/-- Each item has a plot of its own. -/
theorem Plot.BackAll.exists_houses {plots : List Plot} {outlets : List (Outlet σ)}
    (backs : Plot.BackAll plots outlets) (sound : Plot.AllSound plots)
    (site : Site document place (Plot.groves plots)) {outlet : Outlet σ} (member : outlet ∈ outlets) :
    ∃ (plot : Plot) (place : Place), plot.Houses document place outlet ∧
      plot.grove.nodes ⊆ (Plot.groves plots).nodes := by
  induction plots generalizing outlets place with
  | nil =>
    rw [backs.of_nil] at member
    cases member
  | cons first plots ih =>
    obtain ⟨own, later, rfl, here, behind⟩ := backs.of_cons
    rw [Plot.groves, Grove.nodes_append]
    obtain rfl | member := List.mem_cons.mp member
    · exact ⟨first, _, ⟨here, sound.1, site.left⟩, List.subset_append_left _ _⟩
    · obtain ⟨plot, place, houses, within⟩ := ih behind sound.2 site.right member
      exact ⟨plot, place, houses, List.Subset.trans within (List.subset_append_right _ _)⟩

namespace Plot.Houses

variable {plot : Plot} {outlet own : Outlet σ} {anchor : NodeId} {inner : Instance σ}
  {outlets : List (Outlet σ)}

/-- An outlet that shows an instance has the grove of the instance behind its anchor. -/
theorem exists_backed (houses : plot.Houses document place (.nested anchor inner)) :
    ∃ grove : Grove, plot.grove = .cons anchor (.text "") .nil grove ∧ inner.Backed grove ∧
      Site document (place.past [anchor]) grove := by
  obtain ⟨backs, sound, site⟩ := houses
  cases plot with
  | text _ _ =>
    have same := backs.of_text
    rw [Plot.outlet] at same
    split at same <;> cases same
  | nested _ template bed =>
    obtain ⟨bindings, same, inside⟩ := backs.of_nested
    obtain ⟨rfl, rfl⟩ := Outlet.nested.inj same
    exact ⟨bed.grove, rfl, ⟨bed, sound.1, rfl, inside, rfl, sound.2⟩, site.tail⟩
  | items _ plots =>
    obtain ⟨outlets, same, -⟩ := backs.of_items
    cases same

/-- An outlet that shows items has their plots behind its anchor. -/
theorem exists_plots (houses : plot.Houses document place (.items anchor outlets)) :
    ∃ plots : List Plot, plot.grove = .cons anchor (.text "") .nil (groves plots) ∧
      BackAll plots outlets ∧ AllSound plots ∧
      Site document (place.past [anchor]) (groves plots) := by
  obtain ⟨backs, sound, site⟩ := houses
  cases plot with
  | text _ _ =>
    have same := backs.of_text
    rw [Plot.outlet] at same
    split at same <;> cases same
  | nested _ template bed =>
    obtain ⟨bindings, same, -⟩ := backs.of_nested
    cases same
  | items _ plots =>
    obtain ⟨_, same, inside⟩ := backs.of_items
    obtain ⟨rfl, rfl⟩ := Outlet.items.inj same
    exact ⟨plots, rfl, inside, sound, site.tail⟩

theorem part (houses : plot.Houses document place (.nested anchor inner))
    (part : own ∈ inner.outlets) : ∃ (inside : Plot) (place : Place),
      inside.Houses document place own ∧ inside.grove.nodes ⊆ plot.grove.nodes := by
  obtain ⟨grove, shape, ⟨bed, -, -, backs, rfl, sound⟩, site⟩ := houses.exists_backed
  obtain ⟨inside, place, houses, within⟩ := backs.exists_houses sound site part
  rw [shape]
  exact ⟨inside, place, houses, List.Subset.trans within (List.subset_cons_self _ _)⟩

theorem item (houses : plot.Houses document place (.items anchor outlets)) (item : own ∈ outlets) :
    ∃ (inside : Plot) (place : Place), inside.Houses document place own ∧
      inside.grove.nodes ⊆ plot.grove.nodes := by
  obtain ⟨plots, shape, backs, sound, site⟩ := houses.exists_plots
  obtain ⟨inside, place, houses, within⟩ := backs.exists_houses sound site item
  rw [shape]
  exact ⟨inside, place, houses, List.Subset.trans within (List.subset_cons_self _ _)⟩

/-- All output of an outlet is in its plot. -/
theorem mem_nodes (houses : plot.Houses document place outlet) (puts : outlet.Puts document node) :
    node ∈ plot.grove.nodes := by
  -- The induction is on how a node is output; each step goes to a smaller plot or down to children.
  induction puts generalizing plot place with
  | anchor outlet => exact houses.backs.anchor ▸ plot.anchor_mem_nodes
  | root root =>
    obtain ⟨grove, shape, ⟨bed, -, roots, -, rfl, -⟩, -⟩ := houses.exists_backed
    rw [shape]
    exact List.mem_cons_of_mem _ (bed.subset_roots (roots ▸ root))
  | part part _ ih =>
    obtain ⟨inside, place, own, within⟩ := houses.part part
    exact within (ih own)
  | item item _ ih =>
    obtain ⟨inside, place, own, within⟩ := houses.item item
    exact within (ih own)
  | inside _ child ih => exact houses.site.bears.mem_children (ih houses) child

/-- Whatever is in what an outlet shows has a plot, too. -/
theorem within (houses : plot.Houses document place outlet) (within : own.Within outlet) :
    ∃ (inside : Plot) (place : Place), inside.Houses document place own := by
  induction within generalizing plot place with
  | here => exact ⟨plot, place, houses⟩
  | nested part _ ih =>
    obtain ⟨inside, place, own, -⟩ := houses.part part
    exact ih own
  | item item _ ih =>
    obtain ⟨inside, place, own, -⟩ := houses.item item
    exact ih own

/-- The data of an anchor is the text that its outlet shows, which is not empty if it shows one. -/
theorem shown (houses : plot.Houses document place outlet) :
    document.data? outlet.anchor = some (.text outlet.shown) ∧
      ∀ anchor data, outlet = .text anchor data → data ≠ "" := by
  obtain ⟨backs, -, site⟩ := houses
  cases plot with
  | text anchor data =>
    rw [backs.of_text, Plot.outlet]
    have found := data?_of_cell? site.bears.1
    split
    · next nothing =>
      subst nothing
      exact ⟨found, nofun⟩
    · next something =>
      refine ⟨found, fun _ _ same => ?_⟩
      obtain ⟨-, rfl⟩ := Outlet.text.inj same
      exact something
  | nested anchor template bed =>
    obtain ⟨bindings, rfl, -⟩ := backs.of_nested
    exact ⟨data?_of_cell? site.bears.1, nofun⟩
  | items anchor plots =>
    obtain ⟨outlets, rfl, -⟩ := backs.of_items
    exact ⟨data?_of_cell? site.bears.1, nofun⟩

theorem stands (houses : plot.Houses document place outlet) :
    outlet.Stands document place.parent := by
  obtain ⟨shown, full⟩ := houses.shown
  have inside {node : NodeId} (puts : outlet.Puts document node) : node ∈ plot.grove.nodes :=
    houses.mem_nodes puts
  obtain ⟨backs, sound, site⟩ := houses
  have roots := backs.roots_grove site.nodup_nodes
  have child {node : NodeId} (member : node ∈ outlet.stretch) :
      document.parent node = some place.parent := site.bears.parent_of_root (roots ▸ member)
  constructor
  case anchor => exact child List.mem_cons_self
  case run =>
    refine ⟨place.before, place.behind, ?_⟩
    rw [← roots]
    exact children_of_cell? site.cell
  case siblings =>
    intro node
    constructor
    · intro member
      refine ⟨?_, child member⟩
      obtain rfl | behind := List.mem_cons.mp member
      · exact .anchor outlet
      · exact outlet.puts_of_mem_behind behind
    · rintro ⟨puts, above⟩
      rw [← roots]
      exact site.mem_roots_of_parent (inside puts) above
  case once => exact roots ▸ site.nodup_nodes.sublist plot.grove.roots_sublist_nodes
  case last => rw [← roots, backs.lastNode, sound.lastNode]
  case shown => exact shown
  case full => exact full

end Plot.Houses

/-! ## Outlets beside each other -/

/-- The stretch of an outlet has nodes of the bed only. -/
theorem Bed.Backs.stretch_subset {bed : Bed} {bindings : List (Binding σ)} {outlet : Outlet σ}
    (backs : bed.Backs bindings) (once : bed.grove.nodes.Nodup)
    (member : outlet ∈ bindings.filterMap Binding.outlet?) : outlet.stretch ⊆ bed.grove.nodes := by
  obtain ⟨plot, own, here⟩ := backs.exists_plot member
  have within := Bed.nodes_plot_sublist own
  rw [← here.roots_grove (once.sublist within)]
  exact (plot.grove.roots_sublist_nodes.trans within).subset

/-- The stretches of the outlets of an instance have no node in common. -/
theorem Bed.Backs.disjoint_stretches {bed : Bed} {bindings : List (Binding σ)}
    (backs : bed.Backs bindings) (once : bed.grove.nodes.Nodup) :
    (bindings.filterMap Binding.outlet?).Pairwise fun first second =>
      first.stretch.Disjoint second.stretch := by
  induction bed generalizing bindings with
  | done =>
    rw [backs.of_done]
    exact .nil
  | element node _ _ _ _ _ below rest ihBelow ihRest =>
    obtain ⟨own, inner, later, rfl, mine, -, inside, behind⟩ := backs.of_element
    rw [grove, Grove.nodes_cons, List.nodup_cons, List.nodup_append'] at once
    obtain ⟨-, onceBelow, onceRest, apart⟩ := once
    rw [List.filterMap_append, List.filterMap_append, Fixture.outlets_eq_nil mine, List.nil_append,
      List.pairwise_append]
    refine ⟨ihBelow inside onceBelow, ihRest behind onceRest, fun first here second there => ?_⟩
    intro node inFirst inSecond
    exact apart (inside.stretch_subset onceBelow here inFirst)
      (behind.stretch_subset onceRest there inSecond)
  | text _ _ rest ih | comment _ _ rest ih => exact ih ⟨backs.plain, backs.modest⟩ once.of_cons
  | gap plot rest ih =>
    obtain ⟨outlet, later, rfl, here, behind⟩ := backs.of_gap
    rw [grove, Grove.nodes_append, List.nodup_append'] at once
    obtain ⟨oncePlot, onceRest, apart⟩ := once
    refine List.pairwise_cons.mpr ⟨fun second there node inFirst inSecond => ?_, ih behind onceRest⟩
    rw [← here.roots_grove oncePlot] at inFirst
    exact apart (Grove.mem_nodes_of_mem_roots inFirst) (behind.stretch_subset onceRest there inSecond)

namespace Instance.Backed

variable {inner other : Instance σ} {outlet : Outlet σ} {grove : Grove}

theorem exists_houses (backed : inner.Backed grove) (site : Site document place grove)
    (live : inner.Live outlet) :
    ∃ (plot : Plot) (place : Place), plot.Houses document place outlet := by
  obtain ⟨bed, -, -, backs, rfl, sound⟩ := backed
  obtain ⟨own, part, within⟩ := live
  obtain ⟨plot, place, houses, -⟩ := backs.exists_houses sound site part
  exact houses.within within

/-- Wherever an instance is, its outlets have no node in common. -/
theorem disjoint_stretches (backed : inner.Backed grove) (site : Site document place grove)
    (includes : inner.Includes other) :
    other.outlets.Pairwise fun first second => first.stretch.Disjoint second.stretch := by
  have disjoint {other : Instance σ} {place : Place} {grove : Grove} (backed : other.Backed grove)
      (site : Site document place grove) :
      other.outlets.Pairwise fun first second => first.stretch.Disjoint second.stretch := by
    obtain ⟨bed, -, -, backs, rfl, -⟩ := backed
    exact backs.disjoint_stretches site.nodup_nodes
  obtain rfl | ⟨anchor, live⟩ := includes
  · exact disjoint backed site
  · obtain ⟨plot, place, houses⟩ := backed.exists_houses site live
    obtain ⟨inside, -, backed, there⟩ := houses.exists_backed
    exact disjoint backed there

end Instance.Backed

end LiveMarkup
