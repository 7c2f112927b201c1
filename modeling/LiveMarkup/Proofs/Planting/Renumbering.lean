import LiveMarkup.Proofs.Planting.Tending

/-! # Other numbers for nodes

Which numbers nodes have does not matter to the work on beds.  If the nodes of a bed are given other
numbers and the next ones that are created, too, then the same work makes the same bed of it, with
other numbers, and records the same changes of the nodes with these numbers.

`Tend.Renames` compares two pieces of work that start with different numbers of nodes.  It is kept
by sequencing, since both create nodes at the same times.  It asks nothing of the numbers that
neither of them gives to a node. -/

namespace LiveMarkup

open Document Markup

variable {α β γ δ : Type}

/-! ## Renumbering -/

section

variable (rename : NodeId → NodeId)

def Mutation.renumber : Mutation → Mutation
  | setAttribute element name value => setAttribute (rename element) name value
  | setText node data => setText (rename node) data
  | insert parent node => insert (rename parent) (rename node)
  | remove node => remove (rename node)

def Grove.renumber : Grove → Grove
  | nil => nil
  | cons node data below rest => cons (rename node) data below.renumber rest.renumber

mutual

def Bed.renumber : Bed → Bed
  | .done => .done
  | .element node name space static attributes fixtures below rest =>
    .element (rename node) name space static attributes fixtures below.renumber rest.renumber
  | .text node data rest => .text (rename node) data rest.renumber
  | .comment node data rest => .comment (rename node) data rest.renumber
  | .gap plot rest => .gap plot.renumber rest.renumber

def Plot.renumber : Plot → Plot
  | .text anchor data => .text (rename anchor) data
  | .nested anchor template bed => .nested (rename anchor) template bed.renumber
  | .items anchor plots => .items (rename anchor) (Plot.renumberAll plots)

def Plot.renumberAll : List Plot → List Plot
  | [] => []
  | plot :: plots => plot.renumber :: Plot.renumberAll plots

end

end

variable {rename : NodeId → NodeId}

namespace Grove

@[simp] theorem renumber_append (grove other : Grove) :
    (grove ++ other).renumber rename = grove.renumber rename ++ other.renumber rename := by
  induction grove with
  | nil => rfl
  | cons node data below rest _ ih => simp [renumber, ih]

@[simp] theorem roots_renumber (grove : Grove) :
    (grove.renumber rename).roots = grove.roots.map rename := by
  induction grove with
  | nil => rfl
  | cons node data below rest _ ih => simp [renumber, ih]

end Grove

@[simp] theorem Plot.anchor_renumber (plot : Plot) :
    (plot.renumber rename).anchor = rename plot.anchor := by
  cases plot <;> rfl

namespace Bed

@[simp] theorem stencil_renumber (bed : Bed) : (bed.renumber rename).stencil = bed.stencil := by
  induction bed <;> simp_all [Bed.renumber, stencil]

@[simp] theorem roots_renumber (bed : Bed) :
    (bed.renumber rename).roots = bed.roots.map rename := by
  induction bed <;> simp_all [Bed.renumber, roots]

end Bed

mutual

theorem Bed.grove_renumber : ∀ bed : Bed,
    (bed.renumber rename).grove = bed.grove.renumber rename
  | .done => rfl
  | .element _ _ _ _ _ _ below rest => by
    rw [Bed.renumber, Bed.grove, below.grove_renumber, rest.grove_renumber]
    rfl
  | .text _ _ rest => by
    rw [Bed.renumber, Bed.grove, rest.grove_renumber]
    rfl
  | .comment _ _ rest => by
    rw [Bed.renumber, Bed.grove, rest.grove_renumber]
    rfl
  | .gap plot rest => by
    rw [Bed.renumber, Bed.grove, plot.grove_renumber, rest.grove_renumber, Bed.grove,
      Grove.renumber_append]

theorem Plot.grove_renumber : ∀ plot : Plot,
    (plot.renumber rename).grove = plot.grove.renumber rename
  | .text _ _ => rfl
  | .nested _ _ bed => by
    rw [Plot.renumber, Plot.grove, bed.grove_renumber]
    rfl
  | .items _ plots => by
    rw [Plot.renumber, Plot.grove, Plot.groves_renumberAll plots]
    rfl

theorem Plot.groves_renumberAll : ∀ plots : List Plot,
    Plot.groves (Plot.renumberAll rename plots) = (Plot.groves plots).renumber rename
  | [] => rfl
  | plot :: plots => by
    rw [Plot.renumberAll, Plot.groves, plot.grove_renumber, Plot.groves_renumberAll plots,
      Plot.groves, Grove.renumber_append]

end

/-! ## Work on other numbers -/

/-- The numbers from one number up to another become those from a third one on. -/
def Shifts (rename : NodeId → NodeId) (start stop other : Nat) : Prop :=
  ∀ number, start ≤ number → number < stop → rename ⟨number⟩ = ⟨other + (number - start)⟩

namespace Shifts

variable {start between stop other : Nat}

/-- Numbers that stay are not shifted. -/
theorem of_fixed (fixed : ∀ number < stop, rename ⟨number⟩ = ⟨number⟩) :
    Shifts rename start stop start := by
  intro number least below
  rw [fixed number below, Nat.add_sub_of_le least]

theorem left (shifts : Shifts rename start stop other) (earlier : between ≤ stop) :
    Shifts rename start between other :=
  fun number least below => shifts number least (Nat.lt_of_lt_of_le below earlier)

theorem right (shifts : Shifts rename start stop other) (later : start ≤ between) :
    Shifts rename between stop (other + (between - start)) := by
  intro number least below
  rw [shifts number (Nat.le_trans later least) below, Nat.add_assoc]
  have split : number - start = between - start + (number - between) := by omega
  rw [split]

end Shifts

namespace Tend

/-- The second work does what the first one does, to nodes with other numbers, and creates as many
nodes. -/
def Renames (rename : NodeId → NodeId) (convert : α → β) (work : Tend α) (other : Tend β) : Prop :=
  ∀ next, next ≤ (work next).next ∧ ∀ next', Shifts rename next (work next).next next' →
    (other next').result = convert (work next).result ∧
      (other next').next = next' + ((work next).next - next) ∧
      (other next').deeds = (work next).deeds.map (Mutation.renumber rename)

namespace Renames

variable {convert : α → β}

protected theorem pure {result : α} {other : β} (same : other = convert result) :
    Renames rename convert (pure result) (pure other) :=
  fun next => ⟨Nat.le_refl _, fun next' _ => ⟨same, by simp, rfl⟩⟩

theorem bind {between : γ → δ} {work : Tend γ} {other : Tend δ} {next : γ → Tend α}
    {next' : δ → Tend β} (first : Renames rename between work other)
    (second : ∀ result, Renames rename convert (next result) (next' (between result))) :
    Renames rename convert (work >>= next) (other >>= next') := by
  intro start
  obtain ⟨grows, first⟩ := first start
  obtain ⟨grows', second⟩ := second (work start).result (work start).next
  refine ⟨Nat.le_trans grows grows', fun start' shifts => ?_⟩
  obtain ⟨same, count, deeds⟩ := first start' (shifts.left grows')
  obtain ⟨same', count', deeds'⟩ := second _ (count ▸ shifts.right grows)
  simp only [bind_apply, same, deeds, List.map_append]
  refine ⟨same', ?_, congrArg _ deeds'⟩
  rw [count', count]
  omega

theorem map {between : γ → δ} {work : Tend γ} {other : Tend δ} {change : γ → α} {change' : δ → β}
    (renames : Renames rename between work other)
    (same : ∀ result, change' (between result) = convert (change result)) :
    Renames rename convert (change <$> work) (change' <$> other) := by
  intro start
  obtain ⟨grows, renames⟩ := renames start
  refine ⟨grows, fun start' shifts => ?_⟩
  obtain ⟨equal, count, deeds⟩ := renames start' shifts
  exact ⟨(congrArg change' equal).trans (same _), count, deeds⟩

theorem create : Renames rename rename create create := by
  refine fun next => ⟨Nat.le_succ next, fun next' shifts => ⟨?_, ?_, rfl⟩⟩
  · simpa using (shifts next (Nat.le_refl next) (Nat.lt_succ_self next)).symm
  · simp

theorem record {deeds other : List Mutation} (same : other = deeds.map (Mutation.renumber rename)) :
    Renames rename id (record deeds) (record other) :=
  fun next => ⟨Nat.le_refl _, fun next' _ => ⟨rfl, by simp, same⟩⟩

end Renames

end Tend

open Tend

/-! ## Taking away -/

theorem Plot.writing_renumber (anchor : NodeId) (shown data : String) :
    Plot.writing (rename anchor) shown data =
      (Plot.writing anchor shown data).map (Mutation.renumber rename) := by
  unfold writing
  split <;> rfl

mutual

theorem Plot.clearing_renumber : ∀ plot : Plot,
    (plot.renumber rename).clearing = plot.clearing.map (Mutation.renumber rename)
  | .text anchor data => Plot.writing_renumber anchor data ""
  | .nested _ _ bed => by
    rw [Plot.renumber, Plot.clearing, bed.clearing_renumber, bed.roots_renumber, Plot.clearing,
      List.map_append, List.map_map, List.map_map]
    rfl
  | .items _ plots => by
    rw [Plot.renumber, Plot.clearing, Plot.dropping_renumberAll plots, Plot.clearing]

theorem Bed.clearing_renumber : ∀ bed : Bed,
    (bed.renumber rename).clearing = bed.clearing.map (Mutation.renumber rename)
  | .done => rfl
  | .element _ _ _ _ _ _ _ rest => rest.clearing_renumber
  | .text _ _ rest => rest.clearing_renumber
  | .comment _ _ rest => rest.clearing_renumber
  | .gap plot rest => by
    rw [Bed.renumber, Bed.clearing, plot.clearing_renumber, rest.clearing_renumber, Bed.clearing,
      List.map_append]

theorem Plot.dropping_renumberAll : ∀ plots : List Plot,
    Plot.dropping (Plot.renumberAll rename plots) =
      (Plot.dropping plots).map (Mutation.renumber rename)
  | [] => rfl
  | plot :: plots => by
    rw [Plot.renumberAll, Plot.dropping, plot.clearing_renumber, plot.anchor_renumber,
      Plot.dropping_renumberAll plots, Plot.dropping, List.map_append]
    rfl

end

/-! ## Sowing -/

theorem Stencil.renames_sow (stencil : Stencil) (inside : Option NodeId) (path : Path)
    (child : Nat) : Renames rename (Bed.renumber rename) (stencil.sow inside path child)
      (stencil.sow (inside.map rename) path child) := by
  have inserts (inside : Option NodeId) (node : NodeId) : Renames rename id
      (Tend.record (inside.toList.map (.insert · node)))
      (Tend.record ((inside.map rename).toList.map (.insert · (rename node)))) := by
    refine .record ?_
    cases inside <;> rfl
  induction stencil generalizing inside path child with
  | done => exact .pure rfl
  | element name space static bound below rest ihBelow ihRest =>
    refine .bind .create fun node => .bind (.record ?_) fun _ => ?_
    · rw [List.map_map]
      rfl
    refine .bind (ihBelow (some node) _ _) fun below => .bind (inserts inside node) fun _ => ?_
    exact .bind (ihRest inside _ _) fun rest => .pure rfl
  | text data rest ih =>
    refine .bind .create fun node => .bind (inserts inside node) fun _ => ?_
    exact .bind (ih inside _ _) fun rest => .pure rfl
  | comment data rest ih =>
    refine .bind .create fun node => .bind (inserts inside node) fun _ => ?_
    exact .bind (ih inside _ _) fun rest => .pure rfl
  | gap rest ih =>
    refine .bind .create fun node => .bind (inserts inside node) fun _ => ?_
    exact .bind (ih inside _ _) fun rest => .pure rfl

/-! ## Updating -/

theorem Fixture.deeds_renumber (node : NodeId) (fixture : Fixture) (value : Value) :
    fixture.deeds (rename node) value =
      (fixture.deeds node value).map (Mutation.renumber rename) := by
  unfold deeds
  split <;> rfl

theorem Fixture.renames_tendAll (node : NodeId) (fixtures : List Fixture) (values : List Value) :
    Renames rename id (tendAll node fixtures values) (tendAll (rename node) fixtures values) := by
  induction fixtures generalizing values with
  | nil => exact .pure rfl
  | cons fixture fixtures ih =>
    cases values with
    | nil => exact .pure rfl
    | cons value values =>
      refine .bind (.record (fixture.deeds_renumber node value)) fun _ => ?_
      exact .bind (ih values) fun rest => .pure rfl

/-- An update that does to plots with other numbers what it does to plots. -/
def PlotUpdate.Renames (rename : NodeId → NodeId) (update : PlotUpdate) : Prop :=
  ∀ parent plot value, Tend.Renames rename (Plot.renumber rename) (update parent plot value)
    (update (rename parent) (plot.renumber rename) value)

theorem Bed.renames_tend {update : PlotUpdate} (renames : update.Renames rename) (bed : Bed)
    (parent : NodeId) (values : List Value) :
    Renames rename (Bed.renumber rename) (bed.tend update parent values)
      ((bed.renumber rename).tend update (rename parent) values) := by
  induction bed generalizing parent values with
  | done => exact .pure rfl
  | element node name space static attributes fixtures below rest ihBelow ihRest =>
    refine .bind (Fixture.renames_tendAll node fixtures values) fun fixtures => ?_
    refine .bind (ihBelow node _) fun below' => ?_
    rw [below.stencil_renumber]
    exact .bind (ihRest parent _) fun rest => .pure rfl
  | text node data rest ih => exact (ih parent values).map fun rest => rfl
  | comment node data rest ih => exact (ih parent values).map fun rest => rfl
  | gap plot rest ih =>
    cases values with
    | nil => exact .pure rfl
    | cons value values =>
      refine .bind (renames parent plot value) fun plot => ?_
      exact .bind (ih parent values) fun rest => .pure rfl

namespace Plot

theorem renames_showText (data : String) (plot : Plot) :
    Renames rename (renumber rename) (plot.showText data)
      ((plot.renumber rename).showText data) := by
  have writes (anchor : NodeId) (shown : String) : Renames rename id
      (Tend.record (writing anchor shown data)) (Tend.record (writing (rename anchor) shown data)) :=
    .record (writing_renumber anchor shown data)
  cases plot with
  | text anchor shown => exact .bind (writes anchor shown) fun _ => .pure rfl
  | nested anchor template bed =>
    exact .bind (.record (clearing_renumber _)) fun _ => .bind (writes anchor "") fun _ => .pure rfl
  | items anchor plots =>
    exact .bind (.record (clearing_renumber _)) fun _ => .bind (writes anchor "") fun _ => .pure rfl

section

variable (layout : Template → Stencil) {update : PlotUpdate} (renames : update.Renames rename)

include renames

theorem renames_replace (plot : Plot) (parent : NodeId) (template : Template)
    (values : List Value) :
    Renames rename (renumber rename) (plot.replace layout update parent template values)
      ((plot.renumber rename).replace layout update (rename parent) template values) := by
  refine .bind (.record plot.clearing_renumber) fun _ => ?_
  refine .bind ((layout template).renames_sow none [] 0) fun bed => .bind (.record ?_) fun _ => ?_
  · rw [bed.roots_renumber, List.map_map, List.map_map]
    rfl
  · refine (bed.renames_tend renames parent values).map fun bed => ?_
    rw [plot.anchor_renumber]
    rfl

theorem renames_showTemplate (plot : Plot) (parent : NodeId) (template : Template)
    (values : List Value) :
    Renames rename (renumber rename) (plot.showTemplate layout update parent template values)
      ((plot.renumber rename).showTemplate layout update (rename parent) template values) := by
  cases plot with
  | text anchor shown => exact renames_replace layout renames _ parent template values
  | nested anchor old bed =>
    rw [renumber, showTemplate, showTemplate]
    split
    · exact (bed.renames_tend renames parent values).map fun bed => rfl
    · exact renames_replace layout renames (nested anchor old bed) parent template values
  | items anchor plots => exact renames_replace layout renames _ parent template values

theorem renames_showItems (plots : List Plot) (parent : NodeId) (values : List Value) :
    Renames rename (renumberAll rename) (showItems update parent plots values)
      (showItems update (rename parent) (renumberAll rename plots) values) := by
  induction values generalizing plots with
  | nil =>
    cases plots with
    | nil => exact .bind (.record rfl) fun _ => .pure rfl
    | cons plot plots =>
      exact .bind (.record (dropping_renumberAll (plot :: plots))) fun _ => .pure rfl
  | cons value values ih =>
    cases plots with
    | nil =>
      refine .bind .create fun anchor => .bind (.record rfl) fun _ => ?_
      exact .bind (renames parent _ value) fun first => .bind (ih []) fun rest => .pure rfl
    | cons plot plots =>
      exact .bind (renames parent plot value) fun first => .bind (ih plots) fun rest => .pure rfl

theorem renames_showList (plot : Plot) (parent : NodeId) (values : List Value) :
    Renames rename (renumber rename) (plot.showList update parent values)
      ((plot.renumber rename).showList update (rename parent) values) := by
  cases plot with
  | items anchor plots => exact (renames_showItems renames plots parent values).map fun _ => rfl
  | text anchor shown =>
    exact .bind (.record (clearing_renumber _)) fun _ =>
      (renames_showItems renames [] parent values).map fun _ => rfl
  | nested anchor template bed =>
    exact .bind (.record (clearing_renumber _)) fun _ =>
      (renames_showItems renames [] parent values).map fun _ => rfl

end

/-- Tending does not depend on the numbers of nodes. -/
theorem renames_tend (layout : Template → Stencil) (room : Nat) :
    PlotUpdate.Renames rename (tend layout room) := by
  induction room with
  | zero => exact fun _ plot _ => renames_showText "" plot
  | succ room ih =>
    intro parent plot value
    cases value
    case template template values => exact renames_showTemplate layout ih plot parent template values
    case items values => exact renames_showList ih plot parent values
    all_goals exact renames_showText _ plot

end Plot

/-! ## Nodes with their own numbers -/

mutual

theorem Bed.renumber_congr {other : NodeId → NodeId} : ∀ bed : Bed,
    (∀ node ∈ bed.grove.nodes, rename node = other node) → bed.renumber rename = bed.renumber other
  | .done, _ => rfl
  | .element node _ _ _ _ _ below rest, same => by
    simp only [Bed.grove, Grove.nodes_cons, List.forall_mem_cons, List.forall_mem_append] at same
    obtain ⟨here, inside, behind⟩ := same
    rw [Bed.renumber, Bed.renumber, here, below.renumber_congr inside, rest.renumber_congr behind]
  | .text node _ rest, same => by
    simp only [Bed.grove, Grove.nodes_cons, Grove.nodes_nil, List.nil_append,
      List.forall_mem_cons] at same
    rw [Bed.renumber, Bed.renumber, same.1, rest.renumber_congr same.2]
  | .comment node _ rest, same => by
    simp only [Bed.grove, Grove.nodes_cons, Grove.nodes_nil, List.nil_append,
      List.forall_mem_cons] at same
    rw [Bed.renumber, Bed.renumber, same.1, rest.renumber_congr same.2]
  | .gap plot rest, same => by
    simp only [Bed.grove, Grove.nodes_append, List.forall_mem_append] at same
    rw [Bed.renumber, Bed.renumber, plot.renumber_congr same.1, rest.renumber_congr same.2]

theorem Plot.renumber_congr {other : NodeId → NodeId} : ∀ plot : Plot,
    (∀ node ∈ plot.grove.nodes, rename node = other node) →
      plot.renumber rename = plot.renumber other
  | .text anchor _, same => by
    rw [Plot.renumber, Plot.renumber, same anchor List.mem_cons_self]
  | .nested anchor _ bed, same => by
    simp only [Plot.grove, Grove.nodes_cons, Grove.nodes_nil, List.nil_append,
      List.forall_mem_cons] at same
    rw [Plot.renumber, Plot.renumber, same.1, bed.renumber_congr same.2]
  | .items anchor plots, same => by
    simp only [Plot.grove, Grove.nodes_cons, Grove.nodes_nil, List.nil_append,
      List.forall_mem_cons] at same
    rw [Plot.renumber, Plot.renumber, same.1, Plot.renumberAll_congr plots same.2]

theorem Plot.renumberAll_congr {other : NodeId → NodeId} : ∀ plots : List Plot,
    (∀ node ∈ (Plot.groves plots).nodes, rename node = other node) →
      Plot.renumberAll rename plots = Plot.renumberAll other plots
  | [], _ => rfl
  | plot :: plots, same => by
    simp only [Plot.groves, Grove.nodes_append, List.forall_mem_append] at same
    rw [Plot.renumberAll, Plot.renumberAll, plot.renumber_congr same.1,
      Plot.renumberAll_congr plots same.2]

end

mutual

theorem Bed.renumber_id : ∀ bed : Bed, bed.renumber id = bed
  | .done => rfl
  | .element _ _ _ _ _ _ below rest => by
    rw [Bed.renumber, below.renumber_id, rest.renumber_id]
    rfl
  | .text _ _ rest | .comment _ _ rest => by
    rw [Bed.renumber, rest.renumber_id]
    rfl
  | .gap plot rest => by rw [Bed.renumber, plot.renumber_id, rest.renumber_id]

theorem Plot.renumber_id : ∀ plot : Plot, plot.renumber id = plot
  | .text _ _ => rfl
  | .nested _ _ bed => by
    rw [Plot.renumber, bed.renumber_id]
    rfl
  | .items _ plots => by
    rw [Plot.renumber, Plot.renumberAll_id plots]
    rfl

theorem Plot.renumberAll_id : ∀ plots : List Plot, Plot.renumberAll id plots = plots
  | [] => rfl
  | plot :: plots => by rw [Plot.renumberAll, plot.renumber_id, Plot.renumberAll_id plots]

end

/-- A bed whose nodes all keep their numbers stays as it is. -/
theorem Bed.renumber_eq_self {bed : Bed} (same : ∀ node ∈ bed.grove.nodes, rename node = node) :
    bed.renumber rename = bed :=
  (bed.renumber_congr same).trans bed.renumber_id

end LiveMarkup
