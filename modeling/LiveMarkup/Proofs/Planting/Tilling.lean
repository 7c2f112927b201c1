import LiveMarkup.Proofs.Clearing
import LiveMarkup.Proofs.Planting.Tending

/-! # Work on a document, with its log

`Tilled` says of a change not only that it puts one grove in place of another, but also how many
nodes there are then and which changes have been recorded.  The operations of a stage are described
by it, and so is the clearing of outlets. -/

namespace LiveMarkup

open Document Markup

variable {α σ : Type} {document between after : Document} {place : Place}
  {grove grown third other below rest : Grove} {node : NodeId} {data : NodeData}
  {next later : Nat} {deeds more : List Mutation}

/-- Two things can be told of one action. -/
theorem Performs.and {action : StageM α} {post also : α → Document → Prop}
    (first : Performs action document post) (second : Performs action document also) :
    Performs action document fun result after => post result after ∧ also result after := by
  intro stage same whole
  obtain ⟨wholeAfter, holds⟩ := first stage same whole
  exact ⟨wholeAfter, holds, (second stage same whole).2⟩

theorem logs_setText {shown : String} (found : document.data? node = some (.text shown))
    (changed : String) :
    Performs (Stage.setText node changed) document fun _ after =>
      document.Logs document.size [.setText node changed] after := by
  unfold Stage.setText
  refine .get fun stage same _ => ?_
  subst same
  have text : stage.document.isElement node = false := by simp [isElement, found]
  simp only [text, Bool.false_eq_true, if_false]
  refine .edit ?_
  simp only [Document.setText, found]
  exact .setData node _ _

theorem logs_setAttribute {tag : String} {space : Option String}
    {attributes : List (String × String)}
    (found : document.data? node = some (.element tag space attributes)) (name value : String) :
    Performs (Stage.setAttribute node name value) document fun _ after =>
      document.Logs document.size [.setAttribute node name value] after := by
  unfold Stage.setAttribute
  refine .get fun stage same _ => ?_
  subst same
  have element : stage.document.isElement node = true := by simp [isElement, found]
  simp only [element, if_true]
  refine .edit ?_
  simp only [Document.setAttribute, found]
  exact .setData node _ _

theorem logs_insertBefore (document : Document) (parent node : NodeId) (reference : Option NodeId) :
    Performs (Stage.insertBefore parent node reference) document fun _ after =>
      document.Logs document.size [.insert parent node] after := by
  have edited : Performs (Stage.edit (·.insertBefore parent node reference)) document
      fun _ after => document.Logs document.size [.insert parent node] after :=
    .edit (.insertBefore parent node reference)
  unfold Stage.insertBefore
  cases reference with
  | none => exact edited
  | some reference =>
    refine .get fun stage _ _ => ?_
    split
    · exact edited
    · exact .noting edited

/-- Nodes are put in one behind the other. -/
theorem logs_insertAll (document : Document) (parent : NodeId) (nodes : List NodeId)
    (reference : Option NodeId) :
    Performs (nodes.forM fun node => Stage.insertBefore parent node reference) document
      fun _ after => document.Logs document.size (nodes.map (.insert parent ·)) after := by
  induction nodes generalizing document with
  | nil => exact .pure (.refl document)
  | cons node nodes ih =>
    refine (logs_insertBefore document parent node reference).bind fun _ between first => ?_
    refine (ih between).mono fun _ after second => ?_
    have both := first.trans second
    rwa [first.size] at both

/-! ## Changes with a log -/

/-- A change that puts one grove in place of another and is recorded. -/
structure Tilled (place : Place) (document : Document) (grove : Grove) (next : Nat)
    (deeds : List Mutation) (after : Document) (grown : Grove) : Prop where
  regrown : Regrown place document grove after grown
  logs : document.Logs next deeds after

namespace Tilled

theorem refl (site : Site document place grove) :
    Tilled place document grove document.size [] document grove :=
  ⟨.refl site, .refl document⟩

theorem site (tilled : Tilled place document grove next deeds after grown) :
    Site after place grown :=
  tilled.regrown.site

theorem size (tilled : Tilled place document grove next deeds after grown) : after.size = next :=
  tilled.logs.size

theorem trans (first : Tilled place document grove next deeds between grown)
    (second : Tilled place between grown later more after third) :
    Tilled place document grove later (deeds ++ more) after third :=
  ⟨first.regrown.trans second.regrown, first.logs.trans second.logs⟩

theorem right (site : Site document place (grove ++ other))
    (tilled : Tilled (place.past grove.roots) document other next deeds after grown) :
    Tilled place document (grove ++ other) next deeds after (grove ++ grown) :=
  ⟨tilled.regrown.right site, tilled.logs⟩

theorem left (site : Site document place (grove ++ other))
    (tilled : Tilled (place.facing other.roots) document grove next deeds after grown) :
    Tilled place document (grove ++ other) next deeds after (grown ++ other) :=
  ⟨tilled.regrown.left site, tilled.logs⟩

theorem tail (site : Site document place (.cons node data below rest))
    (tilled : Tilled (place.past [node]) document rest next deeds after grown) :
    Tilled place document (.cons node data below rest) next deeds after
      (.cons node data below grown) :=
  ⟨tilled.regrown.tail site, tilled.logs⟩

theorem inside (site : Site document place (.cons node data below rest))
    (tilled : Tilled (.inside node data (some place.parent)) document below next deeds after
      grown) :
    Tilled place document (.cons node data below rest) next deeds after
      (.cons node data grown rest) :=
  ⟨tilled.regrown.inside site, tilled.logs⟩

end Tilled

theorem tills_setText {shown : String}
    (site : Site document place (.cons node (.text shown) below rest)) (changed : String) :
    Performs (Stage.setText node changed) document fun _ after =>
      Tilled place document (.cons node (.text shown) below rest) document.size
        [.setText node changed] after (.cons node (.text changed) below rest) :=
  ((performs_setText site changed).and (logs_setText (data?_of_cell? site.bears.1) changed)).mono
    fun _ _ ⟨regrown, logs⟩ => ⟨regrown, logs⟩

theorem tills_setAttribute {tag : String} {space : Option String}
    {attributes : List (String × String)}
    (site : Site document place (.cons node (.element tag space attributes) below rest))
    (name value : String) :
    Performs (Stage.setAttribute node name value) document fun _ after =>
      Tilled place document (.cons node (.element tag space attributes) below rest) document.size
        [.setAttribute node name value] after
        (.cons node (.element tag space (putAttribute name value attributes)) below rest) :=
  ((performs_setAttribute site name value).and
    (logs_setAttribute (data?_of_cell? site.bears.1) name value)).mono
      fun _ _ ⟨regrown, logs⟩ => ⟨regrown, logs⟩

theorem tills_remove (site : Site document place (.cons node data below rest)) :
    Performs (Stage.remove node) document fun _ after =>
      Tilled place document (.cons node data below rest) document.size [.remove node] after rest := by
  refine ((performs_remove site).and (performs_removal document node)).mono
    fun _ after ⟨regrown, same⟩ => ⟨regrown, ?_⟩
  subst same
  exact .detach node

/-- All trees of a grove are taken out. -/
theorem tills_removeAll (site : Site document place grove) :
    Performs (grove.roots.forM Stage.remove) document fun _ after =>
      Tilled place document grove document.size (grove.roots.map .remove) after .nil := by
  induction grove generalizing document with
  | nil => exact .pure (.refl site)
  | cons node data below rest _ ih =>
    refine (tills_remove site).bind fun _ between removed => ?_
    refine (ih removed.site).mono fun _ after more => ?_
    rw [← removed.size]
    exact removed.trans more

/-! ## Clearing -/

mutual

/-- Clearing an outlet leaves its anchor. -/
theorem Plot.Sound.tills_clear : ∀ {plot : Plot}, plot.Sound → ∀ {document : Document} {place : Place},
    Site document place plot.grove →
      Performs (plot.outlet : Outlet σ).clear document fun _ after =>
        Tilled place document plot.grove document.size plot.clearing after
          (.leaf plot.anchor (.text ""))
  | .text anchor data, _, document, place, site => by
    rw [Plot.outlet, Plot.clearing, Plot.writing]
    by_cases nothing : data = ""
    · subst nothing
      rw [if_pos rfl, if_pos rfl]
      exact .pure (.refl site)
    · rw [if_neg nothing, if_neg nothing]
      exact tills_setText site ""
  | .nested anchor template bed, ⟨layout, sound⟩, document, place, site => by
    refine (sound.tills_detach layout site.tail).mono fun _ after detached => ?_
    exact detached.tail site
  | .items anchor plots, sound, document, place, site => by
    have sound : Plot.AllSound plots := sound
    refine (sound.tills_dropAll site.tail).mono fun _ after dropped => ?_
    exact dropped.tail site

theorem Plot.AllSound.tills_dropAll : ∀ {plots : List Plot}, Plot.AllSound plots →
    ∀ {document : Document} {place : Place}, Site document place (Plot.groves plots) →
      Performs (Outlet.dropAll (Plot.outlets plots : List (Outlet σ))) document fun _ after =>
        Tilled place document (Plot.groves plots) document.size (Plot.dropping plots) after .nil
  | [], _, document, place, site => .pure (.refl site)
  | plot :: plots, ⟨soundPlot, soundPlots⟩, document, place, site => by
    rw [Plot.outlets, Outlet.dropAll, Plot.anchor_outlet]
    refine (soundPlot.tills_clear site.left).bind fun _ between cleared => ?_
    have leaf := cleared.left site
    refine (tills_remove leaf.site).bind fun _ later removed => ?_
    refine (soundPlots.tills_dropAll removed.site).mono fun _ after dropped => ?_
    rw [removed.size, leaf.size] at dropped
    exact leaf.trans (removed.trans dropped)

/-- Detaching an instance leaves nothing of its output. -/
theorem Bed.Sound.tills_detach : ∀ {bed : Bed}, bed.Sound → ∀ {template : Template},
    template.blueprint = bed.stencil.blueprint → ∀ {document : Document} {place : Place},
      Site document place bed.grove →
        Performs (bed.instance template : Instance σ).detach document fun _ after =>
          Tilled place document bed.grove document.size
            (bed.clearing ++ bed.roots.map .remove) after .nil := by
  intro bed sound template layout document place site
  rw [Bed.instance, Instance.detach, layout]
  refine (sound.tills_clearRoots 0 site).bind fun _ between ⟨grown, tilled, roots⟩ => ?_
  rw [← roots]
  refine (tills_removeAll tilled.site).mono fun _ after removed => ?_
  rw [tilled.size] at removed
  exact tilled.trans removed

/-- Clearing the outlets among the roots leaves just the instance's own roots. -/
theorem Bed.Sound.tills_clearRoots : ∀ {bed : Bed}, bed.Sound → ∀ (index : Nat)
    {document : Document} {place : Place}, Site document place bed.grove →
      Performs (Instance.clearRoots (bed.bindings : List (Binding σ))
        (bed.stencil.partsAt [] index)) document fun _ after => ∃ grown,
          Tilled place document bed.grove document.size bed.clearing after grown ∧
            grown.roots = bed.roots
  | .done, _, index, document, place, site => .pure ⟨.nil, .refl site, rfl⟩
  | .element node _ _ _ _ fixtures below rest, ⟨_, soundRest⟩, index, document, place, site => by
    rw [Bed.bindings_element, Bed.stencil, Stencil.partsAt,
      Stencil.clearRoots_element (by simp) below.length_bindings]
    refine (soundRest.tills_clearRoots (index + 1) site.tail).mono
      fun _ after ⟨grown, cleared, roots⟩ => ?_
    exact ⟨_, cleared.tail site, by rw [Grove.roots_cons, roots]; rfl⟩
  | .text node data rest, sound, index, document, place, site => by
    have sound : rest.Sound := sound
    refine (sound.tills_clearRoots (index + 1) site.tail).mono
      fun _ after ⟨grown, cleared, roots⟩ => ?_
    exact ⟨_, cleared.tail site, by rw [Grove.roots_cons, roots]; rfl⟩
  | .comment node data rest, sound, index, document, place, site => by
    have sound : rest.Sound := sound
    refine (sound.tills_clearRoots (index + 1) site.tail).mono
      fun _ after ⟨grown, cleared, roots⟩ => ?_
    exact ⟨_, cleared.tail site, by rw [Grove.roots_cons, roots]; rfl⟩
  | .gap plot rest, ⟨soundPlot, soundRest⟩, index, document, place, site => by
    rw [Bed.bindings, Bed.stencil, Stencil.partsAt, Instance.clearRoots]
    refine (soundPlot.tills_clear site.left).bind fun _ between cleared => ?_
    have leaf := cleared.left site
    refine (soundRest.tills_clearRoots (index + 1) leaf.site.tail).mono
      fun _ after ⟨grown, cleared, roots⟩ => ?_
    rw [leaf.size] at cleared
    refine ⟨_, leaf.trans (cleared.tail leaf.site), ?_⟩
    rw [Grove.roots_cons, roots]
    rfl

end

end LiveMarkup
