import LiveMarkup.Proofs.Fitting
import LiveMarkup.Proofs.Surgery

/-! # Taking output away

Clearing an outlet leaves just its anchor, and detaching an instance leaves nothing, whatever they
held before.  The outlets inside of elements need not be cleared: their output goes with the
elements. -/

namespace LiveMarkup

open Markup

variable {σ : Type} {document : Document} {place : Place}

theorem Instance.clearRoots_append {first second : List (Binding σ)} {parts more : List Part}
    (lengths : first.length = parts.length) :
    Instance.clearRoots (first ++ second) (parts ++ more) =
      (Instance.clearRoots first parts >>= fun _ => Instance.clearRoots second more) := by
  induction first generalizing parts with
  | nil =>
    cases parts with
    | nil => rfl
    | cons _ _ => cases lengths
  | cons binding first ih =>
    cases parts with
    | nil => cases lengths
    | cons part parts =>
      have later := ih (Nat.succ.inj lengths)
      match binding with
      | .attribute _ => exact later
      | .outlet outlet =>
        simp only [List.cons_append, Instance.clearRoots, later]
        split
        · rfl
        · rfl

/-- Outlets whose anchors are no roots are left alone. -/
theorem Instance.clearRoots_eq_pure {bindings : List (Binding σ)} {parts : List Part}
    (deep : ∀ part ∈ parts, Path.isRoot part.path = false) :
    Instance.clearRoots bindings parts = pure () := by
  induction bindings generalizing parts with
  | nil => simp [Instance.clearRoots]
  | cons binding bindings ih =>
    cases parts with
    | nil =>
      match binding with
      | .attribute _ => rfl
      | .outlet _ => rfl
    | cons part parts =>
      have later := ih fun part member => deep part (List.mem_cons_of_mem _ member)
      match binding with
      | .attribute _ => exact later
      | .outlet _ => simp [Instance.clearRoots, later, deep part List.mem_cons_self]

theorem Instance.clearRoots_map_attribute (own : List (AttributeBinding σ)) (parts : List Part) :
    Instance.clearRoots (own.map Binding.attribute) parts = pure () := by
  induction own generalizing parts with
  | nil => simp [Instance.clearRoots]
  | cons binding own ih =>
    cases parts with
    | nil => rfl
    | cons part parts => exact ih parts

theorem Stencil.clearRoots_element {index : Nat} {bound : List (String × String)}
    {below rest : Stencil} {own : List (AttributeBinding σ)} {inner later : List (Binding σ)}
    (lengths : own.length = bound.length) (lengthsBelow : inner.length = below.count) :
    Instance.clearRoots (own.map Binding.attribute ++ (inner ++ later))
        (boundParts ([] ++ [index]) bound ++
          (below.partsAt ([] ++ [index]) 0 ++ rest.partsAt [] (index + 1))) =
      Instance.clearRoots later (rest.partsAt [] (index + 1)) := by
  have deep : Instance.clearRoots inner (below.partsAt ([] ++ [index]) 0) = pure () := by
    refine Instance.clearRoots_eq_pure fun part member => ?_
    obtain ⟨child, path, same, -⟩ := below_of_mem_partsAt member
    simp [Path.isRoot, same]
  rw [Instance.clearRoots_append (by simp [lengths]),
    Instance.clearRoots_append (by simp [lengthsBelow]), deep,
    Instance.clearRoots_map_attribute]
  rfl

mutual

/-- Clearing an outlet leaves its anchor. -/
theorem Outlet.Fits.performs_clear {outlet : Outlet σ} {segment : Grove} :
    outlet.Fits segment → ∀ {document : Document} {place : Place}, Site document place segment →
      Performs outlet.clear document fun _ after =>
        Regrown place document segment after (.leaf outlet.anchor (.text ""))
  | .vacant, document, place, site => .pure (.refl site)
  | .text _, document, place, site => performs_setText site ""
  | .nested content, document, place, site => by
    refine (content.performs_detach site.tail).mono fun _ after detached => ?_
    exact detached.tail site
  | .items content, document, place, site => by
    refine (content.performs_dropAll site.tail).mono fun _ after dropped => ?_
    exact dropped.tail site

theorem Outlet.AllFit.performs_dropAll {outlets : List (Outlet σ)} {grove : Grove} :
    Outlet.AllFit outlets grove → ∀ {document : Document} {place : Place},
      Site document place grove →
      Performs (Outlet.dropAll outlets) document fun _ after =>
        Regrown place document grove after .nil
  | .nil, document, place, site => .pure (.refl site)
  | .cons here there, document, place, site => by
    refine (here.performs_clear site.left).bind fun _ between cleared => ?_
    have leaf := cleared.left site
    refine (performs_remove leaf.site).bind fun _ later removed => ?_
    refine (there.performs_dropAll removed.site).mono fun _ after dropped => ?_
    exact (leaf.trans removed).trans dropped

/-- Detaching an instance leaves nothing of its output. -/
theorem Instance.Fits.performs_detach {inner : Instance σ} {grove : Grove} :
    inner.Fits grove → ∀ {document : Document} {place : Place}, Site document place grove →
      Performs inner.detach document fun _ after => Regrown place document grove after .nil
  | .mk layout distinct content, document, place, site => by
    rw [Instance.detach, layout]
    refine (content.performs_clearRoots 0 site).bind fun _ between cleared => ?_
    obtain ⟨grown, regrown, rfl⟩ := cleared
    exact (performs_removeAll regrown.site).mono fun _ after removed => regrown.trans removed

/-- Clearing the outlets among the roots leaves just the instance's own roots. -/
theorem Stencil.Fits.performs_clearRoots {stencil : Stencil} {bindings : List (Binding σ)}
    {grove : Grove} {roots : List NodeId} :
    stencil.Fits bindings grove roots → ∀ (index : Nat) {document : Document} {place : Place},
      Site document place grove →
      Performs (Instance.clearRoots bindings (stencil.partsAt [] index)) document fun _ after =>
        ∃ grown, Regrown place document grove after grown ∧ grown.roots = roots
  | .done, index, document, place, site => .pure ⟨.nil, .refl site, rfl⟩
  | .element attributes children after, index, document, place, site => by
    rw [Stencil.partsAt, Stencil.clearRoots_element attributes.length children.length]
    refine (after.performs_clearRoots (index + 1) site.tail).mono fun _ after cleared => ?_
    obtain ⟨grown, regrown, rfl⟩ := cleared
    exact ⟨_, regrown.tail site, rfl⟩
  | .text after, index, document, place, site => by
    refine (after.performs_clearRoots (index + 1) site.tail).mono fun _ after cleared => ?_
    obtain ⟨grown, regrown, rfl⟩ := cleared
    exact ⟨_, regrown.tail site, rfl⟩
  | .comment after, index, document, place, site => by
    refine (after.performs_clearRoots (index + 1) site.tail).mono fun _ after cleared => ?_
    obtain ⟨grown, regrown, rfl⟩ := cleared
    exact ⟨_, regrown.tail site, rfl⟩
  | .gap content after, index, document, place, site => by
    rw [Stencil.partsAt, Instance.clearRoots]
    refine (content.performs_clear site.left).bind fun _ between cleared => ?_
    have leaf := cleared.left site
    refine (after.performs_clearRoots (index + 1) leaf.site.tail).mono fun _ after cleared => ?_
    obtain ⟨grown, regrown, rfl⟩ := cleared
    exact ⟨_, leaf.trans (regrown.tail leaf.site), rfl⟩

end

end LiveMarkup
