import NestedHover.Proofs.Region.Subtrees
import Mathlib.Order.Defs.Unbundled

/-!
# Enclosing regions

Containment is a partial order on the live regions, and the regions that enclose a given one
form a chain in it.  So there is a least one among the focusable regions of that chain, and
this is the owner.  Whether a region is nested below another one can be asked in a single walk
up that remembers whether it has met a focusable region, or by looking for the owner first and
for the other region from there; the two ways agree wherever the two regions lie.

Main results:

- Theorem {lit}`isPartialOrder_isWithin`: containment is a partial order on the live regions.
- Theorem {lit}`owner?_eq_some_iff_isLeastFocusable`: the owner of a region is the least
  focusable one that encloses it.
- Theorem {lit}`nesting_agrees_with_ownership`: all of this after every run of changes.
-/

namespace NestedHover

namespace Diagram

variable {d : Diagram} {key container owner : RegionKey}

/-! ## Containment -/

/-- Containment is a partial order on the live regions. -/
theorem isPartialOrder_isWithin (hsound : d.Sound) :
    IsPartialOrder {key // d.contains key = true}
      (fun inner outer => d.isWithin inner.1 outer.1 = true) where
  refl key := isWithin_self (contains_eq_true_iff.mp key.2)
  trans _ _ _ h hother := isWithin_trans hsound h hother
  antisymm _ _ h hother := Subtype.ext (isWithin_antisymm hsound h hother)

/-! ## The least focusable region around a region -/

/-- A focusable region around a region that lies within every other such region. -/
structure IsLeastFocusable (d : Diagram) (key owner : RegionKey) : Prop where
  focusable : d.kind? owner = some .focusable
  around : d.isWithin key owner = true
  least : ∀ container, d.kind? container = some .focusable →
    d.isWithin key container = true → d.isWithin owner container = true

/-- A region is focusable by its key exactly when it is so itself. -/
theorem kind?_eq_focusable_iff (hsound : d.Sound) {r : Region} (hr : r ∈ d.forest.regions) :
    d.kind? r.key = some .focusable ↔ r.isFocusable = true := by
  simp [kind?, region?_of_mem_regions hsound hr, Region.isFocusable]

/-- Who lies within a focusable region has an owner, within that region. -/
theorem exists_owner?_of_isWithin (hsound : d.Sound)
    (hfocusable : d.kind? container = some .focusable)
    (hwithin : d.isWithin key container = true) :
    ∃ o, d.owner? key = some o ∧ d.isWithin o container = true := by
  rcases isWithin_iff_exists_append.mp hwithin with ⟨before, r, after, hsplit, rfl⟩
  have hr : r ∈ d.forest.regions :=
    mem_regions_of_mem_ancestors (show r ∈ d.ancestors key by simp [hsplit])
  exact exists_owner?_of_append hsound hsplit ((kind?_eq_focusable_iff hsound hr).mp hfocusable)

/-- An owner is focusable. -/
theorem kind?_owner (hsound : d.Sound) (howner : d.owner? key = some owner) :
    d.kind? owner = some .focusable := by
  rcases exists_region_of_owner?_eq_some howner with ⟨r, hr, hfocusable, rfl⟩
  exact (kind?_eq_focusable_iff hsound hr).mpr hfocusable

/-- The owner of a region is the least focusable one that encloses it. -/
theorem owner?_eq_some_iff_isLeastFocusable (hsound : d.Sound) :
    d.owner? key = some owner ↔ d.IsLeastFocusable key owner := by
  constructor
  · intro howner
    refine ⟨kind?_owner hsound howner, isWithin_of_owner?_eq_some howner, ?_⟩
    intro container hfocusable hwithin
    rcases exists_owner?_of_isWithin hsound hfocusable hwithin with ⟨o, ho, hinner⟩
    obtain rfl : owner = o := Option.some.inj (howner.symm.trans ho)
    exact hinner
  · intro h
    rcases exists_owner?_of_isWithin hsound h.focusable h.around with ⟨o, ho, hinner⟩
    -- the owner found on the way up lies within the least one, and the other way round
    have houter : d.isWithin owner o = true :=
      h.least o (kind?_owner hsound ho) (isWithin_of_owner?_eq_some ho)
    rw [ho, isWithin_antisymm hsound hinner houter]

/-- Exactly the regions that no focusable one encloses have no owner. -/
theorem owner?_eq_none_iff (hsound : d.Sound) :
    d.owner? key = none ↔
      ∀ container, d.kind? container = some .focusable → d.isWithin key container = false := by
  constructor
  · intro hnone container hfocusable
    rw [Bool.eq_false_iff]
    intro hwithin
    rcases exists_owner?_of_isWithin hsound hfocusable hwithin with ⟨o, ho, -⟩
    simp [hnone] at ho
  · intro hfree
    rw [Option.eq_none_iff_forall_ne_some]
    intro owner howner
    have hwithin := isWithin_of_owner?_eq_some howner
    simp [hfree owner (kind?_owner hsound howner)] at hwithin

/-- After every run of changes and for all keys, be they live or not: a region is nested below
another one, as one walk up finds out, exactly when its owner lies within that one and differs
from it.  Containment is a partial order on the live regions in which those around one region
form a chain.  The owner of a region is the least focusable one that encloses it, and a region
has no owner exactly when no focusable one encloses it. -/
theorem nesting_agrees_with_ownership (changes : List Operation) :
    let d := ({} : Diagram).run changes
    (∀ key container, d.isNested key container =
        Region.metBefore container false (d.ancestors key)) ∧
      (∀ key container, d.isNested key container = true ↔
        ∃ owner, d.owner? key = some owner ∧ owner ≠ container ∧
          d.isWithin owner container = true) ∧
      IsPartialOrder {key // d.contains key = true}
        (fun inner outer => d.isWithin inner.1 outer.1 = true) ∧
      (∀ key first second, d.isWithin key first = true → d.isWithin key second = true →
        d.isWithin first second = true ∨ d.isWithin second first = true) ∧
      (∀ key owner, d.owner? key = some owner ↔ d.IsLeastFocusable key owner) ∧
      ∀ key, d.owner? key = none ↔
        ∀ container, d.kind? container = some .focusable → d.isWithin key container = false := by
  intro d
  have hsound : d.Sound := sound_run changes
  exact ⟨fun _ _ => rfl, fun _ _ => isNested_iff_owner? hsound,
    isPartialOrder_isWithin hsound, fun _ _ _ => isWithin_or_isWithin hsound,
    fun _ _ => owner?_eq_some_iff_isLeastFocusable hsound, fun _ => owner?_eq_none_iff hsound⟩

/-- A heading lies in a region, in a shape around that one, and in a region around both.  It is
nested below the outer two of them, but not below its owner.  The key of a region that is gone
has no owner and is nested nowhere. -/
theorem nesting_through_decoration :
    let outer := RegionKey.fresh 1
    let shape := RegionKey.fresh 2
    let inner := RegionKey.fresh 3
    let heading := RegionKey.fresh 4
    let gone := RegionKey.fresh 5
    let changes : List Operation :=
      [.insert none .focusable ⟨0, 0, 200, 200⟩,
        .insert (some outer) .decoration ⟨10, 30, 180, 160⟩,
        .insert (some shape) .focusable ⟨20, 40, 100, 100⟩,
        .insert (some inner) .decoration ⟨20, 40, 100, 20⟩,
        .insert (some inner) .decoration ⟨20, 80, 100, 20⟩, .remove gone]
    let d := ({} : Diagram).run changes
    d.IsLeastFocusable heading inner ∧
      (d.isNested heading outer = true ∧ d.isNested heading shape = true) ∧
      Region.metBefore inner false (d.ancestors heading) = false ∧
      (d.isWithin shape inner = true ∨ d.isWithin inner shape = true) ∧
      (d.isWithin gone outer = false ∧ d.isNested gone outer ≠ true) := by
  intro outer shape inner heading gone changes d
  have howner : d.owner? heading = some inner := by decide
  have hgone : d.owner? gone = none := by decide
  have hfocusable : d.kind? outer = some .focusable := by decide
  obtain ⟨hwalk, hnested, -, hchain, hleast, hnone⟩ := nesting_agrees_with_ownership changes
  refine ⟨(hleast heading inner).mp howner, ⟨?_, ?_⟩, ?_, ?_, ?_, ?_⟩
  · exact (hnested heading outer).mpr ⟨inner, howner, by decide, by decide⟩
  · exact (hnested heading shape).mpr ⟨inner, howner, by decide, by decide⟩
  · rw [← hwalk]
    decide
  · exact hchain heading shape inner (by decide) (by decide)
  · exact (hnone gone).mp hgone outer hfocusable
  · intro hbelow
    rcases (hnested gone outer).mp hbelow with ⟨owner, hfound, -⟩
    cases hgone.symm.trans hfound

end Diagram

end NestedHover
