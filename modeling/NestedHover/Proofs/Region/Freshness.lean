import NestedHover.Proofs.Region.Subtrees
import NestedHover.Proofs.Runs

/-!
# No key is handed out twice

A region that is removed leaves its key behind, and whoever kept that key may still ask
about it, although its slot has gone to another region.  As long as at most
{lit}`0x80000000` regions (2^31) are added no key comes out twice.  So a key whose region was
removed never names a live region again: every question about it is answered as if it had
never been handed out, and no change that is asked for with it does anything.

A region that was added below another one stays below it as long as it lives.  Hence it is
gone as soon as the other one is.

Main results:

- Theorem {lit}`gone_of_not_mem`: what can be asked about a key that is not live, and what
  it can be used for.
- Theorem {lit}`Recorded.run`: along a run that adds at most 2^31 regions all keys handed out
  differ, and those reported as removed are not live.
- Theorem {lit}`Below.run`: along such a run a region stays below its parent as long as it
  lives.
-/

namespace NestedHover

namespace Diagram

variable {d next : Diagram} {key other parent child : RegionKey}
  {out removed : List RegionKey}

/-! ## Keys that are not live -/

/-- Every question about a key is answered with nothing, and every change that is asked for
with it changes nothing. -/
structure Gone (d : Diagram) (key : RegionKey) : Prop where
  contains_eq : d.contains key = false
  parent?_eq : d.parent? key = none
  kind?_eq : d.kind? key = none
  bounds?_eq : d.bounds? key = none
  children_eq : d.children key = []
  ancestors_eq : d.ancestors key = []
  owner?_eq : d.owner? key = none
  isWithin_eq : ∀ container, d.isWithin key container = false
  isNested_eq : ∀ container, d.isNested key container = false
  hit?_ne : ∀ p, d.hit? p ≠ some key
  setBounds_eq : ∀ bounds, d.setBounds key bounds = (false, d)
  remove_eq : d.remove key = ([], d)
  insert?_eq : ∀ kind bounds, d.insert? (some key) kind bounds = none

/-- A key that is not live is good for nothing. -/
theorem gone_of_not_mem (h : key ∉ d.forest.keys) : d.Gone key := by
  have hcontains : d.contains key = false := contains_eq_false_iff.mpr h
  have hregion : d.region? key = none := by
    rw [region?, Forest.find?_eq_none_iff.mpr h, Option.map_none]
  have hancestors : d.ancestors key = [] := by
    rw [ancestors, Forest.path?_eq_none_iff.mpr h, Option.getD_none]
  have hwithin : ∀ container, d.isWithin key container = false := by
    simp [isWithin, hancestors]
  exact {
    contains_eq := hcontains
    parent?_eq := by simp [parent?, hancestors]
    kind?_eq := by rw [kind?, hregion, Option.map_none]
    bounds?_eq := by rw [bounds?, hregion, Option.map_none]
    children_eq := children_of_not_mem h
    ancestors_eq := hancestors
    owner?_eq := by simp [owner?, hancestors]
    isWithin_eq := hwithin
    isNested_eq := by simp [isNested_eq, hwithin]
    hit?_ne := fun p hp => h (mem_keys_of_hit?_eq_some hp)
    setBounds_eq := fun bounds => by
      rw [setBounds, Forest.place_of_not_mem bounds h, hcontains]
    remove_eq := remove_of_not_mem hcontains
    insert?_eq := fun _ _ => insert?_eq_none_iff.mpr ⟨key, rfl, hcontains⟩ }

/-! ## What a run hands out and reports -/

/-- The keys that a change hands out: that of the region that it adds, if it adds one. -/
def handsOut (d : Diagram) : Operation → List RegionKey
  | .insert parent kind bounds => ((d.insert? parent kind bounds).map Prod.fst).toList
  | .remove _ => []
  | .setBounds _ _ => []

/-- The keys that a change reports as removed. -/
def reports (d : Diagram) : Operation → List RegionKey
  | .insert _ _ _ => []
  | .remove key => (d.remove key).1
  | .setBounds _ _ => []

/-- The keys that a run hands out, one for each region that it adds. -/
def handouts (d : Diagram) (changes : List Operation) : List RegionKey :=
  gathered perform handsOut d changes

/-- The keys that a run reports as removed. -/
def removals (d : Diagram) (changes : List Operation) : List RegionKey :=
  gathered perform reports d changes

theorem handsOut_insert {parent : Option RegionKey} {kind : RegionKind} {bounds : Rectangle}
    (h : d.insert? parent kind bounds = some (key, next)) :
    d.handsOut (.insert parent kind bounds) = [key] := by
  simp [handsOut, h]

theorem handouts_cons (d : Diagram) (change : Operation) (rest : List Operation) :
    d.handouts (change :: rest) = d.handsOut change ++ (d.perform change).handouts rest := rfl

theorem handouts_append (d : Diagram) (first second : List Operation) :
    d.handouts (first ++ second) = d.handouts first ++ (d.run first).handouts second :=
  gathered_append d first second

theorem removals_cons (d : Diagram) (change : Operation) (rest : List Operation) :
    d.removals (change :: rest) = d.reports change ++ (d.perform change).removals rest := rfl

/-- What is known of the keys that were handed out so far, and of those that were reported as
removed. -/
structure Recorded (d : Diagram) (out removed : List RegionKey) : Prop where
  sound : d.Sound
  handedOut : d.HandedOut out.length
  nodup : out.Nodup
  issued : ∀ key ∈ out, d.Issued key
  removed_issued : ∀ key ∈ removed, d.Issued key
  dead : ∀ key ∈ removed, key ∉ d.forest.keys

theorem recorded_empty : Recorded {} [] [] where
  sound := sound_empty
  handedOut := HandedOut.empty
  nodup := List.nodup_nil
  issued _ hkey := absurd hkey List.not_mem_nil
  removed_issued _ hkey := absurd hkey List.not_mem_nil
  dead _ hkey := absurd hkey List.not_mem_nil

/-- A key that has been handed out is not that of the region that is being added. -/
theorem ne_of_issued {n : Nat} (hsound : d.Sound) (h : HandedOut n d) (hn : n < 0x80000000)
    {parent : Option RegionKey} {kind : RegionKind} {bounds : Rectangle}
    (hinsert : d.insert? parent kind bounds = some (key, next)) (hissued : d.Issued other) :
    other ≠ key := by
  rintro rfl
  rw [(insert?_cases hsound hinsert).1] at hissued
  exact not_issued_next hsound h hn hissued

theorem Recorded.insert? (h : Recorded d out removed) (hroom : out.length < 0x80000000)
    {parent : Option RegionKey} {kind : RegionKind} {bounds : Rectangle}
    (hinsert : d.insert? parent kind bounds = some (key, next)) :
    Recorded next (out ++ [key]) removed := by
  have hnew : ∀ other, d.Issued other → other ≠ key := fun other =>
    ne_of_issued h.sound h.handedOut hroom hinsert
  have hstays : ∀ other, d.Issued other → next.Issued other := fun other =>
    Issued.insert? h.sound h.handedOut hroom hinsert
  have hlive : ∀ other, other ∈ next.forest.keys ↔ other = key ∨ other ∈ d.forest.keys :=
    fun other => mem_keys_insert?_iff h.sound hinsert
  constructor
  · exact h.sound.insert? hinsert
  · rw [List.length_append, List.length_singleton]
    exact h.handedOut.insert? h.sound hroom hinsert
  · rw [List.nodup_append', List.disjoint_singleton]
    exact ⟨h.nodup, List.nodup_singleton key, fun hkey => hnew key (h.issued key hkey) rfl⟩
  · intro other hother
    rcases List.mem_append.mp hother with hold | hother
    · exact hstays other (h.issued other hold)
    · rw [List.mem_singleton.mp hother]
      exact issued_of_mem_keys ((hlive key).mpr (Or.inl rfl))
  · exact fun other hother => hstays other (h.removed_issued other hother)
  · intro other hother hmem
    rcases (hlive other).mp hmem with hsame | hold
    · exact hnew other (h.removed_issued other hother) hsame
    · exact h.dead other hother hold

theorem Recorded.remove (h : Recorded d out removed) (key : RegionKey) :
    Recorded (d.remove key).2 out (removed ++ (d.remove key).1) where
  sound := h.sound.remove key
  handedOut := h.handedOut.remove h.sound key
  nodup := h.nodup
  issued other hother := (h.issued other hother).remove h.sound key
  removed_issued other hother := by
    refine Issued.remove h.sound ?_ key
    rcases List.mem_append.mp hother with hold | hcut
    · exact h.removed_issued other hold
    · exact issued_of_mem_keys ((removed_sublist_keys h.sound key).mem hcut)
  dead other hother hmem := by
    rw [mem_keys_remove_iff h.sound] at hmem
    exact (List.mem_append.mp hother).elim (fun hold => h.dead other hold hmem.1) hmem.2

theorem Recorded.setBounds (h : Recorded d out removed) (key : RegionKey)
    (bounds : Rectangle) : Recorded (d.setBounds key bounds).2 out removed where
  sound := h.sound.setBounds key bounds
  handedOut := h.handedOut.setBounds key bounds
  nodup := h.nodup
  issued other hother := (h.issued other hother).setBounds key bounds
  removed_issued other hother := (h.removed_issued other hother).setBounds key bounds
  dead other hother hmem := h.dead other hother (by simpa [Diagram.setBounds] using hmem)

/-- A change hands out keys that are new, and those that it reports are not live any more. -/
theorem Recorded.perform (h : Recorded d out removed) (change : Operation)
    (hroom : out.length + (d.handsOut change).length ≤ 0x80000000) :
    Recorded (d.perform change) (out ++ d.handsOut change) (removed ++ d.reports change) := by
  cases change with
  | insert parent kind bounds =>
      cases hinsert : d.insert? parent kind bounds with
      | none => simpa [Diagram.perform, handsOut, reports, hinsert] using h
      | some result =>
          rw [handsOut_insert hinsert, List.length_singleton] at hroom
          simpa [Diagram.perform, handsOut, reports, hinsert] using h.insert? hroom hinsert
  | remove key => simpa [Diagram.perform, handsOut, reports] using h.remove key
  | setBounds key bounds =>
      simpa [Diagram.perform, handsOut, reports] using h.setBounds key bounds

/-- Along a run that adds at most 2^31 regions all keys handed out differ, and those reported
as removed are not live. -/
theorem Recorded.run (h : Recorded d out removed) {changes : List Operation}
    (hroom : out.length + (d.handouts changes).length ≤ 0x80000000) :
    Recorded (d.run changes) (out ++ d.handouts changes) (removed ++ d.removals changes) := by
  induction changes generalizing d out removed with
  | nil => simpa [Diagram.run, handouts, removals, gathered] using h
  | cons change rest ih =>
      rw [handouts_cons, List.length_append] at hroom
      have hnext := h.perform change (by omega)
      rw [handouts_cons, removals_cons, ← List.append_assoc, ← List.append_assoc]
      exact ih hnext (by rw [List.length_append]; omega)

/-- All keys handed out since the diagram was empty differ, and those reported as removed are
not live, as long as at most 2^31 regions have been added. -/
theorem recorded_run {changes : List Operation}
    (hroom : (({} : Diagram).handouts changes).length ≤ 0x80000000) :
    Recorded (({} : Diagram).run changes) (({} : Diagram).handouts changes)
      (({} : Diagram).removals changes) :=
  recorded_empty.run (by rwa [List.length_nil, Nat.zero_add])

/-! ## Staying below the parent -/

/-- A region that was added below another one, if it is still live. -/
structure Below (d : Diagram) (parent child : RegionKey) : Prop where
  issued : d.Issued child
  parent_eq : child ∈ d.forest.keys → d.parent? child = some parent

theorem below_of_parent? (h : d.parent? child = some parent) : d.Below parent child where
  issued := by
    rcases exists_ancestors_of_parent?_eq_some h with ⟨r, q, after, hway, -, -⟩
    have hup : r ∈ d.ancestors child := by simp [hway]
    exact issued_of_mem_keys (mem_keys_of_mem_ancestors hup)
  parent_eq _ := h

/-- Who is below a region that is not live is not live either. -/
theorem Below.dead (hsound : d.Sound) (h : d.Below parent child)
    (hparent : parent ∉ d.forest.keys) : child ∉ d.forest.keys := fun hlive =>
  hparent (contains_eq_true_iff.mp (contains_of_parent? hsound (h.parent_eq hlive)))

theorem Below.perform (hrecorded : Recorded d out removed) (h : d.Below parent child)
    (change : Operation) (hroom : out.length + (d.handsOut change).length ≤ 0x80000000) :
    (d.perform change).Below parent child := by
  have hsound := hrecorded.sound
  cases change with
  | insert above kind bounds =>
      cases hinsert : d.insert? above kind bounds with
      | none => simpa [Diagram.perform, hinsert] using h
      | some result =>
          rw [handsOut_insert hinsert, List.length_singleton] at hroom
          have hne := ne_of_issued hsound hrecorded.handedOut hroom hinsert h.issued
          have hmem : child ∈ result.2.forest.keys ↔ child = result.1 ∨ child ∈ d.forest.keys :=
            mem_keys_insert?_iff hsound hinsert
          simp only [Diagram.perform, hinsert, Option.map_some, Option.getD_some]
          refine ⟨h.issued.insert? hsound hrecorded.handedOut hroom hinsert, fun hlive => ?_⟩
          rw [← h.parent_eq ((hmem.mp hlive).resolve_left hne), parent?,
            ancestors_insert? hsound hinsert hne, ← parent?]
  | remove key =>
      refine ⟨h.issued.remove hsound key, fun hlive => ?_⟩
      rw [Diagram.perform, parent?, ancestors_remove hsound hlive, ← parent?]
      exact h.parent_eq ((mem_keys_remove_iff hsound).mp hlive).1
  | setBounds key bounds =>
      refine ⟨h.issued.setBounds key bounds, fun hlive => ?_⟩
      rw [Diagram.perform, parent?_eq_some_iff (hsound.setBounds key bounds),
        children_setBounds hsound, ← parent?_eq_some_iff hsound]
      exact h.parent_eq (by simpa [Diagram.perform, Diagram.setBounds] using hlive)

/-- Along a run that adds at most 2^31 regions a region stays below its parent. -/
theorem Below.run (hrecorded : Recorded d out removed) (h : d.Below parent child)
    {changes : List Operation}
    (hroom : out.length + (d.handouts changes).length ≤ 0x80000000) :
    (d.run changes).Below parent child := by
  induction changes generalizing d out removed with
  | nil => exact h
  | cons change rest ih =>
      rw [handouts_cons, List.length_append] at hroom
      have hfirst : out.length + (d.handsOut change).length ≤ 0x80000000 := by omega
      exact ih (hrecorded.perform change hfirst) (h.perform hrecorded change hfirst)
        (by rw [List.length_append]; omega)

end Diagram

end NestedHover
