import NestedHover.Proofs.Region.Representation

/-!
# Arrangements of nodes

Runs of changes to arenas over any lawful slot map.  Whatever keys the map makes, after each
change the arena represents a diagram, so the nodes and the list of roots are well-formed: the
parents and the lists of siblings agree, no walk comes back, and the removing loop takes out
what lies within the removed key.  The order of siblings is read off a log of the answers: a
key is appended when it is handed out and dropped when it is reported as removed.

Over a table of slots the keys are those that the pool of a diagram supplies.  Then the arena
and the diagram answer every run in the same way, and nothing tells them apart.

Main results:

- Theorem {lit}`Represents.perform`: a change keeps arenas and diagrams in step.
- Theorem {lit}`table_refines_diagram`: an arena over a table of slots answers as a diagram
  does.
- Theorem {lit}`wellFormed_run`: after every run of changes an arena is well-formed.
- Theorem {lit}`remove_takes_subtree`: removing takes the nodes within a key and leaves the
  others as they are.
-/

namespace NestedHover

namespace Diagram

variable {d : Diagram} {log : List RegionKey}

/-! ## Answers -/

/-- What a change answers: the key of an added region, the removed keys, or whether there
was something to move. -/
inductive Answer where
  | added (key : Option RegionKey)
  | removed (keys : List RegionKey)
  | moved (live : Bool)
deriving DecidableEq, Repr

/-- The live keys in the order in which they were handed out, once a change has answered. -/
def Answer.logged (log : List RegionKey) : Answer → List RegionKey
  | .added (some key) => log ++ [key]
  | .added none => log
  | .removed keys => log.filter fun k => k ∉ keys
  | .moved _ => log

/-- The live keys in the order in which they were handed out, read off the answers of a run
from the start. -/
def arrivals (answers : List Answer) : List RegionKey := answers.foldl Answer.logged []

/-- What a diagram answers to a change. -/
def answer (d : Diagram) : Operation → Answer
  | .insert parent kind bounds => .added ((d.insert? parent kind bounds).map Prod.fst)
  | .remove key => .removed (d.remove key).1
  | .setBounds key bounds => .moved (d.setBounds key bounds).1

/-- What a diagram answers to a sequence of changes. -/
def answers (d : Diagram) : List Operation → List Answer
  | [] => []
  | change :: rest => d.answer change :: (d.perform change).answers rest

/-- Every change keeps the lists of siblings in the order of addition. -/
theorem chronological_perform (hsound : d.Sound) (h : d.view.Chronological log)
    (change : Operation) :
    (d.perform change).view.Chronological ((d.answer change).logged log) := by
  cases change with
  | insert parent kind bounds =>
      cases hinsert : d.insert? parent kind bounds with
      | none => simpa [perform, answer, Answer.logged, hinsert] using h
      | some result =>
          simpa [perform, answer, Answer.logged, hinsert] using
            chronological_insert? hsound h hinsert
  | remove key => exact chronological_remove hsound h key
  | setBounds key bounds => exact chronological_setBounds hsound h key bounds

end Diagram

namespace Arena

open Diagram (Operation Answer arrivals)

section Runs

variable {M : Type → Type} [SlotMap M] [LawfulSlotMap M] {a next : Arena M} {d : Diagram}
  {log : List RegionKey} {key : RegionKey}

/-! ## Runs of changes -/

/-- Makes one change; adding below a key that is not live changes nothing. -/
def perform (a : Arena M) : Operation → Arena M
  | .insert parent kind bounds => ((a.insert? parent kind bounds).map Prod.snd).getD a
  | .remove key => (a.remove key).2
  | .setBounds key bounds => (a.setBounds key bounds).2

/-- The arena after a sequence of changes. -/
def run (a : Arena M) (changes : List Operation) : Arena M := changes.foldl perform a

/-- What an arena answers to a change. -/
def answer (a : Arena M) : Operation → Answer
  | .insert parent kind bounds => .added ((a.insert? parent kind bounds).map Prod.fst)
  | .remove key => .removed (a.remove key).1
  | .setBounds key bounds => .moved (a.setBounds key bounds).1

/-- What an arena answers to a sequence of changes. -/
def answers (a : Arena M) : List Operation → List Answer
  | [] => []
  | change :: rest => a.answer change :: (a.perform change).answers rest

/-- A change does the same to an arena as to the diagram that it represents, if the pool of
the diagram supplies the key that the map makes. -/
theorem Represents.perform (h : a.Represents d) {change : Operation}
    (hnext : ∀ parent kind bounds, change = .insert parent kind bounds →
      d.pool.next = (SlotMap.insert a.nodes ⟨parent, [], kind, bounds⟩).1) :
    a.answer change = d.answer change ∧ (a.perform change).Represents (d.perform change) := by
  cases change with
  | insert parent kind bounds =>
      cases hinsert : a.insert? parent kind bounds with
      | none =>
          have hnone := h.insert?_eq_none.mp hinsert
          simp only [answer, Diagram.answer, Arena.perform, Diagram.perform, hinsert, hnone]
          exact ⟨rfl, h⟩
      | some result =>
          rcases h.insert? (hnext parent kind bounds rfl) hinsert with ⟨e, hregion, he⟩
          simp only [answer, Diagram.answer, Arena.perform, Diagram.perform, hinsert, hregion]
          exact ⟨rfl, he⟩
  | remove key => exact ⟨congrArg Answer.removed (h.remove key).1, (h.remove key).2⟩
  | setBounds key bounds =>
      exact ⟨congrArg Answer.moved (h.setBounds key bounds).1, (h.setBounds key bounds).2⟩

/-- Whatever key the map makes, some diagram with the same regions goes along. -/
theorem Represents.exists_perform (h : a.Represents d) (change : Operation) :
    ∃ e : Diagram, a.Represents e ∧ a.answer change = e.answer change ∧
      (a.perform change).Represents (e.perform change) := by
  cases change with
  | insert parent kind bounds =>
      rcases h.repool ⟨parent, [], kind, bounds⟩ with ⟨pool, hpool, he⟩
      refine ⟨⟨d.forest, pool⟩, he, he.perform ?_⟩
      rintro _ _ _ ⟨⟩
      exact hpool
  | remove key => exact ⟨d, h, h.perform fun _ _ _ hchange => nomatch hchange⟩
  | setBounds key bounds => exact ⟨d, h, h.perform fun _ _ _ hchange => nomatch hchange⟩

/-- An arena represents a diagram, and its lists of siblings are in the order of a log. -/
structure Arranged (a : Arena M) (log : List RegionKey) : Prop where
  represents : ∃ d, a.Represents d
  chronological : a.view.Chronological log

theorem arranged_empty : (empty : Arena M).Arranged [] where
  represents := ⟨{}, represents_empty⟩
  chronological := by
    rw [represents_empty.view_eq]
    exact Diagram.chronological_empty

theorem Arranged.perform (h : a.Arranged log) (change : Operation) :
    (a.perform change).Arranged ((a.answer change).logged log) := by
  rcases h with ⟨⟨d, hd⟩, hlog⟩
  rcases hd.exists_perform change with ⟨e, he, hanswer, hnext⟩
  refine ⟨⟨e.perform change, hnext⟩, ?_⟩
  rw [he.view_eq] at hlog
  rw [hnext.view_eq, hanswer]
  exact Diagram.chronological_perform he.sound hlog change

theorem Arranged.run (h : a.Arranged log) (changes : List Operation) :
    (a.run changes).Arranged ((a.answers changes).foldl Answer.logged log) := by
  induction changes generalizing a log with
  | nil => exact h
  | cons change rest ih => exact ih (h.perform change)

theorem arranged_run (changes : List Operation) :
    ((empty : Arena M).run changes).Arranged (arrivals ((empty : Arena M).answers changes)) :=
  arranged_empty.run changes

end Runs

/-! ## Tables of slots -/

section Tables

variable {a next : Arena SlotTable} {d : Diagram} {parent : Option RegionKey}
  {kind : RegionKind} {bounds : Rectangle} {key : RegionKey}

theorem pool_relist (a : Arena SlotTable) (parent : Option RegionKey)
    (f : List RegionKey → List RegionKey) : (a.relist parent f).nodes.pool = a.nodes.pool := by
  rw [relist]
  split
  · rename_i nodes hlisted
    rcases Option.bind_eq_some_iff.mp hlisted with ⟨p, -, hmodify⟩
    exact SlotTable.pool_modify? hmodify
  · rfl

theorem pool_insert? (h : a.insert? parent kind bounds = some (key, next)) :
    next.nodes.pool = a.nodes.pool.advance := by
  rcases insert?_cases h with ⟨-, -, rfl⟩
  rw [pool_relist]
  rfl

theorem pool_setBounds (a : Arena SlotTable) (key : RegionKey) (bounds : Rectangle) :
    (a.setBounds key bounds).2.nodes.pool = a.nodes.pool := by
  rw [setBounds]
  split
  · rename_i nodes hmodify
    exact SlotTable.pool_modify? hmodify
  · rfl

/-- An arena over a table of slots represents a diagram, and one pool supplies the keys of
both. -/
structure Mirrors (a : Arena SlotTable) (d : Diagram) : Prop where
  represents : a.Represents d
  pool_eq : a.nodes.pool = d.pool

/-- The removed keys are handed back in the order of the report. -/
theorem Represents.pool_remove (h : a.Represents d) (key : RegionKey) :
    (a.remove key).2.nodes.pool = a.nodes.pool.giveBack (d.remove key).1 := by
  cases hlive : d.contains key with
  | false =>
      rw [remove_of_not_live (h.contains_eq key ▸ hlive), Diagram.remove_of_not_mem hlive]
      rfl
  | true =>
      have hnodup := (h.sound.cut hlive).nodup
      rw [h.remove_eq hlive]
      exact (pool_takeOut hnodup fun _ => h.live_unlink).trans (congrArg (KeyPool.giveBack · _)
        (pool_relist a (d.parent? key) _))

/-- The key of a node that is put in comes next for the diagram, too. -/
theorem Mirrors.next_eq (h : a.Mirrors d) (node : Node) :
    d.pool.next = (SlotMap.insert a.nodes node).1 := by
  rw [← h.pool_eq]
  rfl

/-- A change takes the same keys out of both pools, and hands the same keys back. -/
theorem Mirrors.pool_perform (h : a.Mirrors d) (change : Operation) :
    (a.perform change).nodes.pool = (d.perform change).pool := by
  cases change with
  | insert parent kind bounds =>
      cases hinsert : a.insert? parent kind bounds with
      | none =>
          have hnone := h.represents.insert?_eq_none.mp hinsert
          simpa [Arena.perform, Diagram.perform, hinsert, hnone] using h.pool_eq
      | some result =>
          rcases h.represents.insert? (h.next_eq _) hinsert with ⟨e, hregion, -⟩
          have hpool := (Diagram.insert?_cases h.represents.sound hregion).2.1
          simp [Arena.perform, Diagram.perform, hinsert, hregion, pool_insert? hinsert, hpool,
            h.pool_eq]
  | remove key =>
      rcases Diagram.remove_cases h.represents.sound key with ⟨_, _, _, -, hremoved, -, hpool, -⟩
      rw [Arena.perform, Diagram.perform, h.represents.pool_remove, h.pool_eq, hpool, hremoved]
  | setBounds key bounds => exact (pool_setBounds a key bounds).trans h.pool_eq

theorem Mirrors.perform (h : a.Mirrors d) (change : Operation) :
    a.answer change = d.answer change ∧ (a.perform change).Mirrors (d.perform change) := by
  have hstep : a.answer change = d.answer change ∧
      (a.perform change).Represents (d.perform change) :=
    h.represents.perform fun _ _ _ _ => h.next_eq _
  exact ⟨hstep.1, hstep.2, h.pool_perform change⟩

theorem Mirrors.run (h : a.Mirrors d) (changes : List Operation) :
    a.answers changes = d.answers changes ∧ (a.run changes).Mirrors (d.run changes) := by
  induction changes generalizing a d with
  | nil => exact ⟨rfl, h⟩
  | cons change rest ih =>
      rcases h.perform change with ⟨hanswer, hnext⟩
      rcases ih hnext with ⟨hanswers, hrun⟩
      exact ⟨by rw [answers, Diagram.answers, hanswer, hanswers], hrun⟩

theorem mirrors_run (changes : List Operation) :
    (empty : Arena SlotTable).answers changes = ({} : Diagram).answers changes ∧
      ((empty : Arena SlotTable).run changes).Mirrors (({} : Diagram).run changes) := by
  have hempty : (empty : Arena SlotTable).Mirrors {} := ⟨represents_empty, rfl⟩
  exact hempty.run changes

/-- An arena over a table of slots and a diagram answer every run of changes in the same way,
and every query after it. -/
theorem table_refines_diagram (changes : List Operation) :
    (empty : Arena SlotTable).answers changes = ({} : Diagram).answers changes ∧
      ((empty : Arena SlotTable).run changes).view = (({} : Diagram).run changes).view :=
  ⟨(mirrors_run changes).1, (mirrors_run changes).2.represents.view_eq⟩

end Tables

/-! ## Well-formedness -/

/-- After every run of changes, whatever keys they are given, an arena over any lawful slot
map is well-formed and every list of siblings is in the order of addition; adding below a key
that is not live fails and changes nothing. -/
theorem wellFormed_run (M : Type → Type) [SlotMap M] [LawfulSlotMap M]
    (changes : List Operation) :
    let a := (empty : Arena M).run changes
    a.view.WellFormed ∧
      a.view.Chronological (arrivals ((empty : Arena M).answers changes)) ∧
      ∀ parent kind bounds, a.contains parent = false →
        a.insert? (some parent) kind bounds = none ∧
          a.perform (.insert (some parent) kind bounds) = a := by
  intro a
  have harranged : a.Arranged (arrivals ((empty : Arena M).answers changes)) :=
    arranged_run changes
  rcases harranged.represents with ⟨d, hd⟩
  refine ⟨?_, harranged.chronological, fun parent kind bounds hdead => ?_⟩
  · rw [hd.view_eq]
    exact hd.sound.wellFormed
  · have hnone : a.insert? (some parent) kind bounds = none :=
      insert?_eq_none_iff.mpr ⟨parent, rfl, hdead⟩
    exact ⟨hnone, by simp [perform, hnone]⟩

/-- A slot that is used again: the earlier key of the slot is not live, adding below it fails,
and the later one comes last among its siblings. -/
theorem wellFormed_after_reuse :
    let first := RegionKey.fresh 1
    let second := RegionKey.fresh 2
    let third := RegionKey.fresh 3
    let changes : List Operation :=
      [.insert none .focusable ⟨0, 0, 200, 200⟩,
        .insert (some first) .decoration ⟨0, 0, 200, 20⟩,
        .insert (some first) .focusable ⟨20, 40, 100, 100⟩, .remove second,
        .insert (some second) .decoration .unplaced,
        .insert (some third) .decoration ⟨30, 50, 40, 10⟩]
    let a := (empty : Arena SlotTable).run changes
    a.contains second = false ∧
      arrivals ((empty : Arena SlotTable).answers changes) = [first, third, second.renewed] ∧
      a.roots.Sublist [first, third, second.renewed] ∧
      (∀ way, a.view.Climb second.renewed way ↔ way = [second.renewed, third, first]) ∧
      a.insert? (some second) .decoration .unplaced = none := by
  intro first second third changes
  rcases mirrors_run changes with ⟨hanswers, hmirrors⟩
  have hlog : arrivals ((empty : Arena SlotTable).answers changes) =
      [first, third, second.renewed] := by
    rw [hanswers]
    decide
  have hrepresents := hmirrors.represents
  obtain ⟨hwell, hlisted, hfails⟩ := wellFormed_run SlotTable changes
  rw [hlog] at hlisted
  -- what is known of the arena is what the diagram says
  generalize (empty : Arena SlotTable).run changes = a at hrepresents hwell hlisted hfails ⊢
  have hdead : a.contains second = false := by
    rw [hrepresents.contains_eq]
    decide
  have hlive : a.contains second.renewed = true := by
    rw [hrepresents.contains_eq]
    decide
  have hway : a.ancestors second.renewed = [second.renewed, third, first] := by
    rw [hrepresents.ancestors_eq]
    decide
  have hclimb := hwell.climb second.renewed hlive
  rw [show a.view.ancestors = a.ancestors from rfl, hway] at hclimb
  exact ⟨hdead, hlog, hlisted.roots, hclimb, (hfails second .decoration .unplaced hdead).1⟩

/-! ## Removed subtrees -/

/-- After every run of changes, whatever keys they are given, and for an arena over any lawful
slot map: removing a key that is not live reports nothing and changes nothing; removing a live
one takes the nodes within it, reports them in the order of the walk down from it, and leaves
the others as they are; and the lists of siblings, which that walk follows, are in the order
of addition. -/
theorem remove_takes_subtree (M : Type → Type) [SlotMap M] [LawfulSlotMap M]
    (changes : List Operation) (key : RegionKey) :
    let a := (empty : Arena M).run changes
    (a.contains key = false → a.remove key = ([], a)) ∧
      (a.contains key = true → a.view.Cut key (a.remove key).1 (a.remove key).2.view) ∧
      a.roots.Sublist (arrivals ((empty : Arena M).answers changes)) ∧
      ∀ parent, (a.children parent).Sublist
        (arrivals ((empty : Arena M).answers changes)) := by
  intro a
  have harranged : a.Arranged (arrivals ((empty : Arena M).answers changes)) :=
    arranged_run changes
  rcases harranged with ⟨⟨d, hd⟩, hlisted⟩
  refine ⟨remove_of_not_live, fun hlive => ?_, hlisted.roots, hlisted.children⟩
  rcases hd.remove key with ⟨hremoved, hnext⟩
  rw [hd.view_eq, hremoved, hnext.view_eq]
  exact hd.sound.cut (hd.contains_eq key ▸ hlive)

/-- A key is removed whose last child took over the slot of an earlier one.  The earlier key
removes nothing; the later one goes last. -/
theorem remove_takes_reused_slot :
    let first := RegionKey.fresh 1
    let second := RegionKey.fresh 2
    let third := RegionKey.fresh 3
    let fourth := RegionKey.fresh 4
    let fifth := RegionKey.fresh 5
    let changes : List Operation :=
      [.insert none .focusable ⟨0, 0, 200, 200⟩,
        .insert (some first) .decoration ⟨0, 0, 200, 20⟩,
        .insert (some first) .focusable ⟨20, 40, 100, 100⟩,
        .insert (some third) .focusable ⟨30, 50, 40, 40⟩,
        .insert (some first) .decoration ⟨0, 180, 200, 20⟩, .remove second,
        .insert (some third) .decoration ⟨30, 100, 40, 10⟩]
    let a := (empty : Arena SlotTable).run changes
    let removed := [third, fourth, second.renewed]
    (a.contains second = false ∧ a.remove second = ([], a)) ∧
      a.contains third = true ∧ (a.remove third).1 = removed ∧ a.view.Tour [third] removed ∧
      (a.contains fifth = true ∧ a.isWithin fifth third = false ∧
        (a.remove third).2.parent? fifth = some first) ∧
      (a.isWithin first third = false ∧ (a.remove third).2.children first = [fifth]) := by
  intro first second third fourth fifth changes
  have hrepresents := (mirrors_run changes).2.represents
  have hnot := (remove_takes_subtree SlotTable changes second).1
  have hcut := (remove_takes_subtree SlotTable changes third).2.1
  generalize (empty : Arena SlotTable).run changes = a at hrepresents hnot hcut ⊢
  have hdead : a.contains second = false := by
    rw [hrepresents.contains_eq]
    decide
  have hlive : a.contains third = true := by
    rw [hrepresents.contains_eq]
    decide
  have hbeside : a.isWithin fifth third = false := by
    rw [hrepresents.isWithin_eq]
    decide
  have habove : a.isWithin first third = false := by
    rw [hrepresents.isWithin_eq]
    decide
  have hparent : a.parent? fifth = some first := by
    rw [hrepresents.parent?_eq]
    decide
  have hkids : (if a.parent? third = some first then (a.children first).erase third
      else a.children first) = [fifth] := by
    rw [hrepresents.parent?_eq, hrepresents.children_eq]
    decide
  have hremoved : (a.remove third).1 = [third, fourth, second.renewed] := by
    rw [(hrepresents.remove third).1]
    decide
  have hbesideLive : a.contains fifth = true := by
    rw [hrepresents.contains_eq]
    decide
  have hcut := hcut hlive
  have hleft := hcut.children_eq first habove
  have hkept := hcut.parent_eq fifth hbeside
  rw [hremoved] at hcut
  exact ⟨⟨hdead, hnot hdead⟩, hlive, hremoved, hcut.tour,
    ⟨hbesideLive, hbeside, hkept.trans hparent⟩, ⟨habove, hleft.trans hkids⟩⟩

end Arena

end NestedHover
