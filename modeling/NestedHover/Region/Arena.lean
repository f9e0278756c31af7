import NestedHover.Region.Forest
import NestedHover.Region.SlotMap

/-!
# Arenas of nodes

The way in which the shapes of a diagram are stored: one node for each shape in a
slot map, with the key of its parent and the keys of its children, and apart from
the nodes a list of the roots.  Adding a shape puts its node in and lists its key
with the parent or among the roots.  Removing one takes its key out of that list,
and then takes nodes out from a stack, putting the children of each on the stack
in its place, until the stack is empty.

The shapes at or above a shape are found by following the parents, and the shape
at a point by going down the lists of children, the last one first.  What these
walks look at is whatever the nodes say, so the number of nodes bounds their steps;
that they are over by then, and that the lists and the parents agree, are facts
about the arenas that come from adding and removing shapes.

Main results:

- Definition {lit}`Arena.drain`: the loop that empties the stack, which ends because
  it takes a node out or makes the stack shorter; one round of it is
  {lit}`Arena.drain_cons`.
- Theorem {lit}`Arena.insert?_eq_none_iff`: adding fails exactly below a key that is
  not live.
- Theorems {lit}`Arena.node?_insert?` and {lit}`Arena.node?_setBounds`: the nodes after
  adding and after moving one.
- Theorem {lit}`Arena.remove_of_not_live`: removing what is not live removes nothing.
-/

namespace NestedHover

/-- A stored shape: the keys of its parent and its children, its kind, and the
rectangle that it covers. -/
structure Node where
  parent : Option RegionKey
  children : List RegionKey
  kind : RegionKind
  bounds : Rectangle
deriving DecidableEq, Repr

/-- The stored shapes and the keys of the roots. -/
structure Arena (M : Type → Type) where
  nodes : M Node
  roots : List RegionKey

namespace Arena

variable {M : Type → Type} [SlotMap M]

/-- The arena without nodes. -/
def empty : Arena M := ⟨SlotMap.empty, []⟩

/-! ## Queries -/

/-- How many nodes there are. -/
def size (a : Arena M) : Nat := SlotMap.size a.nodes

/-- Whether there is no node. -/
def isEmpty (a : Arena M) : Bool := a.size = 0

/-- The node under a key. -/
def node? (a : Arena M) (key : RegionKey) : Option Node := SlotMap.get? a.nodes key

/-- Whether there is a node under a key. -/
def contains (a : Arena M) (key : RegionKey) : Bool := (a.node? key).isSome

/-- The parent that is stored for a key. -/
def parent? (a : Arena M) (key : RegionKey) : Option RegionKey :=
  (a.node? key).bind Node.parent

/-- The children that are stored for a key. -/
def children (a : Arena M) (key : RegionKey) : List RegionKey :=
  ((a.node? key).map Node.children).getD []

/-- The kind that is stored for a key. -/
def kind? (a : Arena M) (key : RegionKey) : Option RegionKind :=
  (a.node? key).map Node.kind

/-- The rectangle that is stored for a key. -/
def bounds? (a : Arena M) (key : RegionKey) : Option Rectangle :=
  (a.node? key).map Node.bounds

/-- Follows the parents from a key, if there is one, for a number of steps. -/
def climb (a : Arena M) : Nat → Option RegionKey → List RegionKey
  | 0, _ => []
  | _ + 1, none => []
  | steps + 1, some key => key :: a.climb steps (a.parent? key)

/-- A live key and the keys above it, from the inside out. -/
def ancestors (a : Arena M) (key : RegionKey) : List RegionKey :=
  a.climb a.size (if a.contains key then some key else none)

/-- The nearest focusable key at or above a key. -/
def owner? (a : Arena M) (key : RegionKey) : Option RegionKey :=
  (a.ancestors key).find? fun k => a.kind? k = some .focusable

/-- Whether a key is the given one or lies below it. -/
def isWithin (a : Arena M) (key container : RegionKey) : Bool :=
  (a.ancestors key).any fun k => k = container

/-- Walks along the keys up to the container and answers whether a focusable one has
been met before it; without the container the answer is no. -/
def metBefore (a : Arena M) (container : RegionKey) : Bool → List RegionKey → Bool
  | _, [] => false
  | met, key :: rest =>
      if key = container then met
      else a.metBefore container (met || a.kind? key = some .focusable) rest

/-- Whether a key lies below the given one with a focusable key in between, itself
included. -/
def isNested (a : Arena M) (key container : RegionKey) : Bool :=
  a.metBefore container false (a.ancestors key)

/-- The key painted last at or below the given one among those that cover a point, as
far as a number of levels goes down. -/
def hitIn (a : Arena M) (p : Point) : Nat → RegionKey → Option RegionKey
  | 0, _ => none
  | depth + 1, key =>
      (a.node? key).bind fun node =>
        (node.children.reverse.findSome? (a.hitIn p depth)).or
          (if node.bounds.contains p then some key else none)

/-- The key painted last among those that cover a point. -/
def hit? (a : Arena M) (p : Point) : Option RegionKey :=
  a.roots.reverse.findSome? (a.hitIn p a.size)

/-! ## Changes -/

/-- Changes the list of siblings below a key, or that of the roots. -/
def relist (a : Arena M) (parent : Option RegionKey)
    (f : List RegionKey → List RegionKey) : Arena M :=
  let listed : Option (M Node) := parent.bind fun p =>
    SlotMap.modify? a.nodes p fun node => { node with children := f node.children }
  match listed with
  | some nodes => { a with nodes }
  | none => { a with roots := f a.roots }

/-- Adds a node below a live key or among the roots; answers its key and the new
arena. -/
def insert? (a : Arena M) (parent : Option RegionKey) (kind : RegionKind)
    (bounds : Rectangle) : Option (RegionKey × Arena M) :=
  if parent.all a.contains then
    let (key, nodes) := SlotMap.insert a.nodes ⟨parent, [], kind, bounds⟩
    some (key, ({ a with nodes } : Arena M).relist parent fun siblings => siblings ++ [key])
  else none

theorem size_lt_of_remove [LawfulSlotMap M] {nodes left : M Node} {key : RegionKey}
    {node : Node} (h : SlotMap.remove nodes key = (some node, left)) :
    SlotMap.size left < SlotMap.size nodes := by
  have hfound : SlotMap.get? nodes key = some node := by
    rw [← LawfulSlotMap.remove_fst, h]
  have hsize := LawfulSlotMap.size_remove hfound
  simp only [h] at hsize
  omega

theorem eq_of_remove [LawfulSlotMap M] {nodes left : M Node} {key : RegionKey}
    (h : SlotMap.remove nodes key = (none, left)) : left = nodes := by
  have hnone : SlotMap.get? nodes key = none := by
    rw [← LawfulSlotMap.remove_fst, h]
  have hsame := LawfulSlotMap.remove_of_get?_eq_none hnone
  rwa [h] at hsame

/-- Takes nodes out until the stack is empty: the node on top goes, and its children
come on top of what is left, the first one uppermost.  Answers what has been taken
out, and the nodes that are left. -/
def drain [LawfulSlotMap M] (nodes : M Node) (stack removed : List RegionKey) :
    List RegionKey × M Node :=
  match stack with
  | [] => (removed, nodes)
  | key :: rest =>
      match _h : SlotMap.remove nodes key with
      | (some node, left) => drain left (node.children ++ rest) (removed ++ [key])
      | (none, left) => drain left rest removed
termination_by (SlotMap.size nodes, stack.length)
decreasing_by
  -- either there is one node less, or the same nodes and one key less
  · exact Prod.Lex.left _ _ (size_lt_of_remove _h)
  · rw [eq_of_remove _h]
    exact Prod.Lex.right _ (Nat.lt_succ_self _)

/-- Takes a key out of the list that it is in, below its parent or among the roots. -/
def unlink (a : Arena M) (parent : Option RegionKey) (key : RegionKey) : Arena M :=
  a.relist parent fun siblings => siblings.filter fun other => other ≠ key

/-- Removes a key with all below it; answers what has been removed, in the order in
which it was. -/
def remove [LawfulSlotMap M] (a : Arena M) (key : RegionKey) : List RegionKey × Arena M :=
  match a.node? key with
  | none => ([], a)
  | some node =>
      let unlinked := a.unlink node.parent key
      let (removed, nodes) := drain unlinked.nodes [key] []
      (removed, { unlinked with nodes })

/-- Gives a live key new bounds; answers whether there was anything to change. -/
def setBounds (a : Arena M) (key : RegionKey) (bounds : Rectangle) : Bool × Arena M :=
  match SlotMap.modify? a.nodes key fun node => { node with bounds } with
  | some nodes => (true, { a with nodes })
  | none => (false, a)

/-! ## Laws -/

theorem insert?_eq_none_iff {a : Arena M} {parent : Option RegionKey} {kind : RegionKind}
    {bounds : Rectangle} :
    a.insert? parent kind bounds = none ↔
      ∃ key, parent = some key ∧ a.contains key = false := by
  cases parent with
  | none => simp [insert?]
  | some key => simp [insert?]

/-- What adding a node does: it is put in under a new key, and the key is listed. -/
theorem insert?_cases {a next : Arena M} {parent : Option RegionKey} {kind : RegionKind}
    {bounds : Rectangle} {key : RegionKey}
    (h : a.insert? parent kind bounds = some (key, next)) :
    parent.all a.contains = true ∧
      key = (SlotMap.insert a.nodes ⟨parent, [], kind, bounds⟩).1 ∧
      next = (⟨(SlotMap.insert a.nodes ⟨parent, [], kind, bounds⟩).2, a.roots⟩ : Arena M).relist
        parent fun siblings => siblings ++ [key] := by
  rw [insert?] at h
  split at h
  · rename_i hlive
    simp only [Option.some.injEq, Prod.mk.injEq] at h
    rcases h with ⟨rfl, rfl⟩
    exact ⟨hlive, rfl, rfl⟩
  · cases h

theorem roots_setBounds (a : Arena M) (key : RegionKey) (bounds : Rectangle) :
    (a.setBounds key bounds).2.roots = a.roots := by
  rw [setBounds]
  split <;> rfl

variable [LawfulSlotMap M]

/-! ### Listing a key -/

/-- Listing below a live key changes the node of that key. -/
theorem exists_relist_eq {a : Arena M} {parent : RegionKey} (hlive : a.contains parent = true)
    (f : List RegionKey → List RegionKey) :
    ∃ nodes, a.relist (some parent) f = { a with nodes } ∧
      SlotMap.modify? a.nodes parent
        (fun node => { node with children := f node.children }) = some nodes := by
  cases hlisted : SlotMap.modify? a.nodes parent
      (fun node => { node with children := f node.children }) with
  | some nodes => exact ⟨nodes, by simp [relist, hlisted], rfl⟩
  | none =>
      rw [LawfulSlotMap.modify?_eq_none_iff] at hlisted
      simp [contains, node?, hlisted] at hlive

theorem node?_relist {a : Arena M} {parent : Option RegionKey}
    (hlive : parent.all a.contains = true) (f : List RegionKey → List RegionKey)
    (key : RegionKey) :
    (a.relist parent f).node? key = (a.node? key).map fun node =>
      if parent = some key then { node with children := f node.children } else node := by
  cases parent with
  | none => simp [relist, node?]
  | some parent =>
      rcases exists_relist_eq hlive f with ⟨nodes, hrelist, hmodify⟩
      rw [hrelist, node?, node?]
      by_cases hkey : key = parent
      · rw [hkey, LawfulSlotMap.get?_modify?_self hmodify]
        simp
      · rw [LawfulSlotMap.get?_modify?_of_ne hmodify hkey]
        simp [Ne.symm hkey]

theorem size_relist {a : Arena M} {parent : Option RegionKey}
    (hlive : parent.all a.contains = true) (f : List RegionKey → List RegionKey) :
    (a.relist parent f).size = a.size := by
  cases parent with
  | none => rfl
  | some parent =>
      rcases exists_relist_eq hlive f with ⟨nodes, hrelist, hmodify⟩
      rw [hrelist, size, LawfulSlotMap.size_modify? hmodify, size]

/-- Listing below a live key does not change the roots. -/
theorem roots_relist {a : Arena M} {parent : Option RegionKey}
    (hlive : parent.all a.contains = true) (f : List RegionKey → List RegionKey) :
    (a.relist parent f).roots = if parent = none then f a.roots else a.roots := by
  cases parent with
  | none => rfl
  | some parent =>
      rcases exists_relist_eq hlive f with ⟨nodes, hrelist, -⟩
      rw [hrelist]
      rfl

/-! ### Adding a node -/

/-- The nodes with one put in, before its key is listed. -/
theorem node?_put (a : Arena M) (node : Node) (key : RegionKey) :
    (⟨(SlotMap.insert a.nodes node).2, a.roots⟩ : Arena M).node? key =
      if key = (SlotMap.insert a.nodes node).1 then some node else a.node? key := by
  split
  · rename_i hkey
    rw [hkey]
    exact LawfulSlotMap.get?_insert_self a.nodes node
  · rename_i hkey
    exact LawfulSlotMap.get?_insert_of_ne a.nodes node hkey

/-- Whoever was live stays so when a node is put in. -/
theorem all_contains_put {a : Arena M} {parent : Option RegionKey}
    (hlive : parent.all a.contains = true) (node : Node) :
    parent.all (⟨(SlotMap.insert a.nodes node).2, a.roots⟩ : Arena M).contains = true := by
  cases parent with
  | none => rfl
  | some parent =>
      rw [Option.all_some, contains] at hlive ⊢
      rw [node?_put]
      split
      · rfl
      · exact hlive

/-- The nodes after adding one: the new one is there, and it is listed with its parent. -/
theorem node?_insert? {a next : Arena M} {parent : Option RegionKey} {kind : RegionKind}
    {bounds : Rectangle} {key : RegionKey}
    (h : a.insert? parent kind bounds = some (key, next)) (other : RegionKey) :
    next.node? other =
      if other = key then some ⟨parent, [], kind, bounds⟩
      else (a.node? other).map fun node =>
        if parent = some other then { node with children := node.children ++ [key] }
        else node := by
  rcases insert?_cases h with ⟨hlive, hnew, rfl⟩
  rw [node?_relist (all_contains_put hlive _), node?_put, ← hnew]
  by_cases hkey : other = key
  · have hdead : a.node? key = none := by
      rw [hnew]
      exact LawfulSlotMap.get?_new a.nodes _
    -- a new key is not its own parent
    have hparent : ¬ parent = some key := by
      rintro rfl
      simp [contains, hdead] at hlive
    rw [hkey, if_pos rfl, if_pos rfl, Option.map_some, if_neg hparent]
  · rw [if_neg hkey, if_neg hkey]

theorem size_insert? {a next : Arena M} {parent : Option RegionKey} {kind : RegionKind}
    {bounds : Rectangle} {key : RegionKey}
    (h : a.insert? parent kind bounds = some (key, next)) : next.size = a.size + 1 := by
  rcases insert?_cases h with ⟨hlive, rfl, rfl⟩
  rw [size_relist (all_contains_put hlive _)]
  exact LawfulSlotMap.size_insert a.nodes _

theorem roots_insert? {a next : Arena M} {parent : Option RegionKey} {kind : RegionKind}
    {bounds : Rectangle} {key : RegionKey}
    (h : a.insert? parent kind bounds = some (key, next)) :
    next.roots = if parent = none then a.roots ++ [key] else a.roots := by
  rcases insert?_cases h with ⟨hlive, rfl, rfl⟩
  rw [roots_relist (all_contains_put hlive _)]

/-! ### Moving a node -/

theorem setBounds_fst (a : Arena M) (key : RegionKey) (bounds : Rectangle) :
    (a.setBounds key bounds).1 = a.contains key := by
  rw [setBounds, contains, node?]
  split
  · rename_i nodes hmodify
    cases hnode : SlotMap.get? a.nodes key with
    | some node => rfl
    | none => rw [(LawfulSlotMap.modify?_eq_none_iff _ _ _).mpr hnode] at hmodify; cases hmodify
  · rename_i hmodify
    rw [(LawfulSlotMap.modify?_eq_none_iff _ _ _).mp hmodify]
    rfl

theorem node?_setBounds (a : Arena M) (key : RegionKey) (bounds : Rectangle)
    (other : RegionKey) :
    (a.setBounds key bounds).2.node? other =
      (a.node? other).map fun node => if other = key then { node with bounds } else node := by
  rw [setBounds]
  split
  · rename_i nodes hmodify
    rw [node?, node?]
    by_cases hkey : other = key
    · rw [hkey, LawfulSlotMap.get?_modify?_self hmodify]
      simp
    · rw [LawfulSlotMap.get?_modify?_of_ne hmodify hkey]
      simp [hkey]
  · rename_i hmodify
    have hnone : a.node? key = none := (LawfulSlotMap.modify?_eq_none_iff _ _ _).mp hmodify
    by_cases hkey : other = key
    · simp [hkey, hnone]
    · simp [hkey]

theorem size_setBounds (a : Arena M) (key : RegionKey) (bounds : Rectangle) :
    (a.setBounds key bounds).2.size = a.size := by
  rw [setBounds]
  split
  · rename_i nodes hmodify
    exact LawfulSlotMap.size_modify? hmodify
  · rfl

/-! ### Removing nodes -/

theorem remove_of_not_live {a : Arena M} {key : RegionKey} (h : a.contains key = false) :
    a.remove key = ([], a) := by
  have hnone : a.node? key = none := by simpa [contains] using h
  simp [remove, hnone]

@[simp] theorem drain_nil (nodes : M Node) (removed : List RegionKey) :
    drain nodes [] removed = (removed, nodes) := by
  rw [drain]

/-- The node on top of the stack is taken out and makes room for its children. -/
theorem drain_cons {nodes : M Node} {key : RegionKey} {node : Node}
    (h : SlotMap.get? nodes key = some node) (rest removed : List RegionKey) :
    drain nodes (key :: rest) removed =
      drain (SlotMap.remove nodes key).2 (node.children ++ rest) (removed ++ [key]) := by
  rw [← LawfulSlotMap.remove_fst] at h
  rw [drain]
  split
  · rename_i found left hremove
    rw [hremove] at h
    obtain rfl : found = node := Option.some.inj h
    rw [hremove]
  · rename_i left hremove
    rw [hremove] at h
    cases h

end Arena

end NestedHover
