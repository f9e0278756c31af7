import NestedHover.Proofs.Region.Bounds
import NestedHover.Proofs.Region.Enclosure
import NestedHover.Proofs.Region.Topmost
import NestedHover.Region.Arena

/-!
# Arenas represent diagrams

An arena represents a diagram when its nodes and its list of roots say what the diagram
answers.  Then every query has the same answer on both sides: the walks that follow what is
stored are over before their steps run out, since in a forest no walk comes back.  Changes
keep arenas and diagrams in step.  The removing loop takes nodes out of the arena while it
reads them; what is on its stack are the roots of a part of the forest, and what it has
reported is the paint order of the part that is gone.

Main results:

- Theorem {lit}`Represents.view_eq`: an arena answers every query as the diagram does that
  it represents.
- Theorem {lit}`drain_eq`: from the roots of a part of the forest the removing loop takes out
  that part, in paint order.
- Theorems {lit}`Represents.insert?`, {lit}`Represents.remove` and
  {lit}`Represents.setBounds`: changes keep arenas and diagrams in step.
-/

namespace NestedHover

namespace Diagram

variable {d next : Diagram} {key other : RegionKey} {parent : Option RegionKey}
  {kind : RegionKind} {bounds : Rectangle}

/-! ## What is stored for a region -/

/-- What there is to store for a live region. -/
def node? (d : Diagram) (key : RegionKey) : Option Node :=
  (d.region? key).map fun r => ⟨d.parent? key, d.children key, r.kind, r.bounds⟩

theorem region?_eq_none_iff : d.region? key = none ↔ key ∉ d.forest.keys := by
  rw [region?, Option.map_eq_none_iff, Forest.find?_eq_none_iff]

theorem node?_of_not_mem (h : key ∉ d.forest.keys) : d.node? key = none := by
  rw [node?, region?_eq_none_iff.mpr h, Option.map_none]

theorem node?_insert? (hsound : d.Sound)
    (h : d.insert? parent kind bounds = some (key, next)) (other : RegionKey) :
    next.node? other =
      if other = key then some ⟨parent, [], kind, bounds⟩
      else (d.node? other).map fun node =>
        if parent = some other then { node with children := node.children ++ [key] }
        else node := by
  have hnew := not_mem_keys_of_insert? hsound h
  split
  · rename_i heq
    subst heq
    have hchildless : next.children other = [] := by
      rw [children_insert? hsound h, children_of_not_mem hnew, if_neg]
      rintro rfl
      -- a region that was added below itself would have been live before
      have hlive : ¬ d.contains other = false := fun hdead => by
        rw [insert?_eq_none_iff.mpr ⟨other, rfl, hdead⟩] at h
        cases h
      rw [contains_eq_false_iff] at hlive
      exact hlive hnew
    rw [node?, region?_insert?_self hsound h, Option.map_some, hchildless,
      parent?_insert?_self hsound h]
  · rename_i hne
    rw [node?, node?, region?_insert?_of_ne hsound h hne, parent?_insert?_of_ne hsound h hne,
      children_insert? hsound h, Option.map_map]
    congr 1
    funext r
    by_cases hparent : parent = some other <;> simp [hparent]

theorem node?_setBounds (hsound : d.Sound) (key : RegionKey) (bounds : Rectangle)
    (other : RegionKey) :
    (d.setBounds key bounds).2.node? other =
      (d.node? other).map fun node => if other = key then { node with bounds } else node := by
  rw [node?, node?, region?_setBounds hsound, parent?_setBounds hsound,
    children_setBounds hsound, Option.map_map, Option.map_map]
  cases hregion : d.region? other with
  | none => rfl
  | some r =>
      rcases Option.map_eq_some_iff.mp hregion with ⟨found, hfound, rfl⟩
      have hkey := Forest.key_of_find?_eq_some hfound
      by_cases hother : other = key <;> simp [Region.placed, hkey, hother]

/-- A parent does not lie within its child. -/
theorem isWithin_parent (hsound : d.Sound) {up : RegionKey} (h : d.parent? key = some up) :
    d.isWithin up key = false := by
  rcases exists_ancestors_of_parent?_eq_some h with ⟨r, q, after, hway, rfl, rfl⟩
  have hup : d.ancestors q.key = q :: after :=
    ancestors_of_append hsound (show _ = [r] ++ q :: after from hway)
  have hnodup := nodup_ancestors hsound r.key
  rw [hway, List.map_cons, List.nodup_cons] at hnodup
  rw [isWithin, hup, List.any_eq_false]
  intro s hs
  rw [decide_eq_true_eq]
  exact fun hkey => hnodup.1 (List.mem_map.mpr ⟨s, hs, hkey⟩)

/-- In a list of siblings a key stands once at most, so dropping it once drops it
altogether. -/
theorem erase_eq_filter_ne {siblings : List RegionKey} (hnodup : siblings.Nodup) :
    siblings.erase key = siblings.filter fun k => k ≠ key := by
  rw [hnodup.erase_eq_filter]
  exact List.filter_congr fun k _ => by rw [Bool.eq_iff_iff, bne_iff_ne, decide_eq_true_eq]

/-- Nothing is stored for a removed region, and its parent has it no longer. -/
theorem node?_remove (hsound : d.Sound) (key other : RegionKey) :
    (d.remove key).2.node? other =
      if other ∈ (d.remove key).1 then none
      else (d.node? other).map fun node =>
        if d.parent? key = some other then
          { node with children := node.children.filter fun k => k ≠ key }
        else node := by
  split
  · rename_i hremoved
    exact node?_of_not_mem fun hlive => ((mem_keys_remove_iff hsound).mp hlive).2 hremoved
  · rename_i hkept
    have hother : d.isWithin other key = false := by
      rwa [Bool.eq_false_iff, ne_eq, ← mem_remove_iff hsound]
    have hchildren : (d.remove key).2.children other =
        if d.parent? key = some other then (d.children other).filter fun k => k ≠ key
        else d.children other := by
      have hnodup := hsound.nodup_keys.sublist (children_sublist_keys d other)
      rw [children_remove hsound, if_neg hkept]
      split
      · exact erase_eq_filter_ne hnodup
      · rename_i hparent
        rw [parent?_eq_some_iff hsound] at hparent
        exact List.erase_of_not_mem hparent
    rw [node?, node?, region?_remove hsound hother, hchildren, Option.map_map, parent?,
      ancestors_remove_of_not_within hsound hother, ← parent?]
    congr 1
    funext r
    by_cases hparent : d.parent? key = some other <;> simp [hparent]

theorem size_insert? (hsound : d.Sound)
    (h : d.insert? parent kind bounds = some (key, next)) : next.size = d.size + 1 := by
  rw [← length_keys, (perm_keys_insert? hsound h).length_eq, List.length_cons, length_keys]

theorem size_setBounds (d : Diagram) (key : RegionKey) (bounds : Rectangle) :
    (d.setBounds key bounds).2.size = d.size := by
  rw [← length_keys, ← length_keys, setBounds, Forest.keys_place]

end Diagram

namespace Arena

variable {M : Type → Type} [SlotMap M] {a next : Arena M} {d : Diagram} {key : RegionKey}

/-- The arrangement of the nodes of an arena. -/
abbrev view (a : Arena M) : View where
  size := a.size
  isEmpty := a.isEmpty
  roots := a.roots
  contains := a.contains
  parent? := a.parent?
  children := a.children
  kind? := a.kind?
  bounds? := a.bounds?
  ancestors := a.ancestors
  owner? := a.owner?
  isWithin := a.isWithin
  isNested := a.isNested
  hit? := a.hit?

/-- What an arena stores is what a diagram answers. -/
structure Represents (a : Arena M) (d : Diagram) : Prop where
  sound : d.Sound
  size_eq : a.size = d.size
  roots_eq : a.roots = d.roots
  node?_eq : ∀ key, a.node? key = d.node? key

/-! ## Queries -/

theorem Represents.contains_eq (h : a.Represents d) (key : RegionKey) :
    a.contains key = d.contains key := by
  rw [contains, h.node?_eq, Diagram.node?, Option.isSome_map, Diagram.contains]

/-- Without nodes there are no regions. -/
theorem Represents.isEmpty_eq (h : a.Represents d) : a.isEmpty = d.isEmpty := by
  rw [isEmpty, h.size_eq, Diagram.size, Diagram.isEmpty]
  cases d.forest.regions <;> simp

theorem Represents.parent?_eq (h : a.Represents d) (key : RegionKey) :
    a.parent? key = d.parent? key := by
  rw [parent?, h.node?_eq, Diagram.node?]
  cases hregion : d.region? key with
  | some r => rfl
  | none =>
      have hdead := Diagram.region?_eq_none_iff.mp hregion
      rw [(Diagram.gone_of_not_mem hdead).parent?_eq]
      rfl

theorem Represents.children_eq (h : a.Represents d) (key : RegionKey) :
    a.children key = d.children key := by
  rw [children, h.node?_eq, Diagram.node?]
  cases hregion : d.region? key with
  | some r => rfl
  | none => rw [Diagram.children_of_not_mem (Diagram.region?_eq_none_iff.mp hregion)]; rfl

theorem Represents.kind?_eq (h : a.Represents d) (key : RegionKey) :
    a.kind? key = d.kind? key := by
  rw [kind?, h.node?_eq, Diagram.node?, Option.map_map, Diagram.kind?]
  rfl

theorem Represents.bounds?_eq (h : a.Represents d) (key : RegionKey) :
    a.bounds? key = d.bounds? key := by
  rw [bounds?, h.node?_eq, Diagram.node?, Option.map_map, Diagram.bounds?]
  rfl

/-! ## The way up -/

@[simp] theorem climb_none (a : Arena M) (steps : Nat) : a.climb steps none = [] := by
  cases steps <;> rfl

/-- A walk from parent to parent that is over within the given steps is found. -/
theorem climb_eq {v : View} (hparent : ∀ k, a.parent? k = v.parent? k)
    {way : List RegionKey} (hway : v.Climb key way) {steps : Nat}
    (hsteps : way.length ≤ steps) : a.climb steps (some key) = way := by
  induction hway generalizing steps with
  | top hnone =>
      cases steps with
      | zero => cases hsteps
      | succ steps => rw [climb, hparent, hnone, climb_none]
  | up hsome _ ih =>
      cases steps with
      | zero => cases hsteps
      | succ steps => rw [climb, hparent, hsome, ih (Nat.le_of_succ_le_succ hsteps)]

theorem Represents.ancestors_eq (h : a.Represents d) (key : RegionKey) :
    a.ancestors key = (d.ancestors key).map Region.key := by
  rw [ancestors, h.contains_eq]
  cases hlive : d.contains key with
  | true =>
      rw [if_pos rfl, h.size_eq]
      exact climb_eq (v := d.view) h.parent?_eq (Diagram.climb_ancestors h.sound hlive)
        (Diagram.length_ancestors_le h.sound key)
  | false =>
      have hdead := Diagram.contains_eq_false_iff.mp hlive
      rw [if_neg Bool.false_ne_true, climb_none, (Diagram.gone_of_not_mem hdead).ancestors_eq,
        List.map_nil]

/-- A key on the way up is focusable by its node exactly when its region is. -/
theorem Represents.kind?_eq_focusable (h : a.Represents d) {r : Region}
    (hr : r ∈ d.ancestors key) :
    decide (a.kind? r.key = some .focusable) = r.isFocusable := by
  rw [h.kind?_eq, Bool.eq_iff_iff, decide_eq_true_eq]
  exact Diagram.kind?_eq_focusable_iff h.sound (Diagram.mem_regions_of_mem_ancestors hr)

theorem Represents.owner?_eq (h : a.Represents d) (key : RegionKey) :
    a.owner? key = d.owner? key := by
  have hkinds : ∀ r ∈ d.ancestors key,
      decide (a.kind? r.key = some .focusable) = r.isFocusable :=
    fun r hr => h.kind?_eq_focusable hr
  rw [owner?, h.ancestors_eq, List.find?_map, Diagram.owner?, ← List.head?_filter,
    ← List.head?_filter]
  exact congrArg (fun way => way.head?.map Region.key) (List.filter_congr hkinds)

theorem Represents.isWithin_eq (h : a.Represents d) (key container : RegionKey) :
    a.isWithin key container = d.isWithin key container := by
  rw [isWithin, h.ancestors_eq, List.any_map, Diagram.isWithin]
  rfl

theorem Represents.isNested_eq (h : a.Represents d) (key container : RegionKey) :
    a.isNested key container = d.isNested key container := by
  rw [isNested, h.ancestors_eq, Diagram.isNested]
  have hkinds : ∀ r ∈ d.ancestors key,
      decide (a.kind? r.key = some .focusable) = r.isFocusable :=
    fun r hr => h.kind?_eq_focusable hr
  generalize d.ancestors key = way at hkinds
  generalize false = met
  induction way generalizing met with
  | nil => rfl
  | cons r rest ih =>
      rw [List.map_cons, metBefore, Region.metBefore, hkinds r List.mem_cons_self,
        ih fun q hq => hkinds q (List.mem_cons_of_mem _ hq)]

/-! ## Hits -/

/-- The search below the roots of a part of the forest finds what is topmost in that part, if
it may go down as many levels as the part has regions. -/
theorem Represents.findSome?_hitIn (h : a.Represents d) (p : Point) (part : Forest)
    (hpart : part.IsPart d.forest) {depth : Nat} (hdepth : part.keys.length ≤ depth) :
    part.rootKeys.reverse.findSome? (a.hitIn p depth) =
      (part.topmost? p).map Region.key := by
  induction part generalizing depth with
  | nil => rfl
  | tree root children siblings ihc ihs =>
      rw [Forest.keys_tree, List.length_cons, List.length_append] at hdepth
      obtain ⟨depth, rfl⟩ : ∃ below, depth = below + 1 := ⟨depth - 1, by omega⟩
      have hbelow : children.rootKeys.reverse.findSome? (a.hitIn p depth) =
          (children.topmost? p).map Region.key := ihc hpart.children (by omega)
      have hright : siblings.rootKeys.reverse.findSome? (a.hitIn p (depth + 1)) =
          (siblings.topmost? p).map Region.key := ihs hpart.siblings (by omega)
      have hroot : a.node? root.key =
          some ⟨d.parent? root.key, children.rootKeys, root.kind, root.bounds⟩ := by
        have hfind := hpart.find?_eq root.key (by simp)
        rw [h.node?_eq, Diagram.node?, Diagram.region?, Diagram.children, hfind]
        simp [Forest.find?, Forest.rootKeys]
      have hown : a.hitIn p (depth + 1) root.key =
          ((children.topmost? p).or
            (if root.bounds.contains p then some root else none)).map Region.key := by
        rw [hitIn, hroot, Option.bind_some, hbelow, Option.map_or]
        congr 1
        split <;> rfl
      rw [Forest.rootKeys_tree, List.reverse_cons, List.findSome?_append, hright,
        Forest.topmost?, Option.map_or, ← hown]
      congr 1
      simp

theorem Represents.hit?_eq (h : a.Represents d) (p : Point) : a.hit? p = d.hit? p := by
  rw [hit?, h.roots_eq, Diagram.roots_eq_rootKeys, Diagram.hit?]
  exact h.findSome?_hitIn p d.forest (Forest.isPart_self h.sound.nodup_keys)
    (Nat.le_of_eq ((Diagram.length_keys d).trans h.size_eq.symm))

/-- An arena answers every query as the diagram does that it represents. -/
theorem Represents.view_eq (h : a.Represents d) : a.view = d.view := by
  simp only [View.mk.injEq]
  exact ⟨h.size_eq, h.isEmpty_eq, h.roots_eq, funext h.contains_eq, funext h.parent?_eq,
    funext h.children_eq, funext h.kind?_eq, funext h.bounds?_eq, funext h.ancestors_eq,
    funext h.owner?_eq, funext fun key => funext (h.isWithin_eq key),
    funext fun key => funext (h.isNested_eq key), funext h.hit?_eq⟩

/-! ## The removing loop -/

section Drain

/-- The nodes without those under the given keys. -/
def takeOut (nodes : M Node) (keys : List RegionKey) : M Node :=
  keys.foldl (fun left key => (SlotMap.remove left key).2) nodes

theorem takeOut_append (nodes : M Node) (keys more : List RegionKey) :
    takeOut nodes (keys ++ more) = takeOut (takeOut nodes keys) more :=
  List.foldl_append

variable [LawfulSlotMap M]

theorem get?_remove (nodes : M Node) (key other : RegionKey) :
    SlotMap.get? (SlotMap.remove nodes key).2 other =
      if other = key then none else SlotMap.get? nodes other := by
  split
  · rename_i hkey
    rw [hkey, LawfulSlotMap.get?_remove_self]
  · rename_i hkey
    exact LawfulSlotMap.get?_remove_of_ne nodes hkey

theorem get?_takeOut (nodes : M Node) (keys : List RegionKey) (key : RegionKey) :
    SlotMap.get? (takeOut nodes keys) key =
      if key ∈ keys then none else SlotMap.get? nodes key := by
  induction keys generalizing nodes with
  | nil => rfl
  | cons first rest ih =>
      change SlotMap.get? (takeOut (SlotMap.remove nodes first).2 rest) key = _
      rw [ih, get?_remove]
      by_cases hfirst : key = first <;> simp [hfirst]

/-- What is to be taken out later is still there. -/
theorem live_of_remove {nodes : M Node} {first : RegionKey} {rest : List RegionKey}
    (hfirst : first ∉ rest) (hlive : ∀ key ∈ first :: rest, SlotMap.get? nodes key ≠ none) :
    ∀ key ∈ rest, SlotMap.get? (SlotMap.remove nodes first).2 key ≠ none := by
  intro key hkey
  have hne : key ≠ first := by
    rintro rfl
    exact hfirst hkey
  rw [get?_remove, if_neg hne]
  exact hlive key (List.mem_cons_of_mem _ hkey)

theorem size_takeOut {nodes : M Node} {keys : List RegionKey} (hnodup : keys.Nodup)
    (hlive : ∀ key ∈ keys, SlotMap.get? nodes key ≠ none) :
    SlotMap.size (takeOut nodes keys) + keys.length = SlotMap.size nodes := by
  induction keys generalizing nodes with
  | nil => rfl
  | cons first rest ih =>
      rcases List.nodup_cons.mp hnodup with ⟨hfirst, hrest⟩
      rcases Option.ne_none_iff_exists'.mp (hlive first List.mem_cons_self) with ⟨node, hnode⟩
      have hsize := LawfulSlotMap.size_remove hnode
      have hlater := ih hrest (live_of_remove hfirst hlive)
      change SlotMap.size (takeOut (SlotMap.remove nodes first).2 rest) + _ = _
      rw [List.length_cons]
      omega

/-- The keys of what is taken out of a table of slots are handed back one after the
other. -/
theorem pool_takeOut {t : SlotTable Node} {keys : List RegionKey} (hnodup : keys.Nodup)
    (hlive : ∀ key ∈ keys, SlotMap.get? t key ≠ none) :
    (takeOut t keys).pool = t.pool.giveBack keys := by
  induction keys generalizing t with
  | nil => rfl
  | cons first rest ih =>
      rcases List.nodup_cons.mp hnodup with ⟨hfirst, hrest⟩
      rcases Option.ne_none_iff_exists'.mp (hlive first List.mem_cons_self) with ⟨node, hnode⟩
      change (takeOut (SlotMap.remove t first).2 rest).pool = _
      rw [ih hrest (live_of_remove hfirst hlive), SlotTable.pool_remove hnode,
        KeyPool.giveBack_giveBack, List.singleton_append]

/-- The arena without the nodes under the given keys, with the lists of siblings as they
are. -/
def without (a : Arena M) (keys : List RegionKey) : Arena M := ⟨takeOut a.nodes keys, a.roots⟩

theorem node?_without (a : Arena M) (keys : List RegionKey) (key : RegionKey) :
    (a.without keys).node? key = if key ∈ keys then none else a.node? key :=
  get?_takeOut a.nodes keys key

theorem size_without {a : Arena M} {keys : List RegionKey} (hnodup : keys.Nodup)
    (hlive : ∀ key ∈ keys, a.node? key ≠ none) :
    (a.without keys).size + keys.length = a.size :=
  size_takeOut hnodup hlive

/-- The nodes list the children that the regions of a part of the forest have. -/
def Lists (nodes : M Node) (part : Forest) : Prop :=
  ∀ key found, part.find? key = some found →
    (SlotMap.get? nodes key).map Node.children = some found.2.rootKeys

variable {nodes : M Node} {root : Region} {children siblings : Forest}

/-- Without the root, the nodes still list what is below its children. -/
theorem Lists.below (h : Lists nodes (.tree root children siblings))
    (hroot : root.key ∉ children.keys) :
    Lists (SlotMap.remove nodes root.key).2 children := by
  intro key found hfind
  have hkey : key ∈ children.keys := Forest.isSome_find?_iff.mp (by simp [hfind])
  have hne : root.key ≠ key := fun e => hroot (e ▸ hkey)
  rw [get?_remove, if_neg hne.symm]
  exact h key found ((Forest.find?_tree_of_mem_children hne hkey).trans hfind)

/-- Without the root and what is below it, the nodes still list what is to the right. -/
theorem Lists.right (h : Lists nodes (.tree root children siblings))
    (hroot : root.key ∉ siblings.keys)
    (hdisjoint : ∀ key ∈ children.keys, key ∉ siblings.keys) :
    Lists (takeOut (SlotMap.remove nodes root.key).2 children.keys) siblings := by
  intro key found hfind
  have hkey : key ∈ siblings.keys := Forest.isSome_find?_iff.mp (by simp [hfind])
  have hne : root.key ≠ key := fun e => hroot (e ▸ hkey)
  have hchild : key ∉ children.keys := fun hmem => hdisjoint key hmem hkey
  rw [get?_takeOut, if_neg hchild, get?_remove, if_neg hne.symm]
  exact h key found ((Forest.find?_tree_of_not_mem_children hne hchild).trans hfind)

/-- From the roots of a part of the forest on top of its stack the loop takes out that part,
in paint order, and goes on with the rest of the stack. -/
theorem drain_eq (part : Forest) (hnodup : part.keys.Nodup) (hlists : Lists nodes part)
    (stack removed : List RegionKey) :
    drain nodes (part.rootKeys ++ stack) removed =
      drain (takeOut nodes part.keys) stack (removed ++ part.keys) := by
  induction part generalizing nodes stack removed with
  | nil => simp [takeOut]
  | tree root children siblings ihc ihs =>
      rcases Forest.nodup_keys_tree_iff.mp hnodup with ⟨hc, hs, hcs, hss, hdisjoint⟩
      obtain ⟨node, hnode, hkids⟩ :=
        Option.map_eq_some_iff.mp (hlists root.key (root, children) (by simp [Forest.find?]))
      -- the root goes, then all below its children, and then all to the right of it
      calc drain nodes ((Forest.tree root children siblings).rootKeys ++ stack) removed
          = drain (SlotMap.remove nodes root.key).2
              (children.rootKeys ++ (siblings.rootKeys ++ stack)) (removed ++ [root.key]) := by
            rw [Forest.rootKeys_tree, List.cons_append, drain_cons hnode, hkids]
        _ = drain (takeOut (SlotMap.remove nodes root.key).2 children.keys)
              (siblings.rootKeys ++ stack) (removed ++ [root.key] ++ children.keys) :=
            ihc hcs (hlists.below hc) _ _
        _ = drain (takeOut (takeOut (SlotMap.remove nodes root.key).2 children.keys)
              siblings.keys) stack (removed ++ [root.key] ++ children.keys ++ siblings.keys) :=
            ihs hss (hlists.right hs hdisjoint) _ _
        _ = drain (takeOut nodes (Forest.tree root children siblings).keys) stack
              (removed ++ (Forest.tree root children siblings).keys) := by
            rw [← takeOut_append, Forest.keys_tree]
            simp only [List.append_assoc, List.singleton_append]
            rfl

end Drain

/-! ## Changes -/

section Changes

variable {parent : Option RegionKey} {kind : RegionKind} {bounds : Rectangle}

/-- Adding fails for an arena when it fails for the diagram. -/
theorem Represents.insert?_eq_none (h : a.Represents d) :
    a.insert? parent kind bounds = none ↔ d.insert? parent kind bounds = none := by
  simp only [Arena.insert?_eq_none_iff, Diagram.insert?_eq_none_iff, h.contains_eq]

/-- The parent of a region is live in the arena. -/
theorem Represents.all_contains_parent? (h : a.Represents d) (key : RegionKey) :
    (d.parent? key).all a.contains = true := by
  cases hparent : d.parent? key with
  | none => rfl
  | some up =>
      rw [Option.all_some, h.contains_eq]
      exact Diagram.contains_of_parent? h.sound hparent

variable [LawfulSlotMap M]

theorem represents_empty : (empty : Arena M).Represents {} where
  sound := Diagram.sound_empty
  size_eq := LawfulSlotMap.size_empty
  roots_eq := rfl
  node?_eq key := LawfulSlotMap.get?_empty key

/-- A node of its own slot can come next: some pool supplies its key. -/
theorem Represents.repool (h : a.Represents d) (node : Node) :
    ∃ pool : KeyPool, pool.next = (SlotMap.insert a.nodes node).1 ∧
      a.Represents ⟨d.forest, pool⟩ := by
  generalize hnew : (SlotMap.insert a.nodes node).1 = new
  -- no live key has the slot of the new one, or the map would hold two values there
  have hfree : new.index ∉ d.forest.keys.map RegionKey.index := by
    intro hmem
    rcases List.mem_map.mp hmem with ⟨key, hkey, hindex⟩
    have hlive : a.contains key = true := by
      rw [h.contains_eq, Diagram.contains_eq_true_iff]
      exact hkey
    rcases Option.isSome_iff_exists.mp hlive with ⟨old, hold⟩
    have hdead : a.node? new = none := hnew ▸ LawfulSlotMap.get?_new a.nodes node
    have hne : key ≠ new := by
      rintro rfl
      rw [hold] at hdead
      cases hdead
    have hkept : SlotMap.get? (SlotMap.insert a.nodes node).2 key = some old := by
      rw [LawfulSlotMap.get?_insert_of_ne a.nodes node (hnew ▸ hne)]
      exact hold
    have hput : SlotMap.get? (SlotMap.insert a.nodes node).2 new = some node := by
      rw [← hnew]
      exact LawfulSlotMap.get?_insert_self a.nodes node
    exact hne (LawfulSlotMap.eq_of_index_eq hkept hput hindex)
  refine ⟨⟨new.index + d.pool.opened, [⟨new.index, new.version - 2⟩]⟩, ?_, ?_⟩
  · simp [KeyPool.next, RegionKey.renewed]
  · have hnodup : (d.forest.keys.map RegionKey.index).Nodup := by
      have hslots := h.sound.nodup
      rw [List.map_append, List.nodup_append'] at hslots
      exact hslots.1
    refine ⟨⟨?_, ?_⟩, h.size_eq, h.roots_eq, h.node?_eq⟩
    · rw [List.map_append, List.nodup_append', List.map_singleton, List.disjoint_singleton]
      exact ⟨hnodup, List.nodup_singleton _, hfree⟩
    · intro key hkey
      rcases List.mem_append.mp hkey with hkey | hkey
      · have hopened := h.sound.opened key (List.mem_append_left _ hkey)
        exact Nat.le_trans hopened (Nat.le_add_left _ _)
      · rw [List.mem_singleton.mp hkey]
        exact Nat.le_add_right _ _

/-- Adding a node under the next key of the pool is adding the region. -/
theorem Represents.insert? (h : a.Represents d)
    (hnext : d.pool.next = (SlotMap.insert a.nodes ⟨parent, [], kind, bounds⟩).1)
    (hinsert : a.insert? parent kind bounds = some (key, next)) :
    ∃ e, d.insert? parent kind bounds = some (key, e) ∧ next.Represents e := by
  cases hregion : d.insert? parent kind bounds with
  | none =>
      rw [h.insert?_eq_none.mpr hregion] at hinsert
      cases hinsert
  | some result =>
      rcases result with ⟨added, e⟩
      rcases Arena.insert?_cases hinsert with ⟨-, hkey, -⟩
      obtain rfl : added = key :=
        ((Diagram.insert?_cases h.sound hregion).1.trans hnext).trans hkey.symm
      refine ⟨e, rfl, h.sound.insert? hregion, ?_, ?_, fun other => ?_⟩
      · rw [Arena.size_insert? hinsert, h.size_eq, Diagram.size_insert? h.sound hregion]
      · rw [Arena.roots_insert? hinsert, h.roots_eq, Diagram.roots_insert? hregion]
      · rw [Arena.node?_insert? hinsert, h.node?_eq, Diagram.node?_insert? h.sound hregion]

/-- Moving a node is moving the region, with the same answer. -/
theorem Represents.setBounds (h : a.Represents d) (key : RegionKey) (bounds : Rectangle) :
    (a.setBounds key bounds).1 = (d.setBounds key bounds).1 ∧
      (a.setBounds key bounds).2.Represents (d.setBounds key bounds).2 := by
  refine ⟨?_, h.sound.setBounds key bounds, ?_, ?_, fun other => ?_⟩
  · rw [Arena.setBounds_fst, h.contains_eq, Diagram.setBounds]
  · rw [Arena.size_setBounds, h.size_eq, Diagram.size_setBounds]
  · rw [Arena.roots_setBounds, h.roots_eq, Diagram.roots_setBounds h.sound]
  · rw [Arena.node?_setBounds, h.node?_eq, Diagram.node?_setBounds h.sound]

/-- Taking a key out of the list that it is in leaves the nodes within it as they were. -/
theorem Represents.node?_unlink (h : a.Represents d) {other : RegionKey}
    (hother : other ∈ (d.remove key).1) :
    (a.unlink (d.parent? key) key).node? other = d.node? other := by
  have hbelow := (Diagram.mem_remove_iff h.sound).mp hother
  have hparent : ¬ d.parent? key = some other := fun hparent => by
    rw [Diagram.isWithin_parent h.sound hparent] at hbelow
    cases hbelow
  rw [unlink, node?_relist (h.all_contains_parent? key), h.node?_eq]
  simp only [hparent, if_false, Option.map_id']

theorem Represents.live_unlink (h : a.Represents d) {other : RegionKey}
    (hother : other ∈ (d.remove key).1) :
    (a.unlink (d.parent? key) key).node? other ≠ none := by
  rw [h.node?_unlink hother, Diagram.node?, ne_eq, Option.map_eq_none_iff,
    Diagram.region?_eq_none_iff, not_not]
  exact (Diagram.removed_sublist_keys h.sound key).mem hother

/-- Removing a live key takes out the keys within it: they are what the loop finds below
the key on its stack. -/
theorem Represents.remove_eq (h : a.Represents d) (hlive : d.contains key = true) :
    a.remove key =
      ((d.remove key).1, (a.unlink (d.parent? key) key).without (d.remove key).1) := by
  have hnodup := h.sound.nodup_keys
  rcases Option.isSome_iff_exists.mp
    (Forest.isSome_find?_iff.mpr (Diagram.contains_eq_true_iff.mp hlive)) with
    ⟨⟨root, below⟩, hfind⟩
  obtain rfl : root.key = key := Forest.key_of_find?_eq_some hfind
  let part := Forest.tree root below .nil
  have hpart : part.IsPart d.forest := Forest.isPart_subtree hnodup hfind
  have hremoved : (d.remove root.key).1 = part.keys := by
    rw [Diagram.remove_of_find? hfind]
    simp [part]
  have hlists : Lists (a.unlink (d.parent? root.key) root.key).nodes part := by
    intro k found hfound
    change ((a.unlink (d.parent? root.key) root.key).node? k).map Node.children = _
    have hk : k ∈ part.keys := Forest.isSome_find?_iff.mp (by simp [hfound])
    have hwhole := (hpart.find?_eq k hk).trans hfound
    rw [h.node?_unlink (hremoved ▸ hk), Diagram.node?, Diagram.region?, Diagram.children,
      hwhole]
    rfl
  have hdrain := drain_eq part hpart.nodup hlists [] []
  rw [List.append_nil, drain_nil, List.nil_append, ← hremoved] at hdrain
  have hroot : part.rootKeys = [root.key] := rfl
  have hnode : a.node? root.key =
      some ⟨d.parent? root.key, d.children root.key, root.kind, root.bounds⟩ := by
    rw [h.node?_eq, Diagram.node?, Diagram.region?, hfind]
    rfl
  rw [Arena.remove, hnode]
  simp only [← hroot, hdrain]
  rfl

/-- Removing nodes is removing the regions, with the same report. -/
theorem Represents.remove (h : a.Represents d) (key : RegionKey) :
    (a.remove key).1 = (d.remove key).1 ∧
      (a.remove key).2.Represents (d.remove key).2 := by
  cases hlive : d.contains key with
  | false =>
      rw [remove_of_not_live (h.contains_eq key ▸ hlive), Diagram.remove_of_not_mem hlive]
      exact ⟨rfl, h⟩
  | true =>
      have hup := h.all_contains_parent? key
      rw [h.remove_eq hlive]
      refine ⟨rfl, h.sound.remove key, ?_, ?_, fun other => ?_⟩
      · have htaken := size_without (h.sound.cut hlive).nodup fun _ => h.live_unlink
        have hleft := Diagram.size_remove h.sound key
        rw [unlink, size_relist hup, h.size_eq] at htaken
        change ((a.unlink (d.parent? key) key).without (d.remove key).1).size = _
        rw [unlink]
        omega
      · change (a.unlink (d.parent? key) key).roots = _
        rw [unlink, roots_relist hup, h.roots_eq, Diagram.roots_remove]
        split
        · have hnodup := h.sound.nodup_keys.sublist (Diagram.roots_sublist_keys d)
          exact (Diagram.erase_eq_filter_ne hnodup).symm
        · rename_i hparent
          rw [List.erase_of_not_mem fun hroot =>
            hparent ((Diagram.mem_roots_iff h.sound).mp hroot).2]
      · rw [node?_without, Diagram.node?_remove h.sound, unlink, node?_relist hup, h.node?_eq]

end Changes

end Arena

end NestedHover
