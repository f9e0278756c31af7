import NestedHover.Proofs.Region.Slots

/-!
# Containment and ownership

Containment, ownership and nesting are all read off the way up of a region.  Because
the way up from a region on the way of another one is the rest of that way,
containment orders the live regions, and the regions that contain a given one form a
chain.  The owner of a region is the least focusable one in that chain, so nesting
below a region is a matter of owners.

Changes to a diagram leave the ways up of the regions that stay, but for new bounds, and so
they leave the owners.

Main results:

- Theorems {lit}`isWithin_trans`, {lit}`isWithin_antisymm` and
  {lit}`isWithin_or_isWithin`: containment is an order in which the regions around a
  given one form a chain.
- Theorem {lit}`isWithin_iff_owner?`: a region lies within a focusable one exactly
  when its owner does.
- Theorem {lit}`isNested_iff_owner?`: a region is nested below another one exactly
  when its owner lies within that one and differs from it.
- Theorems {lit}`ancestors_insert?`, {lit}`ancestors_remove` and
  {lit}`ancestors_setBounds`: changes leave the ways up of the regions that stay.
- Theorems {lit}`owner?_insert?`, {lit}`owner?_remove` and {lit}`owner?_setBounds`:
  changes leave the owners of the regions that stay.
-/

namespace NestedHover

namespace Diagram

variable {d next : Diagram} {key other container owner : RegionKey}

/-! ## The way up -/

/-- The way up from a region on the way of another one is the rest of that way. -/
theorem ancestors_of_append (hsound : d.Sound) {before after : List Region} {r : Region}
    (h : d.ancestors key = before ++ r :: after) : d.ancestors r.key = r :: after := by
  unfold ancestors at h ⊢
  cases hpath : d.forest.path? key with
  | none => simp [hpath] at h
  | some path =>
      rw [hpath, Option.getD_some] at h
      rw [Forest.path?_of_append hsound.nodup_keys (hpath.trans (congrArg some h)),
        Option.getD_some]

/-- The way up of a live region starts at the region. -/
theorem exists_ancestors_eq_cons (h : key ∈ d.forest.keys) :
    ∃ r after, d.ancestors key = r :: after ∧ r.key = key := by
  rcases Option.isSome_iff_exists.mp (Forest.isSome_path?_iff.mpr h) with ⟨path, hpath⟩
  rcases Forest.head_of_path? hpath with ⟨r, after, rfl, hr⟩
  exact ⟨r, after, by simp [ancestors, hpath], hr⟩

/-- Only live regions have a way up. -/
theorem mem_keys_of_mem_ancestors {r : Region} (h : r ∈ d.ancestors key) :
    key ∈ d.forest.keys := by
  rw [← Forest.isSome_path?_iff]
  unfold ancestors at h
  cases hpath : d.forest.path? key with
  | none => simp [hpath] at h
  | some path => rfl

/-- The way up of a region that has a parent leads to that parent first. -/
theorem exists_ancestors_of_parent?_eq_some {parent : RegionKey}
    (h : d.parent? key = some parent) :
    ∃ r q after, d.ancestors key = r :: q :: after ∧ r.key = key ∧ q.key = parent := by
  rcases Option.map_eq_some_iff.mp h with ⟨q, hq, rfl⟩
  have hlive : key ∈ d.forest.keys := mem_keys_of_mem_ancestors (List.mem_of_getElem? hq)
  rcases exists_ancestors_eq_cons hlive with ⟨r, rest, hway, hr⟩
  rw [hway] at hq
  cases rest with
  | nil => simp at hq
  | cons first after =>
      obtain rfl : first = q := by simpa using hq
      exact ⟨r, first, after, hway, hr, rfl⟩

/-- The way up leads through live regions. -/
theorem mem_regions_of_mem_ancestors {r : Region} (h : r ∈ d.ancestors key) :
    r ∈ d.forest.regions := by
  unfold ancestors at h
  cases hpath : d.forest.path? key with
  | none => simp [hpath] at h
  | some path =>
      rw [hpath, Option.getD_some] at h
      exact Forest.mem_regions_of_mem_path? hpath h

/-- No key occurs twice on the way up. -/
theorem nodup_ancestors (hsound : d.Sound) (key : RegionKey) :
    ((d.ancestors key).map Region.key).Nodup := by
  unfold ancestors
  cases hpath : d.forest.path? key with
  | none => simp
  | some path => exact Forest.nodup_path? hsound.nodup_keys hpath

/-! ## Containment -/

/-- A region lies within those on its way up. -/
theorem isWithin_iff_exists_append :
    d.isWithin key container = true ↔
      ∃ before r after, d.ancestors key = before ++ r :: after ∧ r.key = container := by
  constructor
  · intro h
    rcases List.any_eq_true.mp h with ⟨r, hr, hkey⟩
    rcases List.append_of_mem hr with ⟨before, after, hsplit⟩
    exact ⟨before, r, after, hsplit, by simpa using hkey⟩
  · rintro ⟨before, r, after, hsplit, rfl⟩
    simp [isWithin, hsplit]

theorem isWithin_self (h : key ∈ d.forest.keys) : d.isWithin key key = true := by
  rcases exists_ancestors_eq_cons h with ⟨r, after, hancestors, hr⟩
  exact isWithin_iff_exists_append.mpr ⟨[], r, after, hancestors, hr⟩

/-- Only live regions lie within one, and within live ones only. -/
theorem mem_keys_of_isWithin (h : d.isWithin key container = true) :
    key ∈ d.forest.keys ∧ container ∈ d.forest.keys := by
  rcases List.any_eq_true.mp h with ⟨r, hr, hkey⟩
  have hcontainer : r.key = container := by simpa using hkey
  refine ⟨mem_keys_of_mem_ancestors hr, ?_⟩
  rw [← hcontainer]
  exact Forest.key_mem_keys (mem_regions_of_mem_ancestors hr)

theorem isWithin_trans (hsound : d.Sound) (h : d.isWithin key other = true)
    (hother : d.isWithin other container = true) : d.isWithin key container = true := by
  rcases isWithin_iff_exists_append.mp h with ⟨before, r, after, hsplit, rfl⟩
  rcases isWithin_iff_exists_append.mp hother with ⟨inner, s, outer, hrest, hs⟩
  rw [ancestors_of_append hsound hsplit] at hrest
  exact isWithin_iff_exists_append.mpr
    ⟨before ++ inner, s, outer, by rw [hsplit, hrest, List.append_assoc], hs⟩

/-- Two regions within each other are one. -/
theorem isWithin_antisymm (hsound : d.Sound) (h : d.isWithin key other = true)
    (hother : d.isWithin other key = true) : key = other := by
  rcases isWithin_iff_exists_append.mp h with ⟨before, r, after, hsplit, rfl⟩
  rcases isWithin_iff_exists_append.mp hother with ⟨inner, s, outer, hrest, hs⟩
  rw [ancestors_of_append hsound hsplit] at hrest
  have hlive : key ∈ d.forest.keys :=
    mem_keys_of_mem_ancestors (show r ∈ d.ancestors key by simp [hsplit])
  rcases exists_ancestors_eq_cons hlive with ⟨t, rest, hhead, ht⟩
  cases before with
  | nil =>
      rw [hhead] at hsplit
      rw [← ht]
      exact congrArg Region.key (List.cons.inj hsplit).1
  | cons b before =>
      -- the region would occur twice on its own way up
      have hnodup := nodup_ancestors hsound key
      rw [hsplit, hrest] at hnodup
      rw [hhead] at hsplit
      have hb : b.key = s.key := by
        rw [← (List.cons.inj hsplit).1, ht, hs]
      simp [hb] at hnodup

/-- Of two regions around a third one, one lies within the other. -/
theorem isWithin_or_isWithin (hsound : d.Sound) (h : d.isWithin key other = true)
    (hcontainer : d.isWithin key container = true) :
    d.isWithin other container = true ∨ d.isWithin container other = true := by
  rcases isWithin_iff_exists_append.mp h with ⟨before, r, after, hsplit, rfl⟩
  rcases isWithin_iff_exists_append.mp hcontainer with ⟨before', s, after', hsplit', rfl⟩
  have hr := ancestors_of_append hsound hsplit
  have hs := ancestors_of_append hsound hsplit'
  rw [hsplit] at hsplit'
  rcases List.append_eq_append_iff.mp hsplit' with ⟨middle, -, hcut⟩ | ⟨middle, -, hcut⟩
  · left
    rw [← hr] at hcut
    exact isWithin_iff_exists_append.mpr ⟨middle, s, after', hcut, rfl⟩
  · right
    rw [← hs] at hcut
    exact isWithin_iff_exists_append.mpr ⟨middle, r, after, hcut, rfl⟩

/-! ## Ownership -/

/-- The owner is the first focusable region on the way up. -/
theorem owner?_eq_some_iff :
    d.owner? key = some owner ↔
      ∃ before r after, d.ancestors key = before ++ r :: after ∧
        (∀ b ∈ before, b.isFocusable = false) ∧ r.isFocusable = true ∧ r.key = owner := by
  unfold owner?
  rw [Option.map_eq_some_iff]
  constructor
  · rintro ⟨r, hfind, rfl⟩
    obtain ⟨hfocusable, before, after, hsplit, hbefore⟩ :=
      List.find?_eq_some_iff_append.mp hfind
    exact ⟨before, r, after, hsplit, fun b hb => by simpa using hbefore b hb,
      hfocusable, rfl⟩
  · rintro ⟨before, r, after, hsplit, hbefore, hfocusable, rfl⟩
    refine ⟨r, List.find?_eq_some_iff_append.mpr ⟨hfocusable, before, after, hsplit, ?_⟩,
      rfl⟩
    intro b hb
    simp [hbefore b hb]

/-- A region with a focusable region on its way up has an owner, at or below that
one. -/
theorem exists_owner?_of_append (hsound : d.Sound) {before after : List Region}
    {r : Region} (hsplit : d.ancestors key = before ++ r :: after)
    (hfocusable : r.isFocusable = true) :
    ∃ o, d.owner? key = some o ∧ d.isWithin o r.key = true := by
  cases hfind : (d.ancestors key).find? Region.isFocusable with
  | none =>
      have hnot := List.find?_eq_none.mp hfind r (by simp [hsplit])
      exact absurd hfocusable hnot
  | some o =>
      have howner : d.owner? key = some o.key := by simp [owner?, hfind]
      refine ⟨o.key, howner, ?_⟩
      rcases List.find?_eq_some_iff_append.mp hfind with ⟨ho, front, rear, hcut, hfront⟩
      have hways := ancestors_of_append hsound hcut
      rw [hsplit] at hcut
      rcases List.append_eq_append_iff.mp hcut with ⟨middle, hmiddle, hrear⟩ |
          ⟨middle, -, hrear⟩
      · -- the region cannot stand before the first focusable one
        cases middle with
        | nil =>
            rcases List.cons.inj hrear with ⟨rfl, -⟩
            exact isWithin_iff_exists_append.mpr ⟨[], r, rear, hways, rfl⟩
        | cons m middle =>
            rcases List.cons.inj hrear with ⟨rfl, -⟩
            have hnot := hfront r (by simp [hmiddle])
            simp [hfocusable] at hnot
      · rw [← hways] at hrear
        exact isWithin_iff_exists_append.mpr ⟨middle, r, after, hrear, rfl⟩

theorem isWithin_of_owner?_eq_some (h : d.owner? key = some owner) :
    d.isWithin key owner = true := by
  rcases owner?_eq_some_iff.mp h with ⟨before, r, after, hsplit, -, -, hr⟩
  exact isWithin_iff_exists_append.mpr ⟨before, r, after, hsplit, hr⟩

/-- An owner owns itself. -/
theorem owner?_owner (hsound : d.Sound) (h : d.owner? key = some owner) :
    d.owner? owner = some owner := by
  rcases owner?_eq_some_iff.mp h with ⟨before, r, after, hsplit, -, hfocusable, rfl⟩
  exact owner?_eq_some_iff.mpr
    ⟨[], r, after, ancestors_of_append hsound hsplit, by simp, hfocusable, rfl⟩

/-- An owner is a live focusable region. -/
theorem exists_region_of_owner?_eq_some (h : d.owner? key = some owner) :
    ∃ r ∈ d.forest.regions, r.isFocusable = true ∧ r.key = owner := by
  rcases owner?_eq_some_iff.mp h with ⟨before, r, after, hsplit, -, hfocusable, hr⟩
  have hup : r ∈ d.ancestors key := by simp [hsplit]
  exact ⟨r, mem_regions_of_mem_ancestors hup, hfocusable, hr⟩

/-- Only live regions have an owner. -/
theorem mem_keys_of_owner?_eq_some (h : d.owner? key = some owner) :
    key ∈ d.forest.keys := by
  rcases owner?_eq_some_iff.mp h with ⟨before, r, after, hsplit, -⟩
  have hup : r ∈ d.ancestors key := by simp [hsplit]
  exact mem_keys_of_mem_ancestors hup

/-- A region lies within a focusable one exactly when its owner does. -/
theorem isWithin_iff_owner? (hsound : d.Sound) (hfocus : d.owner? other = some container) :
    d.isWithin key container = true ↔
      ∃ o, d.owner? key = some o ∧ d.isWithin o container = true := by
  constructor
  · intro h
    rcases isWithin_iff_exists_append.mp h with ⟨before, r, after, hsplit, rfl⟩
    have hself := owner?_owner hsound hfocus
    rcases owner?_eq_some_iff.mp hself with ⟨front, o, rear, hown, hfront, hfocusable, ho⟩
    rw [ancestors_of_append hsound hsplit] at hown
    have hnodup := nodup_ancestors hsound r.key
    rw [ancestors_of_append hsound hsplit] at hnodup
    cases front with
    | nil =>
        rcases List.cons.inj hown with ⟨rfl, -⟩
        exact exists_owner?_of_append hsound hsplit hfocusable
    | cons f front =>
        rcases List.cons.inj hown with ⟨rfl, hrest⟩
        simp [hrest, ho] at hnodup
  · rintro ⟨o, howner, hwithin⟩
    exact isWithin_trans hsound (isWithin_of_owner?_eq_some howner) hwithin

/-! ## Nesting -/

/-- Nesting looks at the regions before the container on the way up. -/
theorem isNested_of_append (hsound : d.Sound) {before after : List Region} {r : Region}
    (hsplit : d.ancestors key = before ++ r :: after) :
    d.isNested key r.key = before.any Region.isFocusable := by
  have hwithin : d.isWithin key r.key = true :=
    isWithin_iff_exists_append.mpr ⟨before, r, after, hsplit, rfl⟩
  have hfree : ∀ b ∈ before, decide (b.key ≠ r.key) = true := by
    have hnodup := nodup_ancestors hsound key
    rw [hsplit, List.map_append, List.nodup_append'] at hnodup
    intro b hb
    rw [decide_eq_true_eq]
    intro heq
    exact List.disjoint_left.mp hnodup.2.2 (List.mem_map_of_mem hb) (by simp [heq])
  have htake : (d.ancestors key).takeWhile (fun b => b.key ≠ r.key) = before := by
    rw [hsplit, List.takeWhile_append_of_pos hfree]
    simp
  rw [isNested_eq, hwithin, htake, Bool.true_and]

/-- A region is nested below another one exactly when its owner lies within that one
and differs from it. -/
theorem isNested_iff_owner? (hsound : d.Sound) :
    d.isNested key container = true ↔
      ∃ o, d.owner? key = some o ∧ o ≠ container ∧ d.isWithin o container = true := by
  constructor
  · intro h
    have hwithin : d.isWithin key container = true := by
      rw [isNested_eq] at h
      exact (Bool.and_eq_true_iff.mp h).1
    rcases isWithin_iff_exists_append.mp hwithin with ⟨before, r, after, hsplit, rfl⟩
    rw [isNested_of_append hsound hsplit] at h
    rcases List.any_eq_true.mp h with ⟨f, hf, hfocusable⟩
    rcases List.append_of_mem hf with ⟨front, rear, rfl⟩
    have hsplit_f : d.ancestors key = front ++ f :: (rear ++ r :: after) := by
      simpa using hsplit
    rcases exists_owner?_of_append hsound hsplit_f hfocusable with ⟨o, howner, ho⟩
    have hf_within : d.isWithin f.key r.key = true :=
      isWithin_iff_exists_append.mpr
        ⟨f :: rear, r, after, by simpa using ancestors_of_append hsound hsplit_f, rfl⟩
    refine ⟨o, howner, ?_, isWithin_trans hsound ho hf_within⟩
    rintro rfl
    -- then the focusable region below the container would be the container
    have heq : f.key = r.key := isWithin_antisymm hsound hf_within ho
    have hnodup := nodup_ancestors hsound key
    rw [hsplit_f] at hnodup
    simp [heq, List.nodup_append'] at hnodup
  · rintro ⟨o, howner, hne, hwithin⟩
    rcases owner?_eq_some_iff.mp howner with ⟨before, s, after, hsplit, -, hfocusable, rfl⟩
    rcases isWithin_iff_exists_append.mp hwithin with ⟨inner, r, outer, hrest, rfl⟩
    rw [ancestors_of_append hsound hsplit] at hrest
    cases inner with
    | nil => exact absurd (congrArg Region.key (List.cons.inj hrest).1) hne
    | cons i inner =>
        rcases List.cons.inj hrest with ⟨rfl, hafter⟩
        have hsplit_r : d.ancestors key = (before ++ s :: inner) ++ r :: outer := by
          simp [hsplit, hafter]
        rw [isNested_of_append hsound hsplit_r]
        simp [hfocusable]

/-- The nearest focusable region above a region lies around it and differs from it. -/
theorem isWithin_enclosing (hsound : d.Sound)
    (h : (d.parent? key).bind d.owner? = some owner) :
    d.isWithin key owner = true ∧ key ≠ owner := by
  rcases Option.bind_eq_some_iff.mp h with ⟨parent, hparent, howner⟩
  have habove : d.isWithin parent owner = true := isWithin_of_owner?_eq_some howner
  rcases exists_ancestors_of_parent?_eq_some hparent with ⟨r, q, after, hway, hr, rfl⟩
  have hparent_around : d.isWithin key q.key = true :=
    isWithin_iff_exists_append.mpr ⟨[r], q, after, by simpa using hway, rfl⟩
  refine ⟨isWithin_trans hsound hparent_around habove, ?_⟩
  rintro rfl
  -- then the region would be its own parent and occur twice on its own way up
  have heq : key = q.key := isWithin_antisymm hsound hparent_around habove
  have hnodup := nodup_ancestors hsound key
  simp [hway, hr, ← heq] at hnodup

/-! ## The way up after a change -/

/-- Adding a region leaves the ways up of all others. -/
theorem ancestors_insert? (hsound : d.Sound) {parent : Option RegionKey}
    {kind : RegionKind} {bounds : Rectangle}
    (hinsert : d.insert? parent kind bounds = some (key, next)) (hne : other ≠ key) :
    next.ancestors other = d.ancestors other := by
  rcases insert?_cases hsound hinsert with ⟨-, -, -, hpath⟩
  rw [ancestors, hpath other hne, ancestors]

/-- Who is not removed keeps its way up. -/
theorem ancestors_remove (hsound : d.Sound)
    (hstays : other ∈ (d.remove key).2.forest.keys) :
    (d.remove key).2.ancestors other = d.ancestors other := by
  rcases remove_cases hsound key with ⟨-, -, -, -, -, -, -, hpath⟩
  rw [ancestors, hpath other hstays, ancestors]

/-- Moving a region moves it on every way up and changes nothing else there. -/
theorem ancestors_setBounds (hsound : d.Sound) (key : RegionKey) (bounds : Rectangle)
    (other : RegionKey) :
    (d.setBounds key bounds).2.ancestors other =
      (d.ancestors other).map (Region.placed key bounds) := by
  rw [ancestors, forest_setBounds hsound, Forest.path?_map (Region.key_placed key bounds),
    ancestors]
  cases d.forest.path? other <;> rfl

/-- Adding a region leaves the owners of all others. -/
theorem owner?_insert? (hsound : d.Sound) {parent : Option RegionKey}
    {kind : RegionKind} {bounds : Rectangle}
    (hinsert : d.insert? parent kind bounds = some (key, next)) (hne : other ≠ key) :
    next.owner? other = d.owner? other := by
  rw [owner?, ancestors_insert? hsound hinsert hne, owner?]

/-- Removing regions leaves the owners of those that stay. -/
theorem owner?_remove (hsound : d.Sound)
    (hstays : other ∈ (d.remove key).2.forest.keys) :
    (d.remove key).2.owner? other = d.owner? other := by
  rw [owner?, ancestors_remove hsound hstays, owner?]

/-- Moving a region leaves all owners. -/
theorem owner?_setBounds (hsound : d.Sound) (key : RegionKey) (bounds : Rectangle)
    (other : RegionKey) : (d.setBounds key bounds).2.owner? other = d.owner? other := by
  have hfocusable : Region.isFocusable ∘ Region.placed key bounds = Region.isFocusable :=
    funext (Region.isFocusable_placed key bounds)
  have hkeys : Region.key ∘ Region.placed key bounds = Region.key :=
    funext (Region.key_placed key bounds)
  rw [owner?, ancestors_setBounds hsound, List.find?_map, hfocusable, Option.map_map, hkeys,
    owner?]

/-! ## Hit regions -/

/-- What a point hits is live. -/
theorem mem_keys_of_hit?_eq_some {p : Point} (h : d.hit? p = some key) :
    key ∈ d.forest.keys := by
  rcases Option.map_eq_some_iff.mp h with ⟨r, hr, rfl⟩
  exact Forest.key_mem_keys (Forest.mem_regions_of_topmost? hr)

end Diagram

end NestedHover
