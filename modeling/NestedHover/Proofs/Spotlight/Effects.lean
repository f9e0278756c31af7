import NestedHover.Spotlight.Operation

/-!
# What the calls on a spotlight change

Each call is described by what it does to the four things that can be read off a
spotlight: who is registered, who holds the highlight, what is pending, and how
every region stands.  Later arguments go by these descriptions and never open a
call again.

Main results:

- Theorem {lit}`highlight_setHighlight`: marking a region changes its highlight,
  if it is registered, and no other.
- Theorem {lit}`highlight_cancelPending`: cancelling restores the region of the pending
  change, if it is marked as waiting, and no other.
- Theorem {lit}`highlight_activateNow`: the region that gets the highlight is
  active, the one that loses it is hidden, and all others stand as before.
- Theorems {lit}`active_activate`, {lit}`active_activateLater` and
  {lit}`active_deactivateLater`: only the first of the three requests moves the
  highlight at once.
- Theorems {lit}`pending?_activateLater_of_isOk` and
  {lit}`pending?_deactivateLater_of_isOk`: what a delayed request that does not
  fail leaves pending.
- Theorem {lit}`tick_cases`: what a tick does before the deadline and at it.
-/

namespace NestedHover

/-- What is made of an answer does not decide whether there is one. -/
@[simp] theorem isOk_map {ε α β : Type} (f : α → β) (x : Except ε α) :
    (x.map f).isOk = x.isOk := by
  cases x <;> rfl

/-- An answer that is replaced is there if there was one. -/
theorem map_const_of_isOk {ε α β : Type} {x : Except ε α} (h : x.isOk = true) (b : β) :
    (x.map fun _ => b) = .ok b := by
  cases x with
  | error e => cases h
  | ok a => rfl

/-! ## Registries -/

namespace Registry

variable {α : Type}

/-- Entering adds no entry but that of the key. -/
theorem mem_of_mem_enter {key : RegionKey} {value : α} {e : RegionKey × α}
    {es : List (RegionKey × α)} (h : e ∈ enter key value es) :
    e = (key, value) ∨ e ∈ es := by
  induction es with
  | nil =>
      simp only [enter, List.mem_singleton] at h
      exact Or.inl h
  | cons f rest ih =>
      unfold enter at h
      split at h
      · exact List.mem_cons.mp h
      · split at h
        · rcases List.mem_cons.mp h with hf | h
          · split at hf
            · exact Or.inr (List.mem_cons.mpr (Or.inl hf))
            · exact Or.inl hf
          · exact Or.inr (List.mem_cons_of_mem _ h)
        · rcases List.mem_cons.mp h with hf | h
          · exact Or.inr (List.mem_cons.mpr (Or.inl hf))
          · exact (ih h).imp_right (List.mem_cons_of_mem _)

/-- What is found under another key after entering was there before. -/
theorem get?_of_get?_insert {r : Registry α} {key other : RegionKey} {value v : α}
    (hne : other ≠ key) (h : (r.insert key value).get? other = some v) :
    r.get? other = some v := by
  rw [get?_eq_some_iff] at h ⊢
  unfold insert at h
  split at h
  · exact h
  · rcases mem_of_mem_enter h with heq | hmem
    · exact absurd (congrArg Prod.fst heq) hne
    · exact hmem

/-- What is found under a key that was entered just now is its value, unless the
key was found before. -/
theorem eq_of_get?_insert_self {r : Registry α} {key : RegionKey} {value v : α}
    (hnew : r.get? key = none) (h : (r.insert key value).get? key = some v) :
    v = value := by
  rw [get?_eq_some_iff] at h
  unfold insert at h
  split at h
  · rw [← get?_eq_some_iff, hnew] at h
    cases h
  · rcases mem_of_mem_enter h with heq | hmem
    · exact congrArg Prod.snd heq
    · rw [← get?_eq_some_iff, hnew] at hmem
      cases hmem

end Registry

namespace Pending

@[simp] theorem region_activate (region : RegionKey) :
    (activate region).region = region := rfl

@[simp] theorem region_deactivate (region : RegionKey) :
    (deactivate region).region = region := rfl

end Pending

namespace Spotlight

/-! ## Marking and cancelling -/

/-- Marking a region changes its highlight, if it is registered, and no other. -/
theorem highlight_setHighlight (s : Spotlight) (region key : RegionKey)
    (h : Highlight) :
    (s.setHighlight region h).highlight key =
      if key = region ∧ s.isRegistered region = true then h else s.highlight key := by
  by_cases hkey : key = region
  · subst hkey
    cases hreg : s.isRegistered key with
    | true => simp [highlight_setHighlight_self hreg]
    | false =>
        have hnone : s.registry.get? key = none := by
          simpa [isRegistered, Registry.contains] using hreg
        simp [highlight, setHighlight, Registry.get?_update_self, hnone]
  · simp [highlight_setHighlight_of_ne s hkey, hkey]

/-- A region that is not registered is hidden. -/
theorem highlight_of_not_registered {s : Spotlight} {key : RegionKey}
    (h : s.isRegistered key = false) : s.highlight key = .hidden := by
  have hnone : s.registry.get? key = none := by
    simpa [isRegistered, Registry.contains] using h
  simp [highlight, hnone]

/-- Hiding a region hides it whether or not it is registered. -/
theorem highlight_setHighlight_hidden (s : Spotlight) (region key : RegionKey) :
    (s.setHighlight region .hidden).highlight key =
      if key = region then .hidden else s.highlight key := by
  rw [highlight_setHighlight]
  by_cases hkey : key = region
  · subst hkey
    cases hreg : s.isRegistered key with
    | true => simp
    | false => simp [highlight_of_not_registered hreg]
  · simp [hkey]

/-- A region that is not hidden is registered. -/
theorem isRegistered_of_highlight_ne {s : Spotlight} {key : RegionKey}
    (h : s.highlight key ≠ .hidden) : s.isRegistered key = true := by
  cases hreg : s.isRegistered key with
  | true => rfl
  | false => exact absurd (highlight_of_not_registered hreg) h

@[simp] theorem settings_setHighlight (s : Spotlight) (region : RegionKey)
    (h : Highlight) : (s.setHighlight region h).settings = s.settings := rfl

@[simp] theorem activations_setHighlight (s : Spotlight) (region : RegionKey)
    (h : Highlight) : (s.setHighlight region h).activations = s.activations := rfl

@[simp] theorem isRegistered_disarm (s : Spotlight) (key : RegionKey) :
    s.disarm.isRegistered key = s.isRegistered key := rfl

@[simp] theorem highlight_disarm (s : Spotlight) (key : RegionKey) :
    s.disarm.highlight key = s.highlight key := rfl

@[simp] theorem active_disarm (s : Spotlight) : s.disarm.active = s.active := rfl

@[simp] theorem pending?_disarm (s : Spotlight) : s.disarm.pending? = none := rfl

@[simp] theorem activations_disarm (s : Spotlight) :
    s.disarm.activations = s.activations := rfl

@[simp] theorem settings_disarm (s : Spotlight) : s.disarm.settings = s.settings := rfl

/-- Cancelling disarms, and marks at most one region. -/
theorem cancelPending_cases (s : Spotlight) :
    s.cancelPending = s.disarm ∨
      ∃ region h, s.cancelPending = s.disarm.setHighlight region h := by
  unfold cancelPending
  split
  · split
    · exact Or.inr ⟨_, _, rfl⟩
    · exact Or.inl rfl
  · split
    · exact Or.inr ⟨_, _, rfl⟩
    · exact Or.inl rfl
  · exact Or.inl rfl

/-- Exchanging the mark of a region for another one, if it has that mark, changes no
other region. -/
theorem highlight_exchange (s : Spotlight) (region key : RegionKey) {old new : Highlight}
    (hold : old ≠ .hidden) :
    (if s.highlight region = old then s.disarm.setHighlight region new
        else s.disarm).highlight key =
      if region = key ∧ s.highlight key = old then new else s.highlight key := by
  by_cases hkey : region = key
  · subst hkey
    by_cases hmark : s.highlight region = old
    · have hregistered : s.isRegistered region = true :=
        isRegistered_of_highlight_ne (hmark ▸ hold)
      simp [hmark, highlight_setHighlight, hregistered]
    · simp [hmark]
  · have hne : ¬ key = region := fun e => hkey e.symm
    split <;> simp [highlight_setHighlight, hkey, hne]

/-- Cancelling hides the region that was waiting for the highlight and marks the one that
was about to lose it as active, each if it is marked accordingly. -/
theorem highlight_cancelPending (s : Spotlight) (key : RegionKey) :
    s.cancelPending.highlight key =
      if s.pending? = some (.activate key) ∧ s.highlight key = .pendingActive then .hidden
      else if s.pending? = some (.deactivate key) ∧ s.highlight key = .pendingHidden then
        .active
      else s.highlight key := by
  unfold cancelPending
  cases hpending : s.pending? with
  | none => simp
  | some pending =>
      cases pending with
      | activate region => simp [highlight_exchange]
      | deactivate region => simp [highlight_exchange]

@[simp] theorem isRegistered_cancelPending (s : Spotlight) (key : RegionKey) :
    s.cancelPending.isRegistered key = s.isRegistered key := by
  rcases cancelPending_cases s with h | ⟨region, mark, h⟩ <;> simp [h]

@[simp] theorem settings_cancelPending (s : Spotlight) :
    s.cancelPending.settings = s.settings := by
  rcases cancelPending_cases s with h | ⟨region, mark, h⟩ <;> simp [h]

@[simp] theorem activations_cancelPending (s : Spotlight) :
    s.cancelPending.activations = s.activations := by
  rcases cancelPending_cases s with h | ⟨region, mark, h⟩ <;> simp [h]

@[simp] theorem alarm_cancelPending (s : Spotlight) :
    s.cancelPending.alarm = s.alarm.disarm := by
  rcases cancelPending_cases s with h | ⟨region, mark, h⟩ <;> simp [h, disarm]

/-! ## Giving the highlight away -/

@[simp] theorem active_activateNow (s : Spotlight) (region : RegionKey) :
    (s.activateNow region).2.active = some region := by
  unfold activateNow
  split
  · rename_i h
    exact h
  · rfl

@[simp] theorem isRegistered_activateNow (s : Spotlight) (region key : RegionKey) :
    (s.activateNow region).2.isRegistered key = s.isRegistered key := by
  unfold activateNow
  split
  · simp
  · cases s.active <;> simp [isRegistered, Registry.contains, setHighlight, Registry.update]

@[simp] theorem alarm_activateNow (s : Spotlight) (region : RegionKey) :
    (s.activateNow region).2.alarm = s.alarm := by
  unfold activateNow
  split
  · rfl
  · cases s.active <;> rfl

@[simp] theorem settings_activateNow (s : Spotlight) (region : RegionKey) :
    (s.activateNow region).2.settings = s.settings := by
  unfold activateNow
  split
  · rfl
  · cases s.active <;> rfl

/-- A region that holds the highlight already is not counted again. -/
theorem activations_activateNow (s : Spotlight) (region : RegionKey) :
    (s.activateNow region).2.activations =
      if s.active = some region then s.activations else s.activations + 1 := by
  unfold activateNow
  split <;> rfl

/-- How the regions stand depends on the registry alone. -/
theorem highlight_congr {s t : Spotlight} (h : s.registry = t.registry)
    (key : RegionKey) : s.highlight key = t.highlight key := by
  simp [highlight, h]

/-- The region that gets the highlight is active, the one that loses it is hidden,
and all others stand as before. -/
theorem highlight_activateNow {s : Spotlight} {region : RegionKey}
    (hregistered : s.isRegistered region = true) (key : RegionKey) :
    (s.activateNow region).2.highlight key =
      if key = region then .active
      else if s.active = some key then .hidden
      else s.highlight key := by
  by_cases hactive : s.active = some region
  · have hmarked : (s.activateNow region).2 = s.setHighlight region .active := by
      simp [activateNow, hactive]
    rw [hmarked, highlight_setHighlight]
    by_cases hkey : key = region
    · simp [hkey, hregistered]
    · have hother : ¬ region = key := fun h => hkey h.symm
      simp [hkey, hactive, hother]
  · cases hholder : s.active with
    | none =>
        have hregistry : (s.activateNow region).2.registry =
            (s.setHighlight region .active).registry := by
          simp [activateNow, hholder]
        rw [highlight_congr hregistry, highlight_setHighlight]
        simp [hregistered]
    | some previous =>
        have hother : ¬ previous = region := fun h => hactive (h ▸ hholder)
        have hregistry : (s.activateNow region).2.registry =
            ((s.setHighlight previous .hidden).setHighlight region .active).registry := by
          simp [activateNow, hholder, hother]
        rw [highlight_congr hregistry, highlight_setHighlight, highlight_setHighlight]
        by_cases hkey : key = region
        · simp [hkey, hregistered]
        · by_cases hprevious : key = previous
          · subst hprevious
            cases hreg : s.isRegistered key with
            | true => simp [hkey]
            | false => simp [hkey, highlight_of_not_registered hreg]
          · have hne : ¬ previous = key := fun h => hprevious h.symm
            simp [hkey, hprevious, hne]

/-! ## Arming -/

@[simp] theorem isRegistered_schedule (s : Spotlight) (pending : Pending)
    (now : Instant) (key : RegionKey) :
    (s.schedule pending now).2.isRegistered key = s.isRegistered key := rfl

@[simp] theorem highlight_schedule (s : Spotlight) (pending : Pending) (now : Instant)
    (key : RegionKey) :
    (s.schedule pending now).2.highlight key = s.highlight key := rfl

@[simp] theorem active_schedule (s : Spotlight) (pending : Pending) (now : Instant) :
    (s.schedule pending now).2.active = s.active := rfl

@[simp] theorem settings_schedule (s : Spotlight) (pending : Pending) (now : Instant) :
    (s.schedule pending now).2.settings = s.settings := rfl

@[simp] theorem activations_schedule (s : Spotlight) (pending : Pending)
    (now : Instant) : (s.schedule pending now).2.activations = s.activations := rfl

/-- Arming either fails and leaves what is armed, or arms the change to fall due
after the delay. -/
theorem armed_schedule (s : Spotlight) (pending : Pending) (now : Instant) :
    ((s.schedule pending now).1.isOk = false ∧
        (s.schedule pending now).2.alarm.armed = s.alarm.armed) ∨
      ((s.schedule pending now).1.isOk = true ∧
        (s.schedule pending now).2.alarm.armed =
          some ⟨s.alarm.issued + 1, now + (s.settings.activationDelay : Int), pending⟩) := by
  cases hafter : now.after s.settings.activationDelay with
  | error e =>
      left
      simp [schedule, Alarm.set_of_after_eq_error hafter, Except.map, Except.isOk,
        Except.toBool]
  | ok deadline =>
      right
      rcases Instant.after_eq_ok_iff.mp hafter with ⟨rfl, -⟩
      simp [schedule, Alarm.set_of_after_eq_ok hafter, Except.map, Except.isOk,
        Except.toBool]

/-- Arming works exactly when the end of the delay has an instant. -/
theorem isOk_schedule_iff {s : Spotlight} {pending : Pending} {now : Instant} :
    (s.schedule pending now).1.isOk = true ↔
      now + (s.settings.activationDelay : Int) < Instant.bound := by
  by_cases hclock : now + (s.settings.activationDelay : Int) < Instant.bound
  · have hafter := Instant.after_eq_ok_iff.mpr ⟨rfl, hclock⟩
    simp [schedule, Alarm.set_of_after_eq_ok hafter, Except.map, Except.isOk, Except.toBool,
      hclock]
  · simp [schedule, Alarm.set, Instant.after, hclock, Except.map, Except.isOk, Except.toBool]

/-- A change that was armed is pending. -/
theorem pending?_schedule_of_isOk {s : Spotlight} {pending : Pending} {now : Instant}
    (hok : (s.schedule pending now).1.isOk = true) :
    (s.schedule pending now).2.pending? = some pending := by
  rcases armed_schedule s pending now with ⟨herror, -⟩ | ⟨-, harmed⟩
  · rw [herror] at hok
    cases hok
  · simp [pending?, Alarm.payload?, harmed]

/-! ## The requests -/

@[simp] theorem isRegistered_activate (s : Spotlight) (region key : RegionKey) :
    (s.activate region).2.isRegistered key = s.isRegistered key := by
  unfold activate
  split <;> simp

@[simp] theorem settings_activate (s : Spotlight) (region : RegionKey) :
    (s.activate region).2.settings = s.settings := by
  unfold activate
  split <;> simp

theorem active_activate {s : Spotlight} {region : RegionKey}
    (h : s.isRegistered region = true) : (s.activate region).2.active = some region := by
  simp [activate, h]

theorem pending?_activate {s : Spotlight} {region : RegionKey}
    (h : s.isRegistered region = true) : (s.activate region).2.pending? = none := by
  simp [activate, h, pending?, Alarm.payload?]

theorem alarm_activate {s : Spotlight} {region : RegionKey}
    (h : s.isRegistered region = true) : (s.activate region).2.alarm = s.alarm.disarm := by
  simp [activate, h]

theorem activations_activate {s : Spotlight} {region : RegionKey}
    (h : s.isRegistered region = true) :
    (s.activate region).2.activations =
      if s.active = some region then s.activations else s.activations + 1 := by
  simp [activate, h, activations_activateNow]

@[simp] theorem isRegistered_activateLater (s : Spotlight) (region key : RegionKey)
    (now : Instant) :
    (s.activateLater region now).2.isRegistered key = s.isRegistered key := by
  unfold activateLater
  split
  · dsimp only
    split <;> simp
  · rfl

@[simp] theorem settings_activateLater (s : Spotlight) (region : RegionKey)
    (now : Instant) : (s.activateLater region now).2.settings = s.settings := by
  unfold activateLater
  split
  · dsimp only
    split <;> simp
  · rfl

@[simp] theorem active_activateLater (s : Spotlight) (region : RegionKey)
    (now : Instant) : (s.activateLater region now).2.active = s.active := by
  unfold activateLater
  split
  · dsimp only
    split <;> simp
  · rfl

@[simp] theorem activations_activateLater (s : Spotlight) (region : RegionKey)
    (now : Instant) : (s.activateLater region now).2.activations = s.activations := by
  unfold activateLater
  split
  · dsimp only
    split <;> simp
  · rfl

@[simp] theorem isRegistered_deactivateLater (s : Spotlight) (region key : RegionKey)
    (now : Instant) :
    (s.deactivateLater region now).2.isRegistered key = s.isRegistered key := by
  unfold deactivateLater
  split
  · dsimp only
    split <;> simp
  · rfl

@[simp] theorem settings_deactivateLater (s : Spotlight) (region : RegionKey)
    (now : Instant) : (s.deactivateLater region now).2.settings = s.settings := by
  unfold deactivateLater
  split
  · dsimp only
    split <;> simp
  · rfl

@[simp] theorem active_deactivateLater (s : Spotlight) (region : RegionKey)
    (now : Instant) : (s.deactivateLater region now).2.active = s.active := by
  unfold deactivateLater
  split
  · dsimp only
    split <;> simp
  · rfl

@[simp] theorem activations_deactivateLater (s : Spotlight) (region : RegionKey)
    (now : Instant) : (s.deactivateLater region now).2.activations = s.activations := by
  unfold deactivateLater
  split
  · dsimp only
    split <;> simp
  · rfl

/-- Asking for the highlight that one holds only cancels what is pending. -/
theorem activateLater_of_active {s : Spotlight} {region : RegionKey}
    (hregistered : s.isRegistered region = true) (hactive : s.active = some region)
    (now : Instant) : s.activateLater region now = (.ok .none, s.cancelPending) := by
  simp [activateLater, hregistered, hactive]

/-- Asking for the highlight that one does not hold arms the activation. -/
theorem activateLater_of_not_active {s : Spotlight} {region : RegionKey}
    (hregistered : s.isRegistered region = true) (hactive : s.active ≠ some region)
    (now : Instant) :
    s.activateLater region now =
      (s.cancelPending.setHighlight region .pendingActive).schedule
        (.activate region) now := by
  simp [activateLater, hregistered, hactive]

/-- Asking to lose the highlight marks the region, if it holds the highlight, and
arms the deactivation either way. -/
theorem deactivateLater_of_registered {s : Spotlight} {region : RegionKey}
    (hregistered : s.isRegistered region = true) (now : Instant) :
    s.deactivateLater region now =
      (if s.active = some region then s.cancelPending.setHighlight region .pendingHidden
        else s.cancelPending).schedule (.deactivate region) now := by
  simp [deactivateLater, hregistered]

/-- A delayed activation works where the end of the delay has an instant. -/
theorem isOk_activateLater {s : Spotlight} {now : Instant}
    (hclock : now + (s.settings.activationDelay : Int) < Instant.bound) (region : RegionKey) :
    (s.activateLater region now).1.isOk = true := by
  cases hregistered : s.isRegistered region with
  | false => rw [activateLater_of_not_registered hregistered]; rfl
  | true =>
      by_cases hactive : s.active = some region
      · rw [activateLater_of_active hregistered hactive]
        rfl
      · rw [activateLater_of_not_active hregistered hactive, isOk_schedule_iff]
        simpa using hclock

/-- A delayed deactivation works where the end of the delay has an instant. -/
theorem isOk_deactivateLater {s : Spotlight} {now : Instant}
    (hclock : now + (s.settings.activationDelay : Int) < Instant.bound) (region : RegionKey) :
    (s.deactivateLater region now).1.isOk = true := by
  cases hregistered : s.isRegistered region with
  | false => rw [deactivateLater_of_not_registered hregistered]; rfl
  | true =>
      rw [deactivateLater_of_registered hregistered, isOk_schedule_iff]
      split <;> simpa using hclock

/-- A delayed activation leaves nothing armed, or itself with the full delay. -/
theorem armed_activateLater {s : Spotlight} {region : RegionKey}
    (hregistered : s.isRegistered region = true) (now : Instant) :
    (s.activateLater region now).2.alarm.armed = none ∨
      ∃ serial, (s.activateLater region now).2.alarm.armed =
        some ⟨serial, now + (s.settings.activationDelay : Int), .activate region⟩ := by
  by_cases hactive : s.active = some region
  · left
    simp [activateLater_of_active hregistered hactive]
  · rw [activateLater_of_not_active hregistered hactive]
    rcases armed_schedule (s.cancelPending.setHighlight region .pendingActive)
        (.activate region) now with ⟨-, harmed⟩ | ⟨-, harmed⟩
    · left
      simpa using harmed
    · right
      exact ⟨_, by simpa using harmed⟩

/-- A delayed activation that does not fail is pending, unless its region holds the
highlight already. -/
theorem pending?_activateLater_of_isOk {s : Spotlight} {region : RegionKey}
    (hregistered : s.isRegistered region = true) {now : Instant}
    (hok : (s.activateLater region now).1.isOk = true) :
    (s.activateLater region now).2.pending? =
      if s.active = some region then none else some (.activate region) := by
  by_cases hactive : s.active = some region
  · simp [activateLater_of_active hregistered hactive, hactive]
  · rw [activateLater_of_not_active hregistered hactive] at hok ⊢
    rw [if_neg hactive]
    rcases armed_schedule (s.cancelPending.setHighlight region .pendingActive)
        (.activate region) now with ⟨herror, -⟩ | ⟨-, harmed⟩
    · rw [herror] at hok
      cases hok
    · simp [pending?, Alarm.payload?, harmed]

/-- A delayed deactivation either fails and leaves nothing armed, or arms itself with
the full delay. -/
theorem armed_deactivateLater {s : Spotlight} {region : RegionKey}
    (hregistered : s.isRegistered region = true) (now : Instant) :
    ((s.deactivateLater region now).1.isOk = false ∧
        (s.deactivateLater region now).2.alarm.armed = none) ∨
      ((s.deactivateLater region now).1.isOk = true ∧
        ∃ serial, (s.deactivateLater region now).2.alarm.armed =
          some ⟨serial, now + (s.settings.activationDelay : Int), .deactivate region⟩) := by
  rw [deactivateLater_of_registered hregistered]
  have hmarked : ∃ marked, (if s.active = some region then
      s.cancelPending.setHighlight region .pendingHidden else s.cancelPending) = marked ∧
      marked.alarm.armed = none ∧ marked.settings = s.settings := by
    refine ⟨_, rfl, ?_⟩
    split <;> simp
  rcases hmarked with ⟨marked, hmark, hidle, hsettings⟩
  rw [hmark, ← hsettings]
  rcases armed_schedule marked (.deactivate region) now with ⟨herror, harmed⟩ | ⟨hok, harmed⟩
  · exact Or.inl ⟨herror, by rw [harmed, hidle]⟩
  · exact Or.inr ⟨hok, _, harmed⟩

/-- A delayed deactivation that does not fail is pending. -/
theorem pending?_deactivateLater_of_isOk {s : Spotlight} {region : RegionKey}
    (hregistered : s.isRegistered region = true) {now : Instant}
    (hok : (s.deactivateLater region now).1.isOk = true) :
    (s.deactivateLater region now).2.pending? = some (.deactivate region) := by
  rcases armed_deactivateLater hregistered now with ⟨herror, -⟩ | ⟨-, serial, harmed⟩
  · rw [herror] at hok
    cases hok
  · simp [pending?, Alarm.payload?, harmed]

/-! ## The passing of time -/

/-- There is a deadline exactly when a change is pending. -/
theorem deadline?_eq_none_iff {s : Spotlight} : s.deadline? = none ↔ s.pending? = none := by
  simp [deadline?, Alarm.deadline?, pending?, Alarm.payload?]

/-- What is due is pending. -/
theorem pending?_of_due? {s : Spotlight} {now : Instant} {p : Pending}
    (h : s.alarm.due? now = some p) : s.pending? = some p := by
  rcases Alarm.due?_eq_some_iff.mp h with ⟨entry, harmed, -, rfl⟩
  simp [pending?, Alarm.payload?, harmed]

/-- Once the deadline is reached, what is pending is due. -/
theorem due?_eq_pending? {s : Spotlight} {now : Instant}
    (h : ∀ deadline, s.deadline? = some deadline → deadline ≤ now) :
    s.alarm.due? now = s.pending? := by
  cases harmed : s.alarm.armed with
  | none => simp [Alarm.due?, pending?, Alarm.payload?, harmed]
  | some entry =>
      have hle : entry.deadline ≤ now :=
        h entry.deadline (by simp [deadline?, Alarm.deadline?, harmed])
      simp [Alarm.due?, pending?, Alarm.payload?, harmed, Option.filter, hle]

/-- Nothing is due before the deadline. -/
theorem due?_eq_none_of_lt {s : Spotlight} {now : Instant}
    (h : ∀ deadline, s.deadline? = some deadline → now < deadline) :
    s.alarm.due? now = none := by
  cases harmed : s.alarm.armed with
  | none => simp [Alarm.due?, harmed]
  | some entry =>
      have hlt : now < entry.deadline :=
        h entry.deadline (by simp [deadline?, Alarm.deadline?, harmed])
      simp [Alarm.due?, harmed, hlt]

theorem tick_of_due?_eq_none {s : Spotlight} {now : Instant}
    (h : s.alarm.due? now = none) : s.tick now = (.none, s) := by
  simp [tick, h]

/-- The activation of a registered region takes effect when it is due. -/
theorem tick_of_due?_activate {s : Spotlight} {now : Instant} {region : RegionKey}
    (h : s.alarm.due? now = some (.activate region))
    (hregistered : s.isRegistered region = true) :
    s.tick now = s.disarm.activateNow region := by
  simp [tick, h, hregistered]

/-- The activation of a region that is not registered any more comes to nothing. -/
theorem tick_of_due?_activate_of_not_registered {s : Spotlight} {now : Instant}
    {region : RegionKey} (h : s.alarm.due? now = some (.activate region))
    (hregistered : s.isRegistered region = false) : s.tick now = (.none, s.disarm) := by
  simp [tick, h, hregistered]

/-- The deactivation of the holder of the highlight takes effect when it is due. -/
theorem tick_of_due?_deactivate {s : Spotlight} {now : Instant} {region : RegionKey}
    (h : s.alarm.due? now = some (.deactivate region))
    (hactive : s.active = some region) :
    (s.tick now).2 = { s.disarm.setHighlight region .hidden with active := none } := by
  simp [tick, h, hactive]

/-- The deactivation of any other region comes to nothing. -/
theorem tick_of_due?_deactivate_of_not_active {s : Spotlight} {now : Instant}
    {region : RegionKey} (h : s.alarm.due? now = some (.deactivate region))
    (hactive : s.active ≠ some region) : s.tick now = (.none, s.disarm) := by
  simp [tick, h, hactive]

/-- What a tick does: nothing before the deadline, and at the deadline what was pending, or
nothing but dropping it. -/
theorem tick_cases (s : Spotlight) (now : Instant) :
    (s.alarm.due? now = none ∧ s.tick now = (.none, s)) ∨
      ∃ pending, s.alarm.due? now = some pending ∧
        (s.tick now = (.none, s.disarm) ∨
          (∃ region, pending = .activate region ∧ s.isRegistered region = true ∧
            s.tick now = s.disarm.activateNow region) ∨
          ∃ region, pending = .deactivate region ∧ s.active = some region ∧
            s.tick now = (.deactivated region,
              { s.disarm.setHighlight region .hidden with active := none })) := by
  cases hdue : s.alarm.due? now with
  | none => exact Or.inl ⟨rfl, tick_of_due?_eq_none hdue⟩
  | some pending =>
      refine Or.inr ⟨pending, rfl, ?_⟩
      cases pending with
      | activate region =>
          cases hregistered : s.isRegistered region with
          | true =>
              exact Or.inr (Or.inl
                ⟨region, rfl, hregistered, tick_of_due?_activate hdue hregistered⟩)
          | false => exact Or.inl (tick_of_due?_activate_of_not_registered hdue hregistered)
      | deactivate region =>
          by_cases hactive : s.active = some region
          · exact Or.inr (Or.inr ⟨region, rfl, hactive, by simp [tick, hdue, hactive]⟩)
          · exact Or.inl (tick_of_due?_deactivate_of_not_active hdue hactive)

/-- Whatever is due is taken out of the alarm, whether or not it takes effect. -/
theorem armed_tick (s : Spotlight) (now : Instant) :
    (s.tick now).2.alarm.armed =
      if (s.alarm.due? now).isSome then none else s.alarm.armed := by
  rcases tick_cases s now with
    ⟨hdue, h⟩ | ⟨pending, hdue, h | ⟨region, -, -, h⟩ | ⟨region, -, -, h⟩⟩
  · simp [hdue, h]
  · simp [hdue, h, disarm]
  · simp [hdue, h, disarm]
  · simp [hdue, h, disarm]

/-- Nothing is pending once the deadline has been reached. -/
theorem pending?_tick (s : Spotlight) (now : Instant) :
    (s.tick now).2.pending? = if (s.alarm.due? now).isSome then none else s.pending? := by
  rw [pending?, Alarm.payload?, armed_tick]
  split <;> rfl

@[simp] theorem isRegistered_tick (s : Spotlight) (now : Instant) (key : RegionKey) :
    (s.tick now).2.isRegistered key = s.isRegistered key := by
  unfold tick
  split
  · split <;> simp
  · split
    · exact isRegistered_setHighlight s.disarm _ key .hidden
    · rfl
  · rfl

@[simp] theorem settings_tick (s : Spotlight) (now : Instant) :
    (s.tick now).2.settings = s.settings := by
  unfold tick
  split
  · split <;> simp
  · split <;> rfl
  · rfl

/-- Resetting hides every region. -/
@[simp] theorem highlight_reset (s : Spotlight) (key : RegionKey) :
    s.reset.highlight key = .hidden := by
  simp only [highlight, reset, Registry.get?_fill]
  cases s.registry.get? key <;> rfl

/-! ## Entering and forgetting -/

/-- Registering makes nobody registered but the region itself. -/
theorem isRegistered_of_register {s : Spotlight} {region key : RegionKey}
    (h : (s.register region).isRegistered key = true) :
    key = region ∨ s.isRegistered key = true := by
  by_cases hkey : key = region
  · exact Or.inl hkey
  · right
    unfold register at h
    split at h
    · exact h
    · rcases Option.isSome_iff_exists.mp h with ⟨v, hv⟩
      have hold := Registry.get?_of_get?_insert hkey hv
      simp [isRegistered, Registry.contains, hold]

/-- Who is registered after a registration stands as before. -/
theorem highlight_register_of_isRegistered {s : Spotlight} {region key : RegionKey}
    (hafter : (s.register region).isRegistered key = true) :
    (s.register region).highlight key = s.highlight key := by
  cases hreg : s.isRegistered region with
  | true => simp [register, hreg]
  | false =>
      have hnew : s.registry.get? region = none := by
        simpa [isRegistered, Registry.contains] using hreg
      have hentered : (s.register region).registry = s.registry.insert region .hidden := by
        simp [register, hreg]
      rcases Option.isSome_iff_exists.mp hafter with ⟨v, hv⟩
      have hhighlight : (s.register region).highlight key = v := by
        simp [highlight, hv]
      rw [hentered] at hv
      rw [hhighlight]
      by_cases hkey : key = region
      · subst hkey
        rw [highlight_of_not_registered hreg]
        exact Registry.eq_of_get?_insert_self hnew hv
      · simp [highlight, Registry.get?_of_get?_insert hkey hv]

/-- Registering leaves every region as it stands, as long as it pushes nobody out of
the registry. -/
theorem highlight_register {s : Spotlight} {region : RegionKey}
    (hkeeps : ∀ key, s.isRegistered key = true →
      (s.register region).isRegistered key = true) (key : RegionKey) :
    (s.register region).highlight key = s.highlight key := by
  cases hafter : (s.register region).isRegistered key with
  | true => exact highlight_register_of_isRegistered hafter
  | false =>
      have hbefore : s.isRegistered key = false := by
        cases hold : s.isRegistered key with
        | false => rfl
        | true =>
            rw [hkeeps key hold] at hafter
            cases hafter
      rw [highlight_of_not_registered hafter, highlight_of_not_registered hbefore]

/-- A region is registered after its registration, if its key names a region and is not
older than that of a registered region from its slot. -/
theorem isRegistered_register_of_not_isOlder {s : Spotlight} {region : RegionKey}
    (hnull : region.isNull = false)
    (hslot : ∀ key, s.isRegistered key = true → key.index = region.index →
      region.isOlder key = false) :
    (s.register region).isRegistered region = true := by
  unfold register
  split
  · assumption
  · have hentries : ∀ e ∈ s.registry.entries, e.1.index = region.index →
        region.isOlder e.1 = false := by
      intro e he
      apply hslot
      have hfound : s.registry.get? e.1 = some e.2 := Registry.get?_eq_some_iff.mpr he
      simp [isRegistered, Registry.contains, hfound]
    have hfound : (s.registry.insert region .hidden).get? region = some .hidden :=
      Registry.get?_insert_self .hidden hnull hentries
    simp [isRegistered, Registry.contains, hfound]

/-- A region is registered after its registration, if its key names a region and nobody
from its slot was registered. -/
theorem isRegistered_register_self {s : Spotlight} {region : RegionKey}
    (hnull : region.isNull = false)
    (hempty : ∀ key, s.isRegistered key = true → key.index ≠ region.index) :
    (s.register region).isRegistered region = true :=
  isRegistered_register_of_not_isOlder hnull fun key hkey hindex =>
    absurd hindex (hempty key hkey)

/-- Registering leaves the registration of the regions of other slots. -/
theorem isRegistered_register_of_index_ne (s : Spotlight) {region key : RegionKey}
    (hindex : key.index ≠ region.index) :
    (s.register region).isRegistered key = s.isRegistered key := by
  unfold register
  split
  · rfl
  · simp [isRegistered, Registry.contains, Registry.get?_insert_of_index_ne _ hindex]

/-- Registering adds the region and drops nobody, if its key names a region and nobody else
from its slot was registered. -/
theorem isRegistered_register_iff {s : Spotlight} {region key : RegionKey}
    (hnull : region.isNull = false)
    (hslot : ∀ other, s.isRegistered other = true → other.index = region.index →
      other = region) :
    (s.register region).isRegistered key = true ↔ key = region ∨ s.isRegistered key = true := by
  constructor
  · exact isRegistered_of_register
  · intro h
    cases hregistered : s.isRegistered region with
    | true =>
        have hsame : s.register region = s := by simp [register, hregistered]
        rw [hsame]
        exact h.elim (fun hkey => hkey ▸ hregistered) id
    | false =>
        have hempty : ∀ other, s.isRegistered other = true → other.index ≠ region.index := by
          intro other hother hindex
          rw [hslot other hother hindex, hregistered] at hother
          cases hother
        rcases h with rfl | hkey
        · exact isRegistered_register_self hnull hempty
        · rwa [isRegistered_register_of_index_ne s (hempty key hkey)]

/-- Registering changes the registry only. -/
theorem register_eq (s : Spotlight) (region : RegionKey) :
    s.register region = { s with registry := (s.register region).registry } := by
  unfold register
  split <;> rfl

@[simp] theorem active_register (s : Spotlight) (region : RegionKey) :
    (s.register region).active = s.active := by
  unfold register
  split <;> rfl

@[simp] theorem alarm_register (s : Spotlight) (region : RegionKey) :
    (s.register region).alarm = s.alarm := by
  unfold register
  split <;> rfl

@[simp] theorem activations_register (s : Spotlight) (region : RegionKey) :
    (s.register region).activations = s.activations := by
  unfold register
  split <;> rfl

theorem isRegistered_deregister_self (s : Spotlight) (region : RegionKey) :
    (s.deregister region).isRegistered region = false := by
  simp [isRegistered, Registry.contains, deregister]

theorem isRegistered_deregister_of_ne (s : Spotlight) {region key : RegionKey}
    (hne : key ≠ region) :
    (s.deregister region).isRegistered key = s.isRegistered key := by
  simp [isRegistered, Registry.contains, deregister, Registry.get?_erase_of_ne _ hne]

/-- After a list of regions has been forgotten, the others are registered as before. -/
theorem isRegistered_foldl_deregister_iff {s : Spotlight} {regions : List RegionKey}
    {key : RegionKey} :
    (regions.foldl deregister s).isRegistered key = true ↔
      s.isRegistered key = true ∧ key ∉ regions := by
  induction regions generalizing s with
  | nil => simp
  | cons region rest ih =>
      rw [List.foldl_cons, ih, List.mem_cons, not_or]
      by_cases hkey : key = region
      · subst hkey
        simp [isRegistered_deregister_self]
      · simp [isRegistered_deregister_of_ne s hkey, hkey]

/-- Forgetting a region leaves all others as they stand. -/
theorem highlight_deregister (s : Spotlight) (region key : RegionKey) :
    (s.deregister region).highlight key =
      if key = region then .hidden else s.highlight key := by
  split
  · rename_i h
    subst h
    exact highlight_of_not_registered (isRegistered_deregister_self s key)
  · rename_i h
    simp [highlight, deregister, Registry.get?_erase_of_ne _ h]

/-- After a list of regions has been forgotten, the others stand as before. -/
theorem highlight_foldl_deregister (s : Spotlight) (regions : List RegionKey)
    (key : RegionKey) :
    (regions.foldl deregister s).highlight key =
      if key ∈ regions then .hidden else s.highlight key := by
  induction regions generalizing s with
  | nil => simp
  | cons region rest ih =>
      rw [List.foldl_cons, ih, highlight_deregister]
      by_cases hkey : key = region <;> by_cases hrest : key ∈ rest <;> simp [hkey, hrest]

/-- Forgetting a region drops what is pending about it and nothing else. -/
theorem armed_deregister (s : Spotlight) (region : RegionKey) :
    (s.deregister region).alarm.armed =
      s.alarm.armed.filter fun entry => entry.payload.region ≠ region := by
  simp [deregister, Alarm.snd_cancelIf]

/-- Forgetting a region gives no serial number back. -/
@[simp] theorem issued_deregister (s : Spotlight) (region : RegionKey) :
    (s.deregister region).alarm.issued = s.alarm.issued := by
  rw [deregister, Alarm.snd_cancelIf]

/-- Forgetting a region leaves the alarm, if what is armed is about another region. -/
theorem alarm_deregister {s : Spotlight} {region : RegionKey}
    (hother : ∀ entry, s.alarm.armed = some entry → entry.payload.region ≠ region) :
    (s.deregister region).alarm = s.alarm := by
  unfold deregister Alarm.cancelIf Alarm.payload?
  cases harmed : s.alarm.armed with
  | none => rfl
  | some entry => simp [hother entry harmed]

theorem pending?_deregister (s : Spotlight) (region : RegionKey) :
    (s.deregister region).pending? =
      s.pending?.filter fun pending => pending.region ≠ region := by
  unfold pending? Alarm.payload?
  rw [armed_deregister]
  cases s.alarm.armed with
  | none => rfl
  | some entry =>
      by_cases hregion : entry.payload.region = region <;>
        simp [Option.filter, hregion]

end Spotlight

end NestedHover
