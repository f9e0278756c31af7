/-!
# Conditions along a run

A run takes the calls of a list one after another, each in the state that the ones
before it have left.  A condition on states and calls holds along the run when it
holds of each call in the state in which that call is made.

Main results:

- Theorem {lit}`along_append`: a condition holds along a run in two parts exactly
  when it holds along each part.
- Theorem {lit}`along_and`: two conditions hold along a run exactly when each does.
- Theorem {lit}`along_transfer`: a condition holds along a run if it follows, in related
  states, from one that holds along a run of the same calls.
- Theorems {lit}`foldl_of_along` and {lit}`along_of_forall`: what every call of a run keeps is
  kept by the run, and holds all along it.
- Theorem {lit}`gathered_append`: what a run in two parts answers is what its parts answer.
-/

namespace NestedHover

variable {σ ω : Type} {step : σ → ω → σ} {P : σ → ω → Prop}

/-- Whether a condition on calls holds of each call of a run, in the state in which
the call is made. -/
def Along (step : σ → ω → σ) (P : σ → ω → Prop) : σ → List ω → Prop
  | _, [] => True
  | s, call :: rest => P s call ∧ Along step P (step s call) rest

instance decidableAlong [∀ s call, Decidable (P s call)] :
    ∀ s calls, Decidable (Along step P s calls)
  | _, [] => isTrue trivial
  | s, call :: rest =>
      have := decidableAlong (step s call) rest
      inferInstanceAs (Decidable (P s call ∧ Along step P (step s call) rest))

theorem along_append {s : σ} {first second : List ω} :
    Along step P s (first ++ second) ↔
      Along step P s first ∧ Along step P (first.foldl step s) second := by
  induction first generalizing s with
  | nil => simp [Along]
  | cons call rest ih =>
      rw [List.cons_append, Along, Along, ih, List.foldl_cons, and_assoc]

/-- Two conditions hold along a run together exactly when each of them does. -/
theorem along_and {Q : σ → ω → Prop} {s : σ} {calls : List ω} :
    Along step (fun s call => P s call ∧ Q s call) s calls ↔
      Along step P s calls ∧ Along step Q s calls := by
  induction calls generalizing s with
  | nil => simp [Along]
  | cons call rest ih => rw [Along, Along, Along, ih, and_and_and_comm]

/-- What holds along a run holds along every first part of it. -/
theorem along_of_isPrefix {s : σ} {first calls : List ω} (hfirst : first <+: calls)
    (h : Along step P s calls) : Along step P s first := by
  obtain ⟨second, rfl⟩ := hfirst
  exact (along_append.mp h).1

/-- A condition holds along a run if it follows, in related states, from one that holds
along a run of the same calls. -/
theorem along_transfer {τ : Type} {next : τ → ω → τ} {Q : τ → ω → Prop} {R : σ → τ → Prop}
    (hstep : ∀ s t call, R s t → R (step s call) (next t call))
    (hcond : ∀ s t call, R s t → P s call → Q t call) {s : σ} {t : τ} {calls : List ω}
    (hstart : R s t) (h : Along step P s calls) : Along next Q t calls := by
  induction calls generalizing s t with
  | nil => trivial
  | cons call rest ih =>
      exact ⟨hcond s t call hstart h.1, ih (hstep s t call hstart) h.2⟩

/-- What follows from a condition holds along every run along which the condition holds. -/
theorem along_mono {Q : σ → ω → Prop} (himp : ∀ s call, P s call → Q s call) {s : σ}
    {calls : List ω} (h : Along step P s calls) : Along step Q s calls :=
  along_transfer (R := Eq) (fun _ _ _ hsame => hsame ▸ rfl)
    (fun s _ call hsame hcall => hsame ▸ himp s call hcall) rfl h

/-- What every call of a run keeps is kept by the run. -/
theorem foldl_of_along {I : σ → Prop}
    (hkeeps : ∀ s call, I s → P s call → I (step s call)) {s : σ} {calls : List ω}
    (hstart : I s) (halong : Along step P s calls) : I (calls.foldl step s) := by
  induction calls generalizing s with
  | nil => exact hstart
  | cons call rest ih => exact ih (hkeeps s call hstart halong.1) halong.2

/-- What every call keeps holds all along a run. -/
theorem along_of_forall {I : σ → Prop} (hkeeps : ∀ s call, I s → I (step s call)) {s : σ}
    (hstart : I s) (calls : List ω) : Along step (fun s _ => I s) s calls := by
  induction calls generalizing s with
  | nil => trivial
  | cons call rest ih => exact ⟨hstart, ih (hkeeps s call hstart)⟩

/-- What the calls of a run answer, one after another, where each answers a list. -/
def gathered {α : Type} (step : σ → ω → σ) (answer : σ → ω → List α) : σ → List ω → List α
  | _, [] => []
  | s, call :: rest => answer s call ++ gathered step answer (step s call) rest

theorem gathered_append {α : Type} {answer : σ → ω → List α} (s : σ) (first second : List ω) :
    gathered step answer s (first ++ second) =
      gathered step answer s first ++ gathered step answer (first.foldl step s) second := by
  induction first generalizing s with
  | nil => rfl
  | cons call rest ih =>
      rw [List.cons_append, gathered, gathered, ih, List.foldl_cons, List.append_assoc]

end NestedHover
