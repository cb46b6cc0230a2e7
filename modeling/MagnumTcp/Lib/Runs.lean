import Mathlib.Data.List.Basic

/-!
# Runs of a deterministic machine

A machine is a step function on states and events. `Always` and `Along` speak about one run: the
first about every state it passes through, the second about every step it takes. Invariants are
carried over runs whose steps all meet a condition `C`, so a usage rule of the machine is
stated once, as the `C` of its runs.
-/

namespace Runs

section

variable {σ α : Type*} (step : σ → α → σ)

def exec (s : σ) (events : List α) : σ := events.foldl step s

/-- Every step of the run is taken in a state and with an event that satisfy `C`. -/
def Along (C : σ → α → Prop) : σ → List α → Prop
  | _, [] => True
  | s, a :: rest => C s a ∧ Along C (step s a) rest

/-- Every state of the run, the first and the last included, satisfies `P`. -/
def Always (P : σ → Prop) : σ → List α → Prop
  | s, [] => P s
  | s, a :: rest => P s ∧ Always P (step s a) rest

instance decidableAlong {C : σ → α → Prop} [∀ s a, Decidable (C s a)] :
    (s : σ) → (events : List α) → Decidable (Along step C s events)
  | _, [] => isTrue trivial
  | s, a :: rest =>
      have : Decidable (Along step C (step s a) rest) := decidableAlong (step s a) rest
      inferInstanceAs (Decidable (C s a ∧ Along step C (step s a) rest))

instance decidableAlways {P : σ → Prop} [∀ s, Decidable (P s)] :
    (s : σ) → (events : List α) → Decidable (Always step P s events)
  | s, [] => inferInstanceAs (Decidable (P s))
  | s, a :: rest =>
      have : Decidable (Always step P (step s a) rest) := decidableAlways (step s a) rest
      inferInstanceAs (Decidable (P s ∧ Always step P (step s a) rest))

@[simp] theorem exec_nil (s : σ) : exec step s [] = s := rfl

@[simp] theorem exec_cons (s : σ) (a : α) (rest : List α) :
    exec step s (a :: rest) = exec step (step s a) rest := rfl

theorem exec_append (s : σ) (before after : List α) :
    exec step s (before ++ after) = exec step (exec step s before) after :=
  List.foldl_append

variable {step} {C D : σ → α → Prop} {P Inv : σ → Prop}

theorem along_append {s : σ} {before after : List α} :
    Along step C s (before ++ after) ↔ Along step C s before ∧ Along step C (exec step s before) after := by
  induction before generalizing s with
  | nil => simp [Along]
  | cons a rest ih => simp [Along, ih, and_assoc]

theorem along_and {s : σ} {events : List α} :
    Along step (fun s a => C s a ∧ D s a) s events ↔ Along step C s events ∧ Along step D s events := by
  induction events generalizing s with
  | nil => simp [Along]
  | cons a rest ih => simp only [Along, ih]; tauto

theorem along_mono (weaker : ∀ s a, C s a → D s a) {s : σ} {events : List α}
    (run : Along step C s events) : Along step D s events := by
  induction events generalizing s with
  | nil => trivial
  | cons a rest ih => exact ⟨weaker s a run.1, ih run.2⟩

theorem along_true (s : σ) (events : List α) : Along step (fun _ _ => True) s events := by
  induction events generalizing s with
  | nil => trivial
  | cons a rest ih => exact ⟨trivial, ih (step s a)⟩

theorem along_of_mem {D : α → Prop} {events : List α} (each : ∀ a ∈ events, D a) (s : σ) :
    Along step (fun _ a => D a) s events := by
  induction events generalizing s with
  | nil => trivial
  | cons a rest ih =>
      obtain ⟨now, later⟩ := List.forall_mem_cons.mp each
      exact ⟨now, ih later (step s a)⟩

theorem always_exec {s : σ} {events : List α} (always : Always step P s events) :
    P (exec step s events) := by
  induction events generalizing s with
  | nil => exact always
  | cons a rest ih => exact ih always.2

theorem exec_inv (keep : ∀ s a, Inv s → C s a → Inv (step s a)) {s : σ} {events : List α}
    (start : Inv s) (run : Along step C s events) : Inv (exec step s events) := by
  induction events generalizing s with
  | nil => exact start
  | cons a rest ih => exact ih (keep s a start run.1) run.2

theorem always_inv (keep : ∀ s a, Inv s → C s a → Inv (step s a)) (use : ∀ s, Inv s → P s)
    {s : σ} {events : List α} (start : Inv s) (run : Along step C s events) :
    Always step P s events := by
  induction events generalizing s with
  | nil => exact use s start
  | cons a rest ih => exact ⟨use s start, ih (keep s a start run.1) run.2⟩

theorem always_mono {Q : σ → Prop} (weaker : ∀ s, P s → Q s) {s : σ} {events : List α}
    (always : Always step P s events) : Always step Q s events := by
  induction events generalizing s with
  | nil => exact weaker s always
  | cons a rest ih => exact ⟨weaker s always.1, ih always.2⟩

theorem along_inv (keep : ∀ s a, Inv s → C s a → Inv (step s a))
    (use : ∀ s a, Inv s → C s a → D s a) {s : σ} {events : List α}
    (start : Inv s) (run : Along step C s events) : Along step D s events := by
  induction events generalizing s with
  | nil => trivial
  | cons a rest ih => exact ⟨use s a start run.1, ih (keep s a start run.1) run.2⟩

/-- Two step conditions that agree under an invariant hold of the same runs. The invariant need
only survive the steps that meet `D`: the first step that breaks `D` breaks `C` as well. -/
theorem along_congr {U : σ → α → Prop} (keep : ∀ s a, Inv s → U s a → D s a → Inv (step s a))
    (agree : ∀ s a, Inv s → U s a → (C s a ↔ D s a)) {s : σ} {events : List α}
    (start : Inv s) (run : Along step U s events) :
    Along step C s events ↔ Along step D s events := by
  induction events generalizing s with
  | nil => simp [Along]
  | cons a rest ih =>
      simp only [Along]
      constructor
      · rintro ⟨now, later⟩
        have holds := (agree s a start run.1).mp now
        exact ⟨holds, (ih (keep s a start run.1 holds) run.2).mp later⟩
      · rintro ⟨now, later⟩
        exact ⟨(agree s a start run.1).mpr now, (ih (keep s a start run.1 now) run.2).mpr later⟩

/-- A state property that holds at first and whose next value is decided by a condition on the
step holds always exactly when every step meets the condition. -/
theorem always_iff_along {U : σ → α → Prop}
    (keep : ∀ s a, Inv s → U s a → D s a → Inv (step s a)) (use : ∀ s, Inv s → P s)
    (only : ∀ s a, Inv s → U s a → P (step s a) → D s a) {s : σ} {events : List α}
    (start : Inv s) (run : Along step U s events) :
    Always step P s events ↔ Along step D s events := by
  induction events generalizing s with
  | nil => simp [Always, Along, use s start]
  | cons a rest ih =>
      have first : Always step P (step s a) rest → P (step s a) := by
        cases rest with
        | nil => exact id
        | cons b rest => exact And.left
      simp only [Always, Along]
      constructor
      · rintro ⟨-, later⟩
        have holds := only s a start run.1 (first later)
        exact ⟨holds, (ih (keep s a start run.1 holds) run.2).mp later⟩
      · rintro ⟨now, later⟩
        exact ⟨use s start, (ih (keep s a start run.1 now) run.2).mpr later⟩

end

end Runs
