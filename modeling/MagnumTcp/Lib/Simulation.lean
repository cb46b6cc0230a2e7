import MagnumTcp.Lib.Runs

namespace Runs

variable {σ τ α β : Type*} {conc : σ → α → σ} {abst : τ → β → τ}
variable {Inv : σ → Prop} {C : σ → α → Prop} {D : τ → β → Prop} {P : τ → Prop} {abs : σ → τ}

/-- The steps that meet `C` in states that meet `Inv` are runs whose steps meet `D`. -/
def Simulates (conc : σ → α → σ) (abst : τ → β → τ) (Inv : σ → Prop) (C : σ → α → Prop)
    (D : τ → β → Prop) (abs : σ → τ) : Prop :=
  ∀ s a, Inv s → C s a → ∃ events, Along abst D (abs s) events ∧
    exec abst (abs s) events = abs (conc s a)

theorem exec_simulates (sim : Simulates conc abst Inv C D abs)
    (keep : ∀ s a, Inv s → C s a → Inv (conc s a)) {s : σ} {events : List α} (start : Inv s)
    (run : Along conc C s events) :
    ∃ events', Along abst D (abs s) events' ∧
      exec abst (abs s) events' = abs (exec conc s events) := by
  induction events generalizing s with
  | nil => exact ⟨[], trivial, rfl⟩
  | cons a rest ih =>
      obtain ⟨first, allowed, taken⟩ := sim s a start run.1
      obtain ⟨later, allowed', taken'⟩ := ih (keep s a start run.1) run.2
      rw [← taken] at allowed' taken'
      refine ⟨first ++ later, along_append.mpr ⟨allowed, allowed'⟩, ?_⟩
      rw [exec_append, taken', exec_cons]

theorem always_simulates {Q : σ → Prop} (sim : Simulates conc abst Inv C D abs)
    (keep : ∀ s a, Inv s → C s a → Inv (conc s a)) {s : σ} {events : List α} (start : Inv s)
    (run : Along conc C s events)
    (abstract : ∀ events', Along abst D (abs s) events' → P (exec abst (abs s) events'))
    (use : ∀ u, Inv u → P (abs u) → Q u) : Always conc Q s events := by
  have reach : ∀ events', Along conc C s events' → Q (exec conc s events') := by
    intro events' run'
    obtain ⟨image, allowed, same⟩ := exec_simulates sim keep start run'
    exact use _ (exec_inv keep start run') (same ▸ abstract image allowed)
  clear start abstract
  induction events generalizing s with
  | nil => exact reach [] trivial
  | cons a rest ih =>
      refine ⟨reach [] trivial, ih run.2 ?_⟩
      intro events' run'
      exact reach (a :: events') ⟨run.1, run'⟩

end Runs
