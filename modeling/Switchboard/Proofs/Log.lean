/-
Switchboard/Proofs/Log.lean

Logs of runs.

Whatever goes on step by step, as a connection, the board and the service do,
something can be written down at every step, `logged`, from the state before
the step and the step itself.  The log of two runs in succession is that of
the first and then that of the second.
-/

namespace Switchboard

variable {σ ε α : Type} {step : σ → ε → σ} {entry : σ → ε → List α}

/-- What is written down in the course of a run, if every step adds something. -/
def logged (step : σ → ε → σ) (entry : σ → ε → List α) : σ → List ε → List α
  | _, [] => []
  | s, e :: es => entry s e ++ logged step entry (step s e) es

theorem logged_append (step : σ → ε → σ) (entry : σ → ε → List α) (s : σ) (es es' : List ε) :
    logged step entry s (es ++ es') =
      logged step entry s es ++ logged step entry (es.foldl step s) es' := by
  induction es generalizing s with
  | nil => rfl
  | cons e es ih =>
    show entry s e ++ logged step entry (step s e) (es ++ es') = _
    rw [ih, ← List.append_assoc]
    rfl

/-- A log to which no step adds anything is empty. -/
theorem logged_eq_nil {es : List ε} (h : ∀ e ∈ es, ∀ s, entry s e = []) (s : σ) :
    logged step entry s es = [] := by
  induction es generalizing s with
  | nil => rfl
  | cons e es ih =>
    obtain ⟨he, hes⟩ := List.forall_mem_cons.1 h
    show entry s e ++ logged step entry (step s e) es = []
    rw [he, ih hes]
    rfl

/-- What stands in a log was written down at one of the steps. -/
theorem mem_logged {s : σ} {es : List ε} {x : α} : x ∈ logged step entry s es ↔
    ∃ es₁ e es₂, es = es₁ ++ e :: es₂ ∧ x ∈ entry (es₁.foldl step s) e := by
  induction es generalizing s with
  | nil => simp [logged]
  | cons e es ih =>
    show x ∈ entry s e ++ logged step entry (step s e) es ↔ _
    rw [List.mem_append, ih]
    constructor
    · rintro (hx | ⟨es₁, e', es₂, rfl, hx⟩)
      · exact ⟨[], e, es, rfl, hx⟩
      · exact ⟨e :: es₁, e', es₂, rfl, hx⟩
    · rintro ⟨- | ⟨e₁, es₁⟩, e', es₂, he, hx⟩
      · cases he
        exact .inl hx
      · cases he
        exact .inr ⟨es₁, e', es₂, rfl, hx⟩

end Switchboard
