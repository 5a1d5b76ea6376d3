import Mathlib.Data.List.Induction

/-!
# Histories

A history is a list of events, each of which takes a state to the next. Two kinds of statement are
made about it: something holds in every state it reaches, and every event meets a condition in the
state it happens in. When a condition is exactly what an event needs to keep an invariant, the two
say the same of whole histories, and `everywhere_iff_throughout` is that induction.

## Main definitions

* `Effect.Everywhere` — in every state that a history reaches
* `Effect.Throughout` — at every event, in the state it happens in

## Main results

* `Throughout.foldl` — an invariant that may mention the history so far
* `everywhere_iff_throughout` — an invariant and the exact condition on events
-/

namespace Effect

variable {σ α : Type} {step : σ → α → σ} {I : σ → Prop} {C D : σ → α → Prop} {s : σ} {a : α}
  {hist : List α}

/-- `I` holds in every state that the history reaches from `s`. -/
def Everywhere (step : σ → α → σ) (I : σ → Prop) (s : σ) (hist : List α) : Prop :=
  ∀ hist₁ hist₂, hist = hist₁ ++ hist₂ → I (hist₁.foldl step s)

/-- Every event of the history meets `C` in the state it happens in. -/
def Throughout (step : σ → α → σ) (C : σ → α → Prop) (s : σ) (hist : List α) : Prop :=
  ∀ hist₁ a hist₂, hist = hist₁ ++ a :: hist₂ → C (hist₁.foldl step s) a

@[simp] theorem everywhere_nil : Everywhere step I s [] ↔ I s := by
  refine ⟨fun h => h [] [] rfl, fun h hist₁ hist₂ hsplit => ?_⟩
  obtain ⟨rfl, rfl⟩ := List.append_eq_nil_iff.mp hsplit.symm
  exact h

@[simp] theorem everywhere_cons :
    Everywhere step I s (a :: hist) ↔ I s ∧ Everywhere step I (step s a) hist := by
  constructor
  · intro h
    exact ⟨h [] _ rfl, fun hist₁ hist₂ hsplit => h (a :: hist₁) hist₂ (congrArg (a :: ·) hsplit)⟩
  · rintro ⟨hs, h⟩ hist₁ hist₂ hsplit
    cases hist₁ with
    | nil => exact hs
    | cons b hist₁ =>
      obtain ⟨rfl, htail⟩ := List.cons.inj hsplit
      exact h hist₁ hist₂ htail

@[simp] theorem throughout_nil : Throughout step C s [] :=
  fun hist₁ a hist₂ hsplit => by simp at hsplit

@[simp] theorem throughout_cons :
    Throughout step C s (a :: hist) ↔ C s a ∧ Throughout step C (step s a) hist := by
  constructor
  · intro h
    exact ⟨h [] _ _ rfl, fun hist₁ b hist₂ hsplit =>
      h (a :: hist₁) b hist₂ (congrArg (a :: ·) hsplit)⟩
  · rintro ⟨ha, h⟩ hist₁ b hist₂ hsplit
    cases hist₁ with
    | nil =>
      obtain ⟨rfl, -⟩ := List.cons.inj hsplit
      exact ha
    | cons c hist₁ =>
      obtain ⟨rfl, htail⟩ := List.cons.inj hsplit
      exact h hist₁ b hist₂ htail

theorem Everywhere.start (h : Everywhere step I s hist) : I s := by
  cases hist with
  | nil => exact everywhere_nil.mp h
  | cons a hist => exact (everywhere_cons.mp h).1

/-- **The invariant rule.** The invariant may mention the events so far. -/
theorem Throughout.foldl {J : List α → σ → Prop} (h : Throughout step C s hist) (hs : J [] s)
    (hstep : ∀ hist s a, J hist s → C s a → J (hist ++ [a]) (step s a)) :
    J hist (hist.foldl step s) := by
  induction hist using List.reverseRecOn with
  | nil => exact hs
  | append_singleton hist a ih =>
    have hprefix : Throughout step C s hist := fun hist₁ b hist₂ hsplit =>
      h hist₁ b (hist₂ ++ [a]) (by simp [hsplit])
    rw [List.foldl_append]
    exact hstep hist _ a (ih hprefix) (h hist a [] rfl)

/-- **Invariant and condition.** If, for events that meet `D`, the condition `C` is exactly what
keeps the invariant, then a history of such events keeps it everywhere just if it meets `C`
throughout. -/
theorem everywhere_iff_throughout (hstep : ∀ s a, I s → D s a → (I (step s a) ↔ C s a))
    (hs : I s) (hD : Throughout step D s hist) :
    Everywhere step I s hist ↔ Throughout step C s hist := by
  induction hist generalizing s with
  | nil => simpa using hs
  | cons a hist ih =>
    obtain ⟨ha, hD⟩ := throughout_cons.mp hD
    rw [everywhere_cons, throughout_cons]
    constructor
    · rintro ⟨-, h⟩
      exact ⟨(hstep s a hs ha).mp h.start, (ih h.start hD).mp h⟩
    · rintro ⟨hC, h⟩
      have hnext : I (step s a) := (hstep s a hs ha).mpr hC
      exact ⟨hs, (ih hnext hD).mpr h⟩

end Effect
