import Mathlib.Algebra.Order.Floor.Ring
import Mathlib.Tactic.Linarith
import Mathlib.Tactic.NormNum

/-!
# Rounding half to even

The nearest integer, and of two that are equally near the even one. Where rounding ends up is decided
by comparisons with half-integers, and the even ones of the integers keep their ends.

## Main definitions

* `roundHalfEven`

## Main results

* `roundHalfEven_le_iff`, `le_roundHalfEven_iff`
* `abs_roundHalfEven_sub_le_iff` — when the rounded value is near an integer
* `abs_roundHalfEven_sub_le` — the error
-/

namespace Rounding

variable {α : Type*} [Field α] [LinearOrder α] [IsStrictOrderedRing α] [FloorRing α]

/-- The nearest integer, and of two the even one. -/
def roundHalfEven (x : α) : ℤ :=
  if Int.fract x < 1 / 2 ∨ Int.fract x = 1 / 2 ∧ ⌊x⌋ % 2 = 0 then ⌊x⌋ else ⌊x⌋ + 1

variable {x : α} {n k e : ℤ}

/-- The cases are how the floor of `x` compares with `n`. Only when it is `n` does the rest matter. -/
theorem roundHalfEven_le_iff :
    roundHalfEven x ≤ n ↔ x < n + 1 / 2 ∨ x = n + 1 / 2 ∧ n % 2 = 0 := by
  have hpos : (⌊x⌋ : α) ≤ x := Int.floor_le x
  have hlt : x < ⌊x⌋ + 1 := Int.lt_floor_add_one x
  rw [roundHalfEven]
  rcases lt_trichotomy ⌊x⌋ n with hlow | heq | hhigh
  · have hcast : (⌊x⌋ : α) + 1 ≤ n := by exact_mod_cast hlow
    refine iff_of_true ?_ (.inl (by linarith))
    split
    · exact hlow.le
    · exact hlow
  · have hcast : (⌊x⌋ : α) = n := by exact_mod_cast heq
    have hhalf : (Int.fract x < 1 / 2 ∨ Int.fract x = 1 / 2 ∧ ⌊x⌋ % 2 = 0) ↔
        x < n + 1 / 2 ∨ x = n + 1 / 2 ∧ n % 2 = 0 := by
      rw [Int.fract, hcast, heq, sub_lt_iff_lt_add', sub_eq_iff_eq_add']
    rw [← hhalf]
    split
    · next hdown => exact iff_of_true heq.le hdown
    · next hup => exact iff_of_false (by omega) hup
  · have hcast : (n : α) + 1 ≤ ⌊x⌋ := by exact_mod_cast hhigh
    refine iff_of_false ?_ ?_
    · split <;> omega
    · rintro (h | ⟨h, -⟩) <;> linarith

theorem le_roundHalfEven_iff :
    n ≤ roundHalfEven x ↔ n - 1 / 2 < x ∨ x = n - 1 / 2 ∧ n % 2 = 0 := by
  have hcast : ((n - 1 : ℤ) : α) + 1 / 2 = n - 1 / 2 := by push_cast; linarith
  rw [← not_lt, ← Int.le_sub_one_iff, roundHalfEven_le_iff, hcast, not_or, not_lt, not_and,
    le_iff_lt_or_eq]
  constructor
  · rintro ⟨hlt | heq, hodd⟩
    · exact .inl hlt
    · exact .inr ⟨heq.symm, by have := hodd heq.symm; omega⟩
  · rintro (hlt | ⟨rfl, heven⟩)
    · exact ⟨.inl hlt, fun heq => absurd heq hlt.ne'⟩
    · exact ⟨.inr rfl, fun _ => by omega⟩

/-- The rounded value is at most `e` from `k` just if `x` is less than a half more from it, or just a
half more, and `k` is even. -/
theorem abs_roundHalfEven_sub_le_iff (he : e % 2 = 0) :
    |roundHalfEven x - k| ≤ e ↔ |x - k| < e + 1 / 2 ∨ |x - k| = e + 1 / 2 ∧ k % 2 = 0 := by
  have hlow : k - e ≤ roundHalfEven x ↔ k - e - 1 / 2 < x ∨ x = k - e - 1 / 2 ∧ k % 2 = 0 := by
    rw [le_roundHalfEven_iff, Int.cast_sub, show (k - e) % 2 = k % 2 by omega]
  have hhigh : roundHalfEven x ≤ k + e ↔ x < k + e + 1 / 2 ∨ x = k + e + 1 / 2 ∧ k % 2 = 0 := by
    rw [roundHalfEven_le_iff, Int.cast_add, show (k + e) % 2 = k % 2 by omega]
  rw [abs_sub_le_iff, sub_le_iff_le_add', sub_le_comm, and_comm, hlow, hhigh]
  by_cases hk : k % 2 = 0
  · simp only [hk, and_true]
    rw [eq_comm (a := x), ← le_iff_lt_or_eq, ← le_iff_lt_or_eq, ← le_iff_lt_or_eq, abs_sub_le_iff]
    constructor
    · rintro ⟨h, h'⟩
      constructor <;> linarith
    · rintro ⟨h, h'⟩
      constructor <;> linarith
  · simp only [hk, and_false, or_false]
    rw [abs_sub_lt_iff]
    constructor
    · rintro ⟨h, h'⟩
      constructor <;> linarith
    · rintro ⟨h, h'⟩
      constructor <;> linarith

/-- **The error.** -/
theorem abs_roundHalfEven_sub_le (x : α) : |roundHalfEven x - x| ≤ 1 / 2 := by
  have hup : x < roundHalfEven x + 1 / 2 ∨ x = roundHalfEven x + 1 / 2 ∧ _ :=
    roundHalfEven_le_iff.mp le_rfl
  have hdown : roundHalfEven x - 1 / 2 < x ∨ x = roundHalfEven x - 1 / 2 ∧ _ :=
    le_roundHalfEven_iff.mp le_rfl
  rw [abs_le]
  constructor
  · rcases hup with h | ⟨h, -⟩ <;> linarith
  · rcases hdown with h | ⟨h, -⟩ <;> linarith

end Rounding
