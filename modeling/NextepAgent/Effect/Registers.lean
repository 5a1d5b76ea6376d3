import Mathlib.Logic.Function.Basic
import Mathlib.Data.List.Induction

/-!
# Registers

A store of registers, each of which holds the last value written to it. A list of writes leaves a
value in every register it mentions, and the earlier ones are lost. Every write is still there at
the end exactly when no two of them disagree about a register (`kept_iff`).

## Main definitions

* `Effect.Registers.write`, `writes`

## Main results

* `exists_writes_eq` — what is read is what some write left
* `kept_iff`
-/

namespace Effect.Registers

variable {α β : Type} [DecidableEq α]

/-- One write. -/
def write (s : α → β) (w : α × β) : α → β := Function.update s w.1 w.2

/-- One write after another. -/
def writes (s : α → β) (ws : List (α × β)) : α → β := ws.foldl write s

@[simp] theorem writes_nil (s : α → β) : writes s [] = s := rfl

@[simp] theorem writes_cons (s : α → β) (w : α × β) (ws : List (α × β)) :
    writes s (w :: ws) = writes (write s w) ws := rfl

theorem writes_append (s : α → β) (ws vs : List (α × β)) :
    writes s (ws ++ vs) = writes (writes s ws) vs := List.foldl_append

/-- A register that is written holds what some write put there. The induction is on the last write:
either it is to this register, or it changes nothing about it. -/
theorem exists_writes_eq {ws : List (α × β)} {w : α × β} (hw : w ∈ ws) (s : α → β) :
    ∃ v ∈ ws, v.1 = w.1 ∧ writes s ws w.1 = v.2 := by
  induction ws using List.reverseRecOn with
  | nil => cases hw
  | append_singleton ws v ih =>
    rw [writes_append]
    by_cases hv : v.1 = w.1
    · refine ⟨v, by simp, hv, ?_⟩
      rw [writes_cons, writes_nil, write, hv, Function.update_self]
    · have hmem : w ∈ ws := by
        rcases List.mem_append.mp hw with h | h
        · exact h
        · obtain rfl := List.mem_singleton.mp h
          exact absurd rfl hv
      obtain ⟨u, hu, hname, hread⟩ := ih hmem
      refine ⟨u, List.mem_append_left _ hu, hname, ?_⟩
      rw [writes_cons, writes_nil, write, Function.update_of_ne (Ne.symm hv), hread]

/-- **Every write is kept exactly when writes to one register agree.** -/
theorem kept_iff (s : α → β) (ws : List (α × β)) :
    (∀ w ∈ ws, writes s ws w.1 = w.2) ↔ ∀ w ∈ ws, ∀ v ∈ ws, w.1 = v.1 → w.2 = v.2 := by
  constructor
  · intro h w hw v hv hname
    calc w.2 = writes s ws w.1 := (h w hw).symm
      _ = writes s ws v.1 := by rw [hname]
      _ = v.2 := h v hv
  · intro h w hw
    obtain ⟨v, hv, hname, hread⟩ := exists_writes_eq hw s
    rw [hread]
    exact h v hv w hw hname

end Effect.Registers
