import Mathlib.Tactic.TypeStar
import Mathlib.Tactic.Common

/-!
# Programs that call their environment

A program is a tree of calls. Each call names an operation of a signature and continues on
whatever comes back, an answer or an exception, so that `try` is a transformation of the tree
and needs no separate semantics.

Running a program needs a *handler*: what each operation answers and what it does to the state.
Faults, clocks and the like are not a separate layer. They are already in the handler one chooses,
so a statement about every handler of a family is a statement about every pattern of faults.

## Two ways to run

`eval` runs to the end. `exec n` stops after `n` calls and returns what is left of the program,
which is what a process that dies half way leaves behind.

## Main definitions

* `Effect.Program` — calls over a signature, with exceptions
* `Effect.Program.eval`, `exec`, `trace` — running to the end, running `n` calls, the calls made
* `Effect.Program.Always` — an assertion true at every state a run passes through
* `Effect.Program.Uses` — an assertion true of every call a program can make
* `Effect.watch` — a handler with an observer that cannot interfere

## Main results

* `always_bind`, `always_tryCatch` — the sequencing rules for `Always`
* `Always.exec`, `always_iff_exec` — what it says of a run that is cut short
* `Uses.bind`, `Uses.tryCatch`, `Uses.mem_trace`, `Uses.eval_eq`, `Uses.always_invariant`
* `exec_watch` — watching changes nothing
-/

namespace Effect

/-- A signature: the operations, and the type of what each answers. -/
structure Sig where
  /-- The operations. -/
  Op : Type
  /-- What a successful call answers. -/
  Ans : Op → Type

/-- A program over `S` with exceptions in `ε`. -/
inductive Program (ε : Type) (S : Sig) (α : Type) : Type
  | ret (a : α)
  | raise (e : ε)
  | call (o : S.Op) (k : Except ε (S.Ans o) → Program ε S α)

/-- What each operation answers, and what it does to the state. -/
abbrev Handler (ε : Type) (S : Sig) (σ : Type) : Type :=
  (o : S.Op) → σ → Except ε (S.Ans o) × σ

namespace Program

variable {ε : Type} {S : Sig} {α β σ μ : Type}

/-- Sequencing: an exception skips the continuation. -/
protected def bind : Program ε S α → (α → Program ε S β) → Program ε S β
  | ret a, f => f a
  | raise e, _ => raise e
  | call o k, f => call o fun r => (k r).bind f

/-- `try p except e: c e`. -/
protected def tryCatch : Program ε S α → (ε → Program ε S α) → Program ε S α
  | ret a, _ => ret a
  | raise e, c => c e
  | call o k, c => call o fun r => (k r).tryCatch c

/-- A computation without calls. -/
def ofExcept : Except ε α → Program ε S α
  | .ok a => ret a
  | .error e => raise e

/-- One call. -/
def perform (o : S.Op) : Program ε S (S.Ans o) := call o ofExcept

instance : Monad (Program ε S) where
  pure := ret
  bind := Program.bind

@[simp] theorem pure_eq (a : α) : (pure a : Program ε S α) = ret a := rfl

@[simp] theorem ofExcept_ok (a : α) : (ofExcept (.ok a) : Program ε S α) = ret a := rfl

@[simp] theorem ofExcept_error (e : ε) : (ofExcept (.error e) : Program ε S α) = raise e := rfl

@[simp] theorem ret_bind (a : α) (f : α → Program ε S β) : (ret a >>= f) = f a := rfl

@[simp] theorem raise_bind (e : ε) (f : α → Program ε S β) : (raise e >>= f) = raise e := rfl

@[simp] theorem call_bind (o : S.Op) (k : Except ε (S.Ans o) → Program ε S α)
    (f : α → Program ε S β) : (call o k >>= f) = call o fun r => k r >>= f := rfl

/-! ### Running -/

/-- Run to the end. -/
def eval (h : Handler ε S σ) : Program ε S α → σ → Except ε α × σ
  | ret a, s => (.ok a, s)
  | raise e, s => (.error e, s)
  | call o k, s => eval h (k (h o s).1) (h o s).2

/-- Run for at most `n` calls: what is left of the program, and the state it is left in. -/
def exec (h : Handler ε S σ) : ℕ → Program ε S α → σ → Program ε S α × σ
  | n + 1, call o k, s => exec h n (k (h o s).1) (h o s).2
  | _, p, s => (p, s)

/-- The calls a run to the end makes, in order. -/
def trace (h : Handler ε S σ) : Program ε S α → σ → List S.Op
  | ret _, _ => []
  | raise _, _ => []
  | call o k, s => o :: trace h (k (h o s).1) (h o s).2

variable {h : Handler ε S σ}

@[simp] theorem eval_ret (a : α) (s : σ) : eval h (ret a) s = (.ok a, s) := rfl

@[simp] theorem eval_raise (e : ε) (s : σ) :
    eval h (raise e : Program ε S α) s = (.error e, s) := rfl

@[simp] theorem eval_call (o : S.Op) (k : Except ε (S.Ans o) → Program ε S α) (s : σ) :
    eval h (call o k) s = eval h (k (h o s).1) (h o s).2 := rfl

@[simp] theorem eval_ofExcept (r : Except ε α) (s : σ) :
    eval h (ofExcept r : Program ε S α) s = (r, s) := by
  cases r <;> rfl

@[simp] theorem eval_perform (o : S.Op) (s : σ) : eval h (perform o) s = h o s := by
  simp [perform]

theorem eval_bind (p : Program ε S α) (f : α → Program ε S β) (s : σ) :
    eval h (p >>= f) s = match eval h p s with
      | (.ok a, s') => eval h (f a) s'
      | (.error e, s') => (.error e, s') := by
  induction p generalizing s with
  | ret a => rfl
  | raise e => rfl
  | call o k ih => exact ih _ _

theorem eval_tryCatch (p : Program ε S α) (c : ε → Program ε S α) (s : σ) :
    eval h (p.tryCatch c) s = match eval h p s with
      | (.ok a, s') => (.ok a, s')
      | (.error e, s') => eval h (c e) s' := by
  induction p generalizing s with
  | ret a => rfl
  | raise e => rfl
  | call o k ih => exact ih _ _

/-- Sequencing after a program that returned. -/
theorem eval_bind_of_ok {p : Program ε S α} {f : α → Program ε S β} {s s' : σ} {a : α}
    (hp : eval h p s = (.ok a, s')) : eval h (p >>= f) s = eval h (f a) s' := by
  rw [eval_bind, hp]

/-- Sequencing after a program that raised. -/
theorem eval_bind_of_error {p : Program ε S α} {f : α → Program ε S β} {s s' : σ} {e : ε}
    (hp : eval h p s = (.error e, s')) : eval h (p >>= f) s = (.error e, s') := by
  rw [eval_bind, hp]

/-- A sequence returns when both of its parts do. -/
theorem eval_bind_eq_ok {p : Program ε S α} {f : α → Program ε S β} {s s' : σ} {b : β} :
    eval h (p >>= f) s = (.ok b, s') ↔
      ∃ a s₁, eval h p s = (.ok a, s₁) ∧ eval h (f a) s₁ = (.ok b, s') := by
  constructor
  · intro hb
    rw [eval_bind] at hb
    split at hb
    · next a s₁ hp => exact ⟨a, s₁, hp, hb⟩
    · cases hb
  · rintro ⟨a, s₁, hp, hf⟩
    rw [eval_bind_of_ok hp, hf]

/-- Sequencing after a computation without calls. -/
theorem eval_ofExcept_bind_eq_ok {r : Except ε α} {f : α → Program ε S β} {s s' : σ} {b : β} :
    eval h (ofExcept r >>= f) s = (.ok b, s') ↔ ∃ a, r = .ok a ∧ eval h (f a) s = (.ok b, s') := by
  cases r with
  | ok a => simp [ofExcept]
  | error e => simp [ofExcept]

/-- A guarded program returns when it does, or when its handler does. -/
theorem eval_tryCatch_eq_ok {p : Program ε S α} {c : ε → Program ε S α} {s s' : σ} {a : α} :
    eval h (p.tryCatch c) s = (.ok a, s') ↔
      eval h p s = (.ok a, s') ∨
        ∃ e s₁, eval h p s = (.error e, s₁) ∧ eval h (c e) s₁ = (.ok a, s') := by
  rw [eval_tryCatch]
  rcases hp : eval h p s with ⟨r, s₁⟩
  cases r with
  | ok a' => simp
  | error e => simp

@[simp] theorem trace_ret (a : α) (s : σ) : trace h (ret a) s = [] := rfl

@[simp] theorem trace_raise (e : ε) (s : σ) : trace h (raise e : Program ε S α) s = [] := rfl

@[simp] theorem trace_ofExcept (r : Except ε α) (s : σ) :
    trace h (ofExcept r : Program ε S α) s = [] := by
  cases r <;> rfl

@[simp] theorem trace_perform (o : S.Op) (s : σ) : trace h (perform o) s = [o] := by
  simp [perform, trace]

theorem trace_bind (p : Program ε S α) (f : α → Program ε S β) (s : σ) :
    trace h (p >>= f) s = trace h p s ++ match eval h p s with
      | (.ok a, s') => trace h (f a) s'
      | (.error _, _) => [] := by
  induction p generalizing s with
  | ret a => rfl
  | raise e => rfl
  | call o k ih => exact congrArg (o :: ·) (ih _ _)

/-- The calls of a sequence whose first part returned. -/
theorem trace_bind_of_ok {p : Program ε S α} {f : α → Program ε S β} {s s' : σ} {a : α}
    (hp : eval h p s = (.ok a, s')) :
    trace h (p >>= f) s = trace h p s ++ trace h (f a) s' := by
  rw [trace_bind, hp]

/-! ### Assertions at every state -/

/-- `I` holds at every state that running `p` from `s` passes through, `s` included. -/
def Always (h : Handler ε S σ) (I : σ → Prop) : Program ε S α → σ → Prop
  | ret _, s => I s
  | raise _, s => I s
  | call o k, s => I s ∧ Always h I (k (h o s).1) (h o s).2

variable {I J : σ → Prop}

theorem Always.start {p : Program ε S α} {s : σ} (hp : Always h I p s) : I s := by
  cases p with
  | ret a => exact hp
  | raise e => exact hp
  | call o k => exact hp.1

/-- **Cut runs.** Wherever the run is stopped, the assertion holds. -/
theorem Always.exec {p : Program ε S α} {s : σ} (hp : Always h I p s) (n : ℕ) :
    I (exec h n p s).2 := by
  induction n generalizing p s with
  | zero => cases p <;> exact hp.start
  | succ n ih =>
    cases p with
    | ret a => exact hp
    | raise e => exact hp
    | call o k => exact ih hp.2

/-- A sequence that is cut short in its first part, or in the first `m` calls of the second. -/
theorem Always.exec_bind {p : Program ε S α} {f : α → Program ε S β} {s : σ} {m n : ℕ}
    (hp : Always h I p s)
    (hf : ∀ a s', eval h p s = (.ok a, s') → ∀ k ≤ m, I (Program.exec h k (f a) s').2)
    (hn : n ≤ (trace h p s).length + m) : I (Program.exec h n (p >>= f) s).2 := by
  induction p generalizing s n with
  | ret a => exact hf a s rfl n (by simpa [trace] using hn)
  | raise e => cases n <;> exact hp
  | call o k ih =>
    cases n with
    | zero => exact hp.1
    | succ n =>
      rw [trace, List.length_cons] at hn
      exact ih _ hp.2 hf (by omega)

/-- To hold at every state is to hold wherever a run is stopped. -/
theorem always_iff_exec {p : Program ε S α} {s : σ} :
    Always h I p s ↔ ∀ n, I (exec h n p s).2 := by
  refine ⟨Always.exec, fun hcut => ?_⟩
  induction p generalizing s with
  | ret a => exact hcut 0
  | raise e => exact hcut 0
  | call o k ih => exact ⟨hcut 0, ih _ fun n => hcut (n + 1)⟩

/-- In particular, it holds at the end. -/
theorem Always.eval {p : Program ε S α} {s : σ} (hp : Always h I p s) : I (eval h p s).2 := by
  induction p generalizing s with
  | ret a => exact hp
  | raise e => exact hp
  | call o k ih => exact ih _ hp.2

theorem Always.mono {p : Program ε S α} {s : σ} (hp : Always h I p s) (hIJ : ∀ s, I s → J s) :
    Always h J p s := by
  induction p generalizing s with
  | ret a => exact hIJ s hp
  | raise e => exact hIJ s hp
  | call o k ih => exact ⟨hIJ s hp.1, ih _ hp.2⟩

@[simp] theorem always_ret (a : α) (s : σ) : Always h I (ret a) s ↔ I s := Iff.rfl

@[simp] theorem always_raise (e : ε) (s : σ) :
    Always h I (raise e : Program ε S α) s ↔ I s := Iff.rfl

@[simp] theorem always_ofExcept (r : Except ε α) (s : σ) :
    Always h I (ofExcept r : Program ε S α) s ↔ I s := by
  cases r <;> rfl

@[simp] theorem always_perform (o : S.Op) (s : σ) :
    Always h I (perform o) s ↔ I s ∧ I (h o s).2 := by
  simp [perform, Always]

theorem always_bind {p : Program ε S α} {f : α → Program ε S β} {s : σ} :
    Always h I (p >>= f) s ↔
      Always h I p s ∧ ∀ a s', eval h p s = (.ok a, s') → Always h I (f a) s' := by
  induction p generalizing s with
  | ret a =>
    rw [ret_bind, always_ret]
    refine ⟨fun hf => ⟨hf.start, fun b s' he => ?_⟩, fun hf => hf.2 a s rfl⟩
    obtain ⟨⟨⟩, rfl⟩ := Prod.mk.inj he
    exact hf
  | raise e =>
    rw [raise_bind, always_raise, always_raise]
    exact ⟨fun hs => ⟨hs, fun a s' he => nomatch (Prod.mk.inj he).1⟩, And.left⟩
  | call o k ih =>
    rw [call_bind, Always, Always, ih, and_assoc]
    exact Iff.rfl

theorem always_tryCatch {p : Program ε S α} {c : ε → Program ε S α} {s : σ} :
    Always h I (p.tryCatch c) s ↔
      Always h I p s ∧ ∀ e s', eval h p s = (.error e, s') → Always h I (c e) s' := by
  induction p generalizing s with
  | ret a => exact ⟨fun hs => ⟨hs, fun e s' he => nomatch (Prod.mk.inj he).1⟩, And.left⟩
  | raise e =>
    refine ⟨fun hc => ⟨hc.start, fun b s' he => ?_⟩, fun hc => hc.2 e s rfl⟩
    obtain ⟨⟨⟩, rfl⟩ := Prod.mk.inj he
    exact hc
  | call o k ih =>
    rw [Program.tryCatch, Always, Always, ih, and_assoc]
    exact Iff.rfl

/-! ### Assertions about every call -/

/-- Every call `p` can make satisfies `Q`, when calls are answered only as `A` allows. -/
def Uses (A : (o : S.Op) → Except ε (S.Ans o) → Prop) (Q : S.Op → Prop) : Program ε S α → Prop
  | ret _ => True
  | raise _ => True
  | call o k => Q o ∧ ∀ r, A o r → Uses A Q (k r)

variable {A : (o : S.Op) → Except ε (S.Ans o) → Prop} {Q : S.Op → Prop}

/-- Fewer answers, more calls. -/
theorem Uses.mono {A' : (o : S.Op) → Except ε (S.Ans o) → Prop} {Q' : S.Op → Prop}
    {p : Program ε S α} (hp : Uses A Q p) (hA : ∀ o r, A' o r → A o r) (hQ : ∀ o, Q o → Q' o) :
    Uses A' Q' p := by
  induction p with
  | ret a => trivial
  | raise e => trivial
  | call o k ih => exact ⟨hQ o hp.1, fun r hr => ih r (hp.2 r (hA o r hr))⟩

theorem uses_ofExcept (r : Except ε α) : Uses A Q (ofExcept r : Program ε S α) := by
  cases r <;> trivial

theorem uses_perform {o : S.Op} (ho : Q o) : Uses A Q (perform o : Program ε S (S.Ans o)) :=
  ⟨ho, fun r _ => uses_ofExcept r⟩

theorem Uses.bind {p : Program ε S α} {f : α → Program ε S β} (hp : Uses A Q p)
    (hf : ∀ a, Uses A Q (f a)) : Uses A Q (p >>= f) := by
  induction p with
  | ret a => exact hf a
  | raise e => trivial
  | call o k ih => exact ⟨hp.1, fun r hr => ih r (hp.2 r hr)⟩

/-- Sequencing after one call, which is where the answers that `A` allows are used. -/
theorem uses_perform_bind {o : S.Op} {f : S.Ans o → Program ε S β} (ho : Q o)
    (hf : ∀ a, A o (.ok a) → Uses A Q (f a)) : Uses A Q (perform o >>= f) := by
  refine ⟨ho, fun r hr => ?_⟩
  cases r with
  | ok a => exact hf a hr
  | error e => trivial

theorem uses_ofExcept_bind {r : Except ε α} {f : α → Program ε S β}
    (hf : ∀ a, r = .ok a → Uses A Q (f a)) : Uses A Q (ofExcept r >>= f) := by
  cases r with
  | ok a => exact hf a rfl
  | error e => trivial

theorem Uses.tryCatch {p : Program ε S α} {c : ε → Program ε S α} (hp : Uses A Q p)
    (hc : ∀ e, Uses A Q (c e)) : Uses A Q (p.tryCatch c) := by
  induction p with
  | ret a => trivial
  | raise e => exact hc e
  | call o k ih => exact ⟨hp.1, fun r hr => ih r (hp.2 r hr)⟩

theorem Uses.mem_trace {p : Program ε S α} (hp : Uses A Q p) (hA : ∀ o s, A o (h o s).1) {s : σ} :
    ∀ o ∈ trace h p s, Q o := by
  induction p generalizing s with
  | ret a => simp
  | raise e => simp
  | call o k ih =>
    intro o' ho'
    rcases List.mem_cons.mp ho' with rfl | ho'
    · exact hp.1
    · exact ih _ (hp.2 _ (hA o s)) o' ho'

/-- A program whose every call leaves the state alone leaves the state alone. -/
theorem Uses.eval_eq {p : Program ε S α} (hp : Uses (fun _ _ => True) Q p)
    (hQ : ∀ o s, Q o → (h o s).2 = s) (s : σ) : (eval h p s).2 = s := by
  induction p generalizing s with
  | ret a => rfl
  | raise e => rfl
  | call o k ih => rw [eval_call, hQ o s hp.1]; exact ih _ (hp.2 _ trivial) s

/-- A program whose every call keeps an invariant keeps it all the time. -/
theorem Uses.always_invariant {p : Program ε S α} (hp : Uses (fun _ _ => True) Q p)
    (hQ : ∀ o s, Q o → I s → I (h o s).2) {s : σ} (hs : I s) : Always h I p s := by
  induction p generalizing s with
  | ret a => exact hs
  | raise e => exact hs
  | call o k ih => exact ⟨hs, ih _ (hp.2 _ trivial) (hQ o s hp.1 hs)⟩

/-- In particular, it keeps it to the end. -/
theorem Uses.invariant {p : Program ε S α} (hp : Uses (fun _ _ => True) Q p)
    (hQ : ∀ o s, Q o → I s → I (h o s).2) {s : σ} (hs : I s) : I (eval h p s).2 :=
  (hp.always_invariant hQ hs).eval

/-- A program whose every call leaves the state alone passes through no other. -/
theorem Uses.always {p : Program ε S α} (hp : Uses (fun _ _ => True) Q p)
    (hQ : ∀ o s, Q o → (h o s).2 = s) {s : σ} (hs : I s) : Always h I p s := by
  induction p with
  | ret a => exact hs
  | raise e => exact hs
  | call o k ih =>
    refine ⟨hs, ?_⟩
    rw [hQ o s hp.1]
    exact ih _ (hp.2 _ trivial)

end Program

/-! ### Observers -/

section Watch

variable {ε : Type} {S : Sig} {α σ μ : Type}

/-- `h` with an observer: `note` sees each call, whether it succeeded, and the states around it. -/
def watch (h : Handler ε S σ) (note : S.Op → Bool → σ → σ → μ → μ) : Handler ε S (σ × μ) :=
  fun o s => ((h o s.1).1, (h o s.1).2, note o (h o s.1).1.isOk s.1 (h o s.1).2 s.2)

variable {h : Handler ε S σ} {note : S.Op → Bool → σ → σ → μ → μ}

@[simp] theorem watch_fst (o : S.Op) (s : σ × μ) : (watch h note o s).1 = (h o s.1).1 := rfl

@[simp] theorem watch_snd (o : S.Op) (s : σ × μ) :
    (watch h note o s).2 =
      ((h o s.1).2, note o (h o s.1).1.isOk s.1 (h o s.1).2 s.2) := rfl

/-- **Watching changes nothing.** -/
theorem exec_watch (h : Handler ε S σ) (note : S.Op → Bool → σ → σ → μ → μ) (n : ℕ)
    (p : Program ε S α) (s : σ) (m : μ) :
    ((Program.exec (watch h note) n p (s, m)).1, (Program.exec (watch h note) n p (s, m)).2.1)
      = Program.exec h n p s := by
  induction n generalizing p s m with
  | zero => cases p <;> rfl
  | succ n ih =>
    cases p with
    | ret a => rfl
    | raise e => rfl
    | call o k => exact ih _ _ _

theorem eval_watch (h : Handler ε S σ) (note : S.Op → Bool → σ → σ → μ → μ)
    (p : Program ε S α) (s : σ) (m : μ) :
    ((Program.eval (watch h note) p (s, m)).1, (Program.eval (watch h note) p (s, m)).2.1)
      = Program.eval h p s := by
  induction p generalizing s m with
  | ret a => rfl
  | raise e => rfl
  | call o k ih => exact ih _ _ _

/-- A program whose calls neither change the state nor concern the observer. -/
theorem Program.Uses.eval_watch {Q : S.Op → Prop} {p : Program ε S α}
    (hp : p.Uses (fun _ _ => True) Q) (hQ : ∀ o s, Q o → (h o s).2 = s)
    (hnote : ∀ o b s m, Q o → note o b s s m = m) (s : σ) (m : μ) :
    Program.eval (watch h note) p (s, m) = ((Program.eval h p s).1, s, m) := by
  have hsnd : (Program.eval (watch h note) p (s, m)).2 = (s, m) := by
    refine hp.eval_eq (fun o s' ho => ?_) (s, m)
    rw [watch_snd, hQ o s'.1 ho, hnote o _ _ _ ho]
  have hfst := congrArg Prod.fst (Effect.eval_watch h note p s m)
  exact Prod.ext hfst hsnd

end Watch

end Effect
