import NextepAgent.Effect.Dialogue
import NextepAgent.Effect.Interleaving

/-!
# Dialogues of programs running side by side

A rule that a program keeps whatever it is told is kept under every schedule too: what the other
programs do in between shows only in the answers, and the rule is about all of them.

## Main definitions

* `Effect.Pool.transcript` — who asked what, and was told what
* `Effect.own` — the dialogue of one thread
* `Effect.Pool.Keeping` — every thread keeps its rule from here on

## Main results

* `Pool.Keeping.transcript`, `Pool.Keeping.ended` — every thread keeps its rule
-/

namespace Effect

variable {ε : Type} {S : Sig} {α ι σ : Type}

/-- The exchanges of one thread, in order. -/
def own [DecidableEq ι] (i : ι) (t : List (ι × Exchange ε S)) : List (Exchange ε S) :=
  t.filterMap fun x => if x.1 = i then some x.2 else none

section Own

variable [DecidableEq ι] {i j : ι} {x : Exchange ε S} {t t' : List (ι × Exchange ε S)}

@[simp] theorem own_nil : own i ([] : List (ι × Exchange ε S)) = [] := rfl

@[simp] theorem own_cons_self : own i ((i, x) :: t) = x :: own i t := by simp [own]

theorem own_cons_of_ne (h : j ≠ i) : own i ((j, x) :: t) = own i t := by simp [own, h]

@[simp] theorem own_append : own i (t ++ t') = own i t ++ own i t' := List.filterMap_append

end Own

namespace Pool

variable [DecidableEq ι] {h : ι → Handler ε S σ}

/-- The exchange that a thread makes next. -/
def say (h : ι → Handler ε S σ) (P : Pool ε S α ι σ) (i : ι) : List (ι × Exchange ε S) :=
  match P.prog i with
  | .call o _ => [(i, ⟨o, (h i o P.state).1⟩)]
  | _ => []

/-- The exchanges of a schedule, in order. -/
def transcript (h : ι → Handler ε S σ) : Pool ε S α ι σ → List ι → List (ι × Exchange ε S)
  | _, [] => []
  | P, i :: sched => say h P i ++ transcript h (step h P i) sched

omit [DecidableEq ι] in
theorem say_of_call {P : Pool ε S α ι σ} {i : ι} {o : S.Op}
    {k : Except ε (S.Ans o) → Program ε S α} (hi : P.prog i = .call o k) :
    say h P i = [(i, ⟨o, (h i o P.state).1⟩)] := by
  simp only [say, hi]

omit [DecidableEq ι] in
theorem say_of_done {P : Pool ε S α ι σ} {i : ι} (hi : ∀ o k, P.prog i ≠ .call o k) :
    say h P i = [] := by
  rw [say]
  split
  · next hcall => exact absurd hcall (hi _ _)
  · rfl

/-- One schedule after another. -/
theorem transcript_append (P : Pool ε S α ι σ) (sched sched' : List ι) :
    transcript h P (sched ++ sched') = transcript h P sched ++ transcript h (run h P sched) sched' := by
  induction sched generalizing P with
  | nil => rfl
  | cons i sched ih =>
    rw [List.cons_append, transcript, transcript, ih, List.append_assoc]
    rfl

variable {may : ι → List (Exchange ε S) → S.Op → Prop}
  {post : ι → List (Exchange ε S) → Except ε α → Prop}

/-- Every thread keeps its rule, after the exchanges it has had. -/
def Keeping (may : ι → List (Exchange ε S) → S.Op → Prop)
    (post : ι → List (Exchange ε S) → Except ε α → Prop) (before : List (ι × Exchange ε S))
    (P : Pool ε S α ι σ) : Prop :=
  ∀ i, (P.prog i).Keeps (may i) (post i) (own i before)

/-- One call of one thread. -/
theorem Keeping.step {before : List (ι × Exchange ε S)} {P : Pool ε S α ι σ}
    (hP : Keeping may post before P) (i : ι) :
    Keeping may post (before ++ say h P i) (step h P i) := by
  intro j
  cases hp : P.prog i with
  | call o k =>
    rw [say_of_call hp, own_append]
    by_cases hj : j = i
    · subst hj
      have hkeeps := hP j
      rw [hp] at hkeeps
      rw [step_prog_self hp, own_cons_self]
      exact hkeeps.2 _
    · rw [step_prog_of_ne hj, own_cons_of_ne (Ne.symm hj), own_nil, List.append_nil]
      exact hP j
  | ret a =>
    rw [say_of_done (by simp [hp]), (step_of_done (by simp [hp])).1, List.append_nil]
    exact hP j
  | raise e =>
    rw [say_of_done (by simp [hp]), (step_of_done (by simp [hp])).1, List.append_nil]
    exact hP j

/-- A whole schedule. -/
theorem Keeping.run {before : List (ι × Exchange ε S)} {P : Pool ε S α ι σ}
    (hP : Keeping may post before P) (sched : List ι) :
    Keeping may post (before ++ transcript h P sched) (run h P sched) := by
  induction sched generalizing before P with
  | nil =>
    rw [transcript, List.append_nil]
    exact hP
  | cons i sched ih =>
    rw [transcript, ← List.append_assoc]
    exact ih (hP.step i)

/-- **Every thread keeps its rule** at each of its calls, whatever the schedule. -/
theorem Keeping.transcript {before : List (ι × Exchange ε S)} {P : Pool ε S α ι σ}
    (hP : Keeping may post before P) {sched : List ι} {t t' : List (ι × Exchange ε S)} {i : ι}
    {x : Exchange ε S} (hsplit : transcript h P sched = t ++ (i, x) :: t') :
    may i (own i (before ++ t)) x.op := by
  induction sched generalizing before P t with
  | nil => exact absurd hsplit (by simp [Pool.transcript])
  | cons j sched ih =>
    rw [Pool.transcript] at hsplit
    cases hp : P.prog j with
    | call o k =>
      rw [say_of_call hp, List.singleton_append] at hsplit
      cases t with
      | nil =>
        obtain ⟨hx, -⟩ := List.cons.inj hsplit
        obtain ⟨rfl, rfl⟩ := Prod.mk.inj hx
        have hkeeps := hP j
        rw [hp] at hkeeps
        rw [List.append_nil]
        exact hkeeps.1
      | cons y t =>
        obtain ⟨rfl, htail⟩ := List.cons.inj hsplit
        have hrest := ih (hP.step j) htail
        rw [say_of_call hp, List.append_assoc] at hrest
        exact hrest
    | ret a =>
      rw [say_of_done (by simp [hp]), List.nil_append, (step_of_done (by simp [hp])).1] at hsplit
      exact ih hP hsplit
    | raise e =>
      rw [say_of_done (by simp [hp]), List.nil_append, (step_of_done (by simp [hp])).1] at hsplit
      exact ih hP hsplit

/-- And to the end, if it gets there. -/
theorem Keeping.ended {P : Pool ε S α ι σ} (hP : Keeping may post [] P) {sched : List ι} {i : ι}
    {r : Except ε α} (hr : (Pool.run h P sched).prog i = Program.ofExcept r) :
    post i (own i (Pool.transcript h P sched)) r := by
  have hend := hP.run (h := h) sched i
  rw [hr, List.nil_append] at hend
  cases r <;> exact hend

end Pool

end Effect
