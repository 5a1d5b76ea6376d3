import NextepAgent.Effect.Program

/-!
# Programs that implement operations

An operation of one level is a program of the level below. Replacing every call by the program that
implements it turns a program of the upper level into one of the lower level, which can be stopped
in the middle of an operation.

Run to the end, nothing is gained: the lower program answers and leaves what the upper one does
against the handler that runs each implementation in one go. So what is known of the upper program
against *every* handler is known of the lower one, and the levels can be verified one at a time.

## Main definitions

* `Effect.Program.resume` — going on with whatever a program ends with
* `Effect.Program.Ends` — an assertion about what a program ends with
* `Effect.Program.translate` — calls replaced by programs
* `Effect.implement` — the handler that runs each implementation in one go

## Main results

* `Program.eval_translate` — the two levels agree
* `Program.Uses.translate` — the calls of the lower level
* `Program.always_translate` — an invariant, in the middle of operations too
* `Program.foldl_trace` — what a run leaves, call by call
-/

namespace Effect

variable {ε : Type} {S T : Sig} {α β σ τ : Type}

namespace Program

/-! ### Going on -/

/-- Go on with whatever `p` ends with, a result or an exception. -/
def resume : Program ε S α → (Except ε α → Program ε S β) → Program ε S β
  | ret a, f => f (.ok a)
  | raise e, f => f (.error e)
  | call o k, f => call o fun r => (k r).resume f

theorem resume_bind {γ : Type} (p : Program ε S α) (f : Except ε α → Program ε S β)
    (g : β → Program ε S γ) : (p.resume f >>= g) = p.resume fun r => f r >>= g := by
  induction p with
  | ret a => rfl
  | raise e => rfl
  | call o k ih => exact congrArg (call o) (funext fun r => ih r)

theorem perform_resume (o : S.Op) (f : Except ε (S.Ans o) → Program ε S β) :
    (perform o).resume f = call o f :=
  congrArg (call o) (funext fun r => by cases r <;> rfl)

theorem resume_ofExcept (p : Program ε S α) : p.resume ofExcept = p := by
  induction p with
  | ret a => rfl
  | raise e => rfl
  | call o k ih => exact congrArg (call o) (funext fun r => ih r)

variable {h : Handler ε S σ} {I : σ → Prop}

theorem eval_resume (p : Program ε S α) (f : Except ε α → Program ε S β) (s : σ) :
    eval h (p.resume f) s = eval h (f (eval h p s).1) (eval h p s).2 := by
  induction p generalizing s with
  | ret a => rfl
  | raise e => rfl
  | call o k ih => exact ih _ _

theorem trace_resume (p : Program ε S α) (f : Except ε α → Program ε S β) (s : σ) :
    trace h (p.resume f) s = trace h p s ++ trace h (f (eval h p s).1) (eval h p s).2 := by
  induction p generalizing s with
  | ret a => rfl
  | raise e => rfl
  | call o k ih => exact congrArg (o :: ·) (ih _ _)

theorem always_resume {p : Program ε S α} {f : Except ε α → Program ε S β} {s : σ} :
    Always h I (p.resume f) s ↔
      Always h I p s ∧ Always h I (f (eval h p s).1) (eval h p s).2 := by
  induction p generalizing s with
  | ret a => exact ⟨fun hf => ⟨hf.start, hf⟩, And.right⟩
  | raise e => exact ⟨fun hf => ⟨hf.start, hf⟩, And.right⟩
  | call o k ih =>
    rw [resume, Always, Always, ih, and_assoc]
    exact Iff.rfl

/-- `try p finally q`: what `p` ends with, unless `q` raises. -/
def withFinally (p : Program ε S α) (q : Program ε S Unit) : Program ε S α :=
  p.resume fun r => q >>= fun _ => ofExcept r

/-- What `p` ends with satisfies `post`, when calls are answered only as `A` allows. -/
def Ends (A : (o : S.Op) → Except ε (S.Ans o) → Prop) (post : Except ε α → Prop) :
    Program ε S α → Prop
  | ret a => post (.ok a)
  | raise e => post (.error e)
  | call o k => ∀ r, A o r → Ends A post (k r)

variable {A : (o : S.Op) → Except ε (S.Ans o) → Prop} {Q : S.Op → Prop}

theorem ends_ofExcept {post : Except ε α → Prop} {r : Except ε α} (hr : post r) :
    Ends A post (ofExcept r : Program ε S α) := by
  cases r <;> exact hr

theorem ends_perform (o : S.Op) : Ends A (A o) (perform o : Program ε S (S.Ans o)) :=
  fun _ hr => ends_ofExcept hr

theorem ends_of_forall {post : Except ε α → Prop} (hpost : ∀ r, post r) (p : Program ε S α) :
    Ends A post p := by
  induction p with
  | ret a => exact hpost _
  | raise e => exact hpost _
  | call o k ih => exact fun r _ => ih r

theorem Uses.resume {post : Except ε α → Prop} {p : Program ε S α}
    {f : Except ε α → Program ε S β} (hp : Uses A Q p) (hpost : Ends A post p)
    (hf : ∀ r, post r → Uses A Q (f r)) : Uses A Q (p.resume f) := by
  induction p with
  | ret a => exact hf _ hpost
  | raise e => exact hf _ hpost
  | call o k ih => exact ⟨hp.1, fun r hr => ih r (hp.2 r hr) (hpost r hr)⟩

/-! ### Translation -/

/-- Every call replaced by the program that implements it. -/
def translate (f : (o : S.Op) → Program ε T (S.Ans o)) : Program ε S α → Program ε T α
  | ret a => ret a
  | raise e => raise e
  | call o k => (f o).resume fun r => translate f (k r)

variable {f : (o : S.Op) → Program ε T (S.Ans o)}

@[simp] theorem translate_ret (a : α) : (ret a : Program ε S α).translate f = ret a := rfl

@[simp] theorem translate_raise (e : ε) : (raise e : Program ε S α).translate f = raise e := rfl

theorem translate_call (o : S.Op) (k : Except ε (S.Ans o) → Program ε S α) :
    (call o k).translate f = (f o).resume fun r => (k r).translate f := rfl

@[simp] theorem translate_ofExcept (r : Except ε α) :
    (ofExcept r : Program ε S α).translate f = ofExcept r := by
  cases r <;> rfl

theorem translate_perform (o : S.Op) : (perform o).translate f = f o :=
  (congrArg (resume (f o)) (funext fun r => translate_ofExcept r)).trans (resume_ofExcept _)

theorem translate_bind (p : Program ε S α) (g : α → Program ε S β) :
    (p >>= g).translate f = p.translate f >>= fun a => (g a).translate f := by
  induction p with
  | ret a => rfl
  | raise e => rfl
  | call o k ih =>
    rw [call_bind, translate_call, translate_call, resume_bind]
    exact congrArg (resume (f o)) (funext fun r => ih r)

end Program

/-- Each implementation run in one go. -/
def implement (f : (o : S.Op) → Program ε T (S.Ans o)) (h : Handler ε T σ) : Handler ε S σ :=
  fun o s => Program.eval h (f o) s

namespace Program

variable {f : (o : S.Op) → Program ε T (S.Ans o)} {h : Handler ε T σ} {I : σ → Prop}

/-- **The two levels agree.** -/
theorem eval_translate (p : Program ε S α) (s : σ) :
    eval h (p.translate f) s = eval (implement f h) p s := by
  induction p generalizing s with
  | ret a => rfl
  | raise e => rfl
  | call o k ih =>
    rw [translate_call, eval_resume, ih]
    rfl

/-- **The calls of the lower level** are those of the implementations. What these end with, when the
lower calls are answered as `A'` allows, is how the upper calls are answered. -/
theorem Uses.translate {A : (o : S.Op) → Except ε (S.Ans o) → Prop}
    {A' : (o : T.Op) → Except ε (T.Ans o) → Prop} {Q : S.Op → Prop} {Q' : T.Op → Prop}
    {p : Program ε S α} (hp : p.Uses A Q)
    (hf : ∀ o, Q o → (f o).Uses A' Q' ∧ (f o).Ends A' (A o)) : (p.translate f).Uses A' Q' := by
  induction p with
  | ret a => trivial
  | raise e => trivial
  | call o k ih =>
    obtain ⟨huses, hends⟩ := hf o hp.1
    exact huses.resume hends fun r hr => ih r (hp.2 r hr)

/-- **An invariant of the implementations** of the calls that are made is one of the lower program, and
holds in the middle of operations too. -/
theorem always_translate {p : Program ε S α} {s : σ}
    (hI : ∀ o ∈ trace (implement f h) p s, ∀ s', I s' → Always h I (f o) s') (hs : I s) :
    Always h I (p.translate f) s := by
  induction p generalizing s with
  | ret a => exact hs
  | raise e => exact hs
  | call o k ih =>
    have ho : Always h I (f o) s := hI o List.mem_cons_self s hs
    exact always_resume.mpr
      ⟨ho, ih _ (fun o' ho' => hI o' (List.mem_cons_of_mem _ ho')) ho.eval⟩

/-- What a run leaves is what its calls leave, one after another, in any account of them that every
call keeps. -/
theorem foldl_trace {h : Handler ε S σ} {R : σ → τ → Prop} {act : τ → S.Op → τ}
    {p : Program ε S α} {s : σ} {t : τ}
    (hR : ∀ o ∈ trace h p s, ∀ s' t', R s' t' → R (h o s').2 (act t' o)) (hst : R s t) :
    R (eval h p s).2 ((trace h p s).foldl act t) := by
  induction p generalizing s t with
  | ret a => exact hst
  | raise e => exact hst
  | call o k ih =>
    exact ih _ (fun o' ho' => hR o' (List.mem_cons_of_mem _ ho'))
      (hR o List.mem_cons_self s t hst)

end Program

end Effect
