import NextepAgent.Effect.Translate

/-!
# Dialogues

What a program asks, and what it is told, call by call. What it may ask often depends on what it was
told: a session is closed that was opened, a message is signed with the key that was read.

`Keeps` is such a rule for one program and for every environment at once, since it quantifies over
the answers and mentions no handler. A call may be judged by all exchanges before it, the end of the
program by all of them.

## Main definitions

* `Effect.Exchange`, `Effect.Program.dialogue` — calls with what they came back with
* `Effect.Answered` — an answer that was given
* `Effect.InTurn` — calls in a given order, up to the first that fails
* `Effect.Program.Keeps` — a rule for calls, and for the end

## Main results

* `keeps_perform_bind`, `Keeps.bind`, `Keeps.resume` — the sequencing rules
* `Keeps.eval`, `Keeps.dialogue` — what it says of a run
-/

namespace Effect

variable {ε : Type} {S : Sig} {α β σ : Type}

/-- A call, and what it came back with. -/
structure Exchange (ε : Type) (S : Sig) where
  op : S.Op
  ans : Except ε (S.Ans op)

/-- The call was made and has returned this. -/
def Answered (log : List (Exchange ε S)) (o : S.Op) (a : S.Ans o) : Prop := ⟨o, .ok a⟩ ∈ log

theorem Answered.mono {log log' : List (Exchange ε S)} {o : S.Op} {a : S.Ans o}
    (h : Answered log o a) (hmore : log <+: log') : Answered log' o a :=
  hmore.subset h

theorem answered_last (log : List (Exchange ε S)) (o : S.Op) (a : S.Ans o) :
    Answered (log ++ [⟨o, .ok a⟩]) o a :=
  List.mem_append_right _ (List.mem_singleton_self _)

/-- These calls have been made, one after the other, up to the first that has failed. -/
inductive InTurn : List S.Op → List (Exchange ε S) → Prop
  | done : InTurn [] []
  | next {o : S.Op} {a : S.Ans o} {ops : List S.Op} {log : List (Exchange ε S)}
    (h : InTurn ops log) : InTurn (o :: ops) (⟨o, .ok a⟩ :: log)
  | failed {o : S.Op} {e : ε} {ops : List S.Op} : InTurn (o :: ops) [⟨o, .error e⟩]

namespace Program

/-- The dialogue of a run, in order. -/
def dialogue (h : Handler ε S σ) : Program ε S α → σ → List (Exchange ε S)
  | ret _, _ => []
  | raise _, _ => []
  | call o k, s => ⟨o, (h o s).1⟩ :: dialogue h (k (h o s).1) (h o s).2

/-- After the exchanges in `log`, the program makes only calls that `may` allows then, and what it
ends with is as `post` says of all exchanges. -/
def Keeps (may : List (Exchange ε S) → S.Op → Prop)
    (post : List (Exchange ε S) → Except ε α → Prop) :
    List (Exchange ε S) → Program ε S α → Prop
  | log, ret a => post log (.ok a)
  | log, raise e => post log (.error e)
  | log, call o k => may log o ∧ ∀ r, Keeps may post (log ++ [⟨o, r⟩]) (k r)

variable {h : Handler ε S σ} {may : List (Exchange ε S) → S.Op → Prop}
  {post : List (Exchange ε S) → Except ε α → Prop} {post' : List (Exchange ε S) → Except ε β → Prop}
  {log : List (Exchange ε S)} {p : Program ε S α} {s : σ}

/-! ### The rules -/

theorem keeps_ofExcept {r : Except ε α} (hr : post log r) :
    Keeps may post log (ofExcept r) := by
  cases r <;> exact hr

theorem Keeps.imp {may' : List (Exchange ε S) → S.Op → Prop}
    {post' : List (Exchange ε S) → Except ε α → Prop} (hp : Keeps may post log p)
    (hmay : ∀ log o, may log o → may' log o) (hpost : ∀ log r, post log r → post' log r) :
    Keeps may' post' log p := by
  induction p generalizing log with
  | ret a => exact hpost _ _ hp
  | raise e => exact hpost _ _ hp
  | call o k ih => exact ⟨hmay _ _ hp.1, fun r => ih r (hp.2 r)⟩

theorem Keeps.mono {post' : List (Exchange ε S) → Except ε α → Prop} (hp : Keeps may post log p)
    (hpost : ∀ log r, post log r → post' log r) : Keeps may post' log p :=
  hp.imp (fun _ _ h => h) hpost

theorem Keeps.and {may' : List (Exchange ε S) → S.Op → Prop}
    {post' : List (Exchange ε S) → Except ε α → Prop} (hp : Keeps may post log p)
    (hp' : Keeps may' post' log p) :
    Keeps (fun log o => may log o ∧ may' log o) (fun log r => post log r ∧ post' log r) log p := by
  induction p generalizing log with
  | ret a => exact ⟨hp, hp'⟩
  | raise e => exact ⟨hp, hp'⟩
  | call o k ih => exact ⟨⟨hp.1, hp'.1⟩, fun r => ih r (hp.2 r) (hp'.2 r)⟩

/-- A program without calls that the rule is about. -/
theorem Uses.keeps {Q : S.Op → Prop} (hp : p.Uses (fun _ _ => True) Q)
    (hmay : ∀ log o, Q o → may log o) : Keeps may (fun _ _ => True) log p := by
  induction p generalizing log with
  | ret a => trivial
  | raise e => trivial
  | call o k ih => exact ⟨hmay _ _ hp.1, fun r => ih r (hp.2 r trivial)⟩

/-- Going on with whatever the first program ends with. -/
theorem Keeps.resume {f : Except ε α → Program ε S β} (hp : Keeps may post log p)
    (hf : ∀ log r, post log r → Keeps may post' log (f r)) :
    Keeps may post' log (p.resume f) := by
  induction p generalizing log with
  | ret a => exact hf _ _ hp
  | raise e => exact hf _ _ hp
  | call o k ih => exact ⟨hp.1, fun r => ih r (hp.2 r)⟩

theorem Keeps.bind {f : α → Program ε S β} (hp : Keeps may post log p)
    (hf : ∀ log a, post log (.ok a) → Keeps may post' log (f a))
    (herror : ∀ log e, post log (.error e) → post' log (.error e)) :
    Keeps may post' log (p >>= f) := by
  induction p generalizing log with
  | ret a => exact hf _ _ hp
  | raise e => exact herror _ _ hp
  | call o k ih => exact ⟨hp.1, fun r => ih r (hp.2 r)⟩

/-- A guarded program. -/
theorem Keeps.tryCatch {post' : List (Exchange ε S) → Except ε α → Prop} {c : ε → Program ε S α}
    (hp : Keeps may post log p) (hok : ∀ log a, post log (.ok a) → post' log (.ok a))
    (herror : ∀ log e, post log (.error e) → Keeps may post' log (c e)) :
    Keeps may post' log (p.tryCatch c) := by
  induction p generalizing log with
  | ret a => exact hok _ _ hp
  | raise e => exact herror _ _ hp
  | call o k ih => exact ⟨hp.1, fun r => ih r (hp.2 r)⟩

theorem keeps_perform {o : S.Op} {post : List (Exchange ε S) → Except ε (S.Ans o) → Prop}
    (ho : may log o) (hpost : ∀ r, post (log ++ [⟨o, r⟩]) r) : Keeps may post log (perform o) :=
  ⟨ho, fun r => keeps_ofExcept (hpost r)⟩

/-- A call first. -/
theorem keeps_perform_bind {o : S.Op} {f : S.Ans o → Program ε S β} (ho : may log o)
    (hok : ∀ a, Keeps may post' (log ++ [⟨o, .ok a⟩]) (f a))
    (herror : ∀ e, post' (log ++ [⟨o, .error e⟩]) (.error e)) :
    Keeps may post' log (perform o >>= f) := by
  refine ⟨ho, fun r => ?_⟩
  cases r with
  | ok a => exact hok a
  | error e => exact herror e

/-- A computation without calls first. -/
theorem keeps_ofExcept_bind {r : Except ε α} {f : α → Program ε S β}
    (hok : ∀ a, r = .ok a → Keeps may post' log (f a))
    (herror : ∀ e, r = .error e → post' log (.error e)) :
    Keeps may post' log (ofExcept r >>= f) := by
  cases r with
  | ok a => exact hok a rfl
  | error e => exact herror e rfl

/-! ### Runs -/

/-- **At the end.** -/
theorem Keeps.eval (hp : Keeps may post log p) :
    post (log ++ dialogue h p s) (eval h p s).1 := by
  induction p generalizing log s with
  | ret a => exact (List.append_nil log).symm ▸ hp
  | raise e => exact (List.append_nil log).symm ▸ hp
  | call o k ih =>
    have hrest := ih _ (hp.2 (h o s).1) (s := (h o s).2)
    rw [List.append_assoc] at hrest
    exact hrest

/-- **At every call.** -/
theorem Keeps.dialogue (hp : Keeps may post log p) {before : List (Exchange ε S)}
    {x : Exchange ε S} {after : List (Exchange ε S)}
    (hsplit : dialogue h p s = before ++ x :: after) : may (log ++ before) x.op := by
  induction p generalizing log s before with
  | ret a => exact absurd hsplit (by simp [Program.dialogue])
  | raise e => exact absurd hsplit (by simp [Program.dialogue])
  | call o k ih =>
    cases before with
    | nil =>
      obtain ⟨rfl, -⟩ := List.cons.inj hsplit
      exact (List.append_nil log).symm ▸ hp.1
    | cons y before =>
      obtain ⟨rfl, htail⟩ := List.cons.inj hsplit
      have hrest := ih _ (hp.2 (h o s).1) htail
      rw [List.append_assoc] at hrest
      exact hrest

end Program

end Effect
