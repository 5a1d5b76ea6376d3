import NextepAgent.Effect.Program
import Mathlib.Logic.Function.Basic

/-!
# Programs running side by side

Several programs share one state, and a schedule says whose call comes next. Calls are atomic:
between two calls of one program any number of calls of the others may fall.

## Registers

Most questions about unlocked programs are questions about a *register*: a part of the state that
some calls overwrite and no other call touches. What a register holds at the end is what the last
successful overwriting call put there, whoever made it. `lastWrite` reads that call off the log and
`register_run` says so. Whether two registers end up consistent is then a question about two log
entries, with no state left in it.

## Main definitions

* `Effect.Pool`, `Pool.run`, `Pool.log` — programs side by side, a schedule run, the calls it made
* `Effect.lastWrite` — the last call in a log that overwrote a register
* `Effect.Program.Strict` — a program that lets the failure of certain calls escape
* `Effect.Program.Reaches` — a program that cannot end without a certain call

## Main results

* `Pool.mem_log_uses` — a call in the log is one its own program could make
* `Pool.ok_of_strict` — if a program has returned, those calls of it have succeeded
* `Pool.exists_mem_log` — if a program has returned, the call it cannot end without is in the log
* `Pool.register_run` — a register holds what was last written to it
-/

namespace Effect

variable {ε : Type} {S : Sig} {α β ι σ : Type}

/-- Programs side by side, one for each thread, over a shared state. -/
structure Pool (ε : Type) (S : Sig) (α ι σ : Type) where
  /-- What is left of each thread. -/
  prog : ι → Program ε S α
  /-- The shared state. -/
  state : σ

/-- A call as the log has it. -/
structure Entry (S : Sig) (ι : Type) where
  /-- Who made the call. -/
  thread : ι
  /-- The call. -/
  op : S.Op
  /-- Whether it succeeded. -/
  ok : Bool

namespace Pool

variable [DecidableEq ι]

/-- Thread `i` makes its next call. A finished thread has none to make. -/
def step (h : ι → Handler ε S σ) (P : Pool ε S α ι σ) (i : ι) : Pool ε S α ι σ :=
  match P.prog i with
  | .call o k => ⟨Function.update P.prog i (k (h i o P.state).1), (h i o P.state).2⟩
  | _ => P

/-- The log entry of that call. -/
def note (h : ι → Handler ε S σ) (P : Pool ε S α ι σ) (i : ι) : List (Entry S ι) :=
  match P.prog i with
  | .call o _ => [⟨i, o, (h i o P.state).1.isOk⟩]
  | _ => []

/-- Run a schedule. -/
def run (h : ι → Handler ε S σ) (P : Pool ε S α ι σ) (sched : List ι) : Pool ε S α ι σ :=
  sched.foldl (step h) P

/-- The calls a schedule makes, in order. -/
def log (h : ι → Handler ε S σ) : Pool ε S α ι σ → List ι → List (Entry S ι)
  | _, [] => []
  | P, i :: sched => note h P i ++ log h (step h P i) sched

variable {h : ι → Handler ε S σ}

@[simp] theorem run_nil (P : Pool ε S α ι σ) : run h P [] = P := rfl

@[simp] theorem run_cons (P : Pool ε S α ι σ) (i : ι) (sched : List ι) :
    run h P (i :: sched) = run h (step h P i) sched := rfl

theorem run_append (P : Pool ε S α ι σ) (sched sched' : List ι) :
    run h P (sched ++ sched') = run h (run h P sched) sched' :=
  List.foldl_append

theorem step_of_call {P : Pool ε S α ι σ} {i : ι} {o : S.Op}
    {k : Except ε (S.Ans o) → Program ε S α} (hi : P.prog i = .call o k) :
    step h P i = ⟨Function.update P.prog i (k (h i o P.state).1), (h i o P.state).2⟩ := by
  simp only [step, hi]

theorem step_prog_self {P : Pool ε S α ι σ} {i : ι} {o : S.Op}
    {k : Except ε (S.Ans o) → Program ε S α} (hi : P.prog i = .call o k) :
    (step h P i).prog i = k (h i o P.state).1 := by
  rw [step_of_call hi]
  exact Function.update_self ..

omit [DecidableEq ι] in
theorem note_of_call {P : Pool ε S α ι σ} {i : ι} {o : S.Op}
    {k : Except ε (S.Ans o) → Program ε S α} (hi : P.prog i = .call o k) :
    note h P i = [⟨i, o, (h i o P.state).1.isOk⟩] := by
  simp only [note, hi]

/-- Scheduling a finished thread changes nothing and logs nothing. -/
theorem step_of_done {P : Pool ε S α ι σ} {i : ι} (hi : ∀ o k, P.prog i ≠ .call o k) :
    step h P i = P ∧ note h P i = [] := by
  rw [step, note]
  split
  · next hcall => exact absurd hcall (hi _ _)
  · exact ⟨rfl, rfl⟩

theorem step_prog_of_ne {P : Pool ε S α ι σ} {i j : ι} (hj : j ≠ i) :
    (step h P i).prog j = P.prog j := by
  rw [step]
  split
  · exact Function.update_of_ne hj _ _
  · rfl

/-- **Thread invariants.** A property of each thread's program that its own calls preserve survives
every schedule: the other threads do not touch the program. -/
theorem prog_run {L : ι → Program ε S α → Prop} {P : Pool ε S α ι σ} (hP : ∀ i, L i (P.prog i))
    (hL : ∀ i o k s, L i (.call o k) → L i (k (h i o s).1)) (sched : List ι) :
    ∀ i, L i ((run h P sched).prog i) := by
  induction sched generalizing P with
  | nil => exact hP
  | cons i sched ih =>
    refine ih fun j => ?_
    by_cases hj : j = i
    · subst hj
      cases hp : P.prog j with
      | call o k =>
        rw [step_prog_self hp]
        exact hL j o k P.state (hp ▸ hP j)
      | ret a => rw [(step_of_done (by simp [hp])).1]; exact hP j
      | raise e => rw [(step_of_done (by simp [hp])).1]; exact hP j
    · rw [step_prog_of_ne hj]
      exact hP j

/-- A call in the log is one that its thread's program could make. -/
theorem mem_log_uses {A : ι → (o : S.Op) → Except ε (S.Ans o) → Prop} {Q : ι → S.Op → Prop}
    {P : Pool ε S α ι σ} (hP : ∀ i, (P.prog i).Uses (A i) (Q i)) (hA : ∀ i o s, A i o (h i o s).1)
    (sched : List ι) : ∀ x ∈ log h P sched, Q x.thread x.op := by
  induction sched generalizing P with
  | nil => intro x hx; cases hx
  | cons i sched ih =>
    intro x hx
    have hP' : ∀ j, ((step h P i).prog j).Uses (A j) (Q j) :=
      prog_run (h := h) hP (fun j o k s hu => hu.2 _ (hA j o s)) [i]
    rcases List.mem_append.mp hx with hx | hx
    · cases hp : P.prog i with
      | call o k =>
        rw [note_of_call hp, List.mem_singleton] at hx
        subst hx
        have hu := hP i
        rw [hp] at hu
        exact hu.1
      | ret a => rw [(step_of_done (by simp [hp])).2] at hx; cases hx
      | raise e => rw [(step_of_done (by simp [hp])).2] at hx; cases hx
    · exact ih hP' x hx

end Pool

/-! ### Calls whose failure escapes -/

namespace Program

/-- The failure of a call satisfying `Q` ends the program. -/
def Strict (Q : S.Op → Prop) : Program ε S α → Prop
  | ret _ => True
  | raise _ => True
  | call o k => (Q o → ∀ e, ∃ e', k (.error e) = raise e') ∧ ∀ r, Strict Q (k r)

variable {Q : S.Op → Prop}

theorem strict_ofExcept (r : Except ε α) : Strict Q (ofExcept r : Program ε S α) := by
  cases r <;> trivial

theorem strict_perform (o : S.Op) : Strict Q (perform o : Program ε S (S.Ans o)) :=
  ⟨fun _ e => ⟨e, rfl⟩, strict_ofExcept⟩

theorem Strict.bind {p : Program ε S α} {f : α → Program ε S β} (hp : Strict Q p)
    (hf : ∀ a, Strict Q (f a)) : Strict Q (p >>= f) := by
  induction p with
  | ret a => exact hf a
  | raise e => trivial
  | call o k ih =>
    refine ⟨fun ho e => ?_, fun r => ih r (hp.2 r)⟩
    obtain ⟨e', he'⟩ := hp.1 ho e
    exact ⟨e', congrArg (· >>= f) he'⟩

/-- A program that makes no such call is strict whatever it does with its failures. -/
theorem Uses.strict {A : (o : S.Op) → Except ε (S.Ans o) → Prop} {p : Program ε S α}
    (hp : p.Uses A fun o => ¬ Q o) (hA : ∀ o r, A o r) : Strict Q p := by
  induction p with
  | ret a => trivial
  | raise e => trivial
  | call o k ih => exact ⟨fun ho => absurd ho hp.1, fun r => ih r (hp.2 r (hA o r))⟩

end Program

namespace Pool

variable [DecidableEq ι] {h : ι → Handler ε S σ} {Q : S.Op → Prop}

theorem prog_run_of_raise {P : Pool ε S α ι σ} {i : ι} {e : ε} (hi : P.prog i = .raise e)
    (sched : List ι) : (run h P sched).prog i = .raise e := by
  have key := prog_run (h := h) (L := fun j p => j = i → p = .raise e) (P := P)
    (fun j hj => hj ▸ hi) (fun j o k s hL hj => nomatch hL hj) sched
  exact key i rfl

/-- If a thread has returned, every call of it whose failure would have escaped has succeeded. -/
theorem ok_of_strict {P : Pool ε S α ι σ} (hP : ∀ i, (P.prog i).Strict Q) {sched : List ι}
    (hret : ∀ i, ∃ a, (run h P sched).prog i = .ret a) :
    ∀ x ∈ log h P sched, Q x.op → x.ok = true := by
  induction sched generalizing P with
  | nil => intro x hx; cases hx
  | cons i sched ih =>
    intro x hx hQ
    have hP' : ∀ j, ((step h P i).prog j).Strict Q :=
      prog_run (h := h) hP (fun j o k s hs => hs.2 _) [i]
    rcases List.mem_append.mp hx with hx | hx
    · cases hp : P.prog i with
      | call o k =>
        rw [note_of_call hp, List.mem_singleton] at hx
        subst hx
        have hs := hP i
        rw [hp] at hs
        cases hans : (h i o P.state).1 with
        | ok a => rfl
        | error e =>
          -- the thread would be stuck at `raise`, and it has returned
          obtain ⟨e', he'⟩ := hs.1 hQ e
          have hstuck : (step h P i).prog i = .raise e' := by
            rw [step_prog_self hp, hans, he']
          obtain ⟨a, ha⟩ := hret i
          rw [run_cons, prog_run_of_raise hstuck] at ha
          cases ha
      | ret a => rw [(step_of_done (by simp [hp])).2] at hx; cases hx
      | raise e => rw [(step_of_done (by simp [hp])).2] at hx; cases hx
    · exact ih hP' hret x hx hQ

end Pool

/-! ### Calls that cannot be left out -/

namespace Program

/-- As long as its calls succeed, the program does not end without a call satisfying `Q`. -/
def Reaches (Q : S.Op → Prop) : Program ε S α → Prop
  | ret _ => False
  | raise _ => False
  | call o k => Q o ∨ ∀ a, Reaches Q (k (.ok a))

variable {Q : S.Op → Prop}

theorem reaches_perform {o : S.Op} (ho : Q o) :
    Reaches Q (perform o : Program ε S (S.Ans o)) :=
  .inl ho

theorem Reaches.bind {p : Program ε S α} (hp : Reaches Q p) (f : α → Program ε S β) :
    Reaches Q (p >>= f) := by
  induction p with
  | ret a => exact hp.elim
  | raise e => exact hp.elim
  | call o k ih => exact hp.imp_right fun hk a => ih (.ok a) (hk a)

/-- Sequencing after a call, for what comes after it. -/
theorem reaches_perform_bind (o : S.Op) {f : S.Ans o → Program ε S β}
    (hf : ∀ a, Reaches Q (f a)) : Reaches Q (perform o >>= f) :=
  .inr hf

theorem Reaches.tryCatch {p : Program ε S α} (hp : Reaches Q p) (c : ε → Program ε S α) :
    Reaches Q (p.tryCatch c) := by
  induction p with
  | ret a => exact hp.elim
  | raise e => exact hp.elim
  | call o k ih => exact hp.imp_right fun hk a => ih (.ok a) (hk a)

end Program

/-- A thread that has returned has made the calls it could not leave out, if none has failed. -/
theorem Pool.exists_mem_log [DecidableEq ι] {h : ι → Handler ε S σ} {Q : S.Op → Prop}
    {P : Pool ε S α ι σ} {i : ι} {sched : List ι} (hi : (P.prog i).Reaches Q)
    (hok : ∀ x ∈ log h P sched, x.ok = true) (hret : ∃ a, (run h P sched).prog i = .ret a) :
    ∃ x ∈ log h P sched, x.thread = i ∧ Q x.op := by
  induction sched generalizing P with
  | nil =>
    obtain ⟨a, ha⟩ := hret
    rw [run_nil] at ha
    rw [ha] at hi
    exact hi.elim
  | cons j sched ih =>
    have hok' : ∀ x ∈ log h (step h P j) sched, x.ok = true :=
      fun x hx => hok x (List.mem_append_right _ hx)
    have hlater : ((step h P j).prog i).Reaches Q → ∃ x ∈ log h P (j :: sched), x.thread = i ∧ Q x.op :=
      fun hi' => by
        obtain ⟨x, hx, hxi⟩ := ih hi' hok' hret
        exact ⟨x, List.mem_append_right _ hx, hxi⟩
    by_cases hj : i = j
    · subst hj
      cases hp : P.prog i with
      | ret a => rw [hp] at hi; exact hi.elim
      | raise e => rw [hp] at hi; exact hi.elim
      | call o k =>
        have hnote : (⟨i, o, (h i o P.state).1.isOk⟩ : Entry S ι) ∈ log h P (i :: sched) := by
          rw [log, note_of_call hp]
          exact List.mem_cons_self ..
        rw [hp] at hi
        rcases hi with hQ | hk
        · exact ⟨_, hnote, rfl, hQ⟩
        · refine hlater ?_
          rw [step_prog_self hp]
          cases hans : (h i o P.state).1 with
          | ok a => exact hk a
          | error e =>
            have hfailed := hok _ hnote
            rw [hans] at hfailed
            cases hfailed
    · exact hlater (by rwa [step_prog_of_ne hj])

/-! ### Registers -/

/-- The last entry of a log that overwrites the register, with its thread and the value, when `w`
says which calls overwrite it and with what. -/
def lastWrite (w : S.Op → Option β) : List (Entry S ι) → Option (ι × β)
  | [] => none
  | x :: l => (lastWrite w l).or ((w x.op).map (x.thread, ·))

/-- The last overwriting call is in the log. -/
theorem mem_of_lastWrite {w : S.Op → Option β} {l : List (Entry S ι)} {i : ι} {v : β}
    (hl : lastWrite w l = some (i, v)) : ∃ x ∈ l, x.thread = i ∧ w x.op = some v := by
  induction l with
  | nil => cases hl
  | cons x l ih =>
    rw [lastWrite, Option.or_eq_some_iff] at hl
    rcases hl with hl | ⟨-, hl⟩
    · obtain ⟨y, hy, hyi⟩ := ih hl
      exact ⟨y, List.mem_cons_of_mem _ hy, hyi⟩
    · obtain ⟨v', hv', hxv⟩ := Option.map_eq_some_iff.mp hl
      obtain ⟨rfl, rfl⟩ := Prod.mk.inj hxv
      exact ⟨x, List.mem_cons_self .., rfl, hv'⟩

/-- Where there is an overwriting call, there is a last one. -/
theorem lastWrite_of_mem {w : S.Op → Option β} {l : List (Entry S ι)} {x : Entry S ι} (hx : x ∈ l)
    (hw : (w x.op).isSome) : ∃ i v, lastWrite w l = some (i, v) := by
  induction l with
  | nil => cases hx
  | cons y l ih =>
    rw [lastWrite]
    rcases List.mem_cons.mp hx with rfl | hx
    · obtain ⟨v, hv⟩ := Option.isSome_iff_exists.mp hw
      cases lastWrite w l with
      | some z => exact ⟨z.1, z.2, rfl⟩
      | none => exact ⟨x.thread, v, by rw [hv]; rfl⟩
    · obtain ⟨i, v, hiv⟩ := ih hx
      exact ⟨i, v, by rw [hiv]; rfl⟩

/-- **A register holds what was last written to it**, provided the overwriting calls in the log
succeeded. -/
theorem Pool.register_run [DecidableEq ι] {h : ι → Handler ε S σ} {w : S.Op → Option β}
    {g : σ → β} (hkeep : ∀ i o s, w o = none → g (h i o s).2 = g s)
    (hput : ∀ i o s v, w o = some v → (h i o s).1.isOk = true → g (h i o s).2 = v)
    (P : Pool ε S α ι σ) (sched : List ι)
    (hok : ∀ x ∈ log h P sched, (w x.op).isSome → x.ok = true) :
    g (run h P sched).state =
      ((lastWrite w (log h P sched)).map Prod.snd).getD (g P.state) := by
  induction sched generalizing P with
  | nil => rfl
  | cons i sched ih =>
    have hok' : ∀ x ∈ log h (step h P i) sched, (w x.op).isSome → x.ok = true :=
      fun x hx => hok x (List.mem_append_right _ hx)
    rw [run_cons, ih _ hok', log]
    cases hp : P.prog i with
    | call o k =>
      have hstate : (step h P i).state = (h i o P.state).2 := by rw [step_of_call hp]
      rw [note_of_call hp, List.singleton_append, lastWrite, hstate]
      cases hl : lastWrite w (log h (step h P i) sched) with
      | some y => rfl
      | none =>
        cases hw : w o with
        | none => exact hkeep i o P.state hw
        | some v =>
          refine hput i o P.state v hw (hok ⟨i, o, (h i o P.state).1.isOk⟩ ?_ (by simp [hw]))
          rw [log, note_of_call hp]
          exact List.mem_cons_self ..
    | ret a =>
      obtain ⟨hs, hn⟩ := step_of_done (h := h) (P := P) (i := i) (by simp [hp])
      rw [hn, List.nil_append, hs]
    | raise e =>
      obtain ⟨hs, hn⟩ := step_of_done (h := h) (P := P) (i := i) (by simp [hp])
      rw [hn, List.nil_append, hs]

end Effect
