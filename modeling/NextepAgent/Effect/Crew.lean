import NextepAgent.Effect.Interleaving

/-!
# Threads that are started on the way

The threads of a server are not there from the start. Each is started when something happens, and all
of them are gone when the process is. A crew keeps its threads in a list that only gets longer. So a
thread is known by its position, and what it was started for is not forgotten.

## Main definitions

* `Effect.Thread`, `Effect.Crew` — threads with their causes, over a shared state
* `Crew.start`, `Crew.down`, `Crew.work`, `Crew.note` — what can happen, and the call that is made
* `Crew.Sound` — an invariant of the state that no thread breaks

## Main results

* `Crew.Sound.start`, `Crew.sound_down`, `Crew.Sound.work` — it is kept
* `Crew.work_to_end` — a thread that is left alone gets to its end
-/

namespace Effect

open Program

variable {ε : Type} {S : Sig} {C σ : Type}

/-- A thread. -/
structure Thread (ε : Type) (S : Sig) (C : Type) where
  /-- What it was started for. -/
  cause : C
  /-- What is left of it. -/
  prog : Program ε S Unit

/-- Threads over a shared state. -/
structure Crew (ε : Type) (S : Sig) (C σ : Type) where
  threads : List (Thread ε S C)
  state : σ

namespace Crew

variable {h : Handler ε S σ} {s : Crew ε S C σ} {c : C} {p : Program ε S Unit} {k : ℕ}

/-- One more thread. -/
def start (s : Crew ε S C σ) (c : C) (p : Program ε S Unit) : Crew ε S C σ :=
  ⟨s.threads ++ [⟨c, p⟩], s.state⟩

/-- The process is gone, with all threads and with what `f` does not keep. -/
def down (s : Crew ε S C σ) (f : σ → σ) : Crew ε S C σ :=
  ⟨s.threads.map fun t => { t with prog := .ret () }, f s.state⟩

/-- Thread `k` makes its next call. A finished thread has none to make. -/
def work (h : Handler ε S σ) (s : Crew ε S C σ) (k : ℕ) : Crew ε S C σ :=
  match s.threads[k]? with
  | some ⟨c, .call o f⟩ => ⟨s.threads.set k ⟨c, f (h o s.state).1⟩, (h o s.state).2⟩
  | _ => s

/-- The log entry of that call. -/
def note (h : Handler ε S σ) (s : Crew ε S C σ) (k : ℕ) : List (Entry S ℕ) :=
  match s.threads[k]? with
  | some ⟨_, .call o _⟩ => [⟨k, o, (h o s.state).1.isOk⟩]
  | _ => []

/-- What the threads were started for, in order. -/
def causes (s : Crew ε S C σ) : List C := s.threads.map Thread.cause

theorem work_of_call {o : S.Op} {f : Except ε (S.Ans o) → Program ε S Unit}
    (hk : s.threads[k]? = some ⟨c, .call o f⟩) :
    s.work h k = ⟨s.threads.set k ⟨c, f (h o s.state).1⟩, (h o s.state).2⟩ ∧
      s.note h k = [⟨k, o, (h o s.state).1.isOk⟩] := by
  simp only [work, note, hk, and_self]

/-- **One step** is a call of a thread, or nothing. -/
theorem work_cases (h : Handler ε S σ) (s : Crew ε S C σ) (k : ℕ) :
    (∃ c o f, s.threads[k]? = some ⟨c, .call o f⟩ ∧
      s.work h k = ⟨s.threads.set k ⟨c, f (h o s.state).1⟩, (h o s.state).2⟩ ∧
        s.note h k = [⟨k, o, (h o s.state).1.isOk⟩]) ∨
      s.work h k = s ∧ s.note h k = [] := by
  cases hk : s.threads[k]? with
  | none => exact .inr (by simp only [work, note, hk, and_self])
  | some t =>
    obtain ⟨c, p⟩ := t
    cases p with
    | call o f => exact .inl ⟨c, o, f, rfl, work_of_call hk⟩
    | ret a => exact .inr (by simp only [work, note, hk, and_self])
    | raise e => exact .inr (by simp only [work, note, hk, and_self])

/-! ### Causes -/

@[simp] theorem causes_start : (s.start c p).causes = s.causes ++ [c] := by
  simp [causes, start]

@[simp] theorem causes_down (f : σ → σ) : (s.down f).causes = s.causes := by
  simp [causes, down]

@[simp] theorem causes_work : (s.work h k).causes = s.causes := by
  rcases work_cases h s k with ⟨c, o, f, hk, hwork, -⟩ | ⟨hwork, -⟩
  · have hcause : s.causes[k]? = some c := by rw [causes, List.getElem?_map, hk]; rfl
    obtain ⟨hlt, hget⟩ := List.getElem?_eq_some_iff.mp hcause
    rw [hwork]
    show (s.threads.set k _).map Thread.cause = s.causes
    rw [List.map_set, ← hget]
    exact List.set_getElem_self hlt
  · rw [hwork]

/-! ### Invariants -/

/-- The state satisfies `I`, and every thread makes only calls that satisfy `Q`, when it is answered
as `A` allows. -/
structure Sound (A : (o : S.Op) → Except ε (S.Ans o) → Prop) (Q : S.Op → Prop) (I : σ → Prop)
    (s : Crew ε S C σ) : Prop where
  state : I s.state
  uses : ∀ t ∈ s.threads, t.prog.Uses A Q

variable {A : (o : S.Op) → Except ε (S.Ans o) → Prop} {Q : S.Op → Prop} {I : σ → Prop}

theorem Sound.start (hs : Sound A Q I s) (hp : p.Uses A Q) : Sound A Q I (s.start c p) where
  state := hs.state
  uses t ht := by
    rcases List.mem_append.mp ht with ht | ht
    · exact hs.uses t ht
    · obtain rfl := List.mem_singleton.mp ht
      exact hp

theorem sound_down {f : σ → σ} (hf : I (f s.state)) : Sound A Q I (s.down f) where
  state := hf
  uses t ht := by
    obtain ⟨t', -, rfl⟩ := List.mem_map.mp ht
    trivial

/-- A call keeps the invariant, and the thread goes on as it has to. -/
theorem Sound.work (hs : Sound A Q I s)
    (hkeep : ∀ o st, Q o → I st → A o (h o st).1 ∧ I (h o st).2) (k : ℕ) :
    Sound A Q I (s.work h k) := by
  rcases work_cases h s k with ⟨c, o, f, hk, hwork, -⟩ | ⟨hwork, -⟩
  · have huses := hs.uses _ (List.mem_of_getElem? hk)
    obtain ⟨hans, hstate⟩ := hkeep o s.state huses.1 hs.state
    rw [hwork]
    refine ⟨hstate, fun t ht => ?_⟩
    rcases List.mem_or_eq_of_mem_set ht with ht | rfl
    · exact hs.uses t ht
    · exact huses.2 _ hans
  · rwa [hwork]

/-! ### Getting to the end -/

/-- **A thread that is left alone** gets to its end, and does what its program does. -/
theorem work_to_end {ts : List (Thread ε S C)} {st : σ} (hk : ts[k]? = some ⟨c, p⟩) :
    ∃ n, (List.replicate n k).foldl (work h) ⟨ts, st⟩ =
      ⟨ts.set k ⟨c, ofExcept (eval h p st).1⟩, (eval h p st).2⟩ := by
  have hdone : ∀ {ts : List (Thread ε S C)} {t}, ts[k]? = some t → ts.set k t = ts := by
    intro ts t hk
    obtain ⟨hlt, rfl⟩ := List.getElem?_eq_some_iff.mp hk
    exact List.set_getElem_self hlt
  induction p generalizing ts st with
  | ret a => exact ⟨0, by rw [eval_ret, ofExcept_ok, hdone hk]; rfl⟩
  | raise e => exact ⟨0, by rw [eval_raise, ofExcept_error, hdone hk]; rfl⟩
  | call o f ih =>
    have hlt : k < ts.length := (List.getElem?_eq_some_iff.mp hk).1
    have hrest : ∃ n, (List.replicate n k).foldl (work h)
        ⟨ts.set k ⟨c, f (h o st).1⟩, (h o st).2⟩ =
          ⟨(ts.set k ⟨c, f (h o st).1⟩).set k ⟨c, ofExcept (eval h (f (h o st).1) (h o st).2).1⟩,
            (eval h (f (h o st).1) (h o st).2).2⟩ := ih _ (List.getElem?_set_self hlt)
    obtain ⟨n, hn⟩ := hrest
    refine ⟨n + 1, ?_⟩
    rw [List.replicate_succ, List.foldl_cons, (work_of_call (s := ⟨ts, st⟩) hk).1, hn,
      List.set_set, eval_call]

end Crew

end Effect
