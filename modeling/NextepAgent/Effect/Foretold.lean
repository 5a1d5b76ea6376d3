import NextepAgent.Effect.Footprint
import NextepAgent.Effect.Translate
import Mathlib.Data.Set.Basic

/-!
# Answers that are known beforehand

An environment may decide what to answer when it is asked, with everything before it that has
happened in view. Another one has its answers written down before the run begins. For a program that
asks each question at most once, the two are as good as each other: whatever the first one does in a
run, some list of answers makes the second one do the same.

So a result about all environments of the second kind, which are the easier ones to reason about,
is one about the first kind too.

## Main definitions

* `Effect.Program.Asks` — the questions a program may ask, each of them at most once
* `Effect.Program.AskedAt` — a question is next, after some calls

## Main results

* `Program.Asks.bind`, `Program.Asks.translate` — the rules
* `Program.Asks.foretold` — answers that are written down beforehand
* `Program.InStep.always_translate` — and what that says of the calls a level below
-/

namespace Effect

namespace Program

variable {ε : Type} {S T : Sig} {α β ι κ V σ τ : Type}

/-! ### Asking at most once -/

/-- Of the questions that `ask` sees in its calls, the program asks only those in `Q`, and each of them
at most once. -/
def Asks (ask : S.Op → Option ι) : Program ε S α → Set ι → Prop
  | ret _, _ => True
  | raise _, _ => True
  | call o k, Q => (∀ i, ask o = some i → i ∈ Q) ∧ ∀ r, Asks ask (k r) {i | i ∈ Q ∧ ask o ≠ some i}

variable {ask : S.Op → Option ι} {p : Program ε S α} {Q Q' : Set ι}

theorem Asks.mono (hp : p.Asks ask Q) (hQ : Q ⊆ Q') : p.Asks ask Q' := by
  induction p generalizing Q Q' with
  | ret a => trivial
  | raise e => trivial
  | call o k ih =>
    exact ⟨fun i hi => hQ (hp.1 i hi), fun r => ih r (hp.2 r) fun i hi => ⟨hQ hi.1, hi.2⟩⟩

theorem asks_ofExcept {r : Except ε α} : (ofExcept r : Program ε S α).Asks ask Q := by
  cases r <;> trivial

theorem asks_perform {o : S.Op} :
    (perform o : Program ε S (S.Ans o)).Asks ask {i | ask o = some i} :=
  ⟨fun _ hi => hi, fun _ => asks_ofExcept⟩

/-- A program that asks nothing. -/
theorem Uses.asks (hp : p.Uses (fun _ _ => True) fun o => ask o = none) : p.Asks ask Q := by
  induction p generalizing Q with
  | ret a => trivial
  | raise e => trivial
  | call o k ih =>
    refine ⟨fun i hi => ?_, fun r => ih r (hp.2 r trivial)⟩
    rw [hp.1] at hi
    cases hi

/-- Going on with whatever the first program ends with. -/
theorem Asks.resume {f : Except ε α → Program ε S β} (hp : p.Asks ask Q)
    (hf : ∀ r, (f r).Asks ask Q') (hdisjoint : ∀ i ∈ Q, i ∉ Q') :
    (p.resume f).Asks ask (Q ∪ Q') := by
  induction p generalizing Q with
  | ret a => exact (hf _).mono Set.subset_union_right
  | raise e => exact (hf _).mono Set.subset_union_right
  | call o k ih =>
    refine ⟨fun i hi => .inl (hp.1 i hi), fun r => ?_⟩
    refine (ih r (hp.2 r) fun i hi => hdisjoint i hi.1).mono fun i hi => ?_
    rcases hi with hi | hi
    · exact ⟨.inl hi.1, hi.2⟩
    · exact ⟨.inr hi, fun ho => hdisjoint i (hp.1 i ho) hi⟩

theorem bind_eq_resume (p : Program ε S α) (f : α → Program ε S β) :
    (p >>= f) = p.resume fun
      | .ok a => f a
      | .error e => raise e := by
  induction p with
  | ret a => rfl
  | raise e => rfl
  | call o k ih => exact congrArg (call o) (funext fun r => ih r)

theorem Asks.bind {f : α → Program ε S β} (hp : p.Asks ask Q) (hf : ∀ a, (f a).Asks ask Q')
    (hdisjoint : ∀ i ∈ Q, i ∉ Q') : (p >>= f).Asks ask (Q ∪ Q') := by
  rw [bind_eq_resume]
  refine hp.resume (fun r => ?_) hdisjoint
  cases r with
  | ok a => exact hf a
  | error e => trivial

/-- A program that asks nothing first. -/
theorem Uses.asks_bind {f : α → Program ε S β}
    (hp : p.Uses (fun _ _ => True) fun o => ask o = none) (hf : ∀ a, (f a).Asks ask Q) :
    (p >>= f).Asks ask Q := by
  have hpf : (p >>= f).Asks ask (∅ ∪ Q) := (Uses.asks hp).bind hf fun i hi => hi.elim
  rwa [Set.empty_union] at hpf

/-- A program that asks nothing afterwards. -/
theorem Asks.bind_quiet {f : α → Program ε S β} (hp : p.Asks ask Q)
    (hf : ∀ a, (f a).Uses (fun _ _ => True) fun o => ask o = none) : (p >>= f).Asks ask Q := by
  have hpf : (p >>= f).Asks ask (Q ∪ ∅) := hp.bind (fun a => Uses.asks (hf a)) fun _ _ => id
  rwa [Set.union_empty] at hpf

/-- A guarded program, whose handler asks nothing. -/
theorem Asks.tryCatch {c : ε → Program ε S α} (hp : p.Asks ask Q) (hc : ∀ e, (c e).Asks ask ∅) :
    (p.tryCatch c).Asks ask Q := by
  induction p generalizing Q with
  | ret a => trivial
  | raise e => exact (hc e).mono (Set.empty_subset Q)
  | call o k ih => exact ⟨hp.1, fun r => ih r (hp.2 r)⟩

/-- **One level below.** An implementation asks no more than the call it implements. -/
theorem Asks.translate {ask' : T.Op → Option ι} {f : (o : S.Op) → Program ε T (S.Ans o)}
    (hp : p.Asks ask Q) (hf : ∀ o, (f o).Asks ask' {i | ask o = some i}) :
    (p.translate f).Asks ask' Q := by
  induction p generalizing Q with
  | ret a => trivial
  | raise e => trivial
  | call o k ih =>
    have hrest : ((f o).resume fun r => (k r).translate f).Asks ask'
        ({i | ask o = some i} ∪ {i | i ∈ Q ∧ ask o ≠ some i}) :=
      (hf o).resume (fun r => ih r (hp.2 r)) fun i hi hi' => hi'.2 hi
    exact hrest.mono (Set.union_subset hp.1 fun i hi => hi.1)

/-- What a run asks. -/
theorem Asks.asked {h : Handler ε S σ} (hp : p.Asks ask Q) {s : σ} {i : ι}
    (hi : i ∈ (trace h p s).filterMap ask) : i ∈ Q := by
  induction p generalizing Q s with
  | ret a => exact absurd hi List.not_mem_nil
  | raise e => exact absurd hi List.not_mem_nil
  | call o k ih =>
    obtain ⟨o', ho', hi'⟩ := List.mem_filterMap.mp hi
    rcases List.mem_cons.mp ho' with rfl | ho'
    · exact hp.1 i hi'
    · exact (ih _ (hp.2 _) (List.mem_filterMap.mpr ⟨o', ho', hi'⟩)).1

/-! ### Writing the answers down -/

/-- After `n` calls the next one is `o`, in state `s'`. -/
def AskedAt (h : Handler ε S σ) (p : Program ε S α) (s : σ) (n : ℕ) (o : S.Op) (s' : σ) : Prop :=
  ∃ k, exec h n p s = (call o k, s')

theorem askedAt_zero {h : Handler ε S σ} (o : S.Op) (k : Except ε (S.Ans o) → Program ε S α)
    (s : σ) : AskedAt h (call o k) s 0 o s := ⟨k, rfl⟩

theorem AskedAt.succ {h : Handler ε S σ} {o o' : S.Op} {k : Except ε (S.Ans o) → Program ε S α}
    {s s' : σ} {n : ℕ} (hn : AskedAt h (k (h o s).1) (h o s).2 n o' s') :
    AskedAt h (call o k) s (n + 1) o' s' := hn

/-- It is one of the calls of the run. -/
theorem AskedAt.mem_trace {h : Handler ε S σ} {o : S.Op} {s s' : σ} {n : ℕ}
    (hn : AskedAt h p s n o s') : o ∈ trace h p s := by
  obtain ⟨k, hk⟩ := hn
  induction n generalizing p s with
  | zero =>
    cases p with
    | ret a => cases hk
    | raise e => cases hk
    | call o' k' =>
      cases hk
      exact List.mem_cons_self
  | succ n ih =>
    cases p with
    | ret a => cases hk
    | raise e => cases hk
    | call o' k' => exact List.mem_cons_of_mem _ (ih hk)

variable {h : Handler ε S σ} {k : (ι → V) → Handler ε S τ} {view : σ → τ}
  {answer : S.Op → σ → V}

/-- **Foretold.** Let the program ask each question at most once, and let every call come to the same
against `h` as against `k r`, as far as `view` goes, wherever `r` has the answer that is given then.
Then for some `r` the whole run does. What `r` says on a question that is asked is what is answered
when it is asked, and what it says on any other question is of no account. -/
theorem Asks.foretold [DecidableEq ι] (hask : p.Asks ask Q)
    (hstep : ∀ o s r, (∀ i, ask o = some i → r i = answer o s) →
      k r o (view s) = ((h o s).1, view (h o s).2)) (r₀ : ι → V) (s : σ) :
    ∃ r, InStep h (k r) (fun s t => view s = t) p s (view s) ∧
      (∀ i ∈ (trace h p s).filterMap ask, ∃ n o s', AskedAt h p s n o s' ∧ ask o = some i ∧
        r i = answer o s') ∧
      ∀ i ∉ (trace h p s).filterMap ask, r i = r₀ i := by
  induction p generalizing Q r₀ s with
  | ret a => exact ⟨r₀, rfl, fun i hi => absurd hi List.not_mem_nil, fun i _ => rfl⟩
  | raise e => exact ⟨r₀, rfl, fun i hi => absurd hi List.not_mem_nil, fun i _ => rfl⟩
  | call o k' ih =>
    -- the answer of this call is written down first
    obtain ⟨r₁, hself, hother⟩ : ∃ r₁ : ι → V, (∀ i, ask o = some i → r₁ i = answer o s) ∧
        ∀ i, ask o ≠ some i → r₁ i = r₀ i := by
      cases hi : ask o with
      | none => exact ⟨r₀, fun i h => (by cases h), fun i _ => rfl⟩
      | some j =>
        refine ⟨Function.update r₀ j (answer o s), fun i hij => ?_, fun i hij => ?_⟩
        · rw [Option.some.inj hij, Function.update_self]
        · exact Function.update_of_ne (fun h => hij (congrArg some h.symm)) _ _
    obtain ⟨r, hin, hasked, hrest'⟩ := ih (h o s).1 (hask.2 _) r₁ (h o s).2
    have honce : ∀ i, ask o = some i →
        i ∉ (trace h (k' (h o s).1) (h o s).2).filterMap ask :=
      fun i hi hmem => ((hask.2 _).asked hmem).2 hi
    have hfirst : ∀ i, ask o = some i → r i = answer o s := fun i hi =>
      (hrest' i (honce i hi)).trans (hself i hi)
    have hcall : k r o (view s) = ((h o s).1, view (h o s).2) := hstep o s r hfirst
    refine ⟨r, ⟨rfl, ?_, ?_⟩, fun i hi => ?_, fun i hi => ?_⟩
    · rw [hcall]
    · rw [hcall]
      exact hin
    · rw [trace] at hi
      obtain ⟨o', ho', hi'⟩ := List.mem_filterMap.mp hi
      rcases List.mem_cons.mp ho' with rfl | ho'
      · exact ⟨0, o', s, askedAt_zero o' k' s, hi', hfirst i hi'⟩
      · obtain ⟨n, o'', s', hat, hi'', hr⟩ := hasked i (List.mem_filterMap.mpr ⟨o', ho', hi'⟩)
        exact ⟨n + 1, o'', s', hat.succ, hi'', hr⟩
    · have hnot : ask o ≠ some i ∧ i ∉ (trace h (k' (h o s).1) (h o s).2).filterMap ask := by
        refine ⟨fun h => hi ?_, fun h => hi ?_⟩
        · exact List.mem_filterMap.mpr ⟨o, List.mem_cons_self, h⟩
        · obtain ⟨o', ho', hi'⟩ := List.mem_filterMap.mp h
          exact List.mem_filterMap.mpr ⟨o', List.mem_cons_of_mem _ ho', hi'⟩
      exact (hrest' i hnot.2).trans (hother i hnot.1)

/-! ### The calls a level below -/

/-- Let implementations change what is seen of the state in one call, if at all. Then a program of the
lower level passes, as far as is seen, only through the states that the upper one passes through. -/
theorem InStep.always_translate {f : (o : S.Op) → Program ε T (S.Ans o)} {h : Handler ε T σ}
    {k : Handler ε S τ} {s : σ} {t : τ}
    (hp : InStep (implement f h) k (fun s t => view s = t) p s t)
    (hf : ∀ o s, Always h (fun s' => view s' = view s ∨ view s' = view (implement f h o s).2) (f o) s) :
    Always h (fun s' => ∃ n, view s' = (Program.exec k n p t).2) (p.translate f) s := by
  induction p generalizing s t with
  | ret a => exact ⟨0, hp⟩
  | raise e => exact ⟨0, hp⟩
  | call o k' ih =>
    obtain ⟨hst, hans, hk⟩ := hp
    have hafter : view (implement f h o s).2 = (k o t).2 := hk.start
    rw [translate_call, always_resume]
    refine ⟨(hf o s).mono fun s' hs' => ?_, ?_⟩
    · rcases hs' with hs' | hs'
      · exact ⟨0, hs'.trans hst⟩
      · refine ⟨1, (hs'.trans hafter).trans ?_⟩
        rw [Program.exec]
        cases k' (k o t).1 <;> rfl
    · refine (ih _ hk).mono fun s' hs' => ?_
      obtain ⟨n, hn⟩ := hs'
      refine ⟨n + 1, hn.trans ?_⟩
      rw [Program.exec, ← hans]

/-- What is seen of the calls of the lower level, where each implementation shows the call it
implements. -/
theorem filterMap_trace_translate {f : (o : S.Op) → Program ε T (S.Ans o)} {h : Handler ε T σ}
    {up : S.Op → Option κ} {low : T.Op → Option κ}
    (hf : ∀ o s, (trace h (f o) s).filterMap low = (up o).toList) (p : Program ε S α) (s : σ) :
    (trace h (p.translate f) s).filterMap low = (trace (implement f h) p s).filterMap up := by
  induction p generalizing s with
  | ret a => rfl
  | raise e => rfl
  | call o k ih =>
    rw [translate_call, trace_resume, List.filterMap_append, hf, ih, trace]
    cases hup : up o with
    | none => rw [List.filterMap_cons_none hup]; rfl
    | some x => rw [List.filterMap_cons_some hup]; rfl

end Program

end Effect
