import NextepAgent.Effect.Transcript

/-!
# Dialogues of implementations

A program that implements operations has, on the level below, a dialogue made of those of the
implementations, one after another. So a rule that the program keeps on its own level is a rule about
the lower level as well, read through that correspondence. In the middle of an operation the lower
dialogue is a finished one and the beginning of a dialogue of one implementation.

Nothing has to be proved about an implementation for this. What is known of it comes in afterwards,
through the same two notions.

## Main definitions

* `Effect.Program.Speaks`, `Effect.Program.Next` — the dialogues a program can have, and how they go on
* `Effect.Expands` — every exchange replaced by a dialogue of its implementation
* `Effect.Program.Lower` — a rule of the upper level, for the calls of the lower one

## Main results

* `Program.Keeps.speaks`, `Program.Keeps.next` — what a rule says of such dialogues
* `Program.Keeps.translate` — a rule that is kept on one level is kept on the level below
-/

namespace Effect

variable {ε : Type} {S T : Sig} {α β : Type}

namespace Program

/-! ### What a program can say -/

/-- The program can have this dialogue, and end with `r` then. -/
def Speaks : Program ε S α → List (Exchange ε S) → Except ε α → Prop
  | ret a, d, r => d = [] ∧ r = .ok a
  | raise e, d, r => d = [] ∧ r = .error e
  | call o k, d, r => ∃ a d', d = ⟨o, a⟩ :: d' ∧ Speaks (k a) d' r

/-- The program can have this dialogue, and make this call then. -/
def Next : Program ε S α → List (Exchange ε S) → S.Op → Prop
  | ret _, _, _ => False
  | raise _, _, _ => False
  | call o k, d, o' => (d = [] ∧ o' = o) ∨ ∃ a d', d = ⟨o, a⟩ :: d' ∧ Next (k a) d' o'

variable {may : List (Exchange ε S) → S.Op → Prop}
  {post : List (Exchange ε S) → Except ε α → Prop} {log d : List (Exchange ε S)}
  {p : Program ε S α} {r : Except ε α} {o : S.Op}

/-- One call is all there is to a single operation. -/
theorem next_perform {o o' : S.Op} {d : List (Exchange ε S)}
    (h : (perform o : Program ε S (S.Ans o)).Next d o') : d = [] ∧ o' = o := by
  rcases h with h | ⟨a, d', -, h⟩
  · exact h
  · cases a <;> exact h.elim

/-- **At the end** of any dialogue. -/
theorem Keeps.speaks (hp : Keeps may post log p) (hd : p.Speaks d r) : post (log ++ d) r := by
  induction p generalizing log d with
  | ret a =>
    obtain ⟨rfl, rfl⟩ := hd
    exact (List.append_nil log).symm ▸ hp
  | raise e =>
    obtain ⟨rfl, rfl⟩ := hd
    exact (List.append_nil log).symm ▸ hp
  | call o k ih =>
    obtain ⟨a, d', rfl, hd⟩ := hd
    have hrest := ih a (hp.2 a) hd
    rw [List.append_assoc] at hrest
    exact hrest

/-- **At every call** of any dialogue. -/
theorem Keeps.next (hp : Keeps may post log p) (hd : p.Next d o) : may (log ++ d) o := by
  induction p generalizing log d with
  | ret a => exact hd.elim
  | raise e => exact hd.elim
  | call o' k ih =>
    rcases hd with ⟨rfl, rfl⟩ | ⟨a, d', rfl, hd⟩
    · exact (List.append_nil log).symm ▸ hp.1
    · have hrest := ih a (hp.2 a) hd
      rw [List.append_assoc] at hrest
      exact hrest

/-- A program has its own dialogues. -/
theorem keeps_self (p : Program ε S α) (log : List (Exchange ε S)) :
    Keeps (fun l o => ∃ d, l = log ++ d ∧ p.Next d o) (fun l r => ∃ d, l = log ++ d ∧ p.Speaks d r)
      log p := by
  induction p generalizing log with
  | ret a => exact ⟨[], (List.append_nil log).symm, rfl, rfl⟩
  | raise e => exact ⟨[], (List.append_nil log).symm, rfl, rfl⟩
  | call o k ih =>
    refine ⟨⟨[], (List.append_nil log).symm, .inl ⟨rfl, rfl⟩⟩, fun a => ?_⟩
    refine (ih a (log ++ [⟨o, a⟩])).imp ?_ ?_
    · rintro l o' ⟨d, rfl, hd⟩
      exact ⟨⟨o, a⟩ :: d, by simp, .inr ⟨a, d, rfl, hd⟩⟩
    · rintro l r ⟨d, rfl, hd⟩
      exact ⟨⟨o, a⟩ :: d, by simp, a, d, rfl, hd⟩

end Program

/-! ### Expansions -/

variable {f : (o : S.Op) → Program ε T (S.Ans o)} {u : List (Exchange ε S)}
  {l : List (Exchange ε T)}

/-- Every exchange of `u` replaced by a dialogue of its implementation, which ends as the exchange
does. -/
inductive Expands (f : (o : S.Op) → Program ε T (S.Ans o)) :
    List (Exchange ε S) → List (Exchange ε T) → Prop
  | nil : Expands f [] []
  | concat {u : List (Exchange ε S)} {l d : List (Exchange ε T)} {o : S.Op}
      {r : Except ε (S.Ans o)} (h : Expands f u l) (hd : (f o).Speaks d r) :
      Expands f (u ++ [⟨o, r⟩]) (l ++ d)

/-- Where an exchange has gone. -/
theorem Expands.exists_of_mem (h : Expands f u l) {x : Exchange ε S} (hx : x ∈ u) :
    ∃ l₁ d l₂, l = l₁ ++ d ++ l₂ ∧ (f x.op).Speaks d x.ans := by
  induction h with
  | nil => cases hx
  | @concat u l d o r _ hd ih =>
    rcases List.mem_append.mp hx with hx | hx
    · obtain ⟨l₁, d', l₂, rfl, hd'⟩ := ih hx
      exact ⟨l₁, d', l₂ ++ d, by simp, hd'⟩
    · obtain rfl := List.mem_singleton.mp hx
      exact ⟨l, d, [], by simp, hd⟩

namespace Program

/-- A rule of the upper level, for the calls of the lower one: a call belongs to an operation that the
rule allows after the operations that are over. -/
def Lower (f : (o : S.Op) → Program ε T (S.Ans o)) (may : List (Exchange ε S) → S.Op → Prop)
    (log : List (Exchange ε T)) (o' : T.Op) : Prop :=
  ∃ u o l d, Expands f u l ∧ may u o ∧ log = l ++ d ∧ (f o).Next d o'

/-- **A rule that is kept on one level is kept on the level below.** -/
theorem Keeps.translate {may : List (Exchange ε S) → S.Op → Prop}
    {post : List (Exchange ε S) → Except ε α → Prop} {p : Program ε S α} (hp : Keeps may post u p)
    (hul : Expands f u l) :
    Keeps (Lower f may) (fun l r => ∃ u, Expands f u l ∧ post u r) l (p.translate f) := by
  induction p generalizing u l with
  | ret a => exact ⟨u, hul, hp⟩
  | raise e => exact ⟨u, hul, hp⟩
  | call o k ih =>
    have hown : Keeps (Lower f may) (fun l' r => ∃ d, l' = l ++ d ∧ (f o).Speaks d r) l (f o) := by
      refine (keeps_self (f o) l).imp ?_ fun _ _ h => h
      rintro log o' ⟨d, rfl, hd⟩
      exact ⟨u, o, l, d, hul, hp.1, rfl, hd⟩
    rw [translate_call]
    refine hown.resume ?_
    rintro log r ⟨d, rfl, hd⟩
    exact ih r (hp.2 r) (hul.concat hd)

end Program

end Effect
