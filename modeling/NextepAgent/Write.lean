import NextepAgent.Gate

/-!
# What a write does to its file

`_write_if_changed` has five ends. It gives up before it can touch the file; it finds the content
already there; it dies with the file truncated or half written; it writes everything and cannot set
the mode; or it gets through. Which of them it is depends on the environment and on the one file, so
the end of each of the two writes of a run is known before the run.

## Observers

Some properties are about the history of a flow and not about its files: whether the hook has run
since the last change, how far a run got. They are statements about a run that is *watched*. The
observers used here react to writes and launches and to nothing else (`onWrites`), so that one equation for
`_write_if_changed` serves them all. The run itself does not know it is watched (`eval_watch`).

## Main definitions

* `WriteEnd`, `writeEnd` — how a write ends
* `observed` — a host with an observer of writes and launches

## Main results

* `eval_writeIfChanged` — how it ends, and what it leaves
* `always_writeIfChanged` — what it passes through
-/

namespace NextepAgent

open Effect Program

/-! ### How a write ends -/

/-- What becomes of `_write_if_changed`. -/
inductive WriteEnd
  /-- It raises without touching the file. -/
  | gaveUp (e : Exc)
  /-- The file already reads as the content. -/
  | kept
  /-- The write raises half way, and leaves `b` in the file. -/
  | torn (b : Bytes) (e : Exc)
  /-- All of the content is in the file, as `b`, and the mode cannot be set. -/
  | unset (b : Bytes) (e : Exc)
  /-- All of the content is in the file, and the mode is set. -/
  | done (b : Bytes)

namespace WriteEnd

/-- What the caller is told. -/
def result : WriteEnd → Except Exc Bool
  | gaveUp e => .error e
  | kept => .ok false
  | torn _ e => .error e
  | unset _ e => .error e
  | done _ => .ok true

/-- What is in the file, if it was opened. -/
def left : WriteEnd → Option Bytes
  | gaveUp _ => none
  | kept => none
  | torn b _ => some b
  | unset b _ => some b
  | done b => some b

/-- The file has the bytes it had, if it had `old`. -/
def Harmless (x : WriteEnd) (old : Option Bytes) : Prop := x.left.or old = old

/-- The host afterwards. -/
def apply : WriteEnd → Path → ℕ → Host → Host
  | gaveUp _, _, _, w => w
  | kept, _, _, w => w
  | torn b _, p, _, w => w.put p b
  | unset b _, p, _, w => w.put p b
  | done b, p, mode, w => (w.put p b).setMode p mode

/-- What an observer `f` of writes makes of it. -/
def mark {μ : Type} (f : Path → Bool → Host → Host → μ → μ) : WriteEnd → Path → Host → μ → μ
  | gaveUp _, _, _, m => m
  | kept, _, _, m => m
  | torn b _, p, w, m => f p false w (w.put p b) m
  | unset b _, p, w, m => f p true w (w.put p b) m
  | done b, p, w, m => f p true w (w.put p b) m

theorem bytes_apply (x : WriteEnd) (p : Path) (mode : ℕ) (w : Host) (q : Path) :
    (x.apply p mode w).bytes q = if q = p then x.left.or (w.bytes q) else w.bytes q := by
  cases x with
  | gaveUp e => simp [apply, left]
  | kept => simp [apply, left]
  | torn b e => simp [apply, left, Host.bytes_put]
  | unset b e => simp [apply, left, Host.bytes_put]
  | done b => simp [apply, left, Host.bytes_put]

theorem bytes_apply_of_ne (x : WriteEnd) {p q : Path} (mode : ℕ) (w : Host) (hq : q ≠ p) :
    (x.apply p mode w).bytes q = w.bytes q := by
  rw [bytes_apply, if_neg hq]

theorem bytes_apply_self (x : WriteEnd) (p : Path) (mode : ℕ) (w : Host) :
    (x.apply p mode w).bytes p = x.left.or (w.bytes p) := by
  rw [bytes_apply, if_pos rfl]

theorem result_eq_ok {x : WriteEnd} {changed : Bool} (h : x.result = .ok changed) :
    (x = kept ∧ changed = false) ∨ ∃ b, x = done b ∧ changed = true := by
  cases x with
  | gaveUp e => cases h
  | kept => cases h; exact .inl ⟨rfl, rfl⟩
  | torn b e => cases h
  | unset b e => cases h
  | done b => cases h; exact .inr ⟨b, rfl, rfl⟩

end WriteEnd

/-- How `_write_if_changed` ends once it has decided to write. -/
def overwriteEnd (env : HostEnv) (p : Path) (content : Text) : WriteEnd :=
  match env.writeText p with
  | .refused e => .gaveUp e
  | .torn n e => .torn (partialBytes content n) e
  | .works =>
    match encode content with
    | .error e => .torn .empty e
    | .ok b =>
      match env.chmod p with
      | some e => .unset b e
      | none => .done b

/-- How `_write_if_changed` ends. -/
def writeEnd (env : HostEnv) (w : Host) (p : Path) (content : Text) : WriteEnd :=
  match (host env (.mkdirParents p) w).1 with
  | .error e => .gaveUp e
  | .ok () =>
    match (eval (host env) (readsAs p content) w).1 with
    | .error e => .gaveUp e
    | .ok true => .kept
    | .ok false => overwriteEnd env p content

theorem overwriteEnd_ne_kept (env : HostEnv) (p : Path) (t : Text) :
    overwriteEnd env p t ≠ .kept := by
  rw [overwriteEnd]
  cases env.writeText p with
  | refused e => simp
  | torn n e => simp
  | works =>
    cases encode t with
    | error e => simp
    | ok b => cases env.chmod p <;> simp

theorem uses_readsAs (p : Path) (t : Text) :
    (readsAs p t).Uses (fun _ _ => True) HostOp.readOnly := by
  refine Uses.tryCatch ((uses_sys trivial).bind fun old => trivial) fun e => ?_
  split <;> trivial

theorem eval_readsAs (env : HostEnv) (w : Host) (p : Path) (t : Text) :
    eval (host env) (readsAs p t) w =
      ((match ((host env (.readText p) w).1 : Except Exc Text) with
        | .ok old => .ok (old == t)
        | .error e => if e.isA .fileNotFoundError then .ok false else .error e), w) := by
  have hw : (host env (.readText p) w).2 = w := rfl
  rw [readsAs, eval_tryCatch, eval_bind, eval_sys]
  cases hread : host env (.readText p) w with
  | mk r w' =>
    rw [hread] at hw
    subst hw
    cases r with
    | ok old => rfl
    | error e =>
      dsimp only
      split <;> rfl

theorem host_readText_of_kept {env : HostEnv} {w : Host} {p : Path} {t : Text}
    (h : writeEnd env w p t = .kept) : (host env (.readText p) w).1 = .ok t := by
  rw [writeEnd] at h
  split at h
  · cases h
  · rw [eval_readsAs] at h
    cases hread : ((host env (.readText p) w).1 : Except Exc Text) with
    | ok old =>
      rw [hread] at h
      cases hsame : old == t with
      | true => rw [LawfulBEq.eq_of_beq hsame]
      | false =>
        simp only [hsame] at h
        exact absurd h (overwriteEnd_ne_kept env p t)
    | error e =>
      rw [hread] at h
      cases hmissing : e.isA .fileNotFoundError with
      | true =>
        simp only [hmissing, if_true] at h
        exact absurd h (overwriteEnd_ne_kept env p t)
      | false =>
        simp only [hmissing, Bool.false_eq_true, if_false] at h
        cases h

theorem readText_of_kept {env : HostEnv} {w : Host} {p : Path} {t : Text}
    (h : writeEnd env w p t = .kept) : w.readText p = .ok t :=
  (faulty_eq_ok (host_readText_of_kept h)).2

/-- The content that ends up in the file is the encoded text. -/
theorem encode_of_overwriteEnd {env : HostEnv} {p : Path} {t : Text} {b : Bytes}
    (h : overwriteEnd env p t = .done b ∨ ∃ e, overwriteEnd env p t = .unset b e) :
    encode t = .ok b := by
  rw [overwriteEnd] at h
  cases hwrite : env.writeText p with
  | refused e => simp [hwrite] at h
  | torn n e => simp [hwrite] at h
  | works =>
    cases henc : encode t with
    | error e => simp [hwrite, henc] at h
    | ok b' =>
      cases hchmod : env.chmod p with
      | none => simp [hwrite, henc, hchmod] at h; rw [h]
      | some e => simp [hwrite, henc, hchmod] at h; rw [h]

theorem encode_of_writeEnd {env : HostEnv} {w : Host} {p : Path} {t : Text} {b : Bytes}
    (h : writeEnd env w p t = .done b ∨ ∃ e, writeEnd env w p t = .unset b e) :
    encode t = .ok b := by
  rw [writeEnd] at h
  split at h
  · simp at h
  · split at h
    · simp at h
    · simp at h
    · exact encode_of_overwriteEnd h

/-- It depends on the one file only. -/
theorem writeEnd_congr {env : HostEnv} {w w' : Host} {p : Path} {t : Text}
    (h : w.bytes p = w'.bytes p) : writeEnd env w p t = writeEnd env w' p t := by
  simp only [writeEnd, eval_readsAs, host, Host.readText_congr h]

/-! ### Observers -/

section Observed

variable {μ : Type} (f : Path → Bool → Host → Host → μ → μ) (g : Host → Host → μ → μ)

/-- An observer of the writes, by `f`, and the launches, by `g`. -/
def onWrites : HostOp → Bool → Host → Host → μ → μ
  | .writeText p _, ok, w, w', m => f p ok w w' m
  | .runScript _, _, w, w', m => g w w' m
  | _, _, _, _, m => m

/-- The host of `env`, with an observer of writes and launches. -/
abbrev observed (env : HostEnv) : Handler Exc hostSig (Host × μ) := watch (host env) (onWrites f g)

variable {f g} {env : HostEnv} {w : Host} {m : μ} {p : Path} {t : Text} {mode : ℕ}

theorem observed_apply (o : HostOp) :
    observed f g env o (w, m) =
      ((host env o w).1, (host env o w).2,
        onWrites f g o (host env o w).1.isOk w (host env o w).2 m) := rfl

/-- A host that nobody watches is one watched by an observer who forgets everything. -/
theorem eval_host {α : Type} (prog : Runner α) :
    eval (host env) prog w =
      ((eval (observed (fun _ _ _ _ m => m) (fun _ _ m => m) env) prog (w, ())).1,
        (eval (observed (fun _ _ _ _ m => m) (fun _ _ m => m) env) prog (w, ())).2.1) :=
  (eval_watch _ _ prog w ()).symm

theorem eval_observed_readOnly {α : Type} {prog : Runner α}
    (hp : prog.Uses (fun _ _ => True) HostOp.readOnly) :
    eval (observed f g env) prog (w, m) = ((eval (host env) prog w).1, w, m) := by
  refine hp.eval_watch (host_readOnly env) (fun o b s m ho => ?_) w m
  cases o <;> first | rfl | exact ho.elim

/-- Once the content is in the file, only the mode is missing. -/
theorem eval_chmod_bind {b : Bytes} (hread : w.read p = .ok b) :
    eval (observed f g env) (do sys (.chmod p mode); return true : Runner Bool) (w, m) =
      match env.chmod p with
      | some e => (.error e, w, m)
      | none => (.ok true, w.setMode p mode, m) := by
  rw [eval_bind, eval_sys, observed_apply]
  cases hchmod : env.chmod p with
  | some e => simp [host, hchmod, onWrites]
  | none => simp [host, hchmod, hread, onWrites]

theorem eval_overwrite (hf : ∀ p w m, f p false w w m = m) (hp : p.hasNull = false) :
    eval (observed f g env)
        (do sys (.writeText p t); sys (.chmod p mode); return true : Runner Bool) (w, m) =
      ((overwriteEnd env p t).result, (overwriteEnd env p t).apply p mode w,
        (overwriteEnd env p t).mark f p w m) := by
  rw [eval_bind, eval_sys, observed_apply]
  cases hwrite : env.writeText p with
  | refused e => simp [overwriteEnd, host, hp, hwrite, onWrites, hf, Except.isOk, Except.toBool,
      WriteEnd.result, WriteEnd.apply, WriteEnd.mark]
  | torn n e => simp [overwriteEnd, host, hp, hwrite, onWrites, Except.isOk, Except.toBool,
      WriteEnd.result, WriteEnd.apply, WriteEnd.mark]
  | works =>
    cases henc : encode t with
    | error e => simp [overwriteEnd, host, hp, hwrite, henc, onWrites, Except.isOk, Except.toBool,
        WriteEnd.result, WriteEnd.apply, WriteEnd.mark]
    | ok b =>
      have hread : (w.put p b).read p = .ok b := by simp [Host.read, hp]
      simp only [host, hp, hwrite, henc, onWrites, Except.isOk, Except.toBool, Bool.false_eq_true,
        if_false]
      rw [eval_chmod_bind hread, overwriteEnd, hwrite]
      simp only [henc]
      cases env.chmod p with
      | some e => rfl
      | none => rfl

theorem hasNull_of_mkdir (h : (host env (.mkdirParents p) w).1 = .ok ()) : p.hasNull = false := by
  have hp := (faulty_eq_ok h).2
  cases hnull : p.hasNull with
  | false => rfl
  | true => rw [hnull] at hp; cases hp

/-- **The five ends of a write**, and what an observer makes of them. -/
theorem eval_writeIfChanged (hf : ∀ p w m, f p false w w m = m) :
    eval (observed f g env) (writeIfChanged p t mode) (w, m) =
      ((writeEnd env w p t).result, (writeEnd env w p t).apply p mode w,
        (writeEnd env w p t).mark f p w m) := by
  rw [writeIfChanged, eval_bind, eval_sys, observed_apply]
  cases hmkdir : (host env (.mkdirParents p) w).1 with
  | error e =>
    simp only [writeEnd, hmkdir]
    rfl
  | ok u =>
    have hw : (host env (.mkdirParents p) w).2 = w := rfl
    simp only [writeEnd, hmkdir, hw, onWrites]
    rw [eval_bind, eval_observed_readOnly (uses_readsAs p t)]
    cases (eval (host env) (readsAs p t) w).1 with
    | error e => rfl
    | ok there =>
      cases there with
      | true => rfl
      | false => exact eval_overwrite hf (hasNull_of_mkdir hmkdir)

theorem observed_readOnly (o : HostOp) (s : Host × μ) (ho : o.readOnly) :
    (observed f g env o s).2 = s := by
  cases o <;> first | rfl | exact ho.elim

/-- What `write_text` can leave behind. -/
theorem observed_writeText {I : Host × μ → Prop} (hp : p.hasNull = false) (h : I (w, m))
    (hrefused : f p false w w m = m)
    (htorn : ∀ b, I (w.put p b, f p false w (w.put p b) m))
    (hwhole : ∀ b, encode t = .ok b → I (w.put p b, f p true w (w.put p b) m)) :
    I (observed f g env (.writeText p t) (w, m)).2 := by
  rw [observed_apply]
  cases hwrite : env.writeText p with
  | refused e => simpa [host, hp, hwrite, onWrites, Except.isOk, Except.toBool, hrefused]
  | torn n e => simpa [host, hp, hwrite, onWrites, Except.isOk, Except.toBool] using htorn _
  | works =>
    cases henc : encode t with
    | error e =>
      simpa [host, hp, hwrite, henc, onWrites, Except.isOk, Except.toBool] using htorn _
    | ok b =>
      simpa [host, hp, hwrite, henc, onWrites, Except.isOk, Except.toBool] using hwhole b henc

/-- `chmod` sets a mode or does nothing. -/
theorem observed_chmod {I : Host × μ → Prop} (h : I (w, m))
    (hmode : ∀ w m, I (w, m) → I (w.setMode p mode, m)) :
    I (observed f g env (.chmod p mode) (w, m)).2 := by
  rw [observed_apply]
  simp only [host]
  split
  · exact hmode w m h
  · exact h

/-- What a write passes through: the file as it was, or with anything in it, or with the content. -/
theorem always_writeIfChanged {I : Host × μ → Prop} (h : I (w, m))
    (hrefused : f p false w w m = m)
    (htorn : ∀ b, I (w.put p b, f p false w (w.put p b) m))
    (hwhole : ∀ b, encode t = .ok b → I (w.put p b, f p true w (w.put p b) m))
    (hmode : ∀ w m, I (w, m) → I (w.setMode p mode, m)) :
    Always (observed f g env) I (writeIfChanged p t mode) (w, m) := by
  refine always_bind.mpr ⟨(always_sys _ _ _).mpr ⟨h, h⟩, fun u s hs => ?_⟩
  rw [eval_sys, observed_apply] at hs
  have hmkdir : (host env (.mkdirParents p) w).1 = .ok () := congrArg Prod.fst hs
  have hp := hasNull_of_mkdir hmkdir
  obtain rfl : (w, m) = s := congrArg Prod.snd hs
  refine always_bind.mpr ⟨(uses_readsAs p t).always observed_readOnly h, fun there s hs => ?_⟩
  rw [eval_observed_readOnly (uses_readsAs p t)] at hs
  obtain rfl : (w, m) = s := congrArg Prod.snd hs
  cases there with
  | true => exact h
  | false =>
    have hI : I (observed f g env (.writeText p t) (w, m)).2 :=
      observed_writeText hp h hrefused htorn hwhole
    refine always_bind.mpr ⟨(always_sys _ _ _).mpr ⟨h, hI⟩, fun u s hs => ?_⟩
    rw [eval_sys] at hs
    rw [hs] at hI
    have hI' : I (observed f g env (.chmod p mode) s).2 := observed_chmod hI hmode
    refine always_bind.mpr ⟨(always_sys _ _ _).mpr ⟨hI, hI'⟩, fun u s' hs' => ?_⟩
    rw [eval_sys] at hs'
    rw [hs'] at hI'
    exact hI'

end Observed

end NextepAgent
