import NextepAgent.Write

/-!
# What issuing does to the two files

Past the gate a run is two writes, the certificate before the key, and then a parse of what was
obtained, the hook if the certificate file has changed, and a report. Nothing is undone when a later
step raises.

## Main definitions

* `hookEnd` — how the hook ends
* `FlowRunner.Issuance` — an issuance that gets through

## Main results

* `FlowRunner.eval_write`, `FlowRunner.eval_finish`, `FlowRunner.eval_run` — each step as an equation
* `FlowRunner.eval_run_eq_ok` — a run that returns has kept a certificate or issued one
* `FlowRunner.always_run` — what a run passes through
-/

namespace NextepAgent

open Effect Program

/-! ### How the hook ends -/

/-- How `_run_post_renewal` ends. -/
def hookEnd (script : ScriptRun) : Except Exc Unit :=
  match script.result with
  | .ok _ => .ok ()
  | .error e => if e.isA .timeoutExpired then .ok () else .error e

namespace FlowRunner

variable {self : FlowRunner} {μ : Type} {f : Path → Bool → Host → Host → μ → μ}
  {g : Host → Host → μ → μ} {env : HostEnv} {w : Host} {m : μ} {p q : Path}

/-- The host once the hook has been run. -/
def hooked (env : HostEnv) (w : Host) : Host := if env.runScript.launched then w.launch else w

@[simp] theorem bytes_hooked (env : HostEnv) (w : Host) (p : Path) :
    (hooked env w).bytes p = w.bytes p := by
  rw [hooked]
  split <;> rfl

theorem eval_runPostRenewal :
    eval (observed f g env) self.runPostRenewal (w, m) =
      (hookEnd env.runScript, hooked env w, g w (hooked env w) m) := by
  rw [runPostRenewal, eval_tryCatch, eval_bind, eval_sys, observed_apply]
  simp only [host, onWrites, hookEnd, hooked]
  cases env.runScript.result with
  | ok r => rfl
  | error e =>
    dsimp only
    split <;> rfl

theorem eval_finish (certPem : Text) (changed : Bool) :
    eval (observed f g env) (self.finish certPem changed) (w, m) =
      match self.leafCert certPem with
      | .error e => (.error e, w, m)
      | .ok leaf =>
        if changed && self.flow.postRenewalScript.truthy then
          (hookEnd env.runScript >>= fun _ => self.issueResult leaf changed, hooked env w,
            g w (hooked env w) m)
        else (self.issueResult leaf changed, w, m) := by
  rw [finish]
  cases self.leafCert certPem with
  | error e => rfl
  | ok leaf =>
    simp only [ofExcept_ok, ret_bind]
    split
    · rw [eval_bind, eval_runPostRenewal]
      cases hookEnd env.runScript with
      | error e => rfl
      | ok u => exact eval_ofExcept _ _
    · rw [eval_ofExcept]

theorem eval_write (hf : ∀ p w m, f p false w w m = m) (hname : self.flow.name.truthy = true)
    (hp : self.certPath = .ok p) (hq : self.keyPath = .ok q) (certPem keyPem : Text) :
    eval (observed f g env) (self.write certPem (some keyPem)) (w, m) =
      let certEnd := writeEnd env w p certPem
      let keyEnd := writeEnd env w q keyPem
      let w₁ := certEnd.apply p 0o644 w
      let m₁ := certEnd.mark f p w m
      match certEnd.result with
      | .error e => (.error e, w₁, m₁)
      | .ok changed => (keyEnd.result.map fun _ => changed, keyEnd.apply q 0o600 w₁,
          keyEnd.mark f q w₁ m₁) := by
  have hkey : writeEnd env w q keyPem =
      writeEnd env ((writeEnd env w p certPem).apply p 0o644 w) q keyPem :=
    writeEnd_congr ((WriteEnd.bytes_apply_of_ne _ _ _ (certPath_ne_keyPath hp hq).symm).symm)
  rw [write, hname, hp, hq]
  simp only [Bool.not_true, Bool.false_eq_true, if_false, ofExcept_ok, ret_bind]
  rw [eval_bind, eval_writeIfChanged hf]
  cases (writeEnd env w p certPem).result with
  | error e => rfl
  | ok changed =>
    simp only
    rw [eval_bind, eval_writeIfChanged hf, ← hkey]
    cases (writeEnd env w q keyPem).result with
    | error e => rfl
    | ok _ => rfl

/-- A flow without a name writes nothing. -/
theorem eval_write_of_not_truthy (hname : self.flow.name.truthy = false) (certPem : Text)
    (keyPem : Option Text) :
    eval (observed f g env) (self.write certPem keyPem) (w, m) =
      (.error ⟨.runtimeError, "flow is missing a name"⟩, w, m) := by
  rw [write, hname]
  rfl

theorem eval_run :
    eval (observed f g env) self.run (w, m) =
      match self.gate env w with
      | .error e => (.error e, w, m)
      | .ok (some current) => (self.issueResult current false, w, m)
      | .ok none =>
        match env.obtain with
        | .error e => (.error e, w, m)
        | .ok (certPem, keyPem) => eval (observed f g env) (self.issue certPem keyPem) (w, m) := by
  rw [run, eval_bind, eval_observed_readOnly self.uses_upToDate, eval_upToDate]
  cases self.gate env w with
  | error e => rfl
  | ok found =>
    cases found with
    | some current => exact eval_ofExcept _ _
    | none =>
      simp only
      rw [eval_bind, eval_sys, observed_apply]
      simp only [host, onWrites]
      cases env.obtain with
      | error e => rfl
      | ok pair => rfl

/-! ### Runs that nobody watches -/

section Host

variable {c k : Text}

theorem eval_host_write_of_not_truthy (hname : self.flow.name.truthy = false) :
    eval (host env) (self.write c (some k)) w =
      (.error ⟨.runtimeError, "flow is missing a name"⟩, w) := by
  rw [eval_host, eval_write_of_not_truthy hname]

/-- A write that is not seen by anybody. -/
theorem eval_host_write (env : HostEnv) (w : Host) (c k : Text)
    (hname : self.flow.name.truthy = true) (hp : self.certPath = .ok p)
    (hq : self.keyPath = .ok q) :
    eval (host env) (self.write c (some k)) w =
      match (writeEnd env w p c).result with
      | .error e => (.error e, (writeEnd env w p c).apply p 0o644 w)
      | .ok changed =>
        ((writeEnd env w q k).result.map fun _ => changed,
          (writeEnd env w q k).apply q 0o600 ((writeEnd env w p c).apply p 0o644 w)) := by
  rw [eval_host, eval_write (fun _ _ _ => rfl) hname hp hq]
  dsimp only
  cases (writeEnd env w p c).result with
  | error e => rfl
  | ok changed => rfl

/-- The end of a run changes no file. -/
theorem bytes_finish (self : FlowRunner) (env : HostEnv) (w : Host) (c : Text) (changed : Bool)
    (r : Path) :
    (eval (host env) (self.finish c changed) w).2.bytes r = w.bytes r := by
  rw [eval_host, eval_finish]
  cases self.leafCert c with
  | error e => rfl
  | ok leaf =>
    dsimp only
    split
    · exact bytes_hooked env w r
    · rfl

/-- What an issuance leaves in the files, if the certificate write gets through. -/
theorem bytes_issue (hname : self.flow.name.truthy = true) (hp : self.certPath = .ok p)
    (hq : self.keyPath = .ok q) {changed : Bool} (hcert : (writeEnd env w p c).result = .ok changed)
    (r : Path) :
    (eval (host env) (self.issue c k) w).2.bytes r =
      ((writeEnd env w q k).apply q 0o600 ((writeEnd env w p c).apply p 0o644 w)).bytes r := by
  have hwrite := eval_host_write env w c k hname hp hq
  rw [hcert] at hwrite
  cases hkey : (writeEnd env w q k).result with
  | error e =>
    rw [hkey] at hwrite
    rw [issue, eval_bind_of_error hwrite]
  | ok rekeyed =>
    rw [hkey] at hwrite
    rw [issue, eval_bind_of_ok hwrite]
    exact bytes_finish _ _ _ _ changed r

theorem eval_host_run :
    eval (host env) self.run w =
      match self.gate env w with
      | .error e => (.error e, w)
      | .ok (some current) => (self.issueResult current false, w)
      | .ok none =>
        match env.obtain with
        | .error e => (.error e, w)
        | .ok (certPem, keyPem) => eval (host env) (self.issue certPem keyPem) w := by
  rw [eval_host, eval_run]
  cases self.gate env w with
  | error e => rfl
  | ok found =>
    cases found with
    | some current => rfl
    | none =>
      cases env.obtain with
      | error e => rfl
      | ok pair => exact (eval_host _).symm

end Host

/-! ### Runs that return -/

/-- A text that parses has an encoding, and it is the encoding that is parsed. -/
theorem leafCert_eq_ok {leaf : Certificate} {c : Text} (h : self.leafCert c = .ok leaf) :
    ∃ b rest, encode c = .ok b ∧ self.loadPem b = .ok (leaf :: rest) := by
  rw [leafCert] at h
  cases henc : encode c with
  | error e => rw [henc] at h; cases h
  | ok b =>
    rw [henc] at h
    change (self.loadPem b >>= _) = _ at h
    cases hload : self.loadPem b with
    | error e => rw [hload] at h; cases h
    | ok certs =>
      rw [hload] at h
      cases certs with
      | nil => cases h
      | cons c rest => cases h; exact ⟨b, rest, rfl, hload⟩

/-- An issuance that gets through. -/
structure Issuance (fr : FlowRunner) (env : HostEnv) (w : Host) where
  certPem : Text
  keyPem : Text
  obtained : env.obtain = .ok (certPem, keyPem)
  certOut : Path
  certPath : fr.certPath = .ok certOut
  keyOut : Path
  keyPath : fr.keyPath = .ok keyOut
  /-- Whether the certificate file was written. -/
  changed : Bool
  certWritten : (writeEnd env w certOut certPem).result = .ok changed
  /-- Whether the key file was written. -/
  rekeyed : Bool
  keyWritten : (writeEnd env w keyOut keyPem).result = .ok rekeyed
  leaf : Certificate
  parsed : fr.leafCert certPem = .ok leaf
  hookDone : (changed && fr.flow.postRenewalScript.truthy) = true → hookEnd env.runScript = .ok ()

namespace Issuance

variable {fr : FlowRunner} (i : Issuance fr env w)

/-- Whether the hook is run. -/
def due : Bool := i.changed && fr.flow.postRenewalScript.truthy

/-- The host once the certificate is there. -/
def certified : Host := (writeEnd env w i.certOut i.certPem).apply i.certOut 0o644 w

/-- The host once the key is there too. -/
def written : Host := (writeEnd env w i.keyOut i.keyPem).apply i.keyOut 0o600 i.certified

/-- The host at the end. -/
def final : Host := if i.due then hooked env i.written else i.written

/-- What an observer of writes has made of it. -/
def marks (f : Path → Bool → Host → Host → μ → μ) (m : μ) : μ :=
  (writeEnd env w i.keyOut i.keyPem).mark f i.keyOut i.certified
    ((writeEnd env w i.certOut i.certPem).mark f i.certOut w m)

theorem final_of_due (h : i.due = true) : i.final = hooked env i.written := if_pos h

theorem final_of_not_due (h : i.due ≠ true) : i.final = i.written := if_neg h

theorem bytes_final (p : Path) : i.final.bytes p = i.written.bytes p := by
  rw [final]
  split <;> simp

/-- What the run leaves in the certificate file. -/
theorem certBytes_final : fr.certBytes i.final =
    (writeEnd env w i.certOut i.certPem).left.or (fr.certBytes w) := by
  rw [certBytes_of_certPath i.certPath, certBytes_of_certPath i.certPath, bytes_final, written,
    WriteEnd.bytes_apply_of_ne _ _ _ (certPath_ne_keyPath i.certPath i.keyPath), certified,
    WriteEnd.bytes_apply_self]

/-- What the run leaves in the key file. -/
theorem keyBytes_final : fr.keyBytes i.final =
    (writeEnd env w i.keyOut i.keyPem).left.or (fr.keyBytes w) := by
  rw [keyBytes_of_keyPath i.keyPath, keyBytes_of_keyPath i.keyPath, bytes_final, written,
    WriteEnd.bytes_apply_self, certified,
    WriteEnd.bytes_apply_of_ne _ _ _ (certPath_ne_keyPath i.certPath i.keyPath).symm]

end Issuance

/-- A `_write` that returns, as the two writes it was. -/
theorem eval_write_eq_ok (hf : ∀ p w m, f p false w w m = m) (hp : self.certPath = .ok p)
    (hq : self.keyPath = .ok q) {c k : Text} {changed : Bool} {s : Host × μ}
    (h : eval (observed f g env) (self.write c (some k)) (w, m) = (.ok changed, s)) :
    let certEnd := writeEnd env w p c
    let keyEnd := writeEnd env w q k
    certEnd.result = .ok changed ∧ (∃ rekeyed, keyEnd.result = .ok rekeyed) ∧
      s = (keyEnd.apply q 0o600 (certEnd.apply p 0o644 w),
        keyEnd.mark f q (certEnd.apply p 0o644 w) (certEnd.mark f p w m)) := by
  cases hname : self.flow.name.truthy with
  | false => rw [eval_write_of_not_truthy hname] at h; cases h
  | true =>
    rw [eval_write hf hname hp hq] at h
    cases hcert : (writeEnd env w p c).result with
    | error e => simp [hcert] at h
    | ok ch =>
      cases hkey : (writeEnd env w q k).result with
      | error e => simp [hcert, hkey, Except.map] at h
      | ok rekeyed =>
        simp only [hcert, hkey, Except.map, Prod.mk.injEq, Except.ok.injEq] at h
        obtain ⟨rfl, rfl⟩ := h
        exact ⟨hcert, ⟨rekeyed, hkey⟩, rfl⟩

/-- A `finish` that returns. -/
theorem eval_finish_eq_ok {c : Text} {changed : Bool} {r : IssueResult} {s : Host × μ}
    (h : eval (observed f g env) (self.finish c changed) (w, m) = (.ok r, s)) :
    ∃ leaf, self.leafCert c = .ok leaf ∧ self.issueResult leaf changed = .ok r ∧
      if (changed && self.flow.postRenewalScript.truthy) = true then
        hookEnd env.runScript = .ok () ∧ s = (hooked env w, g w (hooked env w) m)
      else s = (w, m) := by
  rw [eval_finish] at h
  cases hleaf : self.leafCert c with
  | error e => simp [hleaf] at h
  | ok leaf =>
    simp only [hleaf] at h
    refine ⟨leaf, rfl, ?_⟩
    split at h
    · next hdue =>
      rw [if_pos hdue]
      cases hend : hookEnd env.runScript with
      | error e => rw [hend] at h; cases h
      | ok u =>
        rw [hend] at h
        obtain ⟨hr, hs⟩ := Prod.mk.inj h
        exact ⟨hr, rfl, hs.symm⟩
    · next hdue =>
      rw [if_neg hdue]
      obtain ⟨hr, hs⟩ := Prod.mk.inj h
      exact ⟨hr, hs.symm⟩

/-- **A run that returns** has kept the certificate, or has issued one. -/
theorem eval_run_eq_ok (hf : ∀ p w m, f p false w w m = m) {r : IssueResult} {w' : Host} {m' : μ}
    (h : eval (observed f g env) self.run (w, m) = (.ok r, w', m')) :
    (∃ leaf, self.gate env w = .ok (some leaf) ∧ self.issueResult leaf false = .ok r ∧
      w' = w ∧ m' = m) ∨
    (self.gate env w = .ok none ∧ ∃ i : self.Issuance env w,
      self.issueResult i.leaf i.changed = .ok r ∧ w' = i.final ∧
      m' = if i.due then g i.written i.final (i.marks f m) else i.marks f m) := by
  rw [eval_run] at h
  cases hgate : self.gate env w with
  | error e => rw [hgate] at h; cases h
  | ok found =>
    rw [hgate] at h
    cases found with
    | some leaf =>
      obtain ⟨hr, hw⟩ := Prod.mk.inj h
      obtain ⟨rfl, rfl⟩ := Prod.mk.inj hw
      exact .inl ⟨leaf, rfl, hr, rfl, rfl⟩
    | none =>
      refine .inr ⟨rfl, ?_⟩
      cases hobtain : env.obtain with
      | error e => simp [hobtain] at h
      | ok pair =>
        simp only [hobtain] at h
        obtain ⟨p, q, hp, hq⟩ := paths_of_gate hgate
        obtain ⟨changed, s, hwrite, hfinish⟩ := eval_bind_eq_ok.mp h
        obtain ⟨hcert, ⟨rekeyed, hkey⟩, rfl⟩ := eval_write_eq_ok hf hp hq hwrite
        obtain ⟨leaf, hleaf, hr, hend⟩ := eval_finish_eq_ok hfinish
        let i : self.Issuance env w := {
          certPem := pair.1, keyPem := pair.2, obtained := hobtain, certOut := p, certPath := hp
          keyOut := q, keyPath := hq, changed, certWritten := hcert, rekeyed, keyWritten := hkey
          leaf, parsed := hleaf
          hookDone := fun hdue => by rw [if_pos hdue] at hend; exact hend.1 }
        refine ⟨i, hr, ?_⟩
        by_cases hdue : i.due = true
        · obtain ⟨hw, hm⟩ := Prod.mk.inj ((if_pos hdue).mp hend).2
          rw [if_pos hdue, i.final_of_due hdue]
          exact ⟨hw, hm⟩
        · obtain ⟨hw, hm⟩ := Prod.mk.inj ((if_neg hdue).mp hend)
          rw [if_neg hdue, i.final_of_not_due hdue]
          exact ⟨hw, hm⟩

/-- **A run that returns**, watched by nobody. -/
theorem eval_host_run_eq_ok {r : IssueResult} {w' : Host}
    (h : eval (host env) self.run w = (.ok r, w')) :
    (∃ leaf, self.gate env w = .ok (some leaf) ∧ self.issueResult leaf false = .ok r ∧ w' = w) ∨
    (self.gate env w = .ok none ∧ ∃ i : self.Issuance env w,
      self.issueResult i.leaf i.changed = .ok r ∧ w' = i.final) := by
  rw [eval_host] at h
  obtain ⟨hr, hw⟩ := Prod.mk.inj h
  rcases eval_run_eq_ok (fun _ _ _ => rfl) (Prod.ext hr (Prod.ext hw rfl)) with h | ⟨hgate, i, h⟩
  · obtain ⟨leaf, hgate, hr, hw, -⟩ := h
    exact .inl ⟨leaf, hgate, hr, hw⟩
  · exact .inr ⟨hgate, i, h.1, h.2.1⟩

/-! ### The calls of an issuance -/

/-- The calls an issuance of the pair `c`, `k` may make: no `_obtain`, and no text but `c` in the
certificate file and `k` in the key file. -/
def IssueOp (self : FlowRunner) (c k : Text) : HostOp → Prop
  | .obtain => False
  | .writeText p t => self.certPath = .ok p ∧ t = c ∨ self.keyPath = .ok p ∧ t = k
  | _ => True

theorem uses_writeIfChanged {A : (o : HostOp) → Except Exc o.Ans → Prop} {Q : HostOp → Prop}
    {p : Path} {t : Text} {mode : ℕ} (hmkdir : Q (.mkdirParents p)) (hread : Q (.readText p))
    (hwrite : Q (.writeText p t)) (hchmod : Q (.chmod p mode)) :
    (writeIfChanged p t mode).Uses A Q := by
  refine (uses_sys hmkdir).bind fun _ => Uses.bind ?_ fun there => ?_
  · refine Uses.tryCatch ((uses_sys hread).bind fun old => trivial) fun e => ?_
    split <;> trivial
  · cases there with
    | true => trivial
    | false => exact (uses_sys hwrite).bind fun _ => (uses_sys hchmod).bind fun _ => trivial

theorem uses_issue {A : (o : HostOp) → Except Exc o.Ans → Prop} (c k : Text) :
    (self.issue c k).Uses A (self.IssueOp c k) := by
  refine Uses.bind ?_ fun changed => (uses_ofExcept _).bind fun leaf => ?_
  · rw [write]
    split
    · trivial
    · refine uses_ofExcept_bind fun p hp => Uses.bind ?_ fun changed => ?_
      · exact uses_writeIfChanged trivial trivial (.inl ⟨hp, rfl⟩) trivial
      · refine uses_ofExcept_bind fun q hq => Uses.bind ?_ fun _ => trivial
        exact uses_writeIfChanged trivial trivial (.inr ⟨hq, rfl⟩) trivial
  · split
    · refine Uses.bind (Uses.tryCatch ?_ fun e => ?_) fun _ => uses_ofExcept _
      · exact (uses_sys trivial).bind fun _ => trivial
      · split <;> trivial
    · exact uses_ofExcept _

/-! ### What a run passes through -/

section Always

variable {I : Host × μ → Prop}

theorem always_finish (h : I (w, m)) (hhook : I (hooked env w, g w (hooked env w) m))
    (c : Text) (changed : Bool) :
    Always (observed f g env) I (self.finish c changed) (w, m) := by
  refine always_bind.mpr ⟨(always_ofExcept _ _).mpr h, fun leaf s hs => ?_⟩
  rw [eval_ofExcept] at hs
  obtain rfl : (w, m) = s := congrArg Prod.snd hs
  split
  · have hrun : Always (observed f g env) I self.runPostRenewal (w, m) := by
      have hcall : Always (observed f g env) I
          (do let _ ← sys (.runScript self.flow.postRenewalScript); return () : Runner Unit)
          (w, m) := by
        refine always_bind.mpr ⟨(always_sys _ _ _).mpr ⟨h, hhook⟩, fun r s hs => ?_⟩
        rw [eval_sys] at hs
        exact (congrArg (fun x => I x.2) hs).mp hhook
      refine always_tryCatch.mpr ⟨hcall, fun e s hs => ?_⟩
      have hI := hcall.eval
      rw [hs] at hI
      split <;> exact hI
    refine always_bind.mpr ⟨hrun, fun u s hs => (always_ofExcept _ _).mpr ?_⟩
    have hI := hrun.eval
    rwa [hs] at hI
  · exact (always_ofExcept _ _).mpr h

theorem always_write (hf : ∀ p w m, f p false w w m = m) (h : I (w, m)) {c k : Text} {p q : Path}
    (hp : self.certPath = .ok p) (hq : self.keyPath = .ok q)
    (hmode : ∀ p mode w m, I (w, m) → I (w.setMode p mode, m))
    (hcert : (∀ b, I (w.put p b, f p false w (w.put p b) m)) ∧
      ∀ b, encode c = .ok b → I (w.put p b, f p true w (w.put p b) m))
    (hkey : ∀ x : WriteEnd, x = .kept ∧ w.readText p = .ok c ∨
        (∃ b, x = .done b ∧ encode c = .ok b) →
      let w₁ := x.apply p 0o644 w
      let m₁ := x.mark f p w m
      I (w₁, m₁) ∧ (∀ b, I (w₁.put q b, f q false w₁ (w₁.put q b) m₁)) ∧
        ∀ b, encode k = .ok b → I (w₁.put q b, f q true w₁ (w₁.put q b) m₁)) :
    Always (observed f g env) I (self.write c (some k)) (w, m) := by
  rw [write, hp, hq]
  split
  · exact h
  · simp only [ofExcept_ok, ret_bind]
    refine always_bind.mpr ⟨always_writeIfChanged h (hf ..) hcert.1 hcert.2 (hmode p 0o644), ?_⟩
    intro changed s hs
    rw [eval_writeIfChanged hf] at hs
    obtain ⟨hresult, hs⟩ := Prod.mk.inj hs
    subst hs
    have hx : writeEnd env w p c = .kept ∧ w.readText p = .ok c ∨
        ∃ b, writeEnd env w p c = .done b ∧ encode c = .ok b := by
      rcases WriteEnd.result_eq_ok hresult with ⟨hkept, -⟩ | ⟨b, hdone, -⟩
      · exact .inl ⟨hkept, readText_of_kept hkept⟩
      · exact .inr ⟨b, hdone, encode_of_writeEnd (.inl hdone)⟩
    obtain ⟨h₁, htorn, hwhole⟩ := hkey _ hx
    have hwrite : Always (observed f g env) I (writeIfChanged q k 0o600)
        ((writeEnd env w p c).apply p 0o644 w, (writeEnd env w p c).mark f p w m) :=
      always_writeIfChanged h₁ (hf ..) htorn hwhole (hmode q 0o600)
    refine always_bind.mpr ⟨hwrite, fun rekeyed s hs => ?_⟩
    have hI := hwrite.eval
    rwa [hs] at hI

/-- **What a run passes through.** An assertion that survives changes of mode and the hook holds at
every step of a run, if it holds before the run and after whatever each of its two writes can leave:
anything at all, or the whole content. The key is written after a certificate that is there. -/
theorem always_run (hf : ∀ p w m, f p false w w m = m) (h : I (w, m))
    (hmode : ∀ p mode w m, I (w, m) → I (w.setMode p mode, m))
    (hhook : ∀ w m, I (w, m) → I (hooked env w, g w (hooked env w) m))
    (hcert : ∀ c k p q, env.obtain = .ok (c, k) → self.certPath = .ok p → self.keyPath = .ok q →
      (∀ b, I (w.put p b, f p false w (w.put p b) m)) ∧
        ∀ b, encode c = .ok b → I (w.put p b, f p true w (w.put p b) m))
    (hkey : ∀ c k p q, env.obtain = .ok (c, k) → self.certPath = .ok p → self.keyPath = .ok q →
      ∀ x : WriteEnd, x = .kept ∧ w.readText p = .ok c ∨ (∃ b, x = .done b ∧ encode c = .ok b) →
        let w₁ := x.apply p 0o644 w
        let m₁ := x.mark f p w m
        I (w₁, m₁) ∧ (∀ b, I (w₁.put q b, f q false w₁ (w₁.put q b) m₁)) ∧
          ∀ b, encode k = .ok b → I (w₁.put q b, f q true w₁ (w₁.put q b) m₁)) :
    Always (observed f g env) I self.run (w, m) := by
  refine always_bind.mpr ⟨self.uses_upToDate.always observed_readOnly h, fun found s hs => ?_⟩
  rw [eval_observed_readOnly self.uses_upToDate, eval_upToDate] at hs
  obtain ⟨hgate, hs⟩ := Prod.mk.inj hs
  subst hs
  cases found with
  | some leaf => exact (always_ofExcept _ _).mpr h
  | none =>
    refine always_bind.mpr ⟨(always_sys _ _ _).mpr ⟨h, h⟩, fun pair s hs => ?_⟩
    rw [eval_sys, observed_apply] at hs
    have hobtain : env.obtain = .ok (pair.1, pair.2) := congrArg Prod.fst hs
    obtain rfl : (w, m) = s := congrArg Prod.snd hs
    obtain ⟨p, q, hp, hq⟩ := paths_of_gate hgate
    have hwrite : Always (observed f g env) I (self.write pair.1 (some pair.2)) (w, m) :=
      always_write hf h hp hq hmode (hcert _ _ _ _ hobtain hp hq) (hkey _ _ _ _ hobtain hp hq)
    refine always_bind.mpr ⟨hwrite, fun changed s hs => ?_⟩
    have hI := hwrite.eval
    rw [hs] at hI
    exact always_finish hI (hhook _ _ hI) _ _

end Always

end FlowRunner

end NextepAgent
