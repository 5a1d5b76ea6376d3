import NextepAgent.Issue

/-!
# What a run that raises leaves behind

Before `_obtain` has returned, an exception leaves everything as it was. After that there are six
more places to raise: two in each write, the parse of what was obtained, and the hook. The parse
comes after both files are overwritten, and each overwritten file is truncated first. So a run that
raises is harmless only if it raises before the first byte changes, and once a byte has changed the
run has to get to its end.

## Main definitions

* `FlowRunner.Reports` — the end of a run gets through
* `FlowRunner.CannotHurt` — the condition, read off the environment and the files before the run

## Main results

* `FlowRunner.unchanged_of_raise_iff`
-/

namespace NextepAgent

open Effect Program

namespace FlowRunner

variable {self : FlowRunner} {env : HostEnv} {w : Host} {p q : Path} {c k : Text}

/-- The end of a run gets through: the obtained text is a certificate with readable names, and the
hook, if it is due, ends well. -/
def Reports (self : FlowRunner) (env : HostEnv) (certPem : Text) (changed : Bool) : Prop :=
  ∃ leaf, self.leafCert certPem = .ok leaf ∧ (∃ sans, sansOf leaf = .ok sans) ∧
    ((changed && self.flow.postRenewalScript.truthy) = true → hookEnd env.runScript = .ok ())

/-- A run that raises cannot hurt. If the run gets as far as writing, it either leaves both files
with the bytes they have, or completes both writes and gets through its end. -/
def CannotHurt (self : FlowRunner) (env : HostEnv) (w : Host) : Prop :=
  ∀ c k p q, self.gate env w = .ok none → env.obtain = .ok (c, k) →
    self.flow.name.truthy = true → self.certPath = .ok p → self.keyPath = .ok q →
      let certEnd := writeEnd env w p c
      let keyEnd := writeEnd env w q k
      certEnd.Harmless (w.bytes p) ∧
          ((∃ changed, certEnd.result = .ok changed) → keyEnd.Harmless (w.bytes q)) ∨
        ∃ changed rekeyed, certEnd.result = .ok changed ∧ keyEnd.result = .ok rekeyed ∧
          self.Reports env c changed

/-! ### The part that writes -/

/-- It gets through exactly when it can report. -/
theorem isOk_finish (self : FlowRunner) (env : HostEnv) (w : Host) (c : Text) (changed : Bool) :
    (∃ r, (eval (host env) (self.finish c changed) w).1 = .ok r) ↔ self.Reports env c changed := by
  have hresult : ∀ leaf, (∃ r, self.issueResult leaf changed = .ok r) ↔
      ∃ sans, sansOf leaf = .ok sans := by
    intro leaf
    rw [issueResult]
    cases sansOf leaf with
    | error e => exact ⟨fun ⟨r, hr⟩ => (nomatch hr), fun ⟨sans, hsans⟩ => (nomatch hsans)⟩
    | ok sans => exact ⟨fun _ => ⟨sans, rfl⟩, fun _ => ⟨_, rfl⟩⟩
  rw [eval_host, eval_finish, Reports]
  cases self.leafCert c with
  | error e => simp
  | ok leaf =>
    simp only [Except.ok.injEq, exists_eq_left']
    rw [← hresult]
    split
    · next hdue =>
      rw [hdue]
      cases hookEnd env.runScript with
      | error e => simp [bind, Except.bind]
      | ok u => simp [bind, Except.bind]
    · next hdue => simp [hdue]

/-- **When a run that raises is harmless**, once `_obtain` has returned. -/
theorem unchanged_of_raise_issue_iff (hname : self.flow.name.truthy = true)
    (hp : self.certPath = .ok p) (hq : self.keyPath = .ok q) :
    (∀ e w', eval (host env) (self.issue c k) w = (.error e, w') →
        w'.bytes p = w.bytes p ∧ w'.bytes q = w.bytes q) ↔
      (writeEnd env w p c).Harmless (w.bytes p) ∧
          ((∃ changed, (writeEnd env w p c).result = .ok changed) →
            (writeEnd env w q k).Harmless (w.bytes q)) ∨
        ∃ changed rekeyed, (writeEnd env w p c).result = .ok changed ∧
          (writeEnd env w q k).result = .ok rekeyed ∧ self.Reports env c changed := by
  have hne := certPath_ne_keyPath hp hq
  have hwrite := eval_host_write env w c k hname hp hq
  cases hcert : (writeEnd env w p c).result with
  | error e =>
    rw [hcert] at hwrite
    rw [issue, eval_bind_of_error hwrite]
    simp [WriteEnd.bytes_apply_self, WriteEnd.bytes_apply_of_ne _ _ _ hne.symm, WriteEnd.Harmless]
  | ok changed =>
    cases hkey : (writeEnd env w q k).result with
    | error e =>
      rw [hcert, hkey] at hwrite
      rw [issue, eval_bind_of_error hwrite]
      simp [WriteEnd.bytes_apply_self, WriteEnd.bytes_apply_of_ne _ _ _ hne.symm,
        WriteEnd.bytes_apply_of_ne _ _ _ hne, WriteEnd.Harmless]
    | ok rekeyed =>
      rw [hcert, hkey] at hwrite
      rw [issue, eval_bind_of_ok hwrite]
      have hfinish := self.isOk_finish env
        ((writeEnd env w q k).apply q 0o600 ((writeEnd env w p c).apply p 0o644 w)) c changed
      have hbytes := self.bytes_finish env
        ((writeEnd env w q k).apply q 0o600 ((writeEnd env w p c).apply p 0o644 w)) c changed
      rcases heval : eval (host env) (self.finish c changed)
        ((writeEnd env w q k).apply q 0o600 ((writeEnd env w p c).apply p 0o644 w)) with ⟨r, w₂⟩
      rw [heval] at hfinish hbytes
      cases r with
      | ok r =>
        refine iff_of_true (fun e w' he => by simp at he) (.inr ⟨changed, rekeyed, rfl, rfl, ?_⟩)
        exact hfinish.mp ⟨r, rfl⟩
      | error e =>
        have hnot : ¬ self.Reports env c changed := fun h => by simpa using hfinish.mpr h
        have hp₂ := hbytes p
        have hq₂ := hbytes q
        simp only [WriteEnd.bytes_apply_self, WriteEnd.bytes_apply_of_ne _ _ _ hne.symm,
          WriteEnd.bytes_apply_of_ne _ _ _ hne] at hp₂ hq₂
        simp [hp₂, hq₂, hnot, WriteEnd.Harmless]

/-- **When a run that raises is harmless.** A run that raises leaves the certificate file and the key
file byte for byte as they were exactly when it cannot hurt. -/
theorem unchanged_of_raise_iff (self : FlowRunner) (env : HostEnv) (w : Host) :
    (∀ e w', eval (host env) self.run w = (.error e, w') →
        self.certBytes w' = self.certBytes w ∧ self.keyBytes w' = self.keyBytes w) ↔
      self.CannotHurt env w := by
  rw [eval_host_run]
  cases hgate : self.gate env w with
  | error e =>
    refine iff_of_true (fun e' w' he => ?_) fun c k p q hnone => nomatch hgate.symm.trans hnone
    cases he
    exact ⟨rfl, rfl⟩
  | ok found =>
    cases found with
    | some leaf =>
      refine iff_of_true (fun e' w' he => ?_) fun c k p q hnone => nomatch hgate.symm.trans hnone
      cases (Prod.mk.inj he).2
      exact ⟨rfl, rfl⟩
    | none =>
      obtain ⟨p, q, hp, hq⟩ := paths_of_gate hgate
      cases hobtain : env.obtain with
      | error e =>
        refine iff_of_true (fun e' w' he => ?_) fun c k p q _ hck => nomatch hobtain.symm.trans hck
        cases (Prod.mk.inj he).2
        exact ⟨rfl, rfl⟩
      | ok pair =>
        have hbytes : ∀ w' : Host, self.certBytes w' = w'.bytes p ∧ self.keyBytes w' = w'.bytes q :=
          fun w' => ⟨certBytes_of_certPath hp w', keyBytes_of_keyPath hq w'⟩
        simp only [(hbytes _).1, (hbytes _).2]
        cases hname : self.flow.name.truthy with
        | false =>
          refine iff_of_true (fun e' w' he => ?_)
            fun c k p q _ _ htrue => nomatch hname.symm.trans htrue
          rw [issue, eval_bind_of_error (eval_host_write_of_not_truthy hname)] at he
          cases (Prod.mk.inj he).2
          exact ⟨rfl, rfl⟩
        | true =>
          refine (unchanged_of_raise_issue_iff hname hp hq).trans ⟨fun h => ?_, fun h => ?_⟩
          · intro c k p' q' _ hck _ hp' hq'
            cases hobtain.symm.trans hck
            cases hp.symm.trans hp'
            cases hq.symm.trans hq'
            exact h
          · exact h _ _ _ _ hgate hobtain hname hp hq

/-- **Text that is not a certificate.** Both files are overwritten before anybody finds out. -/
theorem overwritten_by_text :
    ¬ ∀ (self : FlowRunner) (env : HostEnv) (w : Host) (e : Exc) (w' : Host),
      eval (host env) self.run w = (.error e, w') →
        self.certBytes w' = self.certBytes w ∧ self.keyBytes w' = self.keyBytes w := by
  intro h
  have hsame := h
    (demoRunner (demoFlow "app") [("A", ⟨100 * day, 200 * day, .ok (some [.dns "app"])⟩)])
    (demoEnv (190 * day) (.ok (.ofString "oops", .ofString "L"))) (demoHost "A" "K")
    ⟨.valueError, "Unable to load PEM file"⟩ _ (Prod.ext (by decide) rfl)
  exact absurd hsame.1 (by decide)

end FlowRunner

end NextepAgent
