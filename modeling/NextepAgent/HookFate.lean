import NextepAgent.Idempotence
import NextepAgent.Refresh

/-!
# What the hook does to the outcome

The hook is run after both files have been written, and what it exits with is only logged. So is that
it took too long. But `subprocess.run` is asked for text, and decodes what the script has written,
strictly. A script that writes one byte that is not UTF-8, to either stream and whatever it exits
with, raises out of `run`. The certificate is deployed then, and the flow has failed: it is reported
as a failure, and not armed.

The comparison is between two runs, of the flow as it is and of the same flow without a script. They
do the same up to the hook.

## Main definitions

* `ScriptRun.Understood` — a script whose end is only logged
* `FlowRunner.unhooked` — the flow without its script
* `FlowRunner.HookHarmless` — its result is the result of the run, and the service takes it for one

## Main results

* `hookEnd_eq_ok_iff`
* `FlowRunner.hook_fate_iff`
-/

namespace NextepAgent

open Effect Program

/-! ### Scripts -/

/-- There was a process, and it timed out, or what it wrote is text. -/
def ScriptRun.Understood : ScriptRun → Prop
  | .refused _ _ => False
  | .exited _ out err => (∃ o, readText out = .ok o) ∧ ∃ e, readText err = .ok e
  | .timedOut => True

theorem timeoutExpired_of_readText {b : Bytes} {e : Exc} (he : readText b = .error e) :
    e.isA .timeoutExpired = false := by
  rw [readText] at he
  cases hdecode : decode b with
  | ok t => rw [hdecode] at he; cases he
  | error e' =>
    rw [hdecode] at he
    cases he
    rw [decode_eq_error hdecode]
    rfl

/-- **What the hook forgives**: every exit code, and running out of time. -/
theorem hookEnd_eq_ok_iff {script : ScriptRun} : hookEnd script = .ok () ↔ script.Understood := by
  cases script with
  | refused e he => simp [hookEnd, ScriptRun.result, he, ScriptRun.Understood]
  | timedOut => simp [hookEnd, ScriptRun.result, Exc.isA, ScriptRun.Understood]
  | exited code out err =>
    rw [hookEnd, ScriptRun.result, ScriptRun.Understood]
    cases hout : readText out with
    | error e =>
      simp [timeoutExpired_of_readText hout, bind, Except.bind]
    | ok o =>
      cases herr : readText err with
      | error e => simp [timeoutExpired_of_readText herr, bind, Except.bind]
      | ok e => simp [bind, Except.bind, pure, Except.pure]

namespace FlowRunner

variable {self : FlowRunner} {env : HostEnv} {w : Host} {c k : Text} {p q : Path} {r : IssueResult}

/-! ### With the script, and without -/

/-- The flow without its script. -/
def unhooked (self : FlowRunner) : FlowRunner :=
  { self with flow := { self.flow with postRenewalScript := .null } }

@[simp] theorem gate_unhooked (self : FlowRunner) (env : HostEnv) (w : Host) :
    self.unhooked.gate env w = self.gate env w := rfl

@[simp] theorem write_unhooked (self : FlowRunner) (c : Text) (k : Option Text) :
    self.unhooked.write c k = self.write c k := rfl

@[simp] theorem leafCert_unhooked (self : FlowRunner) (c : Text) :
    self.unhooked.leafCert c = self.leafCert c := rfl

@[simp] theorem issueResult_unhooked (self : FlowRunner) (leaf : Certificate) (changed : Bool) :
    self.unhooked.issueResult leaf changed = self.issueResult leaf changed := rfl

/-- The end of a run without a script. -/
theorem finish_unhooked (changed : Bool) :
    eval (host env) (self.unhooked.finish c changed) w =
      (self.leafCert c >>= fun leaf => self.issueResult leaf changed, w) := by
  rw [eval_host, eval_finish, leafCert_unhooked]
  cases self.leafCert c with
  | error e => rfl
  | ok leaf =>
    have hnone : (changed && self.unhooked.flow.postRenewalScript.truthy) = false :=
      Bool.and_false changed
    dsimp only
    rw [hnone, if_neg Bool.false_ne_true, issueResult_unhooked]
    rfl

/-- The end of a run with one. -/
theorem finish_hooked (hscript : self.flow.postRenewalScript.truthy = true) (changed : Bool)
    (h : (eval (host env) (self.unhooked.finish c changed) w).1 = .ok r) :
    (eval (host env) (self.finish c changed) w).1 = .ok r ↔
      changed = false ∨ hookEnd env.runScript = .ok () := by
  rw [finish_unhooked] at h
  rw [eval_host, eval_finish, hscript]
  cases hleaf : self.leafCert c with
  | error e => rw [hleaf] at h; cases h
  | ok leaf =>
    rw [hleaf] at h
    have hr : self.issueResult leaf changed = .ok r := h
    cases changed with
    | false => simp [hr]
    | true =>
      cases hhook : hookEnd env.runScript with
      | error e => simp [bind, Except.bind]
      | ok u => simp [hr, bind, Except.bind]

/-- A run that obtains a certificate, and writes it. -/
theorem eval_host_run_of_obtain (hgate : self.gate env w = .ok none)
    (hobtain : env.obtain = .ok (c, k)) :
    eval (host env) self.run w = eval (host env) (self.issue c k) w := by
  rw [eval_host_run, hgate, hobtain]

/-- The certificate file is left alone just if it reads as the certificate already. -/
theorem writeEnd_eq_kept_iff {changed : Bool} (h : (writeEnd env w p c).result = .ok changed) :
    changed = false ↔ (host env (.readText p) w).1 = .ok c := by
  constructor
  · rintro rfl
    rcases WriteEnd.result_eq_ok h with ⟨hkept, -⟩ | ⟨b, -, htrue⟩
    · exact host_readText_of_kept hkept
    · cases htrue
  · intro hread
    rw [writeEnd] at h
    cases hmkdir : (host env (.mkdirParents p) w).1 with
    | error e => rw [hmkdir] at h; cases h
    | ok u =>
      rw [hmkdir, eval_readsAs, hread] at h
      simp only [beq_self_eq_true] at h
      exact (Except.ok.inj h).symm

/-- Of a run that gets through both writes, how the write of the certificate ended. -/
theorem result_of_write (hname : self.flow.name.truthy = true) (hp : self.certPath = .ok p)
    (hq : self.keyPath = .ok q) {changed : Bool} {w' : Host}
    (h : eval (host env) (self.write c (some k)) w = (.ok changed, w')) :
    (writeEnd env w p c).result = .ok changed := by
  rw [eval_host_write env w c k hname hp hq] at h
  cases hcert : (writeEnd env w p c).result with
  | error e => rw [hcert] at h; cases h
  | ok ch =>
    rw [hcert] at h
    cases hkey : (writeEnd env w q k).result with
    | error e => rw [hkey] at h; cases h
    | ok rekeyed =>
      rw [hkey] at h
      exact (Prod.mk.inj h).1

/-- The flow has the result `r`, and the service takes it for one: it goes on to arm the flow and to
report that it was issued. -/
def HookHarmless (self : FlowRunner) (env : HostEnv) (w : Host) (r : IssueResult) : Prop :=
  (eval (host env) self.run w).1 = .ok r ∧
    ∀ (senv : ServiceEnv) (i : ℕ), senv.run i = (eval (host env) self.run w).1 →
      faulty (senv.makeRunner i) (makeRunner self.flow) = .ok () → senv.issues i self.flow = .ok r

theorem hookHarmless_iff :
    self.HookHarmless env w r ↔ (eval (host env) self.run w).1 = .ok r := by
  refine ⟨fun h => h.1, fun h => ⟨h, fun senv i hrun hmake => ?_⟩⟩
  rw [ServiceEnv.issues, hmake, hrun, h]
  rfl

/-- **The fate of the hook.** A flow that obtains a certificate and writes it has the result it would
have without its script, just if the script is not run or its end is only logged. -/
theorem hook_fate_iff (fr : FlowRunner) (env : HostEnv) (w : Host) (c k : Text) (p : Path)
    (r : IssueResult) (hscript : fr.flow.postRenewalScript.truthy = true)
    (hgate : fr.gate env w = .ok none) (hobtain : env.obtain = .ok (c, k))
    (hp : fr.certPath = .ok p) (hrun : (eval (host env) fr.unhooked.run w).1 = .ok r) :
    fr.HookHarmless env w r ↔
      (host env (.readText p) w).1 = .ok c ∨ env.runScript.Understood := by
  -- The gate does not look at the script.
  have hgateless : fr.unhooked.gate env w = .ok none := by rw [gate_unhooked, hgate]
  rw [hookHarmless_iff, eval_host_run_of_obtain hgate hobtain]
  rw [eval_host_run_of_obtain hgateless hobtain] at hrun
  rw [issue, write_unhooked] at hrun
  rw [issue]
  rcases hwrite : eval (host env) (fr.write c (some k)) w with ⟨written, w'⟩
  cases written with
  | error e => rw [eval_bind_of_error hwrite] at hrun; cases hrun
  | ok changed =>
    have hname : fr.flow.name.truthy = true := by
      cases hname : fr.flow.name.truthy with
      | true => rfl
      | false => rw [eval_host_write_of_not_truthy hname] at hwrite; cases hwrite
    obtain ⟨p', q, hp', hq⟩ := paths_of_gate hgate
    rw [eval_bind_of_ok hwrite] at hrun ⊢
    rw [finish_hooked hscript changed hrun, hookEnd_eq_ok_iff,
      writeEnd_eq_kept_iff (result_of_write hname hp hq hwrite)]

/-- A host where everything works, and what becomes of the script. -/
def scriptEnv (script : ScriptRun) : HostEnv := { appRun with runScript := script }

/-- The demo flow with a hook, and a parser that knows one certificate. -/
def reloadRunner : FlowRunner :=
  demoRunner { demoFlow "app" with postRenewalScript := .str "reload" } [("A", appLeaf)]

/-- What it reports once it has issued. -/
def reloadResult : IssueResult := ⟨"internal", 100 * day, 200 * day, ["app"], true⟩

/-- A script that fails, and says so. -/
theorem hook_fate_iff_demo :
    reloadRunner.HookHarmless (scriptEnv (.exited 1 .empty "no such unit\n".toByteArray)) noFiles
      reloadResult :=
  (hook_fate_iff reloadRunner (scriptEnv (.exited 1 .empty "no such unit\n".toByteArray)) noFiles
    (.ofString "A") (.ofString "K") demoCert reloadResult (by decide) (by decide) rfl rfl
    (by decide)).mpr (.inr ⟨⟨[], by decide⟩, ⟨.ofString "no such unit\n", by decide⟩⟩)

/-- **A byte that is not UTF-8.** The script ends well, and has written `0xff`. -/
theorem hook_fails_flow :
    ¬ ∀ (fr : FlowRunner) (env : HostEnv) (w : Host) (r : IssueResult),
      fr.flow.postRenewalScript.truthy = true → fr.gate env w = .ok none →
      (∃ code out err, env.runScript = .exited code out err) →
      (eval (host env) fr.unhooked.run w).1 = .ok r → (eval (host env) fr.run w).1 = .ok r := by
  intro h
  have hresult := h reloadRunner (scriptEnv (.exited 0 ⟨#[0xff]⟩ .empty)) noFiles reloadResult
    (by decide) (by decide) ⟨_, _, _, rfl⟩ (by decide)
  exact absurd hresult (by decide)

end FlowRunner

end NextepAgent
