import NextepAgent.Effect.Footprint
import NextepAgent.KeyPair

/-!
# Whether the hook is owed

The post-renewal script is due when the files of a flow have changed and it has not been launched
since. No run stores that. A run knows only whether *it* changed the certificate file, and forgets it
when it stops. So an observer keeps the account here, over a whole history, and the question is which
attempts leave it settled.

An attempt that changes the certificate settles it, if it gets as far as the hook. There are two
ways not to: to stop on the way, by an exception or with the process, and to find the certificate in
its file already and change the key alone, for which nothing is launched. An attempt of neither kind
leaves nothing owed if nothing was owed before.

## Main definitions

* `FlowRunner.account`, `accountAll` — the host, and whether the hook is owed on it
* `FlowRunner.StopsBeforeHook`, `FlowRunner.RekeysOnly` — the two ways to leave it owed

## Main results

* `FlowRunner.settled_account_iff` — one attempt
* `FlowRunner.not_owed_iff` — exactly the histories in which nothing is ever left owed
-/

namespace NextepAgent

open Effect Program

namespace FlowRunner

/-- A write makes the hook due if it changes the bytes of its file. -/
def owe (p : Path) (_ok : Bool) (w w' : Host) (owed : Bool) : Bool :=
  owed || decide (w'.bytes p ≠ w.bytes p)

/-- A launch settles the account. -/
def settle (w w' : Host) (owed : Bool) : Bool := owed && decide (w'.launches = w.launches)

/-- An attempt, with the account. -/
def account (self : FlowRunner) (s : Host × Bool) (a : Attempt) : Host × Bool :=
  (exec (observed owe settle a.env) a.calls self.run s).2

/-- Several attempts, with the account. -/
def accountAll (self : FlowRunner) (s : Host × Bool) (hist : List Attempt) : Host × Bool :=
  hist.foldl self.account s

variable {self : FlowRunner} {env : HostEnv} {w : Host}

/-- The account does not change what an attempt does. -/
theorem fst_account (s : Host × Bool) (a : Attempt) : (self.account s a).1 = self.after s.1 a :=
  congrArg Prod.snd (exec_watch (host a.env) (onWrites owe settle) a.calls self.run s.1 s.2)

/-- The account of a history goes through the states of the history. -/
theorem fst_accountAll (s : Host × Bool) (hist : List Attempt) :
    (self.accountAll s hist).1 = self.afterAll s.1 hist := by
  induction hist generalizing s with
  | nil => rfl
  | cons a hist ih =>
    rw [accountAll, List.foldl_cons, afterAll, List.foldl_cons, ← fst_account]
    exact ih _

/-- A hook that ends well has been launched. -/
theorem launched_of_hookEnd {script : ScriptRun} (h : hookEnd script = .ok ()) :
    script.launched = true := by
  cases script with
  | refused e he => simp [hookEnd, ScriptRun.result, he] at h
  | exited code out err => rfl
  | timedOut => rfl

/-- An issuance that changes the certificate settles the account. -/
theorem Issuance.settle_of_changed (i : self.Issuance env w)
    (hscript : self.flow.postRenewalScript.truthy = true) (hchanged : i.changed = true)
    (owed : Bool) :
    (if i.due then settle i.written i.final (i.marks owe owed) else i.marks owe owed) = false := by
  have hdue : i.due = true := by rw [due, hchanged, hscript]; rfl
  rw [if_pos hdue, i.final_of_due hdue, hooked, launched_of_hookEnd (i.hookDone hdue)]
  simp [settle]

/-- An issuance that does not change the certificate adds a changed key to the account. -/
theorem Issuance.marks_of_not_changed (i : self.Issuance env w) (hchanged : i.changed = false)
    (owed : Bool) :
    (if i.due then settle i.written i.final (i.marks owe owed) else i.marks owe owed) = false ↔
      owed = false ∧ (writeEnd env w i.keyOut i.keyPem).Harmless (w.bytes i.keyOut) := by
  have hdue : ¬ i.due = true := by rw [due, hchanged]; simp
  have hkept : writeEnd env w i.certOut i.certPem = .kept := by
    rcases WriteEnd.result_eq_ok i.certWritten with ⟨hkept, -⟩ | ⟨b, -, htrue⟩
    · exact hkept
    · rw [hchanged] at htrue
      cases htrue
  rw [if_neg hdue, marks, certified, hkept, WriteEnd.mark, WriteEnd.apply]
  rcases WriteEnd.result_eq_ok i.keyWritten with ⟨hkey, -⟩ | ⟨b, hkey, -⟩
  · simp [hkey, WriteEnd.mark, WriteEnd.Harmless, WriteEnd.left]
  · simp [hkey, WriteEnd.mark, WriteEnd.Harmless, WriteEnd.left, owe]

/-! ### One attempt -/

/-- The attempt gets through: the run returns. -/
def Returns (self : FlowRunner) (w : Host) (a : Attempt) : Prop :=
  ∃ r, (exec (host a.env) a.calls self.run w).1 = ret r

/-- The attempt stops, by an exception or with the process, when it has changed a file and not
launched the hook. -/
def StopsBeforeHook (self : FlowRunner) (w : Host) (a : Attempt) : Prop :=
  ¬ self.Returns w a ∧ (∃ p, (self.after w a).bytes p ≠ w.bytes p) ∧
    (self.after w a).launches = w.launches

/-- The attempt gets through, finds the certificate it has obtained in its file, and changes the
key. -/
def RekeysOnly (self : FlowRunner) (w : Host) (a : Attempt) : Prop :=
  self.Returns w a ∧ self.gate a.env w = .ok none ∧
    ∃ c k p q, a.env.obtain = .ok (c, k) ∧ self.certPath = .ok p ∧ self.keyPath = .ok q ∧
      writeEnd a.env w p c = .kept ∧ ¬ (writeEnd a.env w q k).Harmless (w.bytes q)

/-- What is true of the account at every step of a run from `w`, on which nothing was owed. -/
def Truthful (w : Host) (s : Host × Bool) : Prop :=
  w.launches ≤ s.1.launches ∧
    (s.2 = true ↔ (∃ p, s.1.bytes p ≠ w.bytes p) ∧ s.1.launches = w.launches)

theorem truthful_refl (w : Host) : Truthful w (w, false) := by simp [Truthful]

/-- A write to a file that no write has changed so far. -/
theorem Truthful.put {w' : Host} {owed ok : Bool} {q : Path} {b : Bytes} (h : Truthful w (w', owed))
    (hq : w'.bytes q = w.bytes q) (hlaunches : w'.launches = w.launches) :
    Truthful w (w'.put q b, owe q ok w' (w'.put q b) owed) := by
  refine ⟨h.1, ?_⟩
  have hold : owed = true ↔ ∃ p, w'.bytes p ≠ w.bytes p := by
    rw [h.2]
    exact and_iff_left hlaunches
  simp only [owe, Bool.or_eq_true, decide_eq_true_eq, hold, Host.launches_put, hlaunches, and_true]
  constructor
  · rintro (⟨p, hp⟩ | hnew)
    · have hpq : p ≠ q := fun h => hp (h ▸ hq)
      exact ⟨p, by rwa [Host.bytes_put_of_ne _ _ hpq]⟩
    · exact ⟨q, hq ▸ hnew⟩
  · rintro ⟨p, hp⟩
    by_cases hpq : p = q
    · subst hpq
      exact .inr (hq.symm ▸ hp)
    · rw [Host.bytes_put_of_ne _ _ hpq] at hp
      exact .inl ⟨p, hp⟩

theorem Truthful.setMode {w' : Host} {owed : Bool} {p : Path} {mode : ℕ}
    (h : Truthful w (w', owed)) : Truthful w (w'.setMode p mode, owed) := by
  simpa [Truthful, Host.bytes_setMode] using h

theorem Truthful.hooked {w' : Host} {owed : Bool} (h : Truthful w (w', owed)) :
    Truthful w (hooked env w', settle w' (hooked env w') owed) := by
  rw [FlowRunner.hooked, settle]
  split
  · have hmore : w.launches < w'.launches + 1 := Nat.lt_succ_of_le h.1
    simp [Truthful, hmore.le, hmore.ne']
  · simpa using h

/-- The account is truthful at every step of a run. -/
theorem always_truthful (self : FlowRunner) (env : HostEnv) (w : Host) :
    Always (observed owe settle env) (Truthful w) self.run (w, false) := by
  have h₀ := truthful_refl w
  refine always_run (fun p w m => by simp [owe]) h₀ (fun p mode w' m h => h.setMode)
    (fun w' m h => h.hooked) ?_ ?_
  · intro c k p q _ _ _
    exact ⟨fun b => h₀.put rfl rfl, fun b _ => h₀.put rfl rfl⟩
  · rintro c k p q - hp hq x (⟨rfl, -⟩ | ⟨b, rfl, -⟩)
    · -- the certificate was there already
      exact ⟨h₀, fun b => h₀.put rfl rfl, fun b _ => h₀.put rfl rfl⟩
    · -- the certificate has just been written
      have h₁ : Truthful w ((w.put p b).setMode p 0o644, owe p true w (w.put p b) false) :=
        (h₀.put rfl rfl).setMode
      have hkey : ((w.put p b).setMode p 0o644).bytes q = w.bytes q := by
        rw [Host.bytes_setMode, Host.bytes_put_of_ne _ _ (certPath_ne_keyPath hp hq).symm]
      exact ⟨h₁, fun b' => h₁.put hkey rfl, fun b' _ => h₁.put hkey rfl⟩

/-- An attempt that gets through leaves the hook owed if it has changed the key alone, and only then. -/
theorem settled_of_returns {a : Attempt} (hscript : self.flow.postRenewalScript.truthy = true)
    (hret : self.Returns w a) : (self.account (w, false) a).2 = false ↔ ¬ self.RekeysOnly w a := by
  have hret' := hret
  obtain ⟨r, hr⟩ := hret'
  have hwatch := exec_watch (host a.env) (onWrites owe settle) a.calls self.run w false
  have hr' : (exec (observed owe settle a.env) a.calls self.run (w, false)).1 = ret r :=
    (congrArg Prod.fst hwatch).trans hr
  have hf : ∀ p (w : Host) m, owe p false w w m = m := fun p w m => by simp [owe]
  have heval : eval (observed owe settle a.env) self.run (w, false) =
      (.ok r, self.account (w, false) a) := eval_of_exec_ret hr'
  rcases eval_run_eq_ok hf heval with ⟨leaf, hgate, -, -, hm⟩ | ⟨hgate, i, -, -, hm⟩
  · exact iff_of_true hm fun h => nomatch hgate.symm.trans h.2.1
  · rw [account, hm]
    cases hchanged : i.changed with
    | true =>
      refine iff_of_true (i.settle_of_changed hscript hchanged false) ?_
      rintro ⟨-, -, c, k, p, q, hck, hp, hq, hkept, -⟩
      cases i.obtained.symm.trans hck
      cases i.certPath.symm.trans hp
      have hwritten := i.certWritten
      rw [hkept, hchanged] at hwritten
      cases hwritten
    | false =>
      refine (i.marks_of_not_changed hchanged false).trans ⟨?_, fun h => ⟨rfl, ?_⟩⟩
      · rintro ⟨-, hharmless⟩ ⟨-, -, c, k, p, q, hck, hp, hq, -, hchanges⟩
        cases i.obtained.symm.trans hck
        cases i.keyPath.symm.trans hq
        exact hchanges hharmless
      · by_contra hharm
        refine h ⟨hret, hgate, _, _, _, _, i.obtained, i.certPath, i.keyPath, ?_, hharm⟩
        rcases WriteEnd.result_eq_ok i.certWritten with ⟨hkept, -⟩ | ⟨b, -, htrue⟩
        · exact hkept
        · rw [hchanged] at htrue
          cases htrue

/-- **One attempt.** Where nothing was owed, an attempt leaves nothing owed exactly when it is of
neither kind. -/
theorem settled_account_iff (hscript : self.flow.postRenewalScript.truthy = true) (w : Host)
    (a : Attempt) :
    (self.account (w, false) a).2 = false ↔ ¬ self.StopsBeforeHook w a ∧ ¬ self.RekeysOnly w a := by
  by_cases hret : self.Returns w a
  · rw [settled_of_returns hscript hret]
    exact (and_iff_right fun h => h.1 hret).symm
  · have htruthful : Truthful w (self.account (w, false) a) :=
      (self.always_truthful a.env w).exec a.calls
    rw [and_iff_left fun h : self.RekeysOnly w a => hret h.1, ← Bool.not_eq_true, htruthful.2,
      fst_account]
    exact not_congr (and_iff_right hret).symm

/-! ### Histories -/

/-- **When nothing is owed.** After no attempt of a history is the hook owed, exactly when none of
them stops before the hook, and none that gets through changes the key alone. -/
theorem not_owed_iff (self : FlowRunner) (hscript : self.flow.postRenewalScript.truthy = true)
    (w₀ : Host) (hist : List Attempt) :
    (∀ hist₁ hist₂, hist = hist₁ ++ hist₂ → (self.accountAll (w₀, false) hist₁).2 = false) ↔
      ∀ hist₁ a hist₂, hist = hist₁ ++ a :: hist₂ →
        ¬ self.StopsBeforeHook (self.afterAll w₀ hist₁) a ∧
          ¬ self.RekeysOnly (self.afterAll w₀ hist₁) a := by
  have hstep : ∀ (s : Host × Bool) (a : Attempt), s.2 = false → True →
      ((self.account s a).2 = false ↔
        ¬ self.StopsBeforeHook s.1 a ∧ ¬ self.RekeysOnly s.1 a) := by
    rintro ⟨w, owed⟩ a rfl -
    exact settled_account_iff hscript w a
  have hall : Everywhere self.account (fun s => s.2 = false) (w₀, false) hist ↔
      Throughout self.account
        (fun s a => ¬ self.StopsBeforeHook s.1 a ∧ ¬ self.RekeysOnly s.1 a) (w₀, false) hist :=
    everywhere_iff_throughout hstep rfl fun _ _ _ _ => trivial
  refine hall.trans (forall₃_congr fun hist₁ a hist₂ => imp_congr_right fun _ => ?_)
  rw [← fst_accountAll (w₀, false) hist₁]
  exact Iff.rfl

/-- The demo flow with a hook. -/
def demoHooked : FlowRunner :=
  { demoPair with flow := { demoFlow "app" with postRenewalScript := .str "reload" } }

theorem not_owed_iff_demo :
    ¬ ∀ hist₁ a hist₂, [demoAttempt 12] = hist₁ ++ a :: hist₂ →
      ¬ demoHooked.StopsBeforeHook (demoHooked.afterAll (demoHost "A" "K") hist₁) a ∧
        ¬ demoHooked.RekeysOnly (demoHooked.afterAll (demoHost "A" "K") hist₁) a := by
  rw [← not_owed_iff demoHooked (by decide)]
  intro h
  exact absurd (h [demoAttempt 12] [] rfl) (by decide)

/-- **A death before the hook.** The run writes both files and dies. The next run finds a certificate
it can keep, and returns without having launched anything. -/
theorem hook_never_launched :
    ¬ ∀ (self : FlowRunner) (w₀ : Host) (hist : List Attempt) (env : HostEnv) (r : IssueResult)
      (s' : Host × Bool), self.flow.postRenewalScript.truthy = true →
      eval (observed owe settle env) self.run (self.accountAll (w₀, false) hist) = (.ok r, s') →
        s'.2 = false := by
  intro h
  have howed := h demoHooked (demoHost "A" "K") [demoAttempt 12]
    (demoEnv (191 * day) (.ok ([], []))) ⟨"internal", 190 * day, 290 * day, ["app"], false⟩ _
    (by decide) (Prod.ext (by decide) rfl)
  exact absurd howed (by decide)

end FlowRunner

end NextepAgent
