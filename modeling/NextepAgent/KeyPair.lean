import NextepAgent.Effect.History
import NextepAgent.Issue

/-!
# The key beside the certificate

The gate asks for *a* key file. Whether it holds the key of the certificate depends on how the files
came to be there, that is on every run so far and on where each of them stopped: because a call
raised, or because the process died between two calls.

There is one window. From the moment a run has changed a file until the new key is written in full,
the two files belong to different issuances. A run that stops inside the window, on a host with a
parsable certificate and a key file, leaves a mismatched pair that the gate keeps. Outside it,
nothing goes wrong: every run either changes nothing or completes the pair.

## Main definitions

* `Attempt`, `FlowRunner.after`, `FlowRunner.afterAll` — runs that may stop anywhere
* `FlowRunner.StopsBetween` — stopping inside the window
* `FlowRunner.Paired` — the two files belong together

## Main results

* `FlowRunner.paired_of_gate` — what the gate keeps is a pair, if no run stopped in the window
-/

namespace NextepAgent

open Effect Program

/-! ### Runs that may stop anywhere -/

/-- A run and the number of calls after which it stops. A run that raises stops by itself. -/
structure Attempt where
  env : HostEnv
  calls : ℕ

/-- The content of a file is the text `t`, byte for byte or as it is read. -/
def Holds (content : Option Bytes) (t : Text) : Prop :=
  ∃ b, content = some b ∧ (encode t = .ok b ∨ readText b = .ok t)

theorem holds_of_readText {w : Host} {p : Path} {t : Text} (h : w.readText p = .ok t) :
    Holds (w.bytes p) t := by
  rw [Host.readText] at h
  cases hread : w.read p with
  | error e => rw [hread] at h; cases h
  | ok b =>
    rw [hread] at h
    exact ⟨b, (Host.read_eq_ok hread).2, .inr h⟩

/-- A write that changes nothing in its file changes nothing at all. -/
theorem bytes_put_eq {w : Host} {p : Path} {b : Bytes} (h : (w.put p b).bytes p = w.bytes p)
    (q : Path) : (w.put p b).bytes q = w.bytes q := by
  by_cases hq : q = p
  · rw [hq, h]
  · exact w.bytes_put_of_ne b hq

namespace FlowRunner

/-- The host after an attempt. -/
def after (self : FlowRunner) (w : Host) (a : Attempt) : Host :=
  (exec (host a.env) a.calls self.run w).2

/-- The host after several attempts. -/
def afterAll (self : FlowRunner) (w : Host) (hist : List Attempt) : Host :=
  hist.foldl self.after w

/-! ### The window -/

/-- How far a run has got with the two files. -/
structure Marks where
  /-- The bytes of a file have changed. -/
  altered : Bool
  /-- The key has been written in full. -/
  keyWritten : Bool

/-- What is marked at a write. -/
def mark (self : FlowRunner) (p : Path) (ok : Bool) (w w' : Host) (m : Marks) : Marks where
  altered := m.altered || decide (w'.bytes p ≠ w.bytes p)
  keyWritten := m.keyWritten || (ok && decide (self.keyPath = .ok p))

/-- How far an attempt has got by the time it stops. -/
def progress (self : FlowRunner) (w : Host) (a : Attempt) : Marks :=
  (exec (observed self.mark (fun _ _ m => m) a.env) a.calls self.run (w, ⟨false, false⟩)).2.2

/-- The attempt stops inside the window: it has changed a file, it has not written the key, and it
leaves a certificate and a key file that the gate may keep. -/
def StopsBetween (self : FlowRunner) (w : Host) (a : Attempt) : Prop :=
  (self.progress w a).altered = true ∧ (self.progress w a).keyWritten = false ∧
    (self.onDisk (self.after w a)).isSome ∧ (self.keyBytes (self.after w a)).isSome

/-- The two files on `w` belong together: they are as they were on `w₀`, or they hold the two texts
that one `_obtain` of `hist` returned. -/
def Paired (self : FlowRunner) (w₀ : Host) (hist : List Attempt) (w : Host) : Prop :=
  (self.certBytes w = self.certBytes w₀ ∧ self.keyBytes w = self.keyBytes w₀) ∨
    ∃ a ∈ hist, ∃ c k, a.env.obtain = .ok (c, k) ∧
      Holds (self.certBytes w) c ∧ Holds (self.keyBytes w) k

variable {self : FlowRunner} {w w₀ : Host} {hist : List Attempt} {a : Attempt}

/-- What is true at every step of a run from `w`. -/
def Between (self : FlowRunner) (env : HostEnv) (w : Host) (s : Host × Marks) : Prop :=
  (s.2.altered = false → ∀ p, s.1.bytes p = w.bytes p) ∧
    (s.2.keyWritten = true → ∃ c k, env.obtain = .ok (c, k) ∧
      Holds (self.certBytes s.1) c ∧ Holds (self.keyBytes s.1) k)

/-- The marks say nothing about modes and launches. -/
theorem Between.congr {env : HostEnv} {w' w'' : Host} {m : Marks}
    (h : self.Between env w (w', m)) (hbytes : ∀ p, w''.bytes p = w'.bytes p) :
    self.Between env w (w'', m) := by
  refine ⟨fun halt p => (hbytes p).trans (h.1 halt p), fun hkey => ?_⟩
  obtain ⟨c, k, hobtain, hc, hk⟩ := h.2 hkey
  exact ⟨c, k, hobtain, certBytes_congr hbytes ▸ hc, keyBytes_congr hbytes ▸ hk⟩

/-- A write that is not a finished key leaves the marks truthful. -/
theorem Between.put {env : HostEnv} {w' : Host} {m : Marks} {p : Path} {b : Bytes} {ok : Bool}
    (h : self.Between env w (w', m)) (hm : m.keyWritten = false)
    (hok : ok = false ∨ self.keyPath ≠ .ok p) :
    self.Between env w (w'.put p b, self.mark p ok w' (w'.put p b) m) ∧
      (self.mark p ok w' (w'.put p b) m).keyWritten = false := by
  have hkey : (self.mark p ok w' (w'.put p b) m).keyWritten = false := by
    rcases hok with hok | hok
    · simp [mark, hm, hok]
    · simp [mark, hm, hok]
  refine ⟨⟨fun halt r => ?_, fun hw => absurd hw (by simp [hkey])⟩, hkey⟩
  simp only [mark, Bool.or_eq_false_iff, decide_eq_false_iff_not, not_not] at halt
  rw [bytes_put_eq halt.2, h.1 halt.1]

/-- A finished key completes the pair, if the certificate is there. -/
theorem Between.put_key {env : HostEnv} {w' : Host} {m : Marks} {p q : Path} {b : Bytes} {c k : Text}
    (h : self.Between env w (w', m)) (hobtain : env.obtain = .ok (c, k))
    (hp : self.certPath = .ok p) (hq : self.keyPath = .ok q) (hc : Holds (w'.bytes p) c)
    (hk : encode k = .ok b) :
    self.Between env w (w'.put q b, self.mark q true w' (w'.put q b) m) := by
  refine ⟨fun halt r => ?_, fun _ => ⟨c, k, hobtain, ?_, ?_⟩⟩
  · simp only [mark, Bool.or_eq_false_iff, decide_eq_false_iff_not, not_not] at halt
    rw [bytes_put_eq halt.2, h.1 halt.1]
  · rwa [certBytes_of_certPath hp, Host.bytes_put_of_ne _ _ (certPath_ne_keyPath hp hq)]
  · rw [keyBytes_of_keyPath hq, Host.bytes_put_self]
    exact ⟨b, rfl, .inl hk⟩

/-- The marks are truthful at every step of a run. -/
theorem always_between (self : FlowRunner) (env : HostEnv) (w : Host) :
    Always (observed self.mark (fun _ _ m => m) env) (self.Between env w) self.run
      (w, ⟨false, false⟩) := by
  have h₀ : self.Between env w (w, ⟨false, false⟩) := ⟨fun _ _ => rfl, fun h => by cases h⟩
  have hne : ∀ {p q}, self.certPath = .ok p → self.keyPath = .ok q → self.keyPath ≠ .ok p :=
    fun hp hq h => certPath_ne_keyPath hp hq (Except.ok.inj (h.symm.trans hq))
  refine always_run (fun p w m => by simp [mark]) h₀ ?_ ?_ ?_ ?_
  · exact fun p mode w' m h => h.congr fun q => Host.bytes_setMode ..
  · exact fun w' m h => h.congr (bytes_hooked env w')
  · intro c k p q hobtain hp hq
    exact ⟨fun b => (h₀.put rfl (.inl rfl)).1, fun b _ => (h₀.put rfl (.inr (hne hp hq))).1⟩
  · rintro c k p q hobtain hp hq x (⟨rfl, hread⟩ | ⟨b, rfl, hb⟩)
    · -- the certificate was there already
      exact ⟨h₀, fun b => (h₀.put rfl (.inl rfl)).1,
        fun b hk => h₀.put_key hobtain hp hq (holds_of_readText hread) hk⟩
    · -- the certificate has just been written
      obtain ⟨h₁, hm⟩ := h₀.put (b := b) rfl (.inr (hne hp hq))
      have h₂ := h₁.congr fun r => Host.bytes_setMode (w.put p b) p r 0o644
      refine ⟨h₂, fun b' => (h₂.put hm (.inl rfl)).1, fun b' hk => ?_⟩
      refine h₂.put_key hobtain hp hq ?_ hk
      rw [Host.bytes_setMode, Host.bytes_put_self]
      exact ⟨b, rfl, .inl hb⟩

/-- The marks are truthful wherever the attempt stops. -/
theorem between_after (self : FlowRunner) (w : Host) (a : Attempt) :
    self.Between a.env w (self.after w a, self.progress w a) := by
  have hstop := (self.always_between a.env w).exec a.calls
  have hwatch := exec_watch (host a.env) (onWrites self.mark (fun _ _ m => m)) a.calls self.run w
    ⟨false, false⟩
  have hafter : (exec (observed self.mark (fun _ _ m => m) a.env) a.calls self.run
      (w, ⟨false, false⟩)).2.1 = self.after w a := congrArg Prod.snd hwatch
  rw [← hafter]
  exact hstop

/-! ### Histories -/

/-- Nothing the gate would keep, or a pair. -/
def Safe (self : FlowRunner) (w₀ : Host) (hist : List Attempt) (w : Host) : Prop :=
  self.onDisk w = none ∨ self.keyBytes w = none ∨ self.Paired w₀ hist w

/-- **One attempt.** An attempt that does not stop inside the window keeps the files safe. -/
theorem Safe.after (h : self.Safe w₀ hist w) (ha : ¬ self.StopsBetween w a) :
    self.Safe w₀ (hist ++ [a]) (self.after w a) := by
  have hbetween := self.between_after w a
  by_cases halt : (self.progress w a).altered = false
  · -- nothing has changed
    have hcert : self.certBytes (self.after w a) = self.certBytes w :=
      certBytes_congr (hbetween.1 halt)
    have hkey : self.keyBytes (self.after w a) = self.keyBytes w :=
      keyBytes_congr (hbetween.1 halt)
    rcases h with h | h | ⟨hc, hk⟩ | ⟨a', ha', c, k, hobtain, hc, hk⟩
    · exact .inl ((onDisk_congr hcert).trans h)
    · exact .inr (.inl (hkey.trans h))
    · exact .inr (.inr (.inl ⟨hcert.trans hc, hkey.trans hk⟩))
    · exact .inr (.inr (.inr ⟨a', List.mem_append_left _ ha', c, k, hobtain, hcert ▸ hc,
        hkey ▸ hk⟩))
  · by_cases hkey : (self.progress w a).keyWritten = true
    · -- the pair is complete
      obtain ⟨c, k, hobtain, hc, hk⟩ := hbetween.2 hkey
      exact .inr (.inr (.inr ⟨a, by simp, c, k, hobtain, hc, hk⟩))
    · -- the window, with nothing in it that the gate would keep
      rw [StopsBetween, Bool.eq_true_of_not_eq_false halt, Bool.eq_false_of_not_eq_true hkey] at ha
      by_cases hdisk : (self.onDisk (self.after w a)).isSome
      · have hnone := fun hk => ha ⟨rfl, rfl, hdisk, hk⟩
        exact .inr (.inl (Option.not_isSome_iff_eq_none.mp hnone))
      · exact .inl (Option.not_isSome_iff_eq_none.mp hdisk)

/-- A history is safe if none of its attempts stops inside the window. -/
theorem safe_afterAll (w₀ : Host)
    (h : ∀ hist₁ a hist₂, hist = hist₁ ++ a :: hist₂ → ¬ self.StopsBetween (self.afterAll w₀ hist₁) a) :
    self.Safe w₀ hist (self.afterAll w₀ hist) := by
  have hthroughout : Throughout self.after (fun w a => ¬ self.StopsBetween w a) w₀ hist := h
  exact hthroughout.foldl (.inr (.inr (.inl ⟨rfl, rfl⟩))) fun _ _ _ hsafe ha => hsafe.after ha

/-- **What the gate keeps is a pair**, between any two runs of a history in which no run stops inside
the window: the certificate and the key it finds are those of the start, or one `_obtain` returned
both. -/
theorem paired_of_gate (self : FlowRunner) (w₀ : Host) (hist : List Attempt)
    (h : ∀ hist₁ a hist₂, hist = hist₁ ++ a :: hist₂ →
      ¬ self.StopsBetween (self.afterAll w₀ hist₁) a)
    (env : HostEnv) (leaf : Certificate)
    (hgate : self.gate env (self.afterAll w₀ hist) = .ok (some leaf)) :
    self.Paired w₀ hist (self.afterAll w₀ hist) := by
  have hkept := kept_of_gate hgate
  rcases safe_afterAll w₀ h with hnone | hnone | hpaired
  · rw [hkept.onDisk] at hnone
    cases hnone
  · have hkey := hkept.key
    rw [hnone] at hkey
    cases hkey
  · exact hpaired

/-- A run for the demo flow to which the CA answers with the pair `B`, `L`, on a day when `A` is about
to expire, and which stops after `calls` calls. -/
def demoAttempt (calls : ℕ) : Attempt where
  env := demoEnv (190 * day) (.ok (.ofString "B", .ofString "L"))
  calls

/-- The demo flow, with the certificates `A` and `B`. -/
def demoPair : FlowRunner :=
  demoRunner (demoFlow "app")
    [("A", ⟨100 * day, 200 * day, .ok (some [.dns "app"])⟩),
      ("B", ⟨190 * day, 290 * day, .ok (some [.dns "app"])⟩)]

theorem paired_of_gate_demo :
    demoPair.Paired (demoHost "A" "K") [demoAttempt 12]
      (demoPair.afterAll (demoHost "A" "K") [demoAttempt 12]) := by
  refine paired_of_gate demoPair (demoHost "A" "K") [demoAttempt 12] ?_
    (demoEnv (191 * day) (.ok ([], []))) ⟨190 * day, 290 * day, .ok (some [.dns "app"])⟩ (by decide)
  intro hist₁ a hist₂ hsplit
  cases hist₁ with
  | nil =>
    cases hsplit
    exact fun hstop => absurd hstop.2.1 (by decide)
  | cons a' hist₁ => simp at hsplit

/-- **A death between the two writes.** The run writes the new certificate and dies before it has
touched the key. The next gate keeps the new certificate, beside the old key. -/
theorem mismatched_pair_kept :
    ¬ ∀ (self : FlowRunner) (w₀ : Host) (hist : List Attempt) (env : HostEnv) (leaf : Certificate),
      (self.certBytes w₀ = none ∧ self.keyBytes w₀ = none ∨
        (self.certBytes w₀).isSome ∧ (self.keyBytes w₀).isSome) →
      self.gate env (self.afterAll w₀ hist) = .ok (some leaf) →
        self.Paired w₀ hist (self.afterAll w₀ hist) := by
  intro h
  have hpaired := h demoPair (demoHost "A" "K") [demoAttempt 8]
    (demoEnv (191 * day) (.ok ([], []))) ⟨190 * day, 290 * day, .ok (some [.dns "app"])⟩
    (.inr (by decide)) (by decide)
  have hkey : demoPair.keyBytes (demoPair.afterAll (demoHost "A" "K") [demoAttempt 8]) =
    some "K".toByteArray := by decide
  rcases hpaired with ⟨hcert, -⟩ | ⟨a, ha, c, k, hobtain, -, b, hb, hk⟩
  · exact absurd hcert (by decide)
  · cases List.mem_singleton.mp ha
    cases hobtain
    cases hkey.symm.trans hb
    rcases hk with hk | hk
    · exact absurd hk (by decide)
    · exact absurd hk (by decide)

end FlowRunner

end NextepAgent
