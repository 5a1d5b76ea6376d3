import NextepAgent.Issue
import Mathlib.Tactic.IntervalCases
import Mathlib.Tactic.Ring

/-!
# How long a kept certificate is good for

The gate counts whole days and keeps a certificate when more of them are left than the threshold.
Rounding down works in its favour: with a threshold of `T`, at least `T + 1` full days lie between
now and `not_valid_after`. A flow that is run once a day therefore has `T + 1` more runs in which to
renew, and with `T = 0` still the one that matters.

The gate says nothing about `not_valid_before`, and with a threshold below `-1` it says nothing
about expiry either.

## Main definitions

* `Daily` — instants at most a day apart
* `FlowRunner.History` — a flow run again and again

## Main results

* `FlowRunner.Kept.margin` — the margin at the gate
* `FlowRunner.in_force_of_kept` — a kept certificate has not expired
* `FlowRunner.renewal_margin` — `T + 1` further runs, and no lapse between two of them
-/

namespace NextepAgent

open Effect Program

/-! ### Runs once a day -/

/-- Increasing instants, each at most a day after the one before. -/
structure Daily (t : ℕ → ℤ) : Prop where
  lt : ∀ i, t i < t (i + 1)
  le : ∀ i, t (i + 1) ≤ t i + day

/-- After `n` runs at most `n` days have passed. -/
theorem Daily.le_add {t : ℕ → ℤ} (h : Daily t) (n : ℕ) : t n ≤ t 0 + n * day := by
  induction n with
  | zero => simp
  | succ n ih =>
    calc t (n + 1) ≤ t n + day := h.le n
      _ ≤ t 0 + n * day + day := Int.add_le_add_right ih day
      _ = t 0 + (n + 1 : ℕ) * day := by push_cast; ring

namespace FlowRunner

variable {self : FlowRunner} {env : HostEnv} {w w' : Host} {leaf : Certificate}

/-! ### The margin -/

/-- **The margin at the gate.** Rounding down to whole days leaves `T + 1` full ones. -/
theorem Kept.margin_le {now t : ℤ} (h : self.Kept now w leaf) (ht : self.threshold leaf = .int t) :
    now + (t + 1) * day ≤ leaf.notValidAfter :=
  (margin_iff ht).mp h.margin

/-- A threshold worked out from the dates of a certificate is not negative. -/
theorem threshold_of_null (hr : self.flow.renewBeforeDays = .null)
    (hdates : leaf.notValidBefore ≤ leaf.notValidAfter) :
    ∃ t : ℕ, self.threshold leaf = .int t := by
  have hdays : 0 ≤ days (leaf.notValidAfter - leaf.notValidBefore) / 3 :=
    Int.ediv_nonneg (days_nonneg (by omega)) (by decide)
  refine ⟨(min 30 (days (leaf.notValidAfter - leaf.notValidBefore) / 3)).toNat, ?_⟩
  rw [threshold, hr, Int.toNat_of_nonneg (le_min (by decide) hdays)]

/-- A configured threshold is used as it is. -/
theorem threshold_of_int {n : ℤ} (hr : self.flow.renewBeforeDays = .int n) :
    self.threshold leaf = .int n := by
  rw [threshold, hr]

theorem exists_threshold
    (hr : self.flow.renewBeforeDays = .null ∨ ∃ n : ℕ, self.flow.renewBeforeDays = .int n)
    (hdates : leaf.notValidBefore ≤ leaf.notValidAfter) :
    ∃ t : ℕ, self.threshold leaf = .int t := by
  rcases hr with hr | ⟨n, hr⟩
  · exact threshold_of_null hr hdates
  · exact ⟨n, threshold_of_int hr⟩

/-- **What a kept certificate is good for.** With a threshold of `t` it has `t + 1` full days left,
and so it has not expired as long as the threshold is at least `-1`. -/
theorem in_force_of_kept (self : FlowRunner) (env : HostEnv) (w : Host) (leaf : Certificate)
    (h : self.gate env w = .ok (some leaf)) :
    (∀ t : ℤ, self.threshold leaf = .int t →
      env.utcnow + (t + 1) * day ≤ leaf.notValidAfter) ∧
    ((self.flow.renewBeforeDays = .null ∧ leaf.notValidBefore ≤ leaf.notValidAfter ∨
        ∃ n : ℤ, -1 ≤ n ∧ self.flow.renewBeforeDays = .int n) →
      env.utcnow ≤ leaf.notValidAfter) := by
  have hkept := kept_of_gate h
  have hmargin : ∀ t : ℤ, self.threshold leaf = .int t →
      env.utcnow + (t + 1) * day ≤ leaf.notValidAfter := fun t ht => hkept.margin_le ht
  refine ⟨hmargin, ?_⟩
  have hpos : ∀ t : ℤ, -1 ≤ t → self.threshold leaf = .int t → env.utcnow ≤ leaf.notValidAfter := by
    intro t ht hthreshold
    have hday : 0 ≤ (t + 1) * day := Int.mul_nonneg (by omega) (by decide)
    have := hmargin t hthreshold
    omega
  rintro (⟨hr, hdates⟩ | ⟨n, hn, hr⟩)
  · obtain ⟨t, ht⟩ := threshold_of_null hr hdates
    exact hpos t (by omega) ht
  · exact hpos n hn (threshold_of_int hr)

/-- A certificate for the demo flow, in force from the hundredth to the two hundredth day. -/
def demoLeaf : Certificate := ⟨100 * day, 200 * day, .ok (some [.dns "app"])⟩

theorem in_force_of_kept_demo :
    (demoRunner (demoFlow "app") [("A", demoLeaf)]).gate (demoEnv (150 * day) (.ok ([], [])))
        (demoHost "A" "K") = .ok (some demoLeaf) ∧ 150 * day + 31 * day ≤ demoLeaf.notValidAfter :=
  ⟨by decide,
    (in_force_of_kept (demoRunner (demoFlow "app") [("A", demoLeaf)])
      (demoEnv (150 * day) (.ok ([], []))) (demoHost "A" "K") demoLeaf (by decide)).1 30 (by decide)⟩

/-- The demo flow, told to renew five days *after* expiry. -/
def lateFlow : FlowConfig := { demoFlow "app" with renewBeforeDays := .int (-5) }

/-- Decoded flows whose gate keeps a certificate that is not in force: one fifty days early, one
three days late. -/
theorem kept_out_of_force :
    deserializeFlow (demoRaw "app") = .ok (demoFlow "app") ∧
    deserializeFlow (demoRaw "app" ++ [("renew_before_days", .int (-5))]) = .ok lateFlow ∧
    (demoRunner (demoFlow "app") [("A", demoLeaf)]).gate (demoEnv (50 * day) (.ok ([], [])))
      (demoHost "A" "K") = .ok (some demoLeaf) ∧
    (demoRunner lateFlow [("A", demoLeaf)]).gate (demoEnv (203 * day) (.ok ([], [])))
      (demoHost "A" "K") = .ok (some demoLeaf) ∧
    ¬ ∀ (self : FlowRunner) (env : HostEnv) (w : Host) (leaf : Certificate),
      (self.flow.renewBeforeDays = .null ∨ ∃ n : ℤ, self.flow.renewBeforeDays = .int n) →
      self.gate env w = .ok (some leaf) →
        leaf.notValidBefore ≤ env.utcnow ∧ env.utcnow ≤ leaf.notValidAfter := by
  refine ⟨by decide, by decide, by decide, by decide, fun h => ?_⟩
  have key := h (demoRunner (demoFlow "app") [("A", demoLeaf)]) (demoEnv (50 * day) (.ok ([], [])))
    (demoHost "A" "K") demoLeaf (.inl rfl) (by decide)
  exact absurd key.1 (by decide)

/-! ### Histories -/

/-- A flow run at instants a day apart, of which the first `n` runs return. -/
structure History (fr : FlowRunner) (n : ℕ) where
  env : ℕ → HostEnv
  /-- The host before each run. -/
  world : ℕ → Host
  daily : Daily fun i => (env i).utcnow
  returns : ∀ i < n, ∃ r, eval (host (env i)) fr.run (world i) = (.ok r, world (i + 1))
  /-- Certificates end after they begin. -/
  dates : ∀ i < n, ∀ leaf, fr.onDisk (world i) = some leaf →
    leaf.notValidBefore ≤ leaf.notValidAfter
  /-- What is issued has a day left. -/
  fresh : ∀ i < n, fr.gate (env i) (world i) = .ok none → ∀ x : fr.Issuance (env i) (world i),
    (env i).utcnow + day ≤ x.leaf.notValidAfter
  /-- What is issued is new: the file does not hold its text with other line ends. -/
  newly : ∀ i < n, fr.gate (env i) (world i) = .ok none → ∀ x : fr.Issuance (env i) (world i),
    (world i).readText x.certOut = .ok x.certPem →
      (world i).bytes x.certOut = (encode x.certPem).toOption

/-- The certificate on disk after an issuance is the issued one. -/
theorem Issuance.onDisk_final (i : self.Issuance env w)
    (hnew : w.readText i.certOut = .ok i.certPem → w.bytes i.certOut = (encode i.certPem).toOption) :
    self.onDisk i.final = some i.leaf := by
  obtain ⟨b, rest, henc, hload⟩ := leafCert_eq_ok i.parsed
  refine onDisk_eq_some_iff.mpr ⟨b, rest, ?_, hload⟩
  rw [i.certBytes_final]
  rcases WriteEnd.result_eq_ok i.certWritten with ⟨hkept, -⟩ | ⟨b', hdone, -⟩
  · rw [hkept, WriteEnd.left, Option.none_or, certBytes_of_certPath i.certPath,
      hnew (readText_of_kept hkept), henc]
    rfl
  · have hb' := encode_of_writeEnd (.inl hdone)
    rw [henc] at hb'
    rw [hdone, WriteEnd.left, Except.ok.inj hb']
    rfl

/-- After a run that returns, the certificate on disk lasts another day. -/
theorem History.lasts {n : ℕ} (H : self.History n)
    (hr : self.flow.renewBeforeDays = .null ∨ ∃ k : ℕ, self.flow.renewBeforeDays = .int k)
    {i : ℕ} (hi : i < n) :
    ∃ leaf, self.onDisk (H.world (i + 1)) = some leaf ∧
      (H.env i).utcnow + day ≤ leaf.notValidAfter := by
  obtain ⟨r, hrun⟩ := H.returns i hi
  rcases eval_host_run_eq_ok hrun with ⟨leaf, hgate, -, hw⟩ | ⟨hgate, x, -, hw⟩
  · have hkept := kept_of_gate hgate
    obtain ⟨t, ht⟩ := exists_threshold hr (H.dates i hi leaf hkept.onDisk)
    refine ⟨leaf, hw ▸ hkept.onDisk, ?_⟩
    have hmargin := hkept.margin_le ht
    have hday : 1 * day ≤ ((t : ℤ) + 1) * day := Int.mul_le_mul_of_nonneg_right (by omega) (by decide)
    omega
  · exact ⟨x.leaf, hw ▸ x.onDisk_final (H.newly i hi hgate x), H.fresh i hi hgate x⟩

/-- **The renewal margin.** With a threshold of `T`, a kept certificate sees at least `T + 1` further
runs. And in a history of runs that return, the certificate on disk does not expire between one run
and the next.

`History.newly` leaves out one kind of run: an issuance whose text the certificate file already holds,
but with other line ends. That file is not written, and what `loadPem` makes of its bytes is not known
here. A loader that reads all line ends alike needs no such condition. -/
theorem renewal_margin (fr : FlowRunner)
    (hr : fr.flow.renewBeforeDays = .null ∨ ∃ k : ℕ, fr.flow.renewBeforeDays = .int k) :
    (∀ (env : HostEnv) (w : Host) (leaf : Certificate) (t : ℕ → ℤ),
      leaf.notValidBefore ≤ leaf.notValidAfter → Daily t → t 0 = env.utcnow →
      fr.gate env w = .ok (some leaf) →
        ∃ T : ℕ, fr.threshold leaf = .int T ∧ t (T + 1) ≤ leaf.notValidAfter) ∧
    (∀ (n : ℕ) (H : fr.History n), ∀ i < n, ∀ τ : ℤ,
      (H.env i).utcnow ≤ τ → τ ≤ (H.env (i + 1)).utcnow →
        ∃ leaf, fr.onDisk (H.world (i + 1)) = some leaf ∧ τ ≤ leaf.notValidAfter) := by
  constructor
  · intro env w leaf t hdates hdaily hstart hgate
    obtain ⟨T, hT⟩ := exists_threshold hr hdates
    refine ⟨T, hT, ?_⟩
    calc t (T + 1) ≤ t 0 + (T + 1 : ℕ) * day := hdaily.le_add (T + 1)
      _ = env.utcnow + ((T : ℤ) + 1) * day := by rw [hstart]; push_cast; rfl
      _ ≤ leaf.notValidAfter := (kept_of_gate hgate).margin_le hT
  · intro n H i hi τ _ hτ
    obtain ⟨leaf, hleaf, hlasts⟩ := H.lasts hr hi
    have hnext := H.daily.le i
    exact ⟨leaf, hleaf, by omega⟩

/-- Day `i` of a flow whose CA answers with the certificate `A`. -/
def demoDay (i : ℕ) : HostEnv := demoEnv ((150 + i) * day) (.ok (.ofString "A", .ofString "K"))

/-- The host before day `i`. -/
def demoWorld : ℕ → Host
  | 0 => noFiles
  | _ + 1 => (eval (host (demoDay 0)) (demoRunner (demoFlow "app") [("A", demoLeaf)]).run noFiles).2

/-- A flow that issues on its first day and keeps the certificate on its second. -/
def demoHistory : (demoRunner (demoFlow "app") [("A", demoLeaf)]).History 2 where
  env := demoDay
  world := demoWorld
  daily :=
    { lt := fun i => Int.mul_lt_mul_of_pos_right (by push_cast; omega) (by decide)
      le := fun i => by simp only [demoDay, demoEnv]; push_cast; rw [← add_assoc, add_mul]; omega }
  returns i hi := by
    interval_cases i
    · exact ⟨_, rfl⟩
    · exact ⟨_, rfl⟩
  dates i hi leaf hleaf := by
    interval_cases i
    · cases hleaf
    · have hdemo : (demoRunner (demoFlow "app") [("A", demoLeaf)]).onDisk (demoWorld 1) =
        some demoLeaf := by decide
      cases hdemo.symm.trans hleaf
      decide
  fresh i hi hgate x := by
    have hA : x.certPem = .ofString "A" := (congrArg Prod.fst (Except.ok.inj x.obtained)).symm
    have hleaf : x.leaf = demoLeaf := by
      have hparsed := x.parsed
      rw [hA] at hparsed
      exact (Except.ok.inj hparsed).symm
    rw [hleaf]
    interval_cases i
    · decide
    · decide
  newly i hi hgate x hread := by
    interval_cases i
    · have hp : x.certOut = demoCert := (Except.ok.inj x.certPath).symm
      rw [hp] at hread
      cases hread
    · exact absurd hgate (by decide)

theorem renewal_margin_demo :
    (∃ T : ℕ, (demoRunner (demoFlow "app") [("A", demoLeaf)]).threshold demoLeaf = .int T ∧
      (150 + (T + 1 : ℕ)) * day ≤ demoLeaf.notValidAfter) ∧
    ∃ leaf, (demoRunner (demoFlow "app") [("A", demoLeaf)]).onDisk (demoWorld 2) = some leaf ∧
      152 * day ≤ leaf.notValidAfter :=
  ⟨(renewal_margin (demoRunner (demoFlow "app") [("A", demoLeaf)]) (.inl rfl)).1 (demoDay 0)
      (demoHost "A" "K") demoLeaf (fun i => (150 + i) * day) (by decide) demoHistory.daily rfl
      (by decide),
    (renewal_margin (demoRunner (demoFlow "app") [("A", demoLeaf)]) (.inl rfl)).2 2 demoHistory 1
      (by decide) (152 * day) (by decide) (by decide)⟩

end FlowRunner

end NextepAgent
