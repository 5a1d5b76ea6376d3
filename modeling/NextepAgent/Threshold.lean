import NextepAgent.Renewal

/-!
# The threshold in real time

A certificate is to be renewed when no more than the threshold of days remain. The gate does not ask
how much time remains. It asks how many whole days do, and whether *they* are more than the
threshold. With a threshold of `T`, the answer is the same as long as no more than `T` days remain,
and again as soon as `T + 1` do. In between, a certificate of which more than `T` days remain is
renewed.

That is up to a day early, every time. It matters most where a day is much: a certificate that lasts
24 hours has a threshold of zero, and never more than zero whole days left.

## Main definitions

* `FlowRunner.Matched` — all that the gate asks for is there, but for the time
* `FlowRunner.RenewsAt` — the threshold, as it is documented

## Main results

* `FlowRunner.Matched.gate_eq` — the gate as a comparison of instants
* `FlowRunner.kept_iff_more_than_days_remain`
* `FlowRunner.Matched.gate_of_short` — a certificate that is never kept
-/

namespace NextepAgent

open Effect Program

namespace FlowRunner

variable {self : FlowRunner} {env : HostEnv} {w : Host} {leaf : Certificate} {T : ℤ}

/-- The gate can read the two files. There is a certificate with the expected names in the one, and
the other exists. -/
structure Matched (fr : FlowRunner) (env : HostEnv) (w : Host) (leaf : Certificate) : Prop where
  certPath : ∃ p, fr.certPath = .ok p ∧ p.hasNull = false ∧ env.readBytes p = none
  keyPath : ∃ q, fr.keyPath = .ok q ∧ q.hasNull = false ∧ env.pathExists q = none
  onDisk : fr.onDisk w = some leaf
  key : (fr.keyBytes w).isSome
  names : ∃ sans expected, sansOf leaf = .ok sans ∧ fr.expectedSans = .ok expected ∧
    sameNames sans expected = true

/-- `T` is `renew_before_days`, or, without one, a third of the lifetime in days, rounded down, and at
most 30. -/
def RenewsAt (self : FlowRunner) (leaf : Certificate) (T : ℤ) : Prop :=
  (self.flow.renewBeforeDays = .int T ∧ 0 ≤ T) ∨
    (self.flow.renewBeforeDays = .null ∧
      T = min 30 ((leaf.notValidAfter - leaf.notValidBefore) / (3 * day)))

theorem RenewsAt.threshold_eq (h : self.RenewsAt leaf T) : self.threshold leaf = .int T := by
  rcases h with ⟨hr, -⟩ | ⟨hr, rfl⟩
  · exact threshold_of_int hr
  · rw [threshold, hr, days, Int.ediv_ediv_of_nonneg (by decide), Int.mul_comm day 3]

/-- What the gate keeps is matched. -/
theorem matched_of_gate (h : self.gate env w = .ok (some leaf)) : self.Matched env w leaf := by
  obtain ⟨p, q, hp, hq, hdeployed, -⟩ := deployed_of_gate h
  obtain ⟨-, -, -, hread, hexists⟩ := eval_deployed_eq_some hdeployed
  have hkept := kept_of_gate h
  exact {
    certPath := ⟨p, hp, hread⟩
    keyPath := ⟨q, hq, hexists⟩
    onDisk := hkept.onDisk
    key := hkept.key
    names := hkept.names }

/-- **The gate as a comparison of instants.** -/
theorem Matched.gate_eq (h : self.Matched env w leaf) (hT : self.threshold leaf = .int T) :
    self.gate env w =
      .ok (if env.utcnow + (T + 1) * day ≤ leaf.notValidAfter then some leaf else none) := by
  obtain ⟨p, hp, hpNull, hread⟩ := h.certPath
  obtain ⟨q, hq, hqNull, hexists⟩ := h.keyPath
  obtain ⟨sans, expected, hsans, hexpected, hnames⟩ := h.names
  have hdeployed := eval_deployed_of_onDisk hp hq hread hexists hpNull hqNull h.onDisk h.key
  rw [gate_of_deployed hp hq hdeployed, eval_adequate_of_names hsans hexpected hnames, hT, isLe_int]
  show Except.ok (if decide (days (leaf.notValidAfter - env.utcnow) ≤ T) then none else some leaf) = _
  by_cases hdays : T < days (leaf.notValidAfter - env.utcnow)
  · rw [if_pos (lt_days_iff.mp hdays), decide_eq_false (not_le.mpr hdays)]
    rfl
  · rw [if_neg (fun hle => hdays (lt_days_iff.mpr hle)), decide_eq_true (not_lt.mp hdays)]
    rfl

theorem Matched.gate_eq_some_iff (h : self.Matched env w leaf) (hT : self.threshold leaf = .int T) :
    self.gate env w = .ok (some leaf) ↔ env.utcnow + (T + 1) * day ≤ leaf.notValidAfter := by
  rw [h.gate_eq hT]
  split
  · next hle => exact iff_of_true rfl hle
  · next hlt => exact iff_of_false (by simp) hlt

theorem Matched.gate_eq_none_iff (h : self.Matched env w leaf) (hT : self.threshold leaf = .int T) :
    self.gate env w = .ok none ↔ leaf.notValidAfter < env.utcnow + (T + 1) * day := by
  rw [h.gate_eq hT]
  split
  · next hle => exact iff_of_false (by simp) (not_lt.mpr hle)
  · next hlt => exact iff_of_true rfl (not_le.mp hlt)

/-- **More than the threshold of days remain.** The gate keeps a certificate just if they do, except
in the day before `T` days are left, when it does not keep it and they do. -/
theorem kept_iff_more_than_days_remain (fr : FlowRunner) (env : HostEnv) (w : Host)
    (leaf : Certificate) (T : ℤ) (h : fr.Matched env w leaf) (hT : fr.RenewsAt leaf T) :
    (fr.gate env w = .ok (some leaf) ↔ T * day < leaf.notValidAfter - env.utcnow) ↔
      ¬ (T * day < leaf.notValidAfter - env.utcnow ∧
        leaf.notValidAfter - env.utcnow < (T + 1) * day) := by
  have hday : (T + 1) * day = T * day + day := by ring
  have hpos : 0 < day := by decide
  rw [h.gate_eq_some_iff hT.threshold_eq, hday]
  constructor
  · rintro hrule ⟨hmore, hless⟩
    have hkept := hrule.mpr hmore
    omega
  · intro hwindow
    constructor
    · intro hkept
      omega
    · intro hmore
      by_contra hlate
      exact hwindow ⟨hmore, by omega⟩

/-- A certificate that lasts no longer than the threshold and a day is not kept, from right after it
comes into force. -/
theorem Matched.gate_of_short (h : self.Matched env w leaf) (hT : self.threshold leaf = .int T)
    (hshort : leaf.notValidAfter - leaf.notValidBefore ≤ (T + 1) * day)
    (hforce : leaf.notValidBefore < env.utcnow) : self.gate env w = .ok none :=
  (h.gate_eq_none_iff hT).mpr (by omega)

theorem matched_demo (leaf : Certificate) (now : ℤ) (hleaf : leaf.san = .ok (some [.dns "app"])) :
    (demoRunner (demoFlow "app") [("A", leaf)]).Matched (demoEnv now (.ok ([], [])))
      (demoHost "A" "K") leaf where
  certPath := ⟨demoCert, rfl, by decide, rfl⟩
  keyPath := ⟨demoKey, rfl, by decide, rfl⟩
  onDisk := onDisk_eq_some_iff.mpr ⟨"A".toByteArray, [], rfl, by simp [demoRunner]⟩
  key := rfl
  names := ⟨["app"], [.str "app"], by rw [sansOf, hleaf]; rfl, rfl, by decide⟩

theorem kept_iff_more_than_days_remain_demo :
    (demoRunner (demoFlow "app") [("A", demoLeaf)]).gate (demoEnv (150 * day) (.ok ([], [])))
        (demoHost "A" "K") = .ok (some demoLeaf) ↔
      30 * day < demoLeaf.notValidAfter - 150 * day :=
  (kept_iff_more_than_days_remain (demoRunner (demoFlow "app") [("A", demoLeaf)])
    (demoEnv (150 * day) (.ok ([], []))) (demoHost "A" "K") demoLeaf 30
    (matched_demo demoLeaf _ rfl) (.inr ⟨rfl, by decide⟩)).mpr (by decide)

/-- A certificate for the demo flow that lasts for 24 hours. -/
def dayLeaf : Certificate := ⟨100 * day, 101 * day, .ok (some [.dns "app"])⟩

/-- **A certificate that lasts for a day.** An hour after it was issued it has 23 hours left, which is
more than no days, and it is renewed. -/
theorem day_cert_not_kept :
    ¬ ∀ (fr : FlowRunner) (env : HostEnv) (w : Host) (leaf : Certificate) (T : ℤ),
      fr.Matched env w leaf → leaf.notValidBefore ≤ leaf.notValidAfter → fr.RenewsAt leaf T →
        (fr.gate env w = .ok (some leaf) ↔ T * day < leaf.notValidAfter - env.utcnow) := by
  intro hrule
  have hmatched := matched_demo dayLeaf (100 * day + 3600000000) rfl
  have hkept := (hrule _ _ _ _ 0 hmatched (by decide) (.inr ⟨rfl, by decide⟩)).mpr (by decide)
  rw [hmatched.gate_of_short (T := 0) rfl (by decide) (by decide)] at hkept
  cases hkept

end FlowRunner

end NextepAgent
