import NextepAgent.Rounding
import NextepAgent.Slots
import NextepAgent.Threshold

/-!
# The next renewal that is shown

`status` on the command line shows for every flow when its certificate will be renewed, and takes
`compute_next_run` for it: the instant at which a third of the lifetime is left. What renews the
certificate is the daily run of the flow, at which the gate looks at the days that are left.
When these runs are is up to the scheduler and the clock of the host, so that they are any set of
instants here.

## A lifetime that begins now

`compute_next_run` asks when the certificate was issued. What it is given is the clock. So the shown
instant is always two thirds of the remaining time away, and it moves on by a third of the time that
passes between one look at it and the next. It is within a day of the renewal for some six days: as
long as the time that remains is within three days of three times the time that will remain then.

## Main definitions

* `computeNextRun`, `FlowRunner.statusNextRun`
* `FlowRunner.ShownAgrees` — what is shown is the renewal, to a day
* `RoundsWithinADay`

## Main results

* `FlowRunner.eval_statusNextRun` — what is shown
* `FlowRunner.declinesAt_iff` — which runs renew
* `FlowRunner.shown_agrees_iff`
* `FlowRunner.shown_drifts`
-/

namespace NextepAgent

open Effect Program Rounding

/-! ### Renewal timing -/

/-- `RENEW_AT_REMAINING_FRACTION`: the double `1.0 / 3.0`. -/
def renewAtRemainingFraction : ℚ := 6004799503160661 / 2 ^ 54

/-- A `timedelta` times a float, to the nearest microsecond. -/
def timesFraction (delta : ℤ) (fraction : ℚ) : ℤ := roundHalfEven (delta * fraction)

/-- `compute_next_run`. -/
def computeNextRun (issuedAt notAfter : ℤ) : Runner ℤ := do
  let lifetime := notAfter - issuedAt
  let margin := timesFraction lifetime renewAtRemainingFraction
  let nextRun := notAfter - margin
  let now ← sys .utcnow
  if nextRun ≤ now then return now + 30000000 else return nextRun

namespace FlowRunner

/-- `_cert_not_after`. -/
def certNotAfter (self : FlowRunner) (path : Path) : Runner (Option ℤ) :=
  Program.tryCatch
    (do
      let pem ← sys (.readBytes path)
      let certs ← ofExcept (self.loadPem pem)
      return certs.head?.map Certificate.notValidAfter)
    fun e => if e.isA .fileNotFoundError || e.isA .valueError then return none else raise e

/-- What `cmd_status` shows for the next renewal of a flow. The certificate is looked for where the
runner puts it. -/
def statusNextRun (self : FlowRunner) : Runner (Option ℤ) := do
  let now ← sys .utcnow
  let certPath ← ofExcept self.certPath
  match ← self.certNotAfter certPath with
  | none => return none
  | some na =>
    let nxt ← computeNextRun now na
    return some nxt

variable {self : FlowRunner} {env : HostEnv} {w : Host} {leaf : Certificate} {T : ℤ}
  {runs : Set ℤ}

/-- A run, one of those the scheduler makes, at which the gate would decline what is now on disk. -/
def DeclinesAt (fr : FlowRunner) (env : HostEnv) (w : Host) (runs : Set ℤ) (t : ℤ) : Prop :=
  t ∈ runs ∧ fr.gate { env with utcnow := t } w = .ok none

/-- What is shown is at most a day from the first run at which the gate will decline. -/
def ShownAgrees (fr : FlowRunner) (env : HostEnv) (w : Host) (runs : Set ℤ) : Prop :=
  ∃ shown first, (eval (host env) fr.statusNextRun w).1 = .ok (some shown) ∧
    IsLeast {t | env.utcnow < t ∧ fr.DeclinesAt env w runs t} first ∧ |shown - first| ≤ day

/-- The runs of a flow with this slot, on a host whose clock is always `o` ahead of UTC. -/
def dailyRuns (slot o : ℤ) : Set ℤ := {t | (t + o) % day = minutes (slot * 10)}

/-! ### What is shown -/

/-- The expiry of the certificate on disk is found. -/
theorem Matched.eval_certNotAfter {p : Path} (h : self.Matched env w leaf)
    (hp : self.certPath = .ok p) :
    eval (host env) (self.certNotAfter p) w = (.ok (some leaf.notValidAfter), w) := by
  obtain ⟨p', hp', hnull, hread⟩ := h.certPath
  obtain rfl : p' = p := Except.ok.inj (hp'.symm.trans hp)
  obtain ⟨b, rest, hb, hload⟩ := onDisk_eq_some_iff.mp h.onDisk
  rw [certBytes_of_certPath hp] at hb
  have hget : (host env (.readBytes p') w).1 = .ok b := by
    simp only [host, hread, Host.read, hnull, hb]
    rfl
  refine eval_tryCatch_eq_ok.mpr (.inl ((eval_look_of_ok hget trivial).trans ?_))
  rw [hload]
  rfl

/-- **What is shown.** While time remains, it is two thirds of it away. -/
theorem eval_statusNextRun (h : self.Matched env w leaf) (hleft : env.utcnow < leaf.notValidAfter) :
    (eval (host env) self.statusNextRun w).1 =
      .ok (some (leaf.notValidAfter -
        timesFraction (leaf.notValidAfter - env.utcnow) renewAtRemainingFraction)) := by
  obtain ⟨p, hp, -⟩ := h.certPath
  have hnow : (host env .utcnow w).1 = .ok env.utcnow := rfl
  have hmargin : timesFraction (leaf.notValidAfter - env.utcnow) renewAtRemainingFraction ≤
      leaf.notValidAfter - env.utcnow - 1 := by
    have hpos : (1 : ℚ) ≤ leaf.notValidAfter - env.utcnow := by exact_mod_cast Int.sub_pos.mpr hleft
    rw [timesFraction, roundHalfEven_le_iff, renewAtRemainingFraction]
    left
    push_cast
    linarith
  have hfuture : ¬ leaf.notValidAfter -
      timesFraction (leaf.notValidAfter - env.utcnow) renewAtRemainingFraction ≤ env.utcnow := by
    omega
  rw [statusNextRun, eval_look_of_ok hnow trivial, hp, ofExcept_ok, ret_bind,
    eval_bind_of_ok (h.eval_certNotAfter hp)]
  dsimp only
  rw [computeNextRun, eval_bind]
  rw [eval_look_of_ok hnow trivial, if_neg hfuture]
  rfl

/-! ### When it is renewed -/

/-- The clock is no part of what is matched. -/
theorem Matched.at_time (h : self.Matched env w leaf) (t : ℤ) :
    self.Matched { env with utcnow := t } w leaf where
  certPath := h.certPath
  keyPath := h.keyPath
  onDisk := h.onDisk
  key := h.key
  names := h.names

/-- **Which runs renew**: those later than a day more than the threshold before the end. -/
theorem declinesAt_iff (h : self.Matched env w leaf) (hT : self.threshold leaf = .int T) (t : ℤ) :
    self.DeclinesAt env w runs t ↔
      leaf.notValidAfter - (T + 1) * day < t ∧ t ∈ runs := by
  rw [DeclinesAt, (h.at_time t).gate_eq_none_iff hT, sub_lt_iff_lt_add, and_comm]

/-- What is kept, and is in force, has not expired. -/
theorem RenewsAt.lt_of_gate (hT : self.RenewsAt leaf T)
    (hgate : self.gate env w = .ok (some leaf)) (hforce : leaf.notValidBefore ≤ env.utcnow) :
    env.utcnow < leaf.notValidAfter := by
  have hkept := ((matched_of_gate hgate).gate_eq_some_iff hT.threshold_eq).mp hgate
  rcases hT with ⟨-, hT⟩ | ⟨-, hT⟩
  · simp only [day] at hkept
    omega
  · simp only [day] at hT hkept
    omega

/-! ### To a day -/

/-- Rounded to the nearest microsecond, half to even, it is at most a day from `k`. -/
def RoundsWithinADay (x : ℚ) (k : ℤ) : Prop :=
  |x - k| < day + 1 / 2 ∨ |x - k| = day + 1 / 2 ∧ k % 2 = 0

theorem shownAgrees_iff (hgate : self.gate env w = .ok (some leaf))
    (hforce : leaf.notValidBefore ≤ env.utcnow) (hT : self.RenewsAt leaf T) :
    self.ShownAgrees env w runs ↔
      ∃ first, IsLeast {t | leaf.notValidAfter - (T + 1) * day < t ∧ t ∈ runs}
          first ∧
        RoundsWithinADay ((leaf.notValidAfter - env.utcnow : ℤ) * renewAtRemainingFraction)
          (leaf.notValidAfter - first) := by
  have hmatched := matched_of_gate hgate
  have hkept := (hmatched.gate_eq_some_iff hT.threshold_eq).mp hgate
  have hshown := eval_statusNextRun hmatched (hT.lt_of_gate hgate hforce)
  -- Runs at which the gate declines come after now, because it has not declined now.
  have hruns : {t | env.utcnow < t ∧ self.DeclinesAt env w runs t} =
      {t | leaf.notValidAfter - (T + 1) * day < t ∧ t ∈ runs} := by
    ext t
    have hdeclines : self.DeclinesAt env w runs t ↔ _ :=
      declinesAt_iff hmatched hT.threshold_eq t
    exact ⟨fun ht => hdeclines.mp ht.2, fun ht => ⟨by have := ht.1; omega, hdeclines.mpr ht⟩⟩
  have hnear : ∀ first, |leaf.notValidAfter - timesFraction (leaf.notValidAfter - env.utcnow)
      renewAtRemainingFraction - first| ≤ day ↔
        RoundsWithinADay ((leaf.notValidAfter - env.utcnow : ℤ) * renewAtRemainingFraction)
          (leaf.notValidAfter - first) := by
    intro first
    rw [RoundsWithinADay, ← abs_roundHalfEven_sub_le_iff (by decide), timesFraction,
      sub_right_comm, abs_sub_comm]
  rw [ShownAgrees, hruns, hshown]
  constructor
  · rintro ⟨shown, first, hshown, hfirst, hclose⟩
    cases hshown
    exact ⟨first, hfirst, (hnear first).mp hclose⟩
  · rintro ⟨first, hfirst, hclose⟩
    exact ⟨_, first, rfl, hfirst, (hnear first).mpr hclose⟩

/-- **How it drifts.** Of the time that passes between two looks, a third is added to what is shown. -/
theorem shown_drifts {later : ℤ} (h : self.Matched env w leaf)
    (hnow : env.utcnow < leaf.notValidAfter) (hlater : later < leaf.notValidAfter) :
    ∃ shown shown', (eval (host env) self.statusNextRun w).1 = .ok (some shown) ∧
      (eval (host { env with utcnow := later }) self.statusNextRun w).1 = .ok (some shown') ∧
        |((shown' - shown : ℤ) : ℚ) - (later - env.utcnow) * renewAtRemainingFraction| ≤ 1 := by
  refine ⟨_, _, eval_statusNextRun h hnow, eval_statusNextRun (h.at_time later) hlater, ?_⟩
  -- Each of the two has an error of at most a half.
  have herror := abs_le.mp (abs_roundHalfEven_sub_le
    ((leaf.notValidAfter - env.utcnow : ℤ) * renewAtRemainingFraction))
  have herror' := abs_le.mp (abs_roundHalfEven_sub_le
    ((leaf.notValidAfter - later : ℤ) * renewAtRemainingFraction))
  have hpassed : (later - env.utcnow) * renewAtRemainingFraction =
      (leaf.notValidAfter - env.utcnow : ℤ) * renewAtRemainingFraction -
        (leaf.notValidAfter - later : ℤ) * renewAtRemainingFraction := by
    push_cast
    ring
  rw [sub_sub_sub_cancel_left, Int.cast_sub, timesFraction, timesFraction, hpassed, abs_le]
  constructor
  · linarith [herror.1, herror'.2]
  · linarith [herror.2, herror'.1]

/-- **The next renewal that is shown.** Whenever the scheduler runs the flow, what is shown is within a
day of the first run at which the gate will decline the certificate, just if a third of the time that
remains, rounded, is within a day of the time that will remain at the first run later than a day more
than the threshold before the end. And when it is shown again later, it is later by a third of the
time that has passed. -/
theorem shown_agrees_iff (fr : FlowRunner) (env : HostEnv) (w : Host) (leaf : Certificate)
    (T : ℤ) (runs : Set ℤ) (hgate : fr.gate env w = .ok (some leaf))
    (hforce : leaf.notValidBefore ≤ env.utcnow) (hT : fr.RenewsAt leaf T) :
    (fr.ShownAgrees env w runs ↔
      ∃ first, IsLeast {t | leaf.notValidAfter - (T + 1) * day < t ∧ t ∈ runs}
          first ∧
        RoundsWithinADay ((leaf.notValidAfter - env.utcnow : ℤ) * renewAtRemainingFraction)
          (leaf.notValidAfter - first)) ∧
      ∀ later, env.utcnow ≤ later → fr.gate { env with utcnow := later } w = .ok (some leaf) →
        ∃ shown shown', (eval (host env) fr.statusNextRun w).1 = .ok (some shown) ∧
          (eval (host { env with utcnow := later }) fr.statusNextRun w).1 = .ok (some shown') ∧
            |((shown' - shown : ℤ) : ℚ) - (later - env.utcnow) * renewAtRemainingFraction| ≤ 1 := by
  refine ⟨shownAgrees_iff hgate hforce hT, fun later hle hgate' => ?_⟩
  exact shown_drifts (matched_of_gate hgate) (hT.lt_of_gate hgate hforce)
    (hT.lt_of_gate hgate' (hforce.trans hle))

/-! ### A hundred days -/

/-- The first daily run after `start`. -/
theorem isLeast_dailyRuns (start o slot : ℤ) (h₀ : 0 ≤ slot) (h₁₄₃ : slot ≤ 143) :
    IsLeast {t | start < t ∧ t ∈ dailyRuns slot o}
      (start + (day - (start + o - minutes (slot * 10)) % day)) := by
  constructor
  · refine ⟨?_, ?_⟩
    · simp only [day]
      omega
    · rw [dailyRuns, Set.mem_ofPred_eq]
      simp only [day, minutes]
      omega
  · rintro t ⟨hafter, hrun⟩
    rw [dailyRuns, Set.mem_ofPred_eq] at hrun
    simp only [day, minutes] at hrun ⊢
    omega

/-- With slot 0, and a clock on UTC, the demo certificate is renewed on day 170. -/
theorem isLeast_demo :
    IsLeast {t | demoLeaf.notValidAfter - (30 + 1) * day < t ∧ t ∈ dailyRuns 0 0} (170 * day) := by
  have hstart : demoLeaf.notValidAfter - (30 + 1) * day = 169 * day := by decide
  have hrun : 170 * day = 169 * day + (day - (169 * day + 0 - minutes (0 * 10)) % day) := by decide
  rw [hstart, hrun]
  exact isLeast_dailyRuns (169 * day) 0 0 (by decide) (by decide)

/-- Ten days after issuance a third of the remaining time is thirty days, which is what will remain
at the renewal. -/
theorem shown_agrees_iff_demo :
    (demoRunner (demoFlow "app") [("A", demoLeaf)]).ShownAgrees (demoEnv (110 * day) (.ok ([], [])))
      (demoHost "A" "K") (dailyRuns 0 0) := by
  refine (shown_agrees_iff (demoRunner (demoFlow "app") [("A", demoLeaf)])
    (demoEnv (110 * day) (.ok ([], []))) (demoHost "A" "K") demoLeaf 30 (dailyRuns 0 0) (by decide)
    (by decide) (.inr ⟨rfl, by decide⟩)).1.mpr ⟨170 * day, isLeast_demo, ?_⟩
  left
  norm_num [demoLeaf, demoEnv, renewAtRemainingFraction, day]

/-- **Half of the lifetime later.** Fifty days after issuance, day 183 is shown. The certificate is
renewed on day 170. -/
theorem shown_too_late :
    ¬ ∀ (fr : FlowRunner) (env : HostEnv) (w : Host) (leaf : Certificate) (slot o : ℤ),
      fr.gate env w = .ok (some leaf) → leaf.notValidBefore ≤ env.utcnow →
      (fr.flow.renewBeforeDays = .null ∨ ∃ n : ℕ, fr.flow.renewBeforeDays = .int n) →
      0 ≤ slot → slot ≤ 143 → fr.ShownAgrees env w (dailyRuns slot o) := by
  intro hagrees
  have hgate : (demoRunner (demoFlow "app") [("A", demoLeaf)]).gate
      (demoEnv (150 * day) (.ok ([], []))) (demoHost "A" "K") = .ok (some demoLeaf) := by decide
  have hdemo := hagrees _ _ _ _ 0 0 hgate (by decide) (.inl rfl) (by decide) (by decide)
  obtain ⟨first, hfirst, hclose⟩ :=
    (shownAgrees_iff (T := 30) hgate (by decide) (.inr ⟨rfl, by decide⟩)).mp hdemo
  obtain rfl : first = 170 * day := hfirst.unique isLeast_demo
  rcases hclose with hclose | ⟨hclose, -⟩
  · norm_num [demoLeaf, demoEnv, renewAtRemainingFraction, day] at hclose
  · norm_num [demoLeaf, demoEnv, renewAtRemainingFraction, day] at hclose

end FlowRunner

end NextepAgent
