import NextepAgent.Refresh

/-!
# Flows that fail on their own

One bad flow is not to sink the others. The `try` of `_run_one_flow` covers making the runner and
running it. Arming, asking for the next run and reporting come after it, and whatever they raise
ends the loop: a slot that is no number, an hour that `CronTrigger` refuses, a client certificate
that cannot be read when the report is due.

So a refresh isolates its flows exactly when none of them raises outside the `try`.

## Main definitions

* `RefreshService.Succeeds`, `RefreshService.Contained` — about one flow, stage by stage
* `RefreshService.Isolated` — every flow is attempted, and the good ones are served

## Main results

* `RefreshService.isolated_iff`
-/

namespace NextepAgent

open Effect Program

namespace RefreshService

/-- Every stage of flow `i` succeeds. -/
structure Succeeds (env : ServiceEnv) (i : ℕ) (flow : FlowConfig) : Prop where
  issues : ∃ result, env.issues i flow = .ok result
  arms : ∃ t, env.arms i flow = .ok t
  looksUp : env.looksUp i flow = .ok ()
  tells : env.tells i = .ok ()

/-- Flow `i` raises inside the `try` and its failure can be reported, or it does not raise. -/
def Contained (env : ServiceEnv) (i : ℕ) (flow : FlowConfig) : Prop :=
  ((∃ e, env.issues i flow = .error e) ∧ env.tells i = .ok ()) ∨ Succeeds env i flow

/-- A refresh that attempts all flows of `cfg` once and in order, returns `cfg`, and serves every
flow whose own stages succeed: it is armed at its slot and reported exactly once. -/
structure Isolated (env : ServiceEnv) (cfg : AgentConfig) (s : ServiceState) : Prop where
  returns : (eval (service env) refresh s).1 = .ok cfg
  attempted : attempts (trace (service env) refresh s) = List.range cfg.flows.length
  armed : ∀ j flow, cfg.flows[j]? = some flow → Succeeds env j flow →
    ∃ job, (eval (service env) refresh s).2.jobs (flowJobId flow.type j) = some job ∧
      job.index = j ∧ slotTime flow.slot = .ok (job.trigger.hour, job.trigger.minute)
  reported : ∀ j flow, cfg.flows[j]? = some flow → Succeeds env j flow →
    ∃ result nextRun, env.issues j flow = .ok result ∧
      reportsOf j (trace (service env) refresh s) = [issuedReport cfg flow result nextRun]

variable {env : ServiceEnv} {cfg : AgentConfig} {i : ℕ} {flow : FlowConfig} {s : ServiceState}

/-- A flow is contained exactly when `_run_one_flow` returns. -/
theorem contained_iff : Contained env i flow ↔ env.flowOutcome i flow = .ok () := by
  rw [ServiceEnv.flowOutcome]
  cases hissues : env.issues i flow with
  | error e =>
    refine ⟨?_, fun h => .inl ⟨⟨e, hissues⟩, h⟩⟩
    rintro (⟨-, h⟩ | h)
    · exact h
    · exact h.tells
  | ok result =>
    constructor
    · rintro (⟨⟨e, he⟩, -⟩ | h)
      · rw [hissues] at he
        cases he
      · obtain ⟨t, ht⟩ := h.arms
        rw [ht, h.looksUp]
        exact h.tells
    · intro h
      cases harms : env.arms i flow with
      | error e => simp [harms] at h
      | ok t =>
        cases hlooks : env.looksUp i flow with
        | error e => simp [harms, hlooks] at h
        | ok _ =>
          rw [harms, hlooks] at h
          exact .inr ⟨⟨result, hissues⟩, ⟨t, harms⟩, hlooks, h⟩

/-- What is armed is the slot of the flow. -/
theorem slotTime_of_arms {t : CronTrigger} (h : env.arms i flow = .ok t) :
    slotTime flow.slot = .ok (t.hour, t.minute) := by
  rw [ServiceEnv.arms] at h
  cases htime : slotTime flow.slot with
  | error e => simp [htime] at h
  | ok time =>
    obtain ⟨hour, minute⟩ := time
    simp only [htime] at h
    split at h
    · cases h
      rfl
    · cases h
    · cases h

/-- **Isolation.** A refresh that has pulled `cfg` isolates its flows exactly when persisting raises
nothing but `OSError`s and no flow raises outside the `try`. -/
theorem isolated_iff (env : ServiceEnv) (cfg : AgentConfig) (s : ServiceState)
    (hpull : env.pull = .ok cfg) :
    Isolated env cfg s ↔
      env.persists cfg = .ok () ∧ ∀ i flow, cfg.flows[i]? = some flow → Contained env i flow := by
  constructor
  · intro h
    obtain ⟨-, hpersist, hflows, -⟩ := eval_refresh_eq_ok.mp (Prod.ext h.returns rfl)
    exact ⟨hpersist, fun i flow hi => contained_iff.mpr (hflows i flow hi)⟩
  · rintro ⟨hpersist, hcontained⟩
    have hflows : ∀ i flow, cfg.flows[i]? = some flow → env.flowOutcome i flow = .ok () :=
      fun i flow hi => contained_iff.mp (hcontained i flow hi)
    have hloop : ∀ m flow, cfg.flows[m]? = some flow → env.flowOutcome (0 + m) flow = .ok () := by
      simpa using hflows
    have heval : eval (service env) refresh s = (.ok cfg, env.refreshEffect cfg s) :=
      eval_refresh_eq_ok.mpr ⟨hpull, hpersist, hflows, rfl⟩
    constructor
    · rw [heval]
    · rw [attempts, filterMap_trace_refresh (fun o ho => ho.1) heval, List.range_eq_range']
      exact attempts_runFlows hloop
    · intro j flow hj hgood
      obtain ⟨result, hresult⟩ := hgood.issues
      obtain ⟨t, ht⟩ := hgood.arms
      refine ⟨env.job j t, ?_, rfl, slotTime_of_arms ht⟩
      rw [heval, ServiceEnv.jobs_refreshEffect hj, ServiceEnv.armed, hresult, ht]
      rfl
    · intro j flow hj hgood
      obtain ⟨result, hresult⟩ := hgood.issues
      obtain ⟨t, ht⟩ := hgood.arms
      refine ⟨result, some (env.nextFire t), hresult, ?_⟩
      rw [reportsOf, filterMap_trace_refresh (fun o ho => ho.2 j) heval]
      obtain ⟨s₁, hs₁⟩ := reportsOf_runFlows cfg
        { s with config := some cfg, persisted := env.persistedAfter cfg s.persisted } hloop hj
      rw [Nat.zero_add] at hs₁
      exact hs₁.trans (reportsOf_runOneFlow hresult ht hgood.looksUp hgood.tells)

/-- Two flows, of which the first cannot be issued. -/
def firstFails : ServiceEnv :=
  { demoServiceEnv (slottedConfig [("app", .int 6), ("web", .null)]) with
    run := fun i => if i = 0 then .error ⟨.runtimeError, "boom"⟩
      else .ok ⟨"internal", 100 * day, 200 * day, ["web"], true⟩ }

theorem isolated_iff_demo :
    Isolated firstFails (slottedConfig [("app", .int 6), ("web", .null)]) (.init none) := by
  refine (isolated_iff firstFails (slottedConfig [("app", .int 6), ("web", .null)]) (.init none)
    rfl).mpr ⟨rfl, fun i flow hi => contained_iff.mpr ?_⟩
  match i, hi with
  | 0, hi => cases hi; rfl
  | 1, hi => cases hi; rfl

/-- **A slot past midnight.** The first flow is issued, and its slot is 24:00. `CronTrigger` refuses
the hour, the refresh raises, and the second flow is never attempted. -/
theorem not_isolated :
    ¬ ∀ (hostname : String) (raw : Json) (env : ServiceEnv) (cfg : AgentConfig) (s : ServiceState),
      AgentConfig.fromDict hostname raw = .ok cfg → env.pull = .ok cfg → env.persists cfg = .ok () →
      (∀ hour minute, hour < 0 ∨ 23 < hour →
        ∃ e, env.cronTrigger (.int hour) minute = some e ∧ e.cls = .valueError) →
      Isolated env cfg s := by
  intro h
  have hisolated := h "localhost" (slottedRaw [("app", .int 144), ("web", .null)])
    (demoServiceEnv (slottedConfig [("app", .int 144), ("web", .null)]))
    (slottedConfig [("app", .int 144), ("web", .null)]) (.init none) (by decide) rfl rfl
    demoCron_refuses
  have hattempted : attempts (trace (service (demoServiceEnv (slottedConfig
      [("app", .int 144), ("web", .null)]))) refresh (.init none)) = [0] := rfl
  exact absurd (hattempted.symm.trans hisolated.attempted) (by decide)

end RefreshService

end NextepAgent
