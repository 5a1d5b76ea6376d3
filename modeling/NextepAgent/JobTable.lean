import NextepAgent.Effect.History
import NextepAgent.Isolation

/-!
# The job table and the held configuration

A job outlives the configuration it was armed for. It is replaced when a flow of the same type at
the same index is issued again, and nothing else ever touches it. So after a refresh a job may be
left over in two ways: no flow of its type is at its index any more, or there is one, with another
slot, whose issuance has just failed. When neither happens, every job is the job of a held flow.

A firing re-runs the flow at the index of the job, and re-arms it at the slot the job has already,
so firings are harmless as long as the table is right.

## Main definitions

* `Event`, `ServiceState.after` — refreshes and firings
* `ServiceState.JobsMatch` — every job is the job of a held flow
* `ServiceState.Covers` — the configuration pulled next accounts for every job

## Main results

* `ServiceState.jobsMatch_refresh_iff`, `ServiceState.JobsMatch.fire` — one event
* `ServiceState.jobs_match_iff` — histories
-/

namespace NextepAgent

open Effect Program RefreshService

/-! ### Jobs and flows -/

/-- The job under `id` is that of a flow of `cfg`: the flow at its index, whose id it has, and at
whose slot it fires. -/
def Job.BelongsTo (job : Job) (id : String) (cfg : AgentConfig) : Prop :=
  ∃ flow, cfg.flows[job.index]? = some flow ∧ id = flowJobId flow.type job.index ∧
    job.trigger.slot = flow.slot

/-- Every slot is one of the 144 of a day. -/
def AgentConfig.ValidSlots (cfg : AgentConfig) : Prop :=
  ∀ flow ∈ cfg.flows, ∃ n : ℤ, 0 ≤ n ∧ n ≤ 143 ∧ flow.slot = .int n

/-- A trigger is never on no slot, and neither is a flow. -/
theorem FlowConfig.slot_ne_null (flow : FlowConfig) : flow.slot ≠ .null := by
  rw [FlowConfig.slot]
  split
  · simp
  · next hne => exact hne

theorem CronTrigger.slot_eq (t : CronTrigger) : t.slot = .null ∨ ∃ n, t.slot = .int n := by
  simp only [CronTrigger.slot]
  split
  · exact .inr ⟨_, rfl⟩
  · exact .inl rfl

section Armed

variable {env : ServiceEnv} {i : ℕ} {flow : FlowConfig} {job : Job}

/-- A flow that is armed has been issued. -/
theorem ServiceEnv.issues_of_armed (h : env.armed i flow = some job) :
    ∃ result, env.issues i flow = .ok result := by
  rw [ServiceEnv.armed] at h
  split at h
  · next hissues _ => exact ⟨_, hissues⟩
  · cases h

/-- The trigger of a flow that is armed, at a slot that is a number. -/
theorem ServiceEnv.eq_dailyAt_of_arms {n : ℤ} {t : CronTrigger} (hslot : flow.slot = .int n)
    (h : env.arms i flow = .ok t) : t = dailyAt n := by
  have htime := slotTime_of_arms h
  rw [hslot, slotTime_int, Except.ok.injEq, Prod.mk.injEq] at htime
  cases t
  simp_all [dailyAt]

/-- And it is armed at its slot. -/
theorem ServiceEnv.slot_of_armed {n : ℤ} (hslot : flow.slot = .int n)
    (h : env.armed i flow = some job) : job.index = i ∧ job.trigger.slot = flow.slot := by
  rw [ServiceEnv.armed] at h
  split at h
  · next t _ harms =>
    cases h
    have ht : t = dailyAt n := eq_dailyAt_of_arms hslot harms
    exact ⟨rfl, by rw [ServiceEnv.job, ht, slot_dailyAt, hslot]⟩
  · cases h

/-- A flow that is issued, by a loop it does not stop, is armed. -/
theorem ServiceEnv.armed_of_issues {result : IssueResult}
    (hflow : env.flowOutcome i flow = .ok ()) (h : env.issues i flow = .ok result) :
    ∃ job, env.armed i flow = some job := by
  rw [ServiceEnv.flowOutcome] at hflow
  rw [h] at hflow
  cases harms : env.arms i flow with
  | error e => simp [harms] at hflow
  | ok t => exact ⟨env.job i t, by rw [ServiceEnv.armed, h, harms]⟩

end Armed

/-! ### Events -/

/-- A refresh, or the daily firing of a job. -/
inductive Event
  | refresh (env : ServiceEnv)
  | fire (id : String) (env : ServiceEnv)

namespace ServiceState

/-- A job that fires is set to fire again a day later. -/
def advance (s : ServiceState) (id : String) (job : Job) : ServiceState :=
  s.arm id { job with nextRunTime := job.nextRunTime + day }

/-- The state after an event. There is nothing to fire under an id without a job. -/
def after (s : ServiceState) : Event → ServiceState
  | .refresh env => (eval (service env) refresh s).2
  | .fire id env =>
    match s.jobs id with
    | some job => (eval (service env) (renewOne job.index) (s.advance id job)).2
    | none => s

/-- The state after several events. -/
def afterAll (s : ServiceState) (hist : List Event) : ServiceState := hist.foldl after s

/-- Every armed job is the job of a held flow. -/
def JobsMatch (s : ServiceState) : Prop :=
  ∀ id job, s.jobs id = some job → ∃ cfg, s.config = some cfg ∧ job.BelongsTo id cfg

/-- A firing runs exactly one flow, the held flow at the index of the job, at its own slot. -/
def FiresOwnFlow (s : ServiceState) : Prop :=
  ∀ id job env, s.jobs id = some job →
    attempts (trace (service env) (renewOne job.index) (s.advance id job)) = [job.index] ∧
      ∃ cfg flow, s.config = some cfg ∧ cfg.flows[job.index]? = some flow ∧
        job.trigger.slot = flow.slot

/-- A refresh is completed: it returns, and the slots of the configuration are valid. -/
def Completes (s : ServiceState) : Event → Prop
  | .refresh env => ∃ cfg, (eval (service env) refresh s).1 = .ok cfg ∧ cfg.ValidSlots
  | .fire _ _ => True

/-- The configuration to be pulled accounts for every armed job: the flow at the index of the job has
the job's id, and it is issued or it is at the job's slot already. -/
def Covers (s : ServiceState) : Event → Prop
  | .refresh env => ∀ cfg, env.pull = .ok cfg → ∀ id job, s.jobs id = some job →
    ∃ flow, cfg.flows[job.index]? = some flow ∧ id = flowJobId flow.type job.index ∧
      ((∃ result, env.issues job.index flow = .ok result) ∨ job.trigger.slot = flow.slot)
  | .fire _ _ => True

variable {s : ServiceState} {env : ServiceEnv} {id : String} {job : Job}

theorem jobsMatch_init (persisted : Option AgentConfig) : (init persisted).JobsMatch :=
  fun id job h => by cases h

/-! ### One refresh -/

/-- The ids in a table that matches say what index their jobs have. -/
theorem JobsMatch.id_eq (h : s.JobsMatch) (hjob : s.jobs id = some job) :
    ∃ t, id = flowJobId t job.index := by
  obtain ⟨cfg, -, flow, -, hid, -⟩ := h id job hjob
  exact ⟨flow.type, hid⟩

/-- What the table holds for a job after a refresh tells how the refresh accounted for it. -/
theorem JobsMatch.covers (h : s.JobsMatch) {cfg : AgentConfig} (hpull : env.pull = .ok cfg)
    (hmatch : (env.refreshEffect cfg s).JobsMatch) : s.Covers (.refresh env) := by
  have hcfg : (env.refreshEffect cfg s).config = some cfg := ServiceEnv.config_refreshEffect cfg
  intro cfg' hpull' id job hjob
  obtain rfl : cfg = cfg' := Except.ok.inj (hpull.symm.trans hpull')
  obtain ⟨t, rfl⟩ := h.id_eq hjob
  by_cases hflow : ∃ flow, cfg.flows[job.index]? = some flow ∧ flow.type = t
  · obtain ⟨flow, hi, rfl⟩ := hflow
    refine ⟨flow, hi, rfl, ?_⟩
    have hnew : (env.refreshEffect cfg s).jobs (flowJobId flow.type job.index) =
        (env.armed job.index flow).or (s.jobs (flowJobId flow.type job.index)) :=
      ServiceEnv.jobs_refreshEffect hi
    cases harmed : env.armed job.index flow with
    | some job' => exact .inl (ServiceEnv.issues_of_armed harmed)
    | none =>
      -- the flow was not issued, and the old job is still there
      rw [harmed, Option.none_or, hjob] at hnew
      obtain ⟨cfg', hcfg', flow', hi', -, hslot⟩ := hmatch _ _ hnew
      obtain rfl : cfg = cfg' := Option.some.inj (hcfg.symm.trans hcfg')
      obtain rfl : flow = flow' := Option.some.inj (hi.symm.trans hi')
      exact .inr hslot
  · -- no flow has the id, so the old job is still there
    have hold : (env.refreshEffect cfg s).jobs (flowJobId t job.index) = some job := by
      rw [ServiceEnv.jobs_refreshEffect_of_ne, hjob]
      intro i flow hi hid
      obtain ⟨rfl, rfl⟩ := flowJobId_inj hid
      exact hflow ⟨flow, hi, rfl⟩
    obtain ⟨cfg', hcfg', flow', hi', hid, -⟩ := hmatch _ _ hold
    obtain rfl : cfg = cfg' := Option.some.inj (hcfg.symm.trans hcfg')
    exact absurd ⟨flow', hi', (flowJobId_inj hid).1.symm⟩ hflow

/-- A refresh that accounts for every job leaves a table that matches. -/
theorem Covers.jobsMatch (hcovers : s.Covers (.refresh env)) {cfg : AgentConfig}
    (hpull : env.pull = .ok cfg) (hslots : cfg.ValidSlots)
    (hflows : ∀ i flow, cfg.flows[i]? = some flow → env.flowOutcome i flow = .ok ()) :
    (env.refreshEffect cfg s).JobsMatch := by
  intro id job hjob
  refine ⟨cfg, ServiceEnv.config_refreshEffect cfg, ?_⟩
  by_cases hflow : ∃ i flow, cfg.flows[i]? = some flow ∧ id = flowJobId flow.type i
  · obtain ⟨i, flow, hi, rfl⟩ := hflow
    rw [ServiceEnv.jobs_refreshEffect hi] at hjob
    cases harmed : env.armed i flow with
    | some job' =>
      rw [harmed, Option.some_or] at hjob
      obtain rfl := Option.some.inj hjob
      obtain ⟨n, -, -, hn⟩ := hslots _ (List.mem_of_getElem? hi)
      obtain ⟨rfl, htrigger⟩ := ServiceEnv.slot_of_armed hn harmed
      exact ⟨flow, hi, rfl, htrigger⟩
    | none =>
      -- the job is an old one, and the flow was not issued
      rw [harmed, Option.none_or] at hjob
      obtain ⟨flow', hi', hid, ⟨result, hresult⟩ | htrigger⟩ := hcovers cfg hpull _ _ hjob
      · obtain ⟨-, rfl⟩ := flowJobId_inj hid
        obtain rfl : flow = flow' := Option.some.inj (hi.symm.trans hi')
        obtain ⟨job', hjob'⟩ := ServiceEnv.armed_of_issues (hflows _ _ hi) hresult
        rw [harmed] at hjob'
        cases hjob'
      · exact ⟨flow', hi', hid, htrigger⟩
  · rw [ServiceEnv.jobs_refreshEffect_of_ne fun i flow hi hid => hflow ⟨i, flow, hi, hid⟩] at hjob
    obtain ⟨flow', hi', hid, -⟩ := hcovers cfg hpull _ _ hjob
    exact absurd ⟨_, flow', hi', hid⟩ hflow

/-- **A refresh keeps the table right** just if it accounts for every job. -/
theorem jobsMatch_refresh_iff (h : s.JobsMatch) (hdone : s.Completes (.refresh env)) :
    (s.after (.refresh env)).JobsMatch ↔ s.Covers (.refresh env) := by
  obtain ⟨cfg, hret, hslots⟩ := hdone
  obtain ⟨hpull, -, hflows, hs'⟩ := eval_refresh_eq_ok.mp (Prod.ext hret rfl)
  have hafter : s.after (.refresh env) = env.refreshEffect cfg s := hs'
  rw [hafter]
  exact ⟨fun hmatch => h.covers hpull hmatch, fun hcovers => hcovers.jobsMatch hpull hslots hflows⟩

/-! ### One firing -/

theorem eval_renewOne {cfg : AgentConfig} {i : ℕ} {flow : FlowConfig} (hcfg : s.config = some cfg)
    (hi : cfg.flows[i]? = some flow) :
    eval (service env) (renewOne i) s = (env.flowOutcome i flow, env.flowEffect i flow s) := by
  rw [renewOne, eval_act_bind_of_ok (a := s.config) rfl, hcfg]
  simp only [hi]
  exact eval_runOneFlow

theorem attempts_renewOne {cfg : AgentConfig} {i : ℕ} {flow : FlowConfig}
    (hcfg : s.config = some cfg) (hi : cfg.flows[i]? = some flow) :
    attempts (trace (service env) (renewOne i) s) = [i] := by
  have hget : eval (service env) (act .getConfig) s = (.ok s.config, s) := eval_act ..
  rw [renewOne, trace_bind_of_ok hget, hcfg, attempts_append]
  simp only [hi]
  rw [attempts_runOneFlow, trace_act]
  rfl

/-- A firing changes nothing that matters here. -/
theorem JobsMatch.advance (h : s.JobsMatch) (hjob : s.jobs id = some job) :
    (s.advance id job).JobsMatch := by
  intro id' job' hjob'
  rw [ServiceState.advance, jobs_arm] at hjob'
  by_cases hid : id' = id
  · subst hid
    rw [Function.update_self] at hjob'
    cases hjob'
    exact h id' job hjob
  · rw [Function.update_of_ne hid] at hjob'
    exact h id' job' hjob'

/-- **Firings are harmless** where the table is right. -/
theorem JobsMatch.fire (h : s.JobsMatch) (id : String) (env : ServiceEnv) :
    (s.after (.fire id env)).JobsMatch := by
  cases hjob : s.jobs id with
  | none => rwa [after, hjob]
  | some job =>
    obtain ⟨cfg, hcfg, flow, hi, hid, hslot⟩ := h id job hjob
    have hafter : s.after (.fire id env) = env.flowEffect job.index flow (s.advance id job) := by
      rw [after, hjob]
      exact congrArg Prod.snd (eval_renewOne (s := s.advance id job) hcfg hi)
    rw [hafter]
    intro id' job' hjob'
    rw [ServiceEnv.config_flowEffect]
    by_cases hid' : id' = flowJobId flow.type job.index
    · subst hid'
      rw [ServiceEnv.jobs_flowEffect_self] at hjob'
      cases harmed : env.armed job.index flow with
      | none =>
        rw [harmed, Option.none_or] at hjob'
        exact h.advance hjob _ _ hjob'
      | some job'' =>
        rw [harmed, Option.some_or] at hjob'
        obtain rfl := Option.some.inj hjob'
        -- the slot of the flow is a number, because the old trigger was on it
        have hint : ∃ n, flow.slot = .int n := by
          rcases job.trigger.slot_eq with hnull | ⟨n, hn⟩
          · exact absurd (hslot.symm.trans hnull) flow.slot_ne_null
          · exact ⟨n, hslot.symm.trans hn⟩
        obtain ⟨n, hn⟩ := hint
        obtain ⟨hindex, htrigger⟩ := ServiceEnv.slot_of_armed hn harmed
        exact ⟨cfg, hcfg, flow, hindex ▸ hi, hindex ▸ rfl, htrigger⟩
    · rw [ServiceEnv.jobs_flowEffect_of_ne hid'] at hjob'
      exact h.advance hjob _ _ hjob'

/-- What fires is a held flow at its own slot. -/
theorem JobsMatch.firesOwnFlow (h : s.JobsMatch) : s.FiresOwnFlow := by
  intro id job env hjob
  obtain ⟨cfg, hcfg, flow, hi, -, hslot⟩ := h id job hjob
  exact ⟨attempts_renewOne (s := s.advance id job) hcfg hi, cfg, flow, hcfg, hi, hslot⟩

/-! ### Histories -/

/-- **Jobs and flows.** In a history of completed refreshes and firings, from the start of the
process, every armed job is at all times the job of a held flow, and fires that flow alone and at its
own slot, just if every refresh accounts for the jobs it finds armed. -/
theorem jobs_match_iff (persisted : Option AgentConfig) (hist : List Event)
    (hdone : ∀ hist₁ ev hist₂, hist = hist₁ ++ ev :: hist₂ →
      ((init persisted).afterAll hist₁).Completes ev) :
    (∀ hist₁ hist₂, hist = hist₁ ++ hist₂ →
        ((init persisted).afterAll hist₁).JobsMatch ∧
          ((init persisted).afterAll hist₁).FiresOwnFlow) ↔
      ∀ hist₁ ev hist₂, hist = hist₁ ++ ev :: hist₂ →
        ((init persisted).afterAll hist₁).Covers ev := by
  have hstep : ∀ (s : ServiceState) (ev : Event), s.JobsMatch → s.Completes ev →
      ((s.after ev).JobsMatch ↔ s.Covers ev) := by
    intro s ev h hev
    cases ev with
    | refresh env => exact jobsMatch_refresh_iff h hev
    | fire id env => exact iff_of_true (h.fire id env) trivial
  have hrun : Everywhere after JobsMatch (init persisted) hist ↔
      Throughout after Covers (init persisted) hist :=
    everywhere_iff_throughout hstep (jobsMatch_init persisted) hdone
  refine Iff.trans ⟨fun h hist₁ hist₂ hsplit => (h hist₁ hist₂ hsplit).1, fun h => ?_⟩ hrun
  exact fun hist₁ hist₂ hsplit => ⟨h hist₁ hist₂ hsplit, (h hist₁ hist₂ hsplit).firesOwnFlow⟩

/-- Two flows are armed. -/
def twoFlows : ServiceEnv := demoServiceEnv (slottedConfig [("app", .int 6), ("web", .null)])

theorem validSlots_demo : (slottedConfig [("app", .int 6), ("web", .null)]).ValidSlots := by
  simp [AgentConfig.ValidSlots, slottedConfig, slottedFlow, FlowConfig.slot, defaultSlot]

theorem completes_demo (persisted : Option AgentConfig) :
    (init persisted).Completes (.refresh twoFlows) :=
  ⟨_, rfl, validSlots_demo⟩

/-- Then the first one fires, and fails. -/
theorem jobs_match_iff_demo :
    ((init none).afterAll [.refresh twoFlows, .fire "renew:internal:0" firstFails]).JobsMatch := by
  refine ((jobs_match_iff none [.refresh twoFlows, .fire "renew:internal:0" firstFails] ?_).mpr ?_
    [.refresh twoFlows, .fire "renew:internal:0" firstFails] [] rfl).1
  · exact throughout_cons.mpr ⟨completes_demo none, throughout_cons.mpr ⟨trivial, throughout_nil⟩⟩
  · exact throughout_cons.mpr ⟨fun cfg _ id job hjob => (nomatch hjob),
      throughout_cons.mpr ⟨trivial, throughout_nil⟩⟩

/-- The second flow is no longer configured. -/
def oneFlow : ServiceEnv := demoServiceEnv (slottedConfig [("app", .int 6)])

/-- **A configuration that shrinks.** The job of the flow that is gone stays armed, and its index is
past the end of the held configuration. -/
theorem stale_job :
    ¬ ∀ (persisted : Option AgentConfig) (hist : List Event) (env : ServiceEnv),
      (∀ hist₁ ev hist₂, hist ++ [.refresh env] = hist₁ ++ ev :: hist₂ →
        ((init persisted).afterAll hist₁).Completes ev) →
      ((init persisted).afterAll (hist ++ [.refresh env])).JobsMatch := by
  intro h
  have hmatch := h none [.refresh twoFlows] oneFlow (throughout_cons.mpr
    ⟨completes_demo none, throughout_cons.mpr ⟨⟨slottedConfig [("app", .int 6)], rfl, ?_⟩,
      throughout_nil⟩⟩)
  · obtain ⟨cfg, hcfg, flow, hi, -⟩ := hmatch "renew:internal:1" ⟨dailyAt 18, 1, 151 * day⟩
      (by decide)
    cases (show some (slottedConfig [("app", .int 6)]) = some cfg from hcfg)
    cases hi
  · simp [AgentConfig.ValidSlots, slottedConfig, slottedFlow, FlowConfig.slot]

end ServiceState

end NextepAgent
