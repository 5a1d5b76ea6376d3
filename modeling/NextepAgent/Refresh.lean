import NextepAgent.RefreshService

/-!
# What a refresh does

One equation for a flow, and from it, by induction on the list of flows, one for the loop. Both are
in terms of how the stages of a flow end, which is read off the environment: whether it is issued,
whether it is armed, whether the scheduler can be asked for it and whether it is reported.

## Ids

Two flows of one refresh never share a job id, because the id ends in the index. So a flow leaves the
entries of all others alone, and what the table holds for a flow after the loop was put there by the
flow itself, or was there before.

## Main definitions

* `ServiceEnv.issues`, `arms`, `looksUp`, `tells` — how the stages of a flow end
* `ServiceEnv.armed` — the job a flow puts in the table
* `attempts`, `reportsOf` — what a trace tells about flows

## Main results

* `RefreshService.eval_runOneFlow`, `RefreshService.eval_runFlows_eq_ok`
* `RefreshService.eval_refresh_eq_ok` — when a refresh returns, and what it leaves
* `ServiceEnv.jobs_refreshEffect`, `ServiceEnv.nextRuns_refreshEffect` — the two tables after it
* `RefreshService.attempts_runFlows`, `RefreshService.reportsOf_runFlows`
-/

namespace NextepAgent

open Effect Program

/-! ### Ids -/

/-- The id determines the type and the index. -/
theorem flowJobId_inj {t t' : FlowType} {i j : ℕ} (h : flowJobId t i = flowJobId t' j) :
    t = t' ∧ i = j := by
  have hlist := congrArg String.toList h
  have hdigits : t = t' ∧ Nat.toDigits 10 i = Nat.toDigits 10 j := by
    cases t <;> cases t' <;>
      simp [flowJobId, FlowType.value, String.toList_append] at hlist ⊢ <;> exact hlist
  have hnum := congrArg (fun ds => Nat.ofDigitChars 10 ds 0) hdigits.2
  exact ⟨hdigits.1, by simpa using hnum⟩

/-! ### How the stages end -/

namespace ServiceEnv

variable (env : ServiceEnv) (i : ℕ) (flow : FlowConfig)

/-- How the `try` block ends. -/
def issues : Except Exc IssueResult := do
  faulty (env.makeRunner i) (NextepAgent.makeRunner flow)
  env.run i

/-- How `schedule_flow_daily` ends. -/
def arms : Except Exc CronTrigger :=
  match slotTime flow.slot with
  | .error e => .error e
  | .ok (hour, minute) =>
    match env.cronTrigger hour minute, env.addJob (flowJobId flow.type i) with
    | none, none => .ok ⟨hour, minute⟩
    | some e, _ | none, some e => .error e

/-- How `next_run_for` ends. -/
def looksUp : Except Exc Unit := faulty (env.getJob (flowJobId flow.type i)) (.ok ())

/-- How reporting ends. -/
def tells : Except Exc Unit :=
  match env.reportClient i, env.report i with
  | none, none => .ok ()
  | some e, _ | none, some e => .error e

/-- The job that a trigger makes. -/
def job (t : CronTrigger) : Job := ⟨t, i, env.nextFire t⟩

/-- The job a flow puts in the table, if it gets that far. -/
def armed : Option Job :=
  match env.issues i flow, env.arms i flow with
  | .ok _, .ok t => some (env.job i t)
  | _, _ => none

/-- How `_run_one_flow` ends. -/
def flowOutcome : Except Exc Unit :=
  match env.issues i flow with
  | .error _ => env.tells i
  | .ok _ =>
    match env.arms i flow, env.looksUp i flow with
    | .ok _, .ok _ => env.tells i
    | .error e, _ | .ok _, .error e => .error e

/-- What `_run_one_flow` leaves. -/
def flowEffect (s : ServiceState) : ServiceState :=
  match env.armed i flow with
  | none => s
  | some job =>
    match env.looksUp i flow with
    | .error _ => s.arm (flowJobId flow.type i) job
    | .ok _ => (s.arm (flowJobId flow.type i) job).setNextRun (flowJobId flow.type i)
        (some job.nextRunTime)

/-- What the loop leaves, when no flow stops it. -/
def flowsEffect : ℕ → List FlowConfig → ServiceState → ServiceState
  | _, [], s => s
  | i, flow :: flows, s => flowsEffect (i + 1) flows (env.flowEffect i flow s)

/-- What goes wrong while persisting, if anything does. -/
def persistFault (cfg : AgentConfig) : Option Exc :=
  match env.dumps cfg, env.makedirs, env.writeConfig with
  | some e, _, _ | none, some e, _ | none, none, .refused e | none, none, .torn _ e => some e
  | none, none, .works => env.chmodConfig

/-- How persisting ends. -/
def persists (cfg : AgentConfig) : Except Exc Unit :=
  match env.persistFault cfg with
  | some e => if e.isA .osError then .ok () else .error e
  | none => .ok ()

/-- What persisting leaves of `old` in `config.json`. -/
def persistedAfter (cfg : AgentConfig) (old : Option AgentConfig) : Option AgentConfig :=
  match env.dumps cfg, env.makedirs, env.writeConfig with
  | some _, _, _ | none, some _, _ | none, none, .refused _ => old
  | none, none, .torn _ _ => none
  | none, none, .works => some cfg

/-- What a refresh that returns leaves. -/
def refreshEffect (cfg : AgentConfig) (s : ServiceState) : ServiceState :=
  env.flowsEffect 0 cfg.flows
    { s with config := some cfg, persisted := env.persistedAfter cfg s.persisted }

variable {env i flow}

/-- Where the scheduler works, every valid slot is armed. -/
theorem SchedulerWorks.arms (h : env.SchedulerWorks) {n : ℤ} (hslot : flow.slot = .int n)
    (h₀ : 0 ≤ n) (h₁₄₃ : n ≤ 143) : env.arms i flow = .ok (dailyAt n) := by
  have hcron : env.cronTrigger (.int (n * 10 / 60)) (.int (n * 10 % 60)) = none :=
    h.cronTrigger _ _ (by omega) (by omega) (by omega) (by omega)
  rw [ServiceEnv.arms, hslot, slotTime_int]
  simp only [dailyAt, hcron, h.addJob]

theorem SchedulerWorks.looksUp (h : env.SchedulerWorks) : env.looksUp i flow = .ok () := by
  rw [ServiceEnv.looksUp, h.getJob]
  rfl

end ServiceEnv

/-! ### One flow -/

namespace RefreshService

variable {env : ServiceEnv} {cfg : AgentConfig} {i : ℕ} {flow : FlowConfig} {s s' : ServiceState}

/-- Sequencing after a step that succeeds. -/
theorem eval_act_bind_of_ok {α : Type} {o : ServiceOp} {a : o.Ans} {f : o.Ans → Service α}
    (h : service env o s = (.ok a, s')) :
    eval (service env) (act o >>= f) s = eval (service env) (f a) s' :=
  eval_bind_of_ok ((eval_act ..).trans h)

/-- Sequencing after a step that raises. -/
theorem eval_act_bind_of_error {α : Type} {o : ServiceOp} {e : Exc} {f : o.Ans → Service α}
    (h : service env o s = (.error e, s')) :
    eval (service env) (act o >>= f) s = (.error e, s') :=
  eval_bind_of_error ((eval_act ..).trans h)

@[simp] theorem eval_attempt :
    eval (service env) (attempt i flow) s = (.ok (env.issues i flow), s) := by
  rw [attempt, eval_tryCatch, ServiceEnv.issues]
  cases hmake : faulty (env.makeRunner i) (makeRunner flow) with
  | error e => rw [eval_act_bind_of_error (by rw [service, hmake])]; rfl
  | ok _ =>
    rw [eval_act_bind_of_ok (by rw [service, hmake])]
    cases hrun : env.run i with
    | error e => rw [eval_act_bind_of_error (by rw [service, hrun])]; rfl
    | ok r => rw [eval_act_bind_of_ok (by rw [service, hrun])]; rfl

@[simp] theorem eval_sendReport (r : Report) :
    eval (service env) (sendReport i r) s = (env.tells i, s) := by
  rw [sendReport, ServiceEnv.tells]
  cases hclient : env.reportClient i with
  | some e => exact eval_act_bind_of_error (by rw [service, hclient]; rfl)
  | none =>
    rw [eval_act_bind_of_ok (by rw [service, hclient]; rfl), eval_act, service]
    cases env.report i <;> rfl

theorem eval_scheduleFlowDaily :
    eval (service env) (RenewalScheduler.scheduleFlowDaily (flowJobId flow.type i) flow.slot i) s =
      match env.arms i flow with
      | .error e => (.error e, s)
      | .ok t => (.ok (), s.arm (flowJobId flow.type i) (env.job i t)) := by
  rw [RenewalScheduler.scheduleFlowDaily, ServiceEnv.arms]
  cases slotTime flow.slot with
  | error e => rfl
  | ok time =>
    obtain ⟨hour, minute⟩ := time
    show eval (service env) (act (.cronTrigger hour minute) >>= fun trigger =>
      act (.addJob (flowJobId flow.type i) trigger i)) s = _
    cases hcron : env.cronTrigger hour minute with
    | some e =>
      rw [eval_act_bind_of_error (by rw [service, hcron]; rfl)]
      simp only [hcron]
    | none =>
      rw [eval_act_bind_of_ok (by rw [service, hcron]; rfl), eval_act, service]
      cases env.addJob (flowJobId flow.type i) with
      | some e => simp only [hcron]
      | none =>
        simp only [hcron]
        rfl

/-- **One flow.** -/
theorem eval_runOneFlow :
    eval (service env) (runOneFlow cfg i flow) s =
      (env.flowOutcome i flow, env.flowEffect i flow s) := by
  rw [runOneFlow, eval_bind_of_ok eval_attempt, ServiceEnv.flowOutcome, ServiceEnv.flowEffect,
    ServiceEnv.armed]
  cases env.issues i flow with
  | error e => exact eval_sendReport _
  | ok r =>
    cases harms : env.arms i flow with
    | error e => exact eval_bind_of_error (by rw [eval_scheduleFlowDaily, harms])
    | ok t =>
      refine (eval_bind_of_ok (by rw [eval_scheduleFlowDaily, harms])).trans ?_
      rw [ServiceEnv.looksUp, RenewalScheduler.nextRunFor]
      cases hget : env.getJob (flowJobId flow.type i) with
      | some e =>
        exact eval_bind_of_error (eval_act_bind_of_error (by rw [service, hget]; rfl))
      | none =>
        rw [eval_bind_of_ok (eval_act_bind_of_ok (by rw [service, hget]; rfl)),
          eval_act_bind_of_ok rfl]
        simp

/-! ### The loop -/

/-- **The loop** returns when every flow does. -/
theorem eval_runFlows_eq_ok {flows : List FlowConfig} {u : Unit} :
    eval (service env) (runFlows cfg i flows) s = (.ok u, s') ↔
      (∀ m flow, flows[m]? = some flow → env.flowOutcome (i + m) flow = .ok ()) ∧
        s' = env.flowsEffect i flows s := by
  induction flows generalizing i s with
  | nil => simp [runFlows, ServiceEnv.flowsEffect, eq_comm]
  | cons flow flows ih =>
    rw [runFlows, eval_bind, eval_runOneFlow, ServiceEnv.flowsEffect]
    cases hflow : env.flowOutcome i flow with
    | error e =>
      simp only [Prod.mk.injEq, reduceCtorEq, false_and, false_iff, not_and]
      intro h
      have hbad := h 0 flow rfl
      rw [Nat.add_zero, hflow] at hbad
      cases hbad
    | ok _ =>
      rw [ih]
      refine and_congr_left fun _ => ⟨fun h m flow' hm => ?_, fun h m flow' hm => ?_⟩
      · cases m with
        | zero => cases hm; exact hflow
        | succ m => rw [← Nat.add_assoc, Nat.add_right_comm]; exact h m flow' hm
      · rw [Nat.add_right_comm]
        exact h (m + 1) flow' hm

/-! ### Refresh -/

theorem eval_persist :
    eval (service env) (persist cfg) s =
      (env.persists cfg, { s with persisted := env.persistedAfter cfg s.persisted }) := by
  rw [persist, eval_tryCatch, ServiceEnv.persists, ServiceEnv.persistedAfter,
    ServiceEnv.persistFault]
  cases hdumps : env.dumps cfg with
  | some e =>
    rw [eval_act_bind_of_error (by rw [service, hdumps]; rfl)]
    simp only
    split <;> rfl
  | none =>
    rw [eval_act_bind_of_ok (by rw [service, hdumps]; rfl)]
    cases hdir : env.makedirs with
    | some e =>
      rw [eval_act_bind_of_error (by rw [service, hdir]; rfl)]
      simp only
      split <;> rfl
    | none =>
      rw [eval_act_bind_of_ok (by rw [service, hdir]; rfl)]
      cases hwrite : env.writeConfig with
      | works =>
        rw [eval_act_bind_of_ok (by rw [service, hwrite]), eval_act, service]
        cases env.chmodConfig with
        | none => rfl
        | some e =>
          simp only [faulty_some]
          split <;> rfl
      | refused e =>
        rw [eval_act_bind_of_error (by rw [service, hwrite])]
        simp only
        split <;> rfl
      | torn n e =>
        rw [eval_act_bind_of_error (by rw [service, hwrite])]
        simp only
        split <;> rfl

/-- **When a refresh returns**, and what it leaves. -/
theorem eval_refresh_eq_ok :
    eval (service env) refresh s = (.ok cfg, s') ↔
      env.pull = .ok cfg ∧ env.persists cfg = .ok () ∧
        (∀ i flow, cfg.flows[i]? = some flow → env.flowOutcome i flow = .ok ()) ∧
          s' = env.refreshEffect cfg s := by
  rw [refresh]
  cases hpull : env.pull with
  | error e => simp [eval_act_bind_of_error (by rw [service, hpull])]
  | ok cfg' =>
    rw [eval_act_bind_of_ok (by rw [service, hpull]), eval_act_bind_of_ok rfl, eval_bind,
      eval_persist]
    cases hpersist : env.persists cfg' with
    | error e =>
      simp only [Prod.mk.injEq, reduceCtorEq, false_and, false_iff, not_and]
      rintro hcfg hpersist'
      cases hcfg
      rw [hpersist] at hpersist'
      cases hpersist'
    | ok _ =>
      simp only [eval_bind_eq_ok, eval_runFlows_eq_ok, Nat.zero_add, pure_eq, eval_ret]
      constructor
      · rintro ⟨_, s₁, ⟨hflows, rfl⟩, hret⟩
        cases hret
        exact ⟨rfl, hpersist, hflows, rfl⟩
      · rintro ⟨hcfg, -, hflows, rfl⟩
        cases hcfg
        exact ⟨(), _, ⟨hflows, rfl⟩, rfl⟩

end RefreshService

/-! ### Traces -/

/-- The flow that a step is an attempt at. -/
def ServiceOp.attempted : ServiceOp → Option ℕ
  | .makeRunner i _ => some i
  | _ => none

/-- The flows that were attempted, in order. -/
def attempts (t : List ServiceOp) : List ℕ := t.filterMap ServiceOp.attempted

/-- The report that a step sends about flow `j`. -/
def ServiceOp.reportOn (j : ℕ) : ServiceOp → Option Report
  | .report i r => if i = j then some r else none
  | _ => none

/-- The reports that were sent about flow `j`, in order. -/
def reportsOf (j : ℕ) (t : List ServiceOp) : List Report := t.filterMap (ServiceOp.reportOn j)

@[simp] theorem attempts_append (t t' : List ServiceOp) :
    attempts (t ++ t') = attempts t ++ attempts t' := List.filterMap_append

@[simp] theorem reportsOf_append (j : ℕ) (t t' : List ServiceOp) :
    reportsOf j (t ++ t') = reportsOf j t ++ reportsOf j t' := List.filterMap_append

theorem attempts_eq_nil {t : List ServiceOp} (h : ∀ o ∈ t, o.attempted = none) :
    attempts t = [] := List.filterMap_eq_nil_iff.mpr h

theorem reportsOf_eq_nil {j : ℕ} {t : List ServiceOp} (h : ∀ o ∈ t, o.reportOn j = none) :
    reportsOf j t = [] := List.filterMap_eq_nil_iff.mpr h

namespace RefreshService

variable {env : ServiceEnv} {cfg : AgentConfig} {i j : ℕ} {flow : FlowConfig}
  {s s' : ServiceState}

/-- A step that attempts nothing and reports on nothing. -/
def Silent (o : ServiceOp) : Prop := o.attempted = none ∧ ∀ j, o.reportOn j = none

/-- A step that may come after the attempt at flow `i`. -/
def AfterAttempt (i : ℕ) (o : ServiceOp) : Prop :=
  o.attempted = none ∧ ∀ j, i ≠ j → o.reportOn j = none

theorem Silent.afterAttempt {o : ServiceOp} (h : Silent o) (i : ℕ) : AfterAttempt i o :=
  ⟨h.1, fun j _ => h.2 j⟩

theorem uses_act {A : (o : ServiceOp) → Except Exc o.Ans → Prop} {Q : ServiceOp → Prop}
    {o : ServiceOp} (ho : Q o) : (act o).Uses A Q :=
  uses_perform ho

/-- The steps that are taken for one flow. -/
inductive FlowStep (i : ℕ) (flow : FlowConfig) : ServiceOp → Prop
  | makeRunner : FlowStep i flow (.makeRunner i flow)
  | run : FlowStep i flow (.run i flow)
  | cronTrigger (hour minute : Json) : FlowStep i flow (.cronTrigger hour minute)
  | addJob (t : CronTrigger) : FlowStep i flow (.addJob (flowJobId flow.type i) t i)
  | getJob : FlowStep i flow (.getJob (flowJobId flow.type i))
  | setNextRun (t : Option ℤ) : FlowStep i flow (.setNextRun (flowJobId flow.type i) t)
  | reportClient : FlowStep i flow (.reportClient i)
  | report (r : Report) : FlowStep i flow (.report i r)

/-- One flow takes no other steps. -/
theorem uses_runOneFlow {A : (o : ServiceOp) → Except Exc o.Ans → Prop} (cfg : AgentConfig)
    (i : ℕ) (flow : FlowConfig) : (runOneFlow cfg i flow).Uses A (FlowStep i flow) := by
  have hsend : ∀ r, (sendReport i r).Uses A (FlowStep i flow) := fun r =>
    (uses_act .reportClient).bind fun _ => uses_act (.report r)
  have hattempt : (attempt i flow).Uses A (FlowStep i flow) := by
    refine Uses.tryCatch ?_ fun e => trivial
    exact (uses_act .makeRunner).bind fun _ => (uses_act .run).bind fun _ => trivial
  refine hattempt.bind fun ended => ?_
  cases ended with
  | error e => exact hsend _
  | ok result =>
    refine Uses.bind ?_ fun _ => Uses.bind ?_ fun nextRun => ?_
    · exact (uses_ofExcept _).bind fun time =>
        (uses_act (.cronTrigger ..)).bind fun t => uses_act (.addJob t)
    · exact (uses_act .getJob).bind fun _ => trivial
    · exact (uses_act (.setNextRun nextRun)).bind fun _ => hsend _

/-- The steps of a loop are those of its flows. -/
theorem uses_runFlows {A : (o : ServiceOp) → Except Exc o.Ans → Prop} {Q : ServiceOp → Prop}
    (hQ : ∀ i flow o, FlowStep i flow o → Q o) (cfg : AgentConfig) (i : ℕ)
    (flows : List FlowConfig) : (runFlows cfg i flows).Uses A Q := by
  induction flows generalizing i with
  | nil => trivial
  | cons flow flows ih =>
    have hflow : (runOneFlow cfg i flow).Uses A Q :=
      (uses_runOneFlow cfg i flow).mono (fun _ _ h => h) (hQ i flow)
    exact hflow.bind fun _ => ih (i + 1)

theorem uses_scheduleFlowDaily (id : String) (slot : Json) (i : ℕ) :
    (RenewalScheduler.scheduleFlowDaily id slot i).Uses (fun _ _ => True) Silent := by
  refine (uses_ofExcept _).bind fun time => ?_
  exact (uses_act ⟨rfl, fun _ => rfl⟩).bind fun _ => uses_act ⟨rfl, fun _ => rfl⟩

theorem uses_nextRunFor (id : String) :
    (RenewalScheduler.nextRunFor id).Uses (fun _ _ => True) Silent :=
  (uses_act ⟨rfl, fun _ => rfl⟩).bind fun _ => trivial

/-- The steps of persisting. `dumps` comes first, and there may be no others. -/
theorem uses_persist_of {A : (o : ServiceOp) → Except Exc o.Ans → Prop} {Q : ServiceOp → Prop}
    {cfg : AgentConfig} (hdumps : Q (.dumps cfg))
    (hrest : A (.dumps cfg) (.ok ()) → Q .makedirs ∧ Q (.writeConfig cfg) ∧ Q (.chmodConfig 0o600)) :
    (persist cfg).Uses A Q := by
  refine Uses.tryCatch ?_ fun e => ?_
  · refine uses_perform_bind hdumps fun _ hanswer => ?_
    obtain ⟨hmakedirs, hwrite, hchmod⟩ := hrest hanswer
    exact (uses_act hmakedirs).bind fun _ => (uses_act hwrite).bind fun _ => uses_act hchmod
  · split <;> trivial

theorem uses_persist (cfg : AgentConfig) : (persist cfg).Uses (fun _ _ => True) Silent :=
  uses_persist_of ⟨rfl, fun _ => rfl⟩ fun _ =>
    ⟨⟨rfl, fun _ => rfl⟩, ⟨rfl, fun _ => rfl⟩, ⟨rfl, fun _ => rfl⟩⟩

/-- One flow is attempted first, and reported on at the end. -/
theorem runOneFlow_eq_call (cfg : AgentConfig) (i : ℕ) (flow : FlowConfig) :
    ∃ k, runOneFlow cfg i flow = .call (.makeRunner i flow) k ∧
      ∀ r, (k r).Uses (fun _ _ => True) (AfterAttempt i) := by
  have hsilent : ∀ {α : Type} {p : Service α}, p.Uses (fun _ _ => True) Silent →
      p.Uses (fun _ _ => True) (AfterAttempt i) := fun hp =>
    hp.mono (fun _ _ h => h) fun o ho => ho.afterAttempt i
  have hsend : ∀ r, (sendReport i r).Uses (fun _ _ => True) (AfterAttempt i) := fun r =>
    (uses_act ⟨rfl, fun _ _ => rfl⟩).bind fun _ => uses_act ⟨rfl, fun j hj => if_neg hj⟩
  refine ⟨_, rfl, fun r => Uses.bind (Uses.tryCatch ?_ fun e => trivial) fun result => ?_⟩
  · exact Uses.bind (uses_ofExcept r) fun _ =>
      (uses_act ⟨rfl, fun _ _ => rfl⟩).bind fun _ => trivial
  · cases result with
    | error e => exact hsend _
    | ok result =>
      refine (hsilent (uses_scheduleFlowDaily ..)).bind fun _ => ?_
      refine (hsilent (uses_nextRunFor _)).bind fun nextRun => ?_
      exact (uses_act ⟨rfl, fun _ _ => rfl⟩).bind fun _ => hsend _

theorem attempts_of_uses {Q : ServiceOp → Prop} {α : Type} {p : Service α}
    (hp : p.Uses (fun _ _ => True) Q) (hQ : ∀ o, Q o → o.attempted = none) :
    attempts (trace (service env) p s) = [] :=
  attempts_eq_nil fun o ho => hQ o (hp.mem_trace (fun _ _ => trivial) o ho)

theorem reportsOf_of_uses {Q : ServiceOp → Prop} {α : Type} {p : Service α}
    (hp : p.Uses (fun _ _ => True) Q) (hQ : ∀ o, Q o → o.reportOn j = none) :
    reportsOf j (trace (service env) p s) = [] :=
  reportsOf_eq_nil fun o ho => hQ o (hp.mem_trace (fun _ _ => trivial) o ho)

@[simp] theorem attempts_runOneFlow :
    attempts (trace (service env) (runOneFlow cfg i flow) s) = [i] := by
  obtain ⟨k, hk, huses⟩ := runOneFlow_eq_call cfg i flow
  have hrest : attempts (trace (service env) (k (service env (.makeRunner i flow) s).1)
      (service env (.makeRunner i flow) s).2) = [] :=
    attempts_of_uses (huses _) fun o ho => ho.1
  rw [hk, trace]
  exact congrArg (i :: ·) hrest

theorem reportsOf_runOneFlow_of_ne (h : i ≠ j) :
    reportsOf j (trace (service env) (runOneFlow cfg i flow) s) = [] := by
  obtain ⟨k, hk, huses⟩ := runOneFlow_eq_call cfg i flow
  rw [hk, trace, reportsOf, List.filterMap_cons_none rfl]
  exact reportsOf_of_uses (huses _) fun o ho => ho.2 j h

theorem reportsOf_sendReport (r : Report) (h : env.tells i = .ok ()) :
    reportsOf i (trace (service env) (sendReport i r) s) = [r] := by
  have hclient : env.reportClient i = none := by
    rw [ServiceEnv.tells] at h
    split at h
    · next hc _ => exact hc
    · cases h
    · cases h
  rw [sendReport, trace_bind_of_ok ((eval_act ..).trans (by rw [service, hclient]; rfl)), trace_act,
    trace_act]
  exact (List.filterMap_cons_none rfl).trans (List.filterMap_cons_some (if_pos rfl))

/-- **The report on a flow that goes through.** -/
theorem reportsOf_runOneFlow {result : IssueResult} {t : CronTrigger}
    (hissues : env.issues i flow = .ok result) (harms : env.arms i flow = .ok t)
    (hlooks : env.looksUp i flow = .ok ()) (htells : env.tells i = .ok ()) :
    reportsOf i (trace (service env) (runOneFlow cfg i flow) s) =
      [issuedReport cfg flow result (some (env.nextFire t))] := by
  have hattempt : (attempt i flow).Uses (fun _ _ => True) fun o : ServiceOp => o.reportOn i = none := by
    refine Uses.tryCatch ?_ fun e => trivial
    exact Uses.bind (uses_act rfl) fun _ => Uses.bind (uses_act rfl) fun _ => trivial
  have hget : env.getJob (flowJobId flow.type i) = none := (faulty_eq_ok hlooks).1
  have hschedule : eval (service env)
      (RenewalScheduler.scheduleFlowDaily (flowJobId flow.type i) flow.slot i) s =
      (.ok (), s.arm (flowJobId flow.type i) (env.job i t)) := by
    rw [eval_scheduleFlowDaily, harms]
  have hnext : eval (service env) (RenewalScheduler.nextRunFor (flowJobId flow.type i))
      (s.arm (flowJobId flow.type i) (env.job i t)) =
      (.ok (some (env.nextFire t)), s.arm (flowJobId flow.type i) (env.job i t)) := by
    rw [RenewalScheduler.nextRunFor, eval_act_bind_of_ok (by rw [service, hget]; rfl)]
    simp [ServiceEnv.job]
  rw [runOneFlow, trace_bind_of_ok eval_attempt, hissues, reportsOf_append,
    reportsOf_of_uses hattempt fun o ho => ho, List.nil_append]
  simp only
  rw [trace_bind_of_ok hschedule, reportsOf_append,
    reportsOf_of_uses (uses_scheduleFlowDaily ..) fun o ho => ho.2 i, List.nil_append,
    trace_bind_of_ok hnext, reportsOf_append,
    reportsOf_of_uses (uses_nextRunFor _) fun o ho => ho.2 i, List.nil_append,
    trace_bind_of_ok (eval_act ..), reportsOf_append, trace_act, reportsOf_sendReport _ htells]
  rfl

/-! ### The traces of a loop -/

/-- **A loop that returns attempts every flow once**, in order. -/
theorem attempts_runFlows {flows : List FlowConfig}
    (h : ∀ m flow, flows[m]? = some flow → env.flowOutcome (i + m) flow = .ok ()) :
    attempts (trace (service env) (runFlows cfg i flows) s) = List.range' i flows.length := by
  induction flows generalizing i s with
  | nil => rfl
  | cons flow flows ih =>
    have hflow : eval (service env) (runOneFlow cfg i flow) s =
        (.ok (), env.flowEffect i flow s) := by
      rw [eval_runOneFlow, ← Nat.add_zero i, h 0 flow rfl]
    rw [runFlows, trace_bind_of_ok hflow, attempts_append, attempts_runOneFlow, ih]
    · rfl
    · intro m flow' hm
      rw [Nat.add_right_comm]
      exact h (m + 1) flow' hm

theorem reportsOf_runFlows_of_lt {flows : List FlowConfig} (hj : j < i) :
    reportsOf j (trace (service env) (runFlows cfg i flows) s) = [] := by
  induction flows generalizing i s with
  | nil => rfl
  | cons flow flows ih =>
    rw [runFlows, trace_bind, reportsOf_append, reportsOf_runOneFlow_of_ne hj.ne', List.nil_append]
    split
    · exact ih (hj.trans (Nat.lt_succ_self i))
    · rfl

/-- **A loop that returns reports on a flow as the flow itself does.** -/
theorem reportsOf_runFlows (cfg : AgentConfig) (s : ServiceState) {flows : List FlowConfig}
    (h : ∀ m flow, flows[m]? = some flow → env.flowOutcome (i + m) flow = .ok ()) {m : ℕ}
    (hm : flows[m]? = some flow) : ∃ s₁,
    reportsOf (i + m) (trace (service env) (runFlows cfg i flows) s) =
      reportsOf (i + m) (trace (service env) (runOneFlow cfg (i + m) flow) s₁) := by
  induction flows generalizing i s m with
  | nil => cases hm
  | cons flow' flows ih =>
    have hflow : eval (service env) (runOneFlow cfg i flow') s =
        (.ok (), env.flowEffect i flow' s) := by
      rw [eval_runOneFlow, ← Nat.add_zero i, h 0 flow' rfl]
    rw [runFlows, trace_bind_of_ok hflow, reportsOf_append]
    cases m with
    | zero =>
      cases hm
      refine ⟨s, ?_⟩
      rw [Nat.add_zero, reportsOf_runFlows_of_lt (Nat.lt_succ_self i), List.append_nil]
    | succ m =>
      rw [reportsOf_runOneFlow_of_ne (by omega), List.nil_append, ← Nat.add_assoc,
        Nat.add_right_comm]
      refine ih _ (fun m' flow'' hm' => ?_) hm
      rw [Nat.add_right_comm]
      exact h (m' + 1) flow'' hm'

/-- Before its loop a refresh does nothing that concerns a flow. -/
theorem filterMap_trace_refresh {γ : Type} {f : ServiceOp → Option γ}
    (hf : ∀ o, Silent o → f o = none) (h : eval (service env) refresh s = (.ok cfg, s')) :
    (trace (service env) refresh s).filterMap f =
      (trace (service env) (runFlows cfg 0 cfg.flows)
        { s with config := some cfg, persisted := env.persistedAfter cfg s.persisted }).filterMap
          f := by
  obtain ⟨hpull, hpersist, hflows, -⟩ := eval_refresh_eq_ok.mp h
  have hnil : ∀ {α : Type} {p : Service α} {s : ServiceState}, p.Uses (fun _ _ => True) Silent →
      (trace (service env) p s).filterMap f = [] := fun hp =>
    List.filterMap_eq_nil_iff.mpr fun o ho => hf o (hp.mem_trace (fun _ _ => trivial) o ho)
  have hpull' : eval (service env) (act .pull) s = (.ok cfg, s) := by rw [eval_act, service, hpull]
  have hpersist' : eval (service env) (persist cfg) { s with config := some cfg } =
      (.ok (), { s with config := some cfg, persisted := env.persistedAfter cfg s.persisted }) := by
    rw [eval_persist, hpersist]
  have hloop : eval (service env) (runFlows cfg 0 cfg.flows)
      { s with config := some cfg, persisted := env.persistedAfter cfg s.persisted } =
      (.ok (), env.refreshEffect cfg s) :=
    eval_runFlows_eq_ok.mpr ⟨by simpa using hflows, rfl⟩
  rw [refresh, trace_bind_of_ok hpull', trace_bind_of_ok (eval_act ..), trace_bind_of_ok hpersist',
    trace_bind_of_ok hloop]
  have hpullNil := hnil (s := s) (uses_act (o := .pull) ⟨rfl, fun _ => rfl⟩)
  have hsetNil := hnil (s := s) (uses_act (o := .setConfig cfg) ⟨rfl, fun _ => rfl⟩)
  simp only [List.filterMap_append, hpullNil, hsetNil, hnil (uses_persist cfg), pure_eq, trace_ret,
    List.append_nil, List.nil_append]

end RefreshService

/-! ### The job table -/

namespace ServiceEnv

variable {env : ServiceEnv} {i : ℕ} {flow : FlowConfig} {flows : List FlowConfig}
  {s : ServiceState} {id : String}

@[simp] theorem config_flowEffect : (env.flowEffect i flow s).config = s.config := by
  rw [flowEffect]
  split
  · rfl
  · split <;> rfl

@[simp] theorem config_flowsEffect : (env.flowsEffect i flows s).config = s.config := by
  induction flows generalizing i s with
  | nil => rfl
  | cons flow flows ih => rw [flowsEffect, ih, config_flowEffect]

@[simp] theorem config_refreshEffect (cfg : AgentConfig) :
    (env.refreshEffect cfg s).config = some cfg :=
  config_flowsEffect

theorem jobs_flowEffect_self :
    (env.flowEffect i flow s).jobs (flowJobId flow.type i) =
      (env.armed i flow).or (s.jobs (flowJobId flow.type i)) := by
  rw [flowEffect]
  cases env.armed i flow with
  | none => rfl
  | some job => simp only; split <;> simp

theorem jobs_flowEffect_of_ne (h : id ≠ flowJobId flow.type i) :
    (env.flowEffect i flow s).jobs id = s.jobs id := by
  rw [flowEffect]
  cases env.armed i flow with
  | none => rfl
  | some job => simp only; split <;> simp [h]

/-- The run that a flow puts in `next_runs`, if it gets that far. -/
def shows (env : ServiceEnv) (i : ℕ) (flow : FlowConfig) : Option (Option ℤ) :=
  match env.armed i flow, env.looksUp i flow with
  | some job, .ok _ => some (some job.nextRunTime)
  | _, _ => none

theorem nextRuns_flowEffect_self :
    (env.flowEffect i flow s).nextRuns (flowJobId flow.type i) =
      (env.shows i flow).or (s.nextRuns (flowJobId flow.type i)) := by
  rw [flowEffect, shows]
  cases env.armed i flow with
  | none => rfl
  | some job =>
    cases env.looksUp i flow with
    | error e => rfl
    | ok _ => simp [ServiceState.setNextRun]

theorem nextRuns_flowEffect_of_ne (h : id ≠ flowJobId flow.type i) :
    (env.flowEffect i flow s).nextRuns id = s.nextRuns id := by
  rw [flowEffect]
  cases env.armed i flow with
  | none => rfl
  | some job =>
    cases env.looksUp i flow with
    | error e => rfl
    | ok _ => simp [ServiceState.setNextRun, ServiceState.arm, h]

section Table

/-! A table that a flow touches under its own id at most. -/

variable {β : Type} {g : ServiceState → String → Option β}

/-- An id that is no flow's is left alone. -/
theorem table_flowsEffect_of_ne
    (hne : ∀ i flow s id, id ≠ flowJobId flow.type i →
      g (env.flowEffect i flow s) id = g s id)
    (h : ∀ m flow, flows[m]? = some flow → id ≠ flowJobId flow.type (i + m)) :
    g (env.flowsEffect i flows s) id = g s id := by
  induction flows generalizing i s with
  | nil => rfl
  | cons flow flows ih =>
    rw [flowsEffect, ih, hne i flow s id (h 0 flow rfl)]
    intro m flow' hm
    rw [Nat.add_right_comm]
    exact h (m + 1) flow' hm

/-- **The entry of a flow**: the one it has put there, or the old one. -/
theorem table_flowsEffect {f : ℕ → FlowConfig → Option β}
    (hself : ∀ i flow s, g (env.flowEffect i flow s) (flowJobId flow.type i) =
      (f i flow).or (g s (flowJobId flow.type i)))
    (hne : ∀ i flow s id, id ≠ flowJobId flow.type i →
      g (env.flowEffect i flow s) id = g s id)
    {m : ℕ} (h : flows[m]? = some flow) :
    g (env.flowsEffect i flows s) (flowJobId flow.type (i + m)) =
      (f (i + m) flow).or (g s (flowJobId flow.type (i + m))) := by
  induction flows generalizing i s m with
  | nil => cases h
  | cons flow' flows ih =>
    rw [flowsEffect]
    cases m with
    | zero =>
      cases h
      -- the flows after it have other indices
      rw [table_flowsEffect_of_ne hne, Nat.add_zero, hself]
      intro m flow' _ hid
      have hindex := (flowJobId_inj hid).2
      omega
    | succ m =>
      rw [← Nat.add_assoc, Nat.add_right_comm, ih h, hne]
      intro hid
      have hindex := (flowJobId_inj hid).2
      omega

end Table

/-- **The job of a flow** after a refresh. -/
theorem jobs_refreshEffect {cfg : AgentConfig} (h : cfg.flows[i]? = some flow) :
    (env.refreshEffect cfg s).jobs (flowJobId flow.type i) =
      (env.armed i flow).or (s.jobs (flowJobId flow.type i)) := by
  have key : (env.refreshEffect cfg s).jobs (flowJobId flow.type (0 + i)) =
      (env.armed (0 + i) flow).or (s.jobs (flowJobId flow.type (0 + i))) :=
    table_flowsEffect (g := ServiceState.jobs) (fun _ _ _ => jobs_flowEffect_self)
      (fun _ _ _ _ => jobs_flowEffect_of_ne) h
  rwa [Nat.zero_add] at key

theorem jobs_refreshEffect_of_ne {cfg : AgentConfig}
    (h : ∀ i flow, cfg.flows[i]? = some flow → id ≠ flowJobId flow.type i) :
    (env.refreshEffect cfg s).jobs id = s.jobs id :=
  table_flowsEffect_of_ne (g := ServiceState.jobs) (fun _ _ _ _ => jobs_flowEffect_of_ne)
    (by simpa using h)

/-- **The entry of a flow in `next_runs`** after a refresh. -/
theorem nextRuns_refreshEffect {cfg : AgentConfig} (h : cfg.flows[i]? = some flow) :
    (env.refreshEffect cfg s).nextRuns (flowJobId flow.type i) =
      (env.shows i flow).or (s.nextRuns (flowJobId flow.type i)) := by
  have key : (env.refreshEffect cfg s).nextRuns (flowJobId flow.type (0 + i)) =
      (env.shows (0 + i) flow).or (s.nextRuns (flowJobId flow.type (0 + i))) :=
    table_flowsEffect (g := ServiceState.nextRuns) (fun _ _ _ => nextRuns_flowEffect_self)
      (fun _ _ _ _ => nextRuns_flowEffect_of_ne) h
  rwa [Nat.zero_add] at key

/-- At the index of a flow, a refresh changes nothing but the job of the flow. -/
theorem jobs_refreshEffect_of_type_ne {cfg : AgentConfig} (h : cfg.flows[i]? = some flow)
    {t : FlowType} (ht : t ≠ flow.type) :
    (env.refreshEffect cfg s).jobs (flowJobId t i) = s.jobs (flowJobId t i) := by
  refine jobs_refreshEffect_of_ne fun j flow' hj hid => ?_
  obtain ⟨rfl, rfl⟩ := flowJobId_inj hid
  obtain rfl : flow = flow' := Option.some.inj (h.symm.trans hj)
  exact ht rfl

/-- And not even that, if the flow is not armed. -/
theorem jobs_refreshEffect_of_not_armed {cfg : AgentConfig} (h : cfg.flows[i]? = some flow)
    (harmed : env.armed i flow = none) (t : FlowType) :
    (env.refreshEffect cfg s).jobs (flowJobId t i) = s.jobs (flowJobId t i) := by
  by_cases ht : t = flow.type
  · rw [ht, jobs_refreshEffect h, harmed, Option.none_or]
  · exact jobs_refreshEffect_of_type_ne h ht

end ServiceEnv

end NextepAgent
