import NextepAgent.FlowRunner
import NextepAgent.RoundTrip
import Mathlib.Data.Rat.Floor

/-!
# The refresh service

Pull the configuration, hold it, persist it, run every flow, and arm a daily job for each flow that
was issued. A job that fires re-runs its flow by index, against whatever is held by then.

## Three places that outlive a refresh

The held configuration, `config.json` and the job table. They are written at different moments,
nothing locks them, and a job is never removed. What ties a job to a flow is its id and its index.

## What an environment decides

As on the host: which calls raise, what the pull returns, how each flow's issuance ends. The calls
made for one flow carry its index, so that an environment can treat every flow in its own way. What
`FlowRunner.run` does is left out here but for its outcome. `CronTrigger` belongs to a third-party
package and may refuse any pair of arguments.

## Main definitions

* `slotTime`, `flowJobId`, `Job`
* `ServiceState`, `ServiceOp`, `ServiceEnv`, `service`
* `RefreshService.runOneFlow`, `RefreshService.refresh`, `RefreshService.renewOne`

## Main results

* `RefreshService.eval_runOneFlow` — all that running one flow does
-/

namespace NextepAgent

open Effect Program

/-! ### Slots -/

/-- `DEFAULT_SLOT`: 03:00. -/
def defaultSlot : ℤ := 18

/-- The slot a flow is to be armed at. -/
def FlowConfig.slot (flow : FlowConfig) : Json :=
  match flow.scheduleSlot with
  | .null => .int defaultSlot
  | v => v

/-- `divmod(slot * 10, 60)`: the hour and the minute. Floats are not rounded here. Strings and lists
can be multiplied, but not divided. -/
def slotTime : Json → Except Exc (Json × Json)
  | .bool b => .ok (.int (b.toInt * 10 / 60), .int (b.toInt * 10 % 60))
  | .int n => .ok (.int (n * 10 / 60), .int (n * 10 % 60))
  | .float (.finite q) =>
    .ok (.float (.finite ⌊q * 10 / 60⌋), .float (.finite (q * 10 - 60 * ⌊q * 10 / 60⌋)))
  | .float _ => .ok (.float .nan, .float .nan)
  | .str _ => .error ⟨.typeError, "unsupported operand type(s) for divmod(): 'str' and 'int'"⟩
  | .arr _ => .error ⟨.typeError, "unsupported operand type(s) for divmod(): 'list' and 'int'"⟩
  | .obj _ => .error ⟨.typeError, "unsupported operand type(s) for *: 'dict' and 'int'"⟩
  | .null => .error ⟨.typeError, "unsupported operand type(s) for *: 'NoneType' and 'int'"⟩

/-! ### Jobs -/

/-- `CronTrigger(hour=hour, minute=minute)`. -/
structure CronTrigger where
  hour : Json
  minute : Json
  deriving DecidableEq

/-- The trigger of a valid slot. -/
def dailyAt (slot : ℤ) : CronTrigger := ⟨.int (slot * 10 / 60), .int (slot * 10 % 60)⟩

/-- The slot that a daily trigger is on: six to the hour. -/
def CronTrigger.slot : CronTrigger → Json
  | ⟨.int hour, .int minute⟩ => .int ((60 * hour + minute) / 10)
  | _ => .null

/-- An armed job: when it fires, and the argument of `renew_one`. -/
structure Job where
  trigger : CronTrigger
  index : ℕ
  nextRunTime : ℤ
  deriving DecidableEq

/-- `_flow_job_id`. -/
def flowJobId (flowType : FlowType) (index : ℕ) : String :=
  "renew:" ++ flowType.value ++ ":" ++ toString index

@[simp] theorem slot_dailyAt (n : ℤ) : (dailyAt n).slot = .int n := by
  simp only [dailyAt, CronTrigger.slot, Json.int.injEq]
  omega

theorem slotTime_int (n : ℤ) : slotTime (.int n) = .ok ((dailyAt n).hour, (dailyAt n).minute) := rfl

/-! ### Flows and reports -/

/-- `make_runner`: which runner it makes does not matter here, only whether there is one. -/
def makeRunner (flow : FlowConfig) : Except Exc Unit :=
  match flow.type, flow.method with
  | .internal, .x5c => .ok ()
  | .external, .dns01 => .ok ()
  | type, method => .error ⟨.valueError,
      "no runner for flow type=" ++ type.value ++ " method=" ++ method.value ++
        " (not yet implemented)"⟩

/-- The arguments of `ReportClient.report`. -/
structure Report where
  host : Json
  flowType : String
  status : String
  notBefore : Option ℤ
  notAfter : Option ℤ
  nextScheduledRun : Option ℤ
  provider : Option String
  error : Option String
  deriving DecidableEq

/-- The report on a flow that failed. -/
def failedReport (cfg : AgentConfig) (flow : FlowConfig) (e : Exc) : Report where
  host := cfg.nodeName
  flowType := flow.type.value
  status := "failed"
  notBefore := none
  notAfter := none
  nextScheduledRun := none
  provider := none
  error := some e.msg

/-- The report on a flow that went through. -/
def issuedReport (cfg : AgentConfig) (flow : FlowConfig) (result : IssueResult)
    (nextRun : Option ℤ) : Report where
  host := cfg.nodeName
  flowType := flow.type.value
  status := if result.changed then "renewed" else "issued"
  notBefore := some result.notBefore
  notAfter := some result.notAfter
  nextScheduledRun := nextRun
  provider := some flow.type.value
  error := none

/-! ### State and calls -/

/-- What outlives a refresh. -/
structure ServiceState where
  /-- `_config`. -/
  config : Option AgentConfig
  /-- The configuration whose `dumps` is in `config.json`, if there is a whole one in it. -/
  persisted : Option AgentConfig
  /-- The job table of the scheduler. -/
  jobs : String → Option Job
  /-- `next_runs`. -/
  nextRuns : String → Option (Option ℤ)

/-- A service that has just been constructed. -/
def ServiceState.init (persisted : Option AgentConfig) : ServiceState :=
  ⟨none, persisted, fun _ => none, fun _ => none⟩

/-- `add_job(.., id=id, replace_existing=True)`. -/
def ServiceState.arm (s : ServiceState) (id : String) (job : Job) : ServiceState :=
  { s with jobs := Function.update s.jobs id (some job) }

/-- `next_runs[id] = t`. -/
def ServiceState.setNextRun (s : ServiceState) (id : String) (t : Option ℤ) : ServiceState :=
  { s with nextRuns := Function.update s.nextRuns id (some t) }

@[simp] theorem ServiceState.config_arm (s : ServiceState) (id : String) (job : Job) :
    (s.arm id job).config = s.config := rfl

@[simp] theorem ServiceState.jobs_arm (s : ServiceState) (id : String) (job : Job) :
    (s.arm id job).jobs = Function.update s.jobs id (some job) := rfl

@[simp] theorem ServiceState.config_setNextRun (s : ServiceState) (id : String) (t : Option ℤ) :
    (s.setNextRun id t).config = s.config := rfl

@[simp] theorem ServiceState.jobs_setNextRun (s : ServiceState) (id : String) (t : Option ℤ) :
    (s.setNextRun id t).jobs = s.jobs := rfl

/-- The steps of the service. -/
inductive ServiceOp
  /-- `_config_client().pull()`. -/
  | pull
  | setConfig (cfg : AgentConfig)
  | getConfig
  /-- `AgentConfig.dumps(cfg)`. -/
  | dumps (cfg : AgentConfig)
  | makedirs
  /-- Open `config.json` for writing and write what `dumps` has made of `cfg`. -/
  | writeConfig (cfg : AgentConfig)
  | chmodConfig (mode : ℕ)
  | makeRunner (index : ℕ) (flow : FlowConfig)
  | run (index : ℕ) (flow : FlowConfig)
  | cronTrigger (hour minute : Json)
  | addJob (id : String) (trigger : CronTrigger) (index : ℕ)
  | getJob (id : String)
  | setNextRun (id : String) (t : Option ℤ)
  | reportClient (index : ℕ)
  | report (index : ℕ) (r : Report)
  deriving DecidableEq

/-- What each step returns. -/
abbrev ServiceOp.Ans : ServiceOp → Type
  | .pull => AgentConfig
  | .setConfig _ => Unit
  | .getConfig => Option AgentConfig
  | .dumps _ => Unit
  | .makedirs => Unit
  | .writeConfig _ => Unit
  | .chmodConfig _ => Unit
  | .makeRunner _ _ => Unit
  | .run _ _ => IssueResult
  | .cronTrigger _ _ => CronTrigger
  | .addJob _ _ _ => Unit
  | .getJob _ => Option Job
  | .setNextRun _ _ => Unit
  | .reportClient _ => Unit
  | .report _ _ => Unit

/-- The steps of the service, as a signature. -/
abbrev serviceSig : Sig := ⟨ServiceOp, ServiceOp.Ans⟩

/-- A program of the service. -/
abbrev Service (α : Type) : Type := Program Exc serviceSig α

/-- One step. -/
def act (o : ServiceOp) : Service o.Ans := @Program.perform Exc serviceSig o

@[simp] theorem eval_act {σ : Type} (h : Handler Exc serviceSig σ) (o : ServiceOp) (s : σ) :
    eval h (act o) s = h o s :=
  @Program.eval_perform Exc serviceSig σ h o s

@[simp] theorem trace_act {σ : Type} (h : Handler Exc serviceSig σ) (o : ServiceOp) (s : σ) :
    trace h (act o) s = [o] :=
  @Program.trace_perform Exc serviceSig σ h o s

/-- What the environment does during one refresh, or one firing. -/
structure ServiceEnv where
  pull : Except Exc AgentConfig
  dumps : AgentConfig → Option Exc
  makedirs : Option Exc
  writeConfig : WriteFault
  chmodConfig : Option Exc
  makeRunner : ℕ → Option Exc
  run : ℕ → Except Exc IssueResult
  cronTrigger : Json → Json → Option Exc
  addJob : String → Option Exc
  /-- When a trigger fires next. -/
  nextFire : CronTrigger → ℤ
  getJob : String → Option Exc
  reportClient : ℕ → Option Exc
  report : ℕ → Option Exc

/-- The scheduler takes every time of day, and its calls raise nothing. -/
structure ServiceEnv.SchedulerWorks (env : ServiceEnv) : Prop where
  cronTrigger : ∀ hour minute : ℤ, 0 ≤ hour → hour ≤ 23 → 0 ≤ minute → minute ≤ 59 →
    env.cronTrigger (.int hour) (.int minute) = none
  addJob : ∀ id, env.addJob id = none
  getJob : ∀ id, env.getJob id = none

/-- The steps against `env`. -/
def service (env : ServiceEnv) : Handler Exc serviceSig ServiceState
  | .pull, s => (env.pull, s)
  | .setConfig cfg, s => (.ok (), { s with config := some cfg })
  | .getConfig, s => (.ok s.config, s)
  | .dumps cfg, s => (faulty (env.dumps cfg) (.ok ()), s)
  | .makedirs, s => (faulty env.makedirs (.ok ()), s)
  | .writeConfig cfg, s =>
    match env.writeConfig with
    | .works => (.ok (), { s with persisted := some cfg })
    | .refused e => (.error e, s)
    | .torn _ e => (.error e, { s with persisted := none })
  | .chmodConfig _, s => (faulty env.chmodConfig (.ok ()), s)
  | .makeRunner i flow, s => (faulty (env.makeRunner i) (makeRunner flow), s)
  | .run i _, s => (env.run i, s)
  | .cronTrigger hour minute, s => (faulty (env.cronTrigger hour minute) (.ok ⟨hour, minute⟩), s)
  | .addJob id trigger index, s =>
    match env.addJob id with
    | some e => (.error e, s)
    | none => (.ok (), s.arm id ⟨trigger, index, env.nextFire trigger⟩)
  | .getJob id, s => (faulty (env.getJob id) (.ok (s.jobs id)), s)
  | .setNextRun id t, s => (.ok (), s.setNextRun id t)
  | .reportClient i, s => (faulty (env.reportClient i) (.ok ()), s)
  | .report i _, s => (faulty (env.report i) (.ok ()), s)

/-! ### The service -/

namespace RenewalScheduler

/-- `schedule_flow_daily(job_id, slot, self.renew_one, index)`. -/
def scheduleFlowDaily (jobId : String) (slot : Json) (index : ℕ) : Service Unit := do
  let (hour, minute) ← ofExcept (slotTime slot)
  let trigger ← act (.cronTrigger hour minute)
  act (.addJob jobId trigger index)

/-- `next_run_for`. -/
def nextRunFor (jobId : String) : Service (Option ℤ) := do
  let job ← act (.getJob jobId)
  return job.map Job.nextRunTime

end RenewalScheduler

namespace RefreshService

/-- `_report_client().report(..)`. -/
def sendReport (index : ℕ) (r : Report) : Service Unit := do
  act (.reportClient index)
  act (.report index r)

/-- The `try` block of `_run_one_flow`, and which way it ended. -/
def attempt (index : ℕ) (flow : FlowConfig) : Service (Except Exc IssueResult) :=
  Program.tryCatch
    (do
      act (.makeRunner index flow)
      let result ← act (.run index flow)
      return .ok result)
    fun e => return .error e

/-- `_run_one_flow`. -/
def runOneFlow (cfg : AgentConfig) (index : ℕ) (flow : FlowConfig) : Service Unit := do
  let jobId := flowJobId flow.type index
  match ← attempt index flow with
  | .error e => sendReport index (failedReport cfg flow e)
  | .ok result =>
    RenewalScheduler.scheduleFlowDaily jobId flow.slot index
    let nextRun ← RenewalScheduler.nextRunFor jobId
    act (.setNextRun jobId nextRun)
    sendReport index (issuedReport cfg flow result nextRun)

/-- `for index, flow in enumerate(..)`, from `index` on. -/
def runFlows (cfg : AgentConfig) : ℕ → List FlowConfig → Service Unit
  | _, [] => return ()
  | index, flow :: flows => do
    runOneFlow cfg index flow
    runFlows cfg (index + 1) flows

/-- The `try` block of `refresh`. -/
def persist (cfg : AgentConfig) : Service Unit :=
  Program.tryCatch
    (do
      act (.dumps cfg)
      act .makedirs
      act (.writeConfig cfg)
      act (.chmodConfig 0o600))
    fun e => if e.isA .osError then return () else raise e

/-- `refresh`. -/
def refresh : Service AgentConfig := do
  let cfg ← act .pull
  act (.setConfig cfg)
  persist cfg
  runFlows cfg 0 cfg.flows
  return cfg

/-- `renew_one`. -/
def renewOne (index : ℕ) : Service Unit := do
  match ← act .getConfig with
  | none => do
    let _ ← refresh
    return ()
  | some cfg =>
    match cfg.flows[index]? with
    | none => do
      let _ ← refresh
      return ()
    | some flow => runOneFlow cfg index flow

end RefreshService

/-! ### A service to try things on -/

/-- A flow of the name and the slot given. -/
def slottedFlow (flow : String × Json) : FlowConfig :=
  { demoFlow flow.1 with name := .str flow.1, scheduleSlot := flow.2 }

/-- A configuration with these flows. -/
def slottedConfig (flows : List (String × Json)) : AgentConfig where
  nodeName := .str "host"
  org := none
  flows := flows.map slottedFlow

/-- What it is decoded from. -/
def slottedRaw (flows : List (String × Json)) : Json :=
  .obj [("node_name", .str "host"), ("flows", .arr (flows.map fun flow => .obj
    [("type", .str "internal"), ("name", .str flow.1), ("cert_output_dir", .str "/c"),
      ("key_output_dir", .str "/k"), ("config", .obj [("permitted_sans", .arr [.str flow.1])]),
      ("schedule_slot", flow.2)]))]

example : AgentConfig.fromDict "localhost" (slottedRaw [("app", .int 6), ("web", .null)]) =
    .ok (slottedConfig [("app", .int 6), ("web", .null)]) := by decide

theorem plain_slottedRaw {flows : List (String × Json)} (h : ∀ flow ∈ flows, flow.2.Plain) :
    (slottedRaw flows).Plain := by
  have hflow : ∀ flow ∈ flows, (Json.obj
      [("type", .str "internal"), ("name", .str flow.1), ("cert_output_dir", .str "/c"),
        ("key_output_dir", .str "/k"), ("config", .obj [("permitted_sans", .arr [.str flow.1])]),
        ("schedule_slot", flow.2)]).Plain := fun flow hflow =>
    .obj (by simp) (by
      have hsans : (Json.obj [("permitted_sans", .arr [.str flow.1])]).Plain :=
        .obj (by simp) (by simp [Json.Plain.arr, Json.Plain.str])
      simp [Json.Plain.str, hsans, h flow hflow])
  refine .obj (by simp) fun kv hkv => ?_
  rcases List.mem_pair.mp hkv with rfl | rfl
  · exact .str _
  · refine .arr fun x hx => ?_
    obtain ⟨flow, hmem, rfl⟩ := List.mem_map.mp hx
    exact hflow flow hmem

/-- `CronTrigger`, as far as hours go. -/
def demoCron : Json → Json → Option Exc
  | .int hour, _ =>
    if 0 ≤ hour ∧ hour ≤ 23 then none else some ⟨.valueError, "Error validating expression"⟩
  | _, _ => some ⟨.valueError, "Unrecognized expression"⟩

theorem demoCron_refuses (hour : ℤ) (minute : Json) (h : hour < 0 ∨ 23 < hour) :
    ∃ e, demoCron (.int hour) minute = some e ∧ e.cls = .valueError := by
  rw [demoCron, if_neg (by omega)]
  exact ⟨_, rfl, rfl⟩

/-- An environment where everything works. -/
def demoServiceEnv (cfg : AgentConfig) : ServiceEnv where
  pull := .ok cfg
  dumps _ := none
  makedirs := none
  writeConfig := .works
  chmodConfig := none
  makeRunner _ := none
  run _ := .ok ⟨"internal", 100 * day, 200 * day, ["app"], true⟩
  cronTrigger := demoCron
  addJob _ := none
  nextFire _ := 151 * day
  getJob _ := none
  reportClient _ := none
  report _ := none

theorem schedulerWorks_demo (cfg : AgentConfig) : (demoServiceEnv cfg).SchedulerWorks where
  cronTrigger _ _ h₀ h₂₃ _ _ := if_pos ⟨h₀, h₂₃⟩
  addJob _ := rfl
  getJob _ := rfl

end NextepAgent
