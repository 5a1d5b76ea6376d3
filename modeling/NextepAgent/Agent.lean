import NextepAgent.Effect.Translate
import NextepAgent.Retries
import NextepAgent.Machine
import NextepAgent.Secrets

/-!
# The agent on its machine

The service was verified with one step for `FlowRunner.run`, whose outcome the environment chose, and
the flow runner on a host of its own. Here the two are put together. The step that runs a flow is
implemented by the run, call by call, and persisting the configuration is done to a file of the same
machine.

## Refinement

What the service holds after an event is what it would hold after the same event against some
environment that lets each flow end as its run on the machine has ended. So whatever was proved of
the service in every environment holds of the agent.

## Main definitions

* `Setup`, `Agent`, `AgentEnv` — the installation, its state, what happens during one event
* `Setup.agent`, `Setup.implement`, `Setup.steps` — the calls, and the service made of them
* `Setup.serve` — the steps of the service on the machine, each in one go
* `AgentEvent`, `Setup.after` — refreshes and firings

## Main results

* `Setup.mirrors_task` — one event, step by step
* `Setup.refines` — every history of the agent is one of the service
-/

namespace NextepAgent

open Effect Program RefreshService

/-! ### The calls of the agent -/

/-- What of the installation does not change. -/
structure Setup extends Node where
  /-- `_config_path`. -/
  configPath : Path
  /-- The interpreter the agent runs in. -/
  python : Interpreter

/-- What the service holds, and the machine it is on. -/
structure Agent where
  service : ServiceState
  machine : Machine

/-- A step of the service, or a library call of the flow with this index. -/
inductive AgentOp
  | service (o : ServiceOp)
  | flow (index : ℕ) (o : HostOp)

/-- What each returns. -/
abbrev AgentOp.Ans : AgentOp → Type
  | .service o => o.Ans
  | .flow _ o => o.Ans

/-- The calls of the agent, as a signature. -/
abbrev agentSig : Sig := ⟨AgentOp, AgentOp.Ans⟩

/-- What the environment does during one refresh, or one firing. -/
structure AgentEnv where
  /-- What becomes of the steps that do not touch the machine. -/
  service : ServiceEnv
  /-- What becomes of the calls that persist the configuration. -/
  config : HostEnv
  /-- What becomes of the calls of each flow. -/
  flows : ℕ → HostEnv

namespace Setup

variable (self : Setup)

/-- The text of `config.json`: it is written when `dumps` has returned it. -/
def configText (cfg : AgentConfig) : Text := .ofString (cfg.text self.python)

/-- The environment as the service sees it. Persisting fails where `dumps` and its calls do, and a flow
ends as it is told. -/
def serviceEnv (env : AgentEnv) (run : ℕ → Except Exc IssueResult) : ServiceEnv :=
  { env.service with
    run
    dumps cfg :=
      match cfg.dumps self.python with
      | .error e => some e
      | .ok _ => none
    makedirs := (env.config.mkdirParents self.configPath).or
      (if self.configPath.hasNull then some ⟨.valueError, "embedded null byte"⟩ else none)
    writeConfig :=
      if self.configPath.hasNull then .refused ⟨.valueError, "embedded null byte"⟩
      else env.config.writeText self.configPath
    chmodConfig := env.config.chmod self.configPath }

/-- The calls against `env`. -/
def agent (env : AgentEnv) : Handler Exc agentSig Agent
  | .service .makedirs, a =>
    let r := self.machine env.config (.mkdirParents self.configPath) a.machine
    (r.1, { a with machine := r.2 })
  | .service (.writeConfig cfg), a =>
    let r := self.machine env.config (.writeText self.configPath (self.configText cfg)) a.machine
    -- what the service knows of the file goes with it
    (r.1, ⟨(service (self.serviceEnv env env.service.run) (.writeConfig cfg) a.service).2, r.2⟩)
  | .service (.chmodConfig mode), a =>
    let r := self.machine env.config (.chmod self.configPath mode) a.machine
    (r.1, { a with machine := r.2 })
  | .service o, a =>
    let r := service (self.serviceEnv env env.service.run) o a.service
    (r.1, { a with service := r.2 })
  | .flow i o, a =>
    let r := self.machine (env.flows i) o a.machine
    (r.1, { a with machine := r.2 })

/-- A library call of flow `i`. -/
def relay (i : ℕ) (o : hostSig.Op) : Program Exc agentSig (hostSig.Ans o) :=
  @perform Exc agentSig (.flow i o)

/-- How each step of the service is taken: a flow is run call by call. -/
def implement : (o : serviceSig.Op) → Program Exc agentSig (serviceSig.Ans o)
  | .run i flow => (self.runner flow).run.translate (relay i)
  | o => @perform Exc agentSig (.service o)

/-- A program of the service, as a program of the agent. -/
def steps {α : Type} (p : Service α) : Program Exc agentSig α := p.translate self.implement

/-- The steps of the service on the machine, each in one go. -/
def serve (env : AgentEnv) : Handler Exc serviceSig Agent :=
  Effect.implement self.implement (self.agent env)

/-- How a flow ends that is run on `m`. -/
def outcome (env : AgentEnv) (i : ℕ) (flow : FlowConfig) (m : Machine) : Except Exc IssueResult :=
  (eval (self.machine (env.flows i)) (self.runner flow).run m).1

/-- The machine after a flow. A flow without a runner is not run. -/
def ranFlow (env : AgentEnv) (i : ℕ) (flow : FlowConfig) (m : Machine) : Machine :=
  match faulty (env.service.makeRunner i) (makeRunner flow) with
  | .ok _ => (eval (self.machine (env.flows i)) (self.runner flow).run m).2
  | .error _ => m

/-- How each of these flows ends, when they are run one after another. -/
def outcomes (env : AgentEnv) : ℕ → List FlowConfig → Machine → ℕ → Except Exc IssueResult
  | _, [], _, j => env.service.run j
  | i, flow :: flows, m, j =>
    if j = i then self.outcome env i flow m
    else outcomes env (i + 1) flows (self.ranFlow env i flow m) j

/-- The machine after the `try` block of `refresh`, which `dumps` may end before it begins. -/
def persisted (env : AgentEnv) (cfg : AgentConfig) (m : Machine) : Machine :=
  match cfg.dumps self.python with
  | .error _ => m
  | .ok _ =>
    (eval (self.machine env.config) (persistConfig self.configPath (self.configText cfg)) m).2

variable {self} {env : AgentEnv} {a : Agent} {cfg : AgentConfig} {i : ℕ} {flow : FlowConfig}
  {run : ℕ → Except Exc IssueResult}

/-! ### The steps on the machine -/

/-- The steps that have nothing to do with files. -/
def FileFree : ServiceOp → Prop
  | .makedirs | .writeConfig _ | .chmodConfig _ | .run _ _ => False
  | _ => True

/-- They are taken by the service alone. -/
theorem serve_of_fileFree (run : ℕ → Except Exc IssueResult) {o : ServiceOp} (ho : FileFree o) :
    self.serve env o a = ((service (self.serviceEnv env run) o a.service).1,
      { a with service := (service (self.serviceEnv env run) o a.service).2 }) := by
  cases o with
  | makedirs => exact ho.elim
  | writeConfig cfg => exact ho.elim
  | chmodConfig mode => exact ho.elim
  | run i flow => exact ho.elim
  | _ => exact eval_perform ..

theorem relay_eq (o : HostOp) :
    Effect.implement (relay i) (self.agent env) o a = self.agent env (.flow i o) a :=
  eval_perform ..

/-- A run, call by call or in one go. -/
theorem serve_run :
    self.serve env (.run i flow) a = (self.outcome env i flow a.machine,
      { a with machine := (eval (self.machine (env.flows i)) (self.runner flow).run a.machine).2 }) := by
  have hcalls : (self.runner flow).run.Uses (fun _ _ => True) (self.runner flow).Touches :=
    FlowRunner.uses_touches_run
  have hstep : ∀ o b m, (self.runner flow).Touches o → b = { a with machine := m } →
      True ∧ (Effect.implement (relay i) (self.agent env) o b).1 =
          (self.machine (env.flows i) o m).1 ∧
        (Effect.implement (relay i) (self.agent env) o b).2 =
          { a with machine := (self.machine (env.flows i) o m).2 } := by
    rintro o b m - rfl
    rw [relay_eq]
    exact ⟨trivial, rfl, rfl⟩
  have hstart : a = { a with machine := a.machine } := rfl
  have hrun := (hcalls.inStep hstep hstart).eval
  rw [← eval_translate] at hrun
  exact Prod.ext hrun.1 hrun.2

theorem serve_makedirs :
    eval (self.serve env) (act .makedirs) a =
      ((self.machine env.config (.mkdirParents self.configPath) a.machine).1,
        { a with
          machine := (self.machine env.config (.mkdirParents self.configPath) a.machine).2 }) := by
  rw [eval_act]
  exact eval_perform ..

theorem serve_writeConfig (run : ℕ → Except Exc IssueResult) :
    eval (self.serve env) (act (.writeConfig cfg)) a =
      ((self.machine env.config (.writeText self.configPath (self.configText cfg)) a.machine).1,
        ⟨(service (self.serviceEnv env run) (.writeConfig cfg) a.service).2,
          (self.machine env.config (.writeText self.configPath (self.configText cfg)) a.machine).2⟩) := by
  rw [eval_act]
  exact eval_perform ..

theorem serve_chmodConfig {mode : ℕ} :
    eval (self.serve env) (act (.chmodConfig mode)) a =
      ((self.machine env.config (.chmod self.configPath mode) a.machine).1,
        { a with machine := (self.machine env.config (.chmod self.configPath mode) a.machine).2 }) := by
  rw [eval_act]
  exact eval_perform ..

/-! ### Two levels in step -/

/-- The service on the machine takes the steps of the service alone, which is told how each flow ends,
and holds the same. -/
def Mirrors (self : Setup) (env : AgentEnv) (run : ℕ → Except Exc IssueResult) {α : Type}
    (p : Service α) (a : Agent) : Prop :=
  InStep (self.serve env) (service (self.serviceEnv env run)) (fun b s => b.service = s) p a a.service

theorem mirrors_act {o : ServiceOp}
    (hans : (eval (self.serve env) (act o) a).1 = (service (self.serviceEnv env run) o a.service).1)
    (hnext : (eval (self.serve env) (act o) a).2.service =
      (service (self.serviceEnv env run) o a.service).2) : self.Mirrors env run (act o) a := by
  rw [eval_act] at hans hnext
  exact @inStep_perform Exc serviceSig Agent ServiceState _ _ _ _ _ o rfl hans hnext

theorem Mirrors.bind {α β : Type} {p : Service α} {f : α → Service β}
    (hp : self.Mirrors env run p a)
    (hf : ∀ r b, eval (self.serve env) p a = (.ok r, b) → self.Mirrors env run (f r) b) :
    self.Mirrors env run (p >>= f) a :=
  InStep.bind hp fun r b _ hb _ hservice => hservice ▸ hf r b hb

theorem Mirrors.tryCatch {α : Type} {p : Service α} {c : Exc → Service α}
    (hp : self.Mirrors env run p a) (hc : ∀ e b, self.Mirrors env run (c e) b) :
    self.Mirrors env run (p.tryCatch c) a :=
  InStep.tryCatch hp fun e b _ hservice => hservice ▸ hc e b

/-- A program that has nothing to do with files. -/
theorem mirrors_of_fileFree {α : Type} {p : Service α} (hp : p.Uses (fun _ _ => True) FileFree) :
    self.Mirrors env run p a :=
  hp.inStep (fun o b s ho hb => by
    subst hb
    rw [serve_of_fileFree run ho]
    exact ⟨trivial, rfl, rfl⟩) rfl

/-- It leaves the machine alone. -/
theorem machine_of_fileFree {α : Type} {p : Service α} (hp : p.Uses (fun _ _ => True) FileFree) :
    (eval (self.serve env) p a).2.machine = a.machine := by
  have hspares : Spares (self.serve env) FileFree Agent.machine := fun o b ho => by
    rw [serve_of_fileFree env.service.run ho]
  exact hp.view_eval hspares a

theorem eval_act_of_fileFree {o : ServiceOp} (ho : FileFree o) :
    eval (self.serve env) (act o) a =
      ((service (self.serviceEnv env env.service.run) o a.service).1,
        { a with service := (service (self.serviceEnv env env.service.run) o a.service).2 }) := by
  rw [eval_act, serve_of_fileFree env.service.run ho]

/-! ### One flow -/

/-- Whether there is a runner for a flow. -/
def makes (env : AgentEnv) (i : ℕ) (flow : FlowConfig) : Except Exc Unit :=
  faulty (env.service.makeRunner i) (makeRunner flow)

theorem eval_makeRunner :
    eval (self.serve env) (act (.makeRunner i flow)) a = (makes env i flow, a) :=
  eval_act_of_fileFree (o := .makeRunner i flow) trivial

/-- The `try` block of `_run_one_flow`. -/
theorem mirrors_attempt (hrun : run i = self.outcome env i flow a.machine) :
    self.Mirrors env run (attempt i flow) a := by
  refine Mirrors.tryCatch (Mirrors.bind (mirrors_of_fileFree (uses_act trivial)) fun _ b hb => ?_)
    fun e b => rfl
  rw [eval_makeRunner, Prod.mk.injEq] at hb
  obtain ⟨-, rfl⟩ := hb
  refine Mirrors.bind (mirrors_act ?_ ?_) fun r b _ => rfl
  · rw [eval_act, serve_run]
    exact hrun.symm
  · rw [eval_act, serve_run]
    rfl

theorem machine_attempt (self : Setup) (env : AgentEnv) (a : Agent) (i : ℕ) (flow : FlowConfig) :
    ∃ r b, eval (self.serve env) (attempt i flow) a = (.ok r, b) ∧
      b.machine = self.ranFlow env i flow a.machine := by
  rw [attempt, eval_tryCatch, eval_bind, eval_makeRunner, ranFlow, ← makes]
  cases makes env i flow with
  | error e => exact ⟨_, _, rfl, rfl⟩
  | ok _ =>
    simp only
    rw [eval_bind, eval_act, serve_run]
    cases self.outcome env i flow a.machine with
    | error e => exact ⟨_, _, rfl, rfl⟩
    | ok r => exact ⟨_, _, rfl, rfl⟩

/-- What comes after the `try` block of `_run_one_flow`. -/
theorem fileFree_reported {r : Except Exc IssueResult} :
    (match r with
      | .error e => sendReport i (failedReport cfg flow e)
      | .ok result => do
        RenewalScheduler.scheduleFlowDaily (flowJobId flow.type i) flow.slot i
        let nextRun ← RenewalScheduler.nextRunFor (flowJobId flow.type i)
        act (.setNextRun (flowJobId flow.type i) nextRun)
        sendReport i (issuedReport cfg flow result nextRun) : Service Unit).Uses
      (fun _ _ => True) FileFree := by
  have hsend : ∀ r, (sendReport i r).Uses (fun _ _ => True) FileFree := fun r =>
    (uses_act trivial).bind fun _ => uses_act trivial
  cases r with
  | error e => exact hsend _
  | ok result =>
    refine Uses.bind ?_ fun _ => Uses.bind ?_ fun nextRun => ?_
    · exact (uses_ofExcept _).bind fun time =>
        (uses_act trivial).bind fun t => uses_act trivial
    · exact (uses_act trivial).bind fun _ => trivial
    · exact (uses_act trivial).bind fun _ => hsend _

/-- **One flow.** The service sees the flow end as its run on the machine has ended. -/
theorem mirrors_runOneFlow (hrun : run i = self.outcome env i flow a.machine) :
    self.Mirrors env run (runOneFlow cfg i flow) a :=
  (mirrors_attempt hrun).bind fun _ _ _ => mirrors_of_fileFree fileFree_reported

theorem machine_runOneFlow (self : Setup) (env : AgentEnv) (a : Agent) (cfg : AgentConfig) (i : ℕ)
    (flow : FlowConfig) :
    (eval (self.serve env) (runOneFlow cfg i flow) a).2.machine =
      self.ranFlow env i flow a.machine := by
  obtain ⟨r, b, hattempt, hmachine⟩ := machine_attempt self env a i flow
  rw [runOneFlow, eval_bind_of_ok hattempt, ← hmachine]
  exact machine_of_fileFree fileFree_reported

/-! ### The loop -/

theorem outcomes_self (flows : List FlowConfig) (m : Machine) :
    self.outcomes env i (flow :: flows) m i = self.outcome env i flow m := if_pos rfl

theorem outcomes_of_lt (flows : List FlowConfig) (m : Machine) {j : ℕ} (hj : i < j) :
    self.outcomes env i (flow :: flows) m j =
      self.outcomes env (i + 1) flows (self.ranFlow env i flow m) j := if_neg hj.ne'

/-- **The loop**, also when it is stopped by a flow. -/
theorem mirrors_runFlows {flows : List FlowConfig}
    (hrun : ∀ j, i ≤ j → run j = self.outcomes env i flows a.machine j) :
    self.Mirrors env run (runFlows cfg i flows) a := by
  induction flows generalizing i a with
  | nil => exact (rfl : a.service = a.service)
  | cons flow flows ih =>
    have hfirst : run i = self.outcome env i flow a.machine :=
      (hrun i le_rfl).trans (outcomes_self flows a.machine)
    refine (mirrors_runOneFlow hfirst).bind fun _ b hb => ih fun j hj => ?_
    have hmachine : b.machine = self.ranFlow env i flow a.machine := by
      rw [← machine_runOneFlow self env a cfg, hb]
    rw [hmachine]
    exact (hrun j (by omega)).trans (outcomes_of_lt flows a.machine hj)

/-! ### Persisting -/

/-- What the service makes of `mkdir` is what it does on the machine. -/
theorem answer_makedirs {m : Machine} :
    (self.machine env.config (.mkdirParents self.configPath) m).1 =
      faulty (self.serviceEnv env run).makedirs (.ok ()) := by
  simp only [Node.machine, host, serviceEnv]
  cases env.config.mkdirParents self.configPath with
  | some e => rfl
  | none => cases self.configPath.hasNull <;> rfl

theorem answer_writeConfig {m : Machine} {s : ServiceState} :
    (self.machine env.config (.writeText self.configPath (self.configText cfg)) m).1 =
      (service (self.serviceEnv env run) (.writeConfig cfg) s).1 := by
  simp only [Node.machine, host, service, serviceEnv]
  cases self.configPath.hasNull with
  | true => rfl
  | false =>
    cases env.config.writeText self.configPath with
    | refused e => rfl
    | torn n e => rfl
    | works =>
      simp only [configText, encode_ofString]
      rfl

/-- A file that has just been written is there to be given a mode. -/
theorem answer_chmodConfig {m : Machine} {s : ServiceState} {mode : ℕ}
    (hwrite : (service (self.serviceEnv env run) (.writeConfig cfg) s).1 = .ok ()) :
    (self.machine env.config (.chmod self.configPath mode)
        (self.machine env.config (.writeText self.configPath (self.configText cfg)) m).2).1 =
      faulty (self.serviceEnv env run).chmodConfig (.ok ()) := by
  have hnull : self.configPath.hasNull = false := by
    cases hnull : self.configPath.hasNull with
    | true => simp [service, serviceEnv, hnull] at hwrite
    | false => rfl
  have hworks : env.config.writeText self.configPath = .works := by
    cases hw : env.config.writeText self.configPath with
    | works => rfl
    | refused e => simp [service, serviceEnv, hnull, hw] at hwrite
    | torn n e => simp [service, serviceEnv, hnull, hw] at hwrite
  have hfile : (self.machine env.config (.writeText self.configPath (self.configText cfg)) m).2.files
      (self.place self.configPath) = (host env.config
        (.writeText self.configPath (self.configText cfg)) (self.view m)).2.files self.configPath :=
    Node.files_machine_self rfl
  have hwritten : (host env.config (.writeText self.configPath (self.configText cfg))
      (self.view m)).2.read self.configPath = .ok (cfg.text self.python).toByteArray := by
    simp only [host, hnull, hworks, configText, encode_ofString, Bool.false_eq_true, if_false]
    simp [Host.read, hnull]
  have hread : (self.view (self.machine env.config
      (.writeText self.configPath (self.configText cfg)) m).2).read self.configPath =
        .ok (cfg.text self.python).toByteArray := by
    rw [← hwritten]
    exact Host.read_congr (congrArg (Option.map File.content) hfile)
  simp only [Node.machine, host] at hread ⊢
  rw [hread]
  simp only [serviceEnv]
  cases env.config.chmod self.configPath <;> rfl

/-- The `try` block of `refresh`. -/
theorem mirrors_persist : self.Mirrors env run (persist cfg) a := by
  refine Mirrors.tryCatch ?_ fun e b => by split <;> exact (rfl : b.service = b.service)
  refine Mirrors.bind (mirrors_of_fileFree (uses_act trivial)) fun _ b₀ _ =>
    Mirrors.bind ?_ fun _ b _ => Mirrors.bind ?_ fun _ b' hwrite => ?_
  · refine mirrors_act ?_ ?_
    · rw [serve_makedirs]
      exact answer_makedirs (m := b₀.machine)
    · rw [serve_makedirs]
      rfl
  · refine mirrors_act ?_ ?_
    · rw [serve_writeConfig run]
      exact answer_writeConfig
    · rw [serve_writeConfig run]
  · rw [serve_writeConfig run, Prod.mk.injEq, answer_writeConfig (s := b.service)] at hwrite
    obtain ⟨hok, rfl⟩ := hwrite
    refine mirrors_act ?_ ?_
    · rw [serve_chmodConfig]
      exact answer_chmodConfig hok
    · rw [serve_chmodConfig]
      rfl

theorem machine_persist :
    (eval (self.serve env) (persist cfg) a).2.machine = self.persisted env cfg a.machine := by
  have hstep : eval (self.serve env) (act (.dumps cfg)) a = _ :=
    eval_act_of_fileFree (o := .dumps cfg) trivial
  simp only [service, serviceEnv] at hstep
  rw [persisted]
  cases hdumps : cfg.dumps self.python with
  | error e =>
    rw [hdumps] at hstep
    rw [persist, eval_tryCatch, eval_bind_of_error hstep]
    simp only
    split <;> rfl
  | ok text =>
    rw [hdumps] at hstep
    have hmachine : Alike (self.serve env) (self.machine env.config) (fun b m => b.machine = m)
        (Program.tryCatch
          (do
            act .makedirs
            act (.writeConfig cfg)
            act (.chmodConfig 0o600))
          fun e => if e.isA .osError then return () else raise e)
        (persistConfig self.configPath (self.configText cfg)) a a.machine := by
      refine Alike.tryCatch ?_ fun e b m hb => by split <;> exact ⟨rfl, hb⟩
      refine Alike.bind ?_ fun _ b m _ _ hb => Alike.bind ?_ fun _ b' m' _ _ hb' => ?_
      · rw [Alike, serve_makedirs, eval_sys]
        exact ⟨rfl, rfl⟩
      · subst hb
        rw [Alike, serve_writeConfig env.service.run, eval_sys]
        exact ⟨rfl, rfl⟩
      · subst hb'
        rw [Alike, serve_chmodConfig, eval_sys]
        exact ⟨rfl, rfl⟩
    rw [persist, eval_tryCatch, eval_bind_of_ok hstep, ← eval_tryCatch]
    exact hmachine.2

/-! ### Refreshes -/

/-- How the flows of a refresh end that starts on `m`. -/
def outcomesOf (self : Setup) (env : AgentEnv) (m : Machine) : ℕ → Except Exc IssueResult :=
  match env.service.pull with
  | .ok cfg => self.outcomes env 0 cfg.flows (self.persisted env cfg m)
  | .error _ => env.service.run

theorem eval_pull : eval (self.serve env) (act .pull) a = (env.service.pull, a) :=
  eval_act_of_fileFree (o := .pull) trivial

theorem eval_getConfig :
    eval (self.serve env) (act .getConfig) a = (.ok a.service.config, a) :=
  eval_act_of_fileFree (o := .getConfig) trivial

theorem eval_setConfig :
    eval (self.serve env) (act (.setConfig cfg)) a =
      (.ok (), { a with service := { a.service with config := some cfg } }) :=
  eval_act_of_fileFree (o := .setConfig cfg) trivial

/-- **A refresh**, on both levels. -/
theorem mirrors_refresh (hrun : run = self.outcomesOf env a.machine) :
    self.Mirrors env run refresh a := by
  refine Mirrors.bind (mirrors_of_fileFree (uses_act trivial)) fun cfg b hpull => ?_
  rw [eval_pull, Prod.mk.injEq] at hpull
  obtain ⟨hpull, rfl⟩ := hpull
  rw [outcomesOf, hpull] at hrun
  refine Mirrors.bind (mirrors_of_fileFree (uses_act trivial)) fun _ b hset => ?_
  rw [eval_setConfig, Prod.mk.injEq] at hset
  obtain ⟨-, rfl⟩ := hset
  refine Mirrors.bind mirrors_persist fun _ b hpersist => ?_
  have hmachine : b.machine = self.persisted env cfg a.machine :=
    (congrArg (·.2.machine) hpersist).symm.trans machine_persist
  refine Mirrors.bind (mirrors_runFlows fun j _ => ?_) fun _ b _ => (rfl : b.service = b.service)
  rw [hmachine, hrun]

end Setup

/-! ### Events -/

/-- A refresh, or the daily firing of a job. -/
inductive AgentEvent
  | refresh (env : AgentEnv)
  | fire (id : String) (env : AgentEnv)

/-- What the environment does during it. -/
def AgentEvent.env : AgentEvent → AgentEnv
  | .refresh env | .fire _ env => env

namespace Setup

/-- What an event runs. There is nothing to fire under an id without a job. -/
def task (a : Agent) : AgentEvent → Service Unit
  | .refresh _ => do
    let _ ← refresh
    return ()
  | .fire id _ =>
    match a.service.jobs id with
    | some job => renewOne job.index
    | none => return ()

/-- The state it starts in: a job that fires is set to fire again. -/
def begun (a : Agent) : AgentEvent → Agent
  | .refresh _ => a
  | .fire id _ =>
    match a.service.jobs id with
    | some job => { a with service := a.service.advance id job }
    | none => a

/-- The agent after an event. -/
def after (self : Setup) (a : Agent) (ev : AgentEvent) : Agent :=
  (eval (self.agent ev.env) (self.steps (task a ev)) (begun a ev)).2

/-- The agent after several events. -/
def afterAll (self : Setup) (a : Agent) (hist : List AgentEvent) : Agent := hist.foldl self.after a

/-- The steps of an event, in order. -/
def stepsOf (self : Setup) (a : Agent) (ev : AgentEvent) : List ServiceOp :=
  trace (self.serve ev.env) (task a ev) (begun a ev)

/-- The steps of a history, in order. -/
def stepsOfAll (self : Setup) : Agent → List AgentEvent → List ServiceOp
  | _, [] => []
  | a, ev :: hist => self.stepsOf a ev ++ self.stepsOfAll (self.after a ev) hist

/-- How the flows of an event end. -/
def ends (self : Setup) (a : Agent) : AgentEvent → ℕ → Except Exc IssueResult
  | .refresh env => self.outcomesOf env a.machine
  | .fire id env =>
    match (a.service.jobs id).bind fun job => a.service.heldFlow job.index with
    | some flow => fun i => self.outcome env i flow a.machine
    | none => self.outcomesOf env a.machine

/-- An event as the service sees it. -/
def event (self : Setup) (a : Agent) (ev : AgentEvent) : Event :=
  match ev with
  | .refresh env => .refresh (self.serviceEnv env (self.ends a ev))
  | .fire id env => .fire id (self.serviceEnv env (self.ends a ev))

/-- A history as the service sees it. -/
def events (self : Setup) : Agent → List AgentEvent → List Event
  | _, [] => []
  | a, ev :: hist => self.event a ev :: self.events (self.after a ev) hist

end Setup

namespace ServiceState

/-- The steps of an event, when the service is on its own. -/
def stepsOf (s : ServiceState) : Event → List ServiceOp
  | .refresh env => trace (service env) refresh s
  | .fire id env =>
    match s.jobs id with
    | some job => trace (service env) (renewOne job.index) (s.advance id job)
    | none => []

/-- The steps of a history. -/
def stepsOfAll : ServiceState → List Event → List ServiceOp
  | _, [] => []
  | s, ev :: hist => s.stepsOf ev ++ stepsOfAll (s.after ev) hist

end ServiceState

namespace Setup

variable {self : Setup} {env : AgentEnv} {a : Agent} {cfg : AgentConfig} {i : ℕ}
  {flow : FlowConfig} {ev : AgentEvent}

theorem after_eq : self.after a ev = (eval (self.serve ev.env) (task a ev) (begun a ev)).2 := by
  rw [after, steps, eval_translate]
  rfl

/-- What the result of a refresh is not needed for. -/
theorem eval_forget {σ : Type} {h : Handler Exc serviceSig σ} (p : Service AgentConfig) (s : σ) :
    (eval h (do let _ ← p; return ()) s).2 = (eval h p s).2 := by
  rw [eval_bind]
  rcases eval h p s with ⟨r, s'⟩
  cases r <;> rfl

theorem trace_forget {σ : Type} {h : Handler Exc serviceSig σ} (p : Service AgentConfig) (s : σ) :
    trace h (do let _ ← p; return ()) s = trace h p s := by
  rw [trace_bind]
  split <;> exact List.append_nil _

/-- A firing, once the configuration has been looked at. -/
theorem mirrors_renewOne
    (hheld : ∀ flow, a.service.heldFlow i = some flow → run i = self.outcome env i flow a.machine)
    (hnone : a.service.heldFlow i = none → run = self.outcomesOf env a.machine) :
    self.Mirrors env run (renewOne i) a := by
  refine Mirrors.bind (mirrors_of_fileFree (uses_act trivial)) fun held b hb => ?_
  rw [eval_getConfig, Prod.mk.injEq] at hb
  obtain ⟨hheld', rfl⟩ := hb
  have hrefresh : a.service.heldFlow i = none →
      self.Mirrors env run (do let _ ← refresh; return ()) a := fun h =>
    (mirrors_refresh (hnone h)).bind fun _ b _ => (rfl : b.service = b.service)
  cases hcfg : a.service.config with
  | none =>
    obtain rfl : held = none := Except.ok.inj (hheld'.symm.trans (by rw [hcfg]))
    exact hrefresh (by rw [ServiceState.heldFlow, hcfg]; rfl)
  | some cfg =>
    obtain rfl : held = some cfg := Except.ok.inj (hheld'.symm.trans (by rw [hcfg]))
    have hfind : a.service.heldFlow i = cfg.flows[i]? := by rw [ServiceState.heldFlow, hcfg]; rfl
    cases hi : cfg.flows[i]? with
    | none =>
      simp only [hi]
      exact hrefresh (hfind.trans hi)
    | some flow =>
      simp only [hi]
      exact mirrors_runOneFlow (hheld flow (hfind.trans hi))

/-- **One event**, step by step. -/
theorem mirrors_task : self.Mirrors ev.env (self.ends a ev) (task a ev) (begun a ev) := by
  cases ev with
  | refresh env =>
    exact (mirrors_refresh rfl).bind fun _ b _ => (rfl : b.service = b.service)
  | fire id env =>
    simp only [task, begun, ends, AgentEvent.env]
    cases hjob : a.service.jobs id with
    | none => exact (rfl : a.service = a.service)
    | some job =>
      simp only [Option.bind_some]
      refine mirrors_renewOne (fun flow hflow => ?_) fun hnone => ?_
      · have hheld : a.service.heldFlow job.index = some flow := hflow
        simp only [hheld]
      · have hheld : a.service.heldFlow job.index = none := hnone
        simp only [hheld]

/-- What an event is for the service alone. -/
theorem after_event (self : Setup) (a : Agent) (ev : AgentEvent) :
    a.service.after (self.event a ev) =
        (eval (service (self.serviceEnv ev.env (self.ends a ev))) (task a ev)
          (begun a ev).service).2 ∧
      a.service.stepsOf (self.event a ev) =
        trace (service (self.serviceEnv ev.env (self.ends a ev))) (task a ev)
          (begun a ev).service := by
  cases ev with
  | refresh env => exact ⟨(eval_forget _ _).symm, (trace_forget _ _).symm⟩
  | fire id env =>
    simp only [event, ServiceState.after, ServiceState.stepsOf, task, begun, AgentEvent.env]
    cases hjob : a.service.jobs id with
    | none => exact ⟨rfl, rfl⟩
    | some job => exact ⟨rfl, rfl⟩

theorem service_after (self : Setup) (a : Agent) (ev : AgentEvent) :
    (self.after a ev).service = a.service.after (self.event a ev) := by
  rw [after_eq, (after_event self a ev).1]
  exact mirrors_task.eval.2

theorem stepsOf_eq (self : Setup) (a : Agent) (ev : AgentEvent) :
    self.stepsOf a ev = a.service.stepsOf (self.event a ev) := by
  rw [(after_event self a ev).2]
  exact mirrors_task.trace

/-- **Refinement.** Whatever happens to the agent on its machine, its service is where the service
alone is after the same events, seen as it sees them, and has taken the same steps. -/
theorem refines (self : Setup) (a : Agent) (hist : List AgentEvent) :
    (self.afterAll a hist).service = a.service.afterAll (self.events a hist) ∧
      self.stepsOfAll a hist = a.service.stepsOfAll (self.events a hist) := by
  induction hist generalizing a with
  | nil => exact ⟨rfl, rfl⟩
  | cons ev hist ih =>
    obtain ⟨hstate, hsteps⟩ := ih (self.after a ev)
    rw [service_after] at hstate hsteps
    rw [events, ServiceState.afterAll, List.foldl_cons, stepsOfAll, ServiceState.stepsOfAll,
      stepsOf_eq, hsteps]
    exact ⟨hstate, rfl⟩

end Setup

/-! ### An agent to try things on -/

/-- An installation on a Debian host. -/
def demoSetup : Setup where
  toNode := Node.debian
  configPath := demoConfigPath
  python := demoPython

/-- The same, with a parser that knows the certificate `A`. -/
def parsingSetup : Setup where
  toNode := { Node.debian with
    loadPem := (demoRunner (demoFlow "app")
      [("A", ⟨100 * day, 200 * day, .ok (some [.dns "app"])⟩)]).loadPem }
  configPath := demoConfigPath
  python := demoPython

/-- An agent that has just been started, on an empty machine. -/
def demoAgent : Agent := ⟨.init none, fun _ => none, 0o022, 0⟩

/-- Two flows are pulled, and obtain what no parser takes for a certificate. -/
def demoAgentEnv : AgentEnv where
  service := ServiceState.twoFlows
  config := demoEnv 0 (.ok (.ofString "", .ofString ""))
  flows _ := demoEnv 0 (.ok (.ofString "A", .ofString "KA"))

end NextepAgent
