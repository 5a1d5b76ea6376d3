import NextepAgent.AgentFrame

/-!
# A refresh from the command line

`refresh` on the command line pulls the configuration and runs every flow, once, in a process of its
own. It goes through the same service as a nudge does, with a scheduler that does nothing, so that
nothing is armed. What can go wrong in the scheduler cannot go wrong here.

So the command succeeds wherever the running agent would. It leaves the machine the same, and takes
the same steps, but for those of the scheduler and the next run in its reports. Its exit code does not
tell whether a flow was issued, only whether the configuration was pulled and every report got
through.

## Main definitions

* `Scheduler`, `renewalScheduler`, `noopScheduler` — what a refresh asks of a scheduler
* `RefreshService.refreshWith` — a refresh with any scheduler
* `cmdRefresh`, `CommandEnd` — the command

## Main results

* `RefreshService.refreshWith_renewalScheduler` — the refresh of the running agent
* `Setup.SameMachine.follows_refresh` — without a scheduler, the same is done
* `Setup.eval_refreshWith_fst` — how it ends
* `Setup.cmdRefresh_follows` — the command
-/

namespace NextepAgent

open Effect Program

/-! ### Schedulers -/

/-- What a refresh asks of a scheduler. -/
structure Scheduler where
  scheduleFlowDaily : String → Json → ℕ → Service Unit
  nextRunFor : String → Service (Option ℤ)

/-- The scheduler of the running agent. -/
def renewalScheduler : Scheduler where
  scheduleFlowDaily := RenewalScheduler.scheduleFlowDaily
  nextRunFor := RenewalScheduler.nextRunFor

/-- `_NoopScheduler`. -/
def noopScheduler : Scheduler where
  scheduleFlowDaily _ _ _ := return ()
  nextRunFor _ := return none

namespace RefreshService

/-- `_run_one_flow`, with any scheduler. -/
def runOneFlowWith (sched : Scheduler) (cfg : AgentConfig) (index : ℕ) (flow : FlowConfig) :
    Service Unit := do
  let jobId := flowJobId flow.type index
  match ← attempt index flow with
  | .error e => sendReport index (failedReport cfg flow e)
  | .ok result =>
    sched.scheduleFlowDaily jobId flow.slot index
    let nextRun ← sched.nextRunFor jobId
    act (.setNextRun jobId nextRun)
    sendReport index (issuedReport cfg flow result nextRun)

/-- `for index, flow in enumerate(..)`, from `index` on. -/
def runFlowsWith (sched : Scheduler) (cfg : AgentConfig) : ℕ → List FlowConfig → Service Unit
  | _, [] => return ()
  | index, flow :: flows => do
    runOneFlowWith sched cfg index flow
    runFlowsWith sched cfg (index + 1) flows

/-- `refresh`, with any scheduler. -/
def refreshWith (sched : Scheduler) : Service AgentConfig := do
  let cfg ← act .pull
  act (.setConfig cfg)
  persist cfg
  runFlowsWith sched cfg 0 cfg.flows
  return cfg

theorem runFlowsWith_renewalScheduler (cfg : AgentConfig) (i : ℕ) (flows : List FlowConfig) :
    runFlowsWith renewalScheduler cfg i flows = runFlows cfg i flows := by
  induction flows generalizing i with
  | nil => rfl
  | cons flow flows ih => exact congrArg (runOneFlow cfg i flow >>= ·) (funext fun _ => ih (i + 1))

/-- The refresh of the running agent. -/
theorem refreshWith_renewalScheduler : refreshWith renewalScheduler = refresh :=
  congrArg (act .pull >>= ·) (funext fun cfg =>
    congrArg (act (.setConfig cfg) >>= ·) (funext fun _ =>
      congrArg (persist cfg >>= ·) (funext fun _ => by
        rw [runFlowsWith_renewalScheduler])))

end RefreshService

/-! ### The command -/

/-- How a command ends. -/
structure CommandEnd where
  exitCode : ℤ
  stdout : List String
  stderr : List String
  deriving DecidableEq

/-- What `cmd_refresh` makes of a refresh. -/
def CommandEnd.ofRefresh : Except Exc AgentConfig → CommandEnd
  | .ok cfg => ⟨0, ["refreshed: " ++ toString cfg.flows.length ++ " flow(s) applied"], []⟩
  | .error e => ⟨1, [], ["refresh failed: " ++ e.msg]⟩

/-- `cmd_refresh`. -/
def cmdRefresh (spogUrl : String) : Service CommandEnd :=
  if spogUrl = "" then return ⟨2, [], ["org config has no spog_url"]⟩
  else
    Program.tryCatch
      (do
        let cfg ← RefreshService.refreshWith noopScheduler
        return .ofRefresh (.ok cfg))
      fun e => return .ofRefresh (.error e)

/-- A step as it is taken with any scheduler: those of the scheduler are left out, and the next run of
a report. -/
def ServiceOp.unscheduled : ServiceOp → Option ServiceOp
  | .cronTrigger _ _ | .addJob _ _ _ | .getJob _ | .setNextRun _ _ => none
  | .report i r => some (.report i { r with nextScheduledRun := none })
  | o => some o

/-! ### The same steps -/

namespace Setup

variable {self : Setup} {env : AgentEnv} {a b : Agent} {cfg : AgentConfig} {i : ℕ}
  {flow : FlowConfig}

/-- Two agents on one machine. -/
def SameMachine (a b : Agent) : Prop := a.machine = b.machine

/-- The calls of a scheduler. -/
def Timed : ServiceOp → Prop
  | .cronTrigger _ _ | .addJob _ _ _ | .getJob _ => True
  | _ => False

/-- The other steps of a refresh. -/
def Untimed : ServiceOp → Prop
  | .cronTrigger _ _ | .addJob _ _ _ | .getJob _ | .getConfig => False
  | _ => True

/-- Such a step ends alike on one machine. -/
theorem SameMachine.step (h : SameMachine a b) {o : ServiceOp} (ho : Untimed o) :
    (self.serve env o a).1 = (self.serve env o b).1 ∧
      SameMachine (self.serve env o a).2 (self.serve env o b).2 := by
  obtain ⟨s, m⟩ := a
  obtain ⟨s', m'⟩ := b
  obtain rfl : m = m' := h
  have hfree : ∀ o, FileFree o →
      (service (self.serviceEnv env env.service.run) o s).1 =
        (service (self.serviceEnv env env.service.run) o s').1 →
      (self.serve env o ⟨s, m⟩).1 = (self.serve env o ⟨s', m⟩).1 ∧
        SameMachine (self.serve env o ⟨s, m⟩).2 (self.serve env o ⟨s', m⟩).2 := by
    intro o ho hans
    rw [serve_of_fileFree env.service.run ho, serve_of_fileFree env.service.run ho]
    exact ⟨hans, rfl⟩
  cases o with
  | cronTrigger hour minute => exact ho.elim
  | addJob id trigger index => exact ho.elim
  | getJob id => exact ho.elim
  | getConfig => exact ho.elim
  | run i flow =>
    rw [serve_run, serve_run]
    exact ⟨rfl, rfl⟩
  | makedirs =>
    rw [← eval_act (self.serve env), ← eval_act (self.serve env), serve_makedirs, serve_makedirs]
    exact ⟨rfl, rfl⟩
  | writeConfig cfg =>
    rw [← eval_act (self.serve env), ← eval_act (self.serve env),
      serve_writeConfig env.service.run, serve_writeConfig env.service.run]
    exact ⟨rfl, rfl⟩
  | chmodConfig mode =>
    rw [← eval_act (self.serve env), ← eval_act (self.serve env), serve_chmodConfig,
      serve_chmodConfig]
    exact ⟨rfl, rfl⟩
  | _ => exact hfree _ trivial rfl

/-- What a program without a scheduler does is done on any agent on this machine. -/
theorem SameMachine.follows (h : SameMachine a b) {α : Type} {p : Service α}
    (hp : p.Uses (fun _ _ => True) Untimed) :
    Follows (self.serve env) (self.serve env) SameMachine ServiceOp.unscheduled
      ServiceOp.unscheduled p p a b :=
  (hp.inStep (fun _ _ _ ho hab => ⟨trivial, hab.step ho⟩) h).follows

/-- A report, but for the next run in it. -/
theorem SameMachine.follows_sendReport (h : SameMachine a b) {r r' : Report}
    (hr : { r with nextScheduledRun := none } = { r' with nextScheduledRun := none }) :
    Follows (self.serve env) (self.serve env) SameMachine ServiceOp.unscheduled
      ServiceOp.unscheduled (RefreshService.sendReport i r) (RefreshService.sendReport i r') a b := by
  have hclient : (act (.reportClient i)).Uses (fun _ _ => True) Untimed := RefreshService.uses_act trivial
  refine (h.follows hclient).bind fun _ a' b' h' => ?_
  intro u a'' hreport
  rw [eval_act_of_fileFree (o := .report i r) trivial] at hreport
  obtain ⟨hans, rfl⟩ := Prod.mk.inj hreport
  refine ⟨_, (eval_act_of_fileFree (o := .report i r') trivial).trans (Prod.ext hans rfl), h', ?_⟩
  rw [trace_act, trace_act]
  exact congrArg (fun r => [ServiceOp.report i r]) hr

/-- What the scheduler does shows nowhere else. -/
theorem SameMachine.hidden (h : SameMachine a b) {α β : Type} {p : Service α} {f : α → Service β}
    {q : Service β} (hp : p.Uses (fun _ _ => True) Timed)
    (hfq : ∀ r a', SameMachine a' b → Follows (self.serve env) (self.serve env) SameMachine
      ServiceOp.unscheduled ServiceOp.unscheduled (f r) q a' b) :
    Follows (self.serve env) (self.serve env) SameMachine ServiceOp.unscheduled
      ServiceOp.unscheduled (p >>= f) q a b := by
  have hfree : ∀ o, Timed o → FileFree o := fun o ho => by cases o <;> trivial
  have hshown : ∀ o, Timed o → o.unscheduled = none := fun o ho => by
    cases o <;> first | rfl | exact ho.elim
  refine follows_of_hidden_bind (hp.mono (fun _ _ h => h) hshown) ?_ hfq
  exact (machine_of_fileFree (hp.mono (fun _ _ h => h) hfree)).trans h

/-- **One flow**, without a scheduler. -/
theorem SameMachine.follows_runOneFlow (h : SameMachine a b) :
    Follows (self.serve env) (self.serve env) SameMachine ServiceOp.unscheduled
      ServiceOp.unscheduled (RefreshService.runOneFlow cfg i flow)
      (RefreshService.runOneFlowWith noopScheduler cfg i flow) a b := by
  have hattempt : (RefreshService.attempt i flow).Uses (fun _ _ => True) Untimed := by
    refine Uses.tryCatch ?_ fun e => trivial
    exact (RefreshService.uses_act trivial).bind fun _ =>
      (RefreshService.uses_act trivial).bind fun _ => trivial
  refine (h.follows hattempt).bind fun ended a₁ b₁ h₁ => ?_
  cases ended with
  | error e => exact h₁.follows_sendReport rfl
  | ok result =>
    have hschedule : (RenewalScheduler.scheduleFlowDaily (flowJobId flow.type i) flow.slot i).Uses
        (fun _ _ => True) Timed :=
      (uses_ofExcept _).bind fun time => (RefreshService.uses_act trivial).bind fun trigger =>
        RefreshService.uses_act trivial
    have hnext : (RenewalScheduler.nextRunFor (flowJobId flow.type i)).Uses (fun _ _ => True)
        Timed := (RefreshService.uses_act trivial).bind fun job => trivial
    refine h₁.hidden hschedule fun _ a₂ h₂ => h₂.hidden hnext fun nextRun a₃ h₃ => ?_
    have hset : ∀ t, Follows (self.serve env) (self.serve env) SameMachine ServiceOp.unscheduled
        ServiceOp.unscheduled (act (.setNextRun (flowJobId flow.type i) t))
        (act (.setNextRun (flowJobId flow.type i) none)) a₃ b₁ := by
      intro t u a₄ hans
      rw [eval_act_of_fileFree (o := .setNextRun (flowJobId flow.type i) t) trivial] at hans
      obtain ⟨-, rfl⟩ := Prod.mk.inj hans
      exact ⟨_, eval_act_of_fileFree (o := .setNextRun (flowJobId flow.type i) none) trivial, h₃, rfl⟩
    exact (hset nextRun).bind fun _ a₄ b₄ h₄ => h₄.follows_sendReport rfl

/-- The loop. -/
theorem SameMachine.follows_runFlows {flows : List FlowConfig} (h : SameMachine a b) :
    Follows (self.serve env) (self.serve env) SameMachine ServiceOp.unscheduled
      ServiceOp.unscheduled (RefreshService.runFlows cfg i flows)
      (RefreshService.runFlowsWith noopScheduler cfg i flows) a b := by
  induction flows generalizing i a b with
  | nil => exact follows_ret h
  | cons flow flows ih => exact h.follows_runOneFlow.bind fun _ a' b' h' => ih h'

/-- **Without a scheduler, the same is done.** -/
theorem SameMachine.follows_refresh (h : SameMachine a b) :
    Follows (self.serve env) (self.serve env) SameMachine ServiceOp.unscheduled
      ServiceOp.unscheduled RefreshService.refresh (RefreshService.refreshWith noopScheduler) a b := by
  have hpull : (act .pull).Uses (fun _ _ => True) Untimed := RefreshService.uses_act trivial
  have hset : ∀ cfg, (act (.setConfig cfg)).Uses (fun _ _ => True) Untimed := fun cfg =>
    RefreshService.uses_act trivial
  have hpersist : ∀ cfg, (RefreshService.persist cfg).Uses (fun _ _ => True) Untimed := by
    intro cfg
    exact RefreshService.uses_persist_of trivial fun _ => ⟨trivial, trivial, trivial⟩
  refine (h.follows hpull).bind fun cfg _ _ h₁ => ?_
  refine (h₁.follows (hset cfg)).bind fun _ _ _ h₂ => ?_
  refine (h₂.follows (hpersist cfg)).bind fun _ _ _ h₃ => ?_
  exact h₃.follows_runFlows.bind fun _ _ _ h₄ => follows_ret h₄

/-! ### How the command ends -/

/-- How persisting ends. -/
def persists (self : Setup) (env : AgentEnv) (cfg : AgentConfig) : Except Exc Unit :=
  (self.serviceEnv env env.service.run).persists cfg

theorem eval_sendReport_fst {r : Report} :
    (eval (self.serve env) (RefreshService.sendReport i r) a).1 = env.service.tells i := by
  have hfree : (RefreshService.sendReport i r).Uses (fun _ _ => True) FileFree :=
    (RefreshService.uses_act trivial).bind fun _ => RefreshService.uses_act trivial
  have hmirror : self.Mirrors env env.service.run (RefreshService.sendReport i r) a :=
    mirrors_of_fileFree hfree
  exact hmirror.eval.1.trans (congrArg Prod.fst (RefreshService.eval_sendReport r))

/-- A flow ends as its report does, issued or not. -/
theorem eval_runOneFlowWith_fst :
    (eval (self.serve env) (RefreshService.runOneFlowWith noopScheduler cfg i flow) a).1 =
      env.service.tells i := by
  obtain ⟨ended, b, hattempt, -⟩ := machine_attempt self env a i flow
  rw [RefreshService.runOneFlowWith, eval_bind_of_ok hattempt]
  cases ended with
  | error e => exact eval_sendReport_fst
  | ok result =>
    have hset : eval (self.serve env) (act (.setNextRun (flowJobId flow.type i) none)) b =
        (.ok (), _) := eval_act_of_fileFree (o := .setNextRun (flowJobId flow.type i) none) trivial
    exact (congrArg Prod.fst (eval_bind_of_ok hset)).trans eval_sendReport_fst

theorem eval_runFlowsWith_fst {flows : List FlowConfig} :
    (eval (self.serve env) (RefreshService.runFlowsWith noopScheduler cfg i flows) a).1 =
      (List.range' i flows.length).forM env.service.tells := by
  induction flows generalizing i a with
  | nil => rfl
  | cons flow flows ih =>
    have hflow : (eval (self.serve env)
      (RefreshService.runOneFlowWith noopScheduler cfg i flow) a).1 = _ := eval_runOneFlowWith_fst
    have hcons : (i :: List.range' (i + 1) flows.length).forM env.service.tells =
        (env.service.tells i >>= fun _ =>
          (List.range' (i + 1) flows.length).forM env.service.tells) := rfl
    rw [RefreshService.runFlowsWith, eval_bind, List.length_cons, List.range'_succ, hcons]
    rcases hrun : eval (self.serve env)
      (RefreshService.runOneFlowWith noopScheduler cfg i flow) a with ⟨r, b⟩
    rw [hrun] at hflow
    obtain rfl : r = env.service.tells i := hflow
    cases env.service.tells i with
    | error e => rfl
    | ok _ => exact ih

/-- **How a refresh without a scheduler ends**: the configuration is pulled, what cannot be persisted
is no matter unless the reason is an odd one, and all reports are sent. -/
theorem eval_refreshWith_fst :
    (eval (self.serve env) (RefreshService.refreshWith noopScheduler) a).1 = (do
      let cfg ← env.service.pull
      self.persists env cfg
      (List.range cfg.flows.length).forM env.service.tells
      return cfg) := by
  rw [RefreshService.refreshWith, eval_bind, eval_pull]
  cases env.service.pull with
  | error e => rfl
  | ok cfg =>
    show _ = (do
      self.persists env cfg
      (List.range cfg.flows.length).forM env.service.tells
      return cfg)
    have hset : eval (self.serve env) (act (.setConfig cfg)) a = (.ok (), _) := eval_setConfig
    refine (congrArg Prod.fst (eval_bind_of_ok hset)).trans ?_
    have hmirror : ∀ b, self.Mirrors env env.service.run (RefreshService.persist cfg) b := fun b =>
      mirrors_persist
    have hpersist : ∀ b, (eval (self.serve env) (RefreshService.persist cfg) b).1 =
        self.persists env cfg := fun b =>
      (hmirror b).eval.1.trans (congrArg Prod.fst RefreshService.eval_persist)
    generalize hb : ({ a with service := { a.service with config := some cfg } } : Agent) = b
    rw [eval_bind]
    rcases hrun : eval (self.serve env) (RefreshService.persist cfg) b with ⟨r, b'⟩
    have hr := hpersist b
    rw [hrun] at hr
    obtain rfl : r = self.persists env cfg := hr
    cases self.persists env cfg with
    | error e => rfl
    | ok _ =>
      simp only
      rw [eval_bind]
      have hflows : (eval (self.serve env)
        (RefreshService.runFlowsWith noopScheduler cfg 0 cfg.flows) b').1 = _ := eval_runFlowsWith_fst
      rcases hloop : eval (self.serve env)
        (RefreshService.runFlowsWith noopScheduler cfg 0 cfg.flows) b' with ⟨r, b''⟩
      rw [hloop, ← List.range_eq_range'] at hflows
      obtain rfl : r = (List.range cfg.flows.length).forM env.service.tells := hflows
      change _ = ((List.range cfg.flows.length).forM env.service.tells >>= fun _ => pure cfg)
      cases (List.range cfg.flows.length).forM env.service.tells with
      | error e => rfl
      | ok _ => rfl

/-! ### The command -/

/-- The steps of a refresh without a scheduler. -/
def Unarmed (o : ServiceOp) : Prop :=
  Untimed o ∧ ∀ i r, o = .report i r → r.nextScheduledRun = none

theorem unarmed_of_unsent {o : ServiceOp} (ho : Untimed o) (hsent : ∀ i r, o ≠ .report i r) :
    Unarmed o :=
  ⟨ho, fun i r h => absurd h (hsent i r)⟩

theorem unarmed_refreshWith :
    (RefreshService.refreshWith noopScheduler).Uses (fun _ _ => True) Unarmed := by
  have hact : ∀ o, Untimed o → (∀ i r, o ≠ .report i r) → (act o).Uses (fun _ _ => True) Unarmed :=
    fun o ho hsent => RefreshService.uses_act (unarmed_of_unsent ho hsent)
  have hsend : ∀ i r, r.nextScheduledRun = none →
      (RefreshService.sendReport i r).Uses (fun _ _ => True) Unarmed := fun i r hr =>
    (hact (.reportClient i) trivial (by simp)).bind fun _ =>
      RefreshService.uses_act ⟨trivial, fun j r' h => by cases h; exact hr⟩
  have hflow : ∀ cfg i flow, (RefreshService.runOneFlowWith noopScheduler cfg i flow).Uses
      (fun _ _ => True) Unarmed := by
    intro cfg i flow
    refine Uses.bind (Uses.tryCatch ?_ fun e => trivial) fun ended => ?_
    · exact (hact (.makeRunner i flow) trivial (by simp)).bind fun _ =>
        (hact (.run i flow) trivial (by simp)).bind fun _ => trivial
    · cases ended with
      | error e => exact hsend i _ rfl
      | ok result =>
        exact (hact (.setNextRun (flowJobId flow.type i) none) trivial (by simp)).bind fun _ =>
          hsend i _ rfl
  have hflows : ∀ cfg i flows, (RefreshService.runFlowsWith noopScheduler cfg i flows).Uses
      (fun _ _ => True) Unarmed := by
    intro cfg i flows
    induction flows generalizing i with
    | nil => trivial
    | cons flow flows ih => exact (hflow cfg i flow).bind fun _ => ih (i + 1)
  refine (hact .pull trivial (by simp)).bind fun cfg =>
    (hact (.setConfig cfg) trivial (by simp)).bind fun _ => Uses.bind ?_ fun _ =>
      (hflows cfg 0 cfg.flows).bind fun _ => trivial
  exact RefreshService.uses_persist_of ⟨trivial, by simp⟩ fun _ =>
    ⟨⟨trivial, by simp⟩, ⟨trivial, by simp⟩, ⟨trivial, by simp⟩⟩

/-- Nothing is armed by it. -/
theorem jobs_refreshWith :
    (eval (self.serve env) (RefreshService.refreshWith noopScheduler) a).2.service.jobs =
      a.service.jobs := by
  have hspares : Spares (self.serve env) Unarmed fun b : Agent => b.service.jobs := by
    rintro o b ⟨ho, -⟩
    have hfree : ∀ o (b : Agent), FileFree o →
        (service (self.serviceEnv env env.service.run) o b.service).2.jobs = b.service.jobs →
        (self.serve env o b).2.service.jobs = b.service.jobs := by
      intro o b ho hjobs
      rw [serve_of_fileFree env.service.run ho]
      exact hjobs
    cases o with
    | cronTrigger hour minute => exact ho.elim
    | addJob id trigger index => exact ho.elim
    | getJob id => exact ho.elim
    | getConfig => exact ho.elim
    | run i flow => rw [serve_run]
    | makedirs => rw [← eval_act (self.serve env), serve_makedirs]
    | chmodConfig mode => rw [← eval_act (self.serve env), serve_chmodConfig]
    | writeConfig cfg =>
      rw [← eval_act (self.serve env), serve_writeConfig env.service.run]
      simp only [service]
      split <;> rfl
    | _ => exact hfree _ _ trivial rfl
  exact unarmed_refreshWith.view_eval hspares a

theorem eval_cmdRefresh {spogUrl : String} (hurl : spogUrl ≠ "") :
    eval (self.serve env) (cmdRefresh spogUrl) a =
      (.ok (.ofRefresh (eval (self.serve env) (RefreshService.refreshWith noopScheduler) a).1),
        (eval (self.serve env) (RefreshService.refreshWith noopScheduler) a).2) := by
  rw [cmdRefresh, if_neg hurl, eval_tryCatch, eval_bind]
  rcases eval (self.serve env) (RefreshService.refreshWith noopScheduler) a with ⟨r, b⟩
  cases r <;> rfl

/-- **The command.** Where the running agent's refresh returns, `refresh` on the command line succeeds
on the same machine. It leaves the machine the same, arms nothing, and has taken the same steps but for
those of the scheduler, with no next run in its reports. In any case its exit code tells whether the
configuration was pulled and all reports were sent, and not how the flows have ended. -/
theorem cmdRefresh_follows (self : Setup) (env : AgentEnv) (spogUrl : String) (hurl : spogUrl ≠ "")
    (a b : Agent) (hmachine : a.machine = b.machine) :
    (∀ cfg a', eval (self.serve env) RefreshService.refresh a = (.ok cfg, a') →
      ∃ b', eval (self.serve env) (cmdRefresh spogUrl) b = (.ok (.ofRefresh (.ok cfg)), b') ∧
        b'.machine = a'.machine ∧ b'.service.jobs = b.service.jobs ∧
        (trace (self.serve env) (RefreshService.refreshWith noopScheduler) b).filterMap
            ServiceOp.unscheduled =
          (trace (self.serve env) RefreshService.refresh a).filterMap ServiceOp.unscheduled ∧
        ∀ i r, .report i r ∈ trace (self.serve env) (RefreshService.refreshWith noopScheduler) b →
          r.nextScheduledRun = none) ∧
    (eval (self.serve env) (cmdRefresh spogUrl) b).1 = .ok (.ofRefresh (do
      let cfg ← env.service.pull
      self.persists env cfg
      (List.range cfg.flows.length).forM env.service.tells
      return cfg)) := by
  have hsame : SameMachine a b := hmachine
  refine ⟨fun cfg a' hrefresh => ?_, ?_⟩
  · obtain ⟨b', hb', hmachine', htrace⟩ := hsame.follows_refresh cfg a' hrefresh
    have hjobs : (eval (self.serve env) (RefreshService.refreshWith noopScheduler) b).2.service.jobs =
        b.service.jobs := jobs_refreshWith
    refine ⟨b', ?_, Eq.symm hmachine', ?_, htrace.symm, fun i r hr => ?_⟩
    · rw [eval_cmdRefresh hurl, hb']
    · rw [← hjobs, hb']
    · exact (unarmed_refreshWith.mem_trace (fun _ _ => trivial) _ hr).2 i r rfl
  · rw [eval_cmdRefresh hurl, eval_refreshWith_fst]

theorem cmdRefresh_follows_demo :
    (eval (demoSetup.serve demoAgentEnv) (cmdRefresh "https://sh") demoAgent).1 =
      .ok ⟨0, ["refreshed: 2 flow(s) applied"], []⟩ :=
  (cmdRefresh_follows demoSetup demoAgentEnv "https://sh" (by decide) demoAgent demoAgent rfl).2

end Setup

end NextepAgent
