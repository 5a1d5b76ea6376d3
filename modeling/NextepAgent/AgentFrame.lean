import NextepAgent.Agent

/-!
# What the agent leaves alone

The agent runs as root and writes to paths that a server tells it. What it may touch is said here for
every call of every refresh and firing, also of those that raise or are cut short: `config.json`, and
what the flows reach that were pulled, or the held flow that fires. That is their output files, and the
directory of acmeow. What the post-renewal script does, which is a process of its own, is not part of
it.

So `config.json`, once written, is what `status` reads at any later moment, whatever flows do.

## Main definitions

* `Setup.flowsOf` — the flows an event may run
* `Setup.Given` — the configurations of a history
* `Setup.Passes` — the states the agent passes through, between any two calls

## Main results

* `Setup.always_task`, `Setup.Passes.invariant` — invariants of the calls, at every moment
* `Setup.files_untouched` — all other files, and the credential of the machine
* `Setup.config_read_back` — `config.json`
-/

namespace NextepAgent

open Effect Program RefreshService Posix

namespace Setup

variable {self : Setup} {env : AgentEnv} {a : Agent} {ev : AgentEvent} {i : ℕ}
  {flow : FlowConfig} {l : Place} {places : List Place}

/-! ### The flows of an event -/

/-- The flows that a refresh may run. -/
def pulled (env : AgentEnv) : List FlowConfig :=
  match env.service.pull with
  | .ok cfg => cfg.flows
  | .error _ => []

/-- The flows that an event may run. -/
def flowsOf (a : Agent) : AgentEvent → List FlowConfig
  | .refresh env => pulled env
  | .fire id env =>
    match a.service.jobs id with
    | none => []
    | some job =>
      match a.service.heldFlow job.index with
      | some flow => [flow]
      | none => pulled env

/-- A loop runs the flows it is given. -/
theorem uses_runFlows_of_mem {A : (o : ServiceOp) → Except Exc o.Ans → Prop}
    {Q : ServiceOp → Prop} {flows : List FlowConfig} (cfg : AgentConfig) (i : ℕ)
    (hQ : ∀ i, ∀ flow ∈ flows, ∀ o, FlowStep i flow o → Q o) :
    (runFlows cfg i flows).Uses A Q := by
  induction flows generalizing i with
  | nil => trivial
  | cons flow flows ih =>
    have hflow : (runOneFlow cfg i flow).Uses A Q :=
      (uses_runOneFlow cfg i flow).mono (fun _ _ h => h) (hQ i flow List.mem_cons_self)
    exact hflow.bind fun _ => ih (i + 1) fun j flow' hflow' =>
      hQ j flow' (List.mem_cons_of_mem _ hflow')

/-- A step that runs no flow but one of these, and persists nothing but what was pulled and can be
written. -/
structure Does (setup : Setup) (env : AgentEnv) (flows : List FlowConfig) (o : ServiceOp) :
    Prop where
  run : ∀ i flow, o = .run i flow → flow ∈ flows
  persist : ∀ cfg, o = .writeConfig cfg →
    env.service.pull = .ok cfg ∧ ∃ text, cfg.dumps setup.python = .ok text

theorem does_of_flowStep {flows : List FlowConfig} (hflow : flow ∈ flows) {o : ServiceOp}
    (ho : FlowStep i flow o) : self.Does env flows o where
  run := by
    rintro j flow' rfl
    cases ho
    exact hflow
  persist := by
    rintro cfg rfl
    cases ho

/-- What `dumps` answers. -/
def DumpsAnswers (self : Setup) : (o : ServiceOp) → Except Exc o.Ans → Prop
  | .dumps cfg, .ok _ => ∃ text, cfg.dumps self.python = .ok text
  | _, _ => True

theorem dumpsAnswers_serve (o : ServiceOp) (b : Agent) :
    self.DumpsAnswers o (self.serve env o b).1 := by
  cases o with
  | dumps cfg =>
    rw [serve_of_fileFree env.service.run (o := .dumps cfg) trivial]
    simp only [service, serviceEnv]
    cases hdumps : cfg.dumps self.python with
    | error e => trivial
    | ok text => exact ⟨text, hdumps⟩
  | _ => trivial

/-- What a refresh runs and persists was pulled by it. -/
theorem does_refresh {o : ServiceOp} {b : Agent}
    (ho : o ∈ trace (self.serve env) (do let _ ← refresh; return ()) b) :
    self.Does env (pulled env) o := by
  rw [trace_forget, refresh, trace_bind, eval_pull, trace_act] at ho
  rcases List.mem_append.mp ho with ho | ho
  · rw [List.mem_singleton.mp ho]
    exact ⟨fun _ _ h => (by cases h), fun _ h => by cases h⟩
  · rw [pulled]
    cases hcfg : env.service.pull with
    | error e => rw [hcfg] at ho; exact absurd ho List.not_mem_nil
    | ok cfg =>
      rw [hcfg] at ho
      have hother : ∀ o, (∀ i flow, o ≠ .run i flow) → (∀ cfg', o ≠ .writeConfig cfg') →
          self.Does env cfg.flows o := fun o hrun hwrite =>
        ⟨fun i flow h => absurd h (hrun i flow), fun cfg' h => absurd h (hwrite cfg')⟩
      have hwrite : (∃ text, cfg.dumps self.python = .ok text) →
          self.Does env cfg.flows (.writeConfig cfg) := fun htext =>
        ⟨by simp, fun cfg' h => by cases h; exact ⟨hcfg, htext⟩⟩
      have huses : (act (.setConfig cfg) >>= fun _ => persist cfg >>= fun _ =>
          runFlows cfg 0 cfg.flows >>= fun _ => (return cfg)).Uses self.DumpsAnswers
            (self.Does env cfg.flows) := by
        refine (uses_act (hother (.setConfig cfg) (by simp) (by simp))).bind fun _ =>
          Uses.bind ?_ fun _ => Uses.bind ?_ fun _ => trivial
        · exact uses_persist_of (hother (.dumps cfg) (by simp) (by simp)) fun htext =>
            ⟨hother .makedirs (by simp) (by simp), hwrite htext,
              hother (.chmodConfig 0o600) (by simp) (by simp)⟩
        · exact uses_runFlows_of_mem cfg 0 fun j flow hflow o ho => does_of_flowStep hflow ho
      exact huses.mem_trace (fun o b => dumpsAnswers_serve o b) o ho

/-- **What an event runs**, and persists. -/
theorem does_task {o : ServiceOp}
    (ho : o ∈ trace (self.serve ev.env) (task a ev) (begun a ev)) :
    self.Does ev.env (flowsOf a ev) o := by
  cases ev with
  | refresh env => exact does_refresh ho
  | fire id env =>
    simp only [task, begun, flowsOf, AgentEvent.env] at ho ⊢
    cases hjob : a.service.jobs id with
    | none => rw [hjob] at ho; exact absurd ho List.not_mem_nil
    | some job =>
      simp only [hjob] at ho ⊢
      have hget : eval (self.serve env) (act .getConfig)
          { a with service := a.service.advance id job } =
            (.ok a.service.config, { a with service := a.service.advance id job }) := eval_getConfig
      rw [renewOne, trace_bind_of_ok hget, trace_act] at ho
      rcases List.mem_append.mp ho with ho | ho
      · rw [List.mem_singleton.mp ho]
        exact ⟨fun _ _ h => (by cases h), fun _ h => by cases h⟩
      · rw [ServiceState.heldFlow]
        cases hcfg : a.service.config with
        | none =>
          rw [hcfg] at ho
          exact does_refresh ho
        | some cfg =>
          rw [hcfg] at ho
          simp only [Option.bind_some] at ho ⊢
          cases hflow : cfg.flows[job.index]? with
          | none =>
            rw [hflow] at ho
            exact does_refresh ho
          | some flow =>
            rw [hflow] at ho
            have hstep := (uses_runOneFlow (A := fun _ _ => True) cfg job.index flow).mem_trace
              (fun _ _ => trivial) o ho
            exact does_of_flowStep (List.mem_singleton_self flow) hstep

/-! ### Invariants -/

theorem always_relay {I : Agent → Prop} {p : Runner IssueResult}
    (hp : p.Uses (fun _ _ => True) (self.At places))
    (hI : ∀ o b, self.At places o → I b → I (self.agent env (.flow i o) b).2) (h : I a) :
    Always (self.agent env) I (p.translate (relay i)) a := by
  refine always_translate (fun o ho b hb => ?_) h
  have hat : self.At places o := hp.mem_trace (fun _ _ => trivial) o ho
  exact (always_perform (S := agentSig) (AgentOp.flow i o) b).mpr ⟨hb, hI o b hat hb⟩

/-- **An invariant of the calls of an event** holds at every moment of it. -/
theorem always_task {I : Agent → Prop}
    (hservice : ∀ o b, self.Does ev.env (flowsOf a ev) o → I b →
      I (self.agent ev.env (.service o) b).2)
    (hflow : ∀ i o b, self.At ((flowsOf a ev).flatMap self.files) o → I b →
      I (self.agent ev.env (.flow i o) b).2)
    (h : I (begun a ev)) : Always (self.agent ev.env) I (self.steps (task a ev)) (begun a ev) := by
  refine always_translate (fun o ho b hb => ?_) h
  have hperform : Always (self.agent ev.env) I (@perform Exc agentSig (.service o)) b :=
    (always_perform (S := agentSig) (AgentOp.service o) b).mpr ⟨hb, hservice o b (does_task ho) hb⟩
  cases o with
  | run j flow =>
    have hmem : flow ∈ flowsOf a ev := (does_task ho).run j flow rfl
    refine always_relay (Node.uses_at_run.mono (fun _ _ h => h) fun o ho p hp => ?_) (hflow j) hb
    exact List.mem_flatMap.mpr ⟨flow, hmem, ho p hp⟩
  | _ => exact hperform

/-- What a step of the service does on the machine is done to `config.json`. -/
theorem machine_service (o : ServiceOp) (b : Agent) :
    (self.agent env (.service o) b).2.machine = b.machine ∨
      ∃ o' : HostOp, o'.target = some self.configPath ∧
        (self.agent env (.service o) b).2.machine = (self.machine env.config o' b.machine).2 := by
  cases o with
  | makedirs => exact .inr ⟨.mkdirParents self.configPath, rfl, rfl⟩
  | writeConfig cfg => exact .inr ⟨.writeText self.configPath (self.configText cfg), rfl, rfl⟩
  | chmodConfig mode => exact .inr ⟨.chmod self.configPath mode, rfl, rfl⟩
  | _ => exact .inl rfl

theorem machine_begun : (begun a ev).machine = a.machine := by
  cases ev with
  | refresh env => rfl
  | fire id env =>
    rw [begun]
    split <;> rfl

/-! ### The configurations of a history -/

/-- A step that does not change what is held. -/
def KeepsConfig (o : ServiceOp) : Prop := ∀ cfg, o ≠ .setConfig cfg

theorem config_service {senv : ServiceEnv} {o : ServiceOp} (ho : KeepsConfig o)
    (s : ServiceState) : (service senv o s).2.config = s.config := by
  cases o with
  | setConfig cfg => exact absurd rfl (ho cfg)
  | writeConfig cfg => simp only [service]; split <;> rfl
  | addJob id t i => simp only [service]; split <;> rfl
  | _ => rfl

theorem keepsConfig_of_flowStep {o : ServiceOp} (ho : FlowStep i flow o) : KeepsConfig o := by
  rintro cfg rfl
  cases ho

theorem config_of_uses {senv : ServiceEnv} {α : Type} {p : Service α}
    (hp : p.Uses (fun _ _ => True) KeepsConfig) (s : ServiceState) :
    (eval (service senv) p s).2.config = s.config :=
  hp.invariant (I := fun s' => s'.config = s.config)
    (fun _ s' ho hs' => (config_service ho s').trans hs') rfl

/-- What a refresh has pulled is held, also if it raises later on. -/
theorem config_refresh (senv : ServiceEnv) (s : ServiceState) :
    (eval (service senv) refresh s).2.config =
      match senv.pull with
      | .ok cfg => some cfg
      | .error _ => s.config := by
  have hpull : eval (service senv) (act .pull) s = (senv.pull, s) := by rw [eval_act]; rfl
  rw [refresh, eval_bind, hpull]
  cases senv.pull with
  | error e => rfl
  | ok cfg =>
    have huses : (persist cfg >>= fun _ => runFlows cfg 0 cfg.flows >>= fun _ =>
        (return cfg)).Uses (fun _ _ => True) KeepsConfig := by
      refine Uses.bind ?_ fun _ => Uses.bind ?_ fun _ => trivial
      · exact uses_persist_of (fun _ h => by cases h) fun _ =>
          ⟨by simp [KeepsConfig], by simp [KeepsConfig], by simp [KeepsConfig]⟩
      · exact uses_runFlows_of_mem cfg 0 fun j flow _ o ho => keepsConfig_of_flowStep ho
    simp only
    rw [eval_act_bind_of_ok rfl, config_of_uses huses]

/-- What is held after an event was held before it, or was pulled by it. -/
theorem config_after (self : Setup) (a : Agent) (ev : AgentEvent) :
    (self.after a ev).service.config = a.service.config ∨
      ∃ cfg, ev.env.service.pull = .ok cfg ∧ (self.after a ev).service.config = some cfg := by
  have hrefresh : ∀ (env : AgentEnv) (run : ℕ → Except Exc IssueResult) (s : ServiceState),
      (eval (service (self.serviceEnv env run)) refresh s).2.config = s.config ∨
        ∃ cfg, env.service.pull = .ok cfg ∧
          (eval (service (self.serviceEnv env run)) refresh s).2.config = some cfg := by
    intro env run s
    have hconfig := config_refresh (self.serviceEnv env run) s
    have hpull : (self.serviceEnv env run).pull = env.service.pull := rfl
    rw [hpull] at hconfig
    cases hcfg : env.service.pull with
    | error e => rw [hcfg] at hconfig; exact .inl hconfig
    | ok cfg => rw [hcfg] at hconfig; exact .inr ⟨cfg, rfl, hconfig⟩
  rw [service_after]
  cases ev with
  | refresh env => exact hrefresh env _ _
  | fire id env =>
    simp only [event, ServiceState.after, AgentEvent.env]
    cases hjob : a.service.jobs id with
    | none => exact .inl rfl
    | some job =>
      simp only
      cases hheld : a.service.heldFlow job.index with
      | none =>
        rw [ServiceState.state_renewOne_of_not_held (s := a.service.advance id job) hheld]
        exact hrefresh env _ _
      | some flow =>
        obtain ⟨cfg, hcfg, hi⟩ := Option.bind_eq_some_iff.mp hheld
        rw [ServiceState.eval_renewOne (s := a.service.advance id job) hcfg hi]
        exact .inl ServiceEnv.config_flowEffect

/-- The flows of an event are held, or are pulled by it. -/
theorem mem_flowsOf (h : flow ∈ flowsOf a ev) :
    ∃ cfg, (a.service.config = some cfg ∨ ev.env.service.pull = .ok cfg) ∧ flow ∈ cfg.flows := by
  have hpulled : ∀ env, flow ∈ pulled env →
      ∃ cfg, env.service.pull = .ok cfg ∧ flow ∈ cfg.flows := by
    intro env h
    rw [pulled] at h
    split at h
    · next cfg hcfg => exact ⟨cfg, hcfg, h⟩
    · exact absurd h List.not_mem_nil
  cases ev with
  | refresh env =>
    obtain ⟨cfg, hcfg, hflow⟩ := hpulled env h
    exact ⟨cfg, .inr hcfg, hflow⟩
  | fire id env =>
    simp only [flowsOf] at h
    split at h
    · exact absurd h List.not_mem_nil
    · next job _ =>
      split at h
      · next flow' hheld =>
        obtain ⟨cfg, hcfg, hi⟩ := Option.bind_eq_some_iff.mp hheld
        rw [List.mem_singleton.mp h]
        exact ⟨cfg, .inl hcfg, List.mem_of_getElem? hi⟩
      · obtain ⟨cfg, hcfg, hflow⟩ := hpulled env h
        exact ⟨cfg, .inr hcfg, hflow⟩

/-- A configuration that the agent is given: it is held at the start, or is pulled. -/
def Given (a : Agent) (hist : List AgentEvent) (cfg : AgentConfig) : Prop :=
  a.service.config = some cfg ∨ ∃ ev ∈ hist, ev.env.service.pull = .ok cfg

/-- What an event pulls and what it may run is given in the history. -/
structure GivenEvent (a : Agent) (hist : List AgentEvent) (b : Agent) (ev : AgentEvent) : Prop where
  pulled : ∀ cfg, ev.env.service.pull = .ok cfg → Given a hist cfg
  flows : ∀ flow ∈ flowsOf b ev, ∃ cfg, Given a hist cfg ∧ flow ∈ cfg.flows

theorem throughout_givenEvent (self : Setup) (a : Agent) (hist : List AgentEvent) :
    Throughout self.after (GivenEvent a hist) a hist := by
  have hgiven : ∀ (b : Agent) (evs : List AgentEvent),
      (∀ cfg, b.service.config = some cfg → Given a hist cfg) → (∀ ev ∈ evs, ev ∈ hist) →
        Throughout self.after (GivenEvent a hist) b evs := by
    intro b evs hheld hevs
    induction evs generalizing b with
    | nil => exact throughout_nil
    | cons ev evs ih =>
      have hpulled : ∀ cfg, ev.env.service.pull = .ok cfg → Given a hist cfg := fun cfg hcfg =>
        .inr ⟨ev, hevs ev List.mem_cons_self, hcfg⟩
      refine throughout_cons.mpr ⟨⟨hpulled, fun flow hflow => ?_⟩,
        ih _ (fun cfg hcfg => ?_) fun ev' hev' => hevs ev' (List.mem_cons_of_mem _ hev')⟩
      · obtain ⟨cfg, hcfg, hmem⟩ := mem_flowsOf hflow
        exact ⟨cfg, hcfg.elim (hheld cfg) (hpulled cfg), hmem⟩
      · rcases config_after self b ev with hsame | ⟨cfg', hpull, hnew⟩
        · exact hheld cfg (hsame ▸ hcfg)
        · rw [hnew] at hcfg
          exact Option.some.inj hcfg ▸ hpulled cfg' hpull
  exact hgiven a hist (fun cfg hcfg => .inl hcfg) fun ev hev => hev

/-- A state that the agent passes through in a history: some calls into one of its events. -/
def Passes (self : Setup) (a : Agent) (hist : List AgentEvent) (b : Agent) : Prop :=
  ∃ hist₁ ev hist₂ n, hist = hist₁ ++ ev :: hist₂ ∧
    b = (exec (self.agent ev.env) n (self.steps (task (self.afterAll a hist₁) ev))
      (begun (self.afterAll a hist₁) ev)).2

/-- **Invariants of the agent.** What holds at every moment of an event, if it holds before and the
event has its flows from the history, holds in every state the agent passes through. -/
theorem Passes.invariant {I : Agent → Prop} {hist : List AgentEvent} (ha : I a)
    (hI : ∀ b ev, GivenEvent a hist b ev → I b →
      Always (self.agent ev.env) I (self.steps (task b ev)) (begun b ev)) {b : Agent}
    (hb : self.Passes a hist b) : I b := by
  obtain ⟨hist₁, ev, hist₂, n, hhist, rfl⟩ := hb
  have hevents := throughout_givenEvent self a hist
  have hstart : I (self.afterAll a hist₁) := by
    refine Throughout.foldl (C := GivenEvent a hist) (J := fun _ b => I b) ?_ ha
      fun _ b ev' hb hev' => (hI b ev' hev' hb).eval
    intro hist₃ ev' hist₄ h
    exact hevents hist₃ ev' (hist₄ ++ ev :: hist₂)
      (by rw [hhist, h, List.append_assoc, List.cons_append])
  exact (hI _ ev (hevents hist₁ ev hist₂ hhist) hstart).exec n

/-! ### Files that are left alone -/

/-- A file that is neither `config.json` nor reached by a given flow. -/
theorem files_of_given {hist : List AgentEvent} (hpath : l ≠ self.place self.configPath)
    (hl : ∀ cfg, Given a hist cfg → ∀ flow ∈ cfg.flows, ¬ self.MayWrite flow l) {b : Agent}
    (hb : self.Passes a hist b) : b.machine.files l = a.machine.files l := by
  refine hb.invariant (I := fun b => b.machine.files l = a.machine.files l) rfl
    fun b ev hev hbl => always_task (fun o b' _ hb' => ?_) (fun i o b' ho hb' => ?_)
      (by rw [machine_begun]; exact hbl)
  · rcases machine_service o b' with hsame | ⟨o', ho', hnew⟩
    · rw [hsame]
      exact hb'
    · rw [hnew]
      refine (Node.files_machine_of_ne fun p hp hpl => hpath ?_).trans hb'
      rw [← hpl, Option.some.inj (hp.symm.trans ho')]
  · refine (Node.files_machine_of_ne fun p hp hpl => ?_).trans hb'
    obtain ⟨flow, hflow, hfile⟩ := List.mem_flatMap.mp (ho p hp)
    obtain ⟨cfg, hcfg, hin⟩ := hev.flows flow hflow
    exact hl cfg hcfg flow hin (.inl (hpl ▸ hfile))

/-- The flows of a harmless configuration do not reach the certificate and the key of the machine. -/
theorem not_mayWrite_of_confined {cfg : AgentConfig} (h : self.Confined cfg) (hflow : flow ∈ cfg.flows) :
    ¬ self.MayWrite flow self.machineCert ∧ ¬ self.MayWrite flow self.machineKey := by
  have hne : ∀ l ∈ self.files flow, l ≠ self.machineCert ∧ l ≠ self.machineKey := fun l hl =>
    h.machine l (List.mem_flatMap.mpr ⟨flow, hflow, hl⟩)
  obtain ⟨hcert, hkey⟩ := h.store flow hflow
  exact ⟨not_or.mpr ⟨fun hl => (hne _ hl).1 rfl, hcert⟩, not_or.mpr ⟨fun hl => (hne _ hl).2 rfl, hkey⟩⟩

/-- **What the agent leaves alone.** At every moment of every history, a file that is neither
`config.json` nor reached by a flow the agent was given, as its output file or below its `account_dir`,
is as it was at the start. And as long as the flows it is given do not reach the certificate and the key
of the machine, with which it authenticates, it never changes these. -/
theorem files_untouched (self : Setup) (a : Agent) (hist : List AgentEvent) :
    (∀ l, l ≠ self.place self.configPath →
      (∀ cfg, Given a hist cfg → ∀ flow ∈ cfg.flows, ¬ self.MayWrite flow l) →
        ∀ b, self.Passes a hist b → b.machine.files l = a.machine.files l) ∧
    ((∀ cfg, Given a hist cfg → self.Confined cfg) →
      self.place self.configPath ≠ self.machineCert →
      self.place self.configPath ≠ self.machineKey →
        ∀ b, self.Passes a hist b →
          b.machine.files self.machineCert = a.machine.files self.machineCert ∧
            b.machine.files self.machineKey = a.machine.files self.machineKey) := by
  refine ⟨fun l hpath hl b hb => files_of_given hpath hl hb, fun hclear hcert hkey b hb => ?_⟩
  exact ⟨files_of_given hcert.symm
      (fun cfg hcfg flow hflow => (not_mayWrite_of_confined (hclear cfg hcfg) hflow).1) hb,
    files_of_given hkey.symm
      (fun cfg hcfg flow hflow => (not_mayWrite_of_confined (hclear cfg hcfg) hflow).2) hb⟩

/-- The configuration that the agent of the tests is given. -/
def demoConfig : AgentConfig := slottedConfig [("app", .int 6), ("web", .null)]

theorem given_demo {cfg : AgentConfig}
    (h : Given demoAgent [.refresh demoAgentEnv, .fire "renew:internal:0" demoAgentEnv] cfg) :
    cfg = demoConfig := by
  rcases h with hheld | ⟨ev, hev, hpull⟩
  · cases hheld
  · have hall : ∀ ev ∈ [AgentEvent.refresh demoAgentEnv, .fire "renew:internal:0" demoAgentEnv],
        ev.env.service.pull = .ok demoConfig := by simp [AgentEvent.env, demoAgentEnv, demoConfig,
          ServiceState.twoFlows, demoServiceEnv]
    exact Except.ok.inj (hpull.symm.trans (hall ev hev))

/-- The agent in the middle of its first refresh: it has written `config.json`. -/
def demoWritten : Agent :=
  (exec (demoSetup.agent demoAgentEnv) 5
    (demoSetup.steps (task demoAgent (.refresh demoAgentEnv))) demoAgent).2

theorem passes_demo :
    demoSetup.Passes demoAgent [.refresh demoAgentEnv, .fire "renew:internal:0" demoAgentEnv]
      demoWritten :=
  ⟨[], .refresh demoAgentEnv, [.fire "renew:internal:0" demoAgentEnv], 5, rfl, rfl⟩

theorem files_untouched_demo :
    demoWritten.machine.files ["etc".toList, "hosts".toList] = none ∧
      demoWritten.machine.files demoSetup.machineCert = none := by
  have h := files_untouched demoSetup demoAgent
    [.refresh demoAgentEnv, .fire "renew:internal:0" demoAgentEnv]
  refine ⟨h.1 _ (by decide) (fun cfg hcfg => ?_) demoWritten passes_demo,
    (h.2 (fun cfg hcfg => ?_) (by decide) (by decide) demoWritten passes_demo).1⟩
  · rw [given_demo hcfg]
    decide
  · rw [given_demo hcfg]
    exact ⟨⟨by decide, by decide⟩, by decide⟩

/-! ### The configuration on disk -/

/-- `config.json` holds what `dumps` makes of `cfg`. -/
def ConfigWritten (self : Setup) (cfg : AgentConfig) (m : Machine) : Prop :=
  ∃ text, cfg.dumps self.python = .ok text ∧
    m.bytes (self.place self.configPath) = some text.toByteArray

/-- The file of the configuration holds the one that the service knows to be in it, which the agent
was given or found. -/
def OnDisk (self : Setup) (a : Agent) (hist : List AgentEvent) (b : Agent) : Prop :=
  ∀ cfg, b.service.persisted = some cfg →
    self.ConfigWritten cfg b.machine ∧ (Given a hist cfg ∨ a.service.persisted = some cfg)

/-- Only the write changes what the service knows of the file. -/
theorem persisted_service {o : ServiceOp} (ho : ∀ cfg, o ≠ .writeConfig cfg) (b : Agent) :
    (self.agent env (.service o) b).2.service.persisted = b.service.persisted := by
  cases o with
  | writeConfig cfg => exact absurd rfl (ho cfg)
  | addJob id t i => simp only [agent, service]; split <;> rfl
  | _ => rfl

/-- Only the write changes the bytes of the file. -/
theorem bytes_service {o : ServiceOp} (ho : ∀ cfg, o ≠ .writeConfig cfg) (b : Agent) :
    (self.agent env (.service o) b).2.machine.bytes (self.place self.configPath) =
      b.machine.bytes (self.place self.configPath) := by
  cases o with
  | writeConfig cfg => exact absurd rfl (ho cfg)
  | makedirs =>
    have hfile : (self.machine env.config (.mkdirParents self.configPath) b.machine).2.files
        (self.place self.configPath) = (host env.config (.mkdirParents self.configPath)
          (self.view b.machine)).2.files self.configPath := Node.files_machine_self rfl
    exact congrArg (Option.map File.content) hfile
  | chmodConfig mode =>
    have hfile : (self.machine env.config (.chmod self.configPath mode) b.machine).2.files
        (self.place self.configPath) = (host env.config (.chmod self.configPath mode)
          (self.view b.machine)).2.files self.configPath := Node.files_machine_self rfl
    refine (congrArg (Option.map File.content) hfile).trans ?_
    show (host env.config (.chmod self.configPath mode) (self.view b.machine)).2.bytes
      self.configPath = (self.view b.machine).bytes self.configPath
    simp only [host]
    split
    · exact Host.bytes_setMode ..
    · rfl
  | _ => rfl

/-- A write of the configuration that gets through leaves all of it in the file, and one that does not
is not taken for one that does. -/
theorem onDisk_writeConfig {hist : List AgentEvent} {cfg : AgentConfig} (hcfg : Given a hist cfg)
    {text : String} (htext : cfg.dumps self.python = .ok text) {b : Agent}
    (hb : self.OnDisk a hist b) :
    self.OnDisk a hist (self.agent env (.service (.writeConfig cfg)) b).2 := by
  have hfile : (self.machine env.config (.writeText self.configPath (self.configText cfg))
      b.machine).2.files (self.place self.configPath) = (host env.config
        (.writeText self.configPath (self.configText cfg)) (self.view b.machine)).2.files
          self.configPath := Node.files_machine_self rfl
  have hbytes : (self.agent env (.service (.writeConfig cfg)) b).2.machine.bytes
      (self.place self.configPath) =
        (host env.config (.writeText self.configPath (self.configText cfg))
          (self.view b.machine)).2.bytes self.configPath :=
    congrArg (Option.map File.content) hfile
  have hkept : (self.view b.machine).bytes self.configPath =
      b.machine.bytes (self.place self.configPath) := rfl
  obtain ⟨-, -, rfl⟩ := AgentConfig.dumps_eq_ok.mp htext
  simp only [OnDisk, ConfigWritten, hbytes]
  simp only [agent, service, serviceEnv, host]
  cases self.configPath.hasNull with
  | true => exact hb
  | false =>
    cases env.config.writeText self.configPath with
    | refused e => exact hb
    | torn n e => exact fun cfg' hcfg' => by cases hcfg'
    | works =>
      rintro cfg' ⟨⟩
      refine ⟨⟨_, htext, ?_⟩, .inl hcfg⟩
      simp only [Bool.false_eq_true, if_false, configText, encode_ofString]
      exact Host.bytes_put_self ..

/-- **What `status` reads.** Once a write of `config.json` has got through, the file gives back the
configuration that was written, at every later moment and whatever flows do meanwhile, until it is
written again. -/
theorem config_read_back (self : Setup) (a : Agent) (hist : List AgentEvent) (hostname : String)
    (hhost : hostname ≠ "")
    (hstart : ∀ cfg, a.service.persisted = some cfg → self.ConfigWritten cfg a.machine)
    (hdecoded : ∀ cfg, Given a hist cfg ∨ a.service.persisted = some cfg →
      ∃ data, (Json.obj data).Plain ∧ AgentConfig.fromDict hostname (.obj data) = .ok cfg)
    (hclear : ∀ cfg, Given a hist cfg → ∀ flow ∈ cfg.flows,
      self.place self.configPath ∉ self.files flow) :
    ∀ b, self.Passes a hist b → ∀ cfg, b.service.persisted = some cfg →
      ∃ content, b.machine.bytes (self.place self.configPath) = some content ∧
        loadPersisted self.python hostname content = .ok cfg := by
  intro b hb cfg hcfg
  have hdisk : self.OnDisk a hist b := by
    refine hb.invariant (I := self.OnDisk a hist) (fun cfg hcfg => ⟨hstart cfg hcfg, .inr hcfg⟩)
      fun b ev hev hbl => always_task (fun o b' ho hb' => ?_) (fun i o b' ho hb' => ?_) ?_
    · by_cases hwrite : ∃ cfg, o = .writeConfig cfg
      · obtain ⟨cfg, rfl⟩ := hwrite
        obtain ⟨hpull, text, htext⟩ := ho.persist cfg rfl
        exact onDisk_writeConfig (hev.pulled cfg hpull) htext hb'
      · have hne : ∀ cfg, o ≠ .writeConfig cfg := fun cfg h => hwrite ⟨cfg, h⟩
        simp only [OnDisk, ConfigWritten, persisted_service hne, bytes_service hne]
        exact hb'
    · have hfile : (self.machine (ev.env.flows i) o b'.machine).2.files
          (self.place self.configPath) = b'.machine.files (self.place self.configPath) := by
        refine Node.files_machine_of_ne fun p hp hpl => ?_
        obtain ⟨flow, hflow, hfile⟩ := List.mem_flatMap.mp (ho p hp)
        obtain ⟨cfg, hcfg, hin⟩ := hev.flows flow hflow
        exact hclear cfg hcfg flow hin (hpl ▸ hfile)
      intro cfg hcfg
      obtain ⟨⟨text, htext, hbytes⟩, hfrom⟩ := hb' cfg hcfg
      refine ⟨⟨text, htext, ?_⟩, hfrom⟩
      rw [Machine.bytes, agent, hfile]
      exact hbytes
    · intro cfg hcfg
      rw [machine_begun]
      refine hbl cfg ?_
      cases ev with
      | refresh env => exact hcfg
      | fire id env =>
        rw [begun] at hcfg
        split at hcfg <;> exact hcfg
  obtain ⟨⟨text, htext, hbytes⟩, hfrom⟩ := hdisk cfg hcfg
  obtain ⟨data, hplain, hdata⟩ := hdecoded cfg hfrom
  obtain ⟨-, hpersisted⟩ := AgentConfig.loads_of_dumps hhost hplain hdata htext
  exact ⟨_, hbytes, hpersisted _ (encode_ofString _)⟩

theorem config_read_back_demo :
    ∃ content, demoWritten.machine.bytes (demoSetup.place demoSetup.configPath) = some content ∧
      loadPersisted demoSetup.python "localhost" content = .ok demoConfig := by
  refine config_read_back demoSetup demoAgent
    [.refresh demoAgentEnv, .fire "renew:internal:0" demoAgentEnv] "localhost" (by decide)
    (fun cfg h => by cases h) (fun cfg h => ?_) (fun cfg h => ?_) demoWritten passes_demo demoConfig
    rfl
  · rw [given_demo (h.resolve_right fun h => by cases h)]
    have hplain : (slottedRaw [("app", .int 6), ("web", .null)]).Plain :=
      plain_slottedRaw (by simp [Json.Plain.int, Json.Plain.null])
    exact ⟨_, hplain, (by decide : AgentConfig.fromDict "localhost"
      (slottedRaw [("app", .int 6), ("web", .null)]) = .ok demoConfig)⟩
  · rw [given_demo h]
    decide

end Setup

end NextepAgent
