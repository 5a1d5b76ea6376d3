import NextepAgent.AgentFrame
import NextepAgent.Effect.Foretold
import NextepAgent.ExternalAcme
import NextepAgent.InternalX5c

/-!
# The agent and its network

So far one step of the agent has been left to its environment: how an issuance ends. Here it is the
program it is. `make_runner` chooses between the two runners, and the runner's `_obtain` calls the CA,
over a network that may remember everything, sees the files of the machine, and may answer anything.

## Nothing new happens

An issuance is the only step in which a flow looks beyond the machine, and in one refresh, or in one
firing, each flow comes to it at most once. So whatever the network does, some environment that has
decided beforehand how each issuance ends makes the agent do the same, at every moment. What has been
proved of the agent in every such environment holds with the network.

## Main definitions

* `OnlineSetup`, `OnlineSetup.makeRunner` — what runners are made of, and which one is made
* `CaOp`, `WebOp` — the calls to a CA, and all calls of the agent
* `OnlineSetup.after`, `OnlineSetup.Passes` — refreshes and firings with the network
* `OnlineSetup.Foretells` — the same events, with issuances that end as they have ended

## Main results

* `Setup.acting_of_run` — the flow that is run, in the configuration that is acted on
* `OnlineSetup.as_foretold` — every history with the network is one without it
-/

namespace NextepAgent

open Effect Program RefreshService

/-! ### The calls -/

variable {K τ : Type}

/-- A call of an issuance of either kind. -/
inductive CaOp (K : Type)
  | x5c (o : X5cOp K)
  | acme (o : AcmeOp)

/-- What each returns. -/
abbrev CaOp.Ans : CaOp K → Type
  | .x5c o => o.Ans
  | .acme o => o.Ans

/-- The calls of issuances, as a signature. -/
abbrev caSig (K : Type) : Sig := ⟨CaOp K, CaOp.Ans⟩

/-- A call of the agent that is not an issuance, or a call of the issuance of the flow with this
index. -/
inductive WebOp (K : Type)
  | agent (o : AgentOp)
  | ca (index : ℕ) (o : CaOp K)

/-- What each returns. -/
abbrev WebOp.Ans : WebOp K → Type
  | .agent o => o.Ans
  | .ca _ o => o.Ans

/-- All calls of the agent, as a signature. -/
abbrev webSig (K : Type) : Sig := ⟨WebOp K, WebOp.Ans⟩

/-- A call of an internal issuance. -/
def askX5c (o : (x5cSig K).Op) : Program Exc (caSig K) ((x5cSig K).Ans o) :=
  @perform Exc (caSig K) (.x5c o)

/-- A call of an external issuance. -/
def askAcme (o : acmeSig.Op) : Program Exc (caSig K) (acmeSig.Ans o) :=
  @perform Exc (caSig K) (.acme o)

/-- A call of the issuance of flow `i`. -/
def askCa (i : ℕ) (o : (caSig K).Op) : Program Exc (webSig K) ((caSig K).Ans o) :=
  @perform Exc (webSig K) (.ca i o)

/-- The configuration that an event acts on: the one that is pulled, or, when a job fires whose flow is
there, the held one. -/
def Setup.acting (a : Agent) : AgentEvent → Option AgentConfig
  | .refresh env => env.service.pull.toOption
  | .fire id env =>
    match (a.service.jobs id).bind fun job => a.service.heldFlow job.index with
    | some _ => a.service.config
    | none => env.service.pull.toOption

/-! ### Runners -/

/-- An installation, with what its runners use of packages. -/
structure OnlineSetup (K : Type) extends Setup where
  /-- `_bootstrap_defaults()`. -/
  defaults : BootstrapDefaults
  /-- `repr(v)`. -/
  repr : Json → String
  /-- `Identifier.dns`. -/
  identifier : Json → Except Exc Json
  /-- `httpx.URL`. -/
  url : Json → Except Exc HttpxUrl
  /-- The DER of each certificate that `x509.load_pem_x509_certificates` finds. -/
  loadChain : Bytes → Except Exc (List Bytes)
  /-- `serialization.load_pem_private_key`. -/
  loadPrivateKey : Bytes → Except Exc K
  /-- The size of the curve, for a key on an elliptic curve. -/
  curveBits : K → Option ℕ
  /-- PKCS #8, in PEM and without encryption. -/
  privatePem : K → Except Exc Text

/-- A runner of either kind. -/
inductive AnyRunner (K : Type)
  | internal (r : InternalX5cRunner K)
  | external (r : ExternalAcmeRunner)

/-- The runner's `_obtain`. -/
def AnyRunner.obtain : AnyRunner K → Program Exc (caSig K) (Text × Text)
  | .internal r => r.obtain.translate askX5c
  | .external r => r.obtain.translate askAcme

namespace OnlineSetup

variable (self : OnlineSetup K)

/-- `InternalX5cRunner(flow, defaults)`. -/
def internalRunner (flow : FlowConfig) : InternalX5cRunner K where
  toFlowRunner := self.runner flow
  defaults := self.defaults
  str := self.str
  url := self.url
  loadChain := self.loadChain
  loadPrivateKey := self.loadPrivateKey
  curveBits := self.curveBits
  privatePem := self.privatePem

/-- `ExternalAcmeRunner(flow, org, defaults)`. -/
def externalRunner (flow : FlowConfig) (org : Option AgentOrganizationConfig) :
    ExternalAcmeRunner where
  toFlowRunner := self.runner flow
  org
  defaults := self.defaults
  str := self.str
  repr := self.repr
  identifier := self.identifier

/-- `make_runner(flow, org, defaults)`. -/
def makeRunner (flow : FlowConfig) (org : Option AgentOrganizationConfig) :
    Except Exc (AnyRunner K) :=
  match flow.type, flow.method with
  | .internal, .x5c => .ok (.internal (self.internalRunner flow))
  | .external, .dns01 => .ok (.external (self.externalRunner flow org))
  | type, method => .error ⟨.valueError,
      "no runner for flow type=" ++ type.value ++ " method=" ++ method.value ++
        " (not yet implemented)"⟩

/-- The service asks only whether there is one. -/
theorem makeRunner_map (flow : FlowConfig) (org : Option AgentOrganizationConfig) :
    (self.makeRunner flow org).map (fun _ => ()) = NextepAgent.makeRunner flow := by
  rw [makeRunner, NextepAgent.makeRunner]
  cases flow.type <;> cases flow.method <;> rfl

/-- `make_runner(flow, cfg.org, self._bootstrap_defaults())._obtain()`. -/
def obtain (org : Option AgentOrganizationConfig) (flow : FlowConfig) :
    Program Exc (caSig K) (Text × Text) := do
  let runner ← ofExcept (self.makeRunner flow org)
  runner.obtain

/-- `_obtain` of the flow with this index, in the configuration that is acted on. There are no other
flows, so that the last two cases do not arise. -/
def issuance (acting : Option AgentConfig) (i : ℕ) : Program Exc (caSig K) (Text × Text) :=
  match acting with
  | some cfg =>
    match cfg.flows[i]? with
    | some flow => self.obtain cfg.org flow
    | none => raise ⟨.indexError, "list index out of range"⟩
  | none => raise ⟨.other, "no configuration"⟩

/-! ### Runs -/

/-- How each call of the agent is made: an issuance is the program it is. -/
def goOnline (acting : Option AgentConfig) :
    (o : agentSig.Op) → Program Exc (webSig K) (agentSig.Ans o)
  | .flow i .obtain => (self.issuance acting i).translate (askCa i)
  | o => @perform Exc (webSig K) (.agent o)

/-- The calls against an environment and a network, which sees the machine and has a state of its
own. -/
def web (env : AgentEnv) (net : Machine → Handler Exc (caSig K) τ) :
    Handler Exc (webSig K) (Agent × τ)
  | .agent o, (a, t) => ((self.agent env o a).1, (self.agent env o a).2, t)
  | .ca _ o, (a, t) => ((net a.machine o t).1, a, (net a.machine o t).2)

/-- What an event runs. -/
def task (a : Agent) (ev : AgentEvent) : Program Exc (webSig K) Unit :=
  (self.steps (Setup.task a ev)).translate (self.goOnline (Setup.acting a ev))

/-- The agent and the network after an event. -/
def after (net : Machine → Handler Exc (caSig K) τ) (s : Agent × τ) (ev : AgentEvent) : Agent × τ :=
  (eval (self.web ev.env net) (self.task s.1 ev) (Setup.begun s.1 ev, s.2)).2

/-- After several events. -/
def afterAll (net : Machine → Handler Exc (caSig K) τ) (s : Agent × τ) (hist : List AgentEvent) :
    Agent × τ := hist.foldl (self.after net) s

/-- The calls of an event that are not made in an issuance, in order. -/
def callsOf (net : Machine → Handler Exc (caSig K) τ) (s : Agent × τ) (ev : AgentEvent) :
    List AgentOp :=
  (trace (self.web ev.env net) (self.task s.1 ev) (Setup.begun s.1 ev, s.2)).filterMap fun
    | .agent o => some o
    | .ca _ _ => none

/-- Those of a history. -/
def callsOfAll (net : Machine → Handler Exc (caSig K) τ) : Agent × τ → List AgentEvent → List AgentOp
  | _, [] => []
  | s, ev :: hist => self.callsOf net s ev ++ callsOfAll net (self.after net s ev) hist

/-- A state that the agent and the network pass through in a history: some calls into one of its
events. -/
def Passes (net : Machine → Handler Exc (caSig K) τ) (s : Agent × τ) (hist : List AgentEvent)
    (s' : Agent × τ) : Prop :=
  ∃ hist₁ ev hist₂ n, hist = hist₁ ++ ev :: hist₂ ∧
    s' = (exec (self.web ev.env net) n (self.task (self.afterAll net s hist₁).1 ev)
      (Setup.begun (self.afterAll net s hist₁).1 ev, (self.afterAll net s hist₁).2)).2

end OnlineSetup

/-! ### Issuances that are known beforehand -/

/-- The same calls, with issuances that end like this. -/
def AgentEnv.told (env : AgentEnv) (r : ℕ → Except Exc (Text × Text)) : AgentEnv :=
  { env with flows := fun i => (env.flows i).obtaining (r i) }

/-- The same event, with issuances that end like this. -/
def AgentEvent.told (r : ℕ → Except Exc (Text × Text)) : AgentEvent → AgentEvent
  | .refresh env => .refresh (env.told r)
  | .fire id env => .fire id (env.told r)

/-- The index of the flow whose issuance a call is. -/
def AgentOp.issued : AgentOp → Option ℕ
  | .flow i .obtain => some i
  | _ => none

theorem AgentOp.eq_of_issued {o : AgentOp} {i : ℕ} (ho : o.issued = some i) :
    o = .flow i .obtain := by
  cases o with
  | service o => cases ho
  | flow j o =>
    cases o with
    | obtain =>
      cases ho
      rfl
    | _ => cases ho

/-- The same, for the calls of flow `i`. -/
def HostOp.issued (i : ℕ) : HostOp → Option ℕ
  | .obtain => some i
  | _ => none

/-- A call that is not an issuance. -/
def AgentOp.offline : AgentOp → Option AgentOp
  | .flow _ .obtain => none
  | o => some o

/-- The index of the flow that a step runs. -/
def ServiceOp.ran : ServiceOp → Option ℕ
  | .run i _ => some i
  | _ => none

namespace Setup

variable {self : Setup} {env : AgentEnv} {a : Agent} {ev : AgentEvent} {i : ℕ}
  {flow : FlowConfig} {r : ℕ → Except Exc (Text × Text)}

/-- The calls of an event that are not issuances, in order. -/
def callsOf (self : Setup) (a : Agent) (ev : AgentEvent) : List AgentOp :=
  (trace (self.agent ev.env) (self.steps (task a ev)) (begun a ev)).filterMap AgentOp.offline

/-- Those of a history. -/
def callsOfAll (self : Setup) : Agent → List AgentEvent → List AgentOp
  | _, [] => []
  | a, ev :: hist => self.callsOf a ev ++ self.callsOfAll (self.after a ev) hist

@[simp] theorem task_told : task a (ev.told r) = task a ev := by
  cases ev <;> rfl

@[simp] theorem begun_told : begun a (ev.told r) = begun a ev := by
  cases ev <;> rfl

@[simp] theorem env_told : (ev.told r).env = ev.env.told r := by
  cases ev <;> rfl

/-- Only issuances are told anything. -/
theorem agent_told {o : AgentOp} (ho : o.issued = none) :
    self.agent (env.told r) o = self.agent env o := by
  funext b
  cases o with
  | service o => cases o <;> rfl
  | flow i o =>
    cases o with
    | obtain => cases ho
    | _ => rfl

/-- What is passed through after an event is passed through in the whole history. -/
theorem Passes.cons {hist : List AgentEvent} {b : Agent}
    (hb : self.Passes (self.after a ev) hist b) : self.Passes a (ev :: hist) b := by
  obtain ⟨hist₁, ev', hist₂, n, rfl, rfl⟩ := hb
  exact ⟨ev :: hist₁, ev', hist₂, n, rfl, rfl⟩

/-! ### Each flow once -/

/-- A run comes to its issuance at most once. -/
theorem asks_run (runner : FlowRunner) (i : ℕ) :
    runner.run.Asks (HostOp.issued i) {j | some i = some j} := by
  have hoff : ∀ {α : Type} {p : Runner α}, p.Uses (fun _ _ => True) HostOp.Offline →
      p.Uses (fun _ _ => True) fun o => HostOp.issued i o = none := fun hp =>
    hp.mono (fun _ _ h => h) fun o ho => by
      cases o with
      | obtain => exact absurd rfl ho
      | _ => rfl
  refine (hoff runner.offline_upToDate).asks_bind fun found => ?_
  cases found with
  | some current => exact asks_ofExcept
  | none =>
    have hobtain : (sys .obtain).Asks (HostOp.issued i) {j | some i = some j} :=
      asks_perform (S := hostSig) (o := .obtain)
    exact hobtain.bind_quiet fun pair => hoff (runner.offline_issue _ _)

/-- A program of the service issues what it runs. -/
theorem asks_steps {α : Type} {p : Service α} {Q : Set ℕ} (hp : p.Asks ServiceOp.ran Q) :
    (self.steps p).Asks AgentOp.issued Q := by
  refine hp.translate fun o => ?_
  cases o with
  | run i flow =>
    refine (asks_run (self.runner flow) i).translate fun o => ?_
    cases o with
    | _ => exact asks_perform (S := agentSig) (o := .flow i _)
  | _ => exact asks_perform (S := agentSig)

theorem asks_runOneFlow (cfg : AgentConfig) (i : ℕ) (flow : FlowConfig) :
    (runOneFlow cfg i flow).Asks ServiceOp.ran {i} := by
  have hact : ∀ {o : ServiceOp}, o.ran = none →
      (act o).Uses (fun _ _ => True) fun o => ServiceOp.ran o = none := fun ho => uses_act ho
  have hsend : ∀ r, (sendReport i r).Uses (fun _ _ => True) fun o => ServiceOp.ran o = none :=
    fun r => (hact rfl).bind fun _ => hact rfl
  have hrun : (attempt i flow).Asks ServiceOp.ran {i} := by
    refine Asks.tryCatch ?_ fun e => trivial
    refine (hact (o := .makeRunner i flow) rfl).asks_bind fun _ => ?_
    have hone : (act (.run i flow)).Asks ServiceOp.ran {i} :=
      (asks_perform (S := serviceSig) (o := .run i flow)).mono fun j hj => (Option.some.inj hj).symm
    exact hone.bind_quiet fun _ => trivial
  refine hrun.bind_quiet fun ended => ?_
  cases ended with
  | error e => exact hsend _
  | ok result =>
    refine Uses.bind ?_ fun _ => Uses.bind ?_ fun nextRun => ?_
    · exact (uses_ofExcept _).bind fun time => (hact rfl).bind fun t => hact rfl
    · exact (hact rfl).bind fun _ => trivial
    · exact (hact rfl).bind fun _ => hsend _

/-- The loop goes on to flows with other indices. -/
theorem asks_runFlows (cfg : AgentConfig) (i : ℕ) (flows : List FlowConfig) :
    (runFlows cfg i flows).Asks ServiceOp.ran {j | i ≤ j} := by
  induction flows generalizing i with
  | nil => trivial
  | cons flow flows ih =>
    have hdisjoint : ∀ j ∈ ({i} : Set ℕ), j ∉ {j | i + 1 ≤ j} := by
      intro j hj hj'
      obtain rfl : j = i := hj
      exact absurd hj' (Nat.not_succ_le_self j)
    refine ((asks_runOneFlow cfg i flow).bind (fun _ => ih (i + 1)) hdisjoint).mono fun j hj => ?_
    rcases hj with hj | hj
    · exact (Set.mem_singleton_iff.mp hj).symm.le
    · exact (Nat.le_succ i).trans hj

theorem asks_refresh : refresh.Asks ServiceOp.ran Set.univ := by
  have hact : ∀ {o : ServiceOp}, o.ran = none →
      (act o).Uses (fun _ _ => True) fun o => ServiceOp.ran o = none := fun ho => uses_act ho
  refine (hact rfl).asks_bind fun cfg => (hact rfl).asks_bind fun _ => ?_
  refine Uses.asks_bind (p := persist cfg) ?_ fun _ => ?_
  · exact uses_persist_of rfl fun _ => ⟨rfl, rfl, rfl⟩
  · have hloop : (runFlows cfg 0 cfg.flows >>= fun _ => (return cfg : Service AgentConfig)).Asks
        ServiceOp.ran {j | 0 ≤ j} := (asks_runFlows cfg 0 cfg.flows).bind_quiet fun _ => trivial
    exact hloop.mono (Set.subset_univ _)

/-- **An event** runs each flow at most once. -/
theorem asks_task (a : Agent) (ev : AgentEvent) : (task a ev).Asks ServiceOp.ran Set.univ := by
  have hrefresh : (do let _ ← refresh; return () : Service Unit).Asks ServiceOp.ran Set.univ :=
    asks_refresh.bind_quiet fun _ => trivial
  cases ev with
  | refresh env => exact hrefresh
  | fire id env =>
    rw [task]
    split
    · next job _ =>
      refine Uses.asks_bind (p := act .getConfig) (uses_act rfl) fun held => ?_
      cases held with
      | none => exact hrefresh
      | some cfg =>
        cases hflow : cfg.flows[job.index]? with
        | none => simpa only [hflow] using hrefresh
        | some flow =>
          simpa only [hflow] using (asks_runOneFlow cfg job.index flow).mono (Set.subset_univ _)
    · trivial

/-! ### The flow that is run -/

/-- A step that runs no flow but those of this configuration, each under its own index. -/
def RunsOf (cfg : AgentConfig) (o : ServiceOp) : Prop :=
  ∀ i flow, o = .run i flow → cfg.flows[i]? = some flow

theorem runsOf_of_flowStep {cfg : AgentConfig} (hflow : cfg.flows[i]? = some flow) {o : ServiceOp}
    (ho : FlowStep i flow o) : RunsOf cfg o := by
  rintro j flow' rfl
  cases ho
  exact hflow

theorem uses_runsOf_runFlows (cfg : AgentConfig) {i : ℕ} {flows : List FlowConfig}
    (hflows : ∀ k flow, flows[k]? = some flow → cfg.flows[i + k]? = some flow) :
    (runFlows cfg i flows).Uses (fun _ _ => True) (RunsOf cfg) := by
  induction flows generalizing i with
  | nil => trivial
  | cons flow flows ih =>
    have hflow : (runOneFlow cfg i flow).Uses (fun _ _ => True) (RunsOf cfg) :=
      (uses_runOneFlow cfg i flow).mono (fun _ _ h => h) fun o ho =>
        runsOf_of_flowStep (hflows 0 flow rfl) ho
    refine hflow.bind fun _ => ih fun k flow' hk => ?_
    rw [Nat.add_assoc, Nat.add_comm 1]
    exact hflows (k + 1) flow' hk

theorem acting_of_refresh {b : Agent}
    (ho : .run i flow ∈ trace (self.serve env) (do let _ ← refresh; return ()) b) :
    ∃ cfg, env.service.pull = .ok cfg ∧ cfg.flows[i]? = some flow := by
  rw [trace_forget, refresh, trace_bind, eval_pull, trace_act] at ho
  rcases List.mem_append.mp ho with ho | ho
  · cases List.mem_singleton.mp ho
  · cases hcfg : env.service.pull with
    | error e => rw [hcfg] at ho; exact absurd ho List.not_mem_nil
    | ok cfg =>
      rw [hcfg] at ho
      have hother : ∀ {o : ServiceOp}, o.ran = none →
          (act o).Uses (fun _ _ => True) (RunsOf cfg) := fun {o} ho => uses_act fun j flow' h => by
        subst h
        cases ho
      have huses : (act (.setConfig cfg) >>= fun _ => persist cfg >>= fun _ =>
          runFlows cfg 0 cfg.flows >>= fun _ => (return cfg)).Uses (fun _ _ => True)
            (RunsOf cfg) := by
        refine (hother rfl).bind fun _ => Uses.bind ?_ fun _ => Uses.bind ?_ fun _ => trivial
        · exact uses_persist_of (by rintro _ _ ⟨⟩) fun _ =>
            ⟨by rintro _ _ ⟨⟩, by rintro _ _ ⟨⟩, by rintro _ _ ⟨⟩⟩
        · exact uses_runsOf_runFlows cfg fun k flow' hk => by rwa [Nat.zero_add]
      exact ⟨cfg, rfl, huses.mem_trace (fun _ _ => trivial) _ ho i flow rfl⟩

/-- **The flow that is run** is the one with its index, in the configuration that is acted on. -/
theorem acting_of_run
    (ho : .run i flow ∈ trace (self.serve ev.env) (task a ev) (begun a ev)) :
    ∃ cfg, acting a ev = some cfg ∧ cfg.flows[i]? = some flow := by
  have hpulled : ∀ {env : AgentEnv} {b : Agent},
      .run i flow ∈ trace (self.serve env) (do let _ ← refresh; return ()) b →
        ∃ cfg, env.service.pull.toOption = some cfg ∧ cfg.flows[i]? = some flow := by
    intro env b ho
    obtain ⟨cfg, hcfg, hflow⟩ := acting_of_refresh ho
    exact ⟨cfg, by rw [hcfg]; rfl, hflow⟩
  cases ev with
  | refresh env => exact hpulled ho
  | fire id env =>
    simp only [task, begun, acting, AgentEvent.env] at ho ⊢
    cases hjob : a.service.jobs id with
    | none => rw [hjob] at ho; exact absurd ho List.not_mem_nil
    | some job =>
      simp only [hjob, Option.bind_some] at ho ⊢
      have hget : eval (self.serve env) (act .getConfig)
          { a with service := a.service.advance id job } =
            (.ok a.service.config, { a with service := a.service.advance id job }) := eval_getConfig
      rw [renewOne, trace_bind_of_ok hget, trace_act] at ho
      rcases List.mem_append.mp ho with ho | ho
      · cases List.mem_singleton.mp ho
      · rw [ServiceState.heldFlow]
        cases hcfg : a.service.config with
        | none =>
          rw [hcfg] at ho
          exact hpulled ho
        | some cfg =>
          rw [hcfg] at ho
          simp only [Option.bind_some] at ho ⊢
          cases hflow : cfg.flows[job.index]? with
          | none =>
            rw [hflow] at ho
            exact hpulled ho
          | some flow' =>
            rw [hflow] at ho
            have hstep := (uses_runOneFlow (A := fun _ _ => True) cfg job.index flow').mem_trace
              (fun _ _ => trivial) _ ho
            exact ⟨cfg, rfl, runsOf_of_flowStep hflow hstep i flow rfl⟩

end Setup

/-! ### Nothing new happens -/

namespace OnlineSetup

variable {self : OnlineSetup K} {env : AgentEnv} {net : Machine → Handler Exc (caSig K) τ}
  {s s' : Agent × τ} {ev : AgentEvent} {hist : List AgentEvent} {acting : Option AgentConfig}

/-- The calls of the agent with a network, each issuance in one go. -/
def atOnce (self : OnlineSetup K) (acting : Option AgentConfig) (env : AgentEnv)
    (net : Machine → Handler Exc (caSig K) τ) : Handler Exc agentSig (Agent × τ) :=
  Effect.implement (self.goOnline acting) (self.web env net)

/-- How the issuance of flow `i` ends, and what it makes of the network. -/
def issues (self : OnlineSetup K) (acting : Option AgentConfig)
    (net : Machine → Handler Exc (caSig K) τ) (i : ℕ) (s : Agent × τ) :
    Except Exc (Text × Text) × τ :=
  eval (net s.1.machine) (self.issuance acting i) s.2

/-- The agent does not see an issuance. -/
theorem eval_askCa {α : Type} (p : Program Exc (caSig K) α) (i : ℕ) (a : Agent) (t : τ) :
    eval (self.web env net) (p.translate (askCa i)) (a, t) =
      ((eval (net a.machine) p t).1, a, (eval (net a.machine) p t).2) := by
  induction p generalizing t with
  | ret x => rfl
  | raise e => rfl
  | call o k ih =>
    rw [translate_call, askCa, perform_resume]
    exact ih _ _

theorem always_askCa {α : Type} (p : Program Exc (caSig K) α) (i : ℕ) (a : Agent) (t : τ) :
    Always (self.web env net) (fun s => s.1 = a) (p.translate (askCa i)) (a, t) := by
  induction p generalizing t with
  | ret x => rfl
  | raise e => rfl
  | call o k ih =>
    rw [translate_call, askCa, perform_resume]
    exact ⟨rfl, ih _ _⟩

theorem trace_askCa {α : Type} (p : Program Exc (caSig K) α) (i : ℕ) (s : Agent × τ) :
    (trace (self.web env net) (p.translate (askCa i)) s).filterMap
      (fun | .agent o => some o | .ca _ _ => none) = ([] : List AgentOp) := by
  induction p generalizing s with
  | ret x => rfl
  | raise e => rfl
  | call o k ih =>
    rw [translate_call, askCa, perform_resume]
    exact ih _ _

theorem atOnce_obtain (i : ℕ) :
    self.atOnce acting env net (.flow i .obtain) s =
      ((self.issues acting net i s).1, s.1, (self.issues acting net i s).2) :=
  eval_askCa _ i s.1 s.2

theorem goOnline_of_not_issued {o : AgentOp} (ho : o.issued = none) :
    self.goOnline acting o = @perform Exc (webSig K) (.agent o) := by
  cases o with
  | service o => rfl
  | flow i o =>
    cases o with
    | obtain => cases ho
    | _ => rfl

theorem atOnce_of_not_issued {o : AgentOp} (ho : o.issued = none) :
    self.atOnce acting env net o s = ((self.agent env o s.1).1, (self.agent env o s.1).2, s.2) := by
  rw [atOnce, Effect.implement, goOnline_of_not_issued ho]
  exact eval_perform ..

/-- The issuance of flow `i` is begun in this state, at some moment of an event. -/
def Begins (self : OnlineSetup K) (net : Machine → Handler Exc (caSig K) τ) (s : Agent × τ)
    (ev : AgentEvent) (i : ℕ) (s' : Agent × τ) : Prop :=
  ∃ n, AskedAt (self.atOnce (Setup.acting s.1 ev) ev.env net) (self.steps (Setup.task s.1 ev))
    (Setup.begun s.1 ev, s.2) n (.flow i .obtain) s'

/-- What these answers say of a flow is how its issuance has ended in this event. Flows that have not
come to it fail. -/
def Foretells (self : OnlineSetup K) (net : Machine → Handler Exc (caSig K) τ) (s : Agent × τ)
    (ev : AgentEvent) (r : ℕ → Except Exc (Text × Text)) : Prop :=
  ∀ i, (∃ s', self.Begins net s ev i s' ∧ r i = (self.issues (Setup.acting s.1 ev) net i s').1) ∨
    ((∀ s', ¬ self.Begins net s ev i s') ∧ ∃ e, r i = .error e)

/-- With these answers the agent does the same in this event, call by call. -/
def InStepWith (self : OnlineSetup K) (net : Machine → Handler Exc (caSig K) τ) (s : Agent × τ)
    (ev : AgentEvent) (r : ℕ → Except Exc (Text × Text)) : Prop :=
  InStep (self.atOnce (Setup.acting s.1 ev) ev.env net) (self.agent (ev.env.told r))
    (fun s a => s.1 = a) (self.steps (Setup.task s.1 ev)) (Setup.begun s.1 ev, s.2)
    (Setup.begun s.1 ev)

/-- **One event.** It follows some answers that foretell how its issuances end. -/
theorem exists_foretells (self : OnlineSetup K) (net : Machine → Handler Exc (caSig K) τ)
    (s : Agent × τ) (ev : AgentEvent) :
    ∃ r, self.Foretells net s ev r ∧ self.InStepWith net s ev r := by
  have hstep : ∀ o (st : Agent × τ) (r : ℕ → Except Exc (Text × Text)),
      (∀ i, AgentOp.issued o = some i →
        r i = (self.issues (Setup.acting s.1 ev) net ((AgentOp.issued o).getD 0) st).1) →
      self.agent (ev.env.told r) o st.1 =
        ((self.atOnce (Setup.acting s.1 ev) ev.env net o st).1,
          (self.atOnce (Setup.acting s.1 ev) ev.env net o st).2.1) := by
    intro o st r hr
    cases ho : o.issued with
    | none => rw [Setup.agent_told ho, atOnce_of_not_issued ho]
    | some i =>
      obtain rfl := AgentOp.eq_of_issued ho
      have hr' : r i = (self.issues (Setup.acting s.1 ev) net i st).1 := hr i rfl
      rw [atOnce_obtain, ← hr']
      rfl
  obtain ⟨r, hin, hasked, hother⟩ := (Setup.asks_steps (Setup.asks_task s.1 ev)).foretold
    (h := self.atOnce (Setup.acting s.1 ev) ev.env net) hstep (fun _ => .error ⟨.other, ""⟩)
    (Setup.begun s.1 ev, s.2)
  refine ⟨r, fun i => ?_, hin⟩
  by_cases hi : i ∈ (trace (self.atOnce (Setup.acting s.1 ev) ev.env net)
      (self.steps (Setup.task s.1 ev)) (Setup.begun s.1 ev, s.2)).filterMap AgentOp.issued
  · obtain ⟨n, o, st, hat, ho, hr⟩ := hasked i hi
    obtain rfl := AgentOp.eq_of_issued ho
    exact .inl ⟨st, ⟨n, hat⟩, hr⟩
  · refine .inr ⟨fun st hst => hi ?_, _, hother i hi⟩
    obtain ⟨n, hat⟩ := hst
    exact List.mem_filterMap.mpr ⟨_, hat.mem_trace, rfl⟩

variable {r : ℕ → Except Exc (Text × Text)}

/-- The agent after an event, and its calls. -/
theorem after_eq (hin : self.InStepWith net s ev r) :
    (self.after net s ev).1 = self.toSetup.after s.1 (ev.told r) ∧
      self.callsOf net s ev = self.toSetup.callsOf s.1 (ev.told r) := by
  refine ⟨?_, ?_⟩
  · rw [after, task, eval_translate, Setup.after, Setup.task_told, Setup.begun_told, Setup.env_told]
    exact hin.eval.2
  · have hcalls : ∀ o (st : Agent × τ),
        (trace (self.web ev.env net) (self.goOnline (Setup.acting s.1 ev) o) st).filterMap
          (fun | .agent o => some o | .ca _ _ => none) = (AgentOp.offline o).toList := by
      intro o st
      cases ho : o.issued with
      | none =>
        have hoff : AgentOp.offline o = some o := by
          cases o with
          | service o => rfl
          | flow i o => cases o <;> first | rfl | cases ho
        rw [goOnline_of_not_issued ho, trace_perform, hoff]
        rfl
      | some i =>
        obtain rfl := AgentOp.eq_of_issued ho
        exact trace_askCa _ i st
    rw [callsOf, task, filterMap_trace_translate hcalls, Setup.callsOf, Setup.task_told,
      Setup.begun_told, Setup.env_told]
    exact congrArg (List.filterMap AgentOp.offline) hin.trace

/-- The states that the agent passes through in an event. -/
theorem always_after (hin : self.InStepWith net s ev r) :
    Always (self.web ev.env net) (fun s' => ∃ n, s'.1 =
      (exec (self.agent (ev.env.told r)) n (self.steps (Setup.task s.1 ev)) (Setup.begun s.1 ev)).2)
        (self.task s.1 ev) (Setup.begun s.1 ev, s.2) := by
  refine InStep.always_translate hin fun o st => ?_
  cases ho : o.issued with
  | none =>
    rw [goOnline_of_not_issued ho]
    refine (always_perform (S := webSig K) (WebOp.agent o) st).mpr ⟨.inl rfl, .inr ?_⟩
    have hcall : self.atOnce (Setup.acting s.1 ev) ev.env net o st =
        ((self.agent ev.env o st.1).1, (self.agent ev.env o st.1).2, st.2) :=
      atOnce_of_not_issued ho
    rw [atOnce] at hcall
    rw [hcall]
    rfl
  | some i =>
    obtain rfl := AgentOp.eq_of_issued ho
    exact (always_askCa _ i st.1 st.2).mono fun _ h => .inl h

/-- The same history, with issuances that end as they have ended. -/
def ForetellsAll (self : OnlineSetup K) (net : Machine → Handler Exc (caSig K) τ) :
    Agent × τ → List AgentEvent → List AgentEvent → Prop
  | _, [], told => told = []
  | s, ev :: hist, told => ∃ r rest, told = ev.told r :: rest ∧ self.Foretells net s ev r ∧
    ForetellsAll self net (self.after net s ev) hist rest

/-- **With the network.** Over every history, and whatever the network remembers and answers, there are
issuances that could have been known beforehand, namely those that there were, with which the agent
makes the same calls in the same order, is in the same state at the end, and at every moment, also in
the middle of an issuance, is in one of the states it passes through. -/
theorem as_foretold (self : OnlineSetup K) (net : Machine → Handler Exc (caSig K) τ) (s : Agent × τ)
    (hist : List AgentEvent) :
    ∃ told, self.ForetellsAll net s hist told ∧
      (self.afterAll net s hist).1 = self.toSetup.afterAll s.1 told ∧
      self.callsOfAll net s hist = self.toSetup.callsOfAll s.1 told ∧
      ∀ s', self.Passes net s hist s' → self.toSetup.Passes s.1 told s'.1 := by
  induction hist generalizing s with
  | nil =>
    refine ⟨[], rfl, rfl, rfl, fun s' hs' => ?_⟩
    obtain ⟨hist₁, ev, hist₂, n, hnil, -⟩ := hs'
    simp at hnil
  | cons ev hist ih =>
    obtain ⟨r, hr, hin⟩ := self.exists_foretells net s ev
    obtain ⟨hafter, hcalls⟩ := after_eq hin
    obtain ⟨told, htold, hend, hrest, hpasses⟩ := ih (self.after net s ev)
    rw [hafter] at hend hrest hpasses
    refine ⟨ev.told r :: told, ⟨r, told, rfl, hr, htold⟩, hend, ?_, fun s' hs' => ?_⟩
    · rw [callsOfAll, Setup.callsOfAll, hcalls, hrest]
    · obtain ⟨hist₁, ev', hist₂, n, hhist, rfl⟩ := hs'
      cases hist₁ with
      | nil =>
        obtain ⟨rfl, -⟩ := List.cons.inj hhist
        obtain ⟨m, hm⟩ := (always_after hin).exec n
        refine ⟨[], ev.told r, told, m, rfl, hm.trans ?_⟩
        rw [Setup.env_told]
        simp only [Setup.afterAll, List.foldl_nil, Setup.task_told, Setup.begun_told]
      | cons ev₁ hist₁ =>
        obtain ⟨rfl, rfl⟩ := List.cons.inj hhist
        exact (hpasses _ ⟨hist₁, ev', hist₂, n, rfl, rfl⟩).cons

end OnlineSetup

end NextepAgent
