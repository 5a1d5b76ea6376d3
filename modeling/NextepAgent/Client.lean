import NextepAgent.Effect.Expansion
import NextepAgent.Reports
import NextepAgent.RoundTrip
import Mathlib.Data.List.DropRight

/-!
# The clients of smallhelp

The configuration is pulled from smallhelp, and reports go there, both over TLS with client
certificates. A client is made for every request: it builds a context, which verifies the server
against the configured root and presents the certificate of the machine, and makes one request with
it.

For the service, pulling, making a report client and reporting are one step each. Here they are the
calls of `ssl` and `httpx`. So what was shown of the steps of the service can be followed down to the
wire: what is held and persisted came in a response over such a context, and what goes out is a report
that says what has happened.

`httpx` reports failures by `HTTPError`, which one of the two clients catches, so that the answer of a
request is a response or such an error. Everything else that a call may raise is raised. How long a
call may take is not modelled.

## Main definitions

* `SpogOp`, `spogSig` — the calls of `ssl` and `httpx`, beside the other steps of the service
* `buildMtlsContext`, `ConfigClient`, `ReportClient` — the clients
* `SpogSettings.wire` — how each step of the service is taken
* `SpogSettings.Received`, `SpogSettings.MayCall` — what a configuration answers for, and a request

## Main results

* `SpogSettings.keeps_pull`, `keeps_reportClient`, `keeps_report` — one client
* `SpogSettings.received_side_by_side` — every task, in every interleaving
-/

namespace NextepAgent

open Effect Program RefreshService

/-! ### Calls -/

/-- `httpx.HTTPError`: its message. -/
structure HttpError where
  msg : String
  deriving DecidableEq

/-- An `ssl.SSLContext`: what it verifies the server against, if not the trust of the system, and the
client certificate and key loaded into it. -/
structure SslContext where
  cadata : Option String
  certChain : Option (String × String)
  deriving DecidableEq

/-- A response of smallhelp. -/
structure Response where
  statusCode : ℤ
  text : String
  /-- What `raise_for_status` complains of, if it does. -/
  complaint : String

/-- `raise_for_status`: only a success passes, a redirect does not. -/
def Response.raiseForStatus (resp : Response) : Except HttpError Unit :=
  if 200 ≤ resp.statusCode ∧ resp.statusCode ≤ 299 then .ok () else .error ⟨resp.complaint⟩

/-- A value of the payload of a report. -/
inductive Payload
  | json (v : Json)
  /-- `t.isoformat() if t else None`. -/
  | isoformat (t : Option ℤ)

/-- The calls of the clients, and the other steps of the service. -/
inductive SpogOp
  | service (o : ServiceOp)
  | createDefaultContext (cadata : Option String)
  /-- `os.path.exists`. -/
  | exists (path : String)
  | loadCertChain (ctx : SslContext) (certfile keyfile : String)
  | get (verify : SslContext) (url : String)
  | post (verify : SslContext) (url : String) (json : List (String × Payload))

/-- What each returns. -/
abbrev SpogOp.Ans : SpogOp → Type
  | .service o => o.Ans
  | .createDefaultContext _ => Unit
  | .exists _ => Bool
  | .loadCertChain _ _ _ => Unit
  | .get _ _ => Except HttpError Response
  | .post _ _ _ => Except HttpError Response

/-- These calls, as a signature. -/
abbrev spogSig : Sig := ⟨SpogOp, SpogOp.Ans⟩

/-- A program of a client. -/
abbrev Spog (α : Type) : Type := Program Exc spogSig α

/-- One call. -/
def dial (o : SpogOp) : Spog o.Ans := @Program.perform Exc spogSig o

theorem uses_dial {A : (o : SpogOp) → Except Exc o.Ans → Prop} {Q : SpogOp → Prop} {o : SpogOp}
    (ho : Q o) : (dial o).Uses A Q :=
  uses_perform ho

/-! ### The context -/

/-- `_require`. -/
def require (path purpose : String) : Spog String := do
  if ← dial (.exists path) then return path
  else raise ⟨.fileNotFoundError, purpose ++ " not found: " ++ path⟩

/-- What the server is verified against: `ca_pem`, unless it is blank. -/
def cadata (caPem : Option String) : Option String := caPem.filter (· ≠ "")

/-- `build_mtls_context`. -/
def buildMtlsContext (clientCertPath clientKeyPath : String) (caPem : Option String) :
    Spog SslContext := do
  let _ ← dial (.createDefaultContext (cadata caPem))
  let ctx : SslContext := ⟨cadata caPem, none⟩
  let _ ← require clientCertPath "machine cert (mTLS client credential)"
  let _ ← require clientKeyPath "machine key (mTLS client credential)"
  let _ ← dial (.loadCertChain ctx clientCertPath clientKeyPath)
  return { ctx with certChain := some (clientCertPath, clientKeyPath) }

/-- `spog_url.rstrip('/')`. -/
def rstripSlash (url : String) : String := String.ofList (url.toList.rdropWhile (· == '/'))

/-! ### Pulling -/

/-- A `ConfigClient`. -/
structure ConfigClient where
  url : String
  ctx : SslContext

namespace ConfigClient

/-- `ConfigClient(..)`. -/
def init (spogUrl clientCertPath clientKeyPath : String) (caPem : Option String) :
    Spog ConfigClient := do
  let ctx ← buildMtlsContext clientCertPath clientKeyPath caPem
  return ⟨rstripSlash spogUrl ++ "/agent/config", ctx⟩

/-- What `pull` makes of a response. -/
def parse (py : Interpreter) (hostname : String) (resp : Response) : Except Exc AgentConfig :=
  if resp.statusCode = 404 then
    .error ⟨.lookupError, "smallhelp does not know this host (404)"⟩
  else
    match resp.raiseForStatus with
    | .error e => .error ⟨.other, e.msg⟩
    | .ok _ => AgentConfig.loads py hostname resp.text

/-- `pull`. -/
def pull (py : Interpreter) (hostname : String) (self : ConfigClient) : Spog AgentConfig := do
  match ← dial (.get self.ctx self.url) with
  | .error e => raise ⟨.other, e.msg⟩
  | .ok resp => ofExcept (parse py hostname resp)

/-- The configuration that an answer to a pull serves, if it serves one. -/
def served (py : Interpreter) (hostname : String) :
    Except Exc (Except HttpError Response) → Option AgentConfig
  | .ok (.ok resp) => (parse py hostname resp).toOption
  | _ => none

/-- A pull returns what its request is served. -/
theorem eval_pull {σ : Type} (h : Handler Exc spogSig σ) (py : Interpreter) (hostname : String)
    (self : ConfigClient) (s : σ) :
    (eval h (self.pull py hostname) s).1.toOption =
        served py hostname (h (.get self.ctx self.url) s).1 ∧
      (eval h (self.pull py hostname) s).2 = (h (.get self.ctx self.url) s).2 := by
  rw [pull, eval_bind, dial, eval_perform]
  rcases h (.get self.ctx self.url) s with ⟨ans, s'⟩
  cases ans with
  | error e => exact ⟨rfl, rfl⟩
  | ok answer =>
    cases answer with
    | error e => exact ⟨rfl, rfl⟩
    | ok resp =>
      simp only [eval_ofExcept, served]
      exact ⟨trivial, trivial⟩

end ConfigClient

/-! ### Reporting -/

/-- A `ReportClient`. -/
structure ReportClient where
  url : String
  ctx : SslContext

namespace ReportClient

/-- `ReportClient(..)`. -/
def init (spogUrl clientCertPath clientKeyPath : String) (caPem : Option String) :
    Spog ReportClient := do
  let ctx ← buildMtlsContext clientCertPath clientKeyPath caPem
  return ⟨rstripSlash spogUrl ++ "/agent/report", ctx⟩

/-- The payload of a report. -/
def payload (r : Report) : List (String × Payload) :=
  [("host", .json r.host), ("flow_type", .json (.str r.flowType)), ("status", .json (.str r.status)),
    ("not_before", .isoformat r.notBefore), ("not_after", .isoformat r.notAfter),
    ("next_scheduled_run", .isoformat r.nextScheduledRun),
    ("provider", .json (r.provider.elim .null .str)), ("error", .json (r.error.elim .null .str))]

/-- `report`. An `HTTPError`, of the request or of its status, is logged and forgotten. -/
def report (self : ReportClient) (r : Report) : Spog Unit := do
  match ← dial (.post self.ctx self.url (payload r)) with
  | .error _ => return ()
  | .ok resp =>
    match resp.raiseForStatus with
    | .error _ => return ()
    | .ok _ => return ()

/-- A report ends as its request does, whatever the answer. -/
theorem eval_report {σ : Type} (h : Handler Exc spogSig σ) (self : ReportClient) (r : Report)
    (s : σ) :
    eval h (self.report r) s = ((h (.post self.ctx self.url (payload r)) s).1.map fun _ => (),
      (h (.post self.ctx self.url (payload r)) s).2) := by
  rw [report, eval_bind, dial, eval_perform]
  rcases h (.post self.ctx self.url (payload r)) s with ⟨ans, s'⟩
  cases ans with
  | error e => rfl
  | ok answer =>
    cases answer with
    | error e => rfl
    | ok resp =>
      show eval h (match resp.raiseForStatus with
        | .error _ => return ()
        | .ok _ => return ()) s' = _
      cases resp.raiseForStatus <;> rfl

end ReportClient

/-! ### The steps of the service -/

/-- What a `RefreshService` is told about smallhelp, and what `loads` needs to know of the host. -/
structure SpogSettings where
  spogUrl : String
  machineCertPath : String
  machineKeyPath : String
  smallstepRootPem : String
  hostname : String
  python : Interpreter

namespace SpogSettings

variable (self : SpogSettings)

/-- `_config_client()`. -/
def configClient : Spog ConfigClient :=
  ConfigClient.init self.spogUrl self.machineCertPath self.machineKeyPath (some self.smallstepRootPem)

/-- `_report_client()`. -/
def reportClient : Spog ReportClient :=
  ReportClient.init self.spogUrl self.machineCertPath self.machineKeyPath (some self.smallstepRootPem)

/-- The context of every client. -/
def context : SslContext :=
  ⟨cadata (some self.smallstepRootPem), some (self.machineCertPath, self.machineKeyPath)⟩

/-- Where the configuration is pulled from. -/
def configUrl : String := rstripSlash self.spogUrl ++ "/agent/config"

/-- Where reports go. -/
def reportUrl : String := rstripSlash self.spogUrl ++ "/agent/report"

/-- How each step of the service is taken. The report client that a step has made is the one that the
next step uses. -/
def wire : (o : serviceSig.Op) → Program Exc spogSig (serviceSig.Ans o)
  | .pull => do (← self.configClient).pull self.python self.hostname
  | .reportClient _ => do
    let _ ← self.reportClient
    return ()
  | .report _ r => ReportClient.report ⟨self.reportUrl, self.context⟩ r
  | o => dial (.service o)

/-! ### What may be said on the wire -/

/-- The calls so far, with what they came back with. -/
abbrev Calls : Type := List (Exchange Exc spogSig)

/-- The context has been built: both files of the machine were there, and they have been loaded. -/
structure Built (spog : SpogSettings) (log : Calls) : Prop where
  created : Answered log (.createDefaultContext spog.context.cadata) ()
  cert : Answered log (.exists spog.machineCertPath) true
  key : Answered log (.exists spog.machineKeyPath) true
  loaded : Answered log
    (.loadCertChain ⟨spog.context.cadata, none⟩ spog.machineCertPath spog.machineKeyPath) ()

/-- The configuration has come in a successful response of smallhelp, over such a context. -/
structure Received (spog : SpogSettings) (log : Calls) (cfg : AgentConfig) : Prop where
  built : spog.Built log
  response : ∃ resp, Answered log (.get spog.context spog.configUrl) (.ok resp) ∧
    200 ≤ resp.statusCode ∧ resp.statusCode ≤ 299 ∧
    AgentConfig.loads spog.python spog.hostname resp.text = .ok cfg

/-- The calls of a task, after those before. The steps that these calls have taken justify the next
one, and a report that goes out is one that says what has happened in them. -/
def MayCall (log : Calls) : SpogOp → Prop
  | .service o => (∃ steps, Expands self.wire steps log ∧ RefreshService.MayTake steps o) ∧
    ∀ cfg, o = .setConfig cfg ∨ o = .writeConfig cfg → self.Received log cfg
  | .loadCertChain _ certfile keyfile =>
    certfile = self.machineCertPath ∧ keyfile = self.machineKeyPath
  | .get verify url => verify = self.context ∧ url = self.configUrl ∧ self.Built log
  | .post verify url json => verify = self.context ∧ url = self.reportUrl ∧ self.Built log ∧
    ∃ steps i r, Expands self.wire steps log ∧ RefreshService.Honest steps i r ∧
      json = ReportClient.payload r
  | _ => True

variable {self} {log log' : Calls} {cfg : AgentConfig}

theorem Built.mono (h : self.Built log) (hmore : log <+: log') : self.Built log' where
  created := h.created.mono hmore
  cert := h.cert.mono hmore
  key := h.key.mono hmore
  loaded := h.loaded.mono hmore

theorem Received.mono (h : self.Received log cfg) (hmore : log <+: log') :
    self.Received log' cfg where
  built := h.built.mono hmore
  response :=
    let ⟨resp, hget, hrest⟩ := h.response
    ⟨resp, hget.mono hmore, hrest⟩

/-! ### One client -/

theorem keeps_require (path purpose : String) :
    (require path purpose).Keeps self.MayCall
      (fun l r => log <+: l ∧ (r.isOk = true → Answered l (.exists path) true)) log := by
  refine keeps_perform_bind trivial (fun there => ?_) fun e =>
    ⟨List.prefix_append .., fun h => by cases h⟩
  cases there with
  | false => exact ⟨List.prefix_append .., fun h => by cases h⟩
  | true => exact ⟨List.prefix_append .., fun _ => answered_last log (SpogOp.exists path) true⟩

/-- A context that is built is the one every client uses. -/
theorem keeps_buildMtlsContext :
    (buildMtlsContext self.machineCertPath self.machineKeyPath (some self.smallstepRootPem)).Keeps
      self.MayCall (fun l r => ∀ ctx, r = .ok ctx → ctx = self.context ∧ self.Built l) log := by
  have hfail : ∀ (l : Calls) (e : Exc), ∀ ctx, (.error e : Except Exc SslContext) = .ok ctx →
      ctx = self.context ∧ self.Built l := fun _ _ _ h => by cases h
  refine keeps_perform_bind trivial (fun _ => ?_) fun e => hfail _ e
  have hcreated := answered_last log
    (SpogOp.createDefaultContext (cadata (some self.smallstepRootPem))) ()
  refine (keeps_require _ _).bind (fun log₁ _ h₁ => ?_) fun _ e _ => hfail _ e
  obtain ⟨hmore₁, hcert⟩ := h₁
  refine (keeps_require _ _).bind (fun log₂ _ h₂ => ?_) fun _ e _ => hfail _ e
  obtain ⟨hmore₂, hkey⟩ := h₂
  refine keeps_perform_bind ⟨rfl, rfl⟩ (fun _ => ?_) fun e => hfail _ e
  have hmore₃ := List.prefix_append log₂ [⟨SpogOp.loadCertChain
    ⟨cadata (some self.smallstepRootPem), none⟩ self.machineCertPath self.machineKeyPath, .ok ()⟩]
  rintro ctx ⟨⟩
  exact ⟨rfl,
    { created := ((hcreated.mono hmore₁).mono hmore₂).mono hmore₃
      cert := ((hcert rfl).mono hmore₂).mono hmore₃
      key := (hkey rfl).mono hmore₃
      loaded := answered_last log₂ (SpogOp.loadCertChain
        ⟨cadata (some self.smallstepRootPem), none⟩ self.machineCertPath self.machineKeyPath) () }⟩

theorem parse_eq_ok {resp : Response}
    (h : ConfigClient.parse self.python self.hostname resp = .ok cfg) :
    200 ≤ resp.statusCode ∧ resp.statusCode ≤ 299 ∧
      AgentConfig.loads self.python self.hostname resp.text = .ok cfg := by
  rw [ConfigClient.parse, Response.raiseForStatus] at h
  split at h
  · cases h
  · by_cases hstatus : 200 ≤ resp.statusCode ∧ resp.statusCode ≤ 299
    · rw [if_pos hstatus] at h
      exact ⟨hstatus.1, hstatus.2, h⟩
    · rw [if_neg hstatus] at h
      cases h

/-- **A pull** asks once, over the context it has built, and returns what has come. -/
theorem keeps_pull :
    (self.wire .pull).Keeps self.MayCall (fun l r => ∀ cfg, r = .ok cfg → self.Received l cfg) log := by
  have hfail : ∀ (l : Calls) (e : Exc), ∀ cfg, (.error e : Except Exc AgentConfig) = .ok cfg →
      self.Received l cfg := fun _ _ _ h => by cases h
  have hclient : self.configClient.Keeps self.MayCall
      (fun l r => ∀ client, r = .ok client →
        client = ⟨self.configUrl, self.context⟩ ∧ self.Built l) log := by
    refine keeps_buildMtlsContext.bind (fun log₁ ctx h => ?_) fun _ e _ _ h => by cases h
    obtain ⟨rfl, hbuilt⟩ := h ctx rfl
    rintro client ⟨⟩
    exact ⟨rfl, hbuilt⟩
  refine hclient.bind (fun log₁ client h => ?_) fun _ e _ => hfail _ e
  obtain ⟨rfl, hbuilt⟩ := h client rfl
  refine keeps_perform_bind ⟨rfl, rfl, hbuilt⟩ (fun answer => ?_) fun e => hfail _ e
  cases answer with
  | error e => exact hfail _ _
  | ok resp =>
    refine keeps_ofExcept fun cfg hparse => ?_
    exact
      { built := hbuilt.mono (List.prefix_append ..)
        response := ⟨resp, answered_last log₁ (SpogOp.get self.context self.configUrl) (.ok resp),
          parse_eq_ok hparse⟩ }

theorem keeps_reportClient (i : ℕ) :
    (self.wire (.reportClient i)).Keeps self.MayCall (fun l r => r = .ok () → self.Built l) log := by
  have hclient : self.reportClient.Keeps self.MayCall
      (fun l r => ∀ client, r = .ok client → self.Built l) log :=
    keeps_buildMtlsContext.bind (fun log₁ ctx h _ _ => (h ctx rfl).2) fun _ e _ _ h => by cases h
  exact hclient.bind (fun log₁ client h _ => h client rfl) fun _ e _ h => by cases h

theorem keeps_report {steps : Steps} {i : ℕ} {r : Report} (hbuilt : self.Built log)
    (hsteps : Expands self.wire steps log) (hr : RefreshService.Honest steps i r) :
    (self.wire (.report i r)).Keeps self.MayCall (fun _ _ => True) log := by
  refine keeps_perform_bind ⟨rfl, rfl, hbuilt, steps, i, r, hsteps, hr, rfl⟩ (fun answer => ?_)
    fun e => trivial
  cases answer with
  | error e => trivial
  | ok resp =>
    dsimp only
    split <;> trivial

/-! ### Report clients -/

/-- A report follows the making of its client. -/
def Announced (log : Steps) (o : ServiceOp) : Prop :=
  ∀ i r, o = .report i r → Answered log (.reportClient i) ()

/-- Steps that are not reports. -/
def Unsent (o : ServiceOp) : Prop := ∀ i r, o ≠ .report i r

section Announced

variable {steps : Steps} {flow : FlowConfig} {i : ℕ}

theorem keeps_of_unsent {α : Type} {p : Service α} (hp : p.Uses (fun _ _ => True) Unsent) :
    p.Keeps Announced (fun _ _ => True) steps :=
  hp.keeps fun _ _ ho i r h => absurd h (ho i r)

theorem announced_sendReport (r : Report) :
    (sendReport i r).Keeps Announced (fun _ _ => True) steps := by
  refine keeps_perform_bind (fun _ _ h => by cases h) (fun _ => ?_) fun _ => trivial
  refine ⟨fun j r' h => ?_, fun _ => keeps_ofExcept trivial⟩
  cases h
  exact answered_last steps (ServiceOp.reportClient i) ()

theorem announced_runOneFlow :
    (runOneFlow cfg i flow).Keeps Announced (fun _ _ => True) steps := by
  have hattempt : (attempt i flow).Uses (fun _ _ => True) Unsent := by
    refine Uses.tryCatch ?_ fun e => trivial
    exact (uses_act (by simp [Unsent])).bind fun _ =>
      (uses_act (by simp [Unsent])).bind fun _ => trivial
  have hschedule : ∀ id, (RenewalScheduler.scheduleFlowDaily id flow.slot i).Uses
      (fun _ _ => True) Unsent := fun id =>
    (uses_ofExcept _).bind fun time => (uses_act (by simp [Unsent])).bind fun trigger =>
      uses_act (by simp [Unsent])
  have hnext : ∀ id, (RenewalScheduler.nextRunFor id).Uses (fun _ _ => True) Unsent := fun id =>
    (uses_act (by simp [Unsent])).bind fun job => trivial
  have hset : ∀ id t, (act (.setNextRun id t)).Uses (fun _ _ => True) Unsent := fun id t =>
    uses_act (by simp [Unsent])
  refine (keeps_of_unsent hattempt).bind (fun _ ended _ => ?_) fun _ _ _ => trivial
  cases ended with
  | error e => exact announced_sendReport _
  | ok result =>
    refine (keeps_of_unsent (hschedule _)).bind (fun _ _ _ => ?_) fun _ _ _ => trivial
    refine (keeps_of_unsent (hnext _)).bind (fun _ nextRun _ => ?_) fun _ _ _ => trivial
    refine (keeps_of_unsent (hset _ _)).bind (fun _ _ _ => ?_) fun _ _ _ => trivial
    exact announced_sendReport _

theorem announced_refresh : refresh.Keeps Announced (fun _ _ => True) steps := by
  have hpull : (act .pull).Uses (fun _ _ => True) Unsent := uses_act (by simp [Unsent])
  have hset : ∀ cfg, (act (.setConfig cfg)).Uses (fun _ _ => True) Unsent := fun cfg =>
    uses_act (by simp [Unsent])
  have hpersist : ∀ cfg, (persist cfg).Uses (fun _ _ => True) Unsent := by
    intro cfg
    exact uses_persist_of (by simp [Unsent]) fun _ => by simp [Unsent]
  have hflows : ∀ cfg i flows steps,
      (runFlows cfg i flows).Keeps Announced (fun _ _ => True) steps := by
    intro cfg i flows
    induction flows generalizing i with
    | nil => exact fun steps => trivial
    | cons flow flows ih =>
      exact fun steps => announced_runOneFlow.bind (fun _ _ _ => ih (i + 1) _) fun _ _ _ => trivial
  refine (keeps_of_unsent hpull).bind (fun _ cfg _ => ?_) fun _ _ _ => trivial
  refine (keeps_of_unsent (hset cfg)).bind (fun _ _ _ => ?_) fun _ _ _ => trivial
  refine (keeps_of_unsent (hpersist cfg)).bind (fun _ _ _ => ?_) fun _ _ _ => trivial
  exact (hflows cfg 0 cfg.flows _).bind (fun _ _ _ => trivial) fun _ _ _ => trivial

theorem announced_task (task : Task) :
    task.steps.Keeps Announced (fun _ _ => True) steps := by
  have hforget : ∀ steps, (do
      let _ ← refresh
      return () : Service Unit).Keeps Announced (fun _ _ => True) steps := fun steps =>
    announced_refresh.bind (fun _ _ _ => trivial) fun _ _ _ => trivial
  cases task with
  | refresh => exact hforget _
  | renewOne index =>
    refine keeps_perform_bind (fun _ _ h => by cases h) (fun held => ?_) fun _ => trivial
    cases held with
    | none => exact hforget _
    | some cfg =>
      dsimp only
      cases cfg.flows[index]? with
      | none => exact hforget _
      | some flow => exact announced_runOneFlow

end Announced

/-! ### Every task -/

/-- The calls of a task on the wire, while the steps it takes are justified. -/
theorem may_of_lower {o : SpogOp}
    (h : Lower self.wire (fun log o => RefreshService.MayTake log o ∧ Announced log o) log o) :
    self.MayCall log o := by
  obtain ⟨steps, step, log', d, hsteps, ⟨hmay, hannounced⟩, rfl, hnext⟩ := h
  -- a configuration that was pulled before
  have hreceived : ∀ cfg, Answered steps .pull cfg → self.Received log' cfg := by
    intro cfg hpull
    obtain ⟨l₁, d', l₂, rfl, hspeaks⟩ := hsteps.exists_of_mem hpull
    have hkeeps : (self.wire .pull).Keeps self.MayCall
      (fun l r => ∀ cfg, r = .ok cfg → self.Received l cfg) l₁ := keeps_pull
    exact (hkeeps.speaks hspeaks cfg rfl).mono (List.prefix_append ..)
  cases step with
  | pull => exact keeps_pull.next hnext
  | reportClient i => exact (keeps_reportClient i).next hnext
  | report i r =>
    obtain ⟨l₁, d', l₂, rfl, hspeaks⟩ := hsteps.exists_of_mem (hannounced i r rfl)
    have hkeeps : (self.wire (.reportClient i)).Keeps self.MayCall
      (fun l r => r = .ok () → self.Built l) l₁ := keeps_reportClient i
    have hbuilt : self.Built (l₁ ++ d' ++ l₂) :=
      (hkeeps.speaks hspeaks rfl).mono (List.prefix_append ..)
    exact (keeps_report hbuilt hsteps hmay.2).next hnext
  | setConfig cfg =>
    obtain ⟨rfl, rfl⟩ := next_perform hnext
    rw [List.append_nil]
    refine ⟨⟨steps, hsteps, hmay⟩, fun cfg' h => ?_⟩
    rcases h with h | h <;> cases h
    exact hreceived cfg hmay
  | writeConfig cfg =>
    obtain ⟨rfl, rfl⟩ := next_perform hnext
    rw [List.append_nil]
    refine ⟨⟨steps, hsteps, hmay⟩, fun cfg' h => ?_⟩
    rcases h with h | h <;> cases h
    exact hreceived cfg hmay.1
  | _ =>
    obtain ⟨rfl, rfl⟩ := next_perform hnext
    rw [List.append_nil]
    exact ⟨⟨steps, hsteps, hmay⟩, fun cfg h => by rcases h with h | h <;> cases h⟩

/-- **Down to the wire.** However refreshes and firings overlap, and whatever their calls come back
with: what is held or persisted has come in a successful response of smallhelp, every request goes out
over a context that verifies the configured root and presents the certificate of the machine, which
were loaded for it, and every report says what has happened. -/
theorem received_side_by_side {ι σ : Type} [DecidableEq ι] (self : SpogSettings) (tasks : ι → Task)
    (h : ι → Handler Exc spogSig σ) (s : σ) (sched : List ι) :
    let P : Pool Exc spogSig Unit ι σ := ⟨fun i => (tasks i).steps.translate self.wire, s⟩
    ∀ t i x t', Pool.transcript h P sched = t ++ (i, x) :: t' → self.MayCall (own i t) x.op := by
  intro P t i x t' hsplit
  have hkeeping : Pool.Keeping
      (fun _ => Lower self.wire fun log o => RefreshService.MayTake log o ∧ Announced log o)
      (fun i l r => ∃ steps, Expands self.wire steps l ∧
        ((r.isOk = true → owed steps = [] ∧ (tasks i).Complete steps) ∧ True)) [] P :=
    fun i => ((keeps_task (tasks i)).and (announced_task (tasks i))).translate .nil
  exact may_of_lower (hkeeping.transcript hsplit)

/-- The settings of the tests. -/
def demoSpog : SpogSettings where
  spogUrl := "https://sh.example.com/"
  machineCertPath := "/etc/ssl/certs/machine.pem"
  machineKeyPath := "/etc/ssl/private/machine.key"
  smallstepRootPem := "ROOT"
  hostname := "localhost"
  python := demoPython

/-- A configuration with one flow. -/
def servedConfig : AgentConfig := slottedConfig [("app", .int 6)]

/-- What smallhelp serves it as. -/
def servedText : String := servedConfig.text demoPython

theorem parse_servedText :
    ConfigClient.parse demoPython "localhost" ⟨200, servedText, ""⟩ = .ok servedConfig := by
  have hplain : (slottedRaw [("app", .int 6)]).Plain := plain_slottedRaw (by simp [Json.Plain.int])
  have hdecoded : AgentConfig.fromDict "localhost" (slottedRaw [("app", .int 6)]) =
      .ok servedConfig := by decide
  have hwritten : servedConfig.dumps demoPython = .ok servedText :=
    AgentConfig.dumps_eq_ok.mpr ⟨by decide, by decide, rfl⟩
  have hloads : AgentConfig.loads demoPython "localhost" servedText = .ok servedConfig :=
    (AgentConfig.loads_of_dumps (by decide) hplain hdecoded hwritten).1
  have hstatus : (⟨200, servedText, ""⟩ : Response).raiseForStatus = .ok () := if_pos (by decide)
  rw [ConfigClient.parse, if_neg (by decide), hstatus]
  exact hloads

/-- The files are there, smallhelp answers a pull with `text`, and the flow is issued a certificate. -/
def demoHelp (text : String) : Handler Exc spogSig ServiceState
  | .service o, s => service (demoServiceEnv servedConfig) o s
  | .createDefaultContext _, s => (.ok (), s)
  | .exists _, s => (.ok true, s)
  | .loadCertChain _ _ _, s => (.ok (), s)
  | .get _ _, s => (.ok (.ok ⟨200, text, ""⟩), s)
  | .post _ _ _, s => (.ok (.ok ⟨200, "", ""⟩), s)

/-- A refresh. -/
def demoStart : Pool Exc spogSig Unit Unit ServiceState :=
  ⟨fun _ => Task.refresh.steps.translate demoSpog.wire, .init none⟩

/-- What is left of a refresh once the pull has ended. -/
def afterPull (r : Except Exc AgentConfig) : Spog Unit :=
  (ofExcept r).resume fun r => (ofExcept r >>= (fun cfg => (do
      act (.setConfig cfg)
      persist cfg
      runFlows cfg 0 cfg.flows
      return cfg : Service AgentConfig)) >>= fun _ => return ()).translate demoSpog.wire

/-- The refresh at that point. -/
def demoPulled (r : Except Exc AgentConfig) : Pool Exc spogSig Unit Unit ServiceState :=
  ⟨fun _ => afterPull r, .init none⟩

theorem demoPulled_eq (text : String) :
    Pool.run (fun _ => demoHelp text) demoStart (List.replicate 5 ()) =
      demoPulled (ConfigClient.parse demoPython "localhost" ⟨200, text, ""⟩) := rfl

/-- The calls up to the report. -/
def demoCalls : Calls :=
  own () (Pool.transcript (fun _ => demoHelp servedText) demoStart
    (List.replicate 5 () ++ List.replicate 15 ()))

/-- The report. -/
def demoReport : Report :=
  issuedReport servedConfig (slottedFlow ("app", .int 6))
    ⟨"internal", 100 * day, 200 * day, ["app"], true⟩ (some (151 * day))

theorem received_side_by_side_demo :
    demoSpog.Built demoCalls ∧ ∃ steps i r, Expands demoSpog.wire steps demoCalls ∧
      RefreshService.Honest steps i r ∧ ReportClient.payload demoReport = ReportClient.payload r := by
  have hpulled : Pool.run (fun _ => demoHelp servedText) demoStart (List.replicate 5 ()) =
      demoPulled (.ok servedConfig) :=
    (demoPulled_eq servedText).trans (congrArg demoPulled parse_servedText)
  have hlast : Pool.transcript (fun _ => demoHelp servedText)
      (Pool.run (fun _ => demoHelp servedText) (demoPulled (.ok servedConfig))
        (List.replicate 15 ())) [()] =
      [((), ⟨.post demoSpog.context demoSpog.reportUrl (ReportClient.payload demoReport),
        .ok (.ok ⟨200, "", ""⟩)⟩)] := rfl
  have h := received_side_by_side demoSpog (fun _ : Unit => .refresh) (fun _ => demoHelp servedText)
    (.init none) (List.replicate 5 () ++ List.replicate 15 () ++ [()])
    (Pool.transcript (fun _ => demoHelp servedText) demoStart
      (List.replicate 5 () ++ List.replicate 15 ())) ()
    ⟨.post demoSpog.context demoSpog.reportUrl (ReportClient.payload demoReport),
      .ok (.ok ⟨200, "", ""⟩)⟩ [] (by
        rw [← hlast, ← hpulled, ← Pool.run_append, ← Pool.transcript_append]
        rfl)
  exact h.2.2

end SpogSettings

end NextepAgent
