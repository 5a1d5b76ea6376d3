import NextepAgent.AgentFrame
import NextepAgent.Client

/-!
# What smallhelp can do to the agent

Smallhelp serves the configuration and is sent reports. The agent trusts it with the first: whatever
configuration comes is held, persisted and run. It does not depend on it for the second. A report that
is refused, redirected or lost makes no difference to what the agent does then, and neither does the
way a pull fails.

This is a statement about two runs. Two networks are compared that serve the same configurations and
let the same exceptions escape, and differ in whatever else smallhelp does. They may remember what
they were sent, and answer by it. Over every history the agent cannot tell them apart: it is in one
state with the one and with the other, with the same files, jobs and next runs.

## Main definitions

* `Setup.wired`, `Setup.afterWired` — the agent on its machine, with the calls of its clients
* `TellsAlike` — networks that serve the same

## Main results

* `TellsAlike.step` — one step of the service
* `TellsAlike.task` — one event
* `Setup.unmoved` — every history
-/

namespace NextepAgent

open Effect Program RefreshService

variable {τ τ' : Type}

/-! ### The agent and its clients -/

namespace Setup

variable (self : Setup) (spog : SpogSettings)

/-- The calls of the clients against a network, and the other steps of the service on the machine. -/
def wired (env : AgentEnv) (net : Handler Exc spogSig τ) : Handler Exc spogSig (Agent × τ)
  | .service o, x => ((self.serve env o x.1).1, ((self.serve env o x.1).2, x.2))
  | o, x => ((net o x.2).1, (x.1, (net o x.2).2))

/-- The agent, and what the network remembers, after an event. -/
def afterWired (net : Handler Exc spogSig τ) (x : Agent × τ) (ev : AgentEvent) : Agent × τ :=
  (eval (self.wired ev.env net) ((task x.1 ev).translate spog.wire) (begun x.1 ev, x.2)).2

/-- After several events. -/
def afterAllWired (net : Handler Exc spogSig τ) (x : Agent × τ) (hist : List AgentEvent) :
    Agent × τ :=
  hist.foldl (self.afterWired spog net) x

end Setup

/-! ### Networks -/

/-- The calls that build a context. -/
def SpogOp.builds : SpogOp → Prop
  | .createDefaultContext _ | .exists _ | .loadCertChain _ _ _ => True
  | _ => False

/-- The calls of the clients. -/
def SpogOp.outside : SpogOp → Prop
  | .service _ => False
  | _ => True

/-- Two networks that serve the same. What they remember of the calls so far is related by `R`. Pulls
may fail in different ways, and reports may be received in different ways, or not at all. -/
structure TellsAlike (spog : SpogSettings) (net : Handler Exc spogSig τ)
    (net' : Handler Exc spogSig τ') (R : τ → τ' → Prop) : Prop where
  builds : ∀ o t t', o.builds → R t t' → (net o t).1 = (net' o t').1 ∧ R (net o t).2 (net' o t').2
  get : ∀ verify url t t', R t t' →
    ConfigClient.served spog.python spog.hostname (net (.get verify url) t).1 =
        ConfigClient.served spog.python spog.hostname (net' (.get verify url) t').1 ∧
      R (net (.get verify url) t).2 (net' (.get verify url) t').2
  post : ∀ verify url json t t', R t t' →
    (∀ e, (net (.post verify url json) t).1 = .error e ↔
      (net' (.post verify url json) t').1 = .error e) ∧
      R (net (.post verify url json) t).2 (net' (.post verify url json) t').2

namespace TellsAlike

variable {self : Setup} {spog : SpogSettings} {net : Handler Exc spogSig τ}
  {net' : Handler Exc spogSig τ'} {R : τ → τ' → Prop} {env : AgentEnv} {x : Agent × τ}
  {x' : Agent × τ'}

/-- One agent, and networks that remember alike. -/
def Same (R : τ → τ' → Prop) (x : Agent × τ) (x' : Agent × τ') : Prop := x.1 = x'.1 ∧ R x.2 x'.2

/-- Contexts are built alike. -/
theorem alike_of_builds (h : TellsAlike spog net net' R) {α : Type} {p : Spog α}
    (hp : p.Uses (fun _ _ => True) SpogOp.builds) (hx : Same R x x') :
    Alike (self.wired env net) (self.wired env net') (Same R) p p x x' := by
  refine (hp.inStep (fun o y y' ho hy => ?_) hx).eval
  have hnet := h.builds o y.2 y'.2 ho hy.2
  cases o with
  | service o => exact ho.elim
  | get verify url => exact ho.elim
  | post verify url json => exact ho.elim
  | _ => exact ⟨trivial, hnet.1, hy.1, hnet.2⟩

theorem builds_context (cert key : String) (caPem : Option String) :
    (buildMtlsContext cert key caPem).Uses (fun _ _ => True) SpogOp.builds := by
  have hrequire : ∀ path purpose,
      (require path purpose).Uses (fun _ _ => True) SpogOp.builds := by
    intro path purpose
    refine (uses_dial trivial).bind fun there => ?_
    split <;> trivial
  refine (uses_dial trivial).bind fun _ => ?_
  refine (hrequire _ _).bind fun _ => (hrequire _ _).bind fun _ => ?_
  exact (uses_dial trivial).bind fun _ => trivial

/-- A report ends alike, received or not. -/
theorem alike_report (h : TellsAlike spog net net' R) (hx : Same R x x') (client : ReportClient)
    (r : Report) :
    Alike (self.wired env net) (self.wired env net') (Same R) (client.report r) (client.report r)
      x x' := by
  obtain ⟨hraised, hR⟩ := h.post client.ctx client.url (ReportClient.payload r) x.2 x'.2 hx.2
  rw [Alike, ReportClient.eval_report, ReportClient.eval_report]
  refine ⟨?_, hx.1, hR⟩
  simp only [Setup.wired]
  cases hans : (net (.post client.ctx client.url (ReportClient.payload r)) x.2).1 with
  | error e => rw [(hraised e).mp hans]
  | ok answer =>
    cases hans' : (net' (.post client.ctx client.url (ReportClient.payload r)) x'.2).1 with
    | error e => rw [(hraised e).mpr hans'] at hans; cases hans
    | ok answer' => rfl

/-- A pull serves the same. -/
theorem same_pull (h : TellsAlike spog net net' R) (hx : Same R x x') :
    (eval (self.wired env net) (spog.wire .pull) x).1.toOption =
        (eval (self.wired env net') (spog.wire .pull) x').1.toOption ∧
      Same R (eval (self.wired env net) (spog.wire .pull) x).2
        (eval (self.wired env net') (spog.wire .pull) x').2 := by
  have hclient : Alike (self.wired env net) (self.wired env net') (Same R) spog.configClient
      spog.configClient x x' :=
    h.alike_of_builds ((builds_context _ _ _).bind fun _ => trivial) hx
  obtain ⟨hans, hsame⟩ := hclient
  rw [SpogSettings.wire, eval_bind, eval_bind]
  rcases hrun : eval (self.wired env net) spog.configClient x with ⟨r, y⟩
  rcases hrun' : eval (self.wired env net') spog.configClient x' with ⟨r', y'⟩
  rw [hrun, hrun'] at hans hsame
  obtain rfl : r = r' := hans
  cases r with
  | error e => exact ⟨rfl, hsame⟩
  | ok client =>
    obtain ⟨hserved, hR⟩ := h.get client.ctx client.url y.2 y'.2 hsame.2
    obtain ⟨hres, hstate⟩ := ConfigClient.eval_pull (self.wired env net) spog.python spog.hostname
      client y
    obtain ⟨hres', hstate'⟩ := ConfigClient.eval_pull (self.wired env net') spog.python spog.hostname
      client y'
    refine ⟨(hres.trans hserved).trans hres'.symm, ?_⟩
    show Same R (eval (self.wired env net) (client.pull spog.python spog.hostname) y).2
      (eval (self.wired env net') (client.pull spog.python spog.hostname) y').2
    rw [hstate, hstate']
    exact ⟨hsame.1, hR⟩

/-- Every other step ends alike. -/
theorem step (h : TellsAlike spog net net' R) (hx : Same R x x') {o : ServiceOp} (ho : o ≠ .pull) :
    Alike (self.wired env net) (self.wired env net') (Same R) (spog.wire o) (spog.wire o) x x' := by
  have hservice : ∀ o, Alike (self.wired env net) (self.wired env net') (Same R)
      (dial (.service o)) (dial (.service o)) x x' := by
    intro o
    rw [Alike, dial, eval_perform, eval_perform]
    simp only [Setup.wired]
    rw [hx.1]
    exact ⟨rfl, rfl, hx.2⟩
  cases o with
  | pull => exact absurd rfl ho
  | reportClient i =>
    refine h.alike_of_builds ?_ hx
    have hclient : spog.reportClient.Uses (fun _ _ => True) SpogOp.builds :=
      (builds_context _ _ _).bind fun _ => trivial
    exact hclient.bind fun _ => trivial
  | report i r => exact h.alike_report hx _ r
  | _ => exact hservice _

/-! ### Events -/

/-- The steps of the service, against one of the networks, each in one go. -/
abbrev served (self : Setup) (spog : SpogSettings) (env : AgentEnv) (net : Handler Exc spogSig τ) :
    Handler Exc serviceSig (Agent × τ) :=
  implement spog.wire (self.wired env net)

/-- Steps that do not pull. -/
def NoPull (o : ServiceOp) : Prop := o ≠ .pull

/-- A program that does not pull. -/
theorem program (h : TellsAlike spog net net' R) {α : Type} {p : Service α}
    (hp : p.Uses (fun _ _ => True) NoPull) (hx : Same R x x') :
    Alike (served self spog env net) (served self spog env net') (Same R) p p x x' := by
  have hstep : ∀ o y y', NoPull o → Same R y y' →
      True ∧ (served self spog env net o y).1 = (served self spog env net' o y').1 ∧
        Same R (served self spog env net o y).2 (served self spog env net' o y').2 :=
    fun o y y' ho hy => ⟨trivial, h.step hy ho⟩
  exact (hp.inStep hstep hx).eval

theorem noPull_runOneFlow (cfg : AgentConfig) (i : ℕ) (flow : FlowConfig) :
    (runOneFlow cfg i flow).Uses (fun _ _ => True) NoPull := by
  refine (uses_runOneFlow cfg i flow).mono (fun _ _ h => h) fun o ho => ?_
  rintro rfl
  cases ho

/-- A refresh holds, persists and runs the same, or does none of it. -/
theorem refresh (h : TellsAlike spog net net' R) (hx : Same R x x') :
    Same R (eval (served self spog env net) RefreshService.refresh x).2
      (eval (served self spog env net') RefreshService.refresh x').2 := by
  have hrest : ∀ cfg : AgentConfig, (act (.setConfig cfg) >>= fun _ => persist cfg >>= fun _ =>
      runFlows cfg 0 cfg.flows >>= fun _ => (return cfg)).Uses (fun _ _ => True) NoPull := by
    intro cfg
    refine (uses_act (by simp [NoPull])).bind fun _ => Uses.bind ?_ fun _ => Uses.bind ?_ fun _ => trivial
    · exact uses_persist_of (by simp [NoPull]) fun _ => by simp [NoPull]
    · refine Setup.uses_runFlows_of_mem cfg 0 fun i flow _ o ho => ?_
      rintro rfl
      cases ho
  have hpull : _ ∧ Same R (eval (self.wired env net) (spog.wire .pull) x).2 _ := h.same_pull hx
  rw [RefreshService.refresh, eval_bind, eval_bind, eval_act, eval_act]
  simp only [served, implement]
  rcases hrun : eval (self.wired env net) (spog.wire .pull) x with ⟨r, y⟩
  rcases hrun' : eval (self.wired env net') (spog.wire .pull) x' with ⟨r', y'⟩
  rw [hrun, hrun'] at hpull
  obtain ⟨hserved, hsame⟩ := hpull
  cases r with
  | error e =>
    cases r' with
    | error e' => exact hsame
    | ok cfg => cases hserved
  | ok cfg =>
    cases r' with
    | error e' => cases hserved
    | ok cfg' =>
      obtain rfl : cfg = cfg' := Option.some.inj hserved
      exact (h.program (hrest cfg) hsame).2

theorem forget (h : TellsAlike spog net net' R) (hx : Same R x x') :
    Same R (eval (served self spog env net) (do let _ ← RefreshService.refresh; return ()) x).2
      (eval (served self spog env net') (do let _ ← RefreshService.refresh; return ()) x').2 := by
  rw [Setup.eval_forget, Setup.eval_forget]
  exact h.refresh hx

/-- So does a renewal. -/
theorem renewOne (h : TellsAlike spog net net' R) (i : ℕ) (hx : Same R x x') :
    Same R (eval (served self spog env net) (RefreshService.renewOne i) x).2
      (eval (served self spog env net') (RefreshService.renewOne i) x').2 := by
  have hheld : (act .getConfig).Uses (fun _ _ => True) NoPull := uses_act (by simp [NoPull])
  refine (h.program hheld hx).bind_state fun held y y' hy => ?_
  cases held with
  | none => exact h.forget hy
  | some cfg =>
    simp only
    cases cfg.flows[i]? with
    | none => exact h.forget hy
    | some flow => exact (h.program (noPull_runOneFlow cfg i flow) hy).2

/-- One event. -/
theorem task (h : TellsAlike spog net net' R) (ev : AgentEvent) (hx : Same R x x') :
    Same R (self.afterWired spog net x ev) (self.afterWired spog net' x' ev) := by
  obtain ⟨a, t⟩ := x
  obtain ⟨a', t'⟩ := x'
  obtain ⟨rfl, hR⟩ := hx
  rw [Setup.afterWired, Setup.afterWired, eval_translate, eval_translate]
  cases ev with
  | refresh env => exact h.forget ⟨rfl, hR⟩
  | fire id env =>
    simp only [Setup.task, Setup.begun]
    cases a.service.jobs id with
    | none => exact ⟨rfl, hR⟩
    | some job => exact h.renewOne job.index ⟨rfl, hR⟩

end TellsAlike

namespace Setup

variable {self : Setup} {spog : SpogSettings} {net : Handler Exc spogSig τ} {env : AgentEnv}

/-- A pull is made of calls of its client, and leaves the agent alone. -/
theorem agent_pull (x : Agent × τ) : (eval (self.wired env net) (spog.wire .pull) x).2.1 = x.1 := by
  have hspares : Spares (self.wired env net) SpogOp.outside Prod.fst := by
    intro o y ho
    cases o with
    | service o => exact ho.elim
    | _ => rfl
  have hclient : spog.configClient.Uses (fun _ _ => True) SpogOp.outside := by
    refine Uses.bind ?_ fun _ => trivial
    refine (TellsAlike.builds_context _ _ _).mono (fun _ _ h => h) fun o ho => ?_
    cases o with
    | service o => exact ho
    | _ => trivial
  have hpull : (spog.wire .pull).Uses (fun _ _ => True) SpogOp.outside := by
    refine hclient.bind fun client => ?_
    have hget : (dial (.get client.ctx client.url)).Uses (fun _ _ => True) SpogOp.outside :=
      uses_dial trivial
    refine hget.bind fun answer => ?_
    cases answer with
    | error e => trivial
    | ok resp => exact uses_ofExcept _
  exact hpull.view_eval hspares x

/-- A refresh that is served nothing. -/
theorem afterWired_of_unserved {x : Agent × τ} {e : Exc}
    (he : (eval (self.wired env net) (spog.wire .pull) x).1 = .error e) :
    (self.afterWired spog net x (.refresh env)).1 = x.1 := by
  have hagent : (eval (self.wired env net) (spog.wire .pull) x).2.1 = x.1 := agent_pull x
  rw [afterWired, eval_translate]
  show (eval (Effect.implement spog.wire (self.wired env net))
    (do let _ ← RefreshService.refresh; return ()) x).2.1 = x.1
  rw [eval_forget, RefreshService.refresh, eval_bind, eval_act, Effect.implement]
  rcases hrun : eval (self.wired env net) (spog.wire .pull) x with ⟨r, y⟩
  rw [hrun] at he hagent
  obtain rfl : r = .error e := he
  exact hagent

/-- **Unmoved.** Over every history, the agent is in one state with two networks that serve the same
configurations, whatever becomes of its reports, and however pulls fail. And a refresh that is served
nothing leaves it as it was. -/
theorem unmoved (self : Setup) (spog : SpogSettings) (net : Handler Exc spogSig τ)
    (net' : Handler Exc spogSig τ') (R : τ → τ' → Prop) (h : TellsAlike spog net net' R) :
    (∀ (a : Agent) (t : τ) (t' : τ'), R t t' → ∀ hist : List AgentEvent,
      (self.afterAllWired spog net (a, t) hist).1 =
        (self.afterAllWired spog net' (a, t') hist).1) ∧
    ∀ (env : AgentEnv) (x : Agent × τ) (e : Exc),
      (eval (self.wired env net) (spog.wire .pull) x).1 = .error e →
        (self.afterWired spog net x (.refresh env)).1 = x.1 := by
  have hrun : ∀ (hist : List AgentEvent) (x : Agent × τ) (x' : Agent × τ'), TellsAlike.Same R x x' →
      TellsAlike.Same R (self.afterAllWired spog net x hist) (self.afterAllWired spog net' x' hist) := by
    intro hist
    induction hist with
    | nil => exact fun x x' hx => hx
    | cons ev hist ih => exact fun x x' hx => ih _ _ (h.task ev hx)
  exact ⟨fun a t t' hR hist => (hrun hist (a, t) (a, t') ⟨rfl, hR⟩).1,
    fun env x e he => afterWired_of_unserved he⟩

/-- Smallhelp answers every pull with `text` and every report with `answer`, and counts the reports. -/
def demoServing (text : String) (answer : Except HttpError Response) : Handler Exc spogSig ℕ
  | .service _, n => (.error ⟨.other, ""⟩, n)
  | .createDefaultContext _, n => (.ok (), n)
  | .exists _, n => (.ok true, n)
  | .loadCertChain _ _ _, n => (.ok (), n)
  | .get _ _, n => (.ok (.ok ⟨200, text, ""⟩), n)
  | .post _ _ _, n => (.ok answer, n + 1)

/-- It takes the reports. -/
def demoTaking : Handler Exc spogSig ℕ := demoServing SpogSettings.servedText (.ok ⟨200, "", ""⟩)

/-- It serves the same, and loses them. -/
def demoLosing : Handler Exc spogSig ℕ :=
  demoServing SpogSettings.servedText (.error ⟨"Server disconnected without sending a response."⟩)

theorem tellsAlike_demo : TellsAlike SpogSettings.demoSpog demoTaking demoLosing Eq where
  builds o n n' ho hn := by
    cases o with
    | service o => exact ho.elim
    | get verify url => exact ho.elim
    | post verify url json => exact ho.elim
    | _ => exact ⟨rfl, hn⟩
  get verify url n n' hn := ⟨rfl, hn⟩
  post verify url json n n' hn :=
    ⟨fun e => ⟨fun h => (by cases h), fun h => (by cases h)⟩, congrArg (· + 1) hn⟩

/-- The CA issues a certificate, and the directory of `config.json` cannot be made. -/
def demoIssuing : AgentEnv :=
  { demoAgentEnv with
    config := { demoAgentEnv.config with
      mkdirParents := fun _ => some ⟨.osError, "Read-only file system"⟩ }
    flows := fun _ => demoEnv (150 * day) (.ok (.ofString "A", .ofString "KA")) }

/-- The agent after a refresh whose pull ended like this, and what the network remembers. -/
def demoRefreshed (net : Handler Exc spogSig ℕ) (r : Except Exc AgentConfig) : Agent × ℕ :=
  (eval (parsingSetup.wired demoIssuing net) (SpogSettings.afterPull r) (demoAgent, 0)).2

theorem demoRefreshed_eq (text : String) (answer : Except HttpError Response) :
    parsingSetup.afterWired SpogSettings.demoSpog (demoServing text answer) (demoAgent, 0)
        (.refresh demoIssuing) =
      demoRefreshed (demoServing text answer)
        (ConfigClient.parse demoPython "localhost" ⟨200, text, ""⟩) := rfl

theorem unmoved_demo :
    (parsingSetup.afterAllWired SpogSettings.demoSpog demoTaking (demoAgent, 0)
        [.refresh demoIssuing, .fire "renew:internal:0" demoIssuing]).1 =
      (parsingSetup.afterAllWired SpogSettings.demoSpog demoLosing (demoAgent, 0)
        [.refresh demoIssuing, .fire "renew:internal:0" demoIssuing]).1 ∧
    (parsingSetup.afterAllWired SpogSettings.demoSpog demoLosing (demoAgent, 0)
        [.refresh demoIssuing, .fire "renew:internal:0" demoIssuing]).2 = 2 := by
  refine ⟨(unmoved parsingSetup SpogSettings.demoSpog demoTaking demoLosing Eq tellsAlike_demo).1
    demoAgent 0 0 rfl [.refresh demoIssuing, .fire "renew:internal:0" demoIssuing], ?_⟩
  have hrefreshed : parsingSetup.afterWired SpogSettings.demoSpog demoLosing (demoAgent, 0)
      (.refresh demoIssuing) = demoRefreshed demoLosing (.ok SpogSettings.servedConfig) :=
    (demoRefreshed_eq _ _).trans (congrArg (demoRefreshed demoLosing) SpogSettings.parse_servedText)
  rw [afterAllWired, List.foldl_cons, hrefreshed]
  decide +kernel

end Setup

end NextepAgent
