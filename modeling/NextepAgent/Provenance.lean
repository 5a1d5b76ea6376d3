import NextepAgent.Online
import NextepAgent.Race

/-!
# Where files come from

The agent writes to three kinds of files: `config.json`, and the certificate and the key of each flow.
What it puts there it has been given. A configuration was pulled; a pair was granted by a CA, in an
issuance of this flow, for the key that goes with it. Scripts aside, and what acmeow keeps below the
`account_dir` of an external flow, nothing else ever gets into a file, also when a write is cut short,
which leaves the beginning of what was to be written.

That is so in the middle of events too, however many flows are run and however they fail, and whatever
the network answers in the meantime.

## Main definitions

* `Setup.Sourced` — files as they were, or with the beginning of what came from a source
* `OnlineSetup.Stored` — a file that acmeow may have written
* `OnlineSetup.Grants`, `OnlineSetup.Granted` — a pair that a CA has granted, and when

## Main results

* `Setup.always_sourced` — one event, where it is known what is pulled and obtained
* `OnlineSetup.provenance` — every file, at every moment, with the network
-/

namespace NextepAgent

open Effect Program RefreshService Posix

/-! ### One call -/

/-- What a call leaves in a file is what was there, or the beginning of what it writes. -/
theorem bytes_host_cases (env : HostEnv) (o : HostOp) (w : Host) (p : Path) :
    (host env o w).2.bytes p = w.bytes p ∨
      ∃ text n, o = .writeText p text ∧ (host env o w).2.bytes p = some (partialBytes text n) := by
  by_cases hwrite : ∃ text, o = .writeText p text
  · obtain ⟨text, rfl⟩ := hwrite
    rw [host]
    split
    · exact .inl rfl
    · split
      · exact .inl rfl
      · next n e _ => exact .inr ⟨text, n, rfl, Host.bytes_put_self ..⟩
      · split
        · next b hb =>
          have hall : partialBytes text b.size = b := by
            rw [partialBytes, hb]
            exact ByteArray.extract_zero_size
          exact .inr ⟨text, b.size, rfl, hall.symm ▸ Host.bytes_put_self ..⟩
        · next e he =>
          have hnone : partialBytes text 0 = .empty := by rw [partialBytes, he]
          exact .inr ⟨text, 0, rfl, hnone.symm ▸ Host.bytes_put_self ..⟩
  · exact .inl (bytes_host (fun text h => hwrite ⟨text, h⟩) w)

namespace Node

/-- The same, by place. -/
theorem bytes_machine (node : Node) (env : HostEnv) (o : HostOp) (m : Machine) (l : Place) :
    (node.machine env o m).2.bytes l = m.bytes l ∨
      ∃ p text n, o = .writeText p text ∧ node.place p = l ∧
        (node.machine env o m).2.bytes l = some (partialBytes text n) := by
  by_cases htarget : ∃ p, o.target = some p ∧ node.place p = l
  · obtain ⟨p, hp, rfl⟩ := htarget
    have hfile : (node.machine env o m).2.bytes (node.place p) =
        (host env o (node.view m)).2.bytes p :=
      congrArg (Option.map File.content) (files_machine_self hp)
    rw [hfile]
    rcases bytes_host_cases env o (node.view m) p with hsame | ⟨text, n, ho, hnew⟩
    · exact .inl hsame
    · exact .inr ⟨p, text, n, ho, rfl, hnew⟩
  · refine .inl (congrArg (Option.map File.content) (files_machine_of_ne fun p hp hpl => ?_))
    exact htarget ⟨p, hp, hpl⟩

/-- This text goes to this place, when the pair was obtained for the flow. -/
def Puts (node : Node) (flow : FlowConfig) (pair : Text × Text) (l : Place) (text : Text) : Prop :=
  (node.certFile flow = some l ∧ text = pair.1) ∨ (node.keyFile flow = some l ∧ text = pair.2)

end Node

/-! ### One run -/

/-- `_obtain` ends like this. -/
def HostOp.ObtainIs (r : Except Exc (Text × Text)) : (o : HostOp) → Except Exc o.Ans → Prop
  | .obtain, r' => r' = r
  | _, _ => True

/-- A call that writes nothing but what was obtained, where it belongs. -/
def HostOp.Delivers (node : Node) (flow : FlowConfig) (r : Except Exc (Text × Text)) (o : HostOp) :
    Prop :=
  ∀ p text, o = .writeText p text → ∃ pair, r = .ok pair ∧ node.Puts flow pair (node.place p) text

theorem uses_delivers_run (node : Node) (flow : FlowConfig) (r : Except Exc (Text × Text)) :
    (node.runner flow).run.Uses (HostOp.ObtainIs r) (HostOp.Delivers node flow r) := by
  have hreadOnly : (node.runner flow).upToDate.Uses (HostOp.ObtainIs r)
      (HostOp.Delivers node flow r) :=
    (node.runner flow).uses_upToDate.mono (fun _ _ _ => trivial) fun o ho p text h => by
      subst h
      exact ho.elim
  refine hreadOnly.bind fun found => ?_
  cases found with
  | some current => exact uses_ofExcept _
  | none =>
    refine uses_perform_bind (S := hostSig) (o := .obtain) (fun p text h => by cases h)
      fun pair hpair => ?_
    refine Uses.mono ((node.runner flow).uses_issue pair.1 pair.2) (fun _ _ h => h) ?_
    intro o ho p text h
    subst h
    refine ⟨pair, hpair.symm, ?_⟩
    rcases ho with ⟨hp, rfl⟩ | ⟨hp, rfl⟩
    · exact .inl ⟨by rw [Node.certFile, hp]; rfl, rfl⟩
    · exact .inr ⟨by rw [Node.keyFile, hp]; rfl, rfl⟩

/-! ### One event -/

namespace Setup

variable {self : Setup} {env : AgentEnv} {a : Agent} {ev : AgentEvent} {i : ℕ}
  {flow : FlowConfig} {configs : AgentConfig → Prop} {pairs : FlowConfig → Text × Text → Prop}
  {m₀ : Machine}

/-- A file is as it was on `m₀`, or holds the beginning of what was written to it: of a configuration,
or of the part of a pair that belongs there. -/
def SourcedAt (self : Setup) (configs : AgentConfig → Prop)
    (pairs : FlowConfig → Text × Text → Prop) (m₀ m : Machine) (l : Place) : Prop :=
  m.bytes l = m₀.bytes l ∨ ∃ text n, m.bytes l = some (partialBytes text n) ∧
    ((∃ cfg, configs cfg ∧ l = self.place self.configPath ∧ text = self.configText cfg) ∨
      ∃ flow pair, pairs flow pair ∧ self.Puts flow pair l text)

/-- Every file is so. -/
def Sourced (self : Setup) (configs : AgentConfig → Prop)
    (pairs : FlowConfig → Text × Text → Prop) (m₀ m : Machine) : Prop :=
  ∀ l, self.SourcedAt configs pairs m₀ m l

theorem sourced_refl (m : Machine) : self.Sourced configs pairs m m := fun _ => .inl rfl

/-- A call of a run. -/
theorem Sourced.run_call {r : Except Exc (Text × Text)} {henv : HostEnv} {o : HostOp} {m : Machine}
    (h : self.Sourced configs pairs m₀ m) (ho : HostOp.Delivers self.toNode flow r o)
    (hpairs : ∀ pair, r = .ok pair → pairs flow pair) :
    self.Sourced configs pairs m₀ (self.machine henv o m).2 := by
  intro l
  rcases self.toNode.bytes_machine henv o m l with hsame | ⟨p, text, n, rfl, rfl, hnew⟩
  · rw [SourcedAt, hsame]
    exact h l
  · obtain ⟨pair, hpair, hputs⟩ := ho p text rfl
    exact .inr ⟨text, n, hnew, .inr ⟨flow, pair, hpairs pair hpair, hputs⟩⟩

/-- A step of the service. -/
theorem Sourced.service {o : ServiceOp} {b : Agent}
    (h : self.Sourced configs pairs m₀ b.machine)
    (hconfigs : ∀ cfg, o = .writeConfig cfg → configs cfg) :
    self.Sourced configs pairs m₀ (self.agent env (.service o) b).2.machine := by
  have hcall : ∀ o' : HostOp, (∀ p text, o' = .writeText p text → p = self.configPath ∧
      ∃ cfg, configs cfg ∧ text = self.configText cfg) →
        self.Sourced configs pairs m₀ (self.machine env.config o' b.machine).2 := by
    intro o' ho' l
    rcases self.toNode.bytes_machine env.config o' b.machine l with
      hsame | ⟨p, text, n, heq, rfl, hnew⟩
    · rw [SourcedAt, hsame]
      exact h l
    · obtain ⟨rfl, cfg, hcfg, htext⟩ := ho' p text heq
      exact .inr ⟨text, n, hnew, .inl ⟨cfg, hcfg, rfl, htext⟩⟩
  cases o with
  | makedirs => exact hcall (.mkdirParents self.configPath) fun _ _ h => by cases h
  | chmodConfig mode => exact hcall (.chmod self.configPath mode) fun _ _ h => by cases h
  | writeConfig cfg =>
    refine hcall (.writeText self.configPath (self.configText cfg)) fun p text h => ?_
    cases h
    exact ⟨rfl, cfg, hconfigs cfg rfl, rfl⟩
  | _ => exact h

/-- **One event.** -/
theorem always_sourced (hconfigs : ∀ cfg, ev.env.service.pull = .ok cfg → configs cfg)
    (hpairs : ∀ cfg i flow pair, acting a ev = some cfg → cfg.flows[i]? = some flow →
      (ev.env.flows i).obtain = .ok pair → pairs flow pair)
    (h : self.Sourced configs pairs m₀ a.machine) :
    Always (self.agent ev.env) (fun b => self.Sourced configs pairs m₀ b.machine)
      (self.steps (task a ev)) (begun a ev) := by
  refine always_translate (fun o ho b hb => ?_) (by rw [machine_begun]; exact h)
  have hperform : Always (self.agent ev.env) (fun b => self.Sourced configs pairs m₀ b.machine)
      (@perform Exc agentSig (.service o)) b :=
    (always_perform (S := agentSig) (AgentOp.service o) b).mpr
      ⟨hb, Sourced.service hb fun cfg hcfg => hconfigs cfg ((does_task ho).persist cfg hcfg).1⟩
  cases o with
  | run i flow =>
    obtain ⟨cfg, hcfg, hflow⟩ := acting_of_run ho
    have huses := uses_delivers_run self.toNode flow (ev.env.flows i).obtain
    refine always_translate (fun o ho b hb => ?_) hb
    have hdelivers : HostOp.Delivers self.toNode flow (ev.env.flows i).obtain o :=
      huses.mem_trace (fun o b => by
        rw [Effect.implement]
        cases o <;> first | trivial | exact congrArg Prod.fst (eval_perform ..)) o ho
    exact (always_perform (S := agentSig) (AgentOp.flow i o) b).mpr
      ⟨hb, Sourced.run_call hb hdelivers fun pair => hpairs cfg i flow pair hcfg hflow⟩
  | _ => exact hperform

@[simp] theorem acting_told {r : ℕ → Except Exc (Text × Text)} :
    acting a (ev.told r) = acting a ev := by
  cases ev <;> rfl

end Setup

/-! ### Grants -/

section

variable {K τ : Type}

theorem implement_askX5c (h : Handler Exc (caSig K) τ) :
    Effect.implement askX5c h = fun o => h (.x5c o) := by
  funext o t
  exact eval_perform ..

theorem implement_askAcme (h : Handler Exc (caSig K) τ) :
    Effect.implement askAcme h = fun o => h (.acme o) := by
  funext o t
  exact eval_perform ..

namespace OnlineSetup

variable {self : OnlineSetup K} {net : Machine → Handler Exc (caSig K) τ} {s : Agent × τ}
  {ev : AgentEvent} {hist hist₁ hist₂ : List AgentEvent} {flow : FlowConfig} {pair : Text × Text}
  {configs : AgentConfig → Prop} {pairs : FlowConfig → Text × Text → Prop} {m₀ : Machine}

/-- In the issuance of a flow that begins in this state of the network, the CA grants the pair: the
chain came in a response to the request that was signed with the key, or both were fetched from an
order. -/
def Grants (self : OnlineSetup K) (h : Handler Exc (caSig K) τ) (org : Option AgentOrganizationConfig)
    (flow : FlowConfig) (t : τ) (pair : Text × Text) : Prop :=
  match flow.type with
  | .internal => (self.internalRunner flow).Issued
      (dialogue (fun o => h (.x5c o)) (self.internalRunner flow).obtain t) pair
  | .external =>
    Answered (dialogue (fun o => h (.acme o)) (self.externalRunner flow org).obtain t)
        .getCertificate (pair.1, some pair.2) ∧
      Answered (dialogue (fun o => h (.acme o)) (self.externalRunner flow org).obtain t) .close ()

/-- What an issuance returns was granted in it. -/
theorem grants_of_obtain {h : Handler Exc (caSig K) τ} {org : Option AgentOrganizationConfig} {t : τ}
    (hpair : (eval h (self.obtain org flow) t).1 = .ok pair) : self.Grants h org flow t pair := by
  rw [obtain, makeRunner] at hpair
  rw [Grants]
  cases htype : flow.type with
  | internal =>
    cases hmethod : flow.method with
    | x5c =>
      rw [htype, hmethod] at hpair
      have hissued : (eval h ((self.internalRunner flow).obtain.translate askX5c) t).1 = .ok pair :=
        hpair
      rw [eval_translate, implement_askX5c] at hissued
      exact (self.internalRunner flow).keeps_obtain.eval pair hissued
    | _ =>
      rw [htype, hmethod] at hpair
      cases hpair
  | external =>
    cases hmethod : flow.method with
    | dns01 =>
      rw [htype, hmethod] at hpair
      have hissued :
          (eval h ((self.externalRunner flow org).obtain.translate askAcme) t).1 = .ok pair := hpair
      rw [eval_translate, implement_askAcme] at hissued
      exact (self.externalRunner flow org).fetched_of_obtain _ t hissued
    | _ =>
      rw [htype, hmethod] at hpair
      cases hpair

/-- A pair that was granted to a flow in a history: in one of its events, when the turn of the flow had
come in the configuration that was acted on. -/
def Granted (self : OnlineSetup K) (net : Machine → Handler Exc (caSig K) τ) (s : Agent × τ)
    (hist : List AgentEvent) (flow : FlowConfig) (pair : Text × Text) : Prop :=
  ∃ hist₁ ev hist₂ cfg i st, hist = hist₁ ++ ev :: hist₂ ∧
    Setup.acting (self.afterAll net s hist₁).1 ev = some cfg ∧ cfg.flows[i]? = some flow ∧
    self.Begins net (self.afterAll net s hist₁) ev i st ∧
    self.Grants (net st.1.machine) cfg.org flow st.2 pair

/-! ### All events -/

/-- **One event**, with the network. -/
theorem always_sourced (hconfigs : ∀ cfg, ev.env.service.pull = .ok cfg → configs cfg)
    (hpairs : ∀ cfg i flow st pair, Setup.acting s.1 ev = some cfg → cfg.flows[i]? = some flow →
      self.Begins net s ev i st → self.Grants (net st.1.machine) cfg.org flow st.2 pair →
        pairs flow pair)
    (h : self.toSetup.Sourced configs pairs m₀ s.1.machine) :
    Always (self.web ev.env net) (fun s' => self.toSetup.Sourced configs pairs m₀ s'.1.machine)
      (self.task s.1 ev) (Setup.begun s.1 ev, s.2) := by
  obtain ⟨r, hr, hin⟩ := self.exists_foretells net s ev
  have hforetold : Always (self.agent (ev.env.told r))
      (fun b => self.toSetup.Sourced configs pairs m₀ b.machine)
      (self.steps (Setup.task s.1 ev)) (Setup.begun s.1 ev) := by
    have hevent : Always (self.agent (ev.told r).env)
        (fun b => self.toSetup.Sourced configs pairs m₀ b.machine)
        (self.steps (Setup.task s.1 (ev.told r))) (Setup.begun s.1 (ev.told r)) := by
      refine Setup.always_sourced (by rwa [Setup.env_told]) ?_ h
      intro cfg i flow pair hcfg hflow hpair
      rw [Setup.acting_told] at hcfg
      rw [Setup.env_told] at hpair
      rcases hr i with ⟨st, hbegins, hri⟩ | ⟨-, e, hri⟩
      · refine hpairs cfg i flow st pair hcfg hflow hbegins (grants_of_obtain ?_)
        have hends : (self.issues (Setup.acting s.1 ev) net i st).1 = .ok pair := hri.symm.trans hpair
        simpa only [issues, issuance, hcfg, hflow] using hends
      · cases hri.symm.trans hpair
    rwa [Setup.task_told, Setup.begun_told, Setup.env_told] at hevent
  refine (always_after hin).mono fun s' hs' => ?_
  obtain ⟨n, hn⟩ := hs'
  rw [hn]
  exact hforetold.exec n

/-- An event of a history. -/
theorem always_sourced_of_mem (hhist : hist = hist₁ ++ ev :: hist₂)
    (h : self.toSetup.Sourced (fun cfg => ∃ ev ∈ hist, ev.env.service.pull = .ok cfg)
      (self.Granted net s hist) m₀ (self.afterAll net s hist₁).1.machine) :
    Always (self.web ev.env net) (fun s' => self.toSetup.Sourced
        (fun cfg => ∃ ev ∈ hist, ev.env.service.pull = .ok cfg) (self.Granted net s hist) m₀
          s'.1.machine)
      (self.task (self.afterAll net s hist₁).1 ev)
      (Setup.begun (self.afterAll net s hist₁).1 ev, (self.afterAll net s hist₁).2) := by
  refine always_sourced (fun cfg hcfg => ⟨ev, by simp [hhist], hcfg⟩) ?_ h
  intro cfg i flow st pair hcfg hflow hbegins hgrants
  exact ⟨hist₁, ev, hist₂, cfg, i, st, hhist, hcfg, hflow, hbegins, hgrants⟩

/-- Between events. -/
theorem sourced_afterAll (hhist : hist = hist₁ ++ hist₂) :
    self.toSetup.Sourced (fun cfg => ∃ ev ∈ hist, ev.env.service.pull = .ok cfg)
      (self.Granted net s hist) s.1.machine (self.afterAll net s hist₁).1.machine := by
  induction hist₁ using List.reverseRecOn generalizing hist₂ with
  | nil => exact Setup.sourced_refl _
  | append_singleton hist₁ ev ih =>
    have hsplit : hist = hist₁ ++ ev :: hist₂ := by rw [hhist, List.append_assoc]; rfl
    have hlast := (always_sourced_of_mem hsplit (ih hsplit)).eval
    rw [afterAll, List.foldl_append]
    exact hlast

/-- The file is below the `account_dir` of a flow, in a configuration that was acted on in a history. -/
def Stored (self : OnlineSetup K) (net : Machine → Handler Exc (caSig K) τ) (s : Agent × τ)
    (hist : List AgentEvent) (l : Place) : Prop :=
  ∃ hist₁ ev hist₂ cfg flow, hist = hist₁ ++ ev :: hist₂ ∧
    Setup.acting (self.afterAll net s hist₁).1 ev = some cfg ∧ flow ∈ cfg.flows ∧ self.InStore flow l

/-- **Provenance.** Over every history, and whatever the network remembers and answers, at every moment
each file that is not acmeow's is as it was at first, or it holds the beginning of a configuration that
was pulled, and is `config.json`, or the beginning of a part of a pair that a CA granted to a flow in one
of these events, and is the file of that flow for that part. -/
theorem provenance (self : OnlineSetup K) (net : Machine → Handler Exc (caSig K) τ) (s s' : Agent × τ)
    (hist : List AgentEvent) (hs' : self.Passes net s hist s') (l : Place) :
    self.Stored net s hist l ∨
      self.toSetup.SourcedAt (fun cfg => ∃ ev ∈ hist, ev.env.service.pull = .ok cfg)
        (self.Granted net s hist) s.1.machine s'.1.machine l := by
  obtain ⟨hist₁, ev, hist₂, n, hhist, rfl⟩ := hs'
  exact .inr ((always_sourced_of_mem hhist (sourced_afterAll hhist)).exec n l)

end OnlineSetup

end

/-- An installation with an internal flow. -/
def demoOnline : OnlineSetup String where
  toSetup := demoSetup
  defaults := InternalX5cRunner.demoInternal.defaults
  repr _ := ""
  identifier := .ok
  url := InternalX5cRunner.demoInternal.url
  loadChain := InternalX5cRunner.demoInternal.loadChain
  loadPrivateKey := InternalX5cRunner.demoInternal.loadPrivateKey
  curveBits := InternalX5cRunner.demoInternal.curveBits
  privatePem := InternalX5cRunner.demoInternal.privatePem

/-- Its CA grants what it is asked for, and there is no other. -/
def demoNet : Machine → Handler Exc (caSig String) Unit
  | _, .x5c o, u => InternalX5cRunner.demoCa o u
  | _, .acme _, u => (.error ⟨.other, "connection refused"⟩, u)

/-- An agent that holds the flow, and has armed it. -/
def demoArmed : Agent :=
  { demoAgent with
    service :=
      { demoAgent.service with
        config := some { slottedConfig [] with flows := [InternalX5cRunner.demoInternal.flow] }
        jobs := fun _ => some ⟨dailyAt 6, 0, 0⟩ } }

/-- The job of the flow fires. -/
def demoFiring : AgentEvent := .fire "renew:internal:0" demoAgentEnv

/-- The agent in the middle of the run: it has written the certificate. -/
def demoIssued : Agent × Unit :=
  (exec (demoOnline.web demoFiring.env demoNet) 15 (demoOnline.task demoArmed demoFiring)
    (Setup.begun demoArmed demoFiring, ())).2

/-- Where it has written it. -/
def demoCertPlace : Place := ["c".toList, "app.pem".toList]

theorem OnlineSetup.provenance_demo : ∃ flow pair text n,
    demoOnline.Granted demoNet (demoArmed, ()) [demoFiring] flow pair ∧
      demoOnline.Puts flow pair demoCertPlace text ∧
        demoIssued.1.machine.bytes demoCertPlace = some (partialBytes text n) := by
  have hpasses : demoOnline.Passes demoNet (demoArmed, ()) [demoFiring] demoIssued :=
    ⟨[], demoFiring, [], 15, rfl, rfl⟩
  rcases demoOnline.provenance demoNet (demoArmed, ()) demoIssued _ hpasses demoCertPlace with
    hstored | hsame | ⟨text, n, hbytes, ⟨cfg, -, hplace, -⟩ | ⟨flow, pair, hgranted, hputs⟩⟩
  · obtain ⟨hist₁, ev, hist₂, cfg, flow, hhist, hcfg, hflow, hstore⟩ := hstored
    cases hist₁ with
    | cons ev' hist₁ => simp at hhist
    | nil =>
      obtain rfl : demoFiring = ev := (List.cons.inj hhist).1
      obtain rfl := Option.some.inj hcfg
      obtain rfl := List.mem_singleton.mp hflow
      exact absurd hstore (by decide)
  · have hwritten : (demoIssued.1.machine.bytes demoCertPlace).isSome = true := by decide +kernel
    rw [hsame] at hwritten
    exact absurd hwritten (by decide)
  · exact absurd hplace (by decide)
  · exact ⟨flow, pair, text, n, hgranted, hputs, hbytes⟩

end NextepAgent
