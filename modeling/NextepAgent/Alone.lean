import NextepAgent.AgentFrame

/-!
# Each flow on its own

Where the output files of two flows keep clear of each other, a flow cannot tell that the other is
there. In any history a group of files that only some flows write to holds what those flows alone
would have left, had they been run in the same order with nothing else going on. And each run ends, in
a refresh among other flows or in a firing of its own, as it would end there.

So what is proved of a flow that is run again and again holds of a flow of the agent, whatever the
other flows do and however they fail.

## Main definitions

* `Setup.runsOf`, `Setup.runsOfAll` — the runs of an event, and of a history
* `Setup.alone` — what runs leave when nothing else happens

## Main results

* `Setup.part_afterAll` — a group of files, over every history
* `Setup.as_if_alone` — the files of a flow, and how each of its runs ends
-/

namespace NextepAgent

open Effect Program RefreshService Posix

namespace Setup

variable {self : Setup} {env : AgentEnv} {a : Agent} {ev : AgentEvent} {i j : ℕ}
  {flow : FlowConfig} {flows : List FlowConfig} {places : List Place} {m m' : Machine}

/-! ### Runs -/

/-- The run that a step is, with what becomes of its calls. -/
def runOf (env : AgentEnv) : ServiceOp → Option (FlowConfig × HostEnv)
  | .run i flow => some (flow, env.flows i)
  | _ => none

/-- The runs of an event, in order. -/
def runsOf (self : Setup) (a : Agent) (ev : AgentEvent) : List (FlowConfig × HostEnv) :=
  (self.stepsOf a ev).filterMap (runOf ev.env)

/-- The runs of a history, in order. -/
def runsOfAll (self : Setup) : Agent → List AgentEvent → List (FlowConfig × HostEnv)
  | _, [] => []
  | a, ev :: hist => self.runsOf a ev ++ self.runsOfAll (self.after a ev) hist

/-- The machine after a run. -/
def ranAlone (self : Setup) (m : Machine) (r : FlowConfig × HostEnv) : Machine :=
  (eval (self.machine r.2) (self.runner r.1).run m).2

/-- The machine after these runs, with nothing else going on. -/
def alone (self : Setup) (m : Machine) (runs : List (FlowConfig × HostEnv)) : Machine :=
  runs.foldl self.ranAlone m

/-- The runs that may touch these files. -/
def about (self : Setup) (places : List Place) (runs : List (FlowConfig × HostEnv)) :
    List (FlowConfig × HostEnv) :=
  runs.filter fun r => self.files r.1 ⊆ places

/-- A flow writes to these files only, or to none of them. -/
def Clear (self : Setup) (places : List Place) (flow : FlowConfig) : Prop :=
  self.files flow ⊆ places ∨ places.Disjoint (self.files flow)

/-! ### One step -/

/-- A run of a flow that writes to none of these files. -/
theorem part_run_of_disjoint (henv : HostEnv) (h : places.Disjoint (self.files flow)) :
    (eval (self.machine henv) (self.runner flow).run m).2.part places = m.part places :=
  Node.uses_at_run.view_eval (Node.spares_machine h) m

/-- A run of a flow that writes to these files only. -/
theorem run_of_subset (henv : HostEnv) (h : self.files flow ⊆ places)
    (hm : m.part places = m'.part places) :
    (eval (self.machine henv) (self.runner flow).run m).1 =
        (eval (self.machine henv) (self.runner flow).run m').1 ∧
      (eval (self.machine henv) (self.runner flow).run m).2.part places =
        (eval (self.machine henv) (self.runner flow).run m').2.part places := by
  have huses : (self.runner flow).run.Uses (fun _ _ => True) (self.At places) :=
    Node.uses_at_run.mono (fun _ _ h => h) fun o ho p hp => h (ho p hp)
  exact huses.eval_local (Node.local_machine places) hm

/-- A step of the service on `config.json`, or on nothing. -/
theorem part_service (hconfig : self.place self.configPath ∉ places) (o : ServiceOp) (b : Agent) :
    (self.agent env (.service o) b).2.machine.part places = b.machine.part places := by
  have hstep : (self.agent env (.service o) b).2.machine = b.machine ∨
      ∃ o' : HostOp, o'.target = some self.configPath ∧
        (self.agent env (.service o) b).2.machine = (self.machine env.config o' b.machine).2 :=
    machine_service o b
  rcases hstep with hsame | ⟨o', ho', hnew⟩
  · rw [hsame]
  · have hat : self.At [self.place self.configPath] o' := by
      intro p hp
      rw [Option.some.inj (hp.symm.trans ho')]
      exact List.mem_singleton_self _
    rw [hnew]
    exact Node.spares_machine (List.disjoint_singleton.mpr hconfig) o' b.machine hat

/-! ### One event -/

/-- What a step leaves in these files when nothing else happens to them. -/
def stepAlone (self : Setup) (env : AgentEnv) (places : List Place) (m : Machine)
    (o : ServiceOp) : Machine :=
  (self.about places (runOf env o).toList).foldl self.ranAlone m

theorem foldl_stepAlone (places : List Place) (steps : List ServiceOp) (m : Machine) :
    steps.foldl (self.stepAlone env places) m =
      self.alone m (self.about places (steps.filterMap (runOf env))) := by
  induction steps generalizing m with
  | nil => rfl
  | cons o steps ih =>
    have hcons : (o :: steps).filterMap (runOf env) =
        (runOf env o).toList ++ steps.filterMap (runOf env) := by
      cases hrun : runOf env o with
      | none => rw [List.filterMap_cons_none hrun]; rfl
      | some r => rw [List.filterMap_cons_some hrun]; rfl
    rw [List.foldl_cons, ih, hcons, about, about, List.filter_append, alone, alone, List.foldl_append]
    rfl

theorem part_serve (hconfig : self.place self.configPath ∉ places) {o : ServiceOp}
    (ho : ∀ i flow, o = .run i flow → self.Clear places flow) {b : Agent}
    (hm : b.machine.part places = m.part places) :
    (self.serve env o b).2.machine.part places = (self.stepAlone env places m o).part places := by
  have hother : ∀ o : ServiceOp, (self.serve env o b).2 = (self.agent env (.service o) b).2 →
      runOf env o = none →
        (self.serve env o b).2.machine.part places =
          (self.stepAlone env places m o).part places := by
    intro o hserve hrun
    rw [hserve, part_service hconfig, stepAlone, hrun]
    exact hm
  have hperform : ∀ o : ServiceOp,
      eval (self.agent env) (@perform Exc agentSig (.service o)) b =
        self.agent env (.service o) b := fun o => eval_perform ..
  cases o with
  | run i flow =>
    rw [serve_run, stepAlone]
    by_cases hsub : self.files flow ⊆ places
    · have habout : self.about places (runOf env (.run i flow)).toList = [(flow, env.flows i)] := by
        simp [about, runOf, hsub]
      rw [habout]
      exact (run_of_subset (env.flows i) hsub hm).2
    · have habout : self.about places (runOf env (.run i flow)).toList = [] := by
        simp [about, runOf, hsub]
      have hdisjoint := (ho i flow rfl).resolve_left hsub
      rw [habout]
      exact (part_run_of_disjoint (env.flows i) hdisjoint).trans hm
  | _ => exact hother _ (congrArg Prod.snd (hperform _)) rfl

/-- **One event** leaves in these files what its runs about them leave. -/
theorem part_after (hconfig : self.place self.configPath ∉ places)
    (hflows : ∀ flow ∈ flowsOf a ev, self.Clear places flow)
    (hm : a.machine.part places = m.part places) :
    (self.after a ev).machine.part places =
      (self.alone m (self.about places (self.runsOf a ev))).part places := by
  rw [after_eq, runsOf, stepsOf, ← foldl_stepAlone]
  refine foldl_trace (R := fun (b : Agent) (m : Machine) => b.machine.part places = m.part places)
    (fun o ho b m hb => part_serve hconfig (fun i flow h => ?_) hb) ?_
  · exact hflows flow ((does_task ho).run i flow h)
  · rw [machine_begun]
    exact hm

/-- **A group of files**, over every history. -/
theorem part_afterAll (hconfig : self.place self.configPath ∉ places) {hist : List AgentEvent}
    (hflows : Throughout self.after (fun a ev => ∀ flow ∈ flowsOf a ev, self.Clear places flow) a
      hist) (hm : a.machine.part places = m.part places) :
    (self.afterAll a hist).machine.part places =
      (self.alone m (self.about places (self.runsOfAll a hist))).part places := by
  induction hist generalizing a m with
  | nil => exact hm
  | cons ev hist ih =>
    obtain ⟨hev, hrest⟩ := throughout_cons.mp hflows
    have hone := part_after hconfig hev hm
    rw [runsOfAll, about, List.filter_append, alone, List.foldl_append]
    exact ih hrest hone

/-! ### How runs end -/

/-- How a flow ends depends on its own files. -/
theorem outcome_congr (h : m.part (self.files flow) = m'.part (self.files flow)) :
    self.outcome env i flow m = self.outcome env i flow m' :=
  (run_of_subset (env.flows i) (fun _ hl => hl) h).1

theorem part_ranFlow (h : places.Disjoint (self.files flow)) :
    (self.ranFlow env i flow m).part places = m.part places := by
  rw [ranFlow]
  split
  · exact part_run_of_disjoint (env.flows i) h
  · rfl

/-- **One after another** is as good as each on its own, where the files are distinct. -/
theorem outcomes_eq (hdistinct : (flows.flatMap self.files).Nodup) {k : ℕ}
    (hk : flows[k]? = some flow) :
    self.outcomes env i flows m (i + k) = self.outcome env (i + k) flow m := by
  induction flows generalizing i k m with
  | nil => cases hk
  | cons first flows ih =>
    rw [List.flatMap_cons, List.nodup_append'] at hdistinct
    obtain ⟨-, hrest, hdisjoint⟩ := hdistinct
    cases k with
    | zero =>
      cases hk
      exact outcomes_self flows m
    | succ k =>
      rw [outcomes_of_lt flows m (by omega), ← Nat.add_assoc, Nat.add_right_comm, ih hrest hk]
      refine outcome_congr (part_ranFlow fun l hl hfirst => hdisjoint hfirst ?_)
      exact List.mem_flatMap.mpr ⟨flow, List.mem_of_getElem? hk, hl⟩

theorem part_persisted (hconfig : self.place self.configPath ∉ places) (cfg : AgentConfig) :
    (self.persisted env cfg m).part places = m.part places := by
  have huses : (persistConfig self.configPath (self.configText cfg)).Uses (fun _ _ => True)
      (self.At [self.place self.configPath]) := by
    have hat : ∀ o : HostOp, o.target = some self.configPath →
        self.At [self.place self.configPath] o := by
      intro o ho p hp
      rw [Option.some.inj (hp.symm.trans ho)]
      exact List.mem_singleton_self _
    refine Uses.tryCatch ?_ fun e => by split <;> trivial
    exact (uses_sys (hat _ rfl)).bind fun _ => (uses_sys (hat _ rfl)).bind fun _ =>
      uses_sys (hat _ rfl)
  rw [persisted]
  split
  · rfl
  · exact huses.view_eval (Node.spares_machine (List.disjoint_singleton.mpr hconfig)) m

/-- In a refresh every flow ends as it would on its own. -/
theorem outcomesOf_eq (hconfig : self.place self.configPath ∉ self.files flow)
    (hdistinct : ((pulled env).flatMap self.files).Nodup) (hj : (pulled env)[j]? = some flow) :
    self.outcomesOf env m j = self.outcome env j flow m := by
  rw [pulled] at hdistinct hj
  rw [outcomesOf]
  cases hcfg : env.service.pull with
  | error e => rw [hcfg] at hj; cases hj
  | ok cfg =>
    rw [hcfg] at hdistinct hj
    have houtcomes : self.outcomes env 0 cfg.flows (self.persisted env cfg m) (0 + j) =
        self.outcome env (0 + j) flow (self.persisted env cfg m) := outcomes_eq hdistinct hj
    rw [Nat.zero_add] at houtcomes
    exact houtcomes.trans (outcome_congr (part_persisted hconfig cfg))

/-- The flow that an event may run with index `j`. -/
def flowAt (a : Agent) (ev : AgentEvent) (j : ℕ) : Option FlowConfig :=
  match ev with
  | .refresh env => (pulled env)[j]?
  | .fire id env =>
    match a.service.jobs id with
    | none => none
    | some job =>
      match a.service.heldFlow job.index with
      | some flow => if j = job.index then some flow else none
      | none => (pulled env)[j]?

theorem ends_eq (hconfig : self.place self.configPath ∉ self.files flow)
    (hdistinct : ((pulled ev.env).flatMap self.files).Nodup) (hj : flowAt a ev j = some flow) :
    self.ends a ev j = self.outcome ev.env j flow a.machine := by
  cases ev with
  | refresh env => exact outcomesOf_eq hconfig hdistinct hj
  | fire id env =>
    simp only [flowAt] at hj
    simp only [ends, AgentEvent.env] at hdistinct ⊢
    cases hjob : a.service.jobs id with
    | none => rw [hjob] at hj; cases hj
    | some job =>
      rw [hjob] at hj
      simp only [Option.bind_some] at hj ⊢
      cases hheld : a.service.heldFlow job.index with
      | none =>
        rw [hheld] at hj
        exact outcomesOf_eq hconfig hdistinct hj
      | some flow' =>
        rw [hheld] at hj
        simp only at hj
        split at hj
        · cases hj
          rfl
        · cases hj

/-- **As if alone.** Let every flow that the agent is given write to these files only, or to none of
them. After any history they hold what the runs of the first kind leave when nothing else happens. And
every such run ends as it ends there, be it part of a refresh or of a firing. -/
theorem as_if_alone (self : Setup) (a : Agent) (hist : List AgentEvent) (places : List Place)
    (hconfig : self.place self.configPath ∉ places)
    (hdistinct : ∀ cfg, Given a hist cfg → (cfg.flows.flatMap self.files).Nodup)
    (hclear : ∀ cfg, Given a hist cfg → ∀ flow ∈ cfg.flows, self.Clear places flow) :
    (self.afterAll a hist).machine.part places =
        (self.alone a.machine (self.about places (self.runsOfAll a hist))).part places ∧
      ∀ hist₁ ev hist₂, hist = hist₁ ++ ev :: hist₂ → ∀ j flow,
        flowAt (self.afterAll a hist₁) ev j = some flow → self.files flow ⊆ places →
          self.ends (self.afterAll a hist₁) ev j = self.outcome ev.env j flow
            (self.alone a.machine (self.about places (self.runsOfAll a hist₁))) := by
  have hevents := throughout_givenEvent self a hist
  have hflows : Throughout self.after (fun a ev => ∀ flow ∈ flowsOf a ev, self.Clear places flow) a
      hist := by
    intro hist₁ ev hist₂ hhist flow hflow
    obtain ⟨cfg, hcfg, hin⟩ := (hevents hist₁ ev hist₂ hhist).flows flow hflow
    exact hclear cfg hcfg flow hin
  refine ⟨part_afterAll hconfig hflows rfl, fun hist₁ ev hist₂ hhist j flow hj hsub => ?_⟩
  have hbefore : Throughout self.after
      (fun a ev => ∀ flow ∈ flowsOf a ev, self.Clear places flow) a hist₁ := by
    intro hist₃ ev' hist₄ h
    exact hflows hist₃ ev' (hist₄ ++ ev :: hist₂)
      (by rw [hhist, h, List.append_assoc, List.cons_append])
  have hpart := part_afterAll hconfig hbefore rfl
  have hnodup : ((pulled ev.env).flatMap self.files).Nodup := by
    rw [pulled]
    split
    · next cfg hcfg => exact hdistinct cfg ((hevents hist₁ ev hist₂ hhist).pulled cfg hcfg)
    · exact List.nodup_nil
  rw [ends_eq (fun h => hconfig (hsub h)) hnodup hj]
  exact (run_of_subset (ev.env.flows j) hsub hpart).1

theorem as_if_alone_demo :
    (demoSetup.afterAll demoAgent
        [.refresh demoAgentEnv, .fire "renew:internal:0" demoAgentEnv]).machine.part
          (demoSetup.files (slottedFlow ("app", .int 6))) =
      (demoSetup.alone demoAgent.machine
        (demoSetup.about (demoSetup.files (slottedFlow ("app", .int 6)))
          (demoSetup.runsOfAll demoAgent
            [.refresh demoAgentEnv, .fire "renew:internal:0" demoAgentEnv]))).part
              (demoSetup.files (slottedFlow ("app", .int 6))) := by
  refine (as_if_alone demoSetup demoAgent
    [.refresh demoAgentEnv, .fire "renew:internal:0" demoAgentEnv]
    (demoSetup.files (slottedFlow ("app", .int 6))) (by decide) (fun cfg h => ?_) fun cfg h => ?_).1
  · rw [given_demo h]
    decide
  · rw [given_demo h]
    have hclear : ∀ flow ∈ demoConfig.flows,
        demoSetup.files flow ⊆ demoSetup.files (slottedFlow ("app", .int 6)) ∨
          ∀ l ∈ demoSetup.files (slottedFlow ("app", .int 6)), l ∉ demoSetup.files flow := by
      decide
    exact fun flow hflow => (hclear flow hflow).imp_right fun h l hl hl' => h l hl hl'

end Setup

end NextepAgent
