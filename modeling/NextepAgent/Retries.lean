import NextepAgent.JobTable

/-!
# Flows that are left without a job

A job is armed when its flow has been issued, and at no other place. A flow that fails before it was
ever issued returns early, and nothing will run it again until the next nudge. The same happens to a
flow that fails after its slot has changed: its job stays at the old slot.

So a refresh leaves a flow without a job of its own exactly when the flow fails and no job at its
index is at its slot already. That a job which is found at an index runs the flow at that index needs
an invariant: the id of a job ends in its index. A refresh that raises half way keeps it too.

## Main definitions

* `ServiceState.Keyed` — ids and indices agree
* `ServiceState.NoOrphans` — every held flow has a job that runs it at its slot
* `ServiceState.Rearms` — every pulled flow is issued, or has such a job

## Main results

* `ServiceState.Keyed.after` — the invariant, for every event
* `ServiceState.noOrphans_refreshEffect_iff` — one refresh
* `ServiceState.no_orphans_iff` — histories
-/

namespace NextepAgent

open Effect Program RefreshService

/-! ### Ids and indices -/

/-- The id of every job ends in its index. -/
def ServiceState.Keyed (s : ServiceState) : Prop :=
  ∀ id job, s.jobs id = some job → ∃ t, id = flowJobId t job.index

namespace RefreshService

/-- A step that arms only jobs whose ids end in their indices. -/
def ArmsKeyed (o : ServiceOp) : Prop :=
  ∀ id t i, o = .addJob id t i → ∃ type, id = flowJobId type i

theorem FlowStep.armsKeyed {i : ℕ} {flow : FlowConfig} {o : ServiceOp} (h : FlowStep i flow o) :
    ArmsKeyed o := by
  intro id t j ho
  subst ho
  cases h
  exact ⟨flow.type, rfl⟩

theorem uses_armsKeyed_refresh : refresh.Uses (fun _ _ => True) ArmsKeyed := by
  refine (uses_act fun _ _ _ => nofun).bind fun cfg => (uses_act fun _ _ _ => nofun).bind fun _ => ?_
  refine Uses.bind ?_ fun _ =>
    (uses_runFlows (fun _ _ _ => FlowStep.armsKeyed) cfg 0 _).bind fun _ => trivial
  exact uses_persist_of (fun _ _ _ => nofun) fun _ =>
    ⟨fun _ _ _ => nofun, fun _ _ _ => nofun, fun _ _ _ => nofun⟩

theorem uses_armsKeyed_renewOne (i : ℕ) : (renewOne i).Uses (fun _ _ => True) ArmsKeyed := by
  refine (uses_act fun _ _ _ => nofun).bind fun held => ?_
  cases held with
  | none => exact uses_armsKeyed_refresh.bind fun _ => trivial
  | some cfg =>
    cases hi : cfg.flows[i]? with
    | none =>
      simp only [hi]
      exact uses_armsKeyed_refresh.bind fun _ => trivial
    | some flow =>
      simp only [hi]
      exact (uses_runOneFlow cfg i flow).mono (fun _ _ h => h) fun _ => FlowStep.armsKeyed

end RefreshService

/-- What an event pulls, if it pulls anything, has valid slots. -/
def Event.PullsValid : Event → Prop
  | .refresh env | .fire _ env => ∀ cfg, env.pull = .ok cfg → cfg.ValidSlots

namespace ServiceState

variable {s s₁ : ServiceState} {env : ServiceEnv} {cfg : AgentConfig} {i : ℕ} {flow : FlowConfig}
  {ev : Event}

theorem keyed_init (persisted : Option AgentConfig) : (init persisted).Keyed :=
  fun id job h => by cases h

theorem Keyed.arm (h : s.Keyed) {t : FlowType} (job : Job) :
    (s.arm (flowJobId t job.index) job).Keyed := by
  intro id job' hjob
  rw [jobs_arm] at hjob
  by_cases hid : id = flowJobId t job.index
  · subst hid
    rw [Function.update_self] at hjob
    cases hjob
    exact ⟨t, rfl⟩
  · rw [Function.update_of_ne hid] at hjob
    exact h id job' hjob

theorem Keyed.advance (h : s.Keyed) {id : String} {job : Job} (hjob : s.jobs id = some job) :
    (s.advance id job).Keyed := by
  obtain ⟨t, rfl⟩ := h id job hjob
  exact h.arm { job with nextRunTime := job.nextRunTime + day }

/-- One step keeps the invariant, if it may arm what it arms. -/
theorem Keyed.service (h : s.Keyed) {o : ServiceOp} (ho : ArmsKeyed o) :
    (service env o s).2.Keyed := by
  cases o with
  | addJob id t i =>
    obtain ⟨type, rfl⟩ := ho _ _ _ rfl
    rw [NextepAgent.service]
    cases env.addJob (flowJobId type i) with
    | none => exact h.arm ⟨t, i, env.nextFire t⟩
    | some e => exact h
  | writeConfig cfg =>
    rw [NextepAgent.service]
    cases env.writeConfig <;> exact h
  | _ => exact h

/-- **Ids and indices** agree after every event, also after one that raises half way. -/
theorem Keyed.after (h : s.Keyed) (ev : Event) : (s.after ev).Keyed := by
  have hstep : ∀ (env : ServiceEnv) (o : ServiceOp) (s : ServiceState), ArmsKeyed o → s.Keyed →
      (NextepAgent.service env o s).2.Keyed := fun env o s ho hs => hs.service ho
  cases ev with
  | refresh env => exact uses_armsKeyed_refresh.invariant (hstep env) h
  | fire id env =>
    cases hjob : s.jobs id with
    | none => rwa [ServiceState.after, hjob]
    | some job =>
      rw [ServiceState.after, hjob]
      exact (uses_armsKeyed_renewOne job.index).invariant (hstep env) (h.advance hjob)

theorem Keyed.afterAll (h : s.Keyed) (hist : List Event) : (s.afterAll hist).Keyed :=
  List.foldlRecOn hist ServiceState.after h fun _ hs ev _ => hs.after ev

/-! ### Jobs that run a flow -/

/-- Some job runs flow `i`, at this slot. -/
def Armed (s : ServiceState) (i : ℕ) (slot : Json) : Prop :=
  ∃ id job, s.jobs id = some job ∧ job.index = i ∧ job.trigger.slot = slot

/-- Every held flow has a job that runs it, at its slot. -/
def NoOrphans (s : ServiceState) : Prop :=
  ∀ cfg, s.config = some cfg → ∀ i flow, cfg.flows[i]? = some flow → s.Armed i flow.slot

/-- A flow that is issued by a refresh that returns is armed at its slot. -/
theorem armed_of_issues (hi : cfg.flows[i]? = some flow) (hslots : cfg.ValidSlots)
    (hflow : env.flowOutcome i flow = .ok ()) {result : IssueResult}
    (hresult : env.issues i flow = .ok result) : (env.refreshEffect cfg s).Armed i flow.slot := by
  obtain ⟨n, -, -, hn⟩ := hslots flow (List.mem_of_getElem? hi)
  obtain ⟨job, harmed⟩ := ServiceEnv.armed_of_issues hflow hresult
  obtain ⟨hindex, hslot⟩ := ServiceEnv.slot_of_armed hn harmed
  refine ⟨flowJobId flow.type i, job, ?_, hindex, hslot⟩
  rw [ServiceEnv.jobs_refreshEffect hi, harmed, Option.some_or]

/-- A flow that fails keeps the jobs it has. -/
theorem armed_iff_of_not_armed (h : s.Keyed) (h' : (env.refreshEffect cfg s).Keyed)
    (hi : cfg.flows[i]? = some flow) (harmed : env.armed i flow = none) (slot : Json) :
    (env.refreshEffect cfg s).Armed i slot ↔ s.Armed i slot := by
  constructor
  · rintro ⟨id, job, hjob, rfl, hslot⟩
    obtain ⟨t, rfl⟩ := h' id job hjob
    rw [ServiceEnv.jobs_refreshEffect_of_not_armed hi harmed] at hjob
    exact ⟨_, job, hjob, rfl, hslot⟩
  · rintro ⟨id, job, hjob, rfl, hslot⟩
    obtain ⟨t, rfl⟩ := h id job hjob
    refine ⟨flowJobId t job.index, job, ?_, rfl, hslot⟩
    rw [ServiceEnv.jobs_refreshEffect_of_not_armed hi harmed, hjob]

/-- **One refresh**: it leaves an orphan just if a flow fails that has no job at its slot. -/
theorem noOrphans_refreshEffect_iff (h : s.Keyed) (h' : (env.refreshEffect cfg s).Keyed)
    (hslots : cfg.ValidSlots)
    (hflows : ∀ i flow, cfg.flows[i]? = some flow → env.flowOutcome i flow = .ok ()) :
    (env.refreshEffect cfg s).NoOrphans ↔
      ∀ i flow, cfg.flows[i]? = some flow →
        (∃ result, env.issues i flow = .ok result) ∨ s.Armed i flow.slot := by
  have hflow : ∀ i flow, cfg.flows[i]? = some flow →
      ((env.refreshEffect cfg s).Armed i flow.slot ↔
        (∃ result, env.issues i flow = .ok result) ∨ s.Armed i flow.slot) := by
    intro i flow hi
    cases hissues : env.issues i flow with
    | ok result =>
      exact iff_of_true (armed_of_issues hi hslots (hflows i flow hi) hissues) (.inl ⟨result, rfl⟩)
    | error e =>
      have harmed : env.armed i flow = none := by rw [ServiceEnv.armed, hissues]
      simpa using armed_iff_of_not_armed h h' hi harmed flow.slot
  constructor
  · intro hno i flow hi
    exact (hflow i flow hi).mp (hno cfg (ServiceEnv.config_refreshEffect cfg) i flow hi)
  · intro hall cfg' hcfg' i flow hi
    obtain rfl : cfg = cfg' :=
      Option.some.inj ((ServiceEnv.config_refreshEffect cfg).symm.trans hcfg')
    exact (hflow i flow hi).mpr (hall i flow hi)

/-! ### Refreshes in a history -/

/-- The flow that is held at an index. -/
def heldFlow (s : ServiceState) (i : ℕ) : Option FlowConfig := s.config.bind (·.flows[i]?)

/-- The refresh that an event runs, if it runs one: its environment, and the state it starts in. A
firing falls back to a refresh when no flow is held at the index of its job. -/
def refreshOf (s : ServiceState) : Event → Option (ServiceEnv × ServiceState)
  | .refresh env => some (env, s)
  | .fire id env =>
    match s.jobs id with
    | none => none
    | some job =>
      match s.heldFlow job.index with
      | none => some (env, s.advance id job)
      | some _ => none

/-- A firing that falls back leaves what the refresh leaves. -/
theorem state_renewOne_of_not_held (h : s.heldFlow i = none) :
    (eval (NextepAgent.service env) (renewOne i) s).2 =
      (eval (NextepAgent.service env) refresh s).2 := by
  have hrefresh : (eval (NextepAgent.service env) (refresh >>= fun _ => pure ()) s).2 =
      (eval (NextepAgent.service env) refresh s).2 := by
    rw [eval_bind]
    rcases eval (NextepAgent.service env) refresh s with ⟨r, s'⟩
    cases r <;> rfl
  rw [renewOne, eval_act_bind_of_ok (a := s.config) rfl]
  cases hcfg : s.config with
  | none => exact hrefresh
  | some cfg =>
    have hi : cfg.flows[i]? = none := by simpa [heldFlow, hcfg] using h
    simp only [hi]
    exact hrefresh

theorem after_of_refreshOf (h : s.refreshOf ev = some (env, s₁)) :
    s.after ev = (eval (NextepAgent.service env) refresh s₁).2 := by
  cases ev with
  | refresh env' => cases h; rfl
  | fire id env' =>
    rw [refreshOf] at h
    cases hjob : s.jobs id with
    | none => rw [hjob] at h; cases h
    | some job =>
      simp only [hjob] at h
      split at h
      · next hheld =>
        cases h
        rw [ServiceState.after, hjob]
        exact state_renewOne_of_not_held (s := s.advance id job) hheld
      · cases h

/-- A firing only moves the next run of its job. -/
theorem jobs_advance {id id' : String} {job job' : Job} (hjob : s.jobs id = some job)
    (hjob' : (s.advance id job).jobs id' = some job') :
    ∃ old, s.jobs id' = some old ∧ job'.trigger = old.trigger ∧ job'.index = old.index := by
  rw [advance, jobs_arm] at hjob'
  by_cases hid : id' = id
  · subst hid
    rw [Function.update_self] at hjob'
    cases hjob'
    exact ⟨job, hjob, rfl, rfl⟩
  · rw [Function.update_of_ne hid] at hjob'
    exact ⟨job', hjob', rfl, rfl⟩

theorem armed_advance {id : String} {job : Job} (hjob : s.jobs id = some job) (slot : Json) :
    (s.advance id job).Armed i slot ↔ s.Armed i slot := by
  constructor
  · rintro ⟨id', job', hjob', hindex, hslot⟩
    obtain ⟨old, hold, htrigger, hindex'⟩ := jobs_advance hjob hjob'
    exact ⟨id', old, hold, hindex' ▸ hindex, htrigger ▸ hslot⟩
  · rintro ⟨id', job', hjob', hindex, hslot⟩
    by_cases hid : id' = id
    · subst hid
      obtain rfl : job = job' := Option.some.inj (hjob.symm.trans hjob')
      exact ⟨id', _, Function.update_self .., hindex, hslot⟩
    · exact ⟨id', job', (Function.update_of_ne hid ..).trans hjob', hindex, hslot⟩

/-- The refresh that an event runs starts with the jobs there are. -/
theorem refreshOf_start (h : s.Keyed) (hev : s.refreshOf ev = some (env, s₁)) :
    s₁.Keyed ∧ ∀ i slot, s₁.Armed i slot ↔ s.Armed i slot := by
  cases ev with
  | refresh env' => cases hev; exact ⟨h, fun _ _ => Iff.rfl⟩
  | fire id env' =>
    rw [refreshOf] at hev
    cases hjob : s.jobs id with
    | none => rw [hjob] at hev; cases hev
    | some job =>
      simp only [hjob] at hev
      split at hev
      · cases hev
        exact ⟨h.advance hjob, fun _ => armed_advance hjob⟩
      · cases hev

theorem pull_valid_of_refreshOf (hvalid : ev.PullsValid) (hev : s.refreshOf ev = some (env, s₁)) :
    ∀ cfg, env.pull = .ok cfg → cfg.ValidSlots := by
  cases ev with
  | refresh env' => cases hev; exact hvalid
  | fire id env' =>
    rw [refreshOf] at hev
    split at hev
    · cases hev
    · split at hev
      · cases hev; exact hvalid
      · cases hev

/-- The event runs a refresh, and the refresh returns. -/
def Refreshes (s : ServiceState) (ev : Event) : Prop :=
  ∃ env s₁ cfg, s.refreshOf ev = some (env, s₁) ∧
    (eval (NextepAgent.service env) refresh s₁).1 = .ok cfg

/-- Every flow that the event pulls is issued, or has a job that runs it at its slot already. -/
def Rearms (s : ServiceState) (ev : Event) : Prop :=
  ∀ env s₁ cfg, s.refreshOf ev = some (env, s₁) → env.pull = .ok cfg →
    ∀ i flow, cfg.flows[i]? = some flow →
      (∃ result, env.issues i flow = .ok result) ∨ s.Armed i flow.slot

/-- **One event.** -/
theorem noOrphans_after_iff (h : s.Keyed) (hvalid : ev.PullsValid) (hret : s.Refreshes ev) :
    (s.after ev).NoOrphans ↔ s.Rearms ev := by
  obtain ⟨env, s₁, cfg, hev, hcfg⟩ := hret
  obtain ⟨hpull, -, hflows, hs'⟩ := eval_refresh_eq_ok.mp (Prod.ext hcfg rfl)
  obtain ⟨hkeyed, harmed⟩ := refreshOf_start h hev
  have hafter : s.after ev = env.refreshEffect cfg s₁ := (after_of_refreshOf hev).trans hs'
  have hkeyed' : (env.refreshEffect cfg s₁).Keyed := hafter ▸ h.after ev
  have hslots := pull_valid_of_refreshOf hvalid hev cfg hpull
  rw [hafter, noOrphans_refreshEffect_iff hkeyed hkeyed' hslots hflows]
  constructor
  · intro hall env' s₁' cfg' hev' hpull' i flow hi
    obtain ⟨rfl, rfl⟩ : env = env' ∧ s₁ = s₁' := by simpa using hev.symm.trans hev'
    obtain rfl : cfg = cfg' := Except.ok.inj (hpull.symm.trans hpull')
    exact (hall i flow hi).imp_right (harmed i flow.slot).mp
  · intro hrearms i flow hi
    exact (hrearms env s₁ cfg hev hpull i flow hi).imp_right (harmed i flow.slot).mpr

/-- **Retries.** In a history from the start of the process, every refresh that returns leaves a job
for each held flow, at its slot, just if every such refresh finds one for each flow that fails. -/
theorem no_orphans_iff (persisted : Option AgentConfig) (hist : List Event)
    (hvalid : ∀ ev ∈ hist, ev.PullsValid) :
    (∀ hist₁ ev hist₂, hist = hist₁ ++ ev :: hist₂ →
        ((init persisted).afterAll hist₁).Refreshes ev →
          ((init persisted).afterAll (hist₁ ++ [ev])).NoOrphans) ↔
      ∀ hist₁ ev hist₂, hist = hist₁ ++ ev :: hist₂ →
        ((init persisted).afterAll hist₁).Refreshes ev →
          ((init persisted).afterAll hist₁).Rearms ev := by
  have hev : ∀ hist₁ ev hist₂, hist = hist₁ ++ ev :: hist₂ →
      ((init persisted).afterAll hist₁).Refreshes ev →
      (((init persisted).afterAll (hist₁ ++ [ev])).NoOrphans ↔
        ((init persisted).afterAll hist₁).Rearms ev) := by
    intro hist₁ ev hist₂ hsplit hret
    have hkeyed := (keyed_init persisted).afterAll hist₁
    have hpulls : ev.PullsValid := hvalid ev (by simp [hsplit])
    rw [afterAll, List.foldl_append]
    exact noOrphans_after_iff hkeyed hpulls hret
  exact forall₄_congr fun hist₁ ev hist₂ hsplit => forall_congr' (hev hist₁ ev hist₂ hsplit)

/-- Two flows are issued, and then the first one fails. -/
theorem no_orphans_iff_demo :
    ((init none).afterAll [.refresh twoFlows, .refresh firstFails]).NoOrphans := by
  have hvalid : ∀ ev ∈ [Event.refresh twoFlows, .refresh firstFails], ev.PullsValid := by
    simp only [List.forall_mem_cons, List.not_mem_nil, false_implies, implies_true, and_true]
    constructor <;> (intro cfg hcfg; cases hcfg; exact validSlots_demo)
  suffices hrearms : Throughout ServiceState.after (fun s ev => s.Refreshes ev → s.Rearms ev)
      (init none) [.refresh twoFlows, .refresh firstFails] from
    (no_orphans_iff none [.refresh twoFlows, .refresh firstFails] hvalid).mpr hrearms
      [.refresh twoFlows] (.refresh firstFails) [] rfl ⟨firstFails, _, _, rfl, rfl⟩
  refine throughout_cons.mpr ⟨fun _ => ?_, throughout_cons.mpr ⟨fun _ => ?_, throughout_nil⟩⟩
  · intro env s₁ cfg hev hpull i flow hi
    cases hev
    cases hpull
    match i, hi with
    | 0, hi => cases hi; exact .inl ⟨_, rfl⟩
    | 1, hi => cases hi; exact .inl ⟨_, rfl⟩
  · intro env s₁ cfg hev hpull i flow hi
    cases hev
    cases hpull
    match i, hi with
    | 0, hi => cases hi; exact .inr ⟨"renew:internal:0", ⟨dailyAt 6, 0, 151 * day⟩, rfl, rfl, rfl⟩
    | 1, hi => cases hi; exact .inl ⟨_, rfl⟩

/-- **A flow that fails the first time.** It is never armed. -/
theorem orphan :
    ¬ ∀ (persisted : Option AgentConfig) (hist : List Event), (∀ ev ∈ hist, ev.PullsValid) →
      ∀ hist₁ ev hist₂, hist = hist₁ ++ ev :: hist₂ →
        ((init persisted).afterAll hist₁).Refreshes ev →
          ((init persisted).afterAll (hist₁ ++ [ev])).NoOrphans := by
  intro h
  have hvalid : ∀ ev ∈ [Event.refresh firstFails], ev.PullsValid := by
    rw [List.forall_mem_singleton]
    intro cfg hcfg
    cases hcfg
    exact validSlots_demo
  obtain ⟨id, job, hjob, hindex, -⟩ := h none [.refresh firstFails] hvalid [] (.refresh firstFails)
    [] rfl ⟨firstFails, _, _, rfl, rfl⟩ _ rfl 0 _ rfl
  -- the only job is that of the other flow
  have honly : Function.update (fun _ => none) "renew:internal:1"
      (some (⟨dailyAt 18, 1, 151 * day⟩ : Job)) id = some job := hjob
  by_cases hid : id = "renew:internal:1"
  · rw [hid, Function.update_self] at honly
    cases honly
    cases hindex
  · rw [Function.update_of_ne hid] at honly
    cases honly

end ServiceState

end NextepAgent
