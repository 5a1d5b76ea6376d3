import NextepAgent.Retries

/-!
# What the status tells about runs

`GET /status` does not ask the scheduler. For each held flow it looks up `next_runs`, under the id
that the flow would have. An entry is put there when the flow has been issued, and only then. So the
answer can be wrong in two ways: the job has fired since, and its next run has moved on without the
flow being issued, or there is another job at the index of the flow, left over from a flow of the
other type.

When every event avoids both, the status agrees with the scheduler throughout. An event that does not
avoid them breaks the agreement at once.

## Main definitions

* `status` — the answer, with instants for their texts
* `ServiceState.IsNextRun`, `ServiceState.StatusAgrees` — agreement with the scheduler
* `ServiceState.Tracks` — what keeps the agreement

## Main results

* `ActedOn.isNextRun_iff_of_armed`, `ActedOn.isNextRun_iff_of_not_armed` — one flow
* `ServiceState.statusAgrees_after_iff` — one event
* `ServiceState.status_agrees_iff` — histories
-/

namespace NextepAgent

open Effect Program RefreshService

/-! ### The answer -/

/-- An entry of `flows`. -/
structure FlowStatus where
  type : String
  name : Json
  certOutputDir : Json
  /-- Sent as its `isoformat()`. -/
  nextScheduledRun : Option ℤ
  deriving DecidableEq

/-- The answer of `GET /status`. -/
structure AgentStatus where
  nodeName : Option Json
  configured : Bool
  flows : List FlowStatus
  deriving DecidableEq

/-- `next_runs.get(job_id)`, which may be missing or `None`. -/
def ServiceState.shownRun (s : ServiceState) (type : FlowType) (index : ℕ) : Option ℤ :=
  (s.nextRuns (flowJobId type index)).join

/-- `status`. -/
def status (s : ServiceState) : AgentStatus :=
  match s.config with
  | none => ⟨none, false, []⟩
  | some cfg => {
      nodeName := some cfg.nodeName
      configured := true
      flows := cfg.flows.mapIdx fun index flow => {
        type := flow.type.value
        name := flow.name
        certOutputDir := flow.certOutputDir
        nextScheduledRun := s.shownRun flow.type index } }

namespace ServiceState

/-- `t` is the next run of flow `i`: that of the job that runs it, and `None` exactly when there is
no such job. -/
structure IsNextRun (s : ServiceState) (i : ℕ) (t : Option ℤ) : Prop where
  eq_some : ∀ id job, s.jobs id = some job → job.index = i → t = some job.nextRunTime
  eq_none : t = none ↔ ∀ id job, s.jobs id = some job → job.index ≠ i

/-- The status agrees with the scheduler. -/
def StatusAgrees (s : ServiceState) : Prop :=
  ∀ i entry, (status s).flows[i]? = some entry → s.IsNextRun i entry.nextScheduledRun

theorem statusAgrees_iff {s : ServiceState} :
    s.StatusAgrees ↔ ∀ i flow, s.heldFlow i = some flow → s.IsNextRun i (s.shownRun flow.type i) := by
  rw [StatusAgrees, status]
  cases hcfg : s.config with
  | none => simp [heldFlow, hcfg]
  | some cfg => simp [heldFlow, hcfg, List.getElem?_mapIdx]

/-- Only the jobs at the index matter. -/
theorem IsNextRun.congr {s s' : ServiceState} {i : ℕ} {t : Option ℤ}
    (hjobs : ∀ id job, job.index = i → (s'.jobs id = some job ↔ s.jobs id = some job)) :
    s'.IsNextRun i t ↔ s.IsNextRun i t := by
  have hsome : (∀ id job, s'.jobs id = some job → job.index = i → t = some job.nextRunTime) ↔
      ∀ id job, s.jobs id = some job → job.index = i → t = some job.nextRunTime :=
    forall₂_congr fun id job => ⟨fun h hjob hi => h ((hjobs id job hi).mpr hjob) hi,
      fun h hjob hi => h ((hjobs id job hi).mp hjob) hi⟩
  have hnone : (∀ id job, s'.jobs id = some job → job.index ≠ i) ↔
      ∀ id job, s.jobs id = some job → job.index ≠ i :=
    forall₂_congr fun id job => ⟨fun h hjob hi => h ((hjobs id job hi).mpr hjob) hi,
      fun h hjob hi => h ((hjobs id job hi).mp hjob) hi⟩
  exact ⟨fun h => ⟨hsome.mp h.eq_some, h.eq_none.trans hnone⟩,
    fun h => ⟨hsome.mpr h.eq_some, h.eq_none.trans hnone.symm⟩⟩

/-- The jobs at the index, but for the one of this type, run at this time. -/
def OthersRun (s : ServiceState) (type : FlowType) (i : ℕ) (time : ℤ) : Prop :=
  ∀ id job, s.jobs id = some job → job.index = i → id ≠ flowJobId type i → job.nextRunTime = time

/-- Where a flow has a job of its own, what counts is whether the others agree. -/
theorem isNextRun_iff_othersRun {s : ServiceState} {type : FlowType} {i : ℕ} {job : Job}
    (hjob : s.jobs (flowJobId type i) = some job) (hindex : job.index = i) :
    s.IsNextRun i (some job.nextRunTime) ↔ s.OthersRun type i job.nextRunTime := by
  constructor
  · intro h id job' hjob' hindex' _
    exact (Option.some.inj (h.eq_some id job' hjob' hindex')).symm
  · intro h
    refine ⟨fun id job' hjob' hindex' => ?_, ?_⟩
    · by_cases hid : id = flowJobId type i
      · subst hid
        obtain rfl : job = job' := Option.some.inj (hjob.symm.trans hjob')
        rfl
      · rw [h id job' hjob' hindex' hid]
    · exact iff_of_false (fun hnone => by cases hnone) fun hno => hno _ job hjob hindex

end ServiceState

/-! ### One flow -/

/-- What running flow `i` does to the entries at its index. -/
structure ActedOn (env : ServiceEnv) (i : ℕ) (flow : FlowConfig) (s s' : ServiceState) : Prop where
  jobs_self : s'.jobs (flowJobId flow.type i) =
    (env.armed i flow).or (s.jobs (flowJobId flow.type i))
  jobs_of_ne : ∀ t, t ≠ flow.type → s'.jobs (flowJobId t i) = s.jobs (flowJobId t i)
  nextRuns_self : s'.nextRuns (flowJobId flow.type i) =
    (env.shows i flow).or (s.nextRuns (flowJobId flow.type i))

section ActedOn

variable {env : ServiceEnv} {i : ℕ} {flow : FlowConfig} {s s' : ServiceState}

theorem actedOn_refreshEffect {cfg : AgentConfig} (h : cfg.flows[i]? = some flow) :
    ActedOn env i flow s (env.refreshEffect cfg s) where
  jobs_self := ServiceEnv.jobs_refreshEffect h
  jobs_of_ne _ := ServiceEnv.jobs_refreshEffect_of_type_ne h
  nextRuns_self := ServiceEnv.nextRuns_refreshEffect h

theorem actedOn_flowEffect : ActedOn env i flow s (env.flowEffect i flow s) where
  jobs_self := ServiceEnv.jobs_flowEffect_self
  jobs_of_ne _ ht := ServiceEnv.jobs_flowEffect_of_ne fun hid => ht (flowJobId_inj hid).1
  nextRuns_self := ServiceEnv.nextRuns_flowEffect_self

/-- A flow that is armed and looked up is shown as it is, so the other jobs at its index decide. -/
theorem ActedOn.isNextRun_iff_of_armed (h : ActedOn env i flow s s') (hkeyed : s.Keyed)
    (hkeyed' : s'.Keyed) {job : Job} (harmed : env.armed i flow = some job)
    (hshows : env.shows i flow = some (some job.nextRunTime)) (hindex : job.index = i) :
    s'.IsNextRun i (s'.shownRun flow.type i) ↔ s.OthersRun flow.type i job.nextRunTime := by
  have hjob : s'.jobs (flowJobId flow.type i) = some job := by
    rw [h.jobs_self, harmed, Option.some_or]
  have hshown : s'.shownRun flow.type i = some job.nextRunTime := by
    rw [ServiceState.shownRun, h.nextRuns_self, hshows]
    rfl
  rw [hshown, ServiceState.isNextRun_iff_othersRun hjob hindex]
  constructor
  · rintro hothers id job' hjob' rfl hid
    obtain ⟨t, rfl⟩ := hkeyed id job' hjob'
    refine hothers _ job' ?_ rfl hid
    rw [h.jobs_of_ne t fun ht => hid (ht ▸ rfl), hjob']
  · rintro hothers id job' hjob' rfl hid
    obtain ⟨t, rfl⟩ := hkeyed' id job' hjob'
    refine hothers _ job' ?_ rfl hid
    rw [← h.jobs_of_ne t fun ht => hid (ht ▸ rfl), hjob']

/-- A flow that is not armed is shown as before. -/
theorem ActedOn.isNextRun_iff_of_not_armed (h : ActedOn env i flow s s') (hkeyed : s.Keyed)
    (hkeyed' : s'.Keyed) (harmed : env.armed i flow = none) :
    s'.IsNextRun i (s'.shownRun flow.type i) ↔ s.IsNextRun i (s.shownRun flow.type i) := by
  have hjobs : ∀ t, s'.jobs (flowJobId t i) = s.jobs (flowJobId t i) := by
    intro t
    by_cases ht : t = flow.type
    · rw [ht, h.jobs_self, harmed, Option.none_or]
    · exact h.jobs_of_ne t ht
  have hshown : s'.shownRun flow.type i = s.shownRun flow.type i := by
    have hshows : env.shows i flow = none := by rw [ServiceEnv.shows, harmed]
    rw [ServiceState.shownRun, ServiceState.shownRun, h.nextRuns_self, hshows, Option.none_or]
  rw [hshown]
  refine ServiceState.IsNextRun.congr fun id job hindex => ?_
  subst hindex
  constructor
  · intro hjob
    obtain ⟨t, rfl⟩ := hkeyed' id job hjob
    rwa [hjobs t] at hjob
  · intro hjob
    obtain ⟨t, rfl⟩ := hkeyed id job hjob
    rwa [← hjobs t] at hjob

/-- What a flow that is issued puts in the two tables. -/
theorem armed_shows_of_issues {result : IssueResult} {t : CronTrigger} {n : ℤ}
    (hissues : env.issues i flow = .ok result) (harms : env.arms i flow = .ok t)
    (hlooks : env.looksUp i flow = .ok ()) (hslot : flow.slot = .int n) :
    env.armed i flow = some ⟨dailyAt n, i, env.nextFire (dailyAt n)⟩ ∧
      env.shows i flow = some (some (env.nextFire (dailyAt n))) := by
  have harmed : env.armed i flow = some ⟨dailyAt n, i, env.nextFire (dailyAt n)⟩ := by
    rw [ServiceEnv.armed, hissues, harms, ServiceEnv.eq_dailyAt_of_arms hslot harms]
    rfl
  exact ⟨harmed, by rw [ServiceEnv.shows, harmed, hlooks]⟩

end ActedOn

namespace ServiceState

variable {s : ServiceState} {env : ServiceEnv} {cfg : AgentConfig} {i : ℕ} {flow : FlowConfig}
  {ev : Event}

/-! ### One refresh -/

/-- A flow of a refresh keeps the status right: if it is issued, the others at its index run when it
runs next, and if it fails, the status has its run already. -/
structure TracksFlow (s : ServiceState) (env : ServiceEnv) (i : ℕ) (flow : FlowConfig) : Prop where
  issued : ∀ result n, env.issues i flow = .ok result → flow.slot = .int n →
    s.OthersRun flow.type i (env.nextFire (dailyAt n))
  failed : ∀ e, env.issues i flow = .error e → s.IsNextRun i (s.shownRun flow.type i)

/-- Every flow that is pulled keeps the status right. -/
def TracksRefresh (s : ServiceState) (env : ServiceEnv) : Prop :=
  ∀ cfg, env.pull = .ok cfg → ∀ i flow, cfg.flows[i]? = some flow → s.TracksFlow env i flow

theorem isNextRun_refreshEffect_iff (hkeyed : s.Keyed) (hkeyed' : (env.refreshEffect cfg s).Keyed)
    (hi : cfg.flows[i]? = some flow) {n : ℤ} (hslot : flow.slot = .int n)
    (hflow : env.flowOutcome i flow = .ok ()) :
    (env.refreshEffect cfg s).IsNextRun i ((env.refreshEffect cfg s).shownRun flow.type i) ↔
      s.TracksFlow env i flow := by
  have hacted : ActedOn env i flow s (env.refreshEffect cfg s) := actedOn_refreshEffect hi
  rcases contained_iff.mpr hflow with ⟨⟨e, hissues⟩, -⟩ | hsucceeds
  · have harmed : env.armed i flow = none := by rw [ServiceEnv.armed, hissues]
    rw [hacted.isNextRun_iff_of_not_armed hkeyed hkeyed' harmed]
    refine ⟨fun h => ⟨fun result _ hok => ?_, fun _ _ => h⟩, fun h => h.failed e hissues⟩
    rw [hissues] at hok
    cases hok
  · obtain ⟨result, hissues⟩ := hsucceeds.issues
    obtain ⟨t, harms⟩ := hsucceeds.arms
    obtain ⟨harmed, hshows⟩ := armed_shows_of_issues hissues harms hsucceeds.looksUp hslot
    rw [hacted.isNextRun_iff_of_armed hkeyed hkeyed' harmed hshows rfl]
    refine ⟨fun h => ⟨fun _ m _ hm => ?_, fun e herror => ?_⟩, fun h => h.issued result n hissues hslot⟩
    · obtain rfl : n = m := Json.int.inj (hslot.symm.trans hm)
      exact h
    · rw [hissues] at herror
      cases herror

/-- **One refresh.** -/
theorem statusAgrees_refreshEffect_iff (hkeyed : s.Keyed)
    (hkeyed' : (env.refreshEffect cfg s).Keyed) (hslots : cfg.ValidSlots)
    (hpull : env.pull = .ok cfg)
    (hflows : ∀ i flow, cfg.flows[i]? = some flow → env.flowOutcome i flow = .ok ()) :
    (env.refreshEffect cfg s).StatusAgrees ↔ s.TracksRefresh env := by
  have hheld : ∀ i, (env.refreshEffect cfg s).heldFlow i = cfg.flows[i]? := fun i => by
    rw [heldFlow, ServiceEnv.config_refreshEffect]
    rfl
  have hflow : ∀ i flow, cfg.flows[i]? = some flow →
      ((env.refreshEffect cfg s).IsNextRun i ((env.refreshEffect cfg s).shownRun flow.type i) ↔
        s.TracksFlow env i flow) := by
    intro i flow hi
    obtain ⟨n, -, -, hn⟩ := hslots flow (List.mem_of_getElem? hi)
    exact isNextRun_refreshEffect_iff hkeyed hkeyed' hi hn (hflows i flow hi)
  rw [statusAgrees_iff]
  constructor
  · intro h cfg' hpull' i flow hi
    obtain rfl : cfg = cfg' := Except.ok.inj (hpull.symm.trans hpull')
    exact (hflow i flow hi).mp (h i flow ((hheld i).trans hi))
  · intro h i flow hi
    rw [hheld] at hi
    exact (hflow i flow hi).mpr (h cfg hpull i flow hi)

/-! ### One firing -/

/-- A firing keeps the status right: its flow is issued, and the others at its index run when it runs
next. A firing that falls back to a refresh is one. -/
def TracksFire (s : ServiceState) (env : ServiceEnv) (id : String) (job : Job) : Prop :=
  match s.heldFlow job.index with
  | some flow => ∃ result n, env.issues job.index flow = .ok result ∧ flow.slot = .int n ∧
      (s.advance id job).OthersRun flow.type job.index (env.nextFire (dailyAt n))
  | none => (s.advance id job).TracksRefresh env

/-- What an event has to be like for the status to stay right. -/
def Tracks (s : ServiceState) : Event → Prop
  | .refresh env => s.TracksRefresh env
  | .fire id env => ∀ job, s.jobs id = some job → s.TracksFire env id job

/-- Every slot of the held configuration is valid. -/
def HeldValid (s : ServiceState) : Prop := ∀ cfg, s.config = some cfg → cfg.ValidSlots

theorem eq_of_heldFlow (h : s.heldFlow i = some flow) :
    ∃ cfg, s.config = some cfg ∧ cfg.flows[i]? = some flow := by
  rwa [heldFlow, Option.bind_eq_some_iff] at h

/-- A firing of a held flow. -/
theorem after_fire_of_held {id : String} {job : Job} (hjob : s.jobs id = some job)
    (hheld : s.heldFlow job.index = some flow) :
    s.after (.fire id env) = env.flowEffect job.index flow (s.advance id job) := by
  obtain ⟨cfg, hcfg, hi⟩ := eq_of_heldFlow hheld
  rw [ServiceState.after, hjob]
  exact congrArg Prod.snd (eval_renewOne (s := s.advance id job) hcfg hi)

theorem keyed_flowEffect_advance (hkeyed : s.Keyed) {id : String} {job : Job}
    (hjob : s.jobs id = some job) (hheld : s.heldFlow job.index = some flow) :
    (env.flowEffect job.index flow (s.advance id job)).Keyed := by
  rw [← after_fire_of_held hjob hheld]
  exact hkeyed.after _

/-- A firing leaves the flows at other indices as they are. -/
theorem isNextRun_fire_of_ne (hkeyed : s.Keyed) {id : String} {job : Job}
    (hjob : s.jobs id = some job) (hheld : s.heldFlow job.index = some flow) {type : FlowType}
    {j : ℕ} (hj : j ≠ job.index) (h : s.IsNextRun j (s.shownRun type j)) :
    (env.flowEffect job.index flow (s.advance id job)).IsNextRun j
      ((env.flowEffect job.index flow (s.advance id job)).shownRun type j) := by
  obtain ⟨t₀, rfl⟩ := hkeyed id job hjob
  have hne : ∀ t t', flowJobId t j ≠ flowJobId t' job.index := fun t t' hid =>
    hj (flowJobId_inj hid).2
  have hshown : (env.flowEffect job.index flow (s.advance (flowJobId t₀ job.index) job)).shownRun
      type j = s.shownRun type j := by
    rw [shownRun, ServiceEnv.nextRuns_flowEffect_of_ne (hne _ _)]
    rfl
  have hjobs : ∀ t, (env.flowEffect job.index flow (s.advance (flowJobId t₀ job.index) job)).jobs
      (flowJobId t j) = s.jobs (flowJobId t j) := by
    intro t
    rw [ServiceEnv.jobs_flowEffect_of_ne (hne _ _), advance, jobs_arm,
      Function.update_of_ne (hne _ _)]
  rw [hshown, IsNextRun.congr (s := s)]
  · exact h
  · intro id' job' hindex
    subst hindex
    constructor
    · intro hjob'
      obtain ⟨t, rfl⟩ := keyed_flowEffect_advance hkeyed hjob hheld id' job' hjob'
      rwa [hjobs t] at hjob'
    · intro hjob'
      obtain ⟨t, rfl⟩ := hkeyed id' job' hjob'
      rwa [hjobs t]

/-- A firing whose flow fails leaves the status behind. -/
theorem not_isNextRun_advance {id : String} {job : Job} (hjob : s.jobs id = some job)
    {t : Option ℤ} (h : s.IsNextRun job.index t) : ¬ (s.advance id job).IsNextRun job.index t := by
  intro h'
  have hold : t = some job.nextRunTime := h.eq_some id job hjob rfl
  have hnew : t = some (job.nextRunTime + day) :=
    h'.eq_some id { job with nextRunTime := job.nextRunTime + day } (Function.update_self ..) rfl
  have hday : job.nextRunTime = job.nextRunTime + day := Option.some.inj (hold.symm.trans hnew)
  rw [day] at hday
  omega

/-- **One firing** of a held flow. -/
theorem statusAgrees_fire_iff (hkeyed : s.Keyed) (hvalid : s.HeldValid) (hagrees : s.StatusAgrees)
    (hworks : env.SchedulerWorks) {id : String} {job : Job} (hjob : s.jobs id = some job)
    (hheld : s.heldFlow job.index = some flow) :
    (s.after (.fire id env)).StatusAgrees ↔ s.TracksFire env id job := by
  obtain ⟨cfg, hcfg, hi⟩ := eq_of_heldFlow hheld
  obtain ⟨n, h₀, h₁₄₃, hslot⟩ := hvalid cfg hcfg flow (List.mem_of_getElem? hi)
  have hbefore : ∀ j flow', s.heldFlow j = some flow' → s.IsNextRun j (s.shownRun flow'.type j) :=
    statusAgrees_iff.mp hagrees
  have hkeyed₁ : (s.advance id job).Keyed := hkeyed.advance hjob
  have hkeyed' : (env.flowEffect job.index flow (s.advance id job)).Keyed :=
    keyed_flowEffect_advance hkeyed hjob hheld
  have hacted : ActedOn env job.index flow (s.advance id job)
    (env.flowEffect job.index flow (s.advance id job)) := actedOn_flowEffect
  -- only the flow at the index of the job matters
  have hflow : (s.after (.fire id env)).StatusAgrees ↔
      (env.flowEffect job.index flow (s.advance id job)).IsNextRun job.index
        ((env.flowEffect job.index flow (s.advance id job)).shownRun flow.type job.index) := by
    have hheld' : ∀ j, (env.flowEffect job.index flow (s.advance id job)).heldFlow j =
        s.heldFlow j := fun j => by
      rw [heldFlow, ServiceEnv.config_flowEffect]
      rfl
    rw [after_fire_of_held hjob hheld, statusAgrees_iff]
    refine ⟨fun h => h _ _ ((hheld' _).trans hheld), fun h j flow' hj => ?_⟩
    rw [hheld'] at hj
    by_cases hindex : j = job.index
    · subst hindex
      obtain rfl : flow = flow' := Option.some.inj (hheld.symm.trans hj)
      exact h
    · exact isNextRun_fire_of_ne hkeyed hjob hheld hindex (hbefore j flow' hj)
  rw [hflow, TracksFire, hheld]
  cases hissues : env.issues job.index flow with
  | error e =>
    have harmed : env.armed job.index flow = none := by rw [ServiceEnv.armed, hissues]
    rw [hacted.isNextRun_iff_of_not_armed hkeyed₁ hkeyed' harmed]
    refine iff_of_false (not_isNextRun_advance hjob (hbefore _ _ hheld)) ?_
    rintro ⟨result, m, hok, -⟩
    rw [hissues] at hok
    cases hok
  | ok result =>
    obtain ⟨harmed, hshows⟩ := armed_shows_of_issues hissues (hworks.arms hslot h₀ h₁₄₃)
      hworks.looksUp hslot
    rw [hacted.isNextRun_iff_of_armed hkeyed₁ hkeyed' harmed hshows rfl]
    refine ⟨fun h => ⟨result, n, hissues, hslot, h⟩, ?_⟩
    rintro ⟨-, m, -, hm, h⟩
    obtain rfl : n = m := Json.int.inj (hslot.symm.trans hm)
    exact h

/-! ### Histories -/

/-- A refresh that returns what has valid slots, or a pull that fails. -/
def Completed (s : ServiceState) (env : ServiceEnv) : Prop :=
  (∃ e, env.pull = .error e) ∨
    ∃ cfg, (eval (NextepAgent.service env) refresh s).1 = .ok cfg ∧ cfg.ValidSlots

/-- The events that a history is made of: refreshes that are completed, and firings, while the
scheduler works. A firing that falls back to a refresh completes it. -/
def Runs (s : ServiceState) : Event → Prop
  | .refresh env => s.Completed env
  | .fire id env => env.SchedulerWorks ∧ ∀ job, s.jobs id = some job →
      s.heldFlow job.index = none → (s.advance id job).Completed env

theorem eval_refresh_of_pull {e : Exc} (h : env.pull = .error e) :
    eval (NextepAgent.service env) refresh s = (.error e, s) :=
  eval_act_bind_of_error (by rw [NextepAgent.service, h])

theorem statusAgrees_refresh_iff (hkeyed : s.Keyed) (hagrees : s.StatusAgrees)
    (hdone : s.Completed env) :
    (eval (NextepAgent.service env) refresh s).2.StatusAgrees ↔ s.TracksRefresh env := by
  rcases hdone with ⟨e, hpull⟩ | ⟨cfg, hret, hslots⟩
  · rw [eval_refresh_of_pull hpull]
    refine iff_of_true hagrees fun cfg hcfg => ?_
    rw [hpull] at hcfg
    cases hcfg
  · obtain ⟨hpull, -, hflows, hs'⟩ := eval_refresh_eq_ok.mp (Prod.ext hret rfl)
    have hafter : (eval (NextepAgent.service env) refresh s).2 = env.refreshEffect cfg s := hs'
    have hkeyed' : (env.refreshEffect cfg s).Keyed := hafter ▸ hkeyed.after (.refresh env)
    rw [hafter]
    exact statusAgrees_refreshEffect_iff hkeyed hkeyed' hslots hpull hflows

/-- A firing that falls back leaves the held flows as they are, before it refreshes. -/
theorem statusAgrees_advance (hkeyed : s.Keyed) (hagrees : s.StatusAgrees) {id : String} {job : Job}
    (hjob : s.jobs id = some job) (hheld : s.heldFlow job.index = none) :
    (s.advance id job).StatusAgrees := by
  rw [statusAgrees_iff] at hagrees ⊢
  intro j flow hj
  have hj' : s.heldFlow j = some flow := hj
  have hne : j ≠ job.index := by
    rintro rfl
    rw [hheld] at hj'
    cases hj'
  obtain ⟨t, rfl⟩ := hkeyed id job hjob
  refine (IsNextRun.congr fun id' job' hindex => ?_).mpr (hagrees j flow hj')
  subst hindex
  rw [advance, jobs_arm]
  by_cases hid : id' = flowJobId t job.index
  · subst hid
    rw [Function.update_self, hjob]
    constructor
    · rintro ⟨⟩
      exact absurd rfl hne
    · rintro ⟨⟩
      exact absurd rfl hne
  · rw [Function.update_of_ne hid]

/-- **One event** keeps the status right just if it tracks the scheduler. -/
theorem statusAgrees_after_iff (hkeyed : s.Keyed) (hvalid : s.HeldValid) (hagrees : s.StatusAgrees)
    (hev : s.Runs ev) : (s.after ev).StatusAgrees ↔ s.Tracks ev := by
  cases ev with
  | refresh env => exact statusAgrees_refresh_iff hkeyed hagrees hev
  | fire id env =>
    cases hjob : s.jobs id with
    | none =>
      rw [ServiceState.after, hjob]
      refine iff_of_true hagrees fun job hjob' => ?_
      rw [hjob] at hjob'
      cases hjob'
    | some job =>
      have htracks : s.Tracks (.fire id env) ↔ s.TracksFire env id job := by
        refine ⟨fun h => h job hjob, fun h job' hjob' => ?_⟩
        obtain rfl : job = job' := Option.some.inj (hjob.symm.trans hjob')
        exact h
      rw [htracks]
      cases hheld : s.heldFlow job.index with
      | some flow => exact statusAgrees_fire_iff hkeyed hvalid hagrees hev.1 hjob hheld
      | none =>
        have hafter : s.after (.fire id env) =
            (eval (NextepAgent.service env) refresh (s.advance id job)).2 := by
          rw [ServiceState.after, hjob]
          exact state_renewOne_of_not_held (s := s.advance id job) hheld
        rw [hafter, TracksFire, hheld]
        exact statusAgrees_refresh_iff (hkeyed.advance hjob)
          (statusAgrees_advance hkeyed hagrees hjob hheld) (hev.2 job hjob hheld)

theorem heldValid_refresh (hvalid : s.HeldValid) (hdone : s.Completed env) :
    (eval (NextepAgent.service env) refresh s).2.HeldValid := by
  rcases hdone with ⟨e, hpull⟩ | ⟨cfg, hret, hslots⟩
  · rwa [eval_refresh_of_pull hpull]
  · obtain ⟨-, -, -, hs'⟩ := eval_refresh_eq_ok.mp (Prod.ext hret rfl)
    have hafter : (eval (NextepAgent.service env) refresh s).2 = env.refreshEffect cfg s := hs'
    intro cfg' hcfg'
    rw [hafter, ServiceEnv.config_refreshEffect] at hcfg'
    cases hcfg'
    exact hslots

theorem heldValid_after (hvalid : s.HeldValid) (hev : s.Runs ev) : (s.after ev).HeldValid := by
  cases ev with
  | refresh env => exact heldValid_refresh hvalid hev
  | fire id env =>
    cases hjob : s.jobs id with
    | none => rwa [ServiceState.after, hjob]
    | some job =>
      cases hheld : s.heldFlow job.index with
      | some flow =>
        intro cfg hcfg
        rw [after_fire_of_held hjob hheld, ServiceEnv.config_flowEffect] at hcfg
        exact hvalid cfg hcfg
      | none =>
        have hadvance : (s.advance id job).HeldValid := hvalid
        rw [ServiceState.after, hjob]
        simp only
        rw [state_renewOne_of_not_held (s := s.advance id job) hheld]
        exact heldValid_refresh hadvance (hev.2 job hjob hheld)

/-- **Status and scheduler.** In a history of completed refreshes and firings, from the start of the
process, the status agrees with the scheduler at all times just if every event tracks it. -/
theorem status_agrees_iff (persisted : Option AgentConfig) (hist : List Event)
    (hruns : ∀ hist₁ ev hist₂, hist = hist₁ ++ ev :: hist₂ →
      ((init persisted).afterAll hist₁).Runs ev) :
    (∀ hist₁ hist₂, hist = hist₁ ++ hist₂ → ((init persisted).afterAll hist₁).StatusAgrees) ↔
      ∀ hist₁ ev hist₂, hist = hist₁ ++ ev :: hist₂ →
        ((init persisted).afterAll hist₁).Tracks ev := by
  have hvalid : Everywhere ServiceState.after HeldValid (init persisted) hist :=
    (everywhere_iff_throughout (C := fun _ _ => True)
      (fun s ev hs hev => iff_of_true (heldValid_after hs hev) trivial)
      (fun cfg hcfg => by cases hcfg) hruns).mpr fun _ _ _ _ => trivial
  have hkeyed : ∀ hist₁, ((init persisted).afterAll hist₁).Keyed :=
    (keyed_init persisted).afterAll
  have hinit : (init persisted).StatusAgrees := fun i entry hentry => by cases hentry
  have hstep : ∀ (s : ServiceState) ev, s.Keyed ∧ s.HeldValid ∧ s.StatusAgrees → s.Runs ev →
      ((s.after ev).Keyed ∧ (s.after ev).HeldValid ∧ (s.after ev).StatusAgrees ↔ s.Tracks ev) := by
    rintro s ev ⟨hk, hv, ha⟩ hev
    rw [← statusAgrees_after_iff hk hv ha hev]
    exact ⟨fun h => h.2.2, fun h => ⟨hk.after ev, heldValid_after hv hev, h⟩⟩
  have hrun : Everywhere ServiceState.after
      (fun s : ServiceState => s.Keyed ∧ s.HeldValid ∧ s.StatusAgrees) (init persisted) hist ↔
      Throughout ServiceState.after ServiceState.Tracks (init persisted) hist :=
    everywhere_iff_throughout hstep ⟨keyed_init persisted, hvalid.start, hinit⟩ hruns
  refine Iff.trans ⟨fun h hist₁ hist₂ hsplit => ?_, fun h hist₁ hist₂ hsplit => ?_⟩ hrun
  · exact ⟨hkeyed hist₁, hvalid hist₁ hist₂ hsplit, h hist₁ hist₂ hsplit⟩
  · exact (h hist₁ hist₂ hsplit).2.2

theorem completed_demo (s : ServiceState) : s.Completed twoFlows :=
  .inr ⟨_, rfl, validSlots_demo⟩

/-- The only other job, after two flows have been armed. -/
theorem othersRun_demo (time : ℤ) :
    (((init none).after (.refresh twoFlows)).advance "renew:internal:0"
      ⟨dailyAt 6, 0, 151 * day⟩).OthersRun .internal 0 time := by
  intro id job hjob hindex hid
  have hjob' : Function.update (Function.update (Function.update (fun _ => none)
      "renew:internal:0" (some (⟨dailyAt 6, 0, 151 * day⟩ : Job))) "renew:internal:1"
      (some ⟨dailyAt 18, 1, 151 * day⟩)) "renew:internal:0"
      (some ⟨dailyAt 6, 0, 151 * day + day⟩) id = some job := hjob
  have hid' : id ≠ "renew:internal:0" := hid
  rw [Function.update_of_ne hid'] at hjob'
  by_cases hother : id = "renew:internal:1"
  · rw [hother, Function.update_self] at hjob'
    cases hjob'
    cases hindex
  · rw [Function.update_of_ne hother, Function.update_of_ne hid'] at hjob'
    cases hjob'

/-- Two flows are issued, and the first one again when it fires. -/
theorem status_agrees_iff_demo :
    ((init none).afterAll [.refresh twoFlows, .fire "renew:internal:0" twoFlows]).StatusAgrees := by
  have hruns : Throughout ServiceState.after Runs (init none)
      [.refresh twoFlows, .fire "renew:internal:0" twoFlows] :=
    throughout_cons.mpr ⟨completed_demo _, throughout_cons.mpr
      ⟨⟨schedulerWorks_demo _, fun _ _ _ => completed_demo _⟩, throughout_nil⟩⟩
  refine (status_agrees_iff none [.refresh twoFlows, .fire "renew:internal:0" twoFlows] hruns).mpr
    ?_ [.refresh twoFlows, .fire "renew:internal:0" twoFlows] [] rfl
  refine throughout_cons.mpr ⟨?_, throughout_cons.mpr ⟨?_, throughout_nil⟩⟩
  · intro cfg hpull i flow hi
    have hnone : ∀ t, (init none).OthersRun flow.type i t := fun t id job hjob => by cases hjob
    cases hpull
    match i, hi with
    | 0, hi => cases hi; exact ⟨fun _ _ _ _ => hnone _, fun e herror => by cases herror⟩
    | 1, hi => cases hi; exact ⟨fun _ _ _ _ => hnone _, fun e herror => by cases herror⟩
  · intro job hjob
    cases hjob
    exact ⟨_, 6, rfl, rfl, othersRun_demo _⟩

/-- **A firing that fails.** The next run has moved on by a day, and the status has not. -/
theorem stale_next_run :
    ¬ ∀ (persisted : Option AgentConfig) (hist : List Event),
      (∀ hist₁ ev hist₂, hist = hist₁ ++ ev :: hist₂ →
        ((init persisted).afterAll hist₁).Runs ev) →
      ((init persisted).afterAll hist).StatusAgrees := by
  intro h
  have hruns : Throughout ServiceState.after Runs (init none)
      [.refresh twoFlows, .fire "renew:internal:0" firstFails] :=
    throughout_cons.mpr ⟨completed_demo _, throughout_cons.mpr
      ⟨⟨⟨fun _ _ h₀ h₂₃ _ _ => if_pos ⟨h₀, h₂₃⟩, fun _ => rfl, fun _ => rfl⟩,
        fun _ _ _ => .inr ⟨_, rfl, validSlots_demo⟩⟩, throughout_nil⟩⟩
  have hagrees := h none [.refresh twoFlows, .fire "renew:internal:0" firstFails] hruns 0 _ rfl
  have hnext := hagrees.eq_some "renew:internal:0" ⟨dailyAt 6, 0, 152 * day⟩ (by decide) rfl
  exact absurd hnext (by decide)

end ServiceState

end NextepAgent
