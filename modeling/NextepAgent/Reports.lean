import NextepAgent.Effect.Transcript
import NextepAgent.Refresh

/-!
# What the agent reports

The server learns of flows from reports only. Here is what a report answers for: that the flow it is
about was attempted, and how it went, that it is armed when it is said to be, and that the next run
in it is the one the scheduler has told and the one the status shows.

Refreshes and firings overlap, and nothing locks what they share. So none of this is said of states.
It is said of the steps of one task and of what they came back with, and holds whatever that is. That
makes it hold of every task in every interleaving.

## Main definitions

* `owed`, `tried` — the flows that were attempted and not reported on since, and all of them
* `Honest` — a report that says what has happened
* `MayTake` — the steps a task may take, after those before
* `Task`, `Task.Complete` — what the threads of the agent do

## Main results

* `keeps_runOneFlow`, `keeps_refresh`, `keeps_renewOne` — one flow, and the two tasks
* `justified_side_by_side` — every task, in every interleaving
-/

namespace NextepAgent

open Effect Program

namespace RefreshService

/-- The steps of a task, with what they came back with. -/
abbrev Steps : Type := List (Exchange Exc serviceSig)

/-! ### Reports that are due -/

/-- One step more. -/
def owedAfter (owed : List ℕ) : Exchange Exc serviceSig → List ℕ
  | ⟨.makeRunner i _, _⟩ => i :: owed
  | ⟨.report i _, .ok _⟩ => owed.erase i
  | _ => owed

/-- The flows that were attempted, and not reported on since. -/
def owed (log : Steps) : List ℕ := log.foldl owedAfter []

/-- The flows that were attempted. -/
def tried (log : Steps) : List ℕ := attempts (log.map Exchange.op)

@[simp] theorem owed_concat (log : Steps) (x : Exchange Exc serviceSig) :
    owed (log ++ [x]) = owedAfter (owed log) x := by
  simp [owed]

@[simp] theorem tried_concat (log : Steps) (x : Exchange Exc serviceSig) :
    tried (log ++ [x]) = tried log ++ attempts [x.op] := by
  simp [tried]

/-- The configuration a task acts on: the pulled one, or the one that was held. -/
def ActsOn (log : Steps) (cfg : AgentConfig) : Prop :=
  Answered log .pull cfg ∨ Answered log .getConfig (some cfg)

/-- A report on flow `i` that says what has happened. -/
inductive Honest (log : Steps) (i : ℕ) : Report → Prop
  /-- The flow was attempted, and that raised. -/
  | failed {cfg : AgentConfig} {flow : FlowConfig} {e : Exc} (acting : ActsOn log cfg)
      (held : cfg.flows[i]? = some flow)
      (raised : ⟨.makeRunner i flow, .error e⟩ ∈ log ∨ ⟨.run i flow, .error e⟩ ∈ log) :
      Honest log i (failedReport cfg flow e)
  /-- The flow was run, it was armed, and the scheduler was asked for its next run. -/
  | issued {cfg : AgentConfig} {flow : FlowConfig} {result : IssueResult} {trigger : CronTrigger}
      {job : Option Job} (acting : ActsOn log cfg) (held : cfg.flows[i]? = some flow)
      (ran : Answered log (.run i flow) result)
      (armed : Answered log (.addJob (flowJobId flow.type i) trigger i) ())
      (asked : Answered log (.getJob (flowJobId flow.type i)) job)
      (shown : Answered log (.setNextRun (flowJobId flow.type i) (job.map Job.nextRunTime)) ()) :
      Honest log i (issuedReport cfg flow result (job.map Job.nextRunTime))

/-- The steps a task may take, after those before. -/
def MayTake (log : Steps) : ServiceOp → Prop
  | .pull => tried log = []
  | .setConfig cfg => Answered log .pull cfg
  | .writeConfig cfg => Answered log .pull cfg ∧ Answered log (.setConfig cfg) ()
  | .makeRunner i flow => owed log = [] ∧ (∀ j ∈ tried log, j < i) ∧
    ∃ cfg, ActsOn log cfg ∧ cfg.flows[i]? = some flow
  | .run i flow => Answered log (.makeRunner i flow) ()
  | .addJob id _ i => ∃ flow result, Answered log (.run i flow) result ∧ id = flowJobId flow.type i
  | .setNextRun id t => ∃ trigger i job, Answered log (.addJob id trigger i) () ∧
    Answered log (.getJob id) job ∧ t = job.map Job.nextRunTime
  | .report i r => owed log = [i] ∧ Honest log i r
  | _ => True

/-! ### Quiet steps -/

/-- More steps, with no attempt and no report among them. -/
structure Quiet (log log' : Steps) : Prop where
  more : log <+: log'
  owed : owed log' = owed log
  tried : tried log' = tried log

theorem Quiet.refl (log : Steps) : Quiet log log := ⟨List.prefix_rfl, rfl, rfl⟩

theorem Quiet.trans {log log' log'' : Steps} (h : Quiet log log') (h' : Quiet log' log'') :
    Quiet log log'' :=
  ⟨h.more.trans h'.more, h'.owed.trans h.owed, h'.tried.trans h.tried⟩

theorem Silent.owedAfter {o : ServiceOp} (h : Silent o) (r : Except Exc o.Ans) (due : List ℕ) :
    owedAfter due ⟨o, r⟩ = due := by
  cases o with
  | makeRunner i flow => cases h.1
  | report i rep => exact absurd (h.2 i) (by simp [ServiceOp.reportOn])
  | _ => rfl

theorem Silent.quiet {o : ServiceOp} (h : Silent o) (log : Steps) (r : Except Exc o.Ans) :
    Quiet log (log ++ [⟨o, r⟩]) where
  more := List.prefix_append ..
  owed := by rw [owed_concat, h.owedAfter]
  tried := by
    have hnone : attempts [o] = [] := List.filterMap_cons_none h.1
    rw [tried_concat, hnone, List.append_nil]

/-! ### One flow -/

variable {log log' : Steps} {cfg : AgentConfig} {i : ℕ} {flow : FlowConfig}

theorem ActsOn.mono (h : ActsOn log cfg) (hmore : log <+: log') : ActsOn log' cfg :=
  h.imp (fun h => h.mono hmore) fun h => h.mono hmore

theorem Honest.mono {r : Report} (h : Honest log i r) (hmore : log <+: log') : Honest log' i r := by
  cases h with
  | failed acting held raised =>
    exact .failed (acting.mono hmore) held (raised.imp (hmore.subset ·) (hmore.subset ·))
  | issued acting held ran armed asked shown =>
    exact .issued (acting.mono hmore) held (ran.mono hmore) (armed.mono hmore) (asked.mono hmore)
      (shown.mono hmore)

theorem keeps_act {o : ServiceOp} {post : Steps → Except Exc o.Ans → Prop} (ho : MayTake log o)
    (hpost : ∀ r, post (log ++ [⟨o, r⟩]) r) : Keeps MayTake post log (act o) :=
  keeps_perform ho hpost

/-- After a report, if it was sent. -/
def Sent (log log' : Steps) {α : Type} (r : Except Exc α) : Prop :=
  r.isOk = true → log <+: log' ∧ owed log' = [] ∧ tried log' = tried log

theorem sent_error (log log' : Steps) {α : Type} (e : Exc) :
    Sent log log' (.error e : Except Exc α) := fun h => by cases h

theorem keeps_sendReport {r : Report} (howed : owed log = [i]) (hr : Honest log i r) :
    Keeps MayTake (fun log' ended => Sent log log' ended) log (sendReport i r) := by
  refine keeps_perform_bind trivial (fun _ => ?_) fun e => sent_error _ _ e
  have hsilent : Silent (.reportClient i) := ⟨rfl, fun _ => rfl⟩
  have hquiet := hsilent.quiet log (.ok ())
  refine keeps_act ⟨hquiet.owed.trans howed, hr.mono hquiet.more⟩ fun ended hok => ?_
  cases ended with
  | error e => cases hok
  | ok _ =>
    refine ⟨hquiet.more.trans (List.prefix_append ..), ?_, ?_⟩
    · rw [owed_concat, hquiet.owed, howed]
      exact List.erase_cons_head ..
    · rw [tried_concat, hquiet.tried]
      exact List.append_nil _

/-- After the `try` block of flow `i`. -/
structure Ended (log log' : Steps) (i : ℕ) (flow : FlowConfig) (ended : Except Exc IssueResult) :
    Prop where
  more : log <+: log'
  owed : owed log' = [i]
  tried : tried log' = tried log ++ [i]
  raised : ∀ e, ended = .error e →
    ⟨.makeRunner i flow, .error e⟩ ∈ log' ∨ ⟨.run i flow, .error e⟩ ∈ log'
  ran : ∀ result, ended = .ok result → Answered log' (.run i flow) result

theorem keeps_attempt (howed : owed log = []) (htried : ∀ j ∈ tried log, j < i)
    (hacts : ActsOn log cfg) (hheld : cfg.flows[i]? = some flow) :
    Keeps MayTake (fun log' r => ∃ ended, r = .ok ended ∧ Ended log log' i flow ended) log
      (attempt i flow) := by
  have hmade : ∀ r, owed (log ++ [⟨.makeRunner i flow, r⟩]) = [i] ∧
      tried (log ++ [⟨.makeRunner i flow, r⟩]) = tried log ++ [i] := by
    intro r
    rw [owed_concat, tried_concat, howed]
    exact ⟨rfl, rfl⟩
  have hran : ∀ r r', Quiet (log ++ [⟨.makeRunner i flow, r⟩])
      (log ++ [⟨.makeRunner i flow, r⟩] ++ [⟨.run i flow, r'⟩]) := by
    intro r r'
    have hsilent : Silent (.run i flow) := ⟨rfl, fun _ => rfl⟩
    exact hsilent.quiet _ r'
  have hended : ∀ r r' ended, (∀ e, ended = .error e → r' = .error e) →
      (∀ result, ended = .ok result → r' = .ok result) →
        Ended log (log ++ [⟨.makeRunner i flow, r⟩] ++ [⟨.run i flow, r'⟩]) i flow ended := by
    intro r r' ended herror hok
    refine ⟨(List.prefix_append ..).trans (hran r r').more, (hran r r').owed.trans (hmade r).1,
      (hran r r').tried.trans (hmade r).2, fun e he => ?_, fun result hresult => ?_⟩
    · rw [herror e he]
      exact .inr (List.mem_append_right _ (List.mem_singleton_self _))
    · rw [hok result hresult]
      exact answered_last _ _ _
  have hblock : Keeps MayTake (fun log' r => Ended log log' i flow (r.bind id)) log (do
      act (.makeRunner i flow)
      let result ← act (.run i flow)
      return .ok result) := by
    refine keeps_perform_bind ⟨howed, htried, cfg, hacts, hheld⟩ (fun _ => ?_) fun e => ?_
    · refine keeps_perform_bind (answered_last _ _ _) (fun result => ?_) fun e => ?_
      · exact hended _ _ _ (fun e h => by cases h) fun result' h => h
      · exact hended _ _ _ (fun e' h => h) fun result' h => by cases h
    · refine ⟨List.prefix_append .., (hmade _).1, (hmade _).2, fun e' h => ?_, fun _ h => by cases h⟩
      cases h
      exact .inl (List.mem_append_right _ (List.mem_singleton_self _))
  exact hblock.tryCatch (fun log' ended h => ⟨ended, rfl, h⟩) fun log' e h => ⟨.error e, rfl, h⟩

theorem keeps_scheduleFlowDaily {result : IssueResult} (hran : Answered log (.run i flow) result) :
    Keeps MayTake (fun log' r => Quiet log log' ∧ (r = .ok () → ∃ trigger,
        Answered log' (.addJob (flowJobId flow.type i) trigger i) ())) log
      (RenewalScheduler.scheduleFlowDaily (flowJobId flow.type i) flow.slot i) := by
  refine keeps_ofExcept_bind (fun time _ => ?_) fun e _ => ⟨.refl log, fun h => by cases h⟩
  have hsilent : Silent (.cronTrigger time.1 time.2) := ⟨rfl, fun _ => rfl⟩
  have hcron := hsilent.quiet log
  refine keeps_perform_bind trivial (fun trigger => ?_) fun e => ⟨hcron _, fun h => by cases h⟩
  have hadd : Silent (.addJob (flowJobId flow.type i) trigger i) := ⟨rfl, fun _ => rfl⟩
  refine keeps_act ⟨flow, result, hran.mono (hcron _).more, rfl⟩ fun r =>
    ⟨(hcron _).trans (hadd.quiet _ r), fun h => ⟨trigger, ?_⟩⟩
  rw [h]
  exact answered_last _ _ _

theorem keeps_nextRunFor (id : String) :
    Keeps MayTake (fun log' r => Quiet log log' ∧ ∀ nextRun, r = .ok nextRun → ∃ job,
        Answered log' (.getJob id) job ∧ nextRun = job.map Job.nextRunTime) log
      (RenewalScheduler.nextRunFor id) := by
  have hsilent : Silent (.getJob id) := ⟨rfl, fun _ => rfl⟩
  refine keeps_perform_bind trivial (fun job => ⟨hsilent.quiet log _, fun nextRun h => ?_⟩) fun e =>
    ⟨hsilent.quiet log _, fun nextRun h => by cases h⟩
  exact ⟨job, answered_last _ _ _, (Except.ok.inj h).symm⟩

/-- After a flow, if the task goes on. -/
def Settled (log log' : Steps) (i : ℕ) (r : Except Exc Unit) : Prop :=
  r.isOk = true → log <+: log' ∧ owed log' = [] ∧ tried log' = tried log ++ [i]

theorem settled_error (log log' : Steps) (i : ℕ) (e : Exc) : Settled log log' i (.error e) :=
  fun h => by cases h

theorem Ended.settled {ended : Except Exc IssueResult} {log'' : Steps} {r : Except Exc Unit}
    (h : Ended log log' i flow ended) (hsent : Sent log' log'' r) : Settled log log'' i r := fun hok =>
  have hs := hsent hok
  ⟨h.more.trans hs.1, hs.2.1, hs.2.2.trans h.tried⟩

/-- **One flow** is attempted, and then it is reported on, unless the scheduler raises. -/
theorem keeps_runOneFlow (howed : owed log = []) (htried : ∀ j ∈ tried log, j < i)
    (hacts : ActsOn log cfg) (hheld : cfg.flows[i]? = some flow) :
    Keeps MayTake (fun log' r => Settled log log' i r) log (runOneFlow cfg i flow) := by
  refine (keeps_attempt howed htried hacts hheld).bind (fun log₁ ended h => ?_) fun log₁ e h => ?_
  · obtain ⟨ended', hended', h⟩ := h
    cases hended'
    have hacts₁ := hacts.mono h.more
    cases ended with
    | error e =>
      have hhonest : Honest log₁ i (failedReport cfg flow e) := .failed hacts₁ hheld (h.raised e rfl)
      exact (keeps_sendReport h.owed hhonest).mono fun log₂ r hsent => h.settled hsent
    | ok result =>
      have hran := h.ran result rfl
      refine (keeps_scheduleFlowDaily hran).bind (fun log₂ _ hsched => ?_) fun _ e _ =>
        settled_error _ _ _ e
      obtain ⟨hquiet₂, hadded⟩ := hsched
      obtain ⟨trigger, harmed⟩ := hadded rfl
      refine (keeps_nextRunFor _).bind (fun log₃ nextRun hnext => ?_) fun _ e _ =>
        settled_error _ _ _ e
      obtain ⟨hquiet₃, hasked⟩ := hnext
      obtain ⟨job, hjob, rfl⟩ := hasked nextRun rfl
      have harmed₃ := harmed.mono hquiet₃.more
      refine keeps_perform_bind ⟨trigger, i, job, harmed₃, hjob, rfl⟩ (fun _ => ?_) fun e =>
        settled_error _ _ _ e
      have hsilent : Silent (.setNextRun (flowJobId flow.type i) (job.map Job.nextRunTime)) :=
        ⟨rfl, fun _ => rfl⟩
      have hquiet₄ := (hquiet₂.trans hquiet₃).trans (hsilent.quiet log₃ (.ok ()))
      have hmore₄ := (hsilent.quiet log₃ (.ok ())).more
      have hhonest : Honest _ i (issuedReport cfg flow result (job.map Job.nextRunTime)) :=
        .issued (hacts₁.mono hquiet₄.more) hheld (hran.mono hquiet₄.more) (harmed₃.mono hmore₄)
          (hjob.mono hmore₄) (answered_last _ _ _)
      refine (keeps_sendReport (hquiet₄.owed.trans h.owed) hhonest).mono fun log₅ r hsent hok => ?_
      obtain ⟨hmore, howed₅, htried₅⟩ := hsent hok
      exact ⟨(h.more.trans hquiet₄.more).trans hmore, howed₅,
        (htried₅.trans hquiet₄.tried).trans h.tried⟩
  · obtain ⟨ended, hended, -⟩ := h
    cases hended

/-! ### Tasks -/

theorem keeps_runFlows {flows : List FlowConfig} (howed : owed log = [])
    (htried : ∀ j ∈ tried log, j < i) (hacts : ActsOn log cfg)
    (hheld : ∀ m flow, flows[m]? = some flow → cfg.flows[i + m]? = some flow) :
    Keeps MayTake (fun log' r => r.isOk = true →
        log <+: log' ∧ owed log' = [] ∧ tried log' = tried log ++ List.range' i flows.length) log
      (runFlows cfg i flows) := by
  induction flows generalizing log i with
  | nil =>
    intro _
    exact ⟨List.prefix_rfl, howed, (List.append_nil _).symm⟩
  | cons flow flows ih =>
    refine (keeps_runOneFlow howed htried hacts (hheld 0 flow rfl)).bind (fun log₁ _ h => ?_)
      fun _ e _ h => by cases h
    obtain ⟨hmore, howed₁, htried₁⟩ := h rfl
    have hlt : ∀ j ∈ tried log₁, j < i + 1 := by
      intro j hj
      rw [htried₁, List.mem_append, List.mem_singleton] at hj
      rcases hj with hj | rfl
      · exact (htried j hj).trans (Nat.lt_succ_self i)
      · exact Nat.lt_succ_self j
    have hheld₁ : ∀ m flow', flows[m]? = some flow' → cfg.flows[i + 1 + m]? = some flow' := by
      intro m flow' hm
      rw [Nat.add_right_comm]
      exact hheld (m + 1) flow' hm
    refine (ih howed₁ hlt (hacts.mono hmore) hheld₁).mono fun log₂ r h₂ hok => ?_
    obtain ⟨hmore₂, howed₂, htried₂⟩ := h₂ hok
    refine ⟨hmore.trans hmore₂, howed₂, ?_⟩
    rw [htried₂, htried₁, List.append_assoc]
    rfl

theorem keeps_persist (hpull : Answered log .pull cfg) (hset : Answered log (.setConfig cfg) ()) :
    Keeps MayTake (fun log' _ => Quiet log log') log (persist cfg) := by
  have hdumps : Silent (.dumps cfg) := ⟨rfl, fun _ => rfl⟩
  have hmake : Silent .makedirs := ⟨rfl, fun _ => rfl⟩
  have hwrite : Silent (.writeConfig cfg) := ⟨rfl, fun _ => rfl⟩
  have hchmod : Silent (.chmodConfig 0o600) := ⟨rfl, fun _ => rfl⟩
  have hblock : Keeps MayTake (fun log' _ => Quiet log log') log (do
      act (.dumps cfg)
      act .makedirs
      act (.writeConfig cfg)
      act (.chmodConfig 0o600)) := by
    refine keeps_perform_bind trivial (fun _ => ?_) fun e => hdumps.quiet log _
    have htext := hdumps.quiet log (.ok ())
    refine keeps_perform_bind trivial (fun _ => ?_) fun e => htext.trans (hmake.quiet _ _)
    have hquiet := htext.trans (hmake.quiet _ (.ok ()))
    refine keeps_perform_bind ⟨hpull.mono hquiet.more, hset.mono hquiet.more⟩ (fun _ => ?_) fun e =>
      hquiet.trans (hwrite.quiet _ _)
    exact keeps_act trivial fun r => (hquiet.trans (hwrite.quiet _ _)).trans (hchmod.quiet _ r)
  refine hblock.tryCatch (fun log' _ h => h) fun log' e h => ?_
  split
  · exact h
  · exact h

/-- All flows of the pulled configuration were attempted. -/
def Swept (log : Steps) : Prop :=
  ∃ cfg, Answered log .pull cfg ∧ tried log = List.range cfg.flows.length

/-- **A refresh.** -/
theorem keeps_refresh (howed : owed log = []) (htried : tried log = []) :
    Keeps MayTake (fun log' r => r.isOk = true → owed log' = [] ∧ Swept log') log refresh := by
  refine keeps_perform_bind htried (fun cfg => ?_) fun e h => by cases h
  have hpull : Silent .pull := ⟨rfl, fun _ => rfl⟩
  have hset : Silent (.setConfig cfg) := ⟨rfl, fun _ => rfl⟩
  have hquiet₁ := hpull.quiet log (.ok cfg)
  have hpulled := answered_last log ServiceOp.pull cfg
  refine keeps_perform_bind hpulled (fun _ => ?_) fun e h => by cases h
  have hquiet₂ := hset.quiet (log ++ [⟨.pull, .ok cfg⟩]) (.ok ())
  have hpulled₂ := hpulled.mono hquiet₂.more
  refine (keeps_persist hpulled₂ (answered_last _ _ _)).bind (fun log₃ _ hquiet₃ => ?_)
    fun _ e _ h => by cases h
  have hquiet := (hquiet₁.trans hquiet₂).trans hquiet₃
  have htried₃ : tried log₃ = [] := hquiet.tried.trans htried
  have hnone : ∀ j ∈ tried log₃, j < 0 := by
    rw [htried₃]
    intro j hj
    cases hj
  have hheld : ∀ m flow, cfg.flows[m]? = some flow → cfg.flows[0 + m]? = some flow := by
    intro m flow hm
    rwa [Nat.zero_add]
  have hpulled₃ := hpulled₂.mono hquiet₃.more
  refine (keeps_runFlows (hquiet.owed.trans howed) hnone (.inl hpulled₃) hheld).bind
    (fun log₄ _ h => ?_) fun _ e _ h => by cases h
  obtain ⟨hmore, howed₄, htried₄⟩ := h rfl
  intro _
  refine ⟨howed₄, cfg, hpulled₃.mono hmore, ?_⟩
  rw [htried₄, htried₃, List.nil_append, List.range_eq_range']

/-- **A firing.** -/
theorem keeps_renewOne (index : ℕ) :
    Keeps MayTake (fun log' r => r.isOk = true → owed log' = [] ∧ (tried log' = [index] ∨ Swept log')) []
      (renewOne index) := by
  have hrefresh : ∀ held, Keeps MayTake
      (fun log' r => r.isOk = true → owed log' = [] ∧ (tried log' = [index] ∨ Swept log'))
        ([] ++ [⟨.getConfig, .ok held⟩]) (do
          let _ ← refresh
          return ()) := by
    intro held
    refine (keeps_refresh rfl rfl).bind (fun log' _ h _ => ?_) fun _ e _ h => by cases h
    exact ⟨(h rfl).1, .inr (h rfl).2⟩
  refine keeps_perform_bind trivial (fun held => ?_) fun e h => by cases h
  cases held with
  | none => exact hrefresh none
  | some cfg =>
    dsimp only
    cases hflow : cfg.flows[index]? with
    | none => exact hrefresh (some cfg)
    | some flow =>
      have hacts : ActsOn ([] ++ [⟨.getConfig, .ok (some cfg)⟩]) cfg := .inr (answered_last _ _ _)
      refine (keeps_runOneFlow rfl (fun j hj => by cases hj) hacts hflow).mono fun log' r h hok => ?_
      obtain ⟨-, howed, htried⟩ := h hok
      exact ⟨howed, .inl htried⟩

/-- What the agent's threads do: a refresh, or the job of an index. -/
inductive Task
  | refresh
  | renewOne (index : ℕ)

/-- The program of a task. -/
def Task.steps : Task → Service Unit
  | .refresh => do
    let _ ← RefreshService.refresh
    return ()
  | .renewOne index => RefreshService.renewOne index

/-- All that a task was for has been attempted. -/
def Task.Complete (log : Steps) : Task → Prop
  | .refresh => Swept log
  | .renewOne index => tried log = [index] ∨ Swept log

theorem keeps_task (task : Task) :
    Keeps MayTake (fun log r => r.isOk = true → owed log = [] ∧ task.Complete log) [] task.steps := by
  cases task with
  | refresh =>
    exact (keeps_refresh rfl rfl).bind (fun log _ h _ => h rfl) fun _ e _ h => by cases h
  | renewOne index => exact keeps_renewOne index

end RefreshService

end NextepAgent
