import NextepAgent.Refresh

/-!
# Slots and time zones

A slot is decoded to an hour and a minute, and these are given to a `CronTrigger` of its own. The
scheduler was constructed with `timezone="UTC"`, but it does not hand its zone to a trigger that
comes as an instance. What the hour and the minute mean is up to the zone of the host.

A zone is an arbitrary function from instants to offsets, so that rules that change over the year are
included. The slots of a host are in UTC exactly when its offset does not show at any instant where a
slot begins, by UTC or by the clock of the host. And then, and only then, flows with different slots
are kept apart as they are meant to be.

## Main definitions

* `CronTrigger.FiresAt` — on a host with the given offsets
* `FiresInUtc`, `Deconflicted` — what the slots are for
* `OnUtc` — the offset does not show where a slot begins

## Main results

* `eval_scheduleFlowDaily_int` — what a slot arms
* `firesInUtc_iff` — one host
* `slots_utc_iff` — two hosts
-/

namespace NextepAgent

open Effect Program

/-- In microseconds, like `day`. -/
def minutes (n : ℤ) : ℤ := n * 60000000

/-- The time of day that a trigger is set to has come, on the clock of a host which at instant `t` is
`off t` ahead of UTC. -/
def CronTrigger.FiresAt (off : ℤ → ℤ) : CronTrigger → ℤ → Prop
  | ⟨.int hour, .int minute⟩, t => (t + off t) % day = minutes (60 * hour + minute)
  | _, _ => False

/-- The job under `id`, after `schedule_flow_daily(id, slot, renew_one, index)`. -/
def scheduledJob (env : ServiceEnv) (s : ServiceState) (id : String) (slot : ℤ) (index : ℕ) :
    Option Job :=
  (eval (service env) (RenewalScheduler.scheduleFlowDaily id (.int slot) index) s).2.jobs id

/-- On this host, the job of every slot fires exactly when it is `slot * 10` minutes past midnight in
UTC. -/
def FiresInUtc (env : ServiceEnv) (off : ℤ → ℤ) : Prop :=
  ∀ (s : ServiceState) (id : String) (slot : ℤ) (index : ℕ), 0 ≤ slot → slot ≤ 143 →
    ∃ job, scheduledJob env s id slot index = some job ∧
      ∀ t, job.trigger.FiresAt off t ↔ t % day = minutes (slot * 10)

/-- On these two hosts, jobs of different slots never fire at the same instant. -/
def Deconflicted (env env' : ServiceEnv) (off off' : ℤ → ℤ) : Prop :=
  ∀ (s s' : ServiceState) (id id' : String) (slot slot' : ℤ) (index index' : ℕ) (job job' : Job),
    0 ≤ slot → slot ≤ 143 → 0 ≤ slot' → slot' ≤ 143 → slot ≠ slot' →
    scheduledJob env s id slot index = some job → scheduledJob env' s' id' slot' index' = some job' →
      ∀ t, ¬ (job.trigger.FiresAt off t ∧ job'.trigger.FiresAt off' t)

/-- A slot begins at `t`, on a clock that is `shift` ahead of UTC. -/
def SlotBegins (shift t : ℤ) : Prop := (t + shift) % minutes 10 = 0

/-- Wherever a slot begins, in UTC or on the clock of the host, the two clocks show the same time of
day. -/
def OnUtc (off : ℤ → ℤ) : Prop :=
  ∀ t, SlotBegins 0 t ∨ SlotBegins (off t) t → off t % day = 0

/-! ### What a slot arms -/

section

variable {env env' : ServiceEnv} {off off' : ℤ → ℤ} {s : ServiceState} {id : String} {slot : ℤ}
  {index : ℕ}

/-- **What a slot arms.** -/
theorem eval_scheduleFlowDaily_int (h : env.SchedulerWorks) (h₀ : 0 ≤ slot) (h₁₄₃ : slot ≤ 143) :
    eval (service env) (RenewalScheduler.scheduleFlowDaily id (.int slot) index) s =
      (.ok (), s.arm id ⟨dailyAt slot, index, env.nextFire (dailyAt slot)⟩) := by
  have hcron : env.cronTrigger (.int (slot * 10 / 60)) (.int (slot * 10 % 60)) = none :=
    h.cronTrigger _ _ (by omega) (by omega) (by omega) (by omega)
  rw [RenewalScheduler.scheduleFlowDaily, slotTime_int, ofExcept_ok, ret_bind]
  have htrigger : service env (.cronTrigger (.int (slot * 10 / 60)) (.int (slot * 10 % 60))) s =
      (.ok (dailyAt slot), s) := by
    rw [service]
    simp only [dailyAt, hcron]
    rfl
  refine (RefreshService.eval_act_bind_of_ok htrigger).trans ?_
  rw [eval_act, service, h.addJob]

theorem scheduledJob_eq (h : env.SchedulerWorks) (h₀ : 0 ≤ slot) (h₁₄₃ : slot ≤ 143) :
    scheduledJob env s id slot index = some ⟨dailyAt slot, index, env.nextFire (dailyAt slot)⟩ := by
  rw [scheduledJob, eval_scheduleFlowDaily_int h h₀ h₁₄₃]
  simp

/-- The clock of the host is what counts. -/
theorem firesAt_dailyAt (slot t : ℤ) :
    (dailyAt slot).FiresAt off t ↔ (t + off t) % day = minutes (slot * 10) := by
  have htime : 60 * (slot * 10 / 60) + slot * 10 % 60 = slot * 10 := by omega
  rw [dailyAt, CronTrigger.FiresAt, htime]

/-- Where a slot begins, it is some slot of the day. -/
theorem SlotBegins.exists_slot {shift t : ℤ} (h : SlotBegins shift t) :
    ∃ slot, 0 ≤ slot ∧ slot ≤ 143 ∧ (t + shift) % day = minutes (slot * 10) := by
  refine ⟨(t + shift) % day / minutes 10, ?_⟩
  simp only [SlotBegins, minutes, day] at h ⊢
  omega

theorem slotBegins_of_eq {shift t : ℤ} (h : (t + shift) % day = minutes (slot * 10)) :
    SlotBegins shift t := by
  simp only [SlotBegins, minutes, day] at h ⊢
  omega

/-! ### One host -/

/-- **One host**: its slots are in UTC just if its clock is, wherever a slot begins. -/
theorem firesInUtc_iff (h : env.SchedulerWorks) : FiresInUtc env off ↔ OnUtc off := by
  have hjob : FiresInUtc env off ↔ ∀ slot, 0 ≤ slot → slot ≤ 143 → ∀ t,
      (t + off t) % day = minutes (slot * 10) ↔ t % day = minutes (slot * 10) := by
    constructor
    · intro hfires slot h₀ h₁₄₃ t
      obtain ⟨job, hjob, hjobFires⟩ := hfires (.init none) "" slot 0 h₀ h₁₄₃
      rw [scheduledJob_eq h h₀ h₁₄₃] at hjob
      cases hjob
      exact (firesAt_dailyAt slot t).symm.trans (hjobFires t)
    · intro hall s id slot index h₀ h₁₄₃
      refine ⟨_, scheduledJob_eq h h₀ h₁₄₃, fun t => ?_⟩
      rw [firesAt_dailyAt]
      exact hall slot h₀ h₁₄₃ t
  rw [hjob]
  constructor
  · rintro hall t (hbegins | hbegins)
    · obtain ⟨slot, h₀, h₁₄₃, hslot⟩ := hbegins.exists_slot
      rw [Int.add_zero] at hslot
      have hlocal := (hall slot h₀ h₁₄₃ t).mpr hslot
      simp only [day] at hslot hlocal ⊢
      omega
    · obtain ⟨slot, h₀, h₁₄₃, hslot⟩ := hbegins.exists_slot
      have hutc := (hall slot h₀ h₁₄₃ t).mp hslot
      simp only [day] at hslot hutc ⊢
      omega
  · intro hutc slot h₀ h₁₄₃ t
    constructor
    · intro hlocal
      have hoff := hutc t (.inr (slotBegins_of_eq hlocal))
      rw [← hlocal]
      simp only [day] at hoff ⊢
      omega
    · intro hslot
      have hoff := hutc t (.inl (slotBegins_of_eq (by rwa [Int.add_zero])))
      rw [← hslot]
      simp only [day] at hoff ⊢
      omega

/-! ### Two hosts -/

/-- Jobs of different slots are kept apart just if, wherever a slot begins on both clocks, these show
the same time of day. -/
theorem deconflicted_iff (h : env.SchedulerWorks) (h' : env'.SchedulerWorks) :
    Deconflicted env env' off off' ↔
      ∀ t, SlotBegins (off t) t → SlotBegins (off' t) t → (off t - off' t) % day = 0 := by
  constructor
  · intro hapart t hbegins hbegins'
    obtain ⟨slot, h₀, h₁₄₃, hslot⟩ := hbegins.exists_slot
    obtain ⟨slot', h₀', h₁₄₃', hslot'⟩ := hbegins'.exists_slot
    by_contra hoff
    have hne : slot ≠ slot' := by
      rintro rfl
      simp only [day] at hslot hslot' hoff
      omega
    refine hapart (.init none) (.init none) "" "" slot slot' 0 0 _ _ h₀ h₁₄₃ h₀' h₁₄₃' hne
      (scheduledJob_eq h h₀ h₁₄₃) (scheduledJob_eq h' h₀' h₁₄₃') t ?_
    exact ⟨(firesAt_dailyAt slot t).mpr hslot, (firesAt_dailyAt slot' t).mpr hslot'⟩
  · intro hsame s s' id id' slot slot' index index' job job' h₀ h₁₄₃ h₀' h₁₄₃' hne hjob hjob' t
    rw [scheduledJob_eq h h₀ h₁₄₃] at hjob
    rw [scheduledJob_eq h' h₀' h₁₄₃'] at hjob'
    cases hjob
    cases hjob'
    rintro ⟨hfires, hfires'⟩
    rw [firesAt_dailyAt] at hfires hfires'
    have hoff := hsame t (slotBegins_of_eq hfires) (slotBegins_of_eq hfires')
    simp only [day, minutes] at hfires hfires' hoff
    omega

/-- **Slots in UTC.** On two hosts the slots are in UTC and kept apart just if both clocks are on UTC,
wherever a slot begins. -/
theorem slots_utc_iff (env env' : ServiceEnv) (off off' : ℤ → ℤ) (h : env.SchedulerWorks)
    (h' : env'.SchedulerWorks) :
    (FiresInUtc env off ∧ FiresInUtc env' off' ∧ Deconflicted env env' off off') ↔
      OnUtc off ∧ OnUtc off' := by
  rw [firesInUtc_iff h, firesInUtc_iff h', deconflicted_iff h h']
  refine ⟨fun ⟨hoff, hoff', _⟩ => ⟨hoff, hoff'⟩, fun ⟨hoff, hoff'⟩ => ⟨hoff, hoff', ?_⟩⟩
  intro t hbegins hbegins'
  have hzero := hoff t (.inr hbegins)
  have hzero' := hoff' t (.inr hbegins')
  simp only [day] at hzero hzero' ⊢
  omega

end

theorem slots_utc_iff_demo :
    FiresInUtc (demoServiceEnv (slottedConfig [])) (fun _ => 0) :=
  ((slots_utc_iff (demoServiceEnv (slottedConfig [])) (demoServiceEnv (slottedConfig []))
    (fun _ => 0) (fun _ => 0) (schedulerWorks_demo _) (schedulerWorks_demo _)).mpr
      ⟨fun _ _ => rfl, fun _ _ => rfl⟩).1

/-- **An hour ahead of UTC.** Slot 0 fires at 23:00 UTC, which is when slot 138 of a host on UTC
fires. -/
theorem slots_an_hour_ahead :
    ¬ ∀ (env env' : ServiceEnv) (off off' : ℤ → ℤ), env.SchedulerWorks → env'.SchedulerWorks →
      FiresInUtc env off ∧ FiresInUtc env' off' ∧ Deconflicted env env' off off' := by
  intro h
  obtain ⟨hfires, -, -⟩ := h (demoServiceEnv (slottedConfig [])) (demoServiceEnv (slottedConfig []))
    (fun _ => minutes 60) (fun _ => 0) (schedulerWorks_demo _) (schedulerWorks_demo _)
  have hutc := (firesInUtc_iff (schedulerWorks_demo _)).mp hfires 0 (.inl rfl)
  exact absurd hutc (by decide)

end NextepAgent
