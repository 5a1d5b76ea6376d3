import NextepAgent.Effect.Interleaving
import NextepAgent.Refresh

/-!
# Refreshes side by side

The refresh at boot runs in one thread and every nudge starts another. They share the held
configuration, `config.json` and the job table, and nothing orders their steps. A refresh that has
pulled an old version and is slow to act on it can overwrite a newer one, in memory, on disk or in
only one of the two.

Both places are registers, so what they hold when all refreshes have returned is what the last call
put there. It is the newest version pulled just if both last calls were made by refreshes that had
pulled it.

## Main definitions

* `RefreshService.raced`, `RefreshService.raceLog` — refreshes side by side
* `RefreshService.Newest` — a refresh that has pulled the newest version

## Main results

* `RefreshService.newest_iff`
-/

namespace NextepAgent

open Effect Program

namespace RefreshService

/-! ### The registers -/

/-- What a step puts in the held configuration. -/
def heldWrite : ServiceOp → Option (Option AgentConfig)
  | .setConfig cfg => some (some cfg)
  | _ => none

/-- What a step puts in `config.json`. -/
def storedWrite : ServiceOp → Option (Option AgentConfig)
  | .writeConfig cfg => some (some cfg)
  | _ => none

theorem heldWrite_eq_some {o : ServiceOp} {v : Option AgentConfig} (h : heldWrite o = some v) :
    ∃ cfg, o = .setConfig cfg ∧ v = some cfg := by
  cases o with
  | setConfig cfg => cases h; exact ⟨cfg, rfl, rfl⟩
  | _ => cases h

theorem storedWrite_eq_some {o : ServiceOp} {v : Option AgentConfig} (h : storedWrite o = some v) :
    ∃ cfg, o = .writeConfig cfg ∧ v = some cfg := by
  cases o with
  | writeConfig cfg => cases h; exact ⟨cfg, rfl, rfl⟩
  | _ => cases h

/-- Only `setConfig` touches the held configuration. -/
theorem config_service {env : ServiceEnv} {o : ServiceOp} {s : ServiceState}
    (h : heldWrite o = none) : (service env o s).2.config = s.config := by
  cases o with
  | setConfig cfg => cases h
  | writeConfig cfg =>
    rw [service]
    cases env.writeConfig <;> rfl
  | addJob id t i =>
    rw [service]
    cases env.addJob id <;> rfl
  | _ => rfl

/-- Only `writeConfig` touches the file. -/
theorem persisted_service {env : ServiceEnv} {o : ServiceOp} {s : ServiceState}
    (h : storedWrite o = none) : (service env o s).2.persisted = s.persisted := by
  cases o with
  | writeConfig cfg => cases h
  | addJob id t i =>
    rw [service]
    cases env.addJob id <;> rfl
  | _ => rfl

theorem persisted_writeConfig {env : ServiceEnv} {cfg : AgentConfig} {s : ServiceState}
    (h : (service env (.writeConfig cfg) s).1.isOk = true) :
    (service env (.writeConfig cfg) s).2.persisted = some cfg := by
  rw [service] at h ⊢
  cases hwrite : env.writeConfig with
  | works => rfl
  | refused e => rw [hwrite] at h; cases h
  | torn n e => rw [hwrite] at h; cases h

/-! ### The calls of a refresh -/

/-- What the pull answers in `env`. -/
def PullAnswers (env : ServiceEnv) : (o : ServiceOp) → Except Exc o.Ans → Prop
  | .pull, r => r = env.pull
  | _, _ => True

/-- A step that puts nothing but `cfg` in either place. -/
def PutsOnly (cfg : AgentConfig) (o : ServiceOp) : Prop :=
  (∀ v, heldWrite o = some v → v = some cfg) ∧ ∀ v, storedWrite o = some v → v = some cfg

theorem putsOnly_of_none {cfg : AgentConfig} {o : ServiceOp} (h : heldWrite o = none)
    (h' : storedWrite o = none) : PutsOnly cfg o := by
  constructor
  · intro v hv
    rw [h] at hv
    cases hv
  · intro v hv
    rw [h'] at hv
    cases hv

/-- The steps of a flow put nothing in either place. -/
theorem FlowStep.putsOnly {cfg : AgentConfig} {i : ℕ} {flow : FlowConfig} {o : ServiceOp}
    (h : FlowStep i flow o) : PutsOnly cfg o := by
  cases h <;> exact putsOnly_of_none rfl rfl

/-- A refresh puts in both places what it has pulled. -/
theorem uses_refresh {env : ServiceEnv} {cfg : AgentConfig} (h : env.pull = .ok cfg) :
    refresh.Uses (PullAnswers env) (PutsOnly cfg) := by
  refine uses_perform_bind (putsOnly_of_none rfl rfl) fun cfg' hcfg' => ?_
  obtain rfl : cfg' = cfg := Except.ok.inj (hcfg'.trans h)
  have hset : PutsOnly cfg' (.setConfig cfg') :=
    ⟨fun v hv => (Option.some.inj hv).symm, fun v hv => (nomatch hv)⟩
  have hwrite : PutsOnly cfg' (.writeConfig cfg') :=
    ⟨fun v hv => (nomatch hv), fun v hv => (Option.some.inj hv).symm⟩
  refine (uses_act hset).bind fun _ => Uses.bind ?_ fun _ =>
    (uses_runFlows (fun _ _ _ => FlowStep.putsOnly) cfg' 0 _).bind fun _ => trivial
  exact uses_persist_of (putsOnly_of_none rfl rfl) fun _ =>
    ⟨putsOnly_of_none rfl rfl, hwrite, putsOnly_of_none rfl rfl⟩

theorem reaches_act {Q : ServiceOp → Prop} {o : ServiceOp} (ho : Q o) : (act o).Reaches Q :=
  reaches_perform ho

/-- A refresh does not end without having set the held configuration. -/
theorem reaches_heldWrite : refresh.Reaches fun o : ServiceOp => (heldWrite o).isSome = true := by
  refine reaches_perform_bind _ fun cfg => Reaches.bind (p := act (.setConfig cfg)) ?_ _
  refine reaches_act ?_
  rfl

/-- Nor without having written `config.json`. -/
theorem reaches_storedWrite :
    refresh.Reaches fun o : ServiceOp => (storedWrite o).isSome = true := by
  refine reaches_perform_bind _ fun cfg => reaches_perform_bind _ fun _ => ?_
  refine (Reaches.tryCatch ?_ _).bind _
  refine reaches_perform_bind _ fun _ => reaches_perform_bind _ fun _ =>
    Reaches.bind (p := act (.writeConfig cfg)) ?_ _
  refine reaches_act ?_
  rfl

/-! ### Refreshes side by side -/

section Pool

variable {ι : Type} [DecidableEq ι] {env : ι → ServiceEnv} {cfg : ι → AgentConfig}
  {s : ServiceState} {sched : List ι}

/-- All refreshes at their start. -/
def sideBySide (ι : Type) (s : ServiceState) : Pool Exc serviceSig AgentConfig ι ServiceState :=
  ⟨fun _ => refresh, s⟩

/-- The service after a schedule. -/
def raced (env : ι → ServiceEnv) (s : ServiceState) (sched : List ι) :
    Pool Exc serviceSig AgentConfig ι ServiceState :=
  Pool.run (fun i => service (env i)) (sideBySide ι s) sched

/-- The calls a schedule makes. -/
def raceLog (env : ι → ServiceEnv) (s : ServiceState) (sched : List ι) :
    List (Entry serviceSig ι) :=
  Pool.log (fun i => service (env i)) (sideBySide ι s) sched

/-- Refresh `i` has pulled a version that is not older than any pulled. -/
def Newest (version : AgentConfig → ℕ) (cfg : ι → AgentConfig) (i : ι) : Prop :=
  ∀ j, version (cfg j) ≤ version (cfg i)

/-- Every call in the log puts in the two places what its own refresh has pulled. -/
theorem putsOnly_of_mem_raceLog (hpull : ∀ i, (env i).pull = .ok (cfg i)) :
    ∀ x ∈ raceLog env s sched, PutsOnly (cfg x.thread) x.op := by
  have huses : ∀ i, ((sideBySide ι s).prog i).Uses (PullAnswers (env i)) (PutsOnly (cfg i)) :=
    fun i => uses_refresh (hpull i)
  refine Pool.mem_log_uses huses (fun i o s => ?_) sched
  cases o <;> first | rfl | trivial

/-- The held configuration is what was last set. -/
theorem config_raced (hok : ∀ x ∈ raceLog env s sched, x.ok = true) :
    (raced env s sched).state.config =
      ((lastWrite heldWrite (raceLog env s sched)).map Prod.snd).getD s.config := by
  refine Pool.register_run (S := serviceSig) (w := heldWrite) (g := ServiceState.config)
    (fun i o s ho => config_service ho) ?_ _ _ fun x hx _ => hok x hx
  intro i o s v ho _
  obtain ⟨cfg, rfl, rfl⟩ := heldWrite_eq_some ho
  rfl

/-- The file is what was last written. -/
theorem persisted_raced (hok : ∀ x ∈ raceLog env s sched, x.ok = true) :
    (raced env s sched).state.persisted =
      ((lastWrite storedWrite (raceLog env s sched)).map Prod.snd).getD s.persisted := by
  refine Pool.register_run (S := serviceSig) (w := storedWrite) (g := ServiceState.persisted)
    (fun i o s ho => persisted_service ho) ?_ _ _ fun x hx _ => hok x hx
  intro i o s v ho hokay
  obtain ⟨cfg, rfl, rfl⟩ := storedWrite_eq_some ho
  exact persisted_writeConfig hokay

/-- When every refresh has returned, one of them was the last to set the held configuration. -/
theorem exists_lastWrite {w : ServiceOp → Option (Option AgentConfig)} {i : ι}
    (hreach : refresh.Reaches fun o : ServiceOp => (w o).isSome = true)
    (hret : ∀ i, ∃ c, (raced env s sched).prog i = .ret c)
    (hok : ∀ x ∈ raceLog env s sched, x.ok = true) :
    ∃ k v, lastWrite w (raceLog env s sched) = some (k, v) := by
  obtain ⟨x, hx, -, hw⟩ := Pool.exists_mem_log (P := sideBySide ι s) (i := i) hreach hok (hret i)
  exact lastWrite_of_mem hx hw

theorem snd_lastWrite_held (hpull : ∀ i, (env i).pull = .ok (cfg i)) {k : ι}
    {v : Option AgentConfig} (h : lastWrite heldWrite (raceLog env s sched) = some (k, v)) :
    v = some (cfg k) := by
  obtain ⟨x, hx, rfl, hv⟩ := mem_of_lastWrite h
  exact (putsOnly_of_mem_raceLog hpull x hx).1 v hv

theorem snd_lastWrite_stored (hpull : ∀ i, (env i).pull = .ok (cfg i)) {k : ι}
    {v : Option AgentConfig} (h : lastWrite storedWrite (raceLog env s sched) = some (k, v)) :
    v = some (cfg k) := by
  obtain ⟨x, hx, rfl, hv⟩ := mem_of_lastWrite h
  exact (putsOnly_of_mem_raceLog hpull x hx).2 v hv

/-- **The newest version.** When every refresh has returned and no step has failed, the held
configuration and the file are of one version, the newest that was pulled, exactly when the last call
to set the one and the last call to write the other were made by refreshes that had pulled it. -/
theorem newest_iff (version : AgentConfig → ℕ) (env : ι → ServiceEnv) (cfg : ι → AgentConfig)
    (s : ServiceState) (sched : List ι) (hpull : ∀ i, (env i).pull = .ok (cfg i))
    (hret : ∀ i, ∃ c, (raced env s sched).prog i = .ret c)
    (hok : ∀ x ∈ raceLog env s sched, x.ok = true) :
    (∃ held stored, (raced env s sched).state.config = some held ∧
        (raced env s sched).state.persisted = some stored ∧ version held = version stored ∧
          ∃ i, version held = version (cfg i) ∧ Newest version cfg i) ↔
      ∃ i j, (lastWrite heldWrite (raceLog env s sched)).map Prod.fst = some i ∧
        (lastWrite storedWrite (raceLog env s sched)).map Prod.fst = some j ∧
          Newest version cfg i ∧ Newest version cfg j := by
  rw [config_raced hok, persisted_raced hok]
  constructor
  · rintro ⟨held, stored, hheld, hstored, hsame, i, hi, hnewest⟩
    obtain ⟨k, v, hk⟩ := exists_lastWrite (i := i) reaches_heldWrite hret hok
    obtain ⟨l, u, hl⟩ := exists_lastWrite (i := i) reaches_storedWrite hret hok
    rw [hk, snd_lastWrite_held hpull hk] at hheld
    rw [hl, snd_lastWrite_stored hpull hl] at hstored
    cases hheld
    cases hstored
    refine ⟨k, l, by rw [hk]; rfl, by rw [hl]; rfl, fun j => ?_, fun j => ?_⟩
    · exact hi ▸ hnewest j
    · exact hsame ▸ hi ▸ hnewest j
  · rintro ⟨i, j, hi, hj, hnewest, hnewest'⟩
    obtain ⟨⟨_, v⟩, hk, rfl⟩ := Option.map_eq_some_iff.mp hi
    obtain ⟨⟨_, u⟩, hl, rfl⟩ := Option.map_eq_some_iff.mp hj
    rw [hk, hl, snd_lastWrite_held hpull hk, snd_lastWrite_stored hpull hl]
    exact ⟨_, _, rfl, rfl, le_antisymm (hnewest' _) (hnewest _), _, rfl, hnewest⟩

end Pool

/-! ### A slow boot and a nudge -/

/-- The boot refresh pulls one flow, the refresh of a later nudge two. -/
def nudged : Bool → AgentConfig
  | false => slottedConfig [("app", .int 6)]
  | true => slottedConfig [("app", .int 6), ("web", .null)]

/-- Both work. -/
def nudgedEnv (refresh : Bool) : ServiceEnv := demoServiceEnv (nudged refresh)

/-- Every version has one flow more than the one before. -/
def flowCount (cfg : AgentConfig) : ℕ := cfg.flows.length

/-- The boot refresh is through when the nudge comes. -/
theorem newest_iff_demo :
    ∃ i j, (lastWrite heldWrite (raceLog nudgedEnv (.init none)
        (List.replicate 14 false ++ List.replicate 22 true))).map Prod.fst = some i ∧
      (lastWrite storedWrite (raceLog nudgedEnv (.init none)
        (List.replicate 14 false ++ List.replicate 22 true))).map Prod.fst = some j ∧
        Newest flowCount nudged i ∧ Newest flowCount nudged j := by
  refine (newest_iff flowCount nudgedEnv nudged (.init none)
    (List.replicate 14 false ++ List.replicate 22 true) (fun i => ?_) (fun i => ?_) ?_).mp
      ⟨nudged true, nudged true, ?_, ?_, rfl, true, rfl, ?_⟩
  · cases i <;> rfl
  · cases i <;> exact ⟨_, rfl⟩
  · decide
  · rfl
  · rfl
  · intro j
    cases j <;> decide

/-- The versions that were pulled, in order. -/
def pulled {ι : Type} (version : AgentConfig → ℕ) (cfg : ι → AgentConfig)
    (log : List (Entry serviceSig ι)) : List ℕ :=
  log.filterMap fun x => if x.op = ServiceOp.pull then some (version (cfg x.thread)) else none

/-- **Overtaken by a nudge.** The boot refresh has pulled the first version when the nudge comes. The
nudge pulls the second and is through with it before the boot refresh goes on. The agent is left with
the first version, in memory and on disk. -/
theorem older_version_kept :
    ¬ ∀ (version : AgentConfig → ℕ) (env : Bool → ServiceEnv) (cfg : Bool → AgentConfig)
      (s : ServiceState) (sched : List Bool), (∀ i, (env i).pull = .ok (cfg i)) →
      (∀ i, ∃ c, (raced env s sched).prog i = .ret c) →
      (∀ x ∈ raceLog env s sched, x.ok = true) →
      (pulled version cfg (raceLog env s sched)).Pairwise (· ≤ ·) →
      ∃ held stored, (raced env s sched).state.config = some held ∧
        (raced env s sched).state.persisted = some stored ∧ version held = version stored ∧
          ∃ i, version held = version (cfg i) ∧ Newest version cfg i := by
  intro h
  obtain ⟨held, -, hheld, -, -, i, hi, hnewest⟩ := h flowCount nudgedEnv nudged (.init none)
    ([false] ++ List.replicate 22 true ++ List.replicate 13 false)
    (fun i => by cases i <;> rfl) (fun i => by cases i <;> exact ⟨_, rfl⟩) (by decide) (by decide)
  have hold : (raced nudgedEnv (.init none)
      ([false] ++ List.replicate 22 true ++ List.replicate 13 false)).state.config =
      some (nudged false) := rfl
  rw [hold] at hheld
  cases hheld
  have hle : flowCount (nudged true) ≤ flowCount (nudged false) := hi ▸ hnewest true
  exact absurd hle (by decide)

end RefreshService

end NextepAgent
