import NextepAgent.Renewal
import NextepAgent.Alone

/-!
# Not expired in an outage

A run of a flow that returns leaves a certificate on disk that the gate would keep: with a threshold
of `T`, at least `T + 1` full days are left. This holds of a run on a host of its own. On the machine
of the agent other flows write in between, refreshes replace the configuration, and the same flow is
run again.

As long as no certificate can be obtained, the later runs change nothing. They keep the certificate,
or they fail at `_obtain` and have not written anything by then. So an outage that begins after a run
that returned may last until the margin is used up, whatever else the agent does in the meantime.

## Main definitions

* `FlowRunner.Renews` — a run that returns, with what it needs to be told about the CA
* `Setup.certificate` — the certificate of a flow on a machine

## Main results

* `FlowRunner.Renews.margin` — what such a run leaves
* `Setup.part_of_down` — runs without a CA change nothing
* `Setup.survives_outage` — the certificate on disk, over every history
-/

namespace NextepAgent

open Effect Program Posix

namespace FlowRunner

variable {self : FlowRunner} {env : HostEnv} {w w' : Host} {leaf : Certificate}

/-! ### One run -/

/-- A run that returns. What is issued in it is dated in order, new, and good for longer than the
threshold it will be measured by. -/
structure Renews (fr : FlowRunner) (env : HostEnv) (w : Host) : Prop where
  returns : ∃ r, (eval (host env) fr.run w).1 = .ok r
  threshold : fr.flow.renewBeforeDays = .null ∨ ∃ n : ℕ, fr.flow.renewBeforeDays = .int n
  /-- The certificate that was there ends after it begins. -/
  dates : ∀ leaf, fr.onDisk w = some leaf → leaf.notValidBefore ≤ leaf.notValidAfter
  issued : fr.gate env w = .ok none → ∀ x : fr.Issuance env w,
    x.leaf.notValidBefore ≤ x.leaf.notValidAfter ∧
    (∀ t : ℕ, fr.threshold x.leaf = .int t → env.utcnow + (t + 1) * day ≤ x.leaf.notValidAfter) ∧
    (w.readText x.certOut = .ok x.certPem → w.bytes x.certOut = (encode x.certPem).toOption)

/-- **What such a run leaves**: a certificate with the margin that the gate asks for. -/
theorem Renews.margin (h : self.Renews env w) :
    ∃ leaf, ∃ t : ℕ, self.onDisk (eval (host env) self.run w).2 = some leaf ∧
      self.threshold leaf = .int t ∧ env.utcnow + (t + 1) * day ≤ leaf.notValidAfter := by
  obtain ⟨r, hrun⟩ := h.returns
  have hend : eval (host env) self.run w = (.ok r, (eval (host env) self.run w).2) := Prod.ext hrun rfl
  generalize (eval (host env) self.run w).2 = w' at hend
  rcases eval_host_run_eq_ok hend with ⟨leaf, hgate, -, hw⟩ | ⟨hgate, x, -, hw⟩
  · have hkept := kept_of_gate hgate
    obtain ⟨t, ht⟩ := exists_threshold h.threshold (h.dates leaf hkept.onDisk)
    rw [hw]
    exact ⟨leaf, t, hkept.onDisk, ht, hkept.margin_le ht⟩
  · obtain ⟨hdates, hlong, hnew⟩ := h.issued hgate x
    obtain ⟨t, ht⟩ := exists_threshold h.threshold hdates
    rw [hw]
    exact ⟨x.leaf, t, x.onDisk_final hnew, ht, hlong t ht⟩

/-- A run that can obtain nothing changes nothing: it keeps what is there, or fails before it
writes. -/
theorem host_of_down {e : Exc} (hdown : env.obtain = .error e) :
    (eval (host env) self.run w).2 = w := by
  rw [eval_host_run, hdown]
  cases self.gate env w with
  | error e' => rfl
  | ok found => cases found <;> rfl

/-- The certificate on disk is found at the certificate path. -/
theorem onDisk_congr_of_certPath (h : ∀ p, self.certPath = .ok p → w'.files p = w.files p) :
    self.onDisk w' = self.onDisk w := by
  refine onDisk_congr ?_
  cases hp : self.certPath with
  | error e => rw [certBytes, certBytes, hp]; rfl
  | ok p => rw [certBytes_of_certPath hp, certBytes_of_certPath hp, Host.bytes, Host.bytes, h p hp]

end FlowRunner

namespace Setup

variable {self : Setup} {a : Agent} {flow other : FlowConfig} {henv : HostEnv} {m m' : Machine}

/-! ### On a machine -/

/-- The certificate of a flow that is on disk. -/
def certificate (self : Setup) (flow : FlowConfig) (m : Machine) : Option Certificate :=
  (self.runner flow).onDisk (self.view m)

/-- It lies in the files of the flow. -/
theorem certificate_congr (h : m.part (self.files flow) = m'.part (self.files flow)) :
    self.certificate flow m = self.certificate flow m' :=
  FlowRunner.onDisk_congr_of_certPath fun _ hp =>
    (Machine.part_eq_iff.mp h).1 _ (Node.place_mem_files_of_certPath hp)

/-- After a run on the machine it is what the run on a host leaves. -/
theorem certificate_ranAlone :
    self.certificate flow (self.ranAlone m (flow, henv)) =
      (self.runner flow).onDisk (eval (host henv) (self.runner flow).run (self.view m)).2 :=
  FlowRunner.onDisk_congr_of_certPath fun p hp =>
    ((self.run_machine flow henv m).2.cert p hp).symm

/-- The files of a flow lie where its two paths lead. -/
theorem exists_path_of_mem_files {l : Place} (hl : l ∈ self.files other) :
    ∃ p, self.place p = l ∧
      ((self.runner other).certPath = .ok p ∨ (self.runner other).keyPath = .ok p) := by
  have hpath : ∀ path : Except Exc Path, l ∈ (path.toOption.map self.place).toList →
      ∃ p, self.place p = l ∧ path = .ok p := by
    intro path h
    cases path with
    | error e => cases h
    | ok p => exact ⟨p, (List.mem_singleton.mp h).symm, rfl⟩
  rcases List.mem_append.mp hl with hcert | hkey
  · obtain ⟨p, hp, hcert⟩ := hpath _ hcert
    exact ⟨p, hp, .inl hcert⟩
  · obtain ⟨q, hq, hkey⟩ := hpath _ hkey
    exact ⟨q, hq, .inr hkey⟩

/-- A run that can obtain nothing leaves the files of its flow alone, on a machine too. -/
theorem part_ranAlone_of_down {e : Exc} (hdown : henv.obtain = .error e) :
    (self.ranAlone m (other, henv)).part (self.files other) = m.part (self.files other) := by
  obtain ⟨-, hagrees⟩ := self.run_machine other henv m
  rw [FlowRunner.host_of_down hdown] at hagrees
  refine Machine.part_eq_iff.mpr ⟨fun l hl => ?_, hagrees.umask.symm⟩
  obtain ⟨p, rfl, hcert | hkey⟩ := exists_path_of_mem_files hl
  · exact (hagrees.cert p hcert).symm
  · exact (hagrees.key p hkey).symm

/-- And all other files. -/
theorem files_ranAlone_of_down {e : Exc} (hdown : henv.obtain = .error e) (l : Place) :
    (self.ranAlone m (other, henv)).files l = m.files l := by
  by_cases hl : l ∈ self.files other
  · exact (Machine.part_eq_iff.mp (part_ranAlone_of_down hdown)).1 l hl
  · have hpart : (self.ranAlone m (other, henv)).part [l] = m.part [l] :=
      part_run_of_disjoint henv (List.singleton_disjoint.mpr hl)
    exact (Machine.part_eq_iff.mp hpart).1 l (List.mem_singleton_self l)

/-- **Runs without a CA** change nothing. -/
theorem part_of_down (places : List Place) {down : List (FlowConfig × HostEnv)}
    (hdown : ∀ r ∈ down, ∃ e, r.2.obtain = .error e) (m : Machine) :
    (self.alone m down).part places = m.part places := by
  induction down generalizing m with
  | nil => rfl
  | cons r down ih =>
    obtain ⟨e, he⟩ := hdown r List.mem_cons_self
    rw [alone, List.foldl_cons]
    refine (ih (fun r hr => hdown r (List.mem_cons_of_mem _ hr)) _).trans ?_
    exact Machine.part_eq_iff.mpr ⟨fun l _ => files_ranAlone_of_down he l,
      (Machine.part_eq_iff.mp (part_ranAlone_of_down he)).2⟩

/-! ### Over a history -/

/-- **Not expired in an outage.** Let the flows that the agent is given keep clear of the files of
`flow`, or share all of theirs with it. Take the runs about these files, in a history of refreshes and
firings, and one of them that renews, after which nothing can be obtained. Then at the end of the
history the certificate on disk does not expire for as long as the threshold promised at that run. The
runs after it have not changed a file on whatever machine, and the files of the flow are at the end as
that run has left them. -/
theorem survives_outage (self : Setup) (a : Agent) (hist : List AgentEvent) (flow : FlowConfig)
    (henv : HostEnv) (before down : List (FlowConfig × HostEnv))
    (hconfig : self.place self.configPath ∉ self.files flow)
    (hclear : ∀ cfg, Given a hist cfg → ∀ other ∈ cfg.flows, self.Clear (self.files flow) other)
    (hruns : self.about (self.files flow) (self.runsOfAll a hist) = before ++ (flow, henv) :: down)
    (hlast : (self.runner flow).Renews henv (self.view (self.alone a.machine before)))
    (hdown : ∀ r ∈ down, ∃ e, r.2.obtain = .error e) :
    ∃ leaf, ∃ t : ℕ, self.certificate flow (self.afterAll a hist).machine = some leaf ∧
      (self.runner flow).threshold leaf = .int t ∧
      henv.utcnow + (t + 1) * day ≤ leaf.notValidAfter ∧
      (∀ r ∈ down, ∀ m l, (self.ranAlone m r).files l = m.files l) ∧
      (self.afterAll a hist).machine.part (self.files flow) =
        (self.ranAlone (self.alone a.machine before) (flow, henv)).part (self.files flow) := by
  have hflows : Throughout self.after
      (fun a ev => ∀ other ∈ flowsOf a ev, self.Clear (self.files flow) other) a hist := by
    intro hist₁ ev hist₂ hhist other hother
    obtain ⟨cfg, hcfg, hin⟩ := (throughout_givenEvent self a hist hist₁ ev hist₂ hhist).flows other hother
    exact hclear cfg hcfg other hin
  have hpart : (self.afterAll a hist).machine.part (self.files flow) =
      (self.ranAlone (self.alone a.machine before) (flow, henv)).part (self.files flow) := by
    rw [part_afterAll hconfig hflows rfl, hruns, alone, List.foldl_append, List.foldl_cons]
    exact part_of_down _ hdown _
  have hnothing : ∀ r ∈ down, ∀ m l, (self.ranAlone m r).files l = m.files l := by
    intro r hr m l
    obtain ⟨e, he⟩ := hdown r hr
    exact files_ranAlone_of_down he l
  rw [certificate_congr hpart, certificate_ranAlone]
  obtain ⟨leaf, t, hleaf, ht, hmargin⟩ := hlast.margin
  exact ⟨leaf, t, hleaf, ht, hmargin, hnothing, hpart⟩

/-- A day on which the CA answers with the certificate `A`. -/
def upEnv : HostEnv := demoEnv (150 * day) (.ok (.ofString "A", .ofString "KA"))

/-- The next day it cannot be reached. -/
def downEnv : HostEnv := demoEnv (151 * day) (.error ⟨.osError, "timed out"⟩)

/-- The first day, on which the flow is renewed. -/
def upDay : AgentEvent := .fire "renew:internal:0" { demoAgentEnv with flows := fun _ => upEnv }

/-- The second day, on which it is renewed again. -/
def downDay : AgentEvent := .fire "renew:internal:0" { demoAgentEnv with flows := fun _ => downEnv }

/-- An agent that holds one flow, and has armed it. -/
def armedAgent : Agent :=
  { demoAgent with
    service :=
      { demoAgent.service with
        config := some (slottedConfig [("app", .int 6)])
        jobs := fun _ => some ⟨dailyAt 6, 0, 0⟩ } }

/-- When all flows of an event see one environment, its runs are told by their flows. -/
theorem runsOf_of_constant {ev : AgentEvent} (h : ∀ i, ev.env.flows i = henv) :
    self.runsOf a ev = ((self.runsOf a ev).map Prod.fst).map fun f => (f, henv) := by
  have hrun : ∀ r ∈ self.runsOf a ev, (r.1, henv) = r := by
    intro r hr
    obtain ⟨o, -, ho⟩ := List.mem_filterMap.mp hr
    cases o with
    | run i f =>
      obtain rfl := Option.some.inj ho
      exact congrArg (Prod.mk f) (h i).symm
    | _ => cases ho
  rw [List.map_map]
  exact (List.map_id _).symm.trans (List.map_congr_left fun r hr => (hrun r hr).symm)

theorem runs_outage :
    parsingSetup.about (parsingSetup.files (slottedFlow ("app", .int 6)))
        (parsingSetup.runsOfAll armedAgent [upDay, downDay]) =
      [] ++ (slottedFlow ("app", .int 6), upEnv) :: [(slottedFlow ("app", .int 6), downEnv)] := by
  have hup : parsingSetup.runsOf armedAgent upDay = [(slottedFlow ("app", .int 6), upEnv)] := by
    have hflows : (parsingSetup.runsOf armedAgent upDay).map Prod.fst =
        [slottedFlow ("app", .int 6)] := by decide +kernel
    have hconst : ∀ i, upDay.env.flows i = upEnv := fun _ => rfl
    exact (runsOf_of_constant hconst).trans (congrArg (List.map fun f => (f, upEnv)) hflows)
  have hdown : parsingSetup.runsOf (parsingSetup.after armedAgent upDay) downDay =
      [(slottedFlow ("app", .int 6), downEnv)] := by
    have hflows : (parsingSetup.runsOf (parsingSetup.after armedAgent upDay) downDay).map Prod.fst =
        [slottedFlow ("app", .int 6)] := by decide +kernel
    have hconst : ∀ i, downDay.env.flows i = downEnv := fun _ => rfl
    exact (runsOf_of_constant hconst).trans (congrArg (List.map fun f => (f, downEnv)) hflows)
  have hall : parsingSetup.runsOfAll armedAgent [upDay, downDay] =
      [(slottedFlow ("app", .int 6), upEnv)] ++ ([(slottedFlow ("app", .int 6), downEnv)] ++ []) :=
    congrArg₂ (· ++ ·) hup (congrArg (· ++ []) hdown)
  rw [hall]
  simp [about]

theorem given_outage {cfg : AgentConfig} (h : Given armedAgent [upDay, downDay] cfg) :
    cfg = slottedConfig [("app", .int 6)] ∨ cfg = demoConfig := by
  rcases h with hheld | ⟨ev, hev, hpull⟩
  · exact .inl (Option.some.inj hheld).symm
  · have hall : ∀ ev ∈ [upDay, downDay], ev.env.service.pull = .ok demoConfig := by
      simp [upDay, downDay, AgentEvent.env, demoAgentEnv, demoConfig, ServiceState.twoFlows,
        demoServiceEnv]
    exact .inr (Except.ok.inj (hpull.symm.trans (hall ev hev)))

/-- The run on the first day: the machine is empty, and the CA issues the demo certificate. -/
theorem renews_upDay :
    (parsingSetup.runner (slottedFlow ("app", .int 6))).Renews upEnv
      (parsingSetup.view armedAgent.machine) where
  returns := ⟨_, rfl⟩
  threshold := .inl rfl
  dates leaf hleaf := by cases hleaf
  issued _ x := by
    have hA : x.certPem = .ofString "A" := (congrArg Prod.fst (Except.ok.inj x.obtained)).symm
    have hleaf : x.leaf = FlowRunner.demoLeaf := by
      have hparsed := x.parsed
      rw [hA] at hparsed
      exact (Except.ok.inj hparsed).symm
    rw [hleaf]
    refine ⟨by decide, fun t ht => ?_, fun hread => ?_⟩
    · have ht : (30 : ℤ) = t := Json.int.inj ht
      rw [← ht]
      decide
    · have hp : x.certOut = ⟨"/c", .str "app", ".pem"⟩ := (Except.ok.inj x.certPath).symm
      rw [hp] at hread
      cases hread

theorem survives_outage_demo :
    ∃ leaf, ∃ t : ℕ, parsingSetup.certificate (slottedFlow ("app", .int 6))
        (parsingSetup.afterAll armedAgent [upDay, downDay]).machine = some leaf ∧
      (parsingSetup.runner (slottedFlow ("app", .int 6))).threshold leaf = .int t ∧
      150 * day + (t + 1) * day ≤ leaf.notValidAfter ∧
      (parsingSetup.afterAll armedAgent [upDay, downDay]).machine.part
          (parsingSetup.files (slottedFlow ("app", .int 6))) =
        (parsingSetup.ranAlone armedAgent.machine (slottedFlow ("app", .int 6), upEnv)).part
          (parsingSetup.files (slottedFlow ("app", .int 6))) := by
  have hdown : ∀ r ∈ [(slottedFlow ("app", .int 6), downEnv)], ∃ e, r.2.obtain = .error e := by
    intro r hr
    obtain rfl := List.mem_singleton.mp hr
    exact ⟨_, rfl⟩
  have hclear : ∀ flow ∈ demoConfig.flows,
      parsingSetup.files flow ⊆ parsingSetup.files (slottedFlow ("app", .int 6)) ∨
        ∀ l ∈ parsingSetup.files (slottedFlow ("app", .int 6)), l ∉ parsingSetup.files flow := by
    decide
  have hdemo : ∀ flow ∈ demoConfig.flows,
      parsingSetup.Clear (parsingSetup.files (slottedFlow ("app", .int 6))) flow :=
    fun flow hflow => (hclear flow hflow).imp_right fun h l hl hl' => h l hl hl'
  obtain ⟨leaf, t, hleaf, ht, hmargin, -, hpart⟩ := survives_outage parsingSetup armedAgent
    [upDay, downDay] (slottedFlow ("app", .int 6)) upEnv []
    [(slottedFlow ("app", .int 6), downEnv)] (by decide) (fun cfg hcfg => by
      rcases given_outage hcfg with rfl | rfl
      · exact fun flow hflow => hdemo flow (List.mem_singleton.mp hflow ▸ List.mem_cons_self)
      · exact hdemo) runs_outage renews_upDay hdown
  exact ⟨leaf, t, hleaf, ht, hmargin, hpart⟩

end Setup

end NextepAgent
