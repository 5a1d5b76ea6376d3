import NextepAgent.Effect.Translate
import NextepAgent.KeyPair

/-!
# Runs with the network

In `FlowRunner.run` all of `_obtain` is one step with an outcome. Here it is put back as what it is, a
program with calls of its own, so that a run of a flow is one program over the host and the network.

The step comes back exact. A run goes through three phases that do not mix: the gate looks at the
host, the issuance calls the network, and the writes touch the host again. An up-to-date flow makes
no call to the network, and before the issuance is over nothing on the host has changed. What acmeow
keeps for itself below its `storage_path` is part of the network here.

## Main definitions

* `OnlineOp`, `onlineSig`, `online` — the calls of a run, to the host and to the network
* `FlowRunner.runOnline` — a run whose `_obtain` is a program

## Main results

* `FlowRunner.run_online` — what such a run comes to, and its calls
* `FlowRunner.runOnline_eq_ok` — what is in the two files after one that returns
-/

namespace NextepAgent

open Effect Program

/-! ### The calls -/

/-- A call to the host, or one to the network. -/
inductive OnlineOp (S : Sig)
  | host (o : HostOp)
  | net (o : S.Op)

/-- What each returns. -/
abbrev OnlineOp.Ans {S : Sig} : OnlineOp S → Type
  | .host o => o.Ans
  | .net o => S.Ans o

/-- The calls of a run, as a signature. -/
abbrev onlineSig (S : Sig) : Sig := ⟨OnlineOp S, OnlineOp.Ans⟩

variable {S : Sig} {α τ : Type}

/-- The calls against a host and a network. -/
def online (env : HostEnv) (net : Handler Exc S τ) : Handler Exc (onlineSig S) (Host × τ)
  | .host o, (w, t) => ((host env o w).1, (host env o w).2, t)
  | .net o, (w, t) => ((net o t).1, w, (net o t).2)

/-- One call to the network. -/
def callNet (o : S.Op) : Program Exc (onlineSig S) (S.Ans o) := @perform Exc (onlineSig S) (.net o)

/-- How each call of a run goes on: `_obtain` is the program it is. -/
def goOnline (obtain : Program Exc S (Text × Text)) :
    (o : hostSig.Op) → Program Exc (onlineSig S) (hostSig.Ans o)
  | .obtain => obtain.translate callNet
  | o => @perform Exc (onlineSig S) (.host o)

/-- The calls that are made of the host. -/
def HostOp.Offline (o : HostOp) : Prop := o ≠ .obtain

/-- `run`, with this for its `_obtain`. -/
def FlowRunner.runOnline (self : FlowRunner) (obtain : Program Exc S (Text × Text)) :
    Program Exc (onlineSig S) IssueResult :=
  self.run.translate (goOnline obtain)

/-- An environment in which `_obtain` ends like this. -/
def HostEnv.obtaining (env : HostEnv) (obtain : Except Exc (Text × Text)) : HostEnv :=
  { env with obtain }

/-! ### The phases -/

section Phases

variable {env : HostEnv} {net : Handler Exc S τ} {obtain : Program Exc S (Text × Text)}
  {r : Except Exc (Text × Text)}

theorem host_obtaining {o : HostOp} (ho : o.Offline) :
    host (env.obtaining r) o = host env o := by
  funext w
  cases o with
  | obtain => exact absurd rfl ho
  | _ => rfl

theorem goOnline_of_ne {o : HostOp} (ho : o.Offline) :
    goOnline obtain o = @perform Exc (onlineSig S) (.host o) := by
  cases o with
  | obtain => exact absurd rfl ho
  | _ => rfl

/-- The issuance, which the host does not see. -/
theorem eval_callNet (p : Program Exc S α) (w : Host) (t : τ) :
    eval (online env net) (p.translate callNet) (w, t) =
      ((eval net p t).1, w, (eval net p t).2) := by
  induction p generalizing t with
  | ret a => rfl
  | raise e => rfl
  | call o k ih =>
    rw [translate_call, callNet, perform_resume]
    exact ih _ _

theorem trace_callNet (p : Program Exc S α) (w : Host) (t : τ) :
    trace (online env net) (p.translate callNet) (w, t) = (trace net p t).map .net := by
  induction p generalizing t with
  | ret a => rfl
  | raise e => rfl
  | call o k ih =>
    rw [translate_call, callNet, perform_resume]
    exact congrArg (OnlineOp.net o :: ·) (ih _ _)

/-- What comes before and after it, which the network does not see. -/
theorem eval_goOnline {p : Runner α} (hp : p.Uses (fun _ _ => True) HostOp.Offline) (w : Host) (t : τ) :
    eval (online env net) (p.translate (goOnline obtain)) (w, t) =
      ((eval (host (env.obtaining r)) p w).1, (eval (host (env.obtaining r)) p w).2, t) := by
  induction p generalizing w with
  | ret a => rfl
  | raise e => rfl
  | call o k ih =>
    have hhost : host (env.obtaining r) o w = host env o w := by rw [host_obtaining hp.1]
    rw [translate_call, goOnline_of_ne hp.1, perform_resume, eval_call, eval_call, hhost]
    exact ih _ (hp.2 _ trivial) _

theorem trace_goOnline {p : Runner α} (hp : p.Uses (fun _ _ => True) HostOp.Offline) (w : Host)
    (t : τ) :
    trace (online env net) (p.translate (goOnline obtain)) (w, t) =
      (trace (host (env.obtaining r)) p w).map .host := by
  induction p generalizing w with
  | ret a => rfl
  | raise e => rfl
  | call o k ih =>
    have hhost : host (env.obtaining r) o w = host env o w := by rw [host_obtaining hp.1]
    rw [translate_call, goOnline_of_ne hp.1, perform_resume, trace, trace, hhost, List.map_cons]
    exact congrArg (OnlineOp.host o :: ·) (ih _ (hp.2 _ trivial) _)

end Phases

namespace FlowRunner

variable {self : FlowRunner}

theorem offline_upToDate (self : FlowRunner) :
    self.upToDate.Uses (fun _ _ => True) HostOp.Offline :=
  self.uses_upToDate.mono (fun _ _ h => h) fun o ho => by
    rintro rfl
    exact ho

theorem offline_issue (self : FlowRunner) (c k : Text) :
    (self.issue c k).Uses (fun _ _ => True) HostOp.Offline :=
  (self.uses_issue c k).mono (fun _ _ h => h) fun o ho => by
    rintro rfl
    exact ho

/-- The calls of the writes that follow an issuance. -/
def tail (self : FlowRunner) (env : HostEnv) (w : Host) : Except Exc (Text × Text) → List HostOp
  | .ok (certPem, keyPem) => trace (host env) (self.issue certPem keyPem) w
  | .error _ => []

/-- The calls of a run, when it is known what its issuance ends with and calls. -/
def phases (self : FlowRunner) (env : HostEnv) (w : Host) (net : List S.Op) : List (OnlineOp S) :=
  (trace (host env) self.upToDate w).map .host ++
    match self.gate env w with
    | .ok none => net.map .net ++ (self.tail env w env.obtain).map .host
    | _ => []

/-- The three phases of a run. -/
theorem runOnline_eq (self : FlowRunner) (obtain : Program Exc S (Text × Text)) :
    self.runOnline obtain = self.upToDate.translate (goOnline obtain) >>= fun
      | some current => ofExcept (self.issueResult current false)
      | none => obtain.translate callNet >>= fun pair =>
        (self.issue pair.1 pair.2).translate (goOnline obtain) := by
  rw [runOnline, run, translate_bind]
  congr 1
  funext found
  cases found with
  | some current => exact translate_ofExcept _
  | none =>
    rw [translate_bind, sys, translate_perform]
    rfl

/-- The gate, which the network does not see. -/
theorem eval_gate_online (self : FlowRunner) (obtain : Program Exc S (Text × Text)) (env : HostEnv)
    (net : Handler Exc S τ) (r : Except Exc (Text × Text)) (w : Host) (t : τ) :
    eval (online env net) (self.upToDate.translate (goOnline obtain)) (w, t) =
      (self.gate (env.obtaining r) w, w, t) := by
  rw [eval_goOnline self.offline_upToDate, eval_upToDate]

theorem eval_runOnline (self : FlowRunner) (obtain : Program Exc S (Text × Text)) (env : HostEnv)
    (net : Handler Exc S τ) (w : Host) (t : τ) :
    let env' := env.obtaining (eval net obtain t).1
    eval (online env net) (self.runOnline obtain) (w, t) =
      ((eval (host env') self.run w).1, (eval (host env') self.run w).2,
        match self.gate env' w with
        | .ok none => (eval net obtain t).2
        | _ => t) := by
  intro env'
  have hnet : eval (online env net) (obtain.translate callNet) (w, t) =
      (env'.obtain, w, (eval net obtain t).2) := eval_callNet obtain w t
  have hgate : eval (online env net) (self.upToDate.translate (goOnline obtain)) (w, t) =
      (self.gate env' w, w, t) := self.eval_gate_online obtain env net _ w t
  rw [runOnline_eq, eval_bind, hgate, eval_host_run]
  cases self.gate env' w with
  | error e => rfl
  | ok found =>
    cases found with
    | some current => exact eval_ofExcept _ _
    | none =>
      dsimp only
      rw [eval_bind, hnet]
      cases env'.obtain with
      | error e => rfl
      | ok pair =>
        dsimp only
        rw [eval_goOnline (self.offline_issue _ _)]

theorem trace_runOnline (self : FlowRunner) (obtain : Program Exc S (Text × Text)) (env : HostEnv)
    (net : Handler Exc S τ) (w : Host) (t : τ) :
    trace (online env net) (self.runOnline obtain) (w, t) =
      self.phases (env.obtaining (eval net obtain t).1) w (trace net obtain t) := by
  have hnet : eval (online env net) (obtain.translate callNet) (w, t) =
      ((eval net obtain t).1, w, (eval net obtain t).2) := eval_callNet obtain w t
  rw [runOnline_eq, trace_bind, trace_goOnline self.offline_upToDate,
    eval_gate_online self obtain env net (eval net obtain t).1, phases]
  cases self.gate (env.obtaining (eval net obtain t).1) w with
  | error e => rfl
  | ok found =>
    cases found with
    | some current => exact congrArg (_ ++ ·) (trace_ofExcept _ _)
    | none =>
      dsimp only
      rw [trace_bind, hnet, trace_callNet, HostEnv.obtaining]
      dsimp only
      cases (eval net obtain t).1 with
      | error e => rfl
      | ok pair =>
        dsimp only [tail]
        rw [trace_goOnline (self.offline_issue _ _)]
        rfl

/-- The host during an issuance. -/
theorem always_callNet {env : HostEnv} {net : Handler Exc S τ} (p : Program Exc S α) (w : Host)
    (t : τ) : Always (online env net) (fun s => s.1 = w) (p.translate callNet) (w, t) := by
  refine always_translate (fun o _ s hs => ?_) rfl
  exact (always_perform (S := onlineSig S) (OnlineOp.net o) s).mpr ⟨hs, hs⟩

/-- The host while the gate looks at it. -/
theorem always_gate_online (self : FlowRunner) (obtain : Program Exc S (Text × Text)) (env : HostEnv)
    (net : Handler Exc S τ) (w : Host) (t : τ) :
    Always (online env net) (fun s => s.1 = w) (self.upToDate.translate (goOnline obtain)) (w, t) := by
  refine always_translate (fun o ho s hs => ?_) rfl
  have hread : o.readOnly := self.uses_upToDate.mem_trace (fun _ _ => trivial) o ho
  have hoffline : o.Offline := by
    rintro rfl
    exact hread
  rw [goOnline_of_ne hoffline]
  exact (always_perform (S := onlineSig S) (OnlineOp.host o) s).mpr
    ⟨hs, (host_readOnly env o s.1 hread).trans hs⟩

/-- Up to the end of the issuance nothing on the host has changed. -/
theorem host_exec_runOnline (self : FlowRunner) (obtain : Program Exc S (Text × Text)) (env : HostEnv)
    (net : Handler Exc S τ) (w : Host) (t : τ) {n : ℕ}
    (hn : n ≤ (trace (host env) self.upToDate w).length + (trace net obtain t).length) :
    (exec (online env net) n (self.runOnline obtain) (w, t)).2.1 = w := by
  have hgate : (trace (online env net) (self.upToDate.translate (goOnline obtain)) (w, t)).length =
      (trace (host env) self.upToDate w).length := by
    rw [trace_goOnline (r := env.obtain) self.offline_upToDate, List.length_map]
    rfl
  rw [runOnline_eq]
  refine (self.always_gate_online obtain env net w t).exec_bind (fun found s hs k hk => ?_)
    (by rwa [hgate])
  rw [self.eval_gate_online obtain env net env.obtain, Prod.mk.injEq] at hs
  obtain ⟨-, rfl⟩ := hs
  cases found with
  | some current =>
    have hkept : Always (online env net) (fun s => s.1 = w)
        (Program.ofExcept (self.issueResult current false)) (w, t) := (always_ofExcept _ _).mpr rfl
    exact hkept.exec k
  | none =>
    have hnet : k ≤ (trace (online env net) (obtain.translate callNet) (w, t)).length + 0 := by
      rwa [trace_callNet, List.length_map]
    refine (always_callNet obtain w t).exec_bind (fun pair s hs j hj => ?_) hnet
    rw [eval_callNet, Prod.mk.injEq] at hs
    obtain ⟨-, rfl⟩ := hs
    obtain rfl : j = 0 := Nat.le_zero.mp hj
    cases (self.issue pair.1 pair.2).translate (goOnline obtain) <;> rfl

/-- **Runs with the network.** A run whose issuance calls the network comes to the same, and leaves
the host the same, as if what it ends with had been fixed beforehand. Its calls are those of the gate;
then, only if the gate keeps no certificate, those of the whole issuance; then, only if that has
returned, those of the writes. Otherwise the network is left as it was. And until the issuance is over,
no file is changed. -/
theorem run_online (self : FlowRunner) (obtain : Program Exc S (Text × Text)) (env : HostEnv)
    (net : Handler Exc S τ) (w : Host) (t : τ) :
    let env' := env.obtaining (eval net obtain t).1
    eval (online env net) (self.runOnline obtain) (w, t) =
        ((eval (host env') self.run w).1, (eval (host env') self.run w).2,
          match self.gate env' w with
          | .ok none => (eval net obtain t).2
          | _ => t) ∧
      trace (online env net) (self.runOnline obtain) (w, t) =
        self.phases env' w (trace net obtain t) ∧
      ∀ n ≤ (trace (host env) self.upToDate w).length + (trace net obtain t).length,
        (exec (online env net) n (self.runOnline obtain) (w, t)).2.1 = w :=
  ⟨self.eval_runOnline obtain env net w t, self.trace_runOnline obtain env net w t,
    fun _ hn => self.host_exec_runOnline obtain env net w t hn⟩

/-! ### What is left on the host -/

/-- The two files hold what was obtained. -/
theorem Issuance.holds_final {env : HostEnv} {w : Host} (i : self.Issuance env w) :
    Holds (self.certBytes i.final) i.certPem ∧ Holds (self.keyBytes i.final) i.keyPem := by
  have hends : ∀ {p : Path} {text : Text} {changed : Bool},
      (writeEnd env w p text).result = .ok changed →
        Holds ((writeEnd env w p text).left.or (w.bytes p)) text := by
    intro p text changed hresult
    rcases WriteEnd.result_eq_ok hresult with ⟨hkept, -⟩ | ⟨b, hdone, -⟩
    · rw [hkept, WriteEnd.left, Option.none_or]
      exact holds_of_readText (readText_of_kept hkept)
    · rw [hdone]
      exact ⟨b, rfl, .inl (encode_of_writeEnd (.inl hdone))⟩
  rw [i.certBytes_final, i.keyBytes_final, certBytes_of_certPath i.certPath,
    keyBytes_of_keyPath i.keyPath]
  exact ⟨hends i.certWritten, hends i.keyWritten⟩

/-- A run with the network that returns has left everything alone, or the two files hold what its
issuance has ended with. -/
theorem runOnline_eq_ok {obtain : Program Exc S (Text × Text)} {env : HostEnv}
    {net : Handler Exc S τ} {w w' : Host} {t t' : τ} {r : IssueResult}
    (h : eval (online env net) (self.runOnline obtain) (w, t) = (.ok r, w', t')) :
    (w' = w ∧ t' = t ∧ r.changed = false) ∨ ∃ certPem keyPem,
      eval net obtain t = (.ok (certPem, keyPem), t') ∧
        Holds (self.certBytes w') certPem ∧ Holds (self.keyBytes w') keyPem := by
  rw [eval_runOnline] at h
  obtain ⟨hr, hs⟩ := Prod.mk.inj h
  obtain ⟨hw, ht⟩ := Prod.mk.inj hs
  rcases eval_host_run_eq_ok (Prod.ext hr hw) with ⟨leaf, hgate, hresult, rfl⟩ | ⟨hgate, i, -, rfl⟩
  · rw [hgate] at ht
    refine .inl ⟨rfl, ht.symm, ?_⟩
    rw [issueResult] at hresult
    cases hsans : sansOf leaf with
    | error e =>
      rw [hsans] at hresult
      cases hresult
    | ok sans =>
      rw [hsans] at hresult
      cases hresult
      rfl
  · rw [hgate] at ht
    exact .inr ⟨i.certPem, i.keyPem, Prod.ext i.obtained ht, i.holds_final⟩

end FlowRunner

end NextepAgent
