import NextepAgent.Effect.Crew
import NextepAgent.AgentFrame
import NextepAgent.Signing

/-!
# The server process

`serve` starts a refresh and then waits. A nudge that is accepted starts another one, on a thread of
its own, and so does a job that is due. Nothing waits for anything else: requests are answered while
threads are in the middle of a flow, and the process may be killed at any call and started again, when
`config.json` and the files of the flows are all there is left.

## Who makes the agent do what

Everything is done by some thread. A thread is there because the process was started, because a request
was accepted, or because of a job, which in turn was armed by an earlier thread. So each thread goes
back to a start of the process or to a request, and a request is only accepted with a signature. What
signatures are worth is an assumption: one that fits is of a text that was signed before.

There is no memory of nonces. A signature is accepted again, and starts another refresh, for as long
as its timestamp is recent.

## Main definitions

* `Cause`, `Server`, `Move` — what threads are started for, the process, what happens to it
* `App.move`, `App.run`, `App.log` — what comes of it, and the calls that are made
* `App.Unforged` — what signatures are worth
* `Descends` — where a thread goes back to

## Main results

* `App.exists_run_afterAll` — a history of refreshes and firings is a run of the server
* `App.grounded` — every thread goes back to a start of the process or to a signed nudge
* `App.files_spared` — files that are left alone, however threads overlap and the process is killed
-/

namespace NextepAgent

open Effect Program RefreshService Posix

/-! ### What happens to a server -/

/-- What a thread of the server is started for. -/
inductive Cause
  /-- `lifespan`. -/
  | boot
  /-- `update` has accepted this request, at this time. -/
  | nudge (now : ℤ) (r : UpdateRequest)
  /-- The job with this id is due, for the flow with this index. -/
  | job (id : String) (index : ℕ)

/-- The process: its threads, over the service and the machine. -/
abbrev Server : Type := Crew Exc agentSig Cause Agent

/-- What happens. -/
inductive Move
  /-- The process is killed, if there is one, and started. -/
  | boot
  /-- Somebody who has the secret signs. The server does not notice. -/
  | sign (ts : ℤ) (nonceHex : Latin1) (msg : List Char)
  /-- `POST /update`. -/
  | post (now : ℤ) (r : UpdateRequest)
  /-- A job is due. It is not submitted when it was missed, or when it is still running. -/
  | due (id : String) (submitted : Bool)
  /-- A thread makes its next call. -/
  | work (thread : ℕ) (env : AgentEnv)

/-- What of the process does not change: the installation, and `app.state`. -/
structure App extends Setup where
  hmac : Hmac
  nudgeSecret : Bytes

/-- `_initial_refresh`. -/
def initialRefresh : Service Unit :=
  Program.tryCatch (do let _ ← refresh; return ()) fun _ => return ()

/-- What `update` dispatches. -/
def dispatched : Service Unit := do
  let _ ← refresh
  return ()

namespace App

variable (app : App)

/-- What is left of the agent when its process is gone. -/
def restarted (a : Agent) : Agent := { a with service := .init a.service.persisted }

/-- One move. -/
def move (s : Server) : Move → Server
  | .boot => (s.down restarted).start .boot (app.steps initialRefresh)
  | .sign _ _ _ => s
  | .post now r =>
    match update app.hmac app.nudgeSecret now r with
    | .ok .accepted => s.start (.nudge now r) (app.steps dispatched)
    | _ => s
  | .due id submitted =>
    match s.state.service.jobs id with
    | none => s
    | some job =>
      let s' : Server := { s with state.service := s.state.service.advance id job }
      if submitted then s'.start (.job id job.index) (app.steps (renewOne job.index)) else s'
  | .work k env => s.work (app.agent env) k

/-- Several moves. -/
def run (s : Server) (moves : List Move) : Server := moves.foldl app.move s

/-- The calls of a move. -/
def note (s : Server) : Move → List (Entry agentSig ℕ)
  | .work k env => s.note (app.agent env) k
  | _ => []

/-- The calls of several moves, in order. -/
def log (app : App) : Server → List Move → List (Entry agentSig ℕ)
  | _, [] => []
  | s, m :: moves => app.note s m ++ app.log (app.move s m) moves

/-- The process is started on a machine. -/
def launched (a : Agent) : Server := app.move ⟨[], a⟩ .boot

/-- The request that is accepted by a move, with the time. -/
def accepted : Move → Option (ℤ × UpdateRequest)
  | .post now r =>
    match update app.hmac app.nudgeSecret now r with
    | .ok .accepted => some (now, r)
    | _ => none
  | _ => none

end App

/-- The request that a thread was started for. -/
def Cause.request : Cause → Option (ℤ × UpdateRequest)
  | .nudge now r => some (now, r)
  | _ => none

/-! ### Signatures -/

/-- The texts that are signed in the course of some moves. -/
def signedTexts (moves : List Move) : Set Bytes :=
  {m | ∃ ts nonceHex msg, .sign ts nonceHex msg ∈ moves ∧ signedText ts nonceHex msg = m}

/-- The signature of a request is the one that goes with its timestamp, nonce and body. -/
def App.Fits (app : App) (r : UpdateRequest) (ts : ℤ) : Prop :=
  r.xTs.int = .ok ts ∧
    r.xSig.chars = Base64.encodeNoPad (app.hmac app.nudgeSecret (r.signedAs ts)).data.toList

/-- **What signatures are worth.** A signature that fits is of a text that was signed before. -/
def App.Unforged (app : App) (moves : List Move) : Prop :=
  ∀ before now r after, moves = before ++ .post now r :: after →
    ∀ ts, app.Fits r ts → r.signedAs ts ∈ signedTexts before

/-- A request that was posted after its text had been signed, with a recent timestamp. Where the nonce
ends and the body begins is not part of the text. -/
def Nudged (moves : List Move) (now : ℤ) (r : UpdateRequest) : Prop :=
  ∃ before after ts nonceHex msg, moves = before ++ .post now r :: after ∧
    .sign ts nonceHex msg ∈ before ∧ r.xTs.int = .ok ts ∧ |now - ts| ≤ 300 ∧
      r.xNonce.chars ++ '|' :: decodeReplace r.body = nonceHex.chars ++ '|' :: msg

/-- Thread `j` has armed this job. -/
def Armed (log : List (Entry agentSig ℕ)) (j : ℕ) (id : String) (index : ℕ) : Prop :=
  ∃ trigger, ⟨j, .service (.addJob id trigger index), true⟩ ∈ log

theorem Armed.mono {log log' : List (Entry agentSig ℕ)} {j : ℕ} {id : String} {index : ℕ} (h : Armed log j id index)
    (hlog : log ⊆ log') : Armed log' j id index :=
  h.imp fun _ h => hlog h

theorem Nudged.append {before : List Move} {now : ℤ} {r : UpdateRequest} (h : Nudged before now r)
    (moves : List Move) : Nudged (before ++ moves) now r := by
  obtain ⟨l₁, l₂, ts, nonceHex, msg, rfl, h⟩ := h
  exact ⟨l₁, l₂ ++ moves, ts, nonceHex, msg, by rw [List.append_assoc, List.cons_append], h⟩

/-- A thread that goes back, over jobs that earlier threads have armed, to a start of the process or to
a signed nudge. -/
inductive Descends (moves : List Move) (log : List (Entry agentSig ℕ)) (causes : List Cause) : ℕ → Prop
  | boot {k : ℕ} (cause : causes[k]? = some .boot) : Descends moves log causes k
  | nudge {k : ℕ} {now : ℤ} {r : UpdateRequest} (cause : causes[k]? = some (.nudge now r))
      (nudged : Nudged moves now r) : Descends moves log causes k
  | job {k j : ℕ} {id : String} {index : ℕ} (cause : causes[k]? = some (.job id index)) (lt : j < k)
      (armed : Armed log j id index) (from_ : Descends moves log causes j) :
      Descends moves log causes k

namespace App

variable {app : App} {s : Server} {m : Move} {moves before : List Move} {a : Agent}
  {log log' : List (Entry agentSig ℕ)} {k : ℕ}

@[simp] theorem run_nil : app.run s [] = s := rfl

@[simp] theorem run_cons : app.run s (m :: moves) = app.run (app.move s m) moves := rfl

theorem run_append (moves' : List Move) :
    app.run s (moves ++ moves') = app.run (app.run s moves) moves' := List.foldl_append

theorem move_post_of_accepted {now : ℤ} {r : UpdateRequest}
    (h : update app.hmac app.nudgeSecret now r = .ok .accepted) :
    app.move s (.post now r) = s.start (.nudge now r) (app.steps dispatched) := by
  simp only [move, h]

theorem move_post_of_not_accepted {now : ℤ} {r : UpdateRequest}
    (h : update app.hmac app.nudgeSecret now r ≠ .ok .accepted) :
    app.move s (.post now r) = s := by
  simp only [move]

theorem accepted_eq_some {x : ℤ × UpdateRequest} :
    app.accepted m = some x ↔
      m = .post x.1 x.2 ∧ update app.hmac app.nudgeSecret x.1 x.2 = .ok .accepted := by
  cases m with
  | post now r =>
    obtain ⟨now', r'⟩ := x
    simp only [accepted]
    split
    · next h =>
      simp only [Option.some.injEq, Prod.mk.injEq, Move.post.injEq]
      exact ⟨fun hx => ⟨hx, by rw [← hx.1, ← hx.2, h]⟩, fun hx => hx.1⟩
    · next h =>
      simp only [reduceCtorEq, Move.post.injEq, false_iff]
      rintro ⟨⟨rfl, rfl⟩, hupdate⟩
      exact h hupdate
  | _ => simp [accepted]

/-! ### Jobs -/

/-- A job that is there after a call was there before it, or has been armed by it. -/
theorem jobs_agent {env : AgentEnv} {o : AgentOp} {b : Agent} {id : String} {job : Job}
    (h : (app.agent env o b).2.service.jobs id = some job) :
    b.service.jobs id = some job ∨
      (∃ trigger, o = .service (.addJob id trigger job.index)) ∧ (app.agent env o b).1.isOk = true := by
  cases o with
  | flow i o => exact .inl h
  | service o =>
    cases o with
    | addJob id' trigger index =>
      simp only [Setup.agent, service] at h ⊢
      cases hfault : (app.serviceEnv env env.service.run).addJob id' with
      | some e =>
        rw [hfault] at h
        exact .inl h
      | none =>
        rw [hfault] at h
        simp only [ServiceState.jobs_arm] at h
        by_cases hid : id = id'
        · subst hid
          rw [Function.update_self] at h
          cases h
          exact .inr ⟨⟨trigger, rfl⟩, rfl⟩
        · rw [Function.update_of_ne hid] at h
          exact .inl h
    | writeConfig cfg =>
      simp only [Setup.agent, service] at h
      split at h <;> exact .inl h
    | _ => exact .inl h

/-- A job that has fired keeps its index. -/
theorem jobs_advance {st : ServiceState} {id id' : String} {job job' : Job}
    (hjob : st.jobs id = some job) (h : (st.advance id job).jobs id' = some job') :
    ∃ job'', st.jobs id' = some job'' ∧ job''.index = job'.index := by
  rw [ServiceState.advance, ServiceState.jobs_arm] at h
  by_cases hid : id' = id
  · subst hid
    rw [Function.update_self] at h
    cases h
    exact ⟨job, hjob, rfl⟩
  · rw [Function.update_of_ne hid] at h
    exact ⟨job', h, rfl⟩

/-! ### Where threads come from -/

/-- What there is behind the cause of thread `k`. -/
def Behind (moves : List Move) (log : List (Entry agentSig ℕ)) (k : ℕ) : Cause → Prop
  | .boot => True
  | .nudge now r => Nudged moves now r
  | .job id index => ∃ j < k, Armed log j id index

theorem Behind.mono {c : Cause} (h : Behind before log k c) (moves : List Move)
    (hlog : log ⊆ log') : Behind (before ++ moves) log' k c := by
  cases c with
  | boot => trivial
  | nudge now r => exact Nudged.append h moves
  | job id index =>
    obtain ⟨j, hj, harmed⟩ := h
    exact ⟨j, hj, harmed.mono hlog⟩

/-- **The invariant.** There is something behind every thread, and behind every job. -/
structure Traced (before : List Move) (log : List (Entry agentSig ℕ)) (s : Server) : Prop where
  threads : ∀ k c, s.causes[k]? = some c → Behind before log k c
  jobs : ∀ id job, s.state.service.jobs id = some job →
    ∃ j < s.causes.length, Armed log j id job.index
  calls : ∀ x ∈ log, x.thread < s.causes.length

theorem Traced.start (hs : Traced before log s) {c : Cause} {p : Program Exc agentSig Unit}
    (hc : Behind (before ++ [m]) log s.causes.length c) : Traced (before ++ [m]) log (s.start c p) where
  threads k c' hk := by
    rw [Crew.causes_start] at hk
    rcases Nat.lt_or_ge k s.causes.length with hlt | hge
    · rw [List.getElem?_append_left hlt] at hk
      exact (hs.threads k c' hk).mono [m] (List.Subset.refl log)
    · obtain rfl : k = s.causes.length := by
        have hlt := (List.getElem?_eq_some_iff.mp hk).1
        rw [List.length_append, List.length_singleton] at hlt
        omega
      rw [List.getElem?_concat_length] at hk
      exact Option.some.inj hk ▸ hc
  jobs id job hjob := by
    obtain ⟨j, hj, harmed⟩ := hs.jobs id job hjob
    exact ⟨j, by rw [Crew.causes_start, List.length_append]; omega, harmed⟩
  calls x hx := by
    have hlt := hs.calls x hx
    rw [Crew.causes_start, List.length_append]
    omega

theorem Traced.idle (hs : Traced before log s) : Traced (before ++ [m]) log s where
  threads k c hk := (hs.threads k c hk).mono [m] (List.Subset.refl log)
  jobs := hs.jobs
  calls := hs.calls

theorem Traced.work (hs : Traced before log s) (k : ℕ) (env : AgentEnv) :
    Traced (before ++ [m]) (log ++ s.note (app.agent env) k) (s.work (app.agent env) k) := by
  rcases Crew.work_cases (app.agent env) s k with ⟨c, o, f, hk, hwork, hnote⟩ | ⟨hwork, hnote⟩
  · have hcauses : (s.work (app.agent env) k).causes = s.causes := Crew.causes_work
    have hlt : k < s.causes.length := by
      rw [Crew.causes, List.length_map]
      exact (List.getElem?_eq_some_iff.mp hk).1
    have hmore : log ⊆ log ++ s.note (app.agent env) k := List.subset_append_left ..
    refine ⟨fun k' c' hk' => ?_, fun id job hjob => ?_, fun x hx => ?_⟩
    · rw [hcauses] at hk'
      exact (hs.threads k' c' hk').mono [m] hmore
    · rw [hcauses]
      rw [hwork] at hjob
      rcases jobs_agent hjob with hold | ⟨⟨trigger, rfl⟩, hok⟩
      · obtain ⟨j, hj, harmed⟩ := hs.jobs id job hold
        exact ⟨j, hj, harmed.mono hmore⟩
      · refine ⟨k, hlt, trigger, List.mem_append_right _ ?_⟩
        rw [hnote, hok]
        exact List.mem_singleton_self _
    · rw [hcauses]
      rcases List.mem_append.mp hx with hx | hx
      · exact hs.calls x hx
      · rw [hnote] at hx
        rw [List.mem_singleton.mp hx]
        exact hlt
  · rw [hwork, hnote, List.append_nil]
    exact hs.idle

/-- A request that is accepted was signed before. -/
theorem nudged_of_accepted {now : ℤ} {r : UpdateRequest}
    (hunforged : ∀ ts, app.Fits r ts → r.signedAs ts ∈ signedTexts before)
    (h : update app.hmac app.nudgeSecret now r = .ok .accepted) :
    Nudged (before ++ [.post now r]) now r := by
  obtain ⟨-, ts, hts, hrecent, hsig⟩ :=
    verifyNudge_eq_true.mp (update_eq_accepted.mp h)
  obtain ⟨ts', nonceHex, msg, hsign, htext⟩ :=
    hunforged ts ⟨hts, (compareDigest_eq_true.mp hsig).2.symm⟩
  have hcanonical : canonical ts' nonceHex msg = canonical ts r.xNonce (decodeReplace r.body) :=
    String.ofList_injective (String.toByteArray_inj.mp htext)
  obtain ⟨rfl, hjoined⟩ := UpdateRequest.canonical_inj.mp hcanonical
  exact ⟨before, [], ts', nonceHex, msg, rfl, hsign, hts, hrecent, hjoined.symm⟩

/-- One move. -/
theorem Traced.move (hs : Traced before log s)
    (hunforged : ∀ now r, m = .post now r → ∀ ts, app.Fits r ts → r.signedAs ts ∈ signedTexts before) :
    Traced (before ++ [m]) (log ++ app.note s m) (app.move s m) := by
  cases m with
  | boot =>
    have hdown : Traced before log (s.down restarted) := by
      refine ⟨fun k c hk => ?_, fun id job hjob => ?_, fun x hx => ?_⟩
      · rw [Crew.causes_down] at hk
        exact hs.threads k c hk
      · cases hjob
      · rw [Crew.causes_down]
        exact hs.calls x hx
    show Traced (before ++ [.boot]) (log ++ []) _
    rw [List.append_nil]
    exact hdown.start trivial
  | sign ts nonceHex msg =>
    show Traced (before ++ [.sign ts nonceHex msg]) (log ++ []) _
    rw [List.append_nil]
    exact hs.idle
  | post now r =>
    show Traced (before ++ [.post now r]) (log ++ []) _
    rw [List.append_nil]
    by_cases h : update app.hmac app.nudgeSecret now r = .ok .accepted
    · rw [move_post_of_accepted h]
      exact hs.start (nudged_of_accepted (hunforged now r rfl) h)
    · rw [move_post_of_not_accepted h]
      exact hs.idle
  | due id submitted =>
    show Traced (before ++ [.due id submitted]) (log ++ []) _
    rw [List.append_nil, App.move]
    cases hjob : s.state.service.jobs id with
    | none => exact hs.idle
    | some job =>
      simp only
      have hadvance : Traced before log
          { s with state.service := s.state.service.advance id job } := by
        refine ⟨hs.threads, fun id' job' hjob' => ?_, hs.calls⟩
        obtain ⟨job'', hjob'', hindex⟩ := jobs_advance hjob hjob'
        obtain ⟨j, hj, harmed⟩ := hs.jobs id' job'' hjob''
        exact ⟨j, hj, hindex ▸ harmed⟩
      cases submitted with
      | false => exact hadvance.idle
      | true => exact hadvance.start (hs.jobs id job hjob)
  | work k env => exact hs.work k env

/-- **Every run.** -/
theorem Traced.run (hs : Traced before log s)
    (hunforged : ∀ l₁ now r l₂, moves = l₁ ++ .post now r :: l₂ →
      ∀ ts, app.Fits r ts → r.signedAs ts ∈ signedTexts (before ++ l₁)) :
    Traced (before ++ moves) (log ++ app.log s moves) (app.run s moves) := by
  induction moves generalizing before log s with
  | nil =>
    rw [List.append_nil, App.log, List.append_nil]
    exact hs
  | cons m moves ih =>
    have hstep : Traced (before ++ [m]) (log ++ app.note s m) (app.move s m) :=
      hs.move fun now r hm => by
        have h := hunforged [] now r moves (by rw [hm]; rfl)
        rwa [List.append_nil] at h
    have hrest := ih hstep fun l₁ now r l₂ hl => by
      have h := hunforged (m :: l₁) now r l₂ (by rw [hl]; rfl)
      rwa [List.append_assoc, List.singleton_append]
    rwa [List.append_assoc, List.singleton_append, List.append_assoc] at hrest

theorem traced_launched : Traced [] [] (app.launched a) where
  threads k c hk := by
    have hcauses : (app.launched a).causes = [.boot] := rfl
    rw [hcauses] at hk
    obtain rfl := List.mem_singleton.mp (List.mem_of_getElem? hk)
    trivial
  jobs id job hjob := by cases hjob
  calls x hx := by cases hx

/-- Each thread goes back along the jobs, by induction on its position. -/
theorem Traced.descends (hs : Traced moves log s) (hk : k < s.causes.length) :
    Descends moves log s.causes k := by
  induction k using Nat.strong_induction_on with
  | _ k ih =>
    have hcause : s.causes[k]? = some s.causes[k] := List.getElem?_eq_getElem hk
    have hbehind := hs.threads k _ hcause
    cases hc : s.causes[k] with
    | boot => exact .boot (hc ▸ hcause)
    | nudge now r =>
      rw [hc] at hbehind
      exact .nudge (hc ▸ hcause) hbehind
    | job id index =>
      rw [hc] at hbehind
      obtain ⟨j, hj, harmed⟩ := hbehind
      exact .job (hc ▸ hcause) hj harmed (ih j hj (hj.trans hk))

/-! ### Requests -/

/-- Each accepted request starts one thread, and no other request does. -/
theorem requests_move :
    (app.move s m).causes.filterMap Cause.request =
      s.causes.filterMap Cause.request ++ (app.accepted m).toList := by
  cases m with
  | boot =>
    show ((s.down restarted).start .boot _).causes.filterMap Cause.request = _
    rw [Crew.causes_start, Crew.causes_down, List.filterMap_append]
    rfl
  | sign ts nonceHex msg => exact (List.append_nil _).symm
  | post now r =>
    by_cases h : update app.hmac app.nudgeSecret now r = .ok .accepted
    · have haccepted : app.accepted (.post now r) = some (now, r) :=
        accepted_eq_some.mpr ⟨rfl, h⟩
      rw [move_post_of_accepted h, Crew.causes_start, List.filterMap_append, haccepted]
      rfl
    · have hnone : app.accepted (.post now r) = none := by
        rw [Option.eq_none_iff_forall_ne_some]
        rintro x hx
        obtain ⟨hm, hupdate⟩ := accepted_eq_some.mp hx
        cases hm
        exact h hupdate
      rw [move_post_of_not_accepted h, hnone]
      exact (List.append_nil _).symm
  | due id submitted =>
    rw [App.move]
    cases s.state.service.jobs id with
    | none => exact (List.append_nil _).symm
    | some job =>
      cases submitted with
      | false => exact (List.append_nil _).symm
      | true =>
        simp only
        rw [if_pos trivial, Crew.causes_start, List.filterMap_append]
        rfl
  | work k env =>
    show (s.work (app.agent env) k).causes.filterMap Cause.request = _
    rw [Crew.causes_work]
    exact (List.append_nil _).symm

theorem requests_run :
    (app.run s moves).causes.filterMap Cause.request =
      s.causes.filterMap Cause.request ++ moves.filterMap app.accepted := by
  induction moves generalizing s with
  | nil => exact (List.append_nil _).symm
  | cons m moves ih =>
    rw [run_cons, ih, requests_move, List.append_assoc, List.filterMap_cons]
    cases app.accepted m <;> rfl

/-- What is accepted has a signature that fits, and a recent timestamp. -/
theorem fits_of_accepted {now : ℤ} {r : UpdateRequest}
    (h : update app.hmac app.nudgeSecret now r = .ok .accepted) :
    ∃ ts, app.Fits r ts ∧ |now - ts| ≤ 300 := by
  obtain ⟨-, ts, hts, hrecent, hsig⟩ := verifyNudge_eq_true.mp (update_eq_accepted.mp h)
  exact ⟨ts, ⟨hts, (compareDigest_eq_true.mp hsig).2.symm⟩, hrecent⟩

/-- **Replays.** One signature is accepted for ten minutes at most. -/
theorem expires (hunforged : app.Unforged moves)
    (hinj : Set.InjOn (app.hmac app.nudgeSecret) (signedTexts moves)) {x y : ℤ × UpdateRequest}
    (hx : x ∈ moves.filterMap app.accepted) (hy : y ∈ moves.filterMap app.accepted)
    (hsig : x.2.xSig = y.2.xSig) : |x.1 - y.1| ≤ 600 := by
  have hsigned : ∀ z ∈ moves.filterMap app.accepted,
      ∃ ts, app.Fits z.2 ts ∧ |z.1 - ts| ≤ 300 ∧ z.2.signedAs ts ∈ signedTexts moves := by
    intro z hz
    obtain ⟨m, hm, haccepted⟩ := List.mem_filterMap.mp hz
    obtain ⟨rfl, hupdate⟩ := accepted_eq_some.mp haccepted
    obtain ⟨ts, hfits, hrecent⟩ := fits_of_accepted hupdate
    obtain ⟨before, after, hsplit⟩ := List.append_of_mem hm
    obtain ⟨ts', nonceHex, msg, hsign, htext⟩ := hunforged before z.1 z.2 after hsplit ts hfits
    refine ⟨ts, hfits, hrecent, ts', nonceHex, msg, ?_, htext⟩
    rw [hsplit]
    exact List.mem_append_left _ hsign
  obtain ⟨t, ⟨-, hx⟩, hrecent, htext⟩ := hsigned x hx
  obtain ⟨u, ⟨-, hy⟩, hrecent', htext'⟩ := hsigned y hy
  -- one signature is of one text, and so it has one timestamp
  rw [hsig, hy] at hx
  have hdigest : app.hmac app.nudgeSecret (x.2.signedAs t) =
      app.hmac app.nudgeSecret (y.2.signedAs u) :=
    ByteArray.ext (Array.toList_inj.mp (Base64.encodeNoPad_injective hx)).symm
  have hcanonical := String.ofList_injective (String.toByteArray_inj.mp (hinj htext htext' hdigest))
  obtain ⟨rfl, -⟩ := UpdateRequest.canonical_inj.mp hcanonical
  rw [abs_le] at hrecent hrecent' ⊢
  omega

/-- **Who makes the agent do what.** In every run of the server, through any restarts, each call was
made by a thread that goes back to a start of the process or to a nudge that had been signed, with a
recent timestamp, and each job was armed by one. Each accepted request has started one refresh, in
order, and no other request has. And a signature is accepted for ten minutes at most. -/
theorem grounded (app : App) (a : Agent) (moves : List Move) (hunforged : app.Unforged moves) :
    let s := app.run (app.launched a) moves
    let log := app.log (app.launched a) moves
    (∀ x ∈ log, Descends moves log s.causes x.thread) ∧
      (∀ id job, s.state.service.jobs id = some job →
        ∃ j, Armed log j id job.index ∧ Descends moves log s.causes j) ∧
      s.causes.filterMap Cause.request = moves.filterMap app.accepted ∧
      (Set.InjOn (app.hmac app.nudgeSecret) (signedTexts moves) →
        ∀ x ∈ moves.filterMap app.accepted, ∀ y ∈ moves.filterMap app.accepted,
          x.2.xSig = y.2.xSig → |x.1 - y.1| ≤ 600) := by
  intro s log
  have htraced : Traced moves log s := by
    have hrun : Traced ([] ++ moves) ([] ++ log) s :=
      traced_launched.run fun l₁ now r l₂ hl => hunforged l₁ now r l₂ hl
    exact hrun
  refine ⟨fun x hx => htraced.descends (htraced.calls x hx), fun id job hjob => ?_, ?_,
    fun hinj x hx y hy hsig => expires hunforged hinj hx hy hsig⟩
  · obtain ⟨j, hj, harmed⟩ := htraced.jobs id job hjob
    exact ⟨j, harmed, htraced.descends hj⟩
  · exact requests_run

/-- A server with the secret of the tests. -/
def demoApp : App where
  toSetup := demoSetup
  hmac := UpdateRequest.demoHmac
  nudgeSecret := UpdateRequest.demoSecret

/-- The nudge of the tests. -/
def demoNudge : UpdateRequest := UpdateRequest.demoRequest "1700000000" "a" "b|c"

/-- It is signed, and posted while the first refresh is under way. The process is killed in the middle of
the second. -/
def demoMoves : List Move :=
  [.sign 1700000000 [97] "b|c".toList, .work 0 demoAgentEnv, .post 1700000010 demoNudge,
    .work 1 demoAgentEnv, .work 0 demoAgentEnv, .work 1 demoAgentEnv, .boot, .work 2 demoAgentEnv]

theorem unforged_demo : demoApp.Unforged demoMoves := by
  intro before now r after hsplit ts hfits
  have hpost : before = demoMoves.take 2 ∧ r = demoNudge := by
    match before, hsplit with
    | [_, _], hsplit => cases hsplit; exact ⟨rfl, rfl⟩
    | [], hsplit => cases hsplit
    | [_], hsplit => cases hsplit
    | _ :: _ :: _ :: before, hsplit =>
      have hmem : Move.post now r ∈ demoMoves.drop 3 := by
        have hdrop : demoMoves.drop 3 = before ++ .post now r :: after := by rw [hsplit]; rfl
        rw [hdrop]
        exact List.mem_append_right _ List.mem_cons_self
      simp [demoMoves] at hmem
  obtain ⟨rfl, rfl⟩ := hpost
  obtain rfl : (1700000000 : ℤ) = ts :=
    Except.ok.inj (Eq.trans (by decide) hfits.1 : (Except.ok 1700000000 : Except Exc ℤ) = .ok ts)
  exact ⟨1700000000, [97], "b|c".toList, by simp [demoMoves], by decide⟩

theorem grounded_demo :
    (demoApp.run (demoApp.launched demoAgent) demoMoves).causes.filterMap Cause.request =
      [(1700000010, demoNudge)] := by
  refine (grounded demoApp demoAgent demoMoves unforged_demo).2.2.1.trans ?_
  have haccepted : demoApp.accepted (.post 1700000010 demoNudge) = some (1700000010, demoNudge) :=
    accepted_eq_some.mpr ⟨rfl, UpdateRequest.demoRequest_accepted⟩
  simp only [demoMoves, List.filterMap_cons, haccepted]
  rfl

/-! ### Histories -/

/-- The threads get the time they need, one event after another. -/
theorem exists_run_after {now : ℤ} {r : UpdateRequest}
    (hr : update app.hmac app.nudgeSecret now r = .ok .accepted) (s : Server) (ev : AgentEvent) :
    ∃ moves, (app.run s moves).state = app.after s.state ev := by
  have hwork : ∀ (s : Server) (c : Cause) (p : Service Unit) (env : AgentEnv),
      ∃ n, (app.run (s.start c (app.steps p)) (List.replicate n (.work s.threads.length env))).state =
        (eval (app.agent env) (app.steps p) s.state).2 := by
    intro s c p env
    have hend : ∃ n, (List.replicate n s.threads.length).foldl (Crew.work (app.agent env))
        (s.start c (app.steps p)) =
          ⟨(s.start c (app.steps p)).threads.set s.threads.length
            ⟨c, ofExcept (eval (app.agent env) (app.steps p) s.state).1⟩,
              (eval (app.agent env) (app.steps p) s.state).2⟩ :=
      Crew.work_to_end List.getElem?_concat_length
    obtain ⟨n, hn⟩ := hend
    refine ⟨n, ?_⟩
    have hrun : app.run (s.start c (app.steps p)) (List.replicate n (.work s.threads.length env)) =
        (List.replicate n s.threads.length).foldl (Crew.work (app.agent env))
          (s.start c (app.steps p)) := by
      rw [run, ← List.map_replicate (f := fun k => Move.work k env), List.foldl_map]
      rfl
    rw [hrun]
    exact congrArg Crew.state hn
  cases ev with
  | refresh env =>
    obtain ⟨n, hn⟩ := hwork s (.nudge now r) dispatched env
    refine ⟨.post now r :: List.replicate n (.work s.threads.length env), ?_⟩
    rw [run_cons, move_post_of_accepted hr, hn]
    rfl
  | fire id env =>
    cases hjob : s.state.service.jobs id with
    | none =>
      refine ⟨[], ?_⟩
      rw [run_nil, Setup.after]
      simp only [Setup.task, Setup.begun, hjob]
      rfl
    | some job =>
      obtain ⟨n, hn⟩ := hwork { s with state.service := s.state.service.advance id job }
        (.job id job.index) (renewOne job.index) env
      refine ⟨.due id true :: List.replicate n (.work s.threads.length env), ?_⟩
      have hmove : app.move s (.due id true) =
          Crew.start { s with state.service := s.state.service.advance id job }
            (.job id job.index) (app.steps (renewOne job.index)) := by
        simp only [App.move, hjob, if_true]
      rw [run_cons, hmove]
      refine hn.trans ?_
      rw [Setup.after]
      simp only [Setup.task, Setup.begun, hjob]
      rfl

/-- **Histories.** What the agent comes to in a history of refreshes and firings, the server comes to in
one of its runs, once there is a nudge that is accepted. -/
theorem exists_run_afterAll {now : ℤ} {r : UpdateRequest}
    (hr : update app.hmac app.nudgeSecret now r = .ok .accepted) (s : Server)
    (hist : List AgentEvent) :
    ∃ moves, (app.run s moves).state = app.afterAll s.state hist := by
  induction hist generalizing s with
  | nil => exact ⟨[], rfl⟩
  | cons ev hist ih =>
    obtain ⟨moves, hmoves⟩ := exists_run_after hr s ev
    obtain ⟨moves', hmoves'⟩ := ih (app.run s moves)
    refine ⟨moves ++ moves', ?_⟩
    rw [run_append, hmoves', hmoves]
    rfl

/-! ### Files that are left alone -/

/-- The flows of a configuration do not reach this file. -/
def Spared (app : App) (l : Place) (cfg : AgentConfig) : Prop :=
  ∀ flow ∈ cfg.flows, ¬ app.MayWrite flow l

/-- Steps that have to do only with configurations whose flows spare the file. -/
def SparingStep (app : App) (l : Place) : ServiceOp → Prop
  | .setConfig cfg => app.Spared l cfg
  | .run _ flow => ¬ app.MayWrite flow l
  | _ => True

/-- The configurations that are got hold of are such. -/
def SparingAnswer (app : App) (l : Place) : (o : ServiceOp) → Except Exc o.Ans → Prop
  | .pull, r => ∀ cfg, r = .ok cfg → app.Spared l cfg
  | .getConfig, r => ∀ cfg, r = .ok (some cfg) → app.Spared l cfg
  | _, _ => True

/-- Calls that spare the file. -/
def Sparing (app : App) (l : Place) : AgentOp → Prop
  | .service o => app.SparingStep l o ∧ ∀ i flow, o ≠ .run i flow
  | .flow _ o => ∀ p, o.target = some p → app.place p ≠ l

/-- The same of the calls of the agent. -/
def SparingCallAnswer (app : App) (l : Place) : (o : AgentOp) → Except Exc o.Ans → Prop
  | .service o, r => app.SparingAnswer l o r
  | .flow _ _, _ => True

variable {l : Place}

theorem sparingStep_of_flowStep {i : ℕ} {flow : FlowConfig} (hl : ¬ app.MayWrite flow l)
    {o : ServiceOp} (ho : FlowStep i flow o) : app.SparingStep l o := by
  cases ho <;> first | exact hl | trivial

theorem uses_refresh : refresh.Uses (app.SparingAnswer l) (app.SparingStep l) := by
  refine uses_perform_bind trivial fun cfg hpull => ?_
  have hcfg : app.Spared l cfg := hpull cfg rfl
  refine (uses_act hcfg).bind fun _ => Uses.bind ?_ fun _ => Uses.bind ?_ fun _ => trivial
  · exact uses_persist_of trivial fun _ => ⟨trivial, trivial, trivial⟩
  · exact Setup.uses_runFlows_of_mem cfg 0 fun i flow hflow o ho =>
      sparingStep_of_flowStep (hcfg flow hflow) ho

theorem uses_renewOne (i : ℕ) : (renewOne i).Uses (app.SparingAnswer l) (app.SparingStep l) := by
  have hrefresh : (do let _ ← refresh; return () : Service Unit).Uses (app.SparingAnswer l)
      (app.SparingStep l) := uses_refresh.bind fun _ => trivial
  refine uses_perform_bind trivial fun held hheld => ?_
  cases held with
  | none => exact hrefresh
  | some cfg =>
    cases hflow : cfg.flows[i]? with
    | none => simpa only [hflow] using hrefresh
    | some flow =>
      simp only [hflow]
      have hl : ¬ app.MayWrite flow l := hheld cfg rfl flow (List.mem_of_getElem? hflow)
      exact (uses_runOneFlow cfg i flow).mono (fun _ _ h => h) fun o ho =>
        sparingStep_of_flowStep hl ho

/-- Call by call. -/
theorem uses_steps {p : Service Unit} (hp : p.Uses (app.SparingAnswer l) (app.SparingStep l)) :
    (app.steps p).Uses (app.SparingCallAnswer l) (app.Sparing l) := by
  refine hp.translate fun o ho => ?_
  have hperform : (∀ i flow, o ≠ .run i flow) →
      (@perform Exc agentSig (.service o)).Uses (app.SparingCallAnswer l) (app.Sparing l) ∧
        (@perform Exc agentSig (.service o)).Ends (app.SparingCallAnswer l) (app.SparingAnswer l o) :=
    fun hrun => ⟨uses_perform (S := agentSig) (o := .service o) ⟨ho, hrun⟩,
      ends_perform (S := agentSig) (.service o)⟩
  cases o with
  | run i flow =>
    refine ⟨?_, ends_of_forall (fun _ => trivial) _⟩
    refine Uses.translate (Node.uses_at_run (A := fun _ _ => True)) fun o hat => ?_
    refine ⟨uses_perform (S := agentSig) (o := .flow i o) fun p hp hpl => ?_,
      ends_of_forall (fun _ => trivial) _⟩
    exact ho (.inl (hpl ▸ hat p hp))
  | _ => exact hperform (by simp)

/-- The held configuration spares the file, and the file is as it was. -/
def Keeping (app : App) (l : Place) (f : Option File) (b : Agent) : Prop :=
  (∀ cfg, b.service.config = some cfg → app.Spared l cfg) ∧ b.machine.files l = f

/-- **One call** of any thread. -/
theorem keeping_agent {env : AgentEnv} {f : Option File} (hpath : l ≠ app.place app.configPath)
    (hpull : ∀ cfg, env.service.pull = .ok cfg → app.Spared l cfg) (o : AgentOp) (b : Agent)
    (ho : app.Sparing l o) (hb : app.Keeping l f b) :
    app.SparingCallAnswer l o (app.agent env o b).1 ∧ app.Keeping l f (app.agent env o b).2 := by
  cases o with
  | flow i o =>
    exact ⟨trivial, hb.1, (Node.files_machine_of_ne fun p hp => ho p hp).trans hb.2⟩
  | service o =>
    have hmachine : (app.agent env (.service o) b).2.machine = b.machine ∨
        ∃ o' : HostOp, o'.target = some app.configPath ∧ (app.agent env (.service o) b).2.machine =
          (app.machine env.config o' b.machine).2 := Setup.machine_service o b
    have hfile : (app.agent env (.service o) b).2.machine.files l = f := by
      rcases hmachine with hsame | ⟨o', ho', hnew⟩
      · rw [hsame]
        exact hb.2
      · rw [hnew]
        refine (Node.files_machine_of_ne fun p hp hpl => hpath ?_).trans hb.2
        rw [← hpl, Option.some.inj (hp.symm.trans ho')]
    refine ⟨?_, ?_, hfile⟩
    · cases o with
      | pull => exact hpull
      | getConfig =>
        intro cfg hcfg
        exact hb.1 cfg (Except.ok.inj hcfg)
      | _ => trivial
    · cases o with
      | setConfig cfg =>
        rintro cfg' ⟨⟩
        exact ho.1
      | addJob id trigger index =>
        simp only [Setup.agent, service]
        split <;> exact hb.1
      | writeConfig cfg =>
        simp only [Setup.agent, service]
        split <;> exact hb.1
      | _ => exact hb.1

/-- The server keeps the file, and its threads will. -/
abbrev Sound (app : App) (l : Place) (f : Option File) (s : Server) : Prop :=
  Crew.Sound (app.SparingCallAnswer l) (app.Sparing l) (app.Keeping l f) s

theorem sound_move {f : Option File} (hpath : l ≠ app.place app.configPath)
    (hpull : ∀ k env, m = .work k env → ∀ cfg, env.service.pull = .ok cfg → app.Spared l cfg)
    (hs : app.Sound l f s) : app.Sound l f (app.move s m) := by
  cases m with
  | boot =>
    have hdown : app.Sound l f (s.down restarted) :=
      Crew.sound_down ⟨fun cfg hcfg => (by cases hcfg), hs.state.2⟩
    refine hdown.start (uses_steps (Uses.tryCatch ?_ fun e => trivial))
    exact uses_refresh.bind fun _ => trivial
  | sign ts nonceHex msg => exact hs
  | post now r =>
    rw [App.move]
    split
    · exact hs.start (uses_steps (uses_refresh.bind fun _ => trivial))
    · exact hs
  | due id submitted =>
    rw [App.move]
    split
    · exact hs
    · have hadvance : ∀ job, app.Sound l f { s with
          state.service := s.state.service.advance id job } := fun job => ⟨hs.state, hs.uses⟩
      cases submitted with
      | false => exact hadvance _
      | true => exact (hadvance _).start (uses_steps (uses_renewOne _))
  | work k env => exact hs.work (keeping_agent hpath (hpull k env rfl)) k

theorem sound_run {f : Option File} (hpath : l ≠ app.place app.configPath)
    (hpull : ∀ k env, .work k env ∈ moves → ∀ cfg, env.service.pull = .ok cfg → app.Spared l cfg)
    (hs : app.Sound l f s) : app.Sound l f (app.run s moves) := by
  induction moves generalizing s with
  | nil => exact hs
  | cons m moves ih =>
    refine ih (fun k env hmem => hpull k env (List.mem_cons_of_mem _ hmem)) (sound_move hpath ?_ hs)
    rintro k env rfl
    exact hpull k env List.mem_cons_self

theorem files_of_spared (hpath : l ≠ app.place app.configPath)
    (hpull : ∀ k env, .work k env ∈ moves → ∀ cfg, env.service.pull = .ok cfg → app.Spared l cfg) :
    (app.run (app.launched a) moves).state.machine.files l = a.machine.files l := by
  have hstart : app.Sound l (a.machine.files l) (⟨[], restarted a⟩ : Server) :=
    ⟨⟨fun cfg hcfg => (by cases hcfg), rfl⟩, fun t ht => by cases ht⟩
  have hlaunched : app.Sound l (a.machine.files l) (app.launched a) :=
    hstart.start (uses_steps (Uses.tryCatch (uses_refresh.bind fun _ => trivial) fun e => trivial))
  exact (sound_run hpath hpull hlaunched).state.2

/-- **What the server leaves alone.** However refreshes and renewals overlap, and at whatever calls the
process is killed and started again, a file that is neither `config.json` nor reached by a flow of a
configuration that was pulled is as it was. And as long as these flows do not reach the certificate and
the key of the machine, they are as they were. -/
theorem files_spared (app : App) (a : Agent) (moves : List Move) :
    (∀ l, l ≠ app.place app.configPath →
      (∀ k env, .work k env ∈ moves → ∀ cfg, env.service.pull = .ok cfg →
        ∀ flow ∈ cfg.flows, ¬ app.MayWrite flow l) →
          (app.run (app.launched a) moves).state.machine.files l = a.machine.files l) ∧
    ((∀ k env, .work k env ∈ moves → ∀ cfg, env.service.pull = .ok cfg → app.Confined cfg) →
      app.place app.configPath ≠ app.machineCert → app.place app.configPath ≠ app.machineKey →
        (app.run (app.launched a) moves).state.machine.files app.machineCert =
            a.machine.files app.machineCert ∧
          (app.run (app.launched a) moves).state.machine.files app.machineKey =
            a.machine.files app.machineKey) := by
  refine ⟨fun l hpath hpull => files_of_spared hpath hpull, fun hclear hcert hkey => ?_⟩
  exact ⟨files_of_spared hcert.symm fun k env hmem cfg hcfg flow hflow =>
      (Setup.not_mayWrite_of_confined (hclear k env hmem cfg hcfg) hflow).1,
    files_of_spared hkey.symm fun k env hmem cfg hcfg flow hflow =>
      (Setup.not_mayWrite_of_confined (hclear k env hmem cfg hcfg) hflow).2⟩

theorem files_spared_demo :
    (demoApp.run (demoApp.launched demoAgent) demoMoves).state.machine.files
        ["etc".toList, "hosts".toList] = none ∧
      (demoApp.run (demoApp.launched demoAgent) demoMoves).state.machine.files
        demoApp.machineCert = none := by
  have hpull : ∀ k env, .work k env ∈ demoMoves → ∀ cfg, env.service.pull = .ok cfg →
      cfg = Setup.demoConfig := by
    have henv : ∀ m ∈ demoMoves, ∀ k env, m = .work k env → demoAgentEnv = env := by
      simp [demoMoves]
    intro k env hmem cfg hcfg
    rw [← henv _ hmem k env rfl] at hcfg
    exact (Except.ok.inj hcfg).symm
  have h := files_spared demoApp demoAgent demoMoves
  refine ⟨h.1 _ (by decide) fun k env hmem cfg hcfg => ?_,
    (h.2 (fun k env hmem cfg hcfg => ?_) (by decide) (by decide)).1⟩
  · rw [hpull k env hmem cfg hcfg]
    decide
  · rw [hpull k env hmem cfg hcfg]
    exact ⟨⟨by decide, by decide⟩, by decide⟩

end App

end NextepAgent
