import NextepAgent.Effect.Interleaving
import NextepAgent.Issue

/-!
# Runs side by side

The boot refresh, an `/update` refresh and a scheduled run may be at work on one flow at the same
time, on threads of their own and without a lock. Each file is then a register that they overwrite,
and what it holds at the end is what the last writer put there. The two files end up as a pair
exactly when they have the same last writer, and nothing in the code sees to that.

## Main definitions

* `FlowRunner.certWrite`, `keyWrite` — the two registers
* `FlowRunner.Fresh` — every run is to obtain a pair of its own

## Main results

* `FlowRunner.strict_run` — a write that fails ends the run
* `FlowRunner.one_pair_iff` — when the two files end up as a pair
-/

namespace NextepAgent

open Effect Program

/-- Only a write to it changes the bytes of a file. -/
theorem bytes_host {env : HostEnv} {o : HostOp} {p : Path} (ho : ∀ t, o ≠ .writeText p t)
    (w : Host) : (host env o w).2.bytes p = w.bytes p := by
  cases o with
  | writeText q t =>
    have hq : p ≠ q := fun h => ho t (h ▸ rfl)
    simp only [host]
    split
    · rfl
    · split
      · rfl
      · exact w.bytes_put_of_ne _ hq
      · split
        · exact w.bytes_put_of_ne _ hq
        · exact w.bytes_put_of_ne _ hq
  | chmod q mode =>
    simp only [host]
    split
    · exact w.bytes_setMode q p mode
    · rfl
  | runScript s =>
    simp only [host]
    split <;> rfl
  | _ => rfl

/-- A write that succeeds leaves the encoded text. -/
theorem bytes_host_writeText {env : HostEnv} {p : Path} {t : Text} {w : Host}
    (h : (host env (.writeText p t) w).1.isOk = true) :
    (host env (.writeText p t) w).2.bytes p = (encode t).toOption := by
  simp only [host] at h ⊢
  split at h
  · cases h
  · next hnull =>
    rw [if_neg hnull]
    cases hwrite : env.writeText p with
    | refused e => simp [hwrite, Except.isOk, Except.toBool] at h
    | torn n e => simp [hwrite, Except.isOk, Except.toBool] at h
    | works =>
      cases henc : encode t with
      | error e => simp [hwrite, henc, Except.isOk, Except.toBool] at h
      | ok b => simp [Except.toOption]

/-- A write. -/
def HostOp.isWrite : HostOp → Prop
  | .writeText _ _ => True
  | _ => False

namespace FlowRunner

variable {self : FlowRunner}

/-! ### The registers -/

/-- What a call puts in the file at `path`. -/
def fileWrite (path : Except Exc Path) : HostOp → Option (Option Bytes)
  | .writeText p t => if path = .ok p then some (encode t).toOption else none
  | _ => none

/-- What a call puts in the certificate file. -/
def certWrite (self : FlowRunner) : HostOp → Option (Option Bytes) := fileWrite self.certPath

/-- What a call puts in the key file. -/
def keyWrite (self : FlowRunner) : HostOp → Option (Option Bytes) := fileWrite self.keyPath

theorem fileWrite_eq_some {path : Except Exc Path} {o : HostOp} {v : Option Bytes}
    (h : fileWrite path o = some v) :
    ∃ p t, o = .writeText p t ∧ path = .ok p ∧ v = (encode t).toOption := by
  cases o with
  | writeText p t =>
    rw [fileWrite] at h
    split at h
    · next hp =>
      cases h
      exact ⟨p, t, rfl, hp, rfl⟩
    · cases h
  | _ => cases h

/-! ### The calls of a run -/

/-- A write that fails ends a run. -/
theorem strict_writeIfChanged (p : Path) (t : Text) (mode : ℕ) :
    (writeIfChanged p t mode).Strict HostOp.isWrite := by
  refine Strict.bind (strict_perform _) fun _ => Strict.bind ?_ fun there => ?_
  · refine ((uses_readsAs p t).mono (fun _ _ _ => trivial) fun o ho => ?_).strict fun _ _ => trivial
    cases o <;> first | exact fun h => h | exact ho.elim
  · cases there with
    | true => trivial
    | false => exact Strict.bind (strict_perform _) fun _ =>
        Strict.bind (strict_perform _) fun _ => trivial

theorem strict_run (self : FlowRunner) : self.run.Strict HostOp.isWrite := by
  have hgate : self.upToDate.Strict HostOp.isWrite := by
    refine (self.uses_upToDate.mono (fun _ _ _ => trivial) fun o ho => ?_).strict fun _ _ => trivial
    cases o <;> first | exact fun h => h | exact ho.elim
  refine Strict.bind hgate fun found => ?_
  cases found with
  | some leaf => exact strict_ofExcept _
  | none =>
    refine Strict.bind (strict_perform _) fun pair => Strict.bind ?_ fun changed => ?_
    · rw [write]
      split
      · trivial
      · refine Strict.bind (strict_ofExcept _) fun p => Strict.bind (strict_writeIfChanged ..) ?_
        exact fun changed => Strict.bind (strict_ofExcept _) fun q =>
          Strict.bind (strict_writeIfChanged ..) fun _ => trivial
    · refine Strict.bind (strict_ofExcept _) fun leaf => ?_
      split
      · -- the hook is inside a `try`, and writes nothing
        have hhook : self.runPostRenewal.Uses (fun _ _ => True) fun o : HostOp => ¬ o.isWrite := by
          refine Uses.tryCatch ((uses_sys fun h => h).bind fun _ => trivial) fun e => ?_
          split <;> trivial
        exact Strict.bind (hhook.strict fun _ _ => trivial) fun _ => strict_ofExcept _
      · exact strict_ofExcept _

/-- What `_obtain` answers in `env`. -/
def Answers (env : HostEnv) : (o : HostOp) → Except Exc o.Ans → Prop
  | .obtain, r => r = env.obtain
  | _, _ => True

/-- The calls of a run that obtains `c`, `k`. -/
def RunOp (self : FlowRunner) (c k : Text) (o : HostOp) : Prop := o = .obtain ∨ self.IssueOp c k o

theorem uses_run (self : FlowRunner) {env : HostEnv} {c k : Text} (h : env.obtain = .ok (c, k)) :
    self.run.Uses (Answers env) (self.RunOp c k) := by
  refine (self.uses_upToDate.mono (fun _ _ _ => trivial) fun o ho => ?_).bind fun found => ?_
  · cases o <;> first | exact .inr trivial | exact ho.elim
  · cases found with
    | some leaf => exact uses_ofExcept _
    | none =>
      refine uses_perform_bind (.inl rfl) fun pair hpair => ?_
      have hpair : pair = (c, k) := Except.ok.inj (hpair.trans h)
      subst hpair
      exact (self.uses_issue c k).mono (fun _ _ h => h) fun o ho => .inr ho

/-! ### Runs side by side -/

/-- Every run is to obtain a pair of its own, of which the disk holds nothing yet. -/
structure Fresh {ι : Type} (fr : FlowRunner) (env : ι → HostEnv) (w : Host) where
  /-- The certificates. -/
  certPem : ι → Text
  /-- The keys. -/
  keyPem : ι → Text
  /-- The certificates, encoded. -/
  cert : ι → Bytes
  /-- The keys, encoded. -/
  key : ι → Bytes
  obtained : ∀ i, (env i).obtain = .ok (certPem i, keyPem i)
  certEncoded : ∀ i, encode (certPem i) = .ok (cert i)
  keyEncoded : ∀ i, encode (keyPem i) = .ok (key i)
  cert_inj : ∀ i j, cert i = cert j → i = j
  key_inj : ∀ i j, key i = key j → i = j
  cert_new : ∀ i, fr.certBytes w ≠ some (cert i)
  key_new : ∀ i, fr.keyBytes w ≠ some (key i)

section Pool

variable {ι : Type} [DecidableEq ι] {env : ι → HostEnv} {w : Host}

/-- All runs at their start. -/
def sideBySide (self : FlowRunner) (ι : Type) (w : Host) : Pool Exc hostSig IssueResult ι Host :=
  ⟨fun _ => self.run, w⟩

/-- The state of the flow after a schedule. -/
def raced (self : FlowRunner) (env : ι → HostEnv) (w : Host) (sched : List ι) :
    Pool Exc hostSig IssueResult ι Host :=
  Pool.run (fun i => host (env i)) (self.sideBySide ι w) sched

/-- The calls a schedule makes. -/
def raceLog (self : FlowRunner) (env : ι → HostEnv) (w : Host) (sched : List ι) :
    List (Entry hostSig ι) :=
  Pool.log (fun i => host (env i)) (self.sideBySide ι w) sched

/-- A call that is made is one its own run can make. -/
theorem runOp_of_mem_raceLog (F : self.Fresh env w) {sched : List ι} :
    ∀ x ∈ self.raceLog env w sched, self.RunOp (F.certPem x.thread) (F.keyPem x.thread) x.op := by
  have huses : ∀ i, ((self.sideBySide ι w).prog i).Uses (Answers (env i))
      (self.RunOp (F.certPem i) (F.keyPem i)) := fun i => self.uses_run (F.obtained i)
  refine Pool.mem_log_uses huses (fun i o s => ?_) sched
  cases o <;> first | rfl | trivial

/-- If every run has returned, its writes have succeeded. -/
theorem ok_of_returned {sched : List ι} (hret : ∀ i, ∃ r, (self.raced env w sched).prog i = .ret r) :
    ∀ x ∈ self.raceLog env w sched, HostOp.isWrite x.op → x.ok = true :=
  Pool.ok_of_strict (P := self.sideBySide ι w) (fun _ => self.strict_run) hret

/-- **A file is a register.** -/
theorem bytes_raced (path : Except Exc Path) {sched : List ι}
    (hret : ∀ i, ∃ r, (self.raced env w sched).prog i = .ret r) :
    (self.raced env w sched).state.bytesAt path =
      ((lastWrite (fileWrite path) (self.raceLog env w sched)).map Prod.snd).getD
        (w.bytesAt path) := by
  refine Pool.register_run (S := hostSig) (w := fileWrite path)
    (g := fun w : Host => w.bytesAt path) ?_ ?_ _ _ ?_
  · intro i o s ho
    cases path with
    | error e => rfl
    | ok p =>
      refine bytes_host (fun t h => ?_) s
      rw [h, fileWrite, if_pos rfl] at ho
      cases ho
  · intro i o s v ho hok
    obtain ⟨p, t, rfl, rfl, rfl⟩ := fileWrite_eq_some ho
    exact bytes_host_writeText hok
  · intro x hx hw
    obtain ⟨v, hv⟩ := Option.isSome_iff_exists.mp hw
    obtain ⟨p, t, hop, -, -⟩ := fileWrite_eq_some hv
    exact ok_of_returned hret x hx (by rw [hop]; trivial)

/-- What a run writes to a file is what it has for that file. -/
theorem snd_lastWrite (F : self.Fresh env w) {sched : List ι} {path : Except Exc Path}
    {text : ι → Text} (hown : ∀ i p t, path = .ok p →
      self.RunOp (F.certPem i) (F.keyPem i) (.writeText p t) → t = text i) {i : ι} {v : Option Bytes}
    (h : lastWrite (fileWrite path) (self.raceLog env w sched) = some (i, v)) :
    v = (encode (text i)).toOption := by
  obtain ⟨x, hx, rfl, hv⟩ := mem_of_lastWrite h
  obtain ⟨p, t, hop, hp, rfl⟩ := fileWrite_eq_some hv
  have hrun := runOp_of_mem_raceLog F x hx
  rw [hop] at hrun
  rw [hown x.thread p t hp hrun]

/-- To the certificate file it writes its certificate. -/
theorem snd_lastWrite_cert (F : self.Fresh env w) {sched : List ι} {i : ι} {v : Option Bytes}
    (h : lastWrite self.certWrite (self.raceLog env w sched) = some (i, v)) :
    v = some (F.cert i) := by
  have hown : ∀ i p t, self.certPath = .ok p →
      self.RunOp (F.certPem i) (F.keyPem i) (.writeText p t) → t = F.certPem i := by
    rintro i p t hp (hobtain | ⟨-, rfl⟩ | ⟨hq, -⟩)
    · cases hobtain
    · rfl
    · exact absurd rfl (certPath_ne_keyPath hp hq)
  rw [snd_lastWrite F hown h, F.certEncoded]
  rfl

/-- To the key file it writes its key. -/
theorem snd_lastWrite_key (F : self.Fresh env w) {sched : List ι} {i : ι} {v : Option Bytes}
    (h : lastWrite self.keyWrite (self.raceLog env w sched) = some (i, v)) :
    v = some (F.key i) := by
  have hown : ∀ i q t, self.keyPath = .ok q →
      self.RunOp (F.certPem i) (F.keyPem i) (.writeText q t) → t = F.keyPem i := by
    rintro i q t hq (hobtain | ⟨hp, -⟩ | ⟨-, rfl⟩)
    · cases hobtain
    · exact absurd rfl (certPath_ne_keyPath hp hq)
    · rfl
  rw [snd_lastWrite F hown h, F.keyEncoded]
  rfl

/-- **One last writer.** When every run has returned, the two files hold a pair that one `_obtain`
returned, or are as they were at the start, exactly when they have the same last writer. -/
theorem one_pair_iff (self : FlowRunner) (env : ι → HostEnv) (w : Host) (F : self.Fresh env w)
    (sched : List ι) (hret : ∀ i, ∃ r, (self.raced env w sched).prog i = .ret r) :
    ((∃ i, self.certBytes (self.raced env w sched).state = some (F.cert i) ∧
          self.keyBytes (self.raced env w sched).state = some (F.key i)) ∨
        self.certBytes (self.raced env w sched).state = self.certBytes w ∧
          self.keyBytes (self.raced env w sched).state = self.keyBytes w) ↔
      (lastWrite self.certWrite (self.raceLog env w sched)).map Prod.fst =
        (lastWrite self.keyWrite (self.raceLog env w sched)).map Prod.fst := by
  have hcertNew : ∀ i, some (F.cert i) ≠ self.certBytes w := fun i => (F.cert_new i).symm
  have hkeyNew : ∀ i, some (F.key i) ≠ self.keyBytes w := fun i => (F.key_new i).symm
  have hcertBytes : self.certBytes (self.raced env w sched).state =
      ((lastWrite self.certWrite (self.raceLog env w sched)).map Prod.snd).getD
        (self.certBytes w) := bytes_raced self.certPath hret
  have hkeyBytes : self.keyBytes (self.raced env w sched).state =
      ((lastWrite self.keyWrite (self.raceLog env w sched)).map Prod.snd).getD
        (self.keyBytes w) := bytes_raced self.keyPath hret
  rw [hcertBytes, hkeyBytes]
  cases hcert : lastWrite self.certWrite (self.raceLog env w sched) with
  | none =>
    cases hkey : lastWrite self.keyWrite (self.raceLog env w sched) with
    | none => simp
    | some y => simp [snd_lastWrite_key F hkey, F.cert_new, hkeyNew]
  | some x =>
    cases hkey : lastWrite self.keyWrite (self.raceLog env w sched) with
    | none => simp [snd_lastWrite_cert F hcert, F.key_new, hcertNew]
    | some y =>
      simp only [Option.map_some, Option.getD_some, snd_lastWrite_cert F hcert,
        snd_lastWrite_key F hkey, Option.some.injEq]
      constructor
      · rintro (⟨i, hi, hi'⟩ | ⟨hi, -⟩)
        · rw [F.cert_inj _ _ hi, F.key_inj _ _ hi']
        · exact absurd hi (hcertNew _)
      · intro hxy
        exact .inl ⟨x.1, rfl, by rw [hxy]⟩

end Pool

/-! ### Two runs of the demo flow -/

/-- The demo flow, with the certificates `A` and `B`. -/
def racingFlow : FlowRunner :=
  demoRunner (demoFlow "app")
    [("A", ⟨100 * day, 200 * day, .ok (some [.dns "app"])⟩),
      ("B", ⟨100 * day, 200 * day, .ok (some [.dns "app"])⟩)]

/-- The boot refresh obtains `A` and `K`, a scheduled run obtains `B` and `L`. -/
def racingEnv : Bool → HostEnv
  | false => demoEnv (150 * day) (.ok (.ofString "A", .ofString "K"))
  | true => demoEnv (150 * day) (.ok (.ofString "B", .ofString "L"))

/-- On a host without files, both pairs are fresh. -/
def racingFresh : racingFlow.Fresh racingEnv noFiles where
  certPem := fun | false => .ofString "A" | true => .ofString "B"
  keyPem := fun | false => .ofString "K" | true => .ofString "L"
  cert := fun | false => "A".toByteArray | true => "B".toByteArray
  key := fun | false => "K".toByteArray | true => "L".toByteArray
  obtained i := by cases i <;> rfl
  certEncoded i := by cases i <;> rfl
  keyEncoded i := by cases i <;> rfl
  cert_inj := by decide
  key_inj := by decide
  cert_new := by decide
  key_new := by decide

/-- One after the other: the second run keeps what the first has issued. -/
theorem one_pair_iff_demo :
    (lastWrite racingFlow.certWrite (racingFlow.raceLog racingEnv noFiles
        (List.replicate 10 false ++ List.replicate 3 true))).map Prod.fst =
      (lastWrite racingFlow.keyWrite (racingFlow.raceLog racingEnv noFiles
        (List.replicate 10 false ++ List.replicate 3 true))).map Prod.fst := by
  refine (one_pair_iff racingFlow racingEnv noFiles racingFresh
    (List.replicate 10 false ++ List.replicate 3 true) fun i => ?_).mp (.inl ⟨false, ?_, ?_⟩)
  · cases i <;> exact ⟨_, rfl⟩
  · decide
  · decide

/-- **Overtaken between two writes.** The first run has written its certificate when the second
writes both files, and then it writes its key. Both return, and the files are of two pairs. -/
theorem mixed_pair :
    ¬ ∀ (self : FlowRunner) (env : Bool → HostEnv) (w : Host) (F : self.Fresh env w)
      (sched : List Bool), (∀ i, ∃ r, (self.raced env w sched).prog i = .ret r) →
      ((∃ i, self.certBytes (self.raced env w sched).state = some (F.cert i) ∧
          self.keyBytes (self.raced env w sched).state = some (F.key i)) ∨
        self.certBytes (self.raced env w sched).state = self.certBytes w ∧
          self.keyBytes (self.raced env w sched).state = self.keyBytes w) := by
  intro h
  have hpair := h racingFlow racingEnv noFiles racingFresh
    (List.replicate 6 false ++ List.replicate 11 true ++ List.replicate 4 false)
    (fun i => by cases i <;> exact ⟨_, rfl⟩)
  exact absurd hpair (by decide)

end FlowRunner

end NextepAgent
