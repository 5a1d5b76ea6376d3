import NextepAgent.Effect.Footprint
import NextepAgent.Issue
import NextepAgent.OutputPaths

/-!
# A machine with several flows on it

On a `Host` a file is found by the directory, the name and the extension it was asked for by. For one
flow that is enough. Between flows it is not: two paths can lead to one file, and then what one flow
writes is what the other reads. A `Machine` has its files by place, and a call on it is the same call
on the host that its paths see.

## One flow

The certificate and the key of a flow never lie at one place. So a flow that is run on a machine
ends and leaves its two files as it does on the host, and everything proved about a run on a host
holds of a run on a machine.

## Main definitions

* `Machine`, `Node.view`, `Node.machine` — files by place, what paths see of them, the calls
* `HostOp.target`, `FlowRunner.Touches` — the file a call is about, the calls of a runner
* `Machine.part` — some files and the umask

## Main results

* `host_congr`, `host_files_of_ne` — what a call sees, and what it leaves alone
* `Node.local_machine`, `Node.spares_machine` — the same, by place
* `Node.run_machine` — a flow on a machine is the flow on a host
-/

namespace NextepAgent

open Effect Program Posix

/-! ### The file a call is about -/

/-- The path that a call is made with. -/
def HostOp.target : HostOp → Option Path
  | .readBytes p | .pathExists p | .mkdirParents p | .readText p | .writeText p _ | .chmod p _ =>
    some p
  | .utcnow | .obtain | .runScript _ => none

section Host

variable {env : HostEnv} {o : HostOp} {w w' : Host}

/-- What a call answers, and what it makes of its file, depends on this file and the umask. -/
theorem host_congr (env : HostEnv) (hfiles : ∀ p, o.target = some p → w.files p = w'.files p)
    (humask : w.umask = w'.umask) :
    (host env o w).1 = (host env o w').1 ∧
      ∀ p, o.target = some p → (host env o w).2.files p = (host env o w').2.files p := by
  have hread : ∀ p, w.files p = w'.files p → w.read p = w'.read p := fun p hp =>
    Host.read_congr (by rw [Host.bytes, Host.bytes, hp])
  have hput : ∀ p b, w.files p = w'.files p → (w.put p b).files p = (w'.put p b).files p :=
    fun p b hp => by simp only [Host.put, Function.update_self, hp, humask]
  cases o with
  | readBytes p =>
    have hp := hfiles p rfl
    refine ⟨by rw [host, host, hread p hp], fun q hq => ?_⟩
    cases hq
    exact hp
  | pathExists p =>
    have hp := hfiles p rfl
    refine ⟨by rw [host, host, Host.bytes, Host.bytes, hp], fun q hq => ?_⟩
    cases hq
    exact hp
  | mkdirParents p => exact ⟨rfl, hfiles⟩
  | readText p =>
    have hp := hfiles p rfl
    refine ⟨by rw [host, host, Host.readText, Host.readText, hread p hp], fun q hq => ?_⟩
    cases hq
    exact hp
  | writeText p content =>
    have hp := hfiles p rfl
    rw [host, host]
    split
    · exact ⟨rfl, hfiles⟩
    · split
      · exact ⟨rfl, hfiles⟩
      · exact ⟨rfl, fun q hq => by cases hq; exact hput p _ hp⟩
      · split
        · exact ⟨rfl, fun q hq => by cases hq; exact hput p _ hp⟩
        · exact ⟨rfl, fun q hq => by cases hq; exact hput p _ hp⟩
  | chmod p mode =>
    have hp := hfiles p rfl
    rw [host, host, hread p hp]
    split
    · refine ⟨rfl, fun q hq => ?_⟩
      cases hq
      simp only [Host.setMode, Function.update_self, hp]
    · exact ⟨rfl, hfiles⟩
  | utcnow => exact ⟨rfl, fun p hp => by cases hp⟩
  | obtain => exact ⟨rfl, fun p hp => by cases hp⟩
  | runScript script => exact ⟨rfl, fun p hp => by cases hp⟩

/-- A call leaves every other file alone. -/
theorem host_files_of_ne {q : Path} (hq : o.target ≠ some q) :
    (host env o w).2.files q = w.files q := by
  have hne : ∀ p, o.target = some p → q ≠ p := fun p hp hqp => hq (hqp ▸ hp)
  cases o with
  | writeText p content =>
    have hp : q ≠ p := hne p rfl
    rw [host]
    split
    · rfl
    · split
      · rfl
      · exact Function.update_of_ne hp _ _
      · split <;> exact Function.update_of_ne hp _ _
  | chmod p mode =>
    have hp : q ≠ p := hne p rfl
    rw [host]
    split
    · exact Function.update_of_ne hp _ _
    · rfl
  | runScript script =>
    rw [host]
    split <;> rfl
  | _ => rfl

theorem host_umask : (host env o w).2.umask = w.umask := by
  cases o with
  | writeText p content =>
    rw [host]
    split
    · rfl
    · split
      · rfl
      · rfl
      · split <;> rfl
  | chmod p mode =>
    rw [host]
    split <;> rfl
  | runScript script =>
    rw [host]
    split <;> rfl
  | _ => rfl

/-- Launches are counted from wherever the count was. -/
theorem host_launches (hlaunches : w.launches = w'.launches) :
    (host env o w).2.launches = (host env o w').2.launches := by
  have hkeep : ∀ w : Host, (∀ script, o ≠ .runScript script) →
      (host env o w).2.launches = w.launches := by
    intro w ho
    cases o with
    | writeText p content =>
      rw [host]
      split
      · rfl
      · split
        · rfl
        · rfl
        · split <;> rfl
    | chmod p mode =>
      rw [host]
      split <;> rfl
    | runScript script => exact absurd rfl (ho script)
    | _ => rfl
  by_cases ho : ∃ script, o = .runScript script
  · obtain ⟨script, rfl⟩ := ho
    simp only [host]
    split
    · rw [Host.launches_launch, Host.launches_launch, hlaunches]
    · exact hlaunches
  · have ho' : ∀ script, o ≠ .runScript script := fun script hs => ho ⟨script, hs⟩
    rw [hkeep w ho', hkeep w' ho', hlaunches]

end Host

/-! ### Machines -/

/-- A host with its files by place. -/
structure Machine where
  /-- The regular files. -/
  files : Place → Option File
  /-- The umask of the agent. -/
  umask : ℕ
  /-- How many times a post-renewal script has been launched. -/
  launches : ℕ

namespace Machine

/-- The files at some places, and the umask. -/
def part (places : List Place) (m : Machine) : List (Option File) × ℕ :=
  (places.map m.files, m.umask)

theorem part_eq_iff {places : List Place} {m m' : Machine} :
    m.part places = m'.part places ↔
      (∀ l ∈ places, m.files l = m'.files l) ∧ m.umask = m'.umask := by
  rw [part, part, Prod.mk.injEq, List.map_inj_left]

/-- The bytes of a file, if it is there. -/
def bytes (m : Machine) (l : Place) : Option Bytes := (m.files l).map File.content

end Machine

namespace Node

variable (node : Node)

/-- What paths see of a machine. -/
def view (m : Machine) : Host := ⟨fun p => m.files (node.place p), m.umask, m.launches⟩

/-- A machine on which a call has left `w`, as far as its path sees. -/
def absorb (m : Machine) (target : Option Path) (w : Host) : Machine where
  files := match target with
    | some p => Function.update m.files (node.place p) (w.files p)
    | none => m.files
  umask := m.umask
  launches := w.launches

/-- The calls of a run on a machine. -/
def machine (env : HostEnv) : Handler Exc hostSig Machine := fun o m =>
  ((host env o (node.view m)).1, node.absorb m o.target (host env o (node.view m)).2)

variable {node} {env : HostEnv} {o : HostOp} {m m' : Machine} {l : Place}

theorem files_machine_of_ne (hl : ∀ p, o.target = some p → node.place p ≠ l) :
    (node.machine env o m).2.files l = m.files l := by
  cases ho : o.target with
  | none => simp only [machine, absorb, ho]
  | some p =>
    simp only [machine, absorb, ho]
    exact Function.update_of_ne (hl p ho).symm _ _

theorem files_machine_self {p : Path} (hp : o.target = some p) :
    (node.machine env o m).2.files (node.place p) = (host env o (node.view m)).2.files p := by
  simp only [machine, absorb, hp, Function.update_self]

/-- The calls about files at these places. -/
def At (node : Node) (places : List Place) (o : HostOp) : Prop :=
  ∀ p, o.target = some p → node.place p ∈ places

/-- Such calls see these files and the umask, and no more. -/
theorem local_machine (places : List Place) :
    Local (node.machine env) (node.At places) (Machine.part places) := by
  intro o m m' ho hpart
  obtain ⟨hfiles, humask⟩ := Machine.part_eq_iff.mp hpart
  have hsame : ∀ p, o.target = some p → (node.view m).files p = (node.view m').files p :=
    fun p hp => hfiles _ (ho p hp)
  have hcongr := host_congr env hsame humask
  refine ⟨hcongr.1, Machine.part_eq_iff.mpr ⟨fun l hl => ?_, humask⟩⟩
  by_cases htarget : ∃ p, o.target = some p ∧ node.place p = l
  · obtain ⟨p, hp, rfl⟩ := htarget
    rw [files_machine_self hp, files_machine_self hp, hcongr.2 p hp]
  · have hne : ∀ p, o.target = some p → node.place p ≠ l := fun p hp hpl => htarget ⟨p, hp, hpl⟩
    rw [files_machine_of_ne hne, files_machine_of_ne hne, hfiles l hl]

/-- And they leave the files at other places alone. -/
theorem spares_machine {places places' : List Place} (hdisjoint : places.Disjoint places') :
    Spares (node.machine env) (node.At places') (Machine.part places) := by
  intro o m ho
  refine Machine.part_eq_iff.mpr ⟨fun l hl => files_machine_of_ne fun p hp hpl => ?_, rfl⟩
  exact hdisjoint hl (hpl ▸ ho p hp)

end Node

/-! ### One flow -/

/-- The calls about the certificate and the key of a flow, or about no file. -/
def FlowRunner.Touches (self : FlowRunner) (o : HostOp) : Prop :=
  ∀ p, o.target = some p → self.certPath = .ok p ∨ self.keyPath = .ok p

namespace FlowRunner

variable {self : FlowRunner} {A : (o : HostOp) → Except Exc o.Ans → Prop} {p q : Path}

theorem touches_of_target_eq_none {o : HostOp} (h : o.target = none) : self.Touches o :=
  fun p hp => by rw [h] at hp; cases hp

theorem touches_cert {o : HostOp} (h : o.target = some p) (hp : self.certPath = .ok p) :
    self.Touches o := fun r hr => by
  rw [h] at hr
  cases hr
  exact .inl hp

theorem touches_key {o : HostOp} (h : o.target = some q) (hq : self.keyPath = .ok q) :
    self.Touches o := fun r hr => by
  rw [h] at hr
  cases hr
  exact .inr hq

theorem uses_touches_upToDate : self.upToDate.Uses A self.Touches := by
  refine uses_ofExcept_bind fun p hp => uses_ofExcept_bind fun q hq => Uses.bind ?_ fun found => ?_
  · refine Uses.tryCatch ?_ fun e => by split <;> trivial
    refine (uses_sys (touches_cert rfl hp)).bind fun b => ?_
    refine (uses_sys (touches_key rfl hq)).bind fun there => ?_
    split
    · trivial
    · exact (uses_ofExcept _).bind fun certs => (uses_ofExcept _).bind fun leaf => trivial
  · cases found with
    | none => trivial
    | some leaf =>
      refine (uses_ofExcept _).bind fun sans => (uses_ofExcept _).bind fun expected => ?_
      split
      · trivial
      · refine (uses_sys (touches_of_target_eq_none rfl)).bind fun now => ?_
        refine (uses_ofExcept _).bind fun near => ?_
        split <;> trivial

theorem uses_touches_issue (c k : Text) : (self.issue c k).Uses A self.Touches := by
  have hwrite : (self.write c (some k)).Uses A self.Touches := by
    rw [write]
    split
    · trivial
    · refine uses_ofExcept_bind fun p hp => ?_
      refine (uses_writeIfChanged (touches_cert rfl hp) (touches_cert rfl hp)
        (touches_cert rfl hp) (touches_cert rfl hp)).bind fun changed => ?_
      refine uses_ofExcept_bind fun q hq => ?_
      exact (uses_writeIfChanged (touches_key rfl hq) (touches_key rfl hq)
        (touches_key rfl hq) (touches_key rfl hq)).bind fun rekeyed => trivial
  have hhook : self.runPostRenewal.Uses A self.Touches := by
    refine Uses.tryCatch ?_ fun e => by split <;> trivial
    exact (uses_sys (touches_of_target_eq_none rfl)).bind fun done => trivial
  refine hwrite.bind fun changed => ?_
  refine uses_ofExcept_bind fun leaf _ => ?_
  split
  · exact hhook.bind fun _ => uses_ofExcept _
  · exact uses_ofExcept _

/-- **A run touches the two files of its flow.** -/
theorem uses_touches_run : self.run.Uses A self.Touches := by
  refine uses_touches_upToDate.bind fun found => ?_
  cases found with
  | some current => exact uses_ofExcept _
  | none =>
    exact (uses_sys (touches_of_target_eq_none rfl)).bind fun pair => uses_touches_issue _ _

end FlowRunner

namespace Node

variable {node : Node} {flow : FlowConfig} {env : HostEnv} {m : Machine} {p q : Path}

theorem place_mem_files_of_certPath (hp : (node.runner flow).certPath = .ok p) :
    node.place p ∈ node.files flow := by
  simp [files, certFile, hp, Except.toOption]

theorem place_mem_files_of_keyPath (hq : (node.runner flow).keyPath = .ok q) :
    node.place q ∈ node.files flow := by
  simp [files, keyFile, hq, Except.toOption]

/-- The certificate and the key of a flow lie at two places. -/
theorem place_ne_place (hp : (node.runner flow).certPath = .ok p)
    (hq : (node.runner flow).keyPath = .ok q) : node.place p ≠ node.place q := by
  have h : (node.files flow).Nodup := nodup_files node flow
  simp only [files, certFile, keyFile, hp, hq, Except.toOption, Option.map_some, Option.toList_some,
    List.cons_append, List.nil_append, List.nodup_cons, List.mem_singleton] at h
  exact h.1

theorem Touches.at_files {o : HostOp} (ho : (node.runner flow).Touches o) :
    node.At (node.files flow) o := fun p hp =>
  (ho p hp).elim place_mem_files_of_certPath place_mem_files_of_keyPath

theorem uses_at_run {A : (o : HostOp) → Except Exc o.Ans → Prop} :
    (node.runner flow).run.Uses A (node.At (node.files flow)) :=
  FlowRunner.uses_touches_run.mono (fun _ _ h => h) fun _ => Touches.at_files

/-- A host and a machine that agree on the two files of a flow. -/
structure Agrees (node : Node) (flow : FlowConfig) (w : Host) (m : Machine) : Prop where
  cert : ∀ p, (node.runner flow).certPath = .ok p → w.files p = m.files (node.place p)
  key : ∀ q, (node.runner flow).keyPath = .ok q → w.files q = m.files (node.place q)
  umask : w.umask = m.umask
  launches : w.launches = m.launches

theorem agrees_view (flow : FlowConfig) (m : Machine) : node.Agrees flow (node.view m) m :=
  ⟨fun _ _ => rfl, fun _ _ => rfl, rfl, rfl⟩

/-- A call about one of the two files keeps the agreement: the other file is another one, by path and
by place. -/
theorem Agrees.step {w : Host} (h : node.Agrees flow w m) {o : HostOp}
    (ho : (node.runner flow).Touches o) :
    (host env o w).1 = (node.machine env o m).1 ∧
      node.Agrees flow (host env o w).2 (node.machine env o m).2 := by
  have hfile : ∀ p, o.target = some p → w.files p = (node.view m).files p := fun p hp =>
    (ho p hp).elim (h.cert p) (h.key p)
  have hcongr := host_congr env hfile h.umask
  have hsame : ∀ p, o.target = some p →
      (host env o w).2.files p = (node.machine env o m).2.files (node.place p) := fun p hp =>
    (hcongr.2 p hp).trans (files_machine_self hp).symm
  have hother : ∀ r r', o.target ≠ some r → (∀ p, o.target = some p → node.place p ≠ r') →
      w.files r = m.files r' →
      (host env o w).2.files r = (node.machine env o m).2.files r' := by
    intro r r' hr hr' hfiles
    rw [host_files_of_ne hr, files_machine_of_ne hr', hfiles]
  refine ⟨hcongr.1, ⟨fun p hp => ?_, fun q hq => ?_, host_umask.trans h.umask,
    host_launches h.launches⟩⟩
  · by_cases htarget : o.target = some p
    · exact hsame p htarget
    · refine hother p _ htarget (fun r hr hrp => ?_) (h.cert p hp)
      rcases ho r hr with hcert | hkey
      · exact htarget (by rw [hr, Except.ok.inj (hcert.symm.trans hp)])
      · exact place_ne_place hp hkey hrp.symm
  · by_cases htarget : o.target = some q
    · exact hsame q htarget
    · refine hother q _ htarget (fun r hr hrq => ?_) (h.key q hq)
      rcases ho r hr with hcert | hkey
      · exact place_ne_place hcert hq hrq
      · exact htarget (by rw [hr, Except.ok.inj (hkey.symm.trans hq)])

/-- **A flow on a machine is the flow on a host.** It ends in the same way, and leaves the same in its
two files. -/
theorem run_machine (node : Node) (flow : FlowConfig) (env : HostEnv) (m : Machine) :
    (eval (host env) (node.runner flow).run (node.view m)).1 =
        (eval (node.machine env) (node.runner flow).run m).1 ∧
      node.Agrees flow (eval (host env) (node.runner flow).run (node.view m)).2
        (eval (node.machine env) (node.runner flow).run m).2 :=
  ((FlowRunner.uses_touches_run (A := fun _ _ => True)).inStep
    (fun _ _ _ ho hagrees => ⟨trivial, hagrees.step ho⟩) (agrees_view flow m)).eval

end Node

end NextepAgent
