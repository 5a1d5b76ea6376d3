import NextepAgent.Issue
import Mathlib.Algebra.Order.Ring.Cast
import Mathlib.Algebra.Order.Field.Rat
import Mathlib.Tactic.Linarith

/-!
# One issuance is enough

Running a flow again should do nothing. The gate decides that by comparing what it finds on disk with
what is configured, and the issue path decides what gets on disk. Where the two disagree, every run
issues: a name the CA writes in lower case or puts in an IP entry, a file that cannot be read as
text, a path that cannot be written, a flow without a name.

Where they agree, the first issuance *settles* the flow. From then on the gate keeps the certificate
at every run, and a run makes no call that changes anything.

## Main definitions

* `issuedName`, `Certificate.Carries`, `MoreThanDays` — a CA that does as it is told
* `FlowRunner.Issuable` — what the issue path and the gate agree on
* `FlowRunner.Settled` — the gate keeps the certificate at every run

## Main results

* `FlowRunner.settled_of_issue` — an issuance settles the flow
* `FlowRunner.obtained_at_most_once`
-/

namespace NextepAgent

open Effect Program

/-! ### What the CA returns -/

/-- A name in lower case. -/
def lower (name : String) : String := String.ofList (name.toList.map Char.toLower)

/-- What the CA makes of a configured name, when `isIp` says which names are IP addresses. -/
def issuedName (isIp : String → Bool) (name : String) : GeneralName :=
  if isIp name then .ip name else .dns (lower name)

/-- The certificate carries the configured names, and no others. -/
def Certificate.Carries (leaf : Certificate) (isIp : String → Bool) (names : List String) : Prop :=
  ∃ ext, leaf.san = .ok ext ∧ ∀ g, g ∈ ext.getD [] ↔ ∃ n ∈ names, g = issuedName isIp n

/-- More than `v + 1` days. -/
def MoreThanDays (span : ℤ) (v : Json) : Prop :=
  match v.number? with
  | some (.finite q) => (q + 1) * (day : ℚ) < span
  | some .negInf => True
  | _ => False

/-- Names that are issued as they are configured. -/
def IssuedVerbatim (isIp : String → Bool) (names : List String) : Prop :=
  ∀ n ∈ names, isIp n = false ∧ lower n = n

/-- Rounding down costs less than a day. -/
theorem isLe_of_moreThanDays {span : ℤ} {v : Json} (h : MoreThanDays span v) :
    v.isLe (days span) = .ok false := by
  rw [MoreThanDays] at h
  rw [Json.isLe]
  cases hv : v.number? with
  | none => simp [hv] at h
  | some x =>
    cases x with
    | finite q =>
      rw [hv] at h
      have hfloor : span < (days span + 1) * day := Int.lt_ediv_add_one_mul_self span (by decide)
      have hfloor' : (span : ℚ) < (days span + 1) * (day : ℚ) := by exact_mod_cast hfloor
      have hday : (0 : ℚ) < (day : ℚ) := by exact_mod_cast (by decide : (0 : ℤ) < day)
      have hlt : q + 1 < (days span : ℚ) + 1 :=
        lt_of_mul_lt_mul_right (h.trans hfloor') hday.le
      have hq : ¬ (days span : ℚ) ≤ q := by linarith
      simp [PyFloat.isLe, hq]
    | inf => simp [hv] at h
    | negInf => simp [PyFloat.isLe]
    | nan => simp [hv] at h

theorem mem_dnsNames {s : String} {names : List GeneralName} : s ∈ dnsNames names ↔ .dns s ∈ names := by
  simp only [dnsNames, List.mem_filterMap]
  constructor
  · rintro ⟨g, hg, hs⟩
    cases g with
    | dns t => cases hs; exact hg
    | ip t => cases hs
    | other => cases hs
  · exact fun h => ⟨.dns s, h, rfl⟩

/-- The gate recognises a certificate that carries names that are issued verbatim. -/
theorem sameNames_of_carries {leaf : Certificate} {isIp : String → Bool} {names : List String}
    (h : leaf.Carries isIp names) (hverbatim : IssuedVerbatim isIp names) :
    ∃ sans, sansOf leaf = .ok sans ∧ sameNames sans (names.map .str) = true := by
  obtain ⟨ext, hsan, hnames⟩ := h
  have hissued : ∀ n ∈ names, issuedName isIp n = .dns n := by
    intro n hn
    rw [issuedName, (hverbatim n hn).1, (hverbatim n hn).2]
    rfl
  have hmem : ∀ s, s ∈ dnsNames (ext.getD []) ↔ s ∈ names := by
    intro s
    rw [mem_dnsNames, hnames]
    constructor
    · rintro ⟨n, hn, hs⟩
      rw [hissued n hn] at hs
      cases hs
      exact hn
    · exact fun hs => ⟨s, hs, (hissued s hs).symm⟩
  refine ⟨dnsNames (ext.getD []), by rw [sansOf, hsan]; rfl, ?_⟩
  rw [sameNames, Bool.and_eq_true, List.all_eq_true, List.all_eq_true]
  constructor
  · intro v hv
    obtain ⟨n, hn, rfl⟩ := List.mem_map.mp hv
    exact List.any_eq_true.mpr ⟨n, (hmem n).mpr hn, by simp⟩
  · intro s hs
    exact List.contains_iff_mem.mpr (List.mem_map_of_mem ((hmem s).mp hs))

namespace FlowRunner

variable {self : FlowRunner} {env : HostEnv} {w : Host} {isIp : String → Bool}
  {names : List String} {hist : List HostEnv}

/-! ### Runs one after the other -/

/-- The configured names are a list of strings. -/
def Configured (self : FlowRunner) (names : List String) : Prop :=
  match self.flow.type, self.flow.config with
  | .internal, .internal c => c.permittedSans = .arr (names.map .str)
  | .external, .external c => c.domains = .arr (names.map .str)
  | _, _ => False

/-- The file system works. -/
structure Working (env : HostEnv) : Prop where
  readBytes : ∀ p, env.readBytes p = none
  pathExists : ∀ p, env.pathExists p = none
  mkdirParents : ∀ p, env.mkdirParents p = none
  readText : ∀ p, env.readText p = none
  writeText : ∀ p, env.writeText p = .works
  chmod : ∀ p, env.chmod p = none

/-- Whenever it is asked, the CA returns a certificate that carries the configured names and is good
for every run of `hist`. -/
def GoodCa (self : FlowRunner) (isIp : String → Bool) (names : List String)
    (hist : List HostEnv) : Prop :=
  ∀ env ∈ hist, ∃ c k leaf, env.obtain = .ok (c, k) ∧ self.leafCert c = .ok leaf ∧
    leaf.Carries isIp names ∧
    ∀ env' ∈ hist, MoreThanDays (leaf.notValidAfter - env'.utcnow) (self.threshold leaf)

/-- What the issue path and the gate agree on: the flow has a name and paths that exist for the
system, the configured names are issued verbatim, and the certificate file is absent or is text, and
not the obtained text with other line ends. -/
structure Issuable (fr : FlowRunner) (isIp : String → Bool) (names : List String) (env : HostEnv)
    (w : Host) : Prop where
  name : fr.flow.name.truthy = true
  verbatim : IssuedVerbatim isIp names
  certNull : ∀ p, fr.certPath = .ok p → p.hasNull = false
  keyNull : ∀ q, fr.keyPath = .ok q → q.hasNull = false
  readable : ∀ p c k, fr.certPath = .ok p → env.obtain = .ok (c, k) →
    w.bytes p = none ∨ ∃ old, w.readText p = .ok old ∧ (old = c → w.bytes p = (encode c).toOption)

/-- The host after several runs. -/
def runAll (self : FlowRunner) (w : Host) (hist : List HostEnv) : Host :=
  hist.foldl (fun w env => (eval (host env) self.run w).2) w

/-- The calls they make. -/
def calls (self : FlowRunner) : Host → List HostEnv → List HostOp
  | _, [] => []
  | w, env :: hist => trace (host env) self.run w ++ self.calls (eval (host env) self.run w).2 hist

/-! ### A settled flow -/

/-- The gate keeps the certificate on disk at every run of `hist`. -/
def Settled (self : FlowRunner) (hist : List HostEnv) (w : Host) : Prop :=
  ∃ leaf, ∀ env ∈ hist, self.gate env w = .ok (some leaf)

theorem toSet_strings (names : List String) :
    (Json.arr (names.map .str)).toSet = .ok (names.map .str) := by
  rw [Json.toSet, if_pos]
  rw [List.all_eq_true]
  intro v hv
  obtain ⟨n, -, rfl⟩ := List.mem_map.mp hv
  rfl

theorem expectedSans_of_configured (h : self.Configured names) :
    self.expectedSans = .ok (names.map .str) := by
  rw [Configured] at h
  rw [expectedSans]
  generalize self.flow.type = type, self.flow.config = config at h ⊢
  match type, config, h with
  | .internal, .internal c, h =>
    have hsans : c.permittedSans = .arr (names.map .str) := h
    exact (congrArg Json.toSet hsans).trans (toSet_strings names)
  | .external, .external c, h =>
    have hsans : c.domains = .arr (names.map .str) := h
    exact (congrArg Json.toSet hsans).trans (toSet_strings names)
  | .internal, .external _, h => exact h.elim
  | .external, .internal _, h => exact h.elim

/-- On a file system that works, a path that exists for the system can be prepared. -/
theorem Working.mkdir (hw : Working env) {p : Path} (hnull : p.hasNull = false) :
    (host env (.mkdirParents p) w).1 = .ok () := by
  simp [host, hw.mkdirParents, hnull]

/-- A file that is not there is written. -/
theorem Working.writeEnd_of_absent (hw : Working env) {p : Path} (hnull : p.hasNull = false)
    (habsent : w.bytes p = none) (t : Text) : writeEnd env w p t = overwriteEnd env p t := by
  have hread : (host env (.readText p) w).1 =
      .error ⟨.fileNotFoundError, "No such file or directory"⟩ := by
    simp only [host, hw.readText, faulty_none, Host.readText_of_absent hnull habsent]
  rw [writeEnd, hw.mkdir hnull, eval_readsAs, hread]
  rfl

/-- A file that is there and can be read is kept or written. -/
theorem Working.writeEnd_of_readText (hw : Working env) {p : Path} (hnull : p.hasNull = false)
    {old : Text} (hold : w.readText p = .ok old) (t : Text) :
    writeEnd env w p t = if old = t then .kept else overwriteEnd env p t := by
  have hread : ((host env (.readText p) w).1 : Except Exc Text) = .ok old := by
    simp [host, hw.readText, hold]
  rw [writeEnd, hw.mkdir hnull, eval_readsAs, hread]
  by_cases hsame : old = t
  · simp [hsame]
  · simp [hsame, beq_eq_false_iff_ne.mpr hsame]

/-- Text that can be encoded is written in full. -/
theorem Working.overwriteEnd (hw : Working env) {t : Text} {b : Bytes} (henc : encode t = .ok b)
    (p : Path) : overwriteEnd env p t = .done b := by
  simp [NextepAgent.overwriteEnd, hw.writeText, hw.chmod, henc]

/-- Whatever becomes of a write, the file is there afterwards. -/
theorem Working.isSome_left_or (hw : Working env) {p : Path} (hnull : p.hasNull = false) (t : Text) :
    ((writeEnd env w p t).left.or (w.bytes p)).isSome := by
  cases hbytes : w.bytes p with
  | some b => cases (writeEnd env w p t).left <;> rfl
  | none =>
    rw [hw.writeEnd_of_absent hnull hbytes, NextepAgent.overwriteEnd, hw.writeText]
    cases encode t with
    | error e => rfl
    | ok b => simp [hw.chmod, WriteEnd.left]

/-- The certificate write of an issuable flow gets through, and leaves the issued text. -/
theorem Issuable.certEnd (h : self.Issuable isIp names env w) (hw : Working env) {p : Path}
    {c k : Text} {b : Bytes} (hp : self.certPath = .ok p) (hobtain : env.obtain = .ok (c, k))
    (henc : encode c = .ok b) :
    (∃ changed, (writeEnd env w p c).result = .ok changed) ∧
      (writeEnd env w p c).left.or (w.bytes p) = some b := by
  have hnull := h.certNull p hp
  rcases h.readable p c k hp hobtain with habsent | ⟨old, hold, hsame⟩
  · rw [hw.writeEnd_of_absent hnull habsent, hw.overwriteEnd henc]
    exact ⟨⟨true, rfl⟩, rfl⟩
  · rw [hw.writeEnd_of_readText hnull hold]
    by_cases hc : old = c
    · rw [if_pos hc, hsame hc, henc]
      exact ⟨⟨false, rfl⟩, rfl⟩
    · rw [if_neg hc, hw.overwriteEnd henc]
      exact ⟨⟨true, rfl⟩, rfl⟩

/-- **An issuance settles the flow**, whether or not the run that makes it returns. -/
theorem settled_of_issue (hconf : self.Configured names) (hwork : ∀ env ∈ hist, Working env)
    (hca : self.GoodCa isIp names hist) (henv : env ∈ hist) (hgate : self.gate env w = .ok none)
    (h : self.Issuable isIp names env w) :
    self.Settled hist (eval (host env) self.run w).2 := by
  have hw := hwork env henv
  obtain ⟨p, q, hp, hq⟩ := paths_of_gate hgate
  obtain ⟨c, k, leaf, hobtain, hparsed, hcarries, hdays⟩ := hca env henv
  obtain ⟨b, rest, henc, hload⟩ := leafCert_eq_ok hparsed
  obtain ⟨⟨changed, hcert⟩, hb⟩ := h.certEnd hw hp hobtain henc
  rw [eval_host_run, hgate]
  simp only [hobtain]
  have hbytes := bytes_issue (c := c) (k := k) h.name hp hq hcert
  have hne := certPath_ne_keyPath hp hq
  refine ⟨leaf, fun env' henv' => ?_⟩
  have hw' := hwork env' henv'
  refine gate_of_kept hp hq (hw'.readBytes p) (hw'.pathExists q) (h.certNull p hp)
    (h.keyNull q hq) ?_
  refine {
    onDisk := onDisk_eq_some_iff.mpr ⟨b, rest, ?_, hload⟩
    key := ?_
    names := ?_
    margin := isLe_of_moreThanDays (hdays env' henv') }
  · rw [certBytes_of_certPath hp, hbytes, WriteEnd.bytes_apply_of_ne _ _ _ hne,
      WriteEnd.bytes_apply_self, hb]
  · rw [keyBytes_of_keyPath hq, hbytes, WriteEnd.bytes_apply_self,
      WriteEnd.bytes_apply_of_ne _ _ _ hne.symm]
    exact hw.isSome_left_or (h.keyNull q hq) k
  · obtain ⟨sans, hsans, hsame⟩ := sameNames_of_carries hcarries h.verbatim
    exact ⟨sans, _, hsans, expectedSans_of_configured hconf, hsame⟩

/-- A run of a settled flow. -/
theorem Settled.run (h : self.Settled hist w) (henv : env ∈ hist) :
    ∃ r, eval (host env) self.run w = (.ok r, w) ∧ r.changed = false := by
  obtain ⟨leaf, hgate⟩ := h
  obtain ⟨sans, expected, hsans, -⟩ := (kept_of_gate (hgate env henv)).names
  rw [eval_host_run, hgate env henv]
  simp only [issueResult, hsans]
  exact ⟨_, rfl, rfl⟩

/-! ### The calls of a run -/

/-- The gate makes no issuance. -/
theorem readOnly_of_mem_trace_upToDate {o : HostOp}
    (ho : o ∈ (trace (host env) self.upToDate w : List HostOp)) : o.readOnly :=
  self.uses_upToDate.mem_trace (fun _ _ => trivial) o ho

/-- A run that does not issue only looks. -/
theorem trace_run_of_not_none (h : self.gate env w ≠ .ok none) :
    trace (host env) self.run w = trace (host env) self.upToDate w := by
  rw [FlowRunner.run, trace_bind, eval_upToDate]
  cases hgate : self.gate env w with
  | error e => simp
  | ok found =>
    cases found with
    | some leaf => simp
    | none => exact absurd hgate h

/-- A run that issues asks the CA once. -/
theorem count_trace_run_of_none (h : self.gate env w = .ok none) :
    (trace (host env) self.run w : List HostOp).count .obtain = 1 := by
  have hgate : (trace (host env) self.upToDate w : List HostOp).count .obtain = 0 :=
    List.count_eq_zero.mpr fun hmem => readOnly_of_mem_trace_upToDate hmem
  have hissue : ∀ c k, (trace (host env) (self.issue c k) w : List HostOp).count .obtain = 0 :=
    fun c k => List.count_eq_zero.mpr fun hmem =>
      (self.uses_issue (A := fun _ _ => True) c k).mem_trace (fun _ _ => trivial) _ hmem
  rw [FlowRunner.run, trace_bind, eval_upToDate, h]
  simp only [List.count_append, hgate]
  rw [trace_bind, trace_sys, eval_sys]
  cases hobtain : env.obtain with
  | error e => simp [host, hobtain]
  | ok pair => simp [host, hobtain, hissue]

theorem obtain_mem_trace_run_iff :
    HostOp.obtain ∈ (trace (host env) self.run w : List HostOp) ↔ self.gate env w = .ok none := by
  constructor
  · intro hmem
    by_contra hgate
    rw [trace_run_of_not_none hgate] at hmem
    exact readOnly_of_mem_trace_upToDate hmem
  · intro hgate
    refine List.count_pos_iff.mp ?_
    rw [count_trace_run_of_none hgate]
    exact Nat.one_pos

/-- A settled flow asks the CA for nothing. -/
theorem Settled.count_calls {all : List HostEnv} (h : self.Settled all w) (hsub : hist ⊆ all) :
    (self.calls w hist).count .obtain = 0 := by
  induction hist with
  | nil => rfl
  | cons env hist ih =>
    obtain ⟨henv, hsub⟩ := List.cons_subset.mp hsub
    obtain ⟨r, hr, -⟩ := h.run henv
    have hgate : self.gate env w ≠ .ok none := by
      obtain ⟨leaf, hleaf⟩ := h
      rw [hleaf env henv]
      simp
    have hcount : (trace (host env) self.run w : List HostOp).count .obtain = 0 :=
      List.count_eq_zero.mpr fun hmem => hgate (obtain_mem_trace_run_iff.mp hmem)
    rw [calls, hr, List.count_append, hcount, ih hsub]

/-- A settled flow stays on the host it is on. -/
theorem Settled.runAll {all : List HostEnv} (h : self.Settled all w) (hsub : hist ⊆ all) :
    self.runAll w hist = w := by
  induction hist with
  | nil => rfl
  | cons env hist ih =>
    obtain ⟨henv, hsub⟩ := List.cons_subset.mp hsub
    obtain ⟨r, hr, -⟩ := h.run henv
    rw [FlowRunner.runAll, List.foldl_cons, hr]
    exact ih hsub

/-- Every run either leaves the flow as it is or settles it. -/
theorem calls_of_issuable {all : List HostEnv} (w : Host) (hist : List HostEnv)
    (hconf : self.Configured names)
    (hwork : ∀ env ∈ all, Working env) (hca : self.GoodCa isIp names all) (hsub : hist ⊆ all)
    (h : ∀ hist₁ env hist₂, hist = hist₁ ++ env :: hist₂ →
      self.gate env (self.runAll w hist₁) = .ok none →
        self.Issuable isIp names env (self.runAll w hist₁)) :
    (self.calls w hist).count .obtain ≤ 1 ∧
      (.obtain ∈ self.calls w hist → self.Settled all (self.runAll w hist)) := by
  induction hist generalizing w with
  | nil => exact ⟨Nat.zero_le _, fun hmem => nomatch hmem⟩
  | cons env hist ih =>
    obtain ⟨henv, hsub⟩ := List.cons_subset.mp hsub
    rw [calls, runAll, List.foldl_cons, List.count_append]
    by_cases hgate : self.gate env w = .ok none
    · have hsettled := settled_of_issue hconf hwork hca henv hgate (h [] env hist rfl hgate)
      rw [count_trace_run_of_none hgate, hsettled.count_calls hsub]
      refine ⟨le_rfl, fun _ => ?_⟩
      have hrest := hsettled.runAll hsub
      rw [FlowRunner.runAll] at hrest
      rwa [hrest]
    · have hnone : HostOp.obtain ∉ (trace (host env) self.run w : List HostOp) :=
        fun hmem => hgate (obtain_mem_trace_run_iff.mp hmem)
      obtain ⟨hcount, hrest⟩ := ih _ hsub fun hist₁ env' hist₂ hsplit =>
        h (env :: hist₁) env' hist₂ (by rw [hsplit]; rfl)
      refine ⟨by rw [List.count_eq_zero.mpr hnone, Nat.zero_add]; exact hcount, fun hmem => ?_⟩
      rcases List.mem_append.mp hmem with hmem | hmem
      · exact absurd hmem hnone
      · exact hrest hmem

/-- **Bounded issuance.** In a history of runs on a file system that works, with a CA that does as it
is told, a flow that is issuable whenever its gate declines asks the CA at most once. Every later run
returns `changed=False`, makes no call but looks, and leaves the host as it is. -/
theorem obtained_at_most_once (self : FlowRunner) (isIp : String → Bool) (names : List String)
    (hconf : self.Configured names) (w₀ : Host) (hist : List HostEnv)
    (hwork : ∀ env ∈ hist, Working env) (hca : self.GoodCa isIp names hist)
    (h : ∀ hist₁ env hist₂, hist = hist₁ ++ env :: hist₂ →
      self.gate env (self.runAll w₀ hist₁) = .ok none →
        self.Issuable isIp names env (self.runAll w₀ hist₁)) :
    (self.calls w₀ hist).count .obtain ≤ 1 ∧
      ∀ hist₁ env hist₂, hist = hist₁ ++ env :: hist₂ → .obtain ∈ self.calls w₀ hist₁ →
        (∃ r, eval (host env) self.run (self.runAll w₀ hist₁) = (.ok r, self.runAll w₀ hist₁) ∧
          r.changed = false) ∧
        ∀ o ∈ (trace (host env) self.run (self.runAll w₀ hist₁) : List HostOp), o.readOnly := by
  refine ⟨(calls_of_issuable w₀ hist hconf hwork hca (List.Subset.refl hist) h).1, ?_⟩
  rintro hist₁ env hist₂ rfl hmem
  have henv : env ∈ hist₁ ++ env :: hist₂ := by simp
  have hsettled := (calls_of_issuable w₀ hist₁ hconf hwork hca
    (List.subset_append_left _ _) fun h₁ env' h₂ hsplit =>
      h h₁ env' (h₂ ++ env :: hist₂) (by rw [hsplit]; simp)).2 hmem
  refine ⟨hsettled.run henv, fun o ho => ?_⟩
  have hgate : self.gate env (self.runAll w₀ hist₁) ≠ .ok none := by
    obtain ⟨leaf, hleaf⟩ := hsettled
    rw [hleaf env henv]
    simp
  rw [trace_run_of_not_none hgate] at ho
  exact readOnly_of_mem_trace_upToDate ho

/-! ### Two runs of the demo flow -/

/-- A certificate for `app`, in force from the hundredth to the two hundredth day. -/
def appLeaf : Certificate := ⟨100 * day, 200 * day, .ok (some [.dns "app"])⟩

/-- A run on the hundred and fiftieth day. -/
def appRun : HostEnv := demoEnv (150 * day) (.ok (.ofString "A", .ofString "K"))

theorem working_appRun : Working appRun :=
  ⟨fun _ => rfl, fun _ => rfl, fun _ => rfl, fun _ => rfl, fun _ => rfl, fun _ => rfl⟩

/-- What the CA makes of `app`, and of `App`. -/
theorem goodCa_appRun {name : String} (hname : lower name = "app") :
    (demoRunner (demoFlow name) [("A", appLeaf)]).GoodCa (fun _ => false) [name]
      [appRun, appRun] := by
  have hdays : MoreThanDays (appLeaf.notValidAfter - appRun.utcnow)
      ((demoRunner (demoFlow name) [("A", appLeaf)]).threshold appLeaf) := by
    have ht : (demoRunner (demoFlow name) [("A", appLeaf)]).threshold appLeaf = .int 30 := by
      simp only [threshold, demoRunner, demoFlow]
      decide
    have hspan : appLeaf.notValidAfter - appRun.utcnow = 50 * day := by decide
    rw [ht, hspan]
    simp only [MoreThanDays, Json.number?, day]
    norm_num
  have hcarries : appLeaf.Carries (fun _ => false) [name] := by
    refine ⟨some [.dns "app"], rfl, fun g => ?_⟩
    simp [issuedName, hname]
  intro env henv
  have henv : env = appRun := by simpa using henv
  subst henv
  refine ⟨.ofString "A", .ofString "K", appLeaf, rfl, rfl, hcarries, fun env' henv' => ?_⟩
  have henv' : env' = appRun := by simpa using henv'
  rw [henv']
  exact hdays

theorem obtained_at_most_once_demo :
    ((demoRunner (demoFlow "app") [("A", appLeaf)]).calls noFiles [appRun, appRun]).count
      .obtain ≤ 1 := by
  refine (obtained_at_most_once (demoRunner (demoFlow "app") [("A", appLeaf)]) (fun _ => false)
    ["app"] rfl noFiles [appRun, appRun] ?_ (goodCa_appRun (by decide)) ?_).1
  · intro env henv
    have henv : env = appRun := by simpa using henv
    exact henv ▸ working_appRun
  · intro hist₁ env hist₂ hsplit hgate
    match hist₁, hsplit with
    | [], hsplit =>
      cases hsplit
      exact {
        name := by decide
        verbatim := fun n hn => by rw [List.mem_singleton.mp hn]; decide
        certNull := fun p hp => by cases (Except.ok.inj hp); decide
        keyNull := fun q hq => by cases (Except.ok.inj hq); decide
        readable := fun p c k hp hobtain => .inl (by cases (Except.ok.inj hp); rfl) }
    | [_], hsplit =>
      cases hsplit
      exact absurd hgate (by decide)
    | _ :: _ :: _, hsplit => simp at hsplit

/-- **A name with a capital.** The CA issues it in lower case, the gate does not recognise it, and
both runs ask the CA. -/
theorem obtained_twice :
    deserializeFlow (demoRaw "App") = .ok (demoFlow "App") ∧
    ¬ ∀ (self : FlowRunner) (isIp : String → Bool) (names : List String) (w₀ : Host)
      (hist : List HostEnv), self.Configured names → (∀ env ∈ hist, Working env) →
      self.GoodCa isIp names hist → (self.calls w₀ hist).count .obtain ≤ 1 := by
  refine ⟨by decide, fun h => ?_⟩
  have hcount := h (demoRunner (demoFlow "App") [("A", appLeaf)]) (fun _ => false) ["App"] noFiles
    [appRun, appRun] rfl
    (fun env henv => by
      have henv : env = appRun := by simpa using henv
      exact henv ▸ working_appRun)
    (goodCa_appRun (by decide))
  exact absurd hcount (by decide)

end FlowRunner

end NextepAgent
