import NextepAgent.Idempotence

/-!
# What a run makes of damaged files

The old files are read in three ways. The gate reads the certificate file as bytes, and parses it
inside a `try`. It then asks the certificate for its names, outside of it. And before either file is
written it is read as text, where only a missing file is caught.

So on a file system that works three things can go wrong. The certificate on disk parses, but its
extensions do not. An old file is not text. And an old file is the new text with other line ends, in
which case it stays as it is, and the run returns without having put there what was obtained. What
is obtained has to be text too, and its names have to be readable.

## Main definitions

* `FlowRunner.Ready` — a well-typed flow on a file system that works
* `FlowRunner.SelfHeals` — the run returns, and tells of what is in the files
* `Replaceable`, `FlowRunner.Recoverable` — the damage that a run recovers from

## Main results

* `FlowRunner.Ready.gate_eq` — what the gate answers on a file system that works
* `Working.writeEnd_holds_iff` — a write that leaves the new content
* `FlowRunner.self_healing_iff`
-/

namespace NextepAgent

open Effect Program

/-- An old file that is replaced by `new`, or is `new` already: it is missing, or it is text, and not
`new` with other line ends. -/
def Replaceable (old : Option Bytes) (new : Text) : Prop :=
  ∀ b, old = some b → ∃ t, decode b = .ok t ∧ (universalNewlines t = new → t = new)

namespace FlowRunner

variable {self : FlowRunner} {env : HostEnv} {w : Host} {names : List String} {c k : Text}
  {leaf : Certificate} {p q : Path}

/-! ### One file -/

/-- What is read of a file that is there. -/
theorem Working.host_readText (hw : Working env) (hnull : p.hasNull = false) {b : Bytes}
    (hb : w.bytes p = some b) :
    ((host env (.readText p) w).1 : Except Exc Text) = NextepAgent.readText b := by
  simp only [host, hw.readText, faulty_none, Host.readText_of_bytes hnull hb]

/-- `UnicodeDecodeError` is no `FileNotFoundError`. -/
theorem fileNotFoundError_of_decode {b : Bytes} {e : Exc} (he : decode b = .error e) :
    e.isA .fileNotFoundError = false := by
  rw [decode_eq_error he]
  rfl

/-- A file that is not text is not replaced. -/
theorem Working.writeEnd_of_not_text (hw : Working env) (hnull : p.hasNull = false) {b : Bytes}
    (hb : w.bytes p = some b) {e : Exc} (he : decode b = .error e) (t : Text) :
    writeEnd env w p t = .gaveUp e := by
  have hread : ((host env (.readText p) w).1 : Except Exc Text) = .error e := by
    rw [hw.host_readText hnull hb, NextepAgent.readText, he]
    rfl
  rw [writeEnd, hw.mkdir hnull, eval_readsAs, hread]
  simp [fileNotFoundError_of_decode he]

/-- A text file may be written over unless it reads as the new text without being it. -/
theorem replaceable_of_text {old : Bytes} {text t : Text} (hdecode : decode old = .ok text) :
    Replaceable (some old) t ↔ (universalNewlines text = t → text = t) := by
  constructor
  · intro h
    obtain ⟨t', ht', hsame⟩ := h old rfl
    rw [hdecode] at ht'
    cases ht'
    exact hsame
  · rintro h _ ⟨⟩
    exact ⟨text, hdecode, h⟩

/-- UTF-8 has one spelling for each text, and each text one spelling. -/
theorem bytes_eq_iff_text_eq {old b : Bytes} {text t : Text} (hdecode : decode old = .ok text)
    (henc : encode t = .ok b) : old = b ↔ text = t := by
  constructor
  · rintro rfl
    have htext := decode_encode henc
    rw [hdecode] at htext
    exact Except.ok.inj htext
  · rintro rfl
    have hbytes := encode_decode hdecode
    rw [henc] at hbytes
    exact (Except.ok.inj hbytes).symm

/-- **A write that leaves the new content** in its file, and returns. -/
theorem Working.writeEnd_holds_iff (hw : Working env) (hnull : p.hasNull = false) {t : Text}
    {b : Bytes} (henc : encode t = .ok b) :
    (∃ changed, (writeEnd env w p t).result = .ok changed) ∧
        (writeEnd env w p t).left.or (w.bytes p) = some b ↔
      Replaceable (w.bytes p) t := by
  cases hbytes : w.bytes p with
  | none =>
    rw [hw.writeEnd_of_absent hnull hbytes, hw.overwriteEnd henc]
    exact iff_of_true ⟨⟨true, rfl⟩, rfl⟩ fun old hold => by cases hold
  | some old =>
    cases hdecode : decode old with
    | error e =>
      rw [hw.writeEnd_of_not_text hnull hbytes hdecode]
      refine iff_of_false (fun h => ?_) fun h => ?_
      · obtain ⟨changed, hchanged⟩ := h.1
        cases hchanged
      · obtain ⟨t', ht', -⟩ := h old rfl
        rw [hdecode] at ht'
        cases ht'
    | ok text =>
      rw [replaceable_of_text hdecode,
        hw.writeEnd_of_readText hnull (Host.readText_of_text hnull hbytes hdecode)]
      by_cases hsame : universalNewlines text = t
      · rw [if_pos hsame]
        have hkept : some old = some b ↔ text = t := by
          rw [Option.some.injEq]
          exact bytes_eq_iff_text_eq hdecode henc
        exact ⟨fun h _ => hkept.mp h.2, fun h => ⟨⟨false, rfl⟩, hkept.mpr (h hsame)⟩⟩
      · rw [if_neg hsame, hw.overwriteEnd henc]
        exact iff_of_true ⟨⟨true, rfl⟩, rfl⟩ fun h => absurd h hsame

/-! ### A well-typed flow on a file system that works -/

/-- A well-typed flow with a name and without a script, on a file system that works, for which the
CA returns `c` and `k`, and `leaf` is the first certificate in `c`. What cannot be parsed raises a
`ValueError`. -/
structure Ready (fr : FlowRunner) (names : List String) (env : HostEnv) (c k : Text)
    (leaf : Certificate) : Prop where
  name : fr.flow.name.truthy = true
  certPath : ∃ p, fr.certPath = .ok p ∧ p.hasNull = false
  keyPath : ∃ q, fr.keyPath = .ok q ∧ q.hasNull = false
  configured : fr.Configured names
  renewBeforeDays : fr.flow.renewBeforeDays = .null ∨ ∃ n, fr.flow.renewBeforeDays = .int n
  noScript : fr.flow.postRenewalScript.truthy = false
  works : Working env
  obtained : env.obtain = .ok (c, k)
  parsed : fr.leafCert c = .ok leaf
  parser : ∀ b e, fr.loadPem b = .error e → e.isA .valueError = true

/-- The certificate that the gate finds: the one on disk, if there is a key file beside it. -/
def found (self : FlowRunner) (w : Host) : Option Certificate :=
  if (self.keyBytes w).isSome then self.onDisk w else none

/-- The threshold is a number. -/
theorem threshold_int
    (h : self.flow.renewBeforeDays = .null ∨ ∃ n, self.flow.renewBeforeDays = .int n)
    (leaf : Certificate) : ∃ n, self.threshold leaf = .int n := by
  rw [threshold]
  rcases h with h | ⟨n, h⟩
  · exact ⟨_, by rw [h]⟩
  · exact ⟨n, by rw [h]⟩

/-- The `try` block of the gate answers. -/
theorem eval_deployed (hw : Working env) (hp : self.certPath = .ok p) (hq : self.keyPath = .ok q)
    (hpNull : p.hasNull = false) (hqNull : q.hasNull = false)
    (hparser : ∀ b e, self.loadPem b = .error e → e.isA .valueError = true) :
    eval (host env) (self.deployed p q) w = (.ok (self.found w), w) := by
  have hhandler : ∀ e : Exc, e.isA .fileNotFoundError = true ∨ e.isA .valueError = true ∨
      e.isA .indexError = true → eval (host env)
        (if e.isA .fileNotFoundError || e.isA .valueError || e.isA .indexError then return none
          else raise e : Runner (Option Certificate)) w = (.ok none, w) := by
    intro e he
    rw [if_pos (by simpa [or_assoc] using he)]
    rfl
  rw [deployed, eval_tryCatch, found, onDisk, certBytes_of_certPath hp, keyBytes_of_keyPath hq]
  cases hb : w.bytes p with
  | none =>
    have hread : host env (.readBytes p) w =
        (.error ⟨.fileNotFoundError, "No such file or directory"⟩, w) := by
      simp [host, hw.readBytes, Host.read, hpNull, hb]
    rw [eval_bind, eval_sys, hread]
    refine (hhandler _ (.inl rfl)).trans ?_
    simp
  | some b =>
    have hread : (host env (.readBytes p) w).1 = .ok b := by
      simp [host, hw.readBytes, Host.read, hpNull, hb]
    have hexists : (host env (.pathExists q) w).1 = .ok (w.bytes q).isSome := by
      simp [host, hw.pathExists, hqNull]
    rw [eval_look_of_ok hread trivial, eval_look_of_ok hexists trivial]
    cases (w.bytes q).isSome with
    | false => rfl
    | true =>
      simp only [Bool.not_true, Bool.false_eq_true, if_false, if_true, Option.bind_some]
      cases hload : self.loadPem b with
      | error e => exact hhandler e (.inr (.inl (hparser b e hload)))
      | ok certs =>
        cases certs with
        | nil => exact hhandler _ (.inr (.inr rfl))
        | cons old rest => rfl

/-- **What the gate answers**: nothing, if it finds nothing, and otherwise what it makes of what it
finds. -/
theorem Ready.gate_eq (h : self.Ready names env c k leaf) (w : Host) :
    self.gate env w =
      match self.found w with
      | none => .ok none
      | some old => (eval (host env) (self.adequate old) w).1 := by
  obtain ⟨p, hp, hpNull⟩ := h.certPath
  obtain ⟨q, hq, hqNull⟩ := h.keyPath
  rw [gate, upToDate, hp, hq]
  simp only [ofExcept_ok, ret_bind]
  rw [eval_bind_of_ok (eval_deployed h.works hp hq hpNull hqNull h.parser)]
  cases self.found w <;> rfl

/-- The names of what the gate finds are read outside of the `try`. -/
theorem Ready.gate_of_unreadable (h : self.Ready names env c k leaf) {old : Certificate} {e : Exc}
    (hfound : self.found w = some old) (he : sansOf old = .error e) :
    self.gate env w = .error e := by
  rw [h.gate_eq, hfound]
  simp only [adequate, he]
  rfl

/-- With readable names, the gate answers. -/
theorem Ready.gate_of_readable (h : self.Ready names env c k leaf)
    (hreadable : ∀ old, self.found w = some old → ∃ sans, sansOf old = .ok sans) :
    ∃ r, self.gate env w = .ok r := by
  rw [h.gate_eq]
  cases hfound : self.found w with
  | none => exact ⟨none, rfl⟩
  | some old =>
    obtain ⟨sans, hsans⟩ := hreadable old hfound
    obtain ⟨n, hn⟩ := threshold_int h.renewBeforeDays old
    have hnow : (host env .utcnow w).1 = .ok env.utcnow := rfl
    simp only [adequate, hsans, expectedSans_of_configured h.configured, ofExcept_ok, ret_bind]
    cases sameNames sans (names.map .str) with
    | false => exact ⟨none, rfl⟩
    | true =>
      rw [if_neg (by simp), eval_look_of_ok hnow trivial, hn, isLe_int]
      cases decide (days (old.notValidAfter - env.utcnow) ≤ n) with
      | false => exact ⟨some old, rfl⟩
      | true => exact ⟨none, rfl⟩

/-! ### Recovery -/

/-- The run returns. Either the gate has kept the certificate, or the two files hold what was
obtained, and in both cases the result tells of the first certificate in the certificate file. -/
def SelfHeals (self : FlowRunner) (env : HostEnv) (c k : Text) (w : Host) : Prop :=
  ∃ r w', eval (host env) self.run w = (.ok r, w') ∧
    ((∃ old, self.gate env w = .ok (some old)) ∨
      ∃ b b', encode c = .ok b ∧ encode k = .ok b' ∧
        self.certBytes w' = some b ∧ self.keyBytes w' = some b') ∧
    ∃ first, self.onDisk w' = some first ∧ r.notBefore = first.notValidBefore ∧
      r.notAfter = first.notValidAfter ∧ sansOf first = .ok r.sans

/-- The damage that a run recovers from: the names of what the gate finds are readable, and if there
is nothing to keep, both files can be replaced and what was obtained can be put there and read. -/
structure Recoverable (fr : FlowRunner) (env : HostEnv) (c k : Text) (leaf : Certificate)
    (w : Host) : Prop where
  readable : ∀ old, fr.found w = some old → ∃ sans, sansOf old = .ok sans
  cert : (¬ ∃ old, fr.Kept env.utcnow w old) → Replaceable (fr.certBytes w) c
  key : (¬ ∃ old, fr.Kept env.utcnow w old) → Replaceable (fr.keyBytes w) k
  keyText : (¬ ∃ old, fr.Kept env.utcnow w old) → ∃ b, encode k = .ok b
  names : (¬ ∃ old, fr.Kept env.utcnow w old) → ∃ sans, sansOf leaf = .ok sans

theorem issueResult_eq_ok {changed : Bool} {r : IssueResult}
    (h : self.issueResult leaf changed = .ok r) :
    r.notBefore = leaf.notValidBefore ∧ r.notAfter = leaf.notValidAfter ∧
      sansOf leaf = .ok r.sans := by
  rw [issueResult] at h
  cases hsans : sansOf leaf with
  | error e => rw [hsans] at h; cases h
  | ok sans =>
    rw [hsans] at h
    cases h
    exact ⟨rfl, rfl, rfl⟩

theorem issueResult_of_sansOf (self : FlowRunner) {sans : List String}
    (h : sansOf leaf = .ok sans) (changed : Bool) :
    self.issueResult leaf changed =
      .ok ⟨self.flow.type.value, leaf.notValidBefore, leaf.notValidAfter, sans, changed⟩ := by
  rw [issueResult, h]
  rfl

/-- A run that heals although there is nothing to keep has put there what was obtained. -/
theorem Ready.replaceable_of_selfHeals (h : self.Ready names env c k leaf)
    (hheals : self.SelfHeals env c k w) (hnone : ¬ ∃ old, self.Kept env.utcnow w old) :
    Replaceable (self.certBytes w) c ∧ Replaceable (self.keyBytes w) k ∧
      (∃ b, encode k = .ok b) ∧ ∃ sans, sansOf leaf = .ok sans := by
  obtain ⟨p, hp, hpNull⟩ := h.certPath
  obtain ⟨q, hq, hqNull⟩ := h.keyPath
  obtain ⟨r, w', hrun, hfiles, -⟩ := hheals
  have hgate : ¬ ∃ old, self.gate env w = .ok (some old) :=
    fun ⟨old, hold⟩ => hnone ⟨old, kept_of_gate hold⟩
  obtain ⟨b, b', hb, hb', hcert, hkey⟩ := hfiles.resolve_left hgate
  rcases eval_host_run_eq_ok hrun with ⟨old, hold, -⟩ | ⟨-, i, hr, rfl⟩
  · exact absurd ⟨old, hold⟩ hgate
  · obtain ⟨hc, hk⟩ := Prod.mk.inj (Except.ok.inj (i.obtained.symm.trans h.obtained))
    obtain rfl : i.certOut = p := Except.ok.inj (i.certPath.symm.trans hp)
    obtain rfl : i.keyOut = q := Except.ok.inj (i.keyPath.symm.trans hq)
    have hleaf : i.leaf = leaf := by
      have hparsed := i.parsed
      rw [hc, h.parsed] at hparsed
      exact (Except.ok.inj hparsed).symm
    rw [i.certBytes_final, hc] at hcert
    rw [i.keyBytes_final, hk] at hkey
    have hcertEnd := i.certWritten
    have hkeyEnd := i.keyWritten
    rw [hc] at hcertEnd
    rw [hk] at hkeyEnd
    rw [certBytes_of_certPath hp] at hcert ⊢
    rw [keyBytes_of_keyPath hq] at hkey ⊢
    exact ⟨(h.works.writeEnd_holds_iff hpNull hb).mp ⟨⟨_, hcertEnd⟩, hcert⟩,
      (h.works.writeEnd_holds_iff hqNull hb').mp ⟨⟨_, hkeyEnd⟩, hkey⟩, ⟨b', hb'⟩,
      _, (issueResult_eq_ok (hleaf ▸ hr)).2.2⟩

/-- A run that heals has found nothing that it cannot recover from. -/
theorem Ready.recoverable (h : self.Ready names env c k leaf) (hheals : self.SelfHeals env c k w) :
    self.Recoverable env c k leaf w where
  readable old hfound := by
    cases hsans : sansOf old with
    | ok sans => exact ⟨sans, rfl⟩
    | error e =>
      obtain ⟨r, w', hrun, -⟩ := hheals
      rw [eval_host_run, h.gate_of_unreadable hfound hsans] at hrun
      cases (Prod.mk.inj hrun).1
  cert hnone := (h.replaceable_of_selfHeals hheals hnone).1
  key hnone := (h.replaceable_of_selfHeals hheals hnone).2.1
  keyText hnone := (h.replaceable_of_selfHeals hheals hnone).2.2.1
  names hnone := (h.replaceable_of_selfHeals hheals hnone).2.2.2

/-- A run with nothing to keep, and nothing in its way. -/
theorem Ready.selfHeals_of_issue (h : self.Ready names env c k leaf)
    (hgate : self.gate env w = .ok none) (hcert : Replaceable (self.certBytes w) c)
    (hkey : Replaceable (self.keyBytes w) k) {b' : Bytes} (hb' : encode k = .ok b')
    {sans : List String} (hsans : sansOf leaf = .ok sans) : self.SelfHeals env c k w := by
  obtain ⟨p, hp, hpNull⟩ := h.certPath
  obtain ⟨q, hq, hqNull⟩ := h.keyPath
  obtain ⟨b, rest, hb, hload⟩ := leafCert_eq_ok h.parsed
  rw [certBytes_of_certPath hp] at hcert
  rw [keyBytes_of_keyPath hq] at hkey
  obtain ⟨⟨changed, hcertEnd⟩, hcertBytes⟩ := (h.works.writeEnd_holds_iff hpNull hb).mpr hcert
  obtain ⟨⟨rekeyed, hkeyEnd⟩, hkeyBytes⟩ := (h.works.writeEnd_holds_iff hqNull hb').mpr hkey
  have hne := certPath_ne_keyPath hp hq
  obtain ⟨w', hw'⟩ : ∃ w', w' = (writeEnd env w q k).apply q 0o600
    ((writeEnd env w p c).apply p 0o644 w) := ⟨_, rfl⟩
  have hwrite : eval (host env) (self.write c (some k)) w = (.ok changed, w') := by
    rw [eval_host_write env w c k h.name hp hq, hcertEnd, hkeyEnd, hw']
    rfl
  have hfinish : eval (host env) (self.finish c changed) w' =
      (self.issueResult leaf changed, w') := by
    rw [eval_host, eval_finish, h.parsed]
    simp [h.noScript]
  have hresult := self.issueResult_of_sansOf hsans changed
  have hcert' : self.certBytes w' = some b := by
    rw [certBytes_of_certPath hp, hw', WriteEnd.bytes_apply_of_ne _ _ _ hne,
      WriteEnd.bytes_apply_self, hcertBytes]
  have hkey' : self.keyBytes w' = some b' := by
    rw [keyBytes_of_keyPath hq, hw', WriteEnd.bytes_apply_self,
      WriteEnd.bytes_apply_of_ne _ _ _ hne.symm, hkeyBytes]
  refine ⟨_, w', ?_, .inr ⟨b, b', hb, hb', hcert', hkey'⟩, leaf,
    onDisk_eq_some_iff.mpr ⟨b, rest, hcert', hload⟩, issueResult_eq_ok hresult⟩
  rw [eval_host_run, hgate, h.obtained]
  show eval (host env) (self.issue c k) w = _
  rw [issue, eval_bind_of_ok hwrite, hfinish, hresult]

/-- **Self-healing.** A run of a well-typed flow, on a file system that works, heals just if the
damage is recoverable. -/
theorem self_healing_iff (fr : FlowRunner) (names : List String) (env : HostEnv) (c k : Text)
    (leaf : Certificate) (w : Host) (h : fr.Ready names env c k leaf) :
    fr.SelfHeals env c k w ↔ fr.Recoverable env c k leaf w := by
  refine ⟨h.recoverable, fun hrec => ?_⟩
  obtain ⟨p, hp, hpNull⟩ := h.certPath
  obtain ⟨q, hq, hqNull⟩ := h.keyPath
  by_cases hkept : ∃ old, fr.Kept env.utcnow w old
  · obtain ⟨old, hold⟩ := hkept
    have hgate := gate_of_kept hp hq (h.works.readBytes p) (h.works.pathExists q) hpNull hqNull hold
    obtain ⟨sans, -, hsans, -⟩ := hold.names
    have hresult := fr.issueResult_of_sansOf hsans false
    refine ⟨_, w, ?_, .inl ⟨old, hgate⟩, old, hold.onDisk, issueResult_eq_ok hresult⟩
    rw [eval_host_run, hgate]
    exact congrArg (·, w) hresult
  · obtain ⟨found, hgate⟩ := h.gate_of_readable hrec.readable
    obtain ⟨b', hb'⟩ := hrec.keyText hkept
    obtain ⟨sans, hsans⟩ := hrec.names hkept
    cases found with
    | some old => exact absurd ⟨old, kept_of_gate hgate⟩ hkept
    | none => exact h.selfHeals_of_issue hgate (hrec.cert hkept) (hrec.key hkept) hb' hsans

theorem ready_demo : (demoRunner (demoFlow "app") [("A", appLeaf)]).Ready ["app"] appRun
    (.ofString "A") (.ofString "K") appLeaf where
  name := by decide
  certPath := ⟨demoCert, rfl, by decide⟩
  keyPath := ⟨demoKey, rfl, by decide⟩
  configured := rfl
  renewBeforeDays := .inl rfl
  noScript := rfl
  works := working_appRun
  obtained := rfl
  parsed := rfl
  parser b e he := by
    simp only [demoRunner] at he
    split at he
    · cases he
    · cases he
      rfl

/-- A certificate file that is text, but no certificate. -/
theorem self_healing_iff_demo :
    (demoRunner (demoFlow "app") [("A", appLeaf)]).SelfHeals appRun (.ofString "A")
      (.ofString "K") (demoHost "old" "old") := by
  refine (self_healing_iff (demoRunner (demoFlow "app") [("A", appLeaf)]) ["app"] appRun
    (.ofString "A") (.ofString "K") appLeaf (demoHost "old" "old") ready_demo).mpr ?_
  have hfound : (demoRunner (demoFlow "app") [("A", appLeaf)]).found (demoHost "old" "old") =
      none := by decide
  have hreplace : ∀ t, universalNewlines (.ofString "old") ≠ t →
      Replaceable (some "old".toByteArray) t := by
    rintro t ht _ ⟨⟩
    exact ⟨.ofString "old", decode_toByteArray "old", fun h => absurd h ht⟩
  exact {
    readable := fun old hold => by rw [hfound] at hold; cases hold
    cert := fun _ => hreplace _ (by decide)
    key := fun _ => hreplace _ (by decide)
    keyText := fun _ => ⟨_, encode_ofString "K"⟩
    names := fun _ => ⟨["app"], rfl⟩ }

/-- **A certificate file that is not text.** What is in it is no certificate, so a new one is
obtained, and then the run dies of `UnicodeDecodeError`, every time. -/
theorem damaged_file_kept :
    ¬ ∀ (fr : FlowRunner) (names : List String) (env : HostEnv) (c k : Text) (leaf : Certificate)
      (w : Host), fr.Ready names env c k leaf → fr.SelfHeals env c k w := by
  intro h
  have hrec := ready_demo.recoverable (h _ ["app"] _ _ _ appLeaf
    (noFiles.put demoCert ⟨#[0xff]⟩) ready_demo)
  have hnone : ¬ ∃ old, (demoRunner (demoFlow "app") [("A", appLeaf)]).Kept appRun.utcnow
      (noFiles.put demoCert ⟨#[0xff]⟩) old := by
    rintro ⟨old, hold⟩
    have hkey := hold.key
    revert hkey
    decide
  obtain ⟨t, ht, -⟩ := hrec.cert hnone ⟨#[0xff]⟩ rfl
  have hnot : decode ⟨#[0xff]⟩ = .error ⟨.unicodeDecodeError, "invalid start byte"⟩ := by decide
  rw [hnot] at ht
  cases ht

end FlowRunner

end NextepAgent
