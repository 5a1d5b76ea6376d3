import NextepAgent.FlowRunner

/-!
# What the gate looks at

The gate reads and decides, and changes nothing. When it keeps a certificate it has found one in the
certificate file, *a* key file beside it, the names it expects, and more days left than the
threshold. It has not looked inside the key file, nor at `not_valid_before` except to work out a
lifetime.

## Main definitions

* `FlowRunner.certBytes`, `keyBytes`, `onDisk` — what the two files of a flow hold
* `FlowRunner.gate` — what the gate answers
* `FlowRunner.Kept` — what is behind a kept certificate

## Main results

* `FlowRunner.kept_of_gate`, `gate_of_kept`
* `lt_days_iff`, `FlowRunner.margin_iff` — days left, as a comparison of instants
-/

namespace NextepAgent

open Effect Program

/-! ### Days -/

/-- More than `n` days are left exactly when `n + 1` of them fit before the end. -/
theorem lt_days_iff {n : ℤ} {now stop : ℤ} :
    n < days (stop - now) ↔ now + (n + 1) * day ≤ stop := by
  rw [days, ← Int.add_one_le_iff, Int.le_ediv_iff_mul_le (by decide)]
  omega

theorem days_nonneg {delta : ℤ} (h : 0 ≤ delta) : 0 ≤ days delta :=
  Int.ediv_nonneg h (by decide)

/-- `n <= v` for an integer `v`. -/
theorem isLe_int (n t : ℤ) : Json.isLe n (.int t) = .ok (decide (n ≤ t)) := by
  have hcast : ((n : ℚ) ≤ (t : ℚ)) = (n ≤ t) := propext Rat.intCast_le_intCast
  simp only [Json.isLe, Json.number?, PyFloat.isLe, hcast]

namespace Host

/-- What the file at a path holds. Where there is no usable path there is no file. -/
def bytesAt (w : Host) (path : Except Exc Path) : Option Bytes := path.toOption.bind w.bytes

theorem bytesAt_of_ok {path : Except Exc Path} {p : Path} (hp : path = .ok p) (w : Host) :
    w.bytesAt path = w.bytes p := by
  simp [bytesAt, hp, Except.toOption]

/-- It depends on the bytes on the host only. -/
theorem bytesAt_congr {w w' : Host} (h : ∀ p, w'.bytes p = w.bytes p) (path : Except Exc Path) :
    w'.bytesAt path = w.bytesAt path := by
  simp only [bytesAt, funext h]

end Host

namespace FlowRunner

variable {self : FlowRunner} {env : HostEnv} {w w' : Host} {leaf : Certificate}

/-! ### The two files of a flow -/

/-- What the certificate file holds. -/
def certBytes (self : FlowRunner) (w : Host) : Option Bytes := w.bytesAt self.certPath

/-- What the key file holds. -/
def keyBytes (self : FlowRunner) (w : Host) : Option Bytes := w.bytesAt self.keyPath

/-- The certificate on disk: the first of those in the certificate file. -/
def onDisk (self : FlowRunner) (w : Host) : Option Certificate :=
  (self.certBytes w).bind fun b =>
    match self.loadPem b with
    | .ok (leaf :: _) => some leaf
    | _ => none

theorem certBytes_of_certPath {p : Path} (hp : self.certPath = .ok p) (w : Host) :
    self.certBytes w = w.bytes p := w.bytesAt_of_ok hp

theorem keyBytes_of_keyPath {p : Path} (hp : self.keyPath = .ok p) (w : Host) :
    self.keyBytes w = w.bytes p := w.bytesAt_of_ok hp

/-- What the files of a flow hold depends on the bytes on the host only. -/
theorem certBytes_congr (h : ∀ p, w'.bytes p = w.bytes p) : self.certBytes w' = self.certBytes w :=
  Host.bytesAt_congr h self.certPath

theorem keyBytes_congr (h : ∀ p, w'.bytes p = w.bytes p) : self.keyBytes w' = self.keyBytes w :=
  Host.bytesAt_congr h self.keyPath

theorem onDisk_congr (h : self.certBytes w' = self.certBytes w) : self.onDisk w' = self.onDisk w := by
  simp only [onDisk, h]

theorem onDisk_eq_some_iff : self.onDisk w = some leaf ↔
    ∃ b rest, self.certBytes w = some b ∧ self.loadPem b = .ok (leaf :: rest) := by
  rw [onDisk, Option.bind_eq_some_iff]
  constructor
  · rintro ⟨b, hb, hleaf⟩
    split at hleaf
    · next c rest hload => cases hleaf; exact ⟨b, rest, hb, hload⟩
    · cases hleaf
  · rintro ⟨b, rest, hb, hload⟩
    exact ⟨b, hb, by rw [hload]⟩

/-- The two files of a flow are different files. -/
theorem certPath_ne_keyPath {p q : Path} (hp : self.certPath = .ok p) (hq : self.keyPath = .ok q) :
    p ≠ q := by
  rw [certPath] at hp
  rw [keyPath] at hq
  cases hd : self.flow.certOutputDir.orDir (NextepAgent.certOutputDir self.osFamily) with
  | error e => rw [hd] at hp; cases hp
  | ok d =>
    cases hd' : self.flow.keyOutputDir.orDir (NextepAgent.keyOutputDir self.osFamily) with
    | error e => rw [hd'] at hq; cases hq
    | ok d' =>
      rw [hd] at hp
      rw [hd'] at hq
      cases hp
      cases hq
      simp

/-! ### The gate -/

/-- The gate makes no call that changes anything. -/
theorem uses_upToDate (self : FlowRunner) :
    self.upToDate.Uses (fun _ _ => True) HostOp.readOnly := by
  refine (uses_ofExcept _).bind fun p => (uses_ofExcept _).bind fun q => Uses.bind ?_ ?_
  · refine Uses.tryCatch ?_ fun e => ?_
    · refine (uses_sys trivial).bind fun b => (uses_sys trivial).bind fun there => ?_
      cases there with
      | false => trivial
      | true => exact (uses_ofExcept _).bind fun _ => (uses_ofExcept _).bind fun _ => trivial
    · split <;> trivial
  · rintro (_ | leaf)
    · trivial
    · refine (uses_ofExcept _).bind fun sans => (uses_ofExcept _).bind fun expected => ?_
      split
      · trivial
      · refine (uses_sys trivial).bind fun now => (uses_ofExcept _).bind fun near => ?_
        split <;> trivial

/-- What the gate answers. -/
def gate (self : FlowRunner) (env : HostEnv) (w : Host) : Except Exc (Option Certificate) :=
  (eval (host env) self.upToDate w).1

theorem eval_upToDate (self : FlowRunner) (env : HostEnv) (w : Host) :
    eval (host env) self.upToDate w = (self.gate env w, w) :=
  Prod.ext rfl (self.uses_upToDate.eval_eq (host_readOnly env) w)

/-- A gate that answers has found the paths. -/
theorem paths_of_gate {found : Option Certificate} (h : self.gate env w = .ok found) :
    ∃ p q, self.certPath = .ok p ∧ self.keyPath = .ok q := by
  have heval := self.eval_upToDate env w
  rw [h] at heval
  obtain ⟨p, hp, heval⟩ := eval_ofExcept_bind_eq_ok.mp heval
  obtain ⟨q, hq, heval⟩ := eval_ofExcept_bind_eq_ok.mp heval
  exact ⟨p, q, hp, hq⟩

/-- What is behind a kept certificate. -/
structure Kept (fr : FlowRunner) (now : ℤ) (w : Host) (leaf : Certificate) : Prop where
  /-- It is the certificate on disk. -/
  onDisk : fr.onDisk w = some leaf
  /-- There is a key file. -/
  key : (fr.keyBytes w).isSome
  /-- The names are the expected ones. -/
  names : ∃ sans expected, sansOf leaf = .ok sans ∧ fr.expectedSans = .ok expected ∧
    sameNames sans expected = true
  /-- More days are left than the threshold. -/
  margin : (fr.threshold leaf).isLe (days (leaf.notValidAfter - now)) = .ok false

theorem firstCert_eq_ok {certs : List Certificate} (h : firstCert certs = .ok leaf) :
    ∃ rest, certs = leaf :: rest := by
  cases certs with
  | nil => cases h
  | cons c rest => cases h; exact ⟨rest, rfl⟩

/-- The `try` block finds the certificate on disk, beside a key, where it can look at both files. -/
theorem eval_deployed_eq_some {p q : Path}
    (h : eval (host env) (self.deployed p q) w = (.ok (some leaf), w')) :
    w' = w ∧ (∃ b rest, w.bytes p = some b ∧ self.loadPem b = .ok (leaf :: rest)) ∧
      (w.bytes q).isSome ∧ (p.hasNull = false ∧ env.readBytes p = none) ∧
        q.hasNull = false ∧ env.pathExists q = none := by
  rcases eval_tryCatch_eq_ok.mp h with h | ⟨e, s, -, h⟩
  · obtain ⟨b, hb, h⟩ := eval_look_bind h trivial
    obtain ⟨there, hthere, h⟩ := eval_look_bind h trivial
    cases there with
    | false => cases (Prod.mk.inj h).1
    | true =>
      obtain ⟨certs, hload, h⟩ := eval_ofExcept_bind_eq_ok.mp h
      obtain ⟨c, hc, h⟩ := eval_ofExcept_bind_eq_ok.mp h
      obtain ⟨hleaf, rfl⟩ := Prod.mk.inj h
      cases hleaf
      obtain ⟨rest, rfl⟩ := firstCert_eq_ok hc
      obtain ⟨hread, hbytes⟩ := faulty_eq_ok hb
      obtain ⟨hpNull, hb⟩ := Host.read_eq_ok hbytes
      obtain ⟨hexists, hq⟩ := faulty_eq_ok hthere
      have hq : (!q.hasNull && (w.bytes q).isSome) = true := Except.ok.inj hq
      rw [Bool.and_eq_true, Bool.not_eq_true'] at hq
      exact ⟨rfl, ⟨b, rest, hb, hload⟩, hq.2, ⟨hpNull, hread⟩, hq.1, hexists⟩
  · -- what the handler returns is no certificate
    split at h <;> cases (Prod.mk.inj h).1

/-- The rest of the gate lets a certificate through on its names and its days. -/
theorem eval_adequate_eq_some {c : Certificate}
    (h : eval (host env) (self.adequate c) w = (.ok (some leaf), w')) :
    c = leaf ∧
      (∃ sans expected, sansOf leaf = .ok sans ∧ self.expectedSans = .ok expected ∧
        sameNames sans expected = true) ∧
      (self.threshold leaf).isLe (days (leaf.notValidAfter - env.utcnow)) = .ok false := by
  obtain ⟨sans, hsans, h⟩ := eval_ofExcept_bind_eq_ok.mp h
  obtain ⟨expected, hexpected, h⟩ := eval_ofExcept_bind_eq_ok.mp h
  cases hnames : sameNames sans expected with
  | false =>
    rw [hnames] at h
    cases (Prod.mk.inj h).1
  | true =>
    rw [hnames] at h
    obtain ⟨now, hnow, h⟩ := eval_look_bind h trivial
    obtain ⟨near, hnear, h⟩ := eval_ofExcept_bind_eq_ok.mp h
    cases near with
    | true => cases (Prod.mk.inj h).1
    | false =>
      cases (Prod.mk.inj h).1
      cases hnow
      exact ⟨rfl, ⟨sans, expected, hsans, hexpected, hnames⟩, hnear⟩

/-- A gate that keeps a certificate has found it, and let it through. -/
theorem deployed_of_gate (h : self.gate env w = .ok (some leaf)) :
    ∃ p q, self.certPath = .ok p ∧ self.keyPath = .ok q ∧
      eval (host env) (self.deployed p q) w = (.ok (some leaf), w) ∧
        eval (host env) (self.adequate leaf) w = (.ok (some leaf), w) := by
  have heval := self.eval_upToDate env w
  rw [h] at heval
  obtain ⟨p, hp, heval⟩ := eval_ofExcept_bind_eq_ok.mp heval
  obtain ⟨q, hq, heval⟩ := eval_ofExcept_bind_eq_ok.mp heval
  obtain ⟨found, w', hdeployed, heval⟩ := eval_bind_eq_ok.mp heval
  cases found with
  | none => cases (Prod.mk.inj heval).1
  | some c =>
    obtain ⟨rfl, -⟩ := eval_deployed_eq_some hdeployed
    obtain ⟨rfl, -⟩ := eval_adequate_eq_some heval
    exact ⟨p, q, hp, hq, hdeployed, heval⟩

/-- **A kept certificate.** -/
theorem kept_of_gate (h : self.gate env w = .ok (some leaf)) : self.Kept env.utcnow w leaf := by
  obtain ⟨p, q, hp, hq, hdeployed, hadequate⟩ := deployed_of_gate h
  obtain ⟨-, ⟨b, rest, hb, hload⟩, hkey, -⟩ := eval_deployed_eq_some hdeployed
  obtain ⟨-, hnames, hmargin⟩ := eval_adequate_eq_some hadequate
  exact {
    onDisk := onDisk_eq_some_iff.mpr ⟨b, rest, (certBytes_of_certPath hp _).trans hb, hload⟩
    key := by rw [keyBytes_of_keyPath hq]; exact hkey
    names := hnames
    margin := hmargin }

/-- On a host that lets the gate look, the `try` block finds the certificate on disk, if there is a
key file beside it. -/
theorem eval_deployed_of_onDisk {p q : Path} (hp : self.certPath = .ok p)
    (hq : self.keyPath = .ok q) (hread : env.readBytes p = none) (hexists : env.pathExists q = none)
    (hpNull : p.hasNull = false) (hqNull : q.hasNull = false) (hleaf : self.onDisk w = some leaf)
    (hkey : (self.keyBytes w).isSome) :
    eval (host env) (self.deployed p q) w = (.ok (some leaf), w) := by
  obtain ⟨b, rest, hb, hload⟩ := onDisk_eq_some_iff.mp hleaf
  rw [certBytes_of_certPath hp] at hb
  rw [keyBytes_of_keyPath hq] at hkey
  refine eval_tryCatch_eq_ok.mpr (.inl ?_)
  have hget : (host env (.readBytes p) w).1 = .ok b := by
    simp only [host, hread, Host.read, hpNull, hb]
    rfl
  have hthere : (host env (.pathExists q) w).1 = .ok true := by
    simp [host, hexists, hqNull, hkey]
  refine (eval_look_of_ok hget trivial).trans ((eval_look_of_ok hthere trivial).trans ?_)
  simp [hload, firstCert]

/-- What the gate answers, once its `try` block has found a certificate. -/
theorem gate_of_deployed {p q : Path} (hp : self.certPath = .ok p) (hq : self.keyPath = .ok q)
    (h : eval (host env) (self.deployed p q) w = (.ok (some leaf), w)) :
    self.gate env w = (eval (host env) (self.adequate leaf) w).1 := by
  rw [gate, upToDate, hp, hq]
  simp only [ofExcept_ok, ret_bind]
  rw [eval_bind_of_ok h]

/-- With the expected names, what is left is the comparison of days. -/
theorem eval_adequate_of_names {sans : List String} {expected : List Json}
    (hsans : sansOf leaf = .ok sans) (hexpected : self.expectedSans = .ok expected)
    (hnames : sameNames sans expected = true) :
    eval (host env) (self.adequate leaf) w =
      ((self.threshold leaf).isLe (days (leaf.notValidAfter - env.utcnow)) >>=
        fun near => .ok (if near then none else some leaf), w) := by
  have hnow : (host env .utcnow w).1 = .ok env.utcnow := rfl
  rw [adequate, hsans, hexpected]
  simp only [ofExcept_ok, ret_bind, hnames]
  refine (eval_look_of_ok hnow trivial).trans ?_
  cases (self.threshold leaf).isLe (days (leaf.notValidAfter - env.utcnow)) with
  | error e => rfl
  | ok near => cases near <;> rfl

/-- On a host that lets the gate look, it keeps what deserves to be kept. -/
theorem gate_of_kept {p q : Path} (hp : self.certPath = .ok p) (hq : self.keyPath = .ok q)
    (hread : env.readBytes p = none) (hexists : env.pathExists q = none)
    (hpNull : p.hasNull = false) (hqNull : q.hasNull = false)
    (h : self.Kept env.utcnow w leaf) : self.gate env w = .ok (some leaf) := by
  obtain ⟨sans, expected, hsans, hexpected, hnames⟩ := h.names
  have hdeployed := eval_deployed_of_onDisk hp hq hread hexists hpNull hqNull h.onDisk h.key
  rw [gate_of_deployed hp hq hdeployed, eval_adequate_of_names hsans hexpected hnames, h.margin]
  rfl

/-- The margin of a kept certificate, when the threshold is an integer. -/
theorem margin_iff {now t : ℤ} (ht : self.threshold leaf = .int t) :
    (self.threshold leaf).isLe (days (leaf.notValidAfter - now)) = .ok false ↔
      now + (t + 1) * day ≤ leaf.notValidAfter := by
  rw [ht, isLe_int, ← lt_days_iff, Except.ok.injEq, decide_eq_false_iff_not, not_le]

end FlowRunner

end NextepAgent
