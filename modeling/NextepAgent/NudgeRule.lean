import NextepAgent.Nudge
import NextepAgent.Sha256

/-!
# The rule of the nudge

A nudge is genuine when secret and nonce are not empty, the timestamp is an integer at most five
minutes from the clock, and the signature is the HMAC-SHA256 of the canonical string. A check should
say of every request whether it is genuine, and so should the endpoint.

## Where no answer is given

Every branch of the check but the last answers. The last compares the expected signature with the
one that was sent, and strings are only compared when both are ASCII. A request gets there with any
nonce and a recent timestamp, so that one byte of `X-Sig` above 127 makes the request fail, where it
should be refused.

## Main definitions

* `hmacSha256`
* `Genuine` — the rule
* `Compared` — what is checked before the signatures are compared
* `Decided`

## Main results

* `verifyNudge_decided_iff`, `update_decided_iff`
* `nudge_decided_iff`
-/

namespace NextepAgent

/-- `hmac.new(secret, canonical, hashlib.sha256).digest()`. -/
def hmacSha256 : Hmac := fun secret m => ⟨(Sha256.hmac secret.data.toList m.data.toList).toArray⟩

/-- A digest is never empty. -/
theorem hmacSha256_ne_empty (secret m : Bytes) : (hmacSha256 secret m).data.toList ≠ [] := by
  have hlength : (hmacSha256 secret m).data.toList.length = 32 := Sha256.length_hmac _ _
  intro h
  rw [h] at hlength
  exact absurd hlength (by decide)

variable {hmac : Hmac} {secret : Bytes} {ts nonce sig : Latin1} {body : List Char} {now : ℤ}

/-- **The rule.** -/
structure Genuine (hmac : Hmac) (secret : Bytes) (ts nonce sig : Latin1) (body : List Char)
    (now : ℤ) : Prop where
  secret_ne : secret.isEmpty = false
  nonce_ne : nonce ≠ []
  signed : ∃ t, ts.int = .ok t ∧ |now - t| ≤ 300 ∧
    sig.chars = Base64.encodeNoPad
      (hmac secret (String.ofList (canonical t nonce body)).toByteArray).data.toList

/-- What is checked before the signatures are compared. -/
structure Compared (secret : Bytes) (ts nonce : Latin1) (now : ℤ) : Prop where
  secret_ne : secret.isEmpty = false
  nonce_ne : nonce ≠ []
  recent : ∃ t, ts.int = .ok t ∧ |now - t| ≤ 300

/-- An answer is given, and it is the good one exactly when it should be. -/
def Decided {α : Type} (good : α) (p : Prop) (r : Except Exc α) : Prop :=
  ∃ a, r = .ok a ∧ (a = good ↔ p)

theorem Genuine.compared (h : Genuine hmac secret ts nonce sig body now) :
    Compared secret ts nonce now :=
  ⟨h.secret_ne, h.nonce_ne, h.signed.imp fun _ ht => ⟨ht.1, ht.2.1⟩⟩

/-! ### Branches -/

/-- What is no integer is a `ValueError`. -/
theorem Latin1.int_error {s : Latin1} {e : Exc} (h : s.int = .error e) :
    e.isA .valueError = true := by
  simp only [Latin1.int] at h
  split at h
  · cases h
    rfl
  · split at h
    · cases h
      rfl
    · cases h

theorem Latin1.int_ne_nil {s : Latin1} {t : ℤ} (h : s.int = .ok t) : s ≠ [] := by
  rintro rfl
  cases h

/-- What is not compared is refused. -/
theorem verifyNudge_of_not_compared (h : ¬ Compared secret ts nonce now) :
    verifyNudge hmac secret ts nonce sig body 300 now = .ok false := by
  rw [verifyNudge]
  split
  · rfl
  · rename_i hne
    simp only [Bool.or_eq_true, not_or, Bool.not_eq_true, List.isEmpty_eq_false_iff] at hne
    cases hts : ts.int with
    | error e =>
      dsimp only
      rw [if_pos (Latin1.int_error hts)]
    | ok t =>
      dsimp only
      have hold : 300 < |now - t| := by
        by_contra hskew
        exact h ⟨hne.1.1.1, hne.1.2, t, hts, not_lt.mp hskew⟩
      rw [if_pos hold]

/-- What is compared is compared with what is expected. -/
theorem verifyNudge_of_compared {t : ℤ} (h : Compared secret ts nonce now) (hts : ts.int = .ok t)
    (hsig : sig ≠ []) :
    verifyNudge hmac secret ts nonce sig body 300 now =
      compareDigest (sign hmac secret t nonce body) sig := by
  obtain ⟨t', ht', hskew⟩ := h.recent
  obtain rfl : t' = t := Except.ok.inj (ht'.symm.trans hts)
  have hne : (secret.isEmpty || ts.isEmpty || nonce.isEmpty || sig.isEmpty) = false := by
    simp [h.secret_ne, h.nonce_ne, hsig, Latin1.int_ne_nil hts]
  rw [verifyNudge, hne, if_neg Bool.false_ne_true, hts]
  dsimp only
  rw [if_neg (not_lt.mpr hskew)]

/-- Without a signature there is nothing to compare. -/
theorem verifyNudge_of_unsigned : verifyNudge hmac secret ts nonce [] body 300 now = .ok false := by
  rw [verifyNudge, List.isEmpty_nil, Bool.or_true, if_pos rfl]

theorem compareDigest_of_ascii {expected : List Char} (h : ∀ b ∈ sig, b < 0x80) :
    compareDigest expected sig = .ok (expected == sig.chars) := by
  have hany : sig.any (0x80 ≤ ·) = false := by
    rw [List.any_eq_false]
    intro b hb hge
    exact absurd (of_decide_eq_true hge) (UInt8.not_le.mpr (h b hb))
  rw [compareDigest, hany, if_neg Bool.false_ne_true]

theorem compareDigest_of_not_ascii {expected : List Char} (h : ¬ ∀ b ∈ sig, b < 0x80) :
    ∃ e, compareDigest expected sig = .error e := by
  push Not at h
  obtain ⟨b, hb, hge⟩ := h
  have hany : sig.any (0x80 ≤ ·) = true :=
    List.any_eq_true.mpr ⟨b, hb, decide_eq_true (UInt8.not_lt.mp hge)⟩
  rw [compareDigest, hany, if_pos rfl]
  exact ⟨_, rfl⟩

/-! ### The check -/

/-- A nudge whose timestamp is read is genuine when its signature is the expected one. -/
theorem Compared.genuine_iff {t : ℤ} (h : Compared secret ts nonce now) (hts : ts.int = .ok t) :
    Genuine hmac secret ts nonce sig body now ↔ sign hmac secret t nonce body = sig.chars := by
  obtain ⟨t', ht', hskew⟩ := h.recent
  obtain rfl : t' = t := Except.ok.inj (ht'.symm.trans hts)
  constructor
  · rintro ⟨-, -, u, hu, -, hsig⟩
    obtain rfl : u = t' := Except.ok.inj (hu.symm.trans hts)
    exact hsig.symm
  · intro hsig
    exact ⟨h.secret_ne, h.nonce_ne, t', hts, hskew, hsig.symm⟩

/-- **What the check decides.** It answers by the rule, unless signatures are compared of which the
one that was sent is not ASCII. -/
theorem verifyNudge_decided_iff (hdigest : ∀ k m, (hmac k m).data.toList ≠ []) :
    Decided true (Genuine hmac secret ts nonce sig body now)
        (verifyNudge hmac secret ts nonce sig body 300 now) ↔
      (Compared secret ts nonce now → ∀ b ∈ sig, b < 0x80) := by
  by_cases hcompared : Compared secret ts nonce now
  · obtain ⟨t, hts, -⟩ := hcompared.recent
    rw [Decided, hcompared.genuine_iff hts]
    by_cases hsig : sig = []
    · -- The expected signature has digits, and so it is another one.
      have hne : sign hmac secret t nonce body ≠ Latin1.chars [] := by
        intro h
        exact hdigest _ _ (Base64.encodeNoPad_injective (h.trans (Base64.encodeNoPad_eq []).symm))
      rw [hsig, verifyNudge_of_unsigned]
      simp [hne]
    · rw [verifyNudge_of_compared hcompared hts hsig]
      by_cases hascii : ∀ b ∈ sig, b < 0x80
      · rw [compareDigest_of_ascii hascii]
        simpa [hcompared] using hascii
      · have hraises : ∃ e, compareDigest (sign hmac secret t nonce body) sig = .error e :=
          compareDigest_of_not_ascii hascii
        obtain ⟨e, he⟩ := hraises
        rw [he]
        simp only [hcompared, true_imp_iff, hascii, iff_false]
        rintro ⟨_, h, -⟩
        cases h
  · have hfalse : ¬ Genuine hmac secret ts nonce sig body now := fun h => hcompared h.compared
    rw [Decided, verifyNudge_of_not_compared hcompared]
    simp [hcompared, hfalse]

/-- The endpoint decides what the check decides. -/
theorem update_decided_iff {r : UpdateRequest} (p : Prop) :
    Decided .accepted p (update hmac secret now r) ↔
      Decided true p
        (verifyNudge hmac secret r.xTs r.xNonce r.xSig (decodeReplace r.body) 300 now) := by
  rw [update]
  cases verifyNudge hmac secret r.xTs r.xNonce r.xSig (decodeReplace r.body) 300 now with
  | error e => simp [Decided, bind, Except.bind]
  | ok ok => cases ok <;> simp [Decided, bind, Except.bind, pure, Except.pure]

example :
    verifyNudge hmacSha256 "shared-remote-update-secret".toByteArray
      "1700000000".toByteArray.data.toList "a".toByteArray.data.toList
      "oZoFRTNWoY3P6ubuyLUDPO6uZvcw9HTbP1mig1bVubg".toByteArray.data.toList "b|c".toList 300
      1700000300 = .ok true := by
  decide +kernel

/-- **What is decided by the rule.** Of any nudge the check says whether it is genuine, and the
endpoint accepts it or refuses it accordingly, exactly when its signature is ASCII or is not
looked at. -/
theorem nudge_decided_iff (secret : Bytes) (now : ℤ) :
    (∀ (ts nonce sig : Latin1) (body : List Char),
      Decided true (Genuine hmacSha256 secret ts nonce sig body now)
          (verifyNudge hmacSha256 secret ts nonce sig body 300 now) ↔
        (Compared secret ts nonce now → ∀ b ∈ sig, b < 0x80)) ∧
      ∀ r : UpdateRequest,
        Decided .accepted
            (Genuine hmacSha256 secret r.xTs r.xNonce r.xSig (decodeReplace r.body) now)
            (update hmacSha256 secret now r) ↔
          (Compared secret r.xTs r.xNonce now → ∀ b ∈ r.xSig, b < 0x80) := by
  constructor
  · intro ts nonce sig body
    exact verifyNudge_decided_iff hmacSha256_ne_empty
  · intro r
    rw [update_decided_iff]
    exact verifyNudge_decided_iff hmacSha256_ne_empty

/-- The signature `é`, with a recent timestamp. -/
def accentedRequest : UpdateRequest where
  xTs := "1700000000".toByteArray.data.toList
  xNonce := "a".toByteArray.data.toList
  xSig := [0xe9]
  body := "host0.example.org".toByteArray

/-- **A signature that is not compared.** The request is not genuine, and it is not refused. -/
theorem accented_not_refused :
    ¬ ∀ (secret : Bytes) (now : ℤ) (r : UpdateRequest),
      Decided .accepted
        (Genuine hmacSha256 secret r.xTs r.xNonce r.xSig (decodeReplace r.body) now)
        (update hmacSha256 secret now r) := by
  intro h
  obtain ⟨resp, hresp, -⟩ :=
    h "shared-remote-update-secret".toByteArray 1700000010 accentedRequest
  have hraises : update hmacSha256 "shared-remote-update-secret".toByteArray 1700000010
      accentedRequest =
      .error ⟨.typeError, "comparing strings with non-ASCII characters is not supported"⟩ := by
    rfl
  rw [hraises] at hresp
  cases hresp

end NextepAgent
