import NextepAgent.Base64
import NextepAgent.JsonText
import NextepAgent.Lenient
import Mathlib.Data.Set.Function

/-!
# The wake-up nudge

`POST /update` makes the agent pull its configuration. The request is signed: the header `X-Sig` is
the HMAC of `v1|<ts>|<nonce>|<msg>`, where `ts` is the integer that `X-Ts` reads as, the nonce is
the text of `X-Nonce`, and the message is the body, decoded.

## What a signature says about a request

The canonical string is joined with bars, and of its fields only the first cannot hold one. A number
followed by a bar is read back (`renderInt_append_inj`), and from there on nonce and message are one
text with a bar somewhere in it. A signature fixes that text, and so the message once it is known how
long the nonce is. The message in turn fixes the body only as far as the decoding does.

## The keyed hash

HMAC-SHA256 is a parameter. What is assumed of it is that it separates the two canonical strings
that are compared, which can hold of a hash of 32 bytes.

## Main definitions

* `verifyNudge`, `update`
* `UpdateRequest.Separated` — no collision between what two requests are signed as

## Main results

* `verifyNudge_eq_true`, `update_eq_accepted` — what is accepted
* `UpdateRequest.binds_iff`
* `UpdateRequest.binds_of_plain` — nonces without a bar, and bodies that are UTF-8
-/

namespace NextepAgent

/-! ### Signatures -/

/-- HMAC-SHA256: a secret and a message. -/
abbrev Hmac : Type := Bytes → Bytes → Bytes

/-- `f"v1|{ts}|{nonce_hex}|{msg}"`. -/
def canonical (ts : ℤ) (nonceHex : Latin1) (msg : List Char) : List Char :=
  "v1|".toList ++ (renderInt ts ++ '|' :: (nonceHex.chars ++ '|' :: msg))

/-- `_sign`. A message without lone surrogates can be encoded. -/
def sign (hmac : Hmac) (secret : Bytes) (ts : ℤ) (nonceHex : Latin1) (msg : List Char) : List Char :=
  Base64.encodeNoPad
    (hmac secret (String.ofList (canonical ts nonceHex msg)).toByteArray).data.toList

/-- `hmac.compare_digest`, of an ASCII string and any other. -/
def compareDigest (expected : List Char) (sig : Latin1) : Except Exc Bool :=
  if sig.any (0x80 ≤ ·) then
    .error ⟨.typeError, "comparing strings with non-ASCII characters is not supported"⟩
  else .ok (expected == sig.chars)

/-- `verify_nudge`, at the time `now`. -/
def verifyNudge (hmac : Hmac) (secret : Bytes) (tsHeader nonceHeader sigHeader : Latin1)
    (body : List Char) (maxSkewSeconds now : ℤ) : Except Exc Bool :=
  if secret.isEmpty || tsHeader.isEmpty || nonceHeader.isEmpty || sigHeader.isEmpty then .ok false
  else match tsHeader.int with
    | .error e => if e.isA .valueError then .ok false else .error e
    | .ok ts =>
      if maxSkewSeconds < |now - ts| then .ok false
      else compareDigest (sign hmac secret ts nonceHeader body) sigHeader

theorem compareDigest_eq_true {expected : List Char} {sig : Latin1} :
    compareDigest expected sig = .ok true ↔
      (sig.any (0x80 ≤ ·)) = false ∧ expected = sig.chars := by
  rw [compareDigest]
  cases sig.any (0x80 ≤ ·) with
  | true => simp
  | false => simp

/-- **What is verified.** Nothing is empty, the timestamp is read and is recent, and the signature is
the one that is expected. -/
theorem verifyNudge_eq_true {hmac : Hmac} {secret : Bytes} {tsHeader nonceHeader sigHeader : Latin1}
    {body : List Char} {maxSkewSeconds now : ℤ} :
    verifyNudge hmac secret tsHeader nonceHeader sigHeader body maxSkewSeconds now = .ok true ↔
      (secret.isEmpty || tsHeader.isEmpty || nonceHeader.isEmpty || sigHeader.isEmpty) = false ∧
        ∃ ts, tsHeader.int = .ok ts ∧ |now - ts| ≤ maxSkewSeconds ∧
          compareDigest (sign hmac secret ts nonceHeader body) sigHeader = .ok true := by
  rw [verifyNudge]
  cases secret.isEmpty || tsHeader.isEmpty || nonceHeader.isEmpty || sigHeader.isEmpty with
  | true => simp
  | false =>
    cases hts : tsHeader.int with
    | error e => cases he : e.isA .valueError <;> simp [he]
    | ok ts =>
      by_cases hskew : maxSkewSeconds < |now - ts|
      · simp [hskew]
      · simp [hskew, not_lt.mp hskew]

/-! ### The endpoint -/

/-- A request to `/update`. A header that is absent is the empty string. -/
structure UpdateRequest where
  xTs : Latin1
  xNonce : Latin1
  xSig : Latin1
  body : Bytes

/-- What becomes of a request. -/
inductive UpdateResponse
  /-- A refresh is dispatched. -/
  | accepted
  /-- `HTTPException(status_code=401, detail="invalid signature")`. -/
  | unauthorized
  deriving DecidableEq

/-- `update`. -/
def update (hmac : Hmac) (secret : Bytes) (now : ℤ) (r : UpdateRequest) :
    Except Exc UpdateResponse := do
  let ok ← verifyNudge hmac secret r.xTs r.xNonce r.xSig (decodeReplace r.body) 300 now
  return if ok then .accepted else .unauthorized

theorem update_eq_accepted {hmac : Hmac} {secret : Bytes} {now : ℤ} {r : UpdateRequest} :
    update hmac secret now r = .ok .accepted ↔
      verifyNudge hmac secret r.xTs r.xNonce r.xSig (decodeReplace r.body) 300 now = .ok true := by
  rw [update]
  cases verifyNudge hmac secret r.xTs r.xNonce r.xSig (decodeReplace r.body) 300 now with
  | error e => simp [bind, Except.bind]
  | ok ok => cases ok <;> simp [bind, Except.bind, pure, Except.pure]

namespace UpdateRequest

variable {hmac : Hmac} {secret : Bytes} {now : ℤ} {r r₁ r₂ : UpdateRequest}

/-- The bytes that a request is signed as, once its timestamp is read. -/
def signedAs (r : UpdateRequest) (ts : ℤ) : Bytes :=
  (String.ofList (canonical ts r.xNonce (decodeReplace r.body))).toByteArray

/-- The hash separates what two requests are signed as. -/
def Separated (hmac : Hmac) (secret : Bytes) (r₁ r₂ : UpdateRequest) : Prop :=
  ∀ t₁ t₂, r₁.xTs.int = .ok t₁ → r₂.xTs.int = .ok t₂ →
    Set.InjOn (hmac secret) {r₁.signedAs t₁, r₂.signedAs t₂}

/-- An accepted request has a timestamp, and its signature is the one that is expected. -/
theorem signed_of_accepted (h : update hmac secret now r = .ok .accepted) :
    ∃ t, r.xTs.int = .ok t ∧
      r.xSig.chars = Base64.encodeNoPad (hmac secret (r.signedAs t)).data.toList := by
  obtain ⟨-, t, hts, -, hsig⟩ := verifyNudge_eq_true.mp (update_eq_accepted.mp h)
  exact ⟨t, hts, (compareDigest_eq_true.mp hsig).2.symm⟩

/-! ### Taking the canonical string apart -/

/-- A number is read back, when what follows is no part of it. -/
theorem renderInt_append_inj {m n : ℤ} {t u : List Char} (ht : Stops t) (hu : Stops u)
    (h : renderInt m ++ t = renderInt n ++ u) : m = n ∧ t = u := by
  let py : Interpreter := ⟨fun _ => [], fun _ => .nan, 0, 0, le_rfl⟩
  have hm : scanNumber py (renderInt m ++ t) = .ok (.int m, t) := scanNumber_renderInt py m ht
  have hn : scanNumber py (renderInt n ++ u) = .ok (.int n, u) := scanNumber_renderInt py n hu
  rw [h, hn] at hm
  cases hm
  exact ⟨rfl, rfl⟩

theorem stops_bar (t : List Char) : Stops ('|' :: t) := stops_cons t (by decide)

/-- What two equal canonical strings have in common. -/
theorem canonical_inj {t₁ t₂ : ℤ} {n₁ n₂ : Latin1} {m₁ m₂ : List Char} :
    canonical t₁ n₁ m₁ = canonical t₂ n₂ m₂ ↔
      t₁ = t₂ ∧ n₁.chars ++ '|' :: m₁ = n₂.chars ++ '|' :: m₂ := by
  constructor
  · intro h
    obtain ⟨ht, hrest⟩ := renderInt_append_inj (stops_bar _) (stops_bar _) (List.append_cancel_left h)
    exact ⟨ht, List.cons_inj_right _ |>.mp hrest⟩
  · rintro ⟨rfl, h⟩
    rw [canonical, h]
    rfl

theorem chars_injective : Function.Injective Latin1.chars := by
  refine List.map_injective_iff.mpr fun a b h => ?_
  have hnat := congrArg Char.toNat h
  have hvalid : ∀ c : UInt8, (Char.ofNat c.toNat).toNat = c.toNat := fun c => by
    have hc := c.toNat_lt
    have hchar : c.toNat.isValidChar := .inl (by omega)
    rw [Char.ofNat, dif_pos hchar]
    rfl
  rw [hvalid, hvalid] at hnat
  exact UInt8.toNat_inj.mp hnat

/-- **What one signature says about two requests.** They have one timestamp, and their nonces and
messages make the same text when they are joined. -/
theorem joined_of_accepted {now₁ now₂ : ℤ} (hsep : Separated hmac secret r₁ r₂)
    (h₁ : update hmac secret now₁ r₁ = .ok .accepted)
    (h₂ : update hmac secret now₂ r₂ = .ok .accepted) (hsig : r₁.xSig = r₂.xSig) :
    r₁.xTs.int = r₂.xTs.int ∧
      r₁.xNonce.chars ++ '|' :: decodeReplace r₁.body =
        r₂.xNonce.chars ++ '|' :: decodeReplace r₂.body := by
  obtain ⟨t₁, ht₁, hs₁⟩ := signed_of_accepted h₁
  obtain ⟨t₂, ht₂, hs₂⟩ := signed_of_accepted h₂
  rw [hsig, hs₂] at hs₁
  have hdigest : hmac secret (r₁.signedAs t₁) = hmac secret (r₂.signedAs t₂) := by
    have hdata := Base64.encodeNoPad_injective hs₁
    exact ByteArray.ext (Array.toList_inj.mp hdata).symm
  have hbytes : r₁.signedAs t₁ = r₂.signedAs t₂ :=
    hsep t₁ t₂ ht₁ ht₂ (by simp) (by simp) hdigest
  have hcanonical := String.ofList_injective (String.toByteArray_inj.mp hbytes)
  obtain ⟨rfl, hjoined⟩ := canonical_inj.mp hcanonical
  exact ⟨ht₁.trans ht₂.symm, hjoined⟩

/-- **What a signature binds.** Of two accepted requests with one signature, the timestamps agree.
Nonces and bodies agree exactly when the nonces are of one length, and the bodies are not two
different ones that are decoded to one text. -/
theorem binds_iff (hmac : Hmac) (secret : Bytes) (now₁ now₂ : ℤ) (r₁ r₂ : UpdateRequest)
    (hsep : Separated hmac secret r₁ r₂) (h₁ : update hmac secret now₁ r₁ = .ok .accepted)
    (h₂ : update hmac secret now₂ r₂ = .ok .accepted) (hsig : r₁.xSig = r₂.xSig) :
    (r₁.xTs.int = r₂.xTs.int ∧ r₁.xNonce = r₂.xNonce ∧ r₁.body = r₂.body) ↔
      r₁.xNonce.length = r₂.xNonce.length ∧
        (decodeReplace r₁.body = decodeReplace r₂.body → r₁.body = r₂.body) := by
  obtain ⟨hts, hjoined⟩ := joined_of_accepted hsep h₁ h₂ hsig
  constructor
  · rintro ⟨-, hnonce, hbody⟩
    exact ⟨congrArg List.length hnonce, fun _ => hbody⟩
  · rintro ⟨hlen, hdecoded⟩
    have hchars : r₁.xNonce.chars.length = r₂.xNonce.chars.length := by
      rw [Latin1.chars, Latin1.chars, List.length_map, List.length_map, hlen]
    obtain ⟨hnonce, hmsg⟩ := List.append_inj hjoined hchars
    exact ⟨hts, chars_injective hnonce, hdecoded ((List.cons_inj_right _).mp hmsg)⟩

/-- Without a bar in the first text, a joined text is taken apart at its first bar. -/
theorem joined_inj {p q s t : List Char} (hp : '|' ∉ p) (hq : '|' ∉ q)
    (h : p ++ '|' :: s = q ++ '|' :: t) : p = q ∧ s = t := by
  induction p generalizing q with
  | nil =>
    cases q with
    | nil => exact ⟨rfl, (List.cons.inj h).2⟩
    | cons d q => exact absurd (List.cons.inj h).1 fun hd => hq (hd ▸ List.mem_cons_self)
  | cons c p ih =>
    cases q with
    | nil => exact absurd (List.cons.inj h).1 fun hc => hp (hc ▸ List.mem_cons_self)
    | cons d q =>
      obtain ⟨rfl, hrest⟩ := List.cons.inj h
      obtain ⟨rfl, hst⟩ := ih (fun hc => hp (List.mem_cons_of_mem _ hc))
        (fun hd => hq (List.mem_cons_of_mem _ hd)) hrest
      exact ⟨rfl, hst⟩

/-- Requests whose nonces have no bar in them, and whose bodies are UTF-8, are bound as a whole. -/
theorem binds_of_plain {now₁ now₂ : ℤ} {s₁ s₂ : String} (hsep : Separated hmac secret r₁ r₂)
    (h₁ : update hmac secret now₁ r₁ = .ok .accepted)
    (h₂ : update hmac secret now₂ r₂ = .ok .accepted) (hsig : r₁.xSig = r₂.xSig)
    (hn₁ : '|' ∉ r₁.xNonce.chars) (hn₂ : '|' ∉ r₂.xNonce.chars)
    (hb₁ : r₁.body = s₁.toByteArray) (hb₂ : r₂.body = s₂.toByteArray) :
    r₁.xTs.int = r₂.xTs.int ∧ r₁.xNonce = r₂.xNonce ∧ r₁.body = r₂.body := by
  obtain ⟨hts, hjoined⟩ := joined_of_accepted hsep h₁ h₂ hsig
  obtain ⟨hnonce, hmsg⟩ := joined_inj hn₁ hn₂ hjoined
  rw [hb₁, hb₂, decodeReplace_toByteArray, decodeReplace_toByteArray] at hmsg
  rw [hb₁, hb₂, String.toList_inj.mp hmsg]
  exact ⟨hts, chars_injective hnonce, rfl⟩

/-! ### A bar that moves -/

/-- The secret of the tests. -/
def demoSecret : Bytes := "shared-remote-update-secret".toByteArray

/-- `v1|1700000000|a|b|c`. -/
def demoCanonical : Bytes := "v1|1700000000|a|b|c".toByteArray

/-- A hash that gives this string its HMAC-SHA256 under the secret of the tests, and all others
longer values that differ. -/
def demoHmac : Hmac := fun _ m =>
  let digest : List UInt8 := [161, 154, 5, 69, 51, 86, 161, 141, 207, 234, 230, 238, 200, 181, 3, 60,
    238, 174, 102, 247, 48, 244, 116, 219, 63, 89, 162, 131, 86, 213, 185, 184]
  if m = demoCanonical then ⟨digest.toArray⟩ else ⟨(digest ++ 0 :: m.data.toList).toArray⟩

theorem demoHmac_injective (secret : Bytes) : Function.Injective (demoHmac secret) := by
  intro m n h
  simp only [demoHmac] at h
  have hlist := congrArg (fun b : Bytes => b.data.toList) h
  by_cases hm : m = demoCanonical <;> by_cases hn : n = demoCanonical
  · rw [hm, hn]
  · simp [hm, hn] at hlist
  · simp [hm, hn] at hlist
  · simp only [hm, hn, if_false, List.append_cancel_left_eq, List.cons.injEq, true_and] at hlist
    exact ByteArray.ext (Array.toList_inj.mp hlist)

/-- A request with the signature of that string. -/
def demoRequest (ts nonce body : String) : UpdateRequest where
  xTs := ts.toByteArray.data.toList
  xNonce := nonce.toByteArray.data.toList
  xSig := "oZoFRTNWoY3P6ubuyLUDPO6uZvcw9HTbP1mig1bVubg".toByteArray.data.toList
  body := body.toByteArray

theorem demoRequest_accepted :
    update demoHmac demoSecret 1700000010 (demoRequest "1700000000" "a" "b|c") = .ok .accepted := by
  decide

/-- A timestamp with a blank before it is the same timestamp. -/
theorem binds_iff_demo :
    (demoRequest "1700000000" "a" "b|c").xTs.int = (demoRequest " 1700000000" "a" "b|c").xTs.int ∧
      (demoRequest "1700000000" "a" "b|c").xNonce = (demoRequest " 1700000000" "a" "b|c").xNonce ∧
      (demoRequest "1700000000" "a" "b|c").body = (demoRequest " 1700000000" "a" "b|c").body :=
  (binds_iff demoHmac demoSecret 1700000010 1700000020 _ _
    (fun _ _ _ _ => (demoHmac_injective demoSecret).injOn) demoRequest_accepted (by decide)
    rfl).mpr ⟨by decide, fun _ => rfl⟩

/-- **A bar that moves.** The nonce `a` with the body `b|c`, and the nonce `a|b` with the body `c`,
are signed alike. -/
theorem tampered_body_accepted :
    ¬ ∀ (hmac : Hmac) (secret : Bytes) (now₁ now₂ : ℤ) (r₁ r₂ : UpdateRequest),
      Function.Injective (hmac secret) → update hmac secret now₁ r₁ = .ok .accepted →
      update hmac secret now₂ r₂ = .ok .accepted → r₁.xSig = r₂.xSig →
      r₁.xTs.int = r₂.xTs.int ∧ r₁.xNonce = r₂.xNonce ∧ r₁.body = r₂.body := by
  intro h
  have hbound := h demoHmac demoSecret 1700000010 1700000010 (demoRequest "1700000000" "a" "b|c")
    (demoRequest "1700000000" "a|b" "c") (demoHmac_injective demoSecret) demoRequest_accepted
    (by decide) rfl
  exact absurd hbound.2.1 (by decide)

end UpdateRequest

end NextepAgent
