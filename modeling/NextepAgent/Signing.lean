import NextepAgent.NudgeRule

/-!
# What a signer gets

A nudge is written in one place and checked in another. The writer puts the timestamp in decimals into
`X-Ts`, and into `X-Sig` what it has signed in base64url. The checker reads the number back, with
`int`, and writes the canonical string anew, so that it has to come to the same bytes.

It does, for every timestamp that `int` reads at all. So of a nudge that is written like this, with
whatever secret and for whatever message, exactly this is checked: that it is recent, and that the hash
of what is checked is the hash of what was signed.

## Main definitions

* `Latin1.ofChars` — text that is sent in a header
* `UpdateRequest.signedBy` — a nudge as it is written

## Main results

* `Latin1.int_renderInt` — `int(str(n)) = n`, up to 4300 digits
* `UpdateRequest.update_signedBy` — what becomes of a nudge
-/

namespace NextepAgent

/-! ### Text in headers -/

namespace Latin1

/-- Text with characters below 256. -/
def ofChars (cs : List Char) : Latin1 := cs.map fun c => UInt8.ofNat c.toNat

theorem toNat_ofChar {c : Char} (hc : c.toNat < 256) : (UInt8.ofNat c.toNat).toNat = c.toNat :=
  UInt8.toNat_ofNat_of_lt hc

theorem chars_ofChars {cs : List Char} (h : ∀ c ∈ cs, c.toNat < 256) : (ofChars cs).chars = cs := by
  rw [ofChars, chars, List.map_map]
  refine (List.map_congr_left fun c hc => ?_).trans (List.map_id cs)
  show Char.ofNat (UInt8.ofNat c.toNat).toNat = c
  rw [toNat_ofChar (h c hc), Char.ofNat_toNat]

theorem toNat_of_isDigit {c : Char} (hc : c.isDigit = true) : 48 ≤ c.toNat ∧ c.toNat ≤ 57 := by
  simp only [Char.isDigit, Bool.and_eq_true, decide_eq_true_eq] at hc
  exact ⟨UInt32.le_iff_toNat_le.mp hc.1, UInt32.le_iff_toNat_le.mp hc.2⟩

/-- The byte of a digit. -/
theorem digit?_ofChar {c : Char} (hc : c.isDigit = true) :
    digit? (UInt8.ofNat c.toNat) = some (c.toNat - 48) := by
  have hrange := toNat_of_isDigit hc
  have hnat := toNat_ofChar (c := c) (by omega)
  rw [digit?, if_pos, hnat]
  simp only [Bool.and_eq_true, decide_eq_true_eq, UInt8.le_iff_toNat_le, hnat]
  exact hrange

/-- Digits are read one by one: none is an underscore. -/
theorem digits?_ofChars {cs : List Char} (hne : cs ≠ []) (h : ∀ c ∈ cs, c.isDigit = true) :
    digits? (ofChars cs) = some (cs.map fun c => c.toNat - 48) := by
  induction cs with
  | nil => exact absurd rfl hne
  | cons c cs ih =>
    obtain ⟨hc, hcs⟩ := List.forall_mem_cons.mp h
    cases cs with
    | nil =>
      rw [ofChars, List.map_singleton, digits?, digit?_ofChar hc]
      rfl
    | cons d cs =>
      have hrest := ih (List.cons_ne_nil d cs) hcs
      have hd := digit?_ofChar (hcs d List.mem_cons_self)
      have hne : (UInt8.ofNat d.toNat == 95) = false := by
        rw [beq_eq_false_iff_ne]
        intro hunder
        rw [hunder] at hd
        cases hd
      rw [ofChars, List.map_cons] at hrest
      rw [ofChars, List.map_cons, List.map_cons, digits?, digit?_ofChar hc, hne]
      simp only [Bool.false_eq_true, if_false, hrest]
      rfl

theorem foldl_digits (cs : List Char) (init : ℕ) :
    (cs.map fun c => c.toNat - 48).foldl (fun n d => 10 * n + d) init =
      Nat.ofDigitChars 10 cs init := by
  rw [List.foldl_map, Nat.ofDigitChars_eq_foldl]
  rfl

/-- Bytes that are no blanks are not stripped. -/
theorem strip_eq_self {s : Latin1} (h : ∀ b ∈ s, isBlank b = false) :
    (s.dropWhile isBlank).rdropWhile isBlank = s := by
  have hleft : s.dropWhile isBlank = s := by
    cases s with
    | nil => rfl
    | cons b s => exact List.dropWhile_cons_of_neg (by simp [h b List.mem_cons_self])
  rw [hleft, List.rdropWhile_eq_self_iff]
  intro hne hblank
  rw [h _ (List.getLast_mem hne)] at hblank
  cases hblank

/-- No byte of a number is a blank. -/
theorem isBlank_ofChar {c : Char} (hc : c.isDigit = true ∨ c = '-') :
    isBlank (UInt8.ofNat c.toNat) = false := by
  rcases hc with hc | rfl
  · have hrange := toNat_of_isDigit hc
    have hnat := toNat_ofChar (c := c) (by omega)
    rw [Bool.eq_false_iff]
    intro hblank
    simp only [isBlank, Bool.or_eq_true, Bool.and_eq_true, decide_eq_true_eq, beq_iff_eq,
      UInt8.le_iff_toNat_le, ← UInt8.toNat_inj, hnat, UInt8.reduceToNat] at hblank
    omega
  · decide

theorem signed_ofChars {cs : List Char} (h : ∀ c ∈ cs, c.isDigit = true) :
    signed (ofChars cs) = (1, ofChars cs) := by
  cases cs with
  | nil => rfl
  | cons c cs =>
    have hd := digit?_ofChar (h c List.mem_cons_self)
    rw [ofChars, List.map_cons, signed]
    · intro rest hrest
      rw [(List.cons.inj hrest).1] at hd
      cases hd
    · intro rest hrest
      rw [(List.cons.inj hrest).1] at hd
      cases hd

/-- **Numbers are read back**, if they have no more digits than `int` takes. -/
theorem int_renderInt {n : ℤ} (hn : (Nat.toDigits 10 n.natAbs).length ≤ 4300) :
    (ofChars (renderInt n)).int = .ok n := by
  have hdigits : ∀ c ∈ Nat.toDigits 10 n.natAbs, c.isDigit = true := fun c hc =>
    isDigit_of_mem_toDigits hc
  have hblank : ∀ b ∈ ofChars (renderInt n), isBlank b = false := by
    intro b hb
    obtain ⟨c, hc, rfl⟩ := List.mem_map.mp hb
    refine isBlank_ofChar ?_
    rw [renderInt] at hc
    split at hc
    · rcases List.mem_cons.mp hc with rfl | hc
      · exact .inr rfl
      · exact .inl (hdigits c hc)
    · exact .inl (hdigits c hc)
  have hsigned : signed (ofChars (renderInt n)) =
      (if n < 0 then -1 else 1, ofChars (Nat.toDigits 10 n.natAbs)) := by
    rw [renderInt]
    split
    · rfl
    · exact signed_ofChars hdigits
  have hvalue : Nat.ofDigitChars 10 (Nat.toDigits 10 n.natAbs) 0 = n.natAbs :=
    Nat.ofDigitChars_ten_toDigits
  rw [int, strip_eq_self hblank, hsigned]
  simp only [digits?_ofChars Nat.toDigits_ne_nil hdigits, List.length_map, if_neg (not_lt.mpr hn),
    foldl_digits, hvalue]
  congr 1
  split <;> omega

end Latin1

/-! ### Signatures in headers -/

theorem Base64.ascii_of_mem {bs : List UInt8} {c : Char} (hc : c ∈ Base64.encodeNoPad bs) :
    c.toNat < 128 := by
  have hall : Base64.alphabet.all (fun c => decide (c.toNat < 128)) = true := by decide
  rw [Base64.encodeNoPad_eq] at hc
  obtain ⟨n, hn, rfl⟩ := List.mem_map.mp hc
  have hlt : n < Base64.alphabet.length := Base64.sextets_lt bs n hn
  rw [Base64.digit, List.getD_eq_getElem?_getD, List.getElem?_eq_getElem hlt]
  exact of_decide_eq_true (List.all_eq_true.mp hall _ (List.getElem_mem hlt))

/-- A signature is compared as it was written. -/
theorem compareDigest_ofChars {expected : List Char} {bs : List UInt8} :
    compareDigest expected (Latin1.ofChars (Base64.encodeNoPad bs)) =
      .ok (expected == Base64.encodeNoPad bs) := by
  have hascii : ∀ c ∈ Base64.encodeNoPad bs, c.toNat < 128 := fun c hc => Base64.ascii_of_mem hc
  rw [compareDigest_of_ascii, Latin1.chars_ofChars fun c hc => (hascii c hc).trans (by decide)]
  intro b hb
  obtain ⟨c, hc, rfl⟩ := List.mem_map.mp hb
  have hlt := hascii c hc
  rw [UInt8.lt_iff_toNat_lt, Latin1.toNat_ofChar (hlt.trans (by decide))]
  exact hlt

/-- The bytes that are signed. -/
def signedText (ts : ℤ) (nonceHex : Latin1) (msg : List Char) : Bytes :=
  (String.ofList (canonical ts nonceHex msg)).toByteArray

namespace UpdateRequest

/-- A nudge as it is written: `msg` is signed, and `body` is sent. -/
def signedBy (hmac : Hmac) (secret : Bytes) (ts : ℤ) (nonceHex : Latin1) (msg : List Char)
    (body : Bytes) : UpdateRequest where
  xTs := .ofChars (renderInt ts)
  xNonce := nonceHex
  xSig := .ofChars (sign hmac secret ts nonceHex msg)
  body := body

variable {secret secret' : Bytes} {now ts : ℤ} {nonceHex : Latin1} {msg msg' : List Char} {body : Bytes}

/-- Signatures agree when the hashes do. -/
theorem sign_eq_iff {hmac : Hmac} :
    sign hmac secret ts nonceHex msg = sign hmac secret' ts nonceHex msg' ↔
      hmac secret (signedText ts nonceHex msg) = hmac secret' (signedText ts nonceHex msg') := by
  refine ⟨fun h => ?_, fun h => congrArg (fun d : Bytes => Base64.encodeNoPad d.data.toList) h⟩
  exact ByteArray.ext (Array.toList_inj.mp (Base64.encodeNoPad_injective h))

/-- What is looked at before the signature: there is a secret and a nonce, and the nudge is recent. -/
def Heard (secret : Bytes) (nonceHex : Latin1) (now ts : ℤ) : Prop :=
  secret.isEmpty = false ∧ nonceHex ≠ [] ∧ |now - ts| ≤ 300

instance : Decidable (Heard secret nonceHex now ts) := inferInstanceAs (Decidable (_ ∧ _ ∧ _))

theorem update_of_not_heard (hts : (Nat.toDigits 10 ts.natAbs).length ≤ 4300)
    (h : ¬ Heard secret nonceHex now ts) :
    update hmacSha256 secret now (signedBy hmacSha256 secret' ts nonceHex msg body) =
      .ok .unauthorized := by
  have hcompared : ¬ Compared secret (Latin1.ofChars (renderInt ts)) nonceHex now := by
    rintro ⟨hsecret, hnonce, t, ht, hrecent⟩
    obtain rfl : ts = t := Except.ok.inj ((Latin1.int_renderInt hts).symm.trans ht)
    exact h ⟨hsecret, hnonce, hrecent⟩
  rw [update]
  simp only [signedBy, verifyNudge_of_not_compared hcompared]
  rfl

theorem update_of_heard (hts : (Nat.toDigits 10 ts.natAbs).length ≤ 4300)
    (h : Heard secret nonceHex now ts) :
    update hmacSha256 secret now (signedBy hmacSha256 secret' ts nonceHex msg body) =
      .ok (if hmacSha256 secret (signedText ts nonceHex (decodeReplace body)) =
        hmacSha256 secret' (signedText ts nonceHex msg) then .accepted else .unauthorized) := by
  obtain ⟨hsecret, hnonce, hrecent⟩ := h
  have hint : (Latin1.ofChars (renderInt ts)).int = .ok ts := Latin1.int_renderInt hts
  have hsig : Latin1.ofChars (sign hmacSha256 secret' ts nonceHex msg) ≠ [] := by
    intro hnil
    have hsign : sign hmacSha256 secret' ts nonceHex msg = [] := List.map_eq_nil_iff.mp hnil
    exact hmacSha256_ne_empty _ _
      (Base64.encodeNoPad_injective (hsign.trans (Base64.encodeNoPad_eq []).symm))
  have hcompare : compareDigest (sign hmacSha256 secret ts nonceHex (decodeReplace body))
      (Latin1.ofChars (sign hmacSha256 secret' ts nonceHex msg)) =
        .ok (sign hmacSha256 secret ts nonceHex (decodeReplace body) ==
          sign hmacSha256 secret' ts nonceHex msg) := compareDigest_ofChars
  rw [update]
  simp only [signedBy]
  rw [verifyNudge_of_compared ⟨hsecret, hnonce, ts, hint, hrecent⟩ hint hsig, hcompare]
  show Except.ok _ = Except.ok _
  simp only [beq_iff_eq, sign_eq_iff]

/-- **What becomes of a nudge.** Let it be written with any secret, for any message. It is answered, and
it is accepted just if there is a secret to check it with and a nonce, its timestamp is at most five
minutes from the clock, and the hash of what is checked is the hash of what was signed. So with one
secret, and the message that is sent, it is accepted just if it is recent, and neither is empty. -/
theorem update_signedBy (secret secret' : Bytes) (now ts : ℤ)
    (hts : (Nat.toDigits 10 ts.natAbs).length ≤ 4300) (nonceHex : Latin1) :
    (∀ (msg : List Char) (body : Bytes),
      update hmacSha256 secret now (signedBy hmacSha256 secret' ts nonceHex msg body) =
        .ok (if Heard secret nonceHex now ts ∧
          hmacSha256 secret (signedText ts nonceHex (decodeReplace body)) =
            hmacSha256 secret' (signedText ts nonceHex msg) then .accepted else .unauthorized)) ∧
      ∀ body : String,
        update hmacSha256 secret now
            (signedBy hmacSha256 secret ts nonceHex body.toList body.toByteArray) =
          .ok (if Heard secret nonceHex now ts then .accepted else .unauthorized) := by
  have hgeneral : ∀ (secret' : Bytes) (msg : List Char) (body : Bytes),
      update hmacSha256 secret now (signedBy hmacSha256 secret' ts nonceHex msg body) =
        .ok (if Heard secret nonceHex now ts ∧
          hmacSha256 secret (signedText ts nonceHex (decodeReplace body)) =
            hmacSha256 secret' (signedText ts nonceHex msg) then .accepted else .unauthorized) := by
    intro secret' msg body
    by_cases hheard : Heard secret nonceHex now ts
    · rw [update_of_heard hts hheard]
      simp only [hheard, true_and]
    · rw [update_of_not_heard hts hheard]
      simp only [hheard, false_and, if_false]
  refine ⟨hgeneral secret', fun body => ?_⟩
  rw [hgeneral, decodeReplace_toByteArray]
  simp only [and_true]

/-- A nudge that is five minutes old. -/
theorem update_signedBy_demo :
    update hmacSha256 demoSecret 1700000300 (signedBy hmacSha256 demoSecret 1700000000 [97]
      "host0.example.org".toList "host0.example.org".toByteArray) = .ok .accepted :=
  (update_signedBy demoSecret demoSecret 1700000300 1700000000 (by decide) [97]).2
    "host0.example.org"

end UpdateRequest

end NextepAgent
