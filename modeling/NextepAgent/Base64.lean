import Mathlib.Data.List.DropRight
import Mathlib.Data.List.Induction

/-!
# Base64url

Three bytes make four digits of six bits each. A rest of two bytes makes three digits, a rest of one
makes two, and `=` fills up to a multiple of four. Without the filling nothing is lost: the number
of digits tells how many bytes the rest has.

## Main definitions

* `encode`, `encodeNoPad`
* `decode` — of digits without filling

## Main results

* `decode_encodeNoPad`
* `encodeNoPad_injective`
-/

namespace Base64

/-- The digits. -/
def alphabet : List Char :=
  "ABCDEFGHIJKLMNOPQRSTUVWXYZabcdefghijklmnopqrstuvwxyz0123456789-_".toList

/-- The digit of a value below 64. -/
def digit (n : ℕ) : Char := alphabet.getD n 'A'

/-- The value of a digit. -/
def value (c : Char) : ℕ := alphabet.idxOf c

/-- Bytes, six bits at a time. The last bits are filled up with zeros. -/
def sextets : List UInt8 → List ℕ
  | a :: b :: c :: rest =>
    a.toNat / 4 :: (a.toNat % 4 * 16 + b.toNat / 16) :: (b.toNat % 16 * 4 + c.toNat / 64) ::
      c.toNat % 64 :: sextets rest
  | [a, b] => [a.toNat / 4, a.toNat % 4 * 16 + b.toNat / 16, b.toNat % 16 * 4]
  | [a] => [a.toNat / 4, a.toNat % 4 * 16]
  | [] => []

/-- The bytes that were cut up. -/
def unsextets : List ℕ → List UInt8
  | p :: q :: r :: s :: rest =>
    .ofNat (p * 4 + q / 16) :: .ofNat (q % 16 * 16 + r / 4) :: .ofNat (r % 4 * 64 + s) ::
      unsextets rest
  | [p, q, r] => [.ofNat (p * 4 + q / 16), .ofNat (q % 16 * 16 + r / 4)]
  | [p, q] => [.ofNat (p * 4 + q / 16)]
  | _ => []

/-- The encoding, filled up. -/
def encode (bs : List UInt8) : List Char :=
  (sextets bs).map digit ++ List.replicate ((3 - bs.length % 3) % 3) '='

/-- The encoding without what it is filled up with. -/
def encodeNoPad (bs : List UInt8) : List Char := (encode bs).rdropWhile (· = '=')

/-- What digits without filling stand for. -/
def decode (cs : List Char) : List UInt8 := unsextets (cs.map value)

/-! ### Digits -/

theorem value_digit : ∀ n < 64, value (digit n) = n := by decide

theorem digit_ne_eq {n : ℕ} (hn : n < 64) : digit n ≠ '=' := by
  intro h
  have hvalue := value_digit n hn
  rw [h] at hvalue
  have hout : value '=' = 64 := by decide
  omega

theorem sextets_lt (bs : List UInt8) : ∀ n ∈ sextets bs, n < 64 := by
  induction bs using sextets.induct with
  | case1 a b c rest ih =>
    have ha := a.toNat_lt
    have hb := b.toNat_lt
    have hc := c.toNat_lt
    simp only [sextets, List.forall_mem_cons]
    exact ⟨by omega, by omega, by omega, by omega, ih⟩
  | case2 a b =>
    have ha := a.toNat_lt
    have hb := b.toNat_lt
    simp only [sextets, List.forall_mem_cons]
    exact ⟨by omega, by omega, by omega, by simp⟩
  | case3 a =>
    have ha := a.toNat_lt
    simp only [sextets, List.forall_mem_cons]
    exact ⟨by omega, by omega, by simp⟩
  | case4 => simp [sextets]

/-! ### Both ways -/

theorem unsextets_sextets (bs : List UInt8) : unsextets (sextets bs) = bs := by
  induction bs using sextets.induct with
  | case1 a b c rest ih =>
    have ha := a.toNat_lt
    have hb := b.toNat_lt
    have hc := c.toNat_lt
    have hfirst : a.toNat / 4 * 4 + (a.toNat % 4 * 16 + b.toNat / 16) / 16 = a.toNat := by omega
    have hsecond : (a.toNat % 4 * 16 + b.toNat / 16) % 16 * 16 +
        (b.toNat % 16 * 4 + c.toNat / 64) / 4 = b.toNat := by omega
    have hthird : (b.toNat % 16 * 4 + c.toNat / 64) % 4 * 64 + c.toNat % 64 = c.toNat := by omega
    rw [sextets, unsextets, hfirst, hsecond, hthird, ih, UInt8.ofNat_toNat, UInt8.ofNat_toNat,
      UInt8.ofNat_toNat]
  | case2 a b =>
    have ha := a.toNat_lt
    have hb := b.toNat_lt
    have hfirst : a.toNat / 4 * 4 + (a.toNat % 4 * 16 + b.toNat / 16) / 16 = a.toNat := by omega
    have hsecond : (a.toNat % 4 * 16 + b.toNat / 16) % 16 * 16 + b.toNat % 16 * 4 / 4 =
        b.toNat := by omega
    rw [sextets, unsextets, hfirst, hsecond, UInt8.ofNat_toNat, UInt8.ofNat_toNat]
  | case3 a =>
    have ha := a.toNat_lt
    have hfirst : a.toNat / 4 * 4 + a.toNat % 4 * 16 / 16 = a.toNat := by omega
    rw [sextets, unsextets, hfirst, UInt8.ofNat_toNat]
  | case4 => rfl

/-- No digit is `=`, so that only the filling is stripped. -/
theorem encodeNoPad_eq (bs : List UInt8) : encodeNoPad bs = (sextets bs).map digit := by
  have hstrip : ∀ (cs : List Char) (n : ℕ), (∀ c ∈ cs, c ≠ '=') →
      (cs ++ List.replicate n '=').rdropWhile (· = '=') = cs := by
    intro cs n hcs
    induction n with
    | zero =>
      rw [List.replicate_zero, List.append_nil, List.rdropWhile_eq_self_iff]
      exact fun hne h => hcs _ (List.getLast_mem hne) (of_decide_eq_true h)
    | succ n ih =>
      rw [List.replicate_succ', ← List.append_assoc, List.rdropWhile_concat_pos _ _ _ (by simp), ih]
  refine hstrip _ _ fun c hc => ?_
  obtain ⟨n, hn, rfl⟩ := List.mem_map.mp hc
  exact digit_ne_eq (sextets_lt bs n hn)

theorem decode_encodeNoPad (bs : List UInt8) : decode (encodeNoPad bs) = bs := by
  have hvalues : ((sextets bs).map digit).map value = sextets bs := by
    rw [List.map_map]
    exact (List.map_congr_left fun n hn => value_digit n (sextets_lt bs n hn)).trans (List.map_id _)
  rw [decode, encodeNoPad_eq, hvalues, unsextets_sextets]

/-- **Nothing is lost.** -/
theorem encodeNoPad_injective : Function.Injective encodeNoPad :=
  Function.LeftInverse.injective decode_encodeNoPad

end Base64
