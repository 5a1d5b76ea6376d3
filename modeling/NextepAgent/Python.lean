import Mathlib.Data.Rat.Defs
import Mathlib.Algebra.Order.Ring.Unbundled.Rat
import Mathlib.Tactic.Common

/-!
# The parts of Python the agent leans on

Three things: which `except` clause catches which exception, how a `str` becomes the bytes of a
file and back, and what `json.loads` returns.

## Strings and files

A Python string may hold lone surrogates, which no file can. So the text handed to `write_text` is
a list of code points, `encode` can fail, and reading is *not* the inverse of writing: `read_text`
translates line ends and `write_text` on POSIX does not. What survives is `readText_encode`, for
text without carriage returns.

Strings that only ever name things (configuration values, SANs) are Lean strings.

## Numbers

`json.loads` gives `int`, `float`, and the three words `NaN`, `Infinity` and `-Infinity`. Finite
floats are rationals here. The agent compares them and never adds them up.

## Main definitions

* `Exc`, `Exc.isA` — exceptions and `isinstance`
* `Text`, `encode`, `decode`, `readText`
* `Json`, `Json.truthy`, `Json.number?`, `Json.isLe`

## Main results

* `decode_encode`, `encode_decode` — UTF-8 both ways
* `readText_encode`
-/

namespace NextepAgent

/-! ### Exceptions -/

/-- The exception classes that some `except` of the agent tells apart, and those it raises. -/
inductive ExcClass
  | keyError | indexError | typeError | valueError | unicodeDecodeError | unicodeEncodeError
  | osError | fileNotFoundError | runtimeError | recursionError | lookupError | assertionError
  | timeoutExpired
  | lexiconError | authenticationError | dnsError | dnsAuthError | dnsRecordError
  | other
  deriving DecidableEq, Repr

/-- The proper superclasses of a class, below `Exception`. -/
def ExcClass.bases : ExcClass → List ExcClass
  | .unicodeDecodeError | .unicodeEncodeError => [.valueError]
  | .fileNotFoundError => [.osError]
  | .recursionError => [.runtimeError]
  | .keyError | .indexError => [.lookupError]
  | .authenticationError => [.lexiconError]
  | .dnsAuthError | .dnsRecordError => [.dnsError]
  | _ => []

/-- An exception: its class and its message. -/
structure Exc where
  /-- The class. -/
  cls : ExcClass
  /-- `str(exc)` of what the source raises. Of what a library raises it is the gist: a decoder also
  tells the position. -/
  msg : String
  deriving DecidableEq, Repr

/-- `isinstance(e, c)`. -/
def Exc.isA (e : Exc) (c : ExcClass) : Bool := e.cls == c || e.cls.bases.contains c

/-! ### Strings and bytes -/

/-- The content of a file. -/
abbrev Bytes : Type := ByteArray

instance : DecidableEq Bytes := ByteArray.decEq

/-- A code point of a Python string. -/
inductive CodePoint
  /-- A Unicode scalar value. -/
  | scalar (c : Char)
  /-- A lone surrogate, `U+D800` plus `n`. -/
  | surrogate (n : Fin 2048)
  deriving DecidableEq

/-- A Python string. -/
abbrev Text : Type := List CodePoint

/-- A string without surrogates. -/
def Text.ofString (s : String) : Text := s.toList.map .scalar

/-- The scalar values of a text, if it has nothing else. -/
def Text.scalars? : Text → Option (List Char)
  | [] => some []
  | .scalar c :: t => (Text.scalars? t).map (c :: ·)
  | .surrogate _ :: _ => none

/-- `s.encode()`. -/
def encode (t : Text) : Except Exc Bytes :=
  match t.scalars? with
  | some cs => .ok (String.ofList cs).toByteArray
  | none => .error ⟨.unicodeEncodeError, "surrogates not allowed"⟩

/-- `b.decode()`, strict. -/
def decode (b : Bytes) : Except Exc Text :=
  match String.fromUTF8? b with
  | some s => .ok (.ofString s)
  | none => .error ⟨.unicodeDecodeError, "invalid start byte"⟩

/-- Universal newlines: every `\r\n` and every other `\r` is read as `\n`. -/
def universalNewlines : Text → Text
  | [] => []
  | .scalar '\r' :: .scalar '\n' :: t => .scalar '\n' :: universalNewlines t
  | .scalar '\r' :: t => .scalar '\n' :: universalNewlines t
  | c :: t => c :: universalNewlines t

/-- What `read_text` makes of the bytes of a file. -/
def readText (b : Bytes) : Except Exc Text := (decode b).map universalNewlines

theorem scalars?_map_scalar (cs : List Char) : Text.scalars? (cs.map .scalar) = some cs := by
  induction cs with
  | nil => rfl
  | cons c cs ih => rw [List.map_cons, Text.scalars?, ih]; rfl

theorem map_scalar_of_scalars? {t : Text} {cs : List Char} (ht : t.scalars? = some cs) :
    cs.map .scalar = t := by
  induction t generalizing cs with
  | nil => cases ht; rfl
  | cons c t ih =>
    cases c with
    | scalar c =>
      obtain ⟨cs', hcs', rfl⟩ := Option.map_eq_some_iff.mp ht
      rw [List.map_cons, ih hcs']
    | surrogate n => cases ht

theorem encode_ofString (s : String) : encode (.ofString s) = .ok s.toByteArray := by
  simp [encode, Text.ofString, scalars?_map_scalar]

theorem decode_toByteArray (s : String) : decode s.toByteArray = .ok (.ofString s) := by
  simp [decode, String.fromUTF8?, String.fromUTF8, s.isValidUTF8]

theorem encode_eq_ok {t : Text} {b : Bytes} (h : encode t = .ok b) :
    ∃ s : String, t = .ofString s ∧ b = s.toByteArray := by
  rw [encode] at h
  split at h
  · next cs hcs =>
    cases h
    exact ⟨String.ofList cs, by simp [Text.ofString, map_scalar_of_scalars? hcs], rfl⟩
  · cases h

theorem decode_eq_ok {t : Text} {b : Bytes} (h : decode b = .ok t) :
    ∃ s : String, t = .ofString s ∧ b = s.toByteArray := by
  rw [decode, String.fromUTF8?] at h
  by_cases hb : b.IsValidUTF8
  · rw [dif_pos hb] at h
    cases h
    exact ⟨String.fromUTF8 b hb, rfl, rfl⟩
  · rw [dif_neg hb] at h
    cases h

theorem decode_eq_error {b : Bytes} {e : Exc} (h : decode b = .error e) :
    e = ⟨.unicodeDecodeError, "invalid start byte"⟩ := by
  rw [decode] at h
  split at h
  · cases h
  · exact (Except.error.inj h).symm

/-- Strict decoding undoes encoding. -/
theorem decode_encode {t : Text} {b : Bytes} (h : encode t = .ok b) : decode b = .ok t := by
  obtain ⟨s, rfl, rfl⟩ := encode_eq_ok h
  exact decode_toByteArray s

/-- And encoding undoes strict decoding: UTF-8 has one spelling for each text. -/
theorem encode_decode {t : Text} {b : Bytes} (h : decode b = .ok t) : encode t = .ok b := by
  obtain ⟨s, rfl, rfl⟩ := decode_eq_ok h
  exact encode_ofString s

/-- Text without carriage returns is read as it is. -/
theorem universalNewlines_eq_self {t : Text} (ht : CodePoint.scalar '\r' ∉ t) :
    universalNewlines t = t := by
  induction t with
  | nil => rfl
  | cons c t ih =>
    have hc : c ≠ .scalar '\r' := fun h => ht (h ▸ List.mem_cons_self ..)
    rw [universalNewlines, ih fun h => ht (List.mem_cons_of_mem _ h)]
    · rintro t' rfl rfl
      exact hc rfl
    · rintro rfl
      exact hc rfl

/-- What is read is text, with its line ends translated. -/
theorem readText_eq_ok {b : Bytes} {t : Text} (h : readText b = .ok t) :
    ∃ text, decode b = .ok text ∧ universalNewlines text = t := by
  rw [readText] at h
  cases hdecode : decode b with
  | error e => rw [hdecode] at h; cases h
  | ok text =>
    rw [hdecode] at h
    exact ⟨text, rfl, Except.ok.inj h⟩

/-- **Reading back what was written**, for text without carriage returns. -/
theorem readText_encode {t : Text} {b : Bytes} (h : encode t = .ok b)
    (ht : CodePoint.scalar '\r' ∉ t) : readText b = .ok t := by
  rw [readText, decode_encode h, Except.map, universalNewlines_eq_self ht]

/-! ### JSON values -/

/-- What `json.loads` makes of a number with a fraction or an exponent, and of the three words it
takes besides. -/
inductive PyFloat
  | finite (q : ℚ)
  | inf
  | negInf
  | nan
  deriving DecidableEq

/-- A value as `json.loads` returns it. -/
inductive Json
  | null
  | bool (b : Bool)
  | int (n : ℤ)
  | float (x : PyFloat)
  | str (s : String)
  | arr (xs : List Json)
  | obj (fields : List (String × Json))

mutual

/-- Equality of JSON values is decidable. -/
def Json.decEq : (a b : Json) → Decidable (a = b)
  | .null, b => match b with
    | .null => isTrue rfl
    | .bool _ | .int _ | .float _ | .str _ | .arr _ | .obj _ => isFalse nofun
  | .bool x, b => match b with
    | .bool y => decidable_of_iff (x = y) (by simp)
    | .null | .int _ | .float _ | .str _ | .arr _ | .obj _ => isFalse nofun
  | .int x, b => match b with
    | .int y => decidable_of_iff (x = y) (by simp)
    | .null | .bool _ | .float _ | .str _ | .arr _ | .obj _ => isFalse nofun
  | .float x, b => match b with
    | .float y => decidable_of_iff (x = y) (by simp)
    | .null | .bool _ | .int _ | .str _ | .arr _ | .obj _ => isFalse nofun
  | .str x, b => match b with
    | .str y => decidable_of_iff (x = y) (by simp)
    | .null | .bool _ | .int _ | .float _ | .arr _ | .obj _ => isFalse nofun
  | .arr x, b => match b with
    | .arr y => match Json.decEqList x y with
      | isTrue h => isTrue (h ▸ rfl)
      | isFalse h => isFalse fun e => h (Json.arr.inj e)
    | .null | .bool _ | .int _ | .float _ | .str _ | .obj _ => isFalse nofun
  | .obj x, b => match b with
    | .obj y => match Json.decEqFields x y with
      | isTrue h => isTrue (h ▸ rfl)
      | isFalse h => isFalse fun e => h (Json.obj.inj e)
    | .null | .bool _ | .int _ | .float _ | .str _ | .arr _ => isFalse nofun

/-- `Json.decEq` on the elements of an array. -/
def Json.decEqList : (xs ys : List Json) → Decidable (xs = ys)
  | [], [] => isTrue rfl
  | [], _ :: _ | _ :: _, [] => isFalse nofun
  | x :: xs, y :: ys =>
    match Json.decEq x y, Json.decEqList xs ys with
    | isTrue h, isTrue h' => isTrue (h ▸ h' ▸ rfl)
    | isFalse h, _ => isFalse fun e => h (List.cons.inj e).1
    | _, isFalse h => isFalse fun e => h (List.cons.inj e).2

/-- `Json.decEq` on the entries of an object. -/
def Json.decEqFields : (xs ys : List (String × Json)) → Decidable (xs = ys)
  | [], [] => isTrue rfl
  | [], _ :: _ | _ :: _, [] => isFalse nofun
  | (k, x) :: xs, (l, y) :: ys =>
    match instDecidableEqString k l, Json.decEq x y, Json.decEqFields xs ys with
    | isTrue h, isTrue h', isTrue h'' => isTrue (h ▸ h' ▸ h'' ▸ rfl)
    | isFalse h, _, _ => isFalse fun e => h (Prod.mk.inj (List.cons.inj e).1).1
    | _, isFalse h, _ => isFalse fun e => h (Prod.mk.inj (List.cons.inj e).1).2
    | _, _, isFalse h => isFalse fun e => h (List.cons.inj e).2

end

instance : DecidableEq Json := Json.decEq

/-- `bool(v)`. -/
def Json.truthy : Json → Bool
  | .null => false
  | .bool b => b
  | .int n => n != 0
  | .float (.finite q) => q != 0
  | .float _ => true
  | .str s => s != ""
  | .arr xs => !xs.isEmpty
  | .obj fields => !fields.isEmpty

/-- `f"{v}"`, where `str` is `str(v)` of what is not a string. -/
def Json.format (str : Json → String) : Json → String
  | .str s => s
  | v => str v

/-- The number a value is, for the values that are numbers. `True` is `1`. -/
def Json.number? : Json → Option PyFloat
  | .bool b => some (.finite (if b then 1 else 0))
  | .int n => some (.finite n)
  | .float x => some x
  | _ => none

/-- `n <= x`. Nothing is below `nan`. -/
def PyFloat.isLe (n : ℤ) : PyFloat → Bool
  | .finite q => (n : ℚ) ≤ q
  | .inf => true
  | .negInf => false
  | .nan => false

/-- `n <= v`, for an integer `n` and whatever `v` is. -/
def Json.isLe (n : ℤ) (v : Json) : Except Exc Bool :=
  match v.number? with
  | some x => .ok (x.isLe n)
  | none => .error ⟨.typeError, "'<=' not supported between instances"⟩

end NextepAgent
