import NextepAgent.Python

/-!
# JSON as text

`json.dumps` and `json.loads` with their default arguments. The writer puts `", "` and `": "` between
things and escapes everything that is not printable ASCII. The reader is the scanner of the standard
library: whitespace, escapes, the three words that are not JSON, and objects whose last entry wins.

## What is deliberately absent

How a finite float is written, and what a number with a fraction or an exponent is read as, are two
functions of an `Interpreter`. Nothing here looks into them. An escaped lone surrogate, which the
library lets through, is refused, because a `Json` string has none.

## What cannot be written

An integer is written and read up to a number of digits, and a value up to a depth. How deep depends
on the interpreter and on where it is called. A level of a record counts as one of a dictionary here.

## Fuel

The reader counts down a number that starts at the length of the text, and every step reads
something. A text that was written by `dumps` never runs out (`scanValue_render`).

## Main definitions

* `Json.Plain` — objects with distinct keys, and integers for numbers
* `Json.depth`, `Json.digits` — what the limits are about
* `Json.dumps`, `Json.loads`
* `Dict.set`, `Dict.ofPairs` — a dictionary from its entries

## Main results

* `scanChar_escapeChar`, `scanNumber_renderInt` — one character, one integer
* `scanValue_render` — a value, whatever follows it
* `Json.loads_text` — reading back what was written
* `Json.printable_render` — what is written is printable ASCII
-/

namespace NextepAgent

/-! ### Dictionaries from entries -/

/-- `d[k] = v`: an old key keeps its place. -/
def Dict.set : List (String × Json) → String → Json → List (String × Json)
  | [], k, v => [(k, v)]
  | (k', v') :: d, k, v => if k' = k then (k, v) :: d else (k', v') :: Dict.set d k v

/-- `dict(pairs)`. -/
def Dict.ofPairs (pairs : List (String × Json)) : List (String × Json) :=
  pairs.foldl (fun d kv => Dict.set d kv.1 kv.2) []

theorem Dict.set_of_not_mem {d : List (String × Json)} {k : String} (hk : k ∉ d.map Prod.fst)
    (v : Json) : Dict.set d k v = d ++ [(k, v)] := by
  induction d with
  | nil => rfl
  | cons kv d ih =>
    rw [List.map_cons, List.mem_cons, not_or] at hk
    rw [Dict.set, if_neg (Ne.symm hk.1), ih hk.2]
    rfl

/-- Entries with distinct keys are a dictionary already. -/
theorem Dict.ofPairs_eq_self {d : List (String × Json)} (hd : (d.map Prod.fst).Nodup) :
    Dict.ofPairs d = d := by
  have key : ∀ (d₁ d₂ : List (String × Json)), ((d₁ ++ d₂).map Prod.fst).Nodup →
      d₂.foldl (fun d kv => Dict.set d kv.1 kv.2) d₁ = d₁ ++ d₂ := by
    intro d₁ d₂
    induction d₂ generalizing d₁ with
    | nil => simp
    | cons kv d₂ ih =>
      intro hnodup
      have hk : kv.1 ∉ d₁.map Prod.fst := by
        rw [List.map_append, List.map_cons] at hnodup
        exact fun hmem => (List.nodup_append.mp hnodup).2.2 _ hmem _ (List.mem_cons_self ..) rfl
      rw [List.foldl_cons, Dict.set_of_not_mem hk, ih]
      · simp
      · simpa using hnodup
  exact key [] d hd

/-! ### Plain values -/

/-- A value whose objects have distinct keys and whose numbers are integers. -/
inductive Json.Plain : Json → Prop
  | null : Json.Plain .null
  | bool (b : Bool) : Json.Plain (.bool b)
  | int (n : ℤ) : Json.Plain (.int n)
  | str (s : String) : Json.Plain (.str s)
  | arr {xs : List Json} (h : ∀ x ∈ xs, x.Plain) : Json.Plain (.arr xs)
  | obj {d : List (String × Json)} (keys : (d.map Prod.fst).Nodup) (h : ∀ kv ∈ d, kv.2.Plain) :
    Json.Plain (.obj d)

/-- What writing and reading depend on besides the value. -/
structure Interpreter where
  /-- `float.__repr__` of a finite float. -/
  repr : ℚ → List Char
  /-- `float` of a number literal. -/
  parse : List Char → PyFloat
  /-- How deep a value may be for `asdict` and the encoder. -/
  dumpsDepth : ℕ
  /-- How deep it may be for the scanner. -/
  loadsDepth : ℕ
  /-- The scanner needs one call for a level, and `asdict` several. -/
  dumps_le_loads : dumpsDepth ≤ loadsDepth

/-! ### Limits -/

mutual

/-- The largest `leaf` in a value, where every list and dictionary around it adds `level`. -/
def Json.most (leaf : Json → ℕ) (level : ℕ) : Json → ℕ
  | .arr xs => mostItems leaf level xs + level
  | .obj d => mostFields leaf level d + level
  | v => leaf v

/-- The largest in any of these. -/
def mostItems (leaf : Json → ℕ) (level : ℕ) : List Json → ℕ
  | [] => 0
  | x :: xs => max (x.most leaf level) (mostItems leaf level xs)

/-- The largest in any of these values. -/
def mostFields (leaf : Json → ℕ) (level : ℕ) : List (String × Json) → ℕ
  | [] => 0
  | (_, v) :: d => max (v.most leaf level) (mostFields leaf level d)

end

/-- How deep lists and dictionaries are nested. -/
def Json.depth (v : Json) : ℕ := v.most (fun _ => 0) 1

/-- The digits of an integer. -/
def intDigits : Json → ℕ
  | .int n => (Nat.toDigits 10 n.natAbs).length
  | _ => 0

/-- The digits of the longest integer. -/
def Json.digits (v : Json) : ℕ := v.most intDigits 0

/-- `sys.get_int_max_str_digits()`, which is left at its default. -/
def maxStrDigits : ℕ := 4300

/-- `RecursionError`. -/
def recursionError : Exc := ⟨.recursionError, "maximum recursion depth exceeded"⟩

/-- What `int` and `str` raise of too many digits. -/
def digitsError : Exc :=
  ⟨.valueError, "Exceeds the limit (4300 digits) for integer string conversion"⟩

theorem Json.most_of_mem_arr {leaf : Json → ℕ} {level : ℕ} {x : Json} {xs : List Json}
    (hx : x ∈ xs) : x.most leaf level + level ≤ (Json.arr xs).most leaf level := by
  have hle : x.most leaf level ≤ mostItems leaf level xs := by
    induction xs with
    | nil => cases hx
    | cons y ys ih =>
      rw [mostItems]
      rcases List.mem_cons.mp hx with rfl | hx
      · exact le_max_left _ _
      · exact (ih hx).trans (le_max_right _ _)
  rw [Json.most]
  exact Nat.add_le_add_right hle level

theorem Json.most_of_mem_obj {leaf : Json → ℕ} {level : ℕ} {kv : String × Json}
    {d : List (String × Json)} (hkv : kv ∈ d) :
    kv.2.most leaf level + level ≤ (Json.obj d).most leaf level := by
  have hle : kv.2.most leaf level ≤ mostFields leaf level d := by
    induction d with
    | nil => cases hkv
    | cons kv' d ih =>
      rw [mostFields]
      rcases List.mem_cons.mp hkv with rfl | hkv
      · exact le_max_left _ _
      · exact (ih hkv).trans (le_max_right _ _)
  rw [Json.most]
  exact Nat.add_le_add_right hle level

theorem Json.depth_lt_of_mem_arr {x : Json} {xs : List Json} (hx : x ∈ xs) :
    x.depth < (Json.arr xs).depth := by
  show x.most (fun _ => 0) 1 + 1 ≤ _
  exact Json.most_of_mem_arr hx

theorem Json.depth_lt_of_mem_obj {k : String} {v : Json} {d : List (String × Json)}
    (h : (k, v) ∈ d) : v.depth < (Json.obj d).depth := by
  show v.most (fun _ => 0) 1 + 1 ≤ _
  exact Json.most_of_mem_obj h

/-! ### Writing -/

/-- `'\\u{0:04x}'.format(n)`. -/
def escapeUnit (n : ℕ) : List Char :=
  ['\\', 'u', (n / 4096 % 16).digitChar, (n / 256 % 16).digitChar, (n / 16 % 16).digitChar,
    (n % 16).digitChar]

/-- A character inside a string literal. -/
def escapeChar (c : Char) : List Char :=
  if c = '"' then ['\\', '"']
  else if c = '\\' then ['\\', '\\']
  else if c = '\n' then ['\\', 'n']
  else if c = '\r' then ['\\', 'r']
  else if c = '\t' then ['\\', 't']
  else if c = Char.ofNat 12 then ['\\', 'f']
  else if c = Char.ofNat 8 then ['\\', 'b']
  else if 0x20 ≤ c.toNat ∧ c.toNat ≤ 0x7e then [c]
  else if c.toNat < 0x10000 then escapeUnit c.toNat
  else escapeUnit (0xd800 + (c.toNat - 0x10000) / 0x400 % 0x400) ++
    escapeUnit (0xdc00 + (c.toNat - 0x10000) % 0x400)

/-- The inside of a string literal, and its closing quote. -/
def renderChars (cs : List Char) : List Char := cs.flatMap escapeChar ++ ['"']

/-- A string literal. -/
def renderString (s : String) : List Char := '"' :: renderChars s.toList

/-- An integer. -/
def renderInt (n : ℤ) : List Char :=
  if n < 0 then '-' :: Nat.toDigits 10 n.natAbs else Nat.toDigits 10 n.natAbs

/-- A float. -/
def renderFloat (py : Interpreter) : PyFloat → List Char
  | .finite q => py.repr q
  | .inf => "Infinity".toList
  | .negInf => "-Infinity".toList
  | .nan => "NaN".toList

mutual

/-- The text of a value. -/
def render (py : Interpreter) : Json → List Char
  | .null => "null".toList
  | .bool true => "true".toList
  | .bool false => "false".toList
  | .int n => renderInt n
  | .float x => renderFloat py x
  | .str s => renderString s
  | .arr [] => "[]".toList
  | .arr (x :: xs) => '[' :: (render py x ++ renderItems py xs)
  | .obj [] => "{}".toList
  | .obj ((k, v) :: d) =>
    '{' :: (renderString k ++ (':' :: ' ' :: (render py v ++ renderFields py d)))

/-- The rest of an array. -/
def renderItems (py : Interpreter) : List Json → List Char
  | [] => [']']
  | x :: xs => ',' :: ' ' :: (render py x ++ renderItems py xs)

/-- The rest of an object. -/
def renderFields (py : Interpreter) : List (String × Json) → List Char
  | [] => ['}']
  | (k, v) :: d =>
    ',' :: ' ' :: (renderString k ++ (':' :: ' ' :: (render py v ++ renderFields py d)))

end

/-- What `json.dumps` writes, if it gets through. -/
def Json.text (py : Interpreter) (v : Json) : String := String.ofList (render py v)

/-- `json.dumps(asdict(v))`. A value that is too deep is given up before anything is written. -/
def Json.dumps (py : Interpreter) (v : Json) : Except Exc String :=
  if py.dumpsDepth < v.depth then .error recursionError
  else if maxStrDigits < v.digits then .error digitsError
  else .ok (v.text py)

/-! ### Reading -/

/-- `JSONDecodeError`. -/
def jsonError (msg : String) : Exc := ⟨.valueError, msg⟩

/-- The whitespace of JSON. -/
def isJsonSpace (c : Char) : Bool := c == ' ' || c == '\t' || c == '\n' || c == '\r'

/-- Skip whitespace. -/
def skipSpace (t : List Char) : List Char := t.dropWhile isJsonSpace

/-- A hexadecimal digit, in either case. -/
def hexVal (c : Char) : Option ℕ :=
  if '0' ≤ c ∧ c ≤ '9' then some (c.toNat - '0'.toNat)
  else if 'a' ≤ c ∧ c ≤ 'f' then some (c.toNat - 'a'.toNat + 10)
  else if 'A' ≤ c ∧ c ≤ 'F' then some (c.toNat - 'A'.toNat + 10)
  else none

/-- Four hexadecimal digits. -/
def scanUnit : List Char → Except Exc (ℕ × List Char)
  | a :: b :: c :: d :: t =>
    match hexVal a, hexVal b, hexVal c, hexVal d with
    | some a, some b, some c, some d => .ok (4096 * a + 256 * b + 16 * c + d, t)
    | _, _, _, _ => .error (jsonError "Invalid \\uXXXX escape")
  | _ => .error (jsonError "Invalid \\uXXXX escape")

/-- What stands after `\\u`: one unit, or the two of a surrogate pair. -/
def scanEscape (t : List Char) : Except Exc (Char × List Char) := do
  let (n, t) ← scanUnit t
  if 0xd800 ≤ n ∧ n ≤ 0xdbff then
    match t with
    | '\\' :: 'u' :: t => do
      let (m, t) ← scanUnit t
      if 0xdc00 ≤ m ∧ m ≤ 0xdfff then
        return (Char.ofNat (0x10000 + (n - 0xd800) * 0x400 + (m - 0xdc00)), t)
      else throw (jsonError "lone surrogate")
    | _ => throw (jsonError "lone surrogate")
  else if 0xdc00 ≤ n ∧ n ≤ 0xdfff then throw (jsonError "lone surrogate")
  else return (Char.ofNat n, t)

/-- One character of a string literal. -/
def scanChar : List Char → Except Exc (Char × List Char)
  | '\\' :: 'u' :: t => scanEscape t
  | '\\' :: '"' :: t => .ok ('"', t)
  | '\\' :: '\\' :: t => .ok ('\\', t)
  | '\\' :: '/' :: t => .ok ('/', t)
  | '\\' :: 'b' :: t => .ok (Char.ofNat 8, t)
  | '\\' :: 'f' :: t => .ok (Char.ofNat 12, t)
  | '\\' :: 'n' :: t => .ok ('\n', t)
  | '\\' :: 'r' :: t => .ok ('\r', t)
  | '\\' :: 't' :: t => .ok ('\t', t)
  | '\\' :: _ => .error (jsonError "Invalid \\escape")
  | c :: t =>
    if c.toNat < 0x20 then .error (jsonError "Invalid control character at") else .ok (c, t)
  | [] => .error (jsonError "Unterminated string starting at")

/-- The inside of a string literal, and its closing quote. -/
def scanString : ℕ → List Char → Except Exc (List Char × List Char)
  | 0, _ => .error (jsonError "Unterminated string starting at")
  | _ + 1, '"' :: t => .ok ([], t)
  | n + 1, t => do
    let (c, t) ← scanChar t
    let (cs, t) ← scanString n t
    return (c :: cs, t)

/-- `(\.[0-9]+)?`. -/
def scanFraction : List Char → List Char × List Char
  | '.' :: t =>
    if (t.takeWhile Char.isDigit).isEmpty then ([], '.' :: t)
    else ('.' :: t.takeWhile Char.isDigit, t.dropWhile Char.isDigit)
  | t => ([], t)

/-- `[-+]?`. -/
def scanSign : List Char → List Char × List Char
  | '+' :: t => (['+'], t)
  | '-' :: t => (['-'], t)
  | t => ([], t)

/-- `([eE][-+]?[0-9]+)?`. -/
def scanExponent : List Char → List Char × List Char
  | c :: t =>
    let (sign, t') := scanSign t
    if (c == 'e' || c == 'E') && !(t'.takeWhile Char.isDigit).isEmpty then
      (c :: (sign ++ t'.takeWhile Char.isDigit), t'.dropWhile Char.isDigit)
    else ([], c :: t)
  | [] => ([], [])

/-- A number, from the digits of its integral part on. -/
def scanDecimals (py : Interpreter) (neg : Bool) (digits t : List Char) :
    Json × List Char :=
  let (frac, t₁) := scanFraction t
  let (exp, t₂) := scanExponent t₁
  if frac.isEmpty && exp.isEmpty then
    let n : ℤ := (Nat.ofDigitChars 10 digits 0 : ℕ)
    (.int (if neg then -n else n), t)
  else (.float (py.parse ((if neg then ['-'] else []) ++ digits ++ frac ++ exp)), t₂)

/-- An unsigned number. -/
def scanUnsigned (py : Interpreter) (neg : Bool) : List Char → Except Exc (Json × List Char)
  | '0' :: t => .ok (scanDecimals py neg ['0'] t)
  | t =>
    if (t.takeWhile Char.isDigit).isEmpty then .error (jsonError "Expecting value")
    else .ok (scanDecimals py neg (t.takeWhile Char.isDigit) (t.dropWhile Char.isDigit))

/-- A number. -/
def scanNumber (py : Interpreter) : List Char → Except Exc (Json × List Char)
  | '-' :: t => scanUnsigned py true t
  | t => scanUnsigned py false t

mutual

/-- A value, of at most this depth. -/
def scanValue (py : Interpreter) : ℕ → ℕ → List Char → Except Exc (Json × List Char)
  | 0, _, _ => .error (jsonError "Expecting value")
  | n + 1, _, '"' :: t => do
    let (cs, t) ← scanString n t
    return (.str (String.ofList cs), t)
  | n + 1, depth, '[' :: t =>
    match depth with
    | 0 => .error recursionError
    | depth + 1 =>
      match skipSpace t with
      | ']' :: t => .ok (.arr [], t)
      | t => do
        let (xs, t) ← scanItems py n depth t
        return (.arr xs, t)
  | n + 1, depth, '{' :: t =>
    match depth with
    | 0 => .error recursionError
    | depth + 1 =>
      match skipSpace t with
      | '}' :: t => .ok (.obj [], t)
      | t => do
        let (pairs, t) ← scanFields py n depth t
        return (.obj (Dict.ofPairs pairs), t)
  | _ + 1, _, 'n' :: 'u' :: 'l' :: 'l' :: t => .ok (.null, t)
  | _ + 1, _, 't' :: 'r' :: 'u' :: 'e' :: t => .ok (.bool true, t)
  | _ + 1, _, 'f' :: 'a' :: 'l' :: 's' :: 'e' :: t => .ok (.bool false, t)
  | _ + 1, _, 'N' :: 'a' :: 'N' :: t => .ok (.float .nan, t)
  | _ + 1, _, 'I' :: 'n' :: 'f' :: 'i' :: 'n' :: 'i' :: 't' :: 'y' :: t => .ok (.float .inf, t)
  | _ + 1, _, '-' :: 'I' :: 'n' :: 'f' :: 'i' :: 'n' :: 'i' :: 't' :: 'y' :: t =>
    .ok (.float .negInf, t)
  | _ + 1, _, t => do
    let (v, t) ← scanNumber py t
    -- the conversion of the literal refuses it
    if maxStrDigits < intDigits v then throw digitsError else return (v, t)

/-- The items of an array that has some. -/
def scanItems (py : Interpreter) : ℕ → ℕ → List Char → Except Exc (List Json × List Char)
  | 0, _, _ => .error (jsonError "Expecting value")
  | n + 1, depth, t => do
    let (x, t) ← scanValue py n depth t
    match skipSpace t with
    | ']' :: t => return ([x], t)
    | ',' :: t => do
      let (xs, t) ← scanItems py n depth (skipSpace t)
      return (x :: xs, t)
    | _ => throw (jsonError "Expecting ',' delimiter")

/-- The entries of an object that has some. -/
def scanFields (py : Interpreter) :
    ℕ → ℕ → List Char → Except Exc (List (String × Json) × List Char)
  | 0, _, _ => .error (jsonError "Expecting value")
  | n + 1, depth, '"' :: t => do
    let (k, t) ← scanString n t
    match skipSpace t with
    | ':' :: t => do
      let (v, t) ← scanValue py n depth (skipSpace t)
      match skipSpace t with
      | '}' :: t => return ([(String.ofList k, v)], t)
      | ',' :: t => do
        let (kvs, t) ← scanFields py n depth (skipSpace t)
        return ((String.ofList k, v) :: kvs, t)
      | _ => throw (jsonError "Expecting ',' delimiter")
    | _ => throw (jsonError "Expecting ':' delimiter")
  | _ + 1, _, _ => .error (jsonError "Expecting property name enclosed in double quotes")

end

/-- `json.loads`. -/
def Json.loads (py : Interpreter) (s : String) : Except Exc Json :=
  if s.toList.head? = some (Char.ofNat 0xfeff) then
    .error (jsonError "Unexpected UTF-8 BOM (decode using utf-8-sig)")
  else do
    let (v, t) ← scanValue py (s.toList.length + 1) py.loadsDepth (skipSpace s.toList)
    if (skipSpace t).isEmpty then return v else throw (jsonError "Extra data")

/-! ### Reading back a string -/

theorem hexVal_digitChar : ∀ d < 16, hexVal (Nat.digitChar d) = some d := by decide

theorem scanUnit_escapeUnit {n : ℕ} (hn : n < 0x10000) (t : List Char) :
    ∃ u, escapeUnit n = '\\' :: 'u' :: u ∧ scanUnit (u ++ t) = .ok (n, t) := by
  refine ⟨_, rfl, ?_⟩
  simp only [List.cons_append, List.nil_append, scanUnit,
    hexVal_digitChar _ (Nat.mod_lt _ (by decide : 0 < 16))]
  congr 2
  omega

/-- A character is no surrogate. -/
theorem toNat_not_surrogate (c : Char) :
    ¬ (0xd800 ≤ c.toNat ∧ c.toNat ≤ 0xdbff) ∧ ¬ (0xdc00 ≤ c.toNat ∧ c.toNat ≤ 0xdfff) ∧
      c.toNat < 0x110000 := by
  have hvalid : c.toNat < 0xd800 ∨ 0xdfff < c.toNat ∧ c.toNat < 0x110000 := c.valid
  omega

theorem scanEscape_of_unit {n : ℕ} {t t' : List Char} (h : scanUnit t = .ok (n, t'))
    (hhigh : ¬ (0xd800 ≤ n ∧ n ≤ 0xdbff)) (hlow : ¬ (0xdc00 ≤ n ∧ n ≤ 0xdfff)) :
    scanEscape t = .ok (Char.ofNat n, t') := by
  rw [scanEscape, h]
  simp only [bind, Except.bind, if_neg hhigh, if_neg hlow]
  rfl

theorem scanEscape_of_pair {n m : ℕ} {t t' t'' : List Char}
    (h : scanUnit t = .ok (n, '\\' :: 'u' :: t')) (h' : scanUnit t' = .ok (m, t''))
    (hhigh : 0xd800 ≤ n ∧ n ≤ 0xdbff) (hlow : 0xdc00 ≤ m ∧ m ≤ 0xdfff) :
    scanEscape t = .ok (Char.ofNat (0x10000 + (n - 0xd800) * 0x400 + (m - 0xdc00)), t'') := by
  rw [scanEscape, h]
  simp only [bind, Except.bind, if_pos hhigh, h', if_pos hlow]
  rfl

/-- A character that is written as one unit. -/
theorem scanChar_escapeUnit {c : Char} (hc : c.toNat < 0x10000) (t : List Char) :
    scanChar (escapeUnit c.toNat ++ t) = .ok (c, t) := by
  obtain ⟨u, hu, hscan⟩ := scanUnit_escapeUnit hc t
  obtain ⟨hhigh, hlow, -⟩ := toNat_not_surrogate c
  rw [hu, List.cons_append, List.cons_append, scanChar, scanEscape_of_unit hscan hhigh hlow,
    Char.ofNat_toNat]

/-- A character that is written as two. -/
theorem scanChar_surrogates {c : Char} (hc : ¬ c.toNat < 0x10000) (t : List Char) :
    scanChar (escapeUnit (0xd800 + (c.toNat - 0x10000) / 0x400 % 0x400) ++
      escapeUnit (0xdc00 + (c.toNat - 0x10000) % 0x400) ++ t) = .ok (c, t) := by
  obtain ⟨-, -, hmax⟩ := toNat_not_surrogate c
  have hhigh : 0xd800 ≤ 0xd800 + (c.toNat - 0x10000) / 0x400 % 0x400 ∧
      0xd800 + (c.toNat - 0x10000) / 0x400 % 0x400 ≤ 0xdbff := by omega
  have hlow : 0xdc00 ≤ 0xdc00 + (c.toNat - 0x10000) % 0x400 ∧
      0xdc00 + (c.toNat - 0x10000) % 0x400 ≤ 0xdfff := by omega
  have hback : 0x10000 + (0xd800 + (c.toNat - 0x10000) / 0x400 % 0x400 - 0xd800) * 0x400 +
      (0xdc00 + (c.toNat - 0x10000) % 0x400 - 0xdc00) = c.toNat := by omega
  generalize 0xd800 + (c.toNat - 0x10000) / 0x400 % 0x400 = n at *
  generalize 0xdc00 + (c.toNat - 0x10000) % 0x400 = m at *
  obtain ⟨u', hu', hscan'⟩ := scanUnit_escapeUnit (n := m) (by omega) t
  obtain ⟨u, hu, hscan⟩ := scanUnit_escapeUnit (n := n) (by omega) (escapeUnit m ++ t)
  rw [hu'] at hscan
  rw [hu, hu', List.append_assoc, List.cons_append, List.cons_append, scanChar,
    scanEscape_of_pair hscan hscan' hhigh hlow, hback, Char.ofNat_toNat]

theorem scanChar_of_printable {c : Char} (hslash : c ≠ '\\') (hc : 0x20 ≤ c.toNat)
    (t : List Char) : scanChar (c :: t) = .ok (c, t) := by
  simp only [scanChar]
  split <;> simp_all

/-- **One character**, whatever follows it. -/
theorem scanChar_escapeChar (c : Char) (t : List Char) :
    scanChar (escapeChar c ++ t) = .ok (c, t) := by
  rw [escapeChar]
  split_ifs with h₁ h₂ h₃ h₄ h₅ h₆ h₇ h₈ h₉
  · subst h₁; rfl
  · subst h₂; rfl
  · subst h₃; rfl
  · subst h₄; rfl
  · subst h₅; rfl
  · subst h₆; rfl
  · subst h₇; rfl
  · exact scanChar_of_printable h₂ h₈.1 t
  · exact scanChar_escapeUnit h₉ t
  · exact scanChar_surrogates h₉ t

/-- An escaped character does not close the literal. -/
theorem escapeChar_eq_cons (c : Char) : ∃ c' t, escapeChar c = c' :: t ∧ c' ≠ '"' := by
  rw [escapeChar]
  split_ifs with h₁ h₂ h₃ h₄ h₅ h₆ h₇ h₈ h₉
  all_goals first
    | exact ⟨_, _, rfl, h₁⟩
    | exact ⟨_, _, rfl, by decide⟩

theorem scanString_renderChars (cs : List Char) {n : ℕ} (hn : (renderChars cs).length ≤ n)
    (t : List Char) : scanString n (renderChars cs ++ t) = .ok (cs, t) := by
  induction cs generalizing n with
  | nil =>
    obtain ⟨n, rfl⟩ : ∃ m, n = m + 1 := ⟨n - 1, by simp [renderChars] at hn; omega⟩
    rfl
  | cons c cs ih =>
    have hsplit : renderChars (c :: cs) = escapeChar c ++ renderChars cs := by simp [renderChars]
    obtain ⟨c', t', hc', hquote⟩ := escapeChar_eq_cons c
    have hlen : (renderChars cs).length + 1 ≤ n := by
      rw [hsplit, hc'] at hn
      simp at hn
      omega
    obtain ⟨n, rfl⟩ : ∃ m, n = m + 1 := ⟨n - 1, by omega⟩
    have hchar := scanChar_escapeChar c (renderChars cs ++ t)
    rw [hsplit, List.append_assoc]
    rw [hc', List.cons_append] at hchar ⊢
    rw [scanString, hchar]
    · simp only [bind, Except.bind]
      rw [ih (by omega)]
      rfl
    · exact fun _ h => hquote (List.cons.inj h).1

/-! ### Reading back an integer -/

/-- What may follow a number. -/
def Stops (t : List Char) : Prop :=
  ∀ c ∈ t.head?, c.isDigit = false ∧ c ≠ '.' ∧ c ≠ 'e' ∧ c ≠ 'E'

theorem stops_nil : Stops [] := fun c hc => by simp at hc

theorem stops_cons {c : Char} (t : List Char)
    (hc : c.isDigit = false ∧ c ≠ '.' ∧ c ≠ 'e' ∧ c ≠ 'E') : Stops (c :: t) := by
  intro c' hc'
  rw [List.head?_cons, Option.mem_some] at hc'
  exact hc' ▸ hc

theorem Stops.takeWhile {t : List Char} (h : Stops t) : t.takeWhile Char.isDigit = [] := by
  cases t with
  | nil => rfl
  | cons c t => simp [(h c rfl).1]

theorem Stops.dropWhile {t : List Char} (h : Stops t) : t.dropWhile Char.isDigit = t := by
  cases t with
  | nil => rfl
  | cons c t => simp [(h c rfl).1]

theorem scanFraction_of_stops {t : List Char} (h : Stops t) : scanFraction t = ([], t) := by
  cases t with
  | nil => rfl
  | cons c t => rw [scanFraction]; exact fun _ hc => (h c rfl).2.1 (List.cons.inj hc).1

theorem scanExponent_of_stops {t : List Char} (h : Stops t) : scanExponent t = ([], t) := by
  cases t with
  | nil => rfl
  | cons c t => simp [scanExponent, (h c rfl).2.2]

theorem scanDecimals_of_stops {py : Interpreter} {neg : Bool} {digits t : List Char} (h : Stops t) :
    scanDecimals py neg digits t =
      (.int (if neg then -(Nat.ofDigitChars 10 digits 0 : ℕ) else (Nat.ofDigitChars 10 digits 0 : ℕ)),
        t) := by
  simp [scanDecimals, scanFraction_of_stops h, scanExponent_of_stops h]

/-- Only zero is written with a leading zero. -/
theorem toDigits_eq_zero_cons {n : ℕ} {t : List Char} (h : Nat.toDigits 10 n = '0' :: t) :
    n = 0 ∧ t = [] := by
  induction n using Nat.strong_induction_on generalizing t with
  | _ n ih =>
    rw [Nat.toDigits_eq_if (by decide)] at h
    split at h
    · next hn =>
      obtain ⟨hc, rfl⟩ := List.cons.inj h
      have hzero : ∀ d < 10, Nat.digitChar d = '0' → d = 0 := by decide
      exact ⟨hzero n hn hc, rfl⟩
    · next hn =>
      obtain ⟨c, ds, hds⟩ := List.exists_cons_of_ne_nil (Nat.toDigits_ne_nil (n := n / 10) (b := 10))
      rw [hds, List.cons_append] at h
      obtain ⟨rfl, -⟩ := List.cons.inj h
      have hn' := (ih (n / 10) (by omega) hds).1
      omega

theorem isDigit_of_mem_toDigits {n : ℕ} {c : Char} (hc : c ∈ Nat.toDigits 10 n) :
    c.isDigit = true :=
  Nat.isDigit_of_mem_toDigits (by decide) (by decide) hc

theorem scanUnsigned_toDigits (py : Interpreter) (neg : Bool) (n : ℕ) {t : List Char} (h : Stops t) :
    scanUnsigned py neg (Nat.toDigits 10 n ++ t) = .ok (.int (if neg then -(n : ℤ) else n), t) := by
  obtain ⟨c, ds, hds⟩ := List.exists_cons_of_ne_nil (Nat.toDigits_ne_nil (n := n) (b := 10))
  have hvalue : Nat.ofDigitChars 10 (c :: ds) 0 = n := by rw [← hds, Nat.ofDigitChars_ten_toDigits]
  by_cases hc : c = '0'
  · subst hc
    obtain ⟨rfl, rfl⟩ := toDigits_eq_zero_cons hds
    rw [hds]
    exact congrArg Except.ok (scanDecimals_of_stops h)
  · have hdigits : ∀ c' ∈ c :: ds, c'.isDigit = true := fun c' hc' =>
      isDigit_of_mem_toDigits (hds ▸ hc')
    rw [hds, List.cons_append, scanUnsigned, ← List.cons_append,
      List.takeWhile_append_of_pos hdigits, List.dropWhile_append_of_pos hdigits, h.takeWhile,
      h.dropWhile, List.append_nil, scanDecimals_of_stops h, hvalue]
    · rfl
    · exact fun _ heq => hc (List.cons.inj heq).1

/-- **One integer**, if what follows does not go on with it. -/
theorem scanNumber_renderInt (py : Interpreter) (n : ℤ) {t : List Char} (h : Stops t) :
    scanNumber py (renderInt n ++ t) = .ok (.int n, t) := by
  rw [renderInt]
  split
  · next hneg =>
    rw [List.cons_append, scanNumber, scanUnsigned_toDigits _ _ _ h]
    simp only [if_true]
    congr 3
    omega
  · next hpos =>
    obtain ⟨c, ds, hds⟩ :=
      List.exists_cons_of_ne_nil (Nat.toDigits_ne_nil (n := n.natAbs) (b := 10))
    have hscan := scanUnsigned_toDigits py false n.natAbs h
    rw [hds, List.cons_append] at hscan ⊢
    rw [scanNumber, hscan]
    · simp only [Bool.false_eq_true, if_false]
      congr 3
      omega
    · intro _ heq
      have hdigit := isDigit_of_mem_toDigits (hds ▸ List.mem_cons_self .. : c ∈ Nat.toDigits 10 n.natAbs)
      rw [(List.cons.inj heq).1] at hdigit
      exact absurd hdigit (by decide)

/-! ### Reading back a value -/

/-- What an integer begins with. -/
theorem head_of_renderInt {n : ℤ} {t u : List Char} {c : Char} (h : renderInt n ++ t = c :: u) :
    c.isDigit = true ∨ c = '-' ∧ ∀ c' u', u = c' :: u' → c'.isDigit = true := by
  obtain ⟨d, ds, hds⟩ :=
    List.exists_cons_of_ne_nil (Nat.toDigits_ne_nil (n := n.natAbs) (b := 10))
  have hd : d.isDigit = true :=
    isDigit_of_mem_toDigits (hds ▸ List.mem_cons_self .. : d ∈ Nat.toDigits 10 n.natAbs)
  rw [renderInt] at h
  split at h
  · obtain ⟨rfl, rfl⟩ := List.cons.inj h
    refine .inr ⟨rfl, fun c' u' hu => ?_⟩
    rw [hds] at hu
    exact (List.cons.inj hu).1 ▸ hd
  · rw [hds] at h
    exact .inl ((List.cons.inj h).1 ▸ hd)

theorem scanValue_renderInt {py : Interpreter} {m : ℤ} (hm : intDigits (.int m) ≤ maxStrDigits)
    (n depth : ℕ) {t : List Char} (h : Stops t) :
    scanValue py (n + 1) depth (renderInt m ++ t) = .ok (.int m, t) := by
  have hscan := scanNumber_renderInt py m h
  have hhead := @head_of_renderInt m t
  cases htext : renderInt m ++ t with
  | nil => rw [htext] at hscan; cases hscan
  | cons c u =>
    rw [htext] at hscan
    rw [scanValue, hscan]
    · simp only [bind, Except.bind, if_neg (Nat.not_lt.mpr hm)]
      rfl
    -- no other case of the scanner begins like an integer
    all_goals
      intro t' heq
      obtain ⟨rfl, rfl⟩ := List.cons.inj heq
      rcases hhead htext with hdigit | ⟨hminus, hdigit⟩
      · exact absurd hdigit (by decide)
      · first
          | exact absurd hminus (by decide)
          | exact absurd (hdigit _ _ rfl) (by decide)

theorem skipSpace_cons_of_not {c : Char} (hc : isJsonSpace c = false) (t : List Char) :
    skipSpace (c :: t) = c :: t := by
  simp [skipSpace, hc]

theorem skipSpace_space (t : List Char) : skipSpace (' ' :: t) = skipSpace t := rfl

/-- No value begins with whitespace, or like the end of an array or an object. -/
theorem head_render (py : Interpreter) {v : Json} (hv : v.Plain) :
    ∃ c t, render py v = c :: t ∧ isJsonSpace c = false ∧ c ≠ ']' ∧ c ≠ '}' := by
  cases hv with
  | null => exact ⟨'n', _, by rw [render]; rfl, by decide⟩
  | bool b =>
    cases b with
    | true => exact ⟨'t', _, by rw [render]; rfl, by decide⟩
    | false => exact ⟨'f', _, by rw [render]; rfl, by decide⟩
  | int n =>
    rw [render]
    cases htext : renderInt n with
    | nil =>
      have hscan := scanNumber_renderInt py n stops_nil
      rw [htext] at hscan
      cases hscan
    | cons c t =>
      refine ⟨c, t, rfl, ?_⟩
      have hne : ∀ c', c'.isDigit = false → c' ≠ '-' → c ≠ c' := by
        rintro _ hdigit hminus rfl
        rcases head_of_renderInt (t := []) ((List.append_nil _).trans htext) with hc | ⟨hc, -⟩
        · rw [hdigit] at hc; cases hc
        · exact hminus hc
      refine ⟨?_, hne _ (by decide) (by decide), hne _ (by decide) (by decide)⟩
      simp [isJsonSpace, hne ' ' (by decide) (by decide), hne '\t' (by decide) (by decide),
        hne '\n' (by decide) (by decide), hne '\r' (by decide) (by decide)]
  | str s => exact ⟨'"', _, by rw [render]; rfl, by decide⟩
  | @arr xs _ =>
    cases xs with
    | nil => exact ⟨'[', _, by rw [render]; rfl, by decide⟩
    | cons x xs => exact ⟨'[', _, by rw [render], by decide⟩
  | @obj d _ _ =>
    cases d with
    | nil => exact ⟨'{', _, by rw [render]; rfl, by decide⟩
    | cons kv d => exact ⟨'{', _, by rw [render], by decide⟩

theorem skipSpace_render (py : Interpreter) {v : Json} (hv : v.Plain) (t : List Char) :
    skipSpace (render py v ++ t) = render py v ++ t := by
  obtain ⟨c, u, hu, hspace, -, -⟩ := head_render py hv
  rw [hu, List.cons_append, skipSpace_cons_of_not hspace]

theorem stops_renderItems (py : Interpreter) (xs : List Json) (t : List Char) :
    Stops (renderItems py xs ++ t) := by
  cases xs with
  | nil => rw [renderItems]; exact stops_cons _ (by decide)
  | cons x xs => rw [renderItems]; exact stops_cons _ (by decide)

theorem stops_renderFields (py : Interpreter) (d : List (String × Json)) (t : List Char) :
    Stops (renderFields py d ++ t) := by
  cases d with
  | nil => rw [renderFields]; exact stops_cons _ (by decide)
  | cons kv d => rw [renderFields]; exact stops_cons _ (by decide)

/-- The value is read back at this depth, whatever follows it. -/
def Reads (py : Interpreter) (depth : ℕ) (v : Json) : Prop :=
  ∀ {n : ℕ} {t : List Char}, (render py v).length ≤ n → Stops t →
    scanValue py n depth (render py v ++ t) = .ok (v, t)

section Values

variable {py : Interpreter} {n depth : ℕ} {t : List Char}

/-- The items of an array. -/
theorem scanItems_of_reads {x : Json} {xs : List Json} (hplain : ∀ y ∈ x :: xs, y.Plain)
    (hreads : ∀ y ∈ x :: xs, Reads py depth y)
    (hn : (render py x ++ renderItems py xs).length ≤ n) :
    scanItems py n depth (render py x ++ renderItems py xs ++ t) = .ok (x :: xs, t) := by
  induction xs generalizing x n with
  | nil =>
    rw [renderItems, List.length_append, List.length_singleton] at hn
    obtain ⟨n, rfl⟩ : ∃ m, n = m + 1 := ⟨n - 1, by omega⟩
    have hx : scanValue py n depth (render py x ++ (renderItems py [] ++ t)) = _ :=
      hreads x (List.mem_cons_self ..) (by omega) (stops_renderItems py [] t)
    rw [scanItems, List.append_assoc, hx, renderItems]
    rfl
  | cons y ys ih =>
    rw [renderItems] at hn
    simp only [List.length_append, List.length_cons] at hn
    obtain ⟨n, rfl⟩ : ∃ m, n = m + 1 := ⟨n - 1, by omega⟩
    have hx : scanValue py n depth (render py x ++ (renderItems py (y :: ys) ++ t)) = _ :=
      hreads x (List.mem_cons_self ..) (by omega) (stops_renderItems py (y :: ys) t)
    have hrest : scanItems py n depth (render py y ++ renderItems py ys ++ t) = .ok (y :: ys, t) :=
      ih (fun z hz => hplain z (List.mem_cons_of_mem _ hz))
        (fun z hz => hreads z (List.mem_cons_of_mem _ hz)) (by simp; omega)
    have hy : y.Plain := hplain y (by simp)
    rw [scanItems, List.append_assoc, hx, renderItems]
    simp only [bind, Except.bind, List.cons_append, skipSpace_cons_of_not (by decide : isJsonSpace ',' = false)]
    rw [skipSpace_space, List.append_assoc, skipSpace_render py hy, ← List.append_assoc, hrest]
    rfl

/-- One entry of an object, up to what follows its value. -/
theorem scanFields_entry {k : String} {v : Json} (hplain : v.Plain) (hreads : Reads py depth v)
    (hn : (renderString k).length + (render py v).length ≤ n) (ht : Stops t) :
    scanFields py (n + 1) depth (renderString k ++ (':' :: ' ' :: (render py v ++ t))) =
      match skipSpace t with
      | '}' :: t => .ok ([(k, v)], t)
      | ',' :: t => do
        let (kvs, t) ← scanFields py n depth (skipSpace t)
        return ((k, v) :: kvs, t)
      | _ => .error (jsonError "Expecting ',' delimiter") := by
  have hk : scanString n (renderChars k.toList ++ (':' :: ' ' :: (render py v ++ t))) =
      .ok (k.toList, ':' :: ' ' :: (render py v ++ t)) :=
    scanString_renderChars _ (by simp [renderString] at hn; omega) _
  have hv : scanValue py n depth (render py v ++ t) = .ok (v, t) := hreads (by omega) ht
  rw [renderString, List.cons_append, scanFields, hk]
  simp only [bind, Except.bind, skipSpace_cons_of_not (by decide : isJsonSpace ':' = false)]
  rw [skipSpace_space, skipSpace_render py hplain, hv]
  simp only [String.ofList_toList]
  rfl

/-- The entries of an object. -/
theorem scanFields_of_reads {k : String} {v : Json} {d : List (String × Json)}
    (hplain : ∀ kv ∈ (k, v) :: d, kv.2.Plain) (hreads : ∀ kv ∈ (k, v) :: d, Reads py depth kv.2)
    (hn : (renderString k ++ (':' :: ' ' :: (render py v ++ renderFields py d))).length ≤ n) :
    scanFields py n depth (renderString k ++ (':' :: ' ' :: (render py v ++ renderFields py d)) ++ t) =
      .ok ((k, v) :: d, t) := by
  induction d generalizing k v n with
  | nil =>
    simp only [renderFields, List.length_append, List.length_cons] at hn
    obtain ⟨n, rfl⟩ : ∃ m, n = m + 1 := ⟨n - 1, by omega⟩
    have hentry := scanFields_entry (n := n) (k := k) (hplain _ (List.mem_cons_self ..))
      (hreads _ (List.mem_cons_self ..)) (by simp only; omega) (stops_renderFields py [] t)
    simp only [List.append_assoc, List.cons_append] at hentry ⊢
    rw [hentry, renderFields]
    rfl
  | cons kv d ih =>
    obtain ⟨k', v'⟩ := kv
    simp only [renderFields, List.length_append, List.length_cons] at hn
    obtain ⟨n, rfl⟩ : ∃ m, n = m + 1 := ⟨n - 1, by omega⟩
    have hentry := scanFields_entry (n := n) (k := k) (hplain _ (List.mem_cons_self ..))
      (hreads _ (List.mem_cons_self ..)) (by simp only; omega)
      (stops_renderFields py ((k', v') :: d) t)
    have hrest := ih (k := k') (v := v') (n := n)
      (fun kv hkv => hplain kv (List.mem_cons_of_mem _ hkv))
      (fun kv hkv => hreads kv (List.mem_cons_of_mem _ hkv)) (by simp; omega)
    simp only [List.append_assoc, List.cons_append] at hentry hrest ⊢
    rw [hentry, renderFields]
    simp only [bind, Except.bind, List.cons_append, List.append_assoc,
      skipSpace_cons_of_not (by decide : isJsonSpace ',' = false)]
    have hquote : skipSpace (renderString k' ++
        (':' :: ' ' :: (render py v' ++ (renderFields py d ++ t)))) = renderString k' ++
        (':' :: ' ' :: (render py v' ++ (renderFields py d ++ t))) :=
      skipSpace_cons_of_not (by decide) _
    rw [skipSpace_space, hquote, hrest]
    rfl

theorem scanValue_array {c : Char} {u t' : List Char} {xs : List Json} (hc : c ≠ ']')
    (hskip : skipSpace t = c :: u) (hitems : scanItems py n depth (c :: u) = .ok (xs, t')) :
    scanValue py (n + 1) (depth + 1) ('[' :: t) = .ok (.arr xs, t') := by
  rw [scanValue, hskip]
  split
  · next heq => exact absurd (List.cons.inj heq).1 hc
  · rw [hitems]
    rfl

theorem scanValue_object {c : Char} {u t' : List Char} {d : List (String × Json)} (hc : c ≠ '}')
    (hskip : skipSpace t = c :: u) (hfields : scanFields py n depth (c :: u) = .ok (d, t')) :
    scanValue py (n + 1) (depth + 1) ('{' :: t) = .ok (.obj (Dict.ofPairs d), t') := by
  rw [scanValue, hskip]
  split
  · next heq => exact absurd (List.cons.inj heq).1 hc
  · rw [hfields]
    rfl

/-- What is rendered is not empty, so that there is fuel for a first step. -/
theorem reads_of_succ {v : Json} (hv : v.Plain)
    (h : ∀ {n : ℕ} {t : List Char}, (render py v).length ≤ n + 1 → Stops t →
      scanValue py (n + 1) depth (render py v ++ t) = .ok (v, t)) : Reads py depth v := by
  intro n t hn ht
  obtain ⟨c, u, hu, -⟩ := head_render py hv
  have hpos : 0 < (render py v).length := by rw [hu]; exact Nat.succ_pos _
  obtain ⟨m, rfl⟩ : ∃ m, n = m + 1 := ⟨n - 1, by omega⟩
  exact h hn ht

/-- **A value** within the limits, whatever follows it. -/
theorem scanValue_render {v : Json} (hv : v.Plain) (hdepth : v.depth ≤ depth)
    (hdigits : v.digits ≤ maxStrDigits) : Reads py depth v := by
  induction hv generalizing depth with
  | null =>
    refine reads_of_succ .null fun _ _ => ?_
    simp [render, scanValue]
  | bool b =>
    refine reads_of_succ (.bool b) fun _ _ => ?_
    cases b <;> simp [render, scanValue]
  | int m =>
    refine reads_of_succ (.int m) fun _ ht => ?_
    rw [render]
    exact scanValue_renderInt hdigits _ _ ht
  | str s =>
    refine reads_of_succ (.str s) fun hn _ => ?_
    rw [render, renderString, List.length_cons] at hn
    rw [render, renderString, List.cons_append, scanValue, scanString_renderChars _ (by omega)]
    simp only [bind, Except.bind, String.ofList_toList]
    rfl
  | @arr xs hplain ih =>
    refine reads_of_succ (.arr hplain) fun {n t} hn _ => ?_
    obtain ⟨depth, rfl⟩ : ∃ d, depth = d + 1 := ⟨depth - 1, by
      have : (Json.arr xs).depth = mostItems (fun _ => 0) 1 xs + 1 := rfl
      omega⟩
    have hreads : ∀ x ∈ xs, Reads py depth x := fun x hx =>
      ih x hx (Nat.le_of_lt_succ ((Json.depth_lt_of_mem_arr hx).trans_le hdepth))
        ((Json.most_of_mem_arr hx).trans hdigits)
    cases xs with
    | nil => simp [render, scanValue, skipSpace, isJsonSpace]
    | cons x xs =>
      rw [render] at hn ⊢
      rw [List.length_cons] at hn
      have hx : x.Plain := hplain x (List.mem_cons_self ..)
      obtain ⟨c, u, hu, -, hbracket, -⟩ := head_render py hx
      have hskip : skipSpace (render py x ++ renderItems py xs ++ t) =
          c :: (u ++ renderItems py xs ++ t) := by
        rw [List.append_assoc, skipSpace_render py hx, hu]
        simp
      have hitems : scanItems py n depth (render py x ++ renderItems py xs ++ t) =
          .ok (x :: xs, t) :=
        scanItems_of_reads hplain hreads (by omega)
      rw [hu, List.cons_append, List.cons_append] at hitems
      exact scanValue_array hbracket hskip hitems
  | @obj d keys hplain ih =>
    refine reads_of_succ (.obj keys hplain) fun {n t} hn _ => ?_
    obtain ⟨depth, rfl⟩ : ∃ d, depth = d + 1 := ⟨depth - 1, by
      have : (Json.obj d).depth = mostFields (fun _ => 0) 1 d + 1 := rfl
      omega⟩
    have hreads : ∀ kv ∈ d, Reads py depth kv.2 := fun kv hkv =>
      ih kv hkv (Nat.le_of_lt_succ ((Json.depth_lt_of_mem_obj hkv).trans_le hdepth))
        ((Json.most_of_mem_obj hkv).trans hdigits)
    cases d with
    | nil => simp [render, scanValue, skipSpace, isJsonSpace]
    | cons kv d =>
      obtain ⟨k, v⟩ := kv
      rw [render] at hn ⊢
      rw [List.length_cons] at hn
      have hfields : scanFields py n depth (renderString k ++ (':' :: ' ' ::
          (render py v ++ renderFields py d)) ++ t) = .ok ((k, v) :: d, t) :=
        scanFields_of_reads hplain hreads (by omega)
      rw [List.cons_append, ← Dict.ofPairs_eq_self keys]
      exact scanValue_object (by decide) (skipSpace_cons_of_not (by decide) _) hfields

end Values

/-! ### What is written -/

/-- Printable ASCII. -/
def Printable (t : List Char) : Prop := ∀ c ∈ t, 0x20 ≤ c.toNat ∧ c.toNat ≤ 0x7e

instance (t : List Char) : Decidable (Printable t) :=
  List.decidableBAll (fun c : Char => 0x20 ≤ c.toNat ∧ c.toNat ≤ 0x7e) t

@[simp] theorem printable_nil : Printable [] := fun c hc => by simp at hc

@[simp] theorem printable_cons {c : Char} {t : List Char} :
    Printable (c :: t) ↔ (0x20 ≤ c.toNat ∧ c.toNat ≤ 0x7e) ∧ Printable t :=
  List.forall_mem_cons

@[simp] theorem printable_append {t t' : List Char} :
    Printable (t ++ t') ↔ Printable t ∧ Printable t' :=
  List.forall_mem_append

theorem printable_toDigits (n : ℕ) : Printable (Nat.toDigits 10 n) := by
  intro c hc
  have hdigit := isDigit_of_mem_toDigits hc
  rw [Char.isDigit, Bool.and_eq_true, decide_eq_true_eq, decide_eq_true_eq] at hdigit
  have hlow : 48 ≤ c.toNat := hdigit.1
  have hhigh : c.toNat ≤ 57 := hdigit.2
  omega

theorem printable_escapeUnit (n : ℕ) : Printable (escapeUnit n) := by
  have hdigit : ∀ d < 16, 0x20 ≤ (Nat.digitChar d).toNat ∧ (Nat.digitChar d).toNat ≤ 0x7e := by
    decide
  have hmod : ∀ m, m % 16 < 16 := fun m => Nat.mod_lt _ (by decide)
  simp only [escapeUnit, printable_cons, printable_nil, and_true]
  exact ⟨by decide, by decide, hdigit _ (hmod _), hdigit _ (hmod _), hdigit _ (hmod _),
    hdigit _ (hmod _)⟩

theorem printable_escapeChar (c : Char) : Printable (escapeChar c) := by
  rw [escapeChar]
  split_ifs with h₁ h₂ h₃ h₄ h₅ h₆ h₇ h₈ h₉
  · decide
  · decide
  · decide
  · decide
  · decide
  · decide
  · decide
  · exact printable_cons.mpr ⟨h₈, printable_nil⟩
  · exact printable_escapeUnit _
  · exact printable_append.mpr ⟨printable_escapeUnit _, printable_escapeUnit _⟩

theorem printable_renderString (s : String) : Printable (renderString s) := by
  refine printable_cons.mpr ⟨by decide, printable_append.mpr ⟨fun c hc => ?_, by decide⟩⟩
  obtain ⟨c', -, hc⟩ := List.mem_flatMap.mp hc
  exact printable_escapeChar c' c hc

theorem printable_renderInt (n : ℤ) : Printable (renderInt n) := by
  rw [renderInt]
  split
  · exact printable_cons.mpr ⟨by decide, printable_toDigits _⟩
  · exact printable_toDigits _

theorem printable_renderItems (py : Interpreter) {xs : List Json}
    (h : ∀ x ∈ xs, Printable (render py x)) : Printable (renderItems py xs) := by
  induction xs with
  | nil => rw [renderItems]; decide
  | cons x xs ih =>
    obtain ⟨hx, hxs⟩ := List.forall_mem_cons.mp h
    rw [renderItems, printable_cons, printable_cons, printable_append]
    exact ⟨by decide, by decide, hx, ih hxs⟩

theorem printable_renderFields (py : Interpreter) {d : List (String × Json)}
    (h : ∀ kv ∈ d, Printable (render py kv.2)) : Printable (renderFields py d) := by
  induction d with
  | nil => rw [renderFields]; decide
  | cons kv d ih =>
    obtain ⟨k, v⟩ := kv
    obtain ⟨hv, hd⟩ := List.forall_mem_cons.mp h
    simp only [renderFields, printable_cons, printable_append]
    exact ⟨by decide, by decide, printable_renderString k, by decide, by decide, hv, ih hd⟩

/-- **What is written is printable ASCII**, so that any encoding of the file will do. -/
theorem Json.printable_render (py : Interpreter) {v : Json} (hv : v.Plain) :
    Printable (render py v) := by
  induction hv with
  | null => rw [render]; decide
  | bool b => cases b <;> rw [render] <;> decide
  | int n => rw [render]; exact printable_renderInt n
  | str s => rw [render]; exact printable_renderString s
  | @arr xs _ ih =>
    cases xs with
    | nil => rw [render]; decide
    | cons x xs =>
      obtain ⟨hx, hxs⟩ := List.forall_mem_cons.mp ih
      rw [render, printable_cons, printable_append]
      exact ⟨by decide, hx, printable_renderItems py hxs⟩
  | @obj d _ _ ih =>
    cases d with
    | nil => rw [render]; decide
    | cons kv d =>
      obtain ⟨k, v⟩ := kv
      obtain ⟨hv, hd⟩ := List.forall_mem_cons.mp ih
      simp only [render, printable_cons, printable_append]
      exact ⟨by decide, printable_renderString k, by decide, by decide, hv,
        printable_renderFields py hd⟩

/-- What `json.dumps` returns is the text, and it returns within the limits. -/
theorem Json.dumps_eq_ok {py : Interpreter} {v : Json} {text : String} :
    v.dumps py = .ok text ↔
      v.depth ≤ py.dumpsDepth ∧ v.digits ≤ maxStrDigits ∧ v.text py = text := by
  rw [Json.dumps]
  split
  · next hdeep => simp [Nat.not_le.mpr hdeep]
  · next hdepth =>
    split
    · next hlong => simp [Nat.not_le.mpr hlong]
    · next hdigits => simp [Nat.not_lt.mp hdepth, Nat.not_lt.mp hdigits]

/-- **Reading back what was written.** -/
theorem Json.loads_text {py : Interpreter} {v : Json} (hv : v.Plain) (hdepth : v.depth ≤ py.loadsDepth)
    (hdigits : v.digits ≤ maxStrDigits) : Json.loads py (v.text py) = .ok v := by
  obtain ⟨c, u, hu, hspace, -⟩ := head_render py hv
  have hbom : (render py v).head? ≠ some (Char.ofNat 0xfeff) := by
    intro hhead
    have hc := Json.printable_render py hv _ (List.mem_of_mem_head? hhead)
    exact absurd hc.2 (by decide)
  have hskip : skipSpace (render py v) = render py v := by
    rw [hu, skipSpace_cons_of_not hspace]
  have hscan : scanValue py ((render py v).length + 1) py.loadsDepth (render py v ++ []) =
      .ok (v, []) :=
    scanValue_render hv hdepth hdigits (Nat.le_succ _) stops_nil
  rw [List.append_nil] at hscan
  rw [Json.loads, Json.text, String.toList_ofList, if_neg hbom, hskip, hscan]
  rfl

/-- And it is read from a file as it was written. -/
theorem Json.readText_text (py : Interpreter) {v : Json} (hv : v.Plain) {b : Bytes}
    (hb : encode (.ofString (v.text py)) = .ok b) : readText b = .ok (.ofString (v.text py)) := by
  refine readText_encode hb fun hmem => ?_
  rw [Text.ofString, Json.text, String.toList_ofList] at hmem
  obtain ⟨c, hc, hcr⟩ := List.mem_map.mp hmem
  cases hcr
  exact absurd (Json.printable_render py hv _ hc).1 (by decide)

end NextepAgent
