import NextepAgent.Effect.Program
import NextepAgent.Python
import Mathlib.Logic.Function.Basic

/-!
# The host a flow runs on

What `FlowRunner.run` can see and touch: the files, the clock, the CA behind `_obtain`, and the
process the post-renewal script becomes. One operation for each library call the runner makes, so
that a run can be cut between any two of them.

## What an environment decides

A `HostEnv` says, for one run, which calls raise, what the clock reads, what `_obtain` comes back
with and what becomes of the script. Within a run no call is made twice with the same arguments, so
nothing is lost by fixing the answers beforehand.

`write_text` is one call that opens, truncates and writes. Its three ways to fail are told apart:
refused at `open`, cut short after `n` bytes, and text that cannot be encoded. The last two leave
the file truncated.

## Main definitions

* `Path`, `File`, `Host` — files by path, the umask, and how often a script was launched
* `HostOp`, `hostSig`, `HostEnv`, `host` — the calls, and what they do

## Main results

* `Host.bytes_put`, `Host.bytes_setMode` — what a write does to the bytes of every file
* `host_readOnly` — the calls that change nothing
-/

namespace NextepAgent

open Effect

/-! ### Files -/

/-- A day, in microseconds, which is what instants and spans of time are counted in. -/
def day : ℤ := 86400000000

/-- `delta.days`: whole days, rounded down. -/
def days (delta : ℤ) : ℤ := delta / day

/-- `Path(dir) / f"{stem}{suffix}"`. The stem is formatted, whatever it is. -/
structure Path where
  dir : String
  stem : Json
  suffix : String
  deriving DecidableEq

/-- A path no system call accepts. -/
def Path.hasNull (p : Path) : Bool :=
  p.dir.toList.contains (Char.ofNat 0) ||
    match p.stem with
    | .str s => s.toList.contains (Char.ofNat 0)
    | _ => false

/-- A regular file. -/
structure File where
  content : Bytes
  mode : ℕ

/-- The part of the host that a run reads and changes. -/
structure Host where
  /-- The regular files. -/
  files : Path → Option File
  /-- The umask of the agent. -/
  umask : ℕ
  /-- How many times a post-renewal script has been launched. -/
  launches : ℕ

namespace Host

/-- The bytes of a file, if it is there. -/
def bytes (w : Host) (p : Path) : Option Bytes := (w.files p).map File.content

/-- Opening a file for reading. -/
def read (w : Host) (p : Path) : Except Exc Bytes :=
  if p.hasNull then .error ⟨.valueError, "embedded null byte"⟩
  else match w.bytes p with
    | some b => .ok b
    | none => .error ⟨.fileNotFoundError, "No such file or directory"⟩

/-- `read_text()`. -/
def readText (w : Host) (p : Path) : Except Exc Text := w.read p >>= NextepAgent.readText

/-- Open for writing and leave `b`: the mode is kept, or taken from the umask. -/
def put (w : Host) (p : Path) (b : Bytes) : Host :=
  { w with
    files := Function.update w.files p
      (some ⟨b, ((w.files p).map File.mode).getD (0o666 &&& (0o777 ^^^ w.umask))⟩) }

/-- Set the permission bits. -/
def setMode (w : Host) (p : Path) (mode : ℕ) : Host :=
  { w with files := Function.update w.files p ((w.files p).map fun f => { f with mode }) }

/-- One more launch. -/
def launch (w : Host) : Host := { w with launches := w.launches + 1 }

@[simp] theorem launches_put (w : Host) (p : Path) (b : Bytes) :
    (w.put p b).launches = w.launches := rfl

@[simp] theorem launches_setMode (w : Host) (p : Path) (m : ℕ) :
    (w.setMode p m).launches = w.launches := rfl

@[simp] theorem launches_launch (w : Host) : w.launch.launches = w.launches + 1 := rfl

@[simp] theorem bytes_launch (w : Host) (p : Path) : w.launch.bytes p = w.bytes p := rfl

theorem bytes_put (w : Host) (p q : Path) (b : Bytes) :
    (w.put p b).bytes q = if q = p then some b else w.bytes q := by
  by_cases hq : q = p
  · subst hq; simp [bytes, put]
  · simp [bytes, put, hq]

@[simp] theorem bytes_put_self (w : Host) (p : Path) (b : Bytes) :
    (w.put p b).bytes p = some b := by simp [bytes_put]

theorem bytes_put_of_ne (w : Host) {p q : Path} (b : Bytes) (hq : q ≠ p) :
    (w.put p b).bytes q = w.bytes q := by simp [bytes_put, hq]

@[simp] theorem bytes_setMode (w : Host) (p q : Path) (m : ℕ) :
    (w.setMode p m).bytes q = w.bytes q := by
  by_cases hq : q = p
  · subst hq; simp [bytes, setMode, Function.comp_def]
  · simp [bytes, setMode, Function.update_of_ne hq]

theorem bytes_of_files {w : Host} {p : Path} {f : File} (h : w.files p = some f) :
    w.bytes p = some f.content := by
  rw [bytes, h, Option.map_some]

/-- What is read of a file that is there. -/
theorem readText_of_bytes {w : Host} {p : Path} {b : Bytes} (hnull : p.hasNull = false)
    (hb : w.bytes p = some b) : w.readText p = NextepAgent.readText b := by
  simp only [readText, read, hnull, hb]
  rfl

theorem readText_of_text {w : Host} {p : Path} {b : Bytes} {t : Text} (hnull : p.hasNull = false)
    (hb : w.bytes p = some b) (hdecode : decode b = .ok t) :
    w.readText p = .ok (universalNewlines t) := by
  rw [readText_of_bytes hnull hb, NextepAgent.readText, hdecode]
  rfl

/-- And of one that is not there. -/
theorem readText_of_absent {w : Host} {p : Path} (hnull : p.hasNull = false)
    (habsent : w.bytes p = none) :
    w.readText p = .error ⟨.fileNotFoundError, "No such file or directory"⟩ := by
  simp only [readText, read, hnull, habsent]
  rfl

/-- Reading depends on the bytes only. -/
theorem read_congr {w w' : Host} {p : Path} (h : w.bytes p = w'.bytes p) : w.read p = w'.read p := by
  simp only [read, h]

theorem readText_congr {w w' : Host} {p : Path} (h : w.bytes p = w'.bytes p) :
    w.readText p = w'.readText p := by
  simp only [readText, read_congr h]

theorem read_eq_ok {w : Host} {p : Path} {b : Bytes} (h : w.read p = .ok b) :
    p.hasNull = false ∧ w.bytes p = some b := by
  rw [read] at h
  cases hp : p.hasNull with
  | true => simp [hp] at h
  | false => cases hb : w.bytes p <;> simp_all

end Host

/-! ### Calls -/

/-- A finished process, as `subprocess.run(text=True)` returns it. -/
structure CompletedProcess where
  returncode : ℤ
  stdout : Text
  stderr : Text

/-- The library calls of a run. -/
inductive HostOp
  | readBytes (p : Path)
  | pathExists (p : Path)
  | utcnow
  | obtain
  /-- `path.parent.mkdir(parents=True, exist_ok=True)`. -/
  | mkdirParents (p : Path)
  | readText (p : Path)
  | writeText (p : Path) (content : Text)
  | chmod (p : Path) (mode : ℕ)
  /-- `subprocess.run(script, shell=True, capture_output=True, text=True, timeout=120)`. -/
  | runScript (script : Json)
  deriving DecidableEq

/-- What each call returns. -/
abbrev HostOp.Ans : HostOp → Type
  | .readBytes _ => Bytes
  | .pathExists _ => Bool
  | .utcnow => ℤ
  | .obtain => Text × Text
  | .mkdirParents _ => Unit
  | .readText _ => Text
  | .writeText _ _ => Unit
  | .chmod _ _ => Unit
  | .runScript _ => CompletedProcess

/-- The calls of a run, as a signature. -/
abbrev hostSig : Sig := ⟨HostOp, HostOp.Ans⟩

/-- A program of the flow runner. -/
abbrev Runner (α : Type) : Type := Program Exc hostSig α

/-- One library call. -/
def sys (o : HostOp) : Runner o.Ans := @Program.perform Exc hostSig o

@[simp] theorem eval_sys {σ : Type} (h : Handler Exc hostSig σ) (o : HostOp) (s : σ) :
    Program.eval h (sys o) s = h o s :=
  @Program.eval_perform Exc hostSig σ h o s

@[simp] theorem trace_sys {σ : Type} (h : Handler Exc hostSig σ) (o : HostOp) (s : σ) :
    Program.trace h (sys o) s = [o] :=
  @Program.trace_perform Exc hostSig σ h o s

@[simp] theorem always_sys {σ : Type} {I : σ → Prop} (h : Handler Exc hostSig σ) (o : HostOp)
    (s : σ) : Program.Always h I (sys o) s ↔ I s ∧ I (h o s).2 :=
  @Program.always_perform Exc hostSig σ h I o s

theorem uses_sys {A : (o : HostOp) → Except Exc o.Ans → Prop} {Q : HostOp → Prop} {o : HostOp}
    (ho : Q o) : (sys o).Uses A Q :=
  Program.uses_perform ho

/-- What becomes of a `write_text`. -/
inductive WriteFault
  | works
  /-- `open` raises. -/
  | refused (e : Exc)
  /-- The file is truncated, `n` bytes of the new content reach it, and the call raises. -/
  | torn (n : ℕ) (e : Exc)

/-- What becomes of the script. -/
inductive ScriptRun
  /-- No process is created, so that nothing can time out. -/
  | refused (e : Exc) (h : e.isA .timeoutExpired = false)
  | exited (code : ℤ) (stdout stderr : Bytes)
  | timedOut

/-- Whether there was a process at all. -/
def ScriptRun.launched : ScriptRun → Bool
  | .refused _ _ => false
  | .exited _ _ _ => true
  | .timedOut => true

/-- What `subprocess.run` returns. Its `text=True` decodes both streams. -/
def ScriptRun.result : ScriptRun → Except Exc CompletedProcess
  | .refused e _ => .error e
  | .exited code out err => do return ⟨code, ← readText out, ← readText err⟩
  | .timedOut => .error ⟨.timeoutExpired, "timed out after 120 seconds"⟩

/-- What the environment does during one run. -/
structure HostEnv where
  readBytes : Path → Option Exc
  pathExists : Path → Option Exc
  utcnow : ℤ
  obtain : Except Exc (Text × Text)
  mkdirParents : Path → Option Exc
  readText : Path → Option Exc
  writeText : Path → WriteFault
  chmod : Path → Option Exc
  runScript : ScriptRun

/-- A call that may be made to raise. -/
def faulty {α : Type} (fault : Option Exc) (r : Except Exc α) : Except Exc α :=
  match fault with
  | some e => .error e
  | none => r

@[simp] theorem faulty_none {α : Type} (r : Except Exc α) : faulty none r = r := rfl

@[simp] theorem faulty_some {α : Type} (e : Exc) (r : Except Exc α) :
    faulty (some e) r = .error e := rfl

/-- The bytes that a write cut short after `n` bytes leaves. -/
def partialBytes (content : Text) (n : ℕ) : Bytes :=
  match encode content with
  | .ok b => b.extract 0 n
  | .error _ => .empty

/-- The calls against `env`. -/
def host (env : HostEnv) : Handler Exc hostSig Host
  | .readBytes p, w => (faulty (env.readBytes p) (w.read p), w)
  -- `exists` answers `False` for a path that no system call accepts
  | .pathExists p, w => (faulty (env.pathExists p) (.ok (!p.hasNull && (w.bytes p).isSome)), w)
  | .utcnow, w => (.ok env.utcnow, w)
  | .obtain, w => (env.obtain, w)
  | .mkdirParents p, w =>
    (faulty (env.mkdirParents p)
      (if p.hasNull then .error ⟨.valueError, "embedded null byte"⟩ else .ok ()), w)
  | .readText p, w => (faulty (env.readText p) (w.readText p), w)
  | .writeText p content, w =>
    if p.hasNull then (.error ⟨.valueError, "embedded null byte"⟩, w)
    else match env.writeText p with
      | .refused e => (.error e, w)
      | .torn n e => (.error e, w.put p (partialBytes content n))
      | .works => match encode content with
        | .ok b => (.ok (), w.put p b)
        -- `open` has truncated the file before `write` encodes
        | .error e => (.error e, w.put p .empty)
  | .chmod p mode, w =>
    match faulty (env.chmod p) (w.read p) with
    | .ok _ => (.ok (), w.setMode p mode)
    | .error e => (.error e, w)
  | .runScript _, w => (env.runScript.result, if env.runScript.launched then w.launch else w)

/-- The calls that only look. -/
def HostOp.readOnly : HostOp → Prop
  | .readBytes _ | .pathExists _ | .utcnow | .readText _ => True
  | _ => False

theorem host_readOnly (env : HostEnv) (o : HostOp) (w : Host) (ho : o.readOnly) :
    (host env o w).2 = w := by
  cases o <;> first | rfl | exact ho.elim

/-- Sequencing after a call that only looks, and answers. -/
theorem eval_look_of_ok {env : HostEnv} {o : HostOp} {α : Type} {f : o.Ans → Runner α}
    {w : Host} {a : o.Ans} (ha : (host env o w).1 = .ok a) (ho : o.readOnly) :
    Program.eval (host env) (sys o >>= f) w = Program.eval (host env) (f a) w := by
  refine Program.eval_bind_of_ok ?_
  rw [eval_sys]
  exact Prod.ext ha (host_readOnly env o w ho)

/-- A sequence that begins with a call that only looks, and returns. -/
theorem eval_look_bind {env : HostEnv} {o : HostOp} {α : Type} {f : o.Ans → Runner α}
    {w w' : Host} {b : α} (h : Program.eval (host env) (sys o >>= f) w = (.ok b, w'))
    (ho : o.readOnly) :
    ∃ a, (host env o w).1 = .ok a ∧ Program.eval (host env) (f a) w = (.ok b, w') := by
  obtain ⟨a, w₁, ha, hf⟩ := Program.eval_bind_eq_ok.mp h
  rw [eval_sys] at ha
  have hw₁ : w₁ = w := by rw [← host_readOnly env o w ho, ha]
  subst hw₁
  exact ⟨a, congrArg Prod.fst ha, hf⟩

theorem faulty_eq_ok {α : Type} {fault : Option Exc} {r : Except Exc α} {a : α}
    (h : faulty fault r = .ok a) : fault = none ∧ r = .ok a := by
  cases fault with
  | none => exact ⟨rfl, h⟩
  | some e => cases h

end NextepAgent
