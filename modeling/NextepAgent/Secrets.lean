import NextepAgent.ChangeFlag
import NextepAgent.RefreshService
import NextepAgent.RoundTrip

/-!
# Who can read a secret while it is written

Two writers put secrets on disk: the key of a flow goes through `_write_if_changed`, and the
configuration, with the credentials of the DNS provider in it, through the `try` block of `refresh`.
Both write first and call `chmod` afterwards. Until then a file that was there has the mode it had,
and one that was not has the mode that the umask leaves. If the call raises, or the process dies
before it, that is for good.

So neither writer makes a file private that is not private to begin with, at any moment from the first
byte on.

## Parts of a secret

A file holds a part of a secret if it holds a beginning of its encoding, which is what a write that is
cut short leaves, or all of it, with whatever line ends. An empty file holds no part of anything.

## Main definitions

* `persistConfig` — the other writer, on the host
* `Private`, `HoldsPart`, `Hidden` — nobody else can read a part of the secret
* `Undisclosed` — at no step of a writer, whatever raises

## Main results

* `persistConfig_simulates` — the same steps as `RefreshService.persist`
* `undisclosed_of_private`
* `secrets_hidden_iff`
-/

namespace NextepAgent

open Effect Program FlowRunner

/-! ### The writers -/

/-- The `try` block of `refresh`, on the host: make the directory of `path`, open the file, write
`dumps(cfg)` into it, and set its mode. -/
def persistConfig (path : Path) (cfgStr : Text) : Runner Unit :=
  Program.tryCatch
    (do
      sys (.mkdirParents path)
      sys (.writeText path cfgStr)
      sys (.chmod path 0o600))
    fun e => if e.isA .osError then return () else raise e

/-- `persisted` tells what is in the file. -/
def Persists (py : Interpreter) (path : Path) (w : Host) (s : ServiceState) : Prop :=
  ∀ cfg, s.persisted = some cfg → w.bytes path = some (cfg.text py).toByteArray

/-- **One writer, twice.** When `dumps` has returned, on a host and in a service where the same steps
fail, `persistConfig` and `persist` end in the same way, and `persisted` goes on telling what is in the file. -/
theorem persistConfig_simulates {py : Interpreter} {path : Path} {cfg : AgentConfig} {env : HostEnv}
    {senv : ServiceEnv} {w : Host} {s : ServiceState} (hnull : path.hasNull = false)
    (hdumps : senv.dumps cfg = none)
    (hmakedirs : senv.makedirs = env.mkdirParents path)
    (hwrite : senv.writeConfig = env.writeText path) (hchmod : senv.chmodConfig = env.chmod path)
    (hs : Persists py path w s) :
    (eval (host env) (persistConfig path (.ofString (cfg.text py))) w).1 =
        (eval (service senv) (RefreshService.persist cfg) s).1 ∧
      Persists py path (eval (host env) (persistConfig path (.ofString (cfg.text py))) w).2
        (eval (service senv) (RefreshService.persist cfg) s).2 := by
  have hhandler : ∀ (e : Exc) (w : Host) (s : ServiceState), Persists py path w s →
      (eval (host env) (if e.isA .osError then return () else raise e : Runner Unit) w).1 =
          (eval (service senv) (if e.isA .osError then return () else raise e : Service Unit) s).1 ∧
        Persists py path
          (eval (host env) (if e.isA .osError then return () else raise e : Runner Unit) w).2
          (eval (service senv) (if e.isA .osError then return () else raise e : Service Unit) s).2 := by
    intro e w s hs
    split <;> exact ⟨rfl, hs⟩
  have hreturns : eval (service senv) (act (.dumps cfg)) s = (.ok (), s) := by
    rw [eval_act, service, hdumps]
    rfl
  rw [persistConfig, RefreshService.persist, eval_tryCatch, eval_tryCatch, eval_bind_of_ok hreturns,
    eval_bind, eval_bind, eval_sys, eval_act]
  simp only [host, service, hnull, hmakedirs, Bool.false_eq_true, if_false]
  cases env.mkdirParents path with
  | some e => exact hhandler e w s hs
  | none =>
    simp only [faulty_none]
    rw [eval_bind, eval_bind, eval_sys, eval_act]
    simp only [host, service, hnull, hwrite, Bool.false_eq_true, if_false]
    cases env.writeText path with
    | refused e => exact hhandler e w s hs
    | torn n e => exact hhandler e _ _ fun c hc => by cases hc
    | works =>
      have hread : (w.put path (cfg.text py).toByteArray).read path =
          .ok (cfg.text py).toByteArray := by simp [Host.read, hnull]
      have hput : Persists py path (w.put path (cfg.text py).toByteArray)
          { s with persisted := some cfg } := by
        rintro c ⟨⟩
        simp
      simp only [encode_ofString]
      rw [eval_sys, eval_act]
      simp only [host, service, hread, hchmod]
      cases env.chmod path with
      | some e => exact hhandler e _ _ hput
      | none =>
        refine ⟨rfl, fun c hc => ?_⟩
        show ((w.put path (cfg.text py).toByteArray).setMode path 0o600).bytes path = _
        rw [Host.bytes_setMode]
        exact hput c hc

/-! ### Hidden secrets -/

/-- No permission for the group or for others. -/
def Private (mode : ℕ) : Prop := mode &&& 0o077 = 0

instance (mode : ℕ) : Decidable (Private mode) := inferInstanceAs (Decidable (_ = _))

/-- The mode of a file that is opened for writing: the one it has, or what the umask leaves. -/
def Host.openMode (w : Host) (p : Path) : ℕ :=
  ((w.files p).map File.mode).getD (0o666 &&& (0o777 ^^^ w.umask))

/-- There is something of the secret `t` in `b`: a beginning of its encoding, or all of it, with
whatever line ends. -/
def HoldsPart (b : Bytes) (t : Text) : Prop :=
  b ≠ .empty ∧
    ((∃ whole, encode t = .ok whole ∧ b.data.toList <+: whole.data.toList) ∨ readText b = .ok t)

/-- A file that holds a part of the secret is private. -/
def Hidden (p : Path) (t : Text) (w : Host) : Prop :=
  ∀ f, w.files p = some f → HoldsPart f.content t → Private f.mode

/-- Whether a file is missing is for the host to say. -/
def Truthful (env : HostEnv) : Prop :=
  ∀ p e, env.readText p = some e → e.isA .fileNotFoundError = false

/-- After any number of steps of the writer, whatever raises, the secret is hidden. -/
def Undisclosed {α : Type} (writer : Runner α) (p : Path) (t : Text) (w : Host) : Prop :=
  ∀ env, Truthful env → ∀ n, Hidden p t (exec (host env) n writer w).2

variable {env : HostEnv} {w : Host} {p : Path} {t : Text} {b : Bytes} {mode : ℕ}

theorem undisclosed_iff {α : Type} {writer : Runner α} :
    Undisclosed writer p t w ↔ ∀ env, Truthful env → Always (host env) (Hidden p t) writer w :=
  forall₂_congr fun _ _ => always_iff_exec.symm

theorem openMode_of_files {f : File} (h : w.files p = some f) : w.openMode p = f.mode := by
  simp [Host.openMode, h]

@[simp] theorem openMode_put (w : Host) (p : Path) (b : Bytes) :
    (w.put p b).openMode p = w.openMode p := by
  simp [Host.openMode, Host.put]

theorem files_put_self (w : Host) (p : Path) (b : Bytes) :
    (w.put p b).files p = some ⟨b, w.openMode p⟩ := by
  simp [Host.put, Host.openMode]

theorem private_setMode (hmode : Private mode) (h : Private (w.openMode p)) :
    Private ((w.setMode p mode).openMode p) := by
  cases hf : w.files p with
  | none =>
    have hsame : (w.setMode p mode).openMode p = w.openMode p := by
      simp [Host.openMode, Host.setMode, hf]
    rw [hsame]
    exact h
  | some f =>
    have hset : (w.setMode p mode).openMode p = mode := by
      simp [Host.openMode, Host.setMode, hf]
    rw [hset]
    exact hmode

theorem hidden_of_private (h : Private (w.openMode p)) : Hidden p t w := by
  intro f hf _
  rw [← openMode_of_files hf]
  exact h

/-! ### Writers that start from a private file -/

/-- The calls of a writer of `p`, which sets the mode to 0600. -/
def WriterOp (p : Path) : HostOp → Prop
  | .mkdirParents _ | .readText _ => True
  | .writeText q _ => q = p
  | .chmod q mode => q = p ∧ mode = 0o600
  | _ => False

/-- None of them makes a private file public. -/
theorem private_host (o : HostOp) (w : Host) (ho : WriterOp p o) (h : Private (w.openMode p)) :
    Private ((host env o w).2.openMode p) := by
  cases o with
  | mkdirParents q => exact h
  | readText q => exact h
  | writeText q t =>
    obtain rfl : q = p := ho
    simp only [host]
    split
    · exact h
    · split
      · exact h
      · rwa [openMode_put]
      · split
        · rwa [openMode_put]
        · rwa [openMode_put]
  | chmod q mode =>
    obtain ⟨rfl, rfl⟩ : q = p ∧ mode = 0o600 := ho
    simp only [host]
    split
    · exact private_setMode (by decide) h
    · exact h
  | readBytes q => exact ho.elim
  | pathExists q => exact ho.elim
  | utcnow => exact ho.elim
  | obtain => exact ho.elim
  | runScript s => exact ho.elim

/-- **A writer that starts from a private file**, or creates one, discloses nothing. -/
theorem undisclosed_of_private {α : Type} {writer : Runner α}
    (hwriter : writer.Uses (fun _ _ => True) (WriterOp p)) (h : Private (w.openMode p)) :
    Undisclosed writer p t w :=
  undisclosed_iff.mpr fun _ _ => (hwriter.always_invariant private_host h).mono
    fun _ => hidden_of_private

theorem uses_writeKey (p : Path) (t : Text) :
    (writeIfChanged p t 0o600).Uses (fun _ _ => True) (WriterOp p) :=
  uses_writeIfChanged trivial trivial rfl ⟨rfl, rfl⟩

theorem uses_persistConfig (p : Path) (t : Text) :
    (persistConfig p t).Uses (fun _ _ => True) (WriterOp p) := by
  refine Uses.tryCatch ?_ fun e => ?_
  · have hmkdir : WriterOp p (.mkdirParents p) := trivial
    have hwrite : WriterOp p (.writeText p t) := rfl
    have hchmod : WriterOp p (.chmod p 0o600) := ⟨rfl, rfl⟩
    exact (uses_sys hmkdir).bind fun _ => (uses_sys hwrite).bind fun _ => uses_sys hchmod
  · split <;> trivial

/-! ### Writers that do not -/

/-- A host where everything works but `chmod`. -/
def noChmod : HostEnv :=
  { demoEnv 0 (.ok ([], [])) with
    chmod := fun _ => some ⟨.osError, "Operation not permitted"⟩ }

theorem truthful_noChmod : Truthful noChmod := fun p e h => by cases h

/-- On that host a key that is not there yet is written, and left with the mode it has. -/
theorem apply_writeEnd_noChmod (hnull : p.hasNull = false) (henc : encode t = .ok b)
    (hreads : (eval (host noChmod) (readsAs p t) w).1 = .ok false) :
    (writeEnd noChmod w p t).apply p 0o600 w = w.put p b := by
  have hmkdir : (host noChmod (.mkdirParents p) w).1 = .ok () := by
    simp [host, noChmod, demoEnv, hnull]
  rw [writeEnd, hmkdir, hreads]
  simp [overwriteEnd, noChmod, demoEnv, henc, WriteEnd.apply]

theorem readsAs_noChmod (w : Host) (p : Path) (t : Text) :
    (eval (host noChmod) (readsAs p t) w).1 =
      match w.readText p with
      | .ok old => .ok (old == t)
      | .error e => if e.isA .fileNotFoundError then .ok false else .error e := by
  have hread : ((host noChmod (.readText p) w).1 : Except Exc Text) = w.readText p := rfl
  rw [eval_readsAs, hread]
  cases w.readText p <;> rfl

theorem holdsPart_whole (henc : encode t = .ok b) (hb : b ≠ .empty) : HoldsPart b t :=
  ⟨hb, .inl ⟨b, henc, List.prefix_rfl⟩⟩

/-- What has been written has to be private already. -/
theorem private_of_hidden_put (henc : encode t = .ok b) (hb : b ≠ .empty)
    (h : Hidden p t (w.put p b)) : Private (w.openMode p) :=
  h _ (files_put_self w p b) (holdsPart_whole henc hb)

/-- Only an empty file reads as the text of one. -/
theorem holdsPart_of_readText (henc : encode t = .ok b) (hb : b ≠ .empty) {old : Bytes}
    (hread : readText old = .ok t) : HoldsPart old t := by
  refine ⟨?_, .inr hread⟩
  rintro rfl
  have hnil : t = [] := (Except.ok.inj hread).symm
  rw [hnil] at henc
  exact hb (Except.ok.inj henc).symm

/-- An old file that is not text stays as it is. -/
theorem undisclosed_of_not_text {f : File} {e : Exc} (hf : w.files p = some f)
    (hdecode : decode f.content = .error e) (hpart : ¬ HoldsPart f.content t) :
    Undisclosed (writeIfChanged p t mode) p t w := by
  refine undisclosed_iff.mpr fun env htruth => ?_
  have hidden : Hidden p t w := by
    intro f' hf' hpart'
    rw [hf] at hf'
    cases hf'
    exact absurd hpart' hpart
  refine always_bind.mpr ⟨(always_sys _ _ _).mpr ⟨hidden, hidden⟩, fun u s hs => ?_⟩
  obtain rfl : w = s := by
    rw [eval_sys] at hs
    exact congrArg Prod.snd hs
  refine always_bind.mpr ⟨(uses_readsAs p t).always (host_readOnly env) hidden, fun there s hs => ?_⟩
  -- the old text cannot be read, and that is no `FileNotFoundError`
  have hraises : ∃ e', ((host env (.readText p) w).1 : Except Exc Text) = .error e' ∧
      e'.isA .fileNotFoundError = false := by
    cases hfault : env.readText p with
    | some e' => exact ⟨e', by simp [host, hfault], htruth p e' hfault⟩
    | none =>
      cases hnull : p.hasNull with
      | true =>
        refine ⟨⟨.valueError, "embedded null byte"⟩, ?_, rfl⟩
        simp [host, hfault, Host.readText, Host.read, hnull, bind, Except.bind]
      | false =>
        refine ⟨e, ?_, fileNotFoundError_of_decode hdecode⟩
        simp only [host, hfault, faulty_none]
        rw [Host.readText_of_bytes hnull (Host.bytes_of_files hf), readText, hdecode]
        rfl
  obtain ⟨e', hread, hcls⟩ := hraises
  rw [eval_readsAs, hread] at hs
  simp [hcls] at hs

/-- **The key.** What is written must be private to begin with. An old file that is not text is not
overwritten, and must hold no part of the key itself. -/
theorem undisclosed_writeKey_iff (hnull : p.hasNull = false) (henc : encode t = .ok b)
    (hb : b ≠ .empty) :
    Undisclosed (writeIfChanged p t 0o600) p t w ↔
      Private (w.openMode p) ∨
        ∃ f e, w.files p = some f ∧ decode f.content = .error e ∧ ¬ HoldsPart f.content t := by
  constructor
  · intro h
    have hstart : Hidden p t w := h noChmod truthful_noChmod 0
    have hend : Hidden p t ((writeEnd noChmod w p t).apply p 0o600 w) := by
      have halways := (undisclosed_iff.mp h noChmod truthful_noChmod).eval
      rwa [eval_host_writeIfChanged] at halways
    cases hf : w.files p with
    | none =>
      have habsent : w.bytes p = none := by simp [Host.bytes, hf]
      have hreads : (eval (host noChmod) (readsAs p t) w).1 = .ok false := by
        rw [readsAs_noChmod, Host.readText_of_absent hnull habsent]
        rfl
      rw [apply_writeEnd_noChmod hnull henc hreads] at hend
      exact .inl (private_of_hidden_put henc hb hend)
    | some f =>
      have hread : w.readText p = readText f.content :=
        Host.readText_of_bytes hnull (Host.bytes_of_files hf)
      cases hdecode : decode f.content with
      | error e =>
        by_cases hpart : HoldsPart f.content t
        · rw [openMode_of_files hf]
          exact .inl (hstart f hf hpart)
        · exact .inr ⟨f, e, rfl, hdecode, hpart⟩
      | ok text =>
        refine .inl ?_
        by_cases hsame : readText f.content = .ok t
        · rw [openMode_of_files hf]
          exact hstart f hf (holdsPart_of_readText henc hb hsame)
        · have hreads : (eval (host noChmod) (readsAs p t) w).1 = .ok false := by
            rw [readsAs_noChmod, hread]
            rw [readText, hdecode] at hsame ⊢
            have hne : universalNewlines text ≠ t := fun h => hsame (congrArg Except.ok h)
            simpa [Except.map] using hne
          rw [apply_writeEnd_noChmod hnull henc hreads] at hend
          exact private_of_hidden_put henc hb hend
  · rintro (h | ⟨f, e, hf, hdecode, hpart⟩)
    · exact undisclosed_of_private (uses_writeKey p t) h
    · exact undisclosed_of_not_text hf hdecode hpart

/-! ### Secrets with nothing in them -/

theorem mem_universalNewlines {c : CodePoint} {t : Text} (h : c ∈ universalNewlines t) :
    c = .scalar '\n' ∨ c ∈ t := by
  induction t using universalNewlines.induct with
  | case1 => exact absurd h List.not_mem_nil
  | case2 t ih =>
    rw [universalNewlines] at h
    rcases List.mem_cons.mp h with rfl | h
    · exact .inl rfl
    · exact (ih h).imp_right fun h => List.mem_cons_of_mem _ (List.mem_cons_of_mem _ h)
  | case3 t hcrlf ih =>
    rw [universalNewlines] at h
    · rcases List.mem_cons.mp h with rfl | h
      · exact .inl rfl
      · exact (ih h).imp_right (List.mem_cons_of_mem _)
    · exact hcrlf
  | case4 c t hcrlf hcr ih =>
    rw [universalNewlines] at h
    · rcases List.mem_cons.mp h with rfl | h
      · exact .inr List.mem_cons_self
      · exact (ih h).imp_right (List.mem_cons_of_mem _)
    · exact hcrlf
    · exact hcr

theorem encode_of_scalars (h : ∀ c ∈ t, ∃ x, c = .scalar x) : ∃ b, encode t = .ok b := by
  obtain ⟨cs, hcs⟩ : ∃ cs, t.scalars? = some cs := by
    induction t with
    | nil => exact ⟨[], rfl⟩
    | cons c t ih =>
      obtain ⟨⟨x, rfl⟩, ht⟩ := List.forall_mem_cons.mp h
      obtain ⟨cs, hcs⟩ := ih ht
      exact ⟨x :: cs, by rw [Text.scalars?, hcs]; rfl⟩
  exact ⟨_, by rw [encode, hcs]⟩

/-- What is read can be written. -/
theorem exists_encode_of_readText (h : readText b = .ok t) : ∃ b', encode t = .ok b' := by
  obtain ⟨text, hdecode, rfl⟩ := readText_eq_ok h
  obtain ⟨s, rfl, -⟩ := decode_eq_ok hdecode
  refine encode_of_scalars fun c hc => ?_
  rcases mem_universalNewlines hc with rfl | hc
  · exact ⟨'\n', rfl⟩
  · obtain ⟨x, -, rfl⟩ := List.mem_map.mp hc
    exact ⟨x, rfl⟩

theorem eq_nil_of_universalNewlines (h : universalNewlines t = []) : t = [] := by
  cases t using universalNewlines.fun_cases with
  | case1 => rfl
  | case2 t => rw [universalNewlines] at h; cases h
  | case3 t hcrlf =>
    rw [universalNewlines] at h
    · cases h
    · exact hcrlf
  | case4 c t hcrlf hcr =>
    rw [universalNewlines] at h
    · cases h
    · exact hcrlf
    · exact hcr

/-- Only the empty file reads as the empty text. -/
theorem empty_of_readText_nil (h : readText b = .ok []) : b = .empty := by
  obtain ⟨text, hdecode, hlines⟩ := readText_eq_ok h
  rw [eq_nil_of_universalNewlines hlines] at hdecode
  exact (Except.ok.inj (encode_decode hdecode)).symm

/-- A secret that is empty, or cannot be encoded, has no parts. -/
theorem not_holdsPart (h : ∀ b, encode t = .ok b → b = .empty) (b : Bytes) : ¬ HoldsPart b t := by
  rintro ⟨hb, ⟨whole, henc, hprefix⟩ | hread⟩
  · rw [h whole henc] at hprefix
    exact hb (ByteArray.ext (Array.toList_inj.mp (List.prefix_nil.mp hprefix)))
  · obtain ⟨b', henc⟩ := exists_encode_of_readText hread
    have hnil := decode_encode henc
    rw [h b' henc] at hnil
    obtain rfl : [] = t := Except.ok.inj hnil
    exact hb (empty_of_readText_nil hread)

theorem undisclosed_of_nothing {α : Type} {writer : Runner α}
    (h : ∀ b, encode t = .ok b → b = .empty) : Undisclosed writer p t w :=
  fun _ _ _ f _ hpart => absurd hpart (not_holdsPart h f.content)

/-! ### Both writers -/

theorem text_ne_empty (py : Interpreter) (cfg : AgentConfig) : (cfg.text py).toByteArray ≠ .empty := by
  intro hempty
  have htext : cfg.text py = "" := String.toByteArray_inj.mp hempty
  rw [AgentConfig.text, Json.text, AgentConfig.asdict, render] at htext
  have hlist := congrArg String.toList htext
  rw [String.toList_ofList] at hlist
  cases hlist

/-- **The configuration.** It is always written. -/
theorem undisclosed_persistConfig_iff (hnull : p.hasNull = false) (henc : encode t = .ok b)
    (hb : b ≠ .empty) :
    Undisclosed (persistConfig p t) p t w ↔ Private (w.openMode p) := by
  refine ⟨fun h => ?_, undisclosed_of_private (uses_persistConfig p t)⟩
  have hend := (undisclosed_iff.mp h noChmod truthful_noChmod).eval
  have hstate : (eval (host noChmod) (persistConfig p t) w).2 = w.put p b := by
    have hmkdir : eval (host noChmod) (sys (.mkdirParents p)) w = (.ok (), w) := by
      rw [eval_sys]
      simp [host, noChmod, demoEnv, hnull]
    have hwrite : eval (host noChmod) (sys (.writeText p t)) w = (.ok (), w.put p b) := by
      rw [eval_sys]
      simp [host, noChmod, demoEnv, hnull, henc]
    rw [persistConfig, eval_tryCatch, eval_bind_of_ok hmkdir, eval_bind_of_ok hwrite, eval_sys]
    simp [host, noChmod, Exc.isA]
  rw [hstate] at hend
  exact private_of_hidden_put henc hb hend

/-- **Hidden secrets.** The key and the configuration are never disclosed just if their files are
private before anything is written: they exist without permissions for group and others, or they do
not exist and the umask leaves none. The exceptions are a key with nothing in it, and an old key file
that is not text and is not replaced. -/
theorem secrets_hidden_iff (w : Host) (keyOut configPath : Path) (key : Text) (py : Interpreter)
    (cfg : AgentConfig) (hkey : keyOut.hasNull = false) (hconfig : configPath.hasNull = false) :
    (Undisclosed (writeIfChanged keyOut key 0o600) keyOut key w ↔
      Private (w.openMode keyOut) ∨ (∀ b, encode key = .ok b → b = .empty) ∨
        ∃ f e, w.files keyOut = some f ∧ decode f.content = .error e ∧
          ¬ HoldsPart f.content key) ∧
    (Undisclosed (persistConfig configPath (.ofString (cfg.text py))) configPath
        (.ofString (cfg.text py)) w ↔
      Private (w.openMode configPath)) := by
  refine ⟨?_, undisclosed_persistConfig_iff hconfig (encode_ofString _) (text_ne_empty py cfg)⟩
  by_cases hnothing : ∀ b, encode key = .ok b → b = .empty
  · exact iff_of_true (undisclosed_of_nothing hnothing) (.inr (.inl hnothing))
  · push Not at hnothing
    obtain ⟨b, henc, hb⟩ := hnothing
    rw [undisclosed_writeKey_iff hkey henc hb]
    have hsome : ¬ ∀ b, encode key = .ok b → b = .empty := fun h => hb (h b henc)
    simp only [hsome, false_or]

/-- A host without files, and with the umask of a careful service. -/
def carefulHost : Host := { noFiles with umask := 0o077 }

/-- Where the configuration is kept. -/
def demoConfigPath : Path := ⟨"/etc/nextep", .str "config.json", ""⟩

theorem secrets_hidden_iff_demo :
    Undisclosed (writeIfChanged demoKey (.ofString "K") 0o600) demoKey (.ofString "K") carefulHost ∧
      Undisclosed
        (persistConfig demoConfigPath (.ofString ((slottedConfig []).text demoPython)))
        demoConfigPath (.ofString ((slottedConfig []).text demoPython)) carefulHost := by
  have hiff := secrets_hidden_iff carefulHost demoKey demoConfigPath (.ofString "K") demoPython
    (slottedConfig []) (by decide) (by decide)
  exact ⟨hiff.1.mpr (.inl (by decide)), hiff.2.mpr (by decide)⟩

/-- **A first run under the usual umask.** Both files are readable by everybody until `chmod`. -/
theorem secrets_disclosed :
    (¬ ∀ (w : Host) (keyOut : Path) (key : Text), keyOut.hasNull = false →
      Undisclosed (writeIfChanged keyOut key 0o600) keyOut key w) ∧
    ¬ ∀ (w : Host) (configPath : Path) (py : Interpreter) (cfg : AgentConfig),
      configPath.hasNull = false → Undisclosed (persistConfig configPath (.ofString (cfg.text py)))
        configPath (.ofString (cfg.text py)) w := by
  constructor
  · intro h
    have hundisclosed := h noFiles demoKey (.ofString "K") (by decide)
    rcases (undisclosed_writeKey_iff (by decide) (encode_ofString "K") (by decide)).mp hundisclosed
      with hmode | ⟨f, e, hf, -⟩
    · exact absurd hmode (by decide)
    · cases hf
  · intro h
    have hundisclosed := h noFiles demoConfigPath demoPython (slottedConfig []) (by decide)
    have hmode := (undisclosed_persistConfig_iff (by decide) (encode_ofString _)
      (text_ne_empty _ _)).mp hundisclosed
    exact absurd hmode (by decide)

end NextepAgent
