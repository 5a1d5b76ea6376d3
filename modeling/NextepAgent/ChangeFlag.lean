import NextepAgent.SelfHealing

/-!
# What the change flag says

`_write_if_changed` returns whether the file has changed. It compares texts, and the two texts come
about in different ways. The old one has been through `read_text`, which makes one `\n` of every line
end. The new one is as it was obtained, and is written as it is.

So the flag goes wrong in two ways. A new text with a carriage return in it never equals what is read:
it is written again at every call, and every time that counts as a change. And an old file that is the
new text with other line ends does equal it: it is left as it is, and does not hold what it should.

## Main definitions

* `FlagExact` — the file holds the content, the flag tells of a change, and the next call does nothing

## Main results

* `carriageReturn_not_mem_universalNewlines`
* `flag_exact_iff`
-/

namespace NextepAgent

open Effect Program FlowRunner

variable {env : HostEnv} {w : Host} {p : Path} {t : Text} {b : Bytes} {mode : ℕ}

/-! ### Texts as they are read -/

/-- No carriage return is ever read. -/
theorem carriageReturn_not_mem_universalNewlines (t : Text) :
    CodePoint.scalar '\r' ∉ universalNewlines t := by
  induction t using universalNewlines.induct with
  | case1 => exact List.not_mem_nil
  | case2 t ih =>
    rw [universalNewlines, List.mem_cons, not_or]
    exact ⟨by decide, ih⟩
  | case3 t hcrlf ih =>
    rw [universalNewlines, List.mem_cons, not_or]
    · exact ⟨by decide, ih⟩
    · exact hcrlf
  | case4 c t hcrlf hcr ih =>
    have hne : c ≠ .scalar '\r' := fun h => hcr h
    rw [universalNewlines, List.mem_cons, not_or]
    · exact ⟨Ne.symm hne, ih⟩
    · exact hcrlf
    · exact hcr

/-- The encoding of a text reads as that text just if there is no carriage return in it. -/
theorem readText_encode_iff (h : encode t = .ok b) :
    readText b = .ok t ↔ CodePoint.scalar '\r' ∉ t := by
  constructor
  · intro hread
    rw [readText, decode_encode h] at hread
    have hsame : universalNewlines t = t := Except.ok.inj hread
    rw [← hsame]
    exact carriageReturn_not_mem_universalNewlines t
  · exact readText_encode h

/-! ### One call -/

/-- A call that nobody watches. -/
theorem eval_host_writeIfChanged (env : HostEnv) (w : Host) (p : Path) (t : Text) (mode : ℕ) :
    eval (host env) (writeIfChanged p t mode) w =
      ((writeEnd env w p t).result, (writeEnd env w p t).apply p mode w) := by
  rw [eval_host, eval_writeIfChanged fun _ _ _ => rfl]

/-- The calls that leave the files alone. -/
def Idle (o : HostOp) : Prop := o.readOnly ∨ ∃ p, o = .mkdirParents p

/-- A call that finds the content there writes nothing and sets no mode. -/
theorem idle_of_kept (h : writeEnd env w p t = .kept) :
    ∀ o ∈ trace (host env) (writeIfChanged p t mode) w, Idle o := by
  have hkept : (eval (host env) (readsAs p t) w).1 = .ok true ∧
      (host env (.mkdirParents p) w).1 = .ok () := by
    rw [writeEnd] at h
    split at h
    · cases h
    · next hmkdir =>
      split at h
      · cases h
      · next hread => exact ⟨hread, hmkdir⟩
      · exact absurd h (overwriteEnd_ne_kept env p t)
  have hmkdir : eval (host env) (sys (.mkdirParents p)) w = (.ok (), w) := by
    rw [eval_sys]
    exact Prod.ext hkept.2 rfl
  have hreads : eval (host env) (readsAs p t) w = (.ok true, w) :=
    Prod.ext hkept.1 ((uses_readsAs p t).eval_eq (host_readOnly env) w)
  rw [writeIfChanged, trace_bind_of_ok hmkdir, trace_bind_of_ok hreads, trace_sys]
  intro o ho
  rcases List.mem_append.mp ho with ho | ho
  · exact .inr ⟨p, List.mem_singleton.mp ho⟩
  · rcases List.mem_append.mp ho with ho | ho
    · exact .inl ((uses_readsAs p t).mem_trace (fun _ _ => trivial) o ho)
    · cases ho

/-- When a call finds the content there. -/
theorem kept_iff (hw : Working env) (hnull : p.hasNull = false)
    (htext : ∀ old, w.bytes p = some old → ∃ text, decode old = .ok text) :
    writeEnd env w p t = .kept ↔ ∃ old, w.bytes p = some old ∧ readText old = .ok t := by
  cases hold : w.bytes p with
  | none =>
    rw [hw.writeEnd_of_absent hnull hold]
    exact iff_of_false (overwriteEnd_ne_kept env p t) (by simp)
  | some old =>
    obtain ⟨text, hdecode⟩ := htext old hold
    have holdText : readText old = .ok (universalNewlines text) := by
      rw [readText, hdecode]
      rfl
    rw [hw.writeEnd_of_readText hnull (Host.readText_of_text hnull hold hdecode)]
    by_cases hsame : universalNewlines text = t
    · rw [if_pos hsame]
      exact iff_of_true rfl ⟨old, rfl, holdText.trans (congrArg Except.ok hsame)⟩
    · rw [if_neg hsame]
      refine iff_of_false (overwriteEnd_ne_kept env p t) ?_
      rintro ⟨_, ⟨⟩, hother⟩
      rw [holdText] at hother
      exact hsame (Except.ok.inj hother)

/-- And otherwise it writes the content. -/
theorem done_of_not_kept (hw : Working env) (hnull : p.hasNull = false)
    (htext : ∀ old, w.bytes p = some old → ∃ text, decode old = .ok text)
    (henc : encode t = .ok b) (h : writeEnd env w p t ≠ .kept) : writeEnd env w p t = .done b := by
  cases hold : w.bytes p with
  | none => rw [hw.writeEnd_of_absent hnull hold, hw.overwriteEnd henc]
  | some old =>
    obtain ⟨text, hdecode⟩ := htext old hold
    rw [hw.writeEnd_of_readText hnull (Host.readText_of_text hnull hold hdecode)] at h ⊢
    by_cases hsame : universalNewlines text = t
    · rw [if_pos hsame] at h
      exact absurd rfl h
    · rw [if_neg hsame, hw.overwriteEnd henc]

/-! ### The flag -/

/-- The call returns and leaves the bytes `b` in the file. It returns `True` just if they were not
there before. And another call, on a file system that works, returns `False` and leaves the files
alone. -/
def FlagExact (env : HostEnv) (p : Path) (t : Text) (mode : ℕ) (b : Bytes) (w : Host) : Prop :=
  ∃ changed w', eval (host env) (writeIfChanged p t mode) w = (.ok changed, w') ∧
    w'.bytes p = some b ∧ (changed = true ↔ w.bytes p ≠ some b) ∧
    ∀ env', Working env' →
      (eval (host env') (writeIfChanged p t mode) w').1 = .ok false ∧
        ∀ o ∈ trace (host env') (writeIfChanged p t mode) w', Idle o

/-- A later call with a content that reads as itself does nothing. -/
theorem idle_of_bytes {w' : Host} (hnull : p.hasNull = false) (henc : encode t = .ok b)
    (hcr : CodePoint.scalar '\r' ∉ t) (hbytes : w'.bytes p = some b) {env' : HostEnv}
    (hw' : Working env') :
    (eval (host env') (writeIfChanged p t mode) w').1 = .ok false ∧
      ∀ o ∈ trace (host env') (writeIfChanged p t mode) w', Idle o := by
  have htext : ∀ old, w'.bytes p = some old → ∃ text, decode old = .ok text := by
    rintro old hold
    rw [hbytes] at hold
    cases hold
    exact ⟨t, decode_encode henc⟩
  have hkept : writeEnd env' w' p t = .kept :=
    (kept_iff hw' hnull htext).mpr ⟨b, hbytes, readText_encode henc hcr⟩
  refine ⟨?_, idle_of_kept hkept⟩
  rw [eval_host_writeIfChanged, hkept]
  rfl

/-- **The flag.** On a file system that works, for an old file that is absent or text, it is exact
just if there is no carriage return in the content, and the old file is not the content with other
line ends. -/
theorem flag_exact_iff (env : HostEnv) (w : Host) (p : Path) (t : Text) (mode : ℕ) (b : Bytes)
    (hw : Working env) (hnull : p.hasNull = false) (henc : encode t = .ok b)
    (htext : ∀ old, w.bytes p = some old → ∃ text, decode old = .ok text) :
    FlagExact env p t mode b w ↔
      CodePoint.scalar '\r' ∉ t ∧ ∀ old, w.bytes p = some old → readText old = .ok t → old = b := by
  constructor
  · rintro ⟨changed, w', heval, hbytes, hflag, hagain⟩
    have htext' : ∀ old, w'.bytes p = some old → ∃ text, decode old = .ok text := by
      intro old hold
      rw [hbytes] at hold
      cases hold
      exact ⟨t, decode_encode henc⟩
    constructor
    · -- the second call has found the content there, so that the content reads as itself
      have hfalse := (hagain env hw).1
      rw [eval_host_writeIfChanged] at hfalse
      have hkept : writeEnd env w' p t = .kept := by
        rcases WriteEnd.result_eq_ok hfalse with ⟨hkept, -⟩ | ⟨b', -, htrue⟩
        · exact hkept
        · cases htrue
      obtain ⟨old, hold, hread⟩ := (kept_iff hw hnull htext').mp hkept
      rw [hbytes] at hold
      cases hold
      exact (readText_encode_iff henc).mp hread
    · intro old hold hread
      have hkept : writeEnd env w p t = .kept := (kept_iff hw hnull htext).mpr ⟨old, hold, hread⟩
      rw [eval_host_writeIfChanged, hkept] at heval
      obtain rfl : w = w' := congrArg Prod.snd heval
      exact Option.some.inj (hold.symm.trans hbytes)
  · rintro ⟨hcr, hsame⟩
    by_cases hkept : writeEnd env w p t = .kept
    · obtain ⟨old, hold, hread⟩ := (kept_iff hw hnull htext).mp hkept
      obtain rfl := hsame old hold hread
      refine ⟨false, w, ?_, hold, by simp [hold], fun env' hw' => ?_⟩
      · rw [eval_host_writeIfChanged, hkept]
        rfl
      · exact idle_of_bytes hnull henc hcr hold hw'
    · have hdone := done_of_not_kept hw hnull htext henc hkept
      have hnew : w.bytes p ≠ some b := fun hold =>
        hkept ((kept_iff hw hnull htext).mpr ⟨b, hold, readText_encode henc hcr⟩)
      have hbytes : ((w.put p b).setMode p mode).bytes p = some b := by simp
      refine ⟨true, (w.put p b).setMode p mode, ?_, hbytes, by simp [hnew], fun env' hw' => ?_⟩
      · rw [eval_host_writeIfChanged, hdone]
        rfl
      · exact idle_of_bytes hnull henc hcr hbytes hw'

theorem flag_exact_iff_demo :
    FlagExact appRun demoCert (.ofString "A\n") 0o644 "A\n".toByteArray noFiles :=
  (flag_exact_iff appRun noFiles demoCert (.ofString "A\n") 0o644 "A\n".toByteArray working_appRun
    (by decide) (encode_ofString "A\n") (fun old hold => by cases hold)).mpr
    ⟨by decide, fun old hold => by cases hold⟩

/-- **A content with a carriage return.** It is written by the first call, and again by the second. -/
theorem flag_never_settles :
    ¬ ∀ (env : HostEnv) (w : Host) (p : Path) (t : Text) (mode : ℕ) (b : Bytes), Working env →
      p.hasNull = false → encode t = .ok b →
      (∀ old, w.bytes p = some old → ∃ text, decode old = .ok text) →
        FlagExact env p t mode b w := by
  intro h
  obtain ⟨changed, w', heval, -, -, hagain⟩ := h appRun noFiles demoCert (.ofString "A\r\n") 0o644
    "A\r\n".toByteArray working_appRun (by decide) (encode_ofString _) (fun old hold => by cases hold)
  obtain rfl : (eval (host appRun) (writeIfChanged demoCert (.ofString "A\r\n") 0o644) noFiles).2 =
    w' := congrArg Prod.snd heval
  exact absurd (hagain appRun working_appRun).1 (by decide)

end NextepAgent
