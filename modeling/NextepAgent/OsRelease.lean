import NextepAgent.OutputPaths
import NextepAgent.Words

/-!
# The family of the host

Where certificates and keys belong depends on the family of the host, and the family is read from
`/etc/os-release`: from the identifiers in the values of `ID` and `ID_LIKE`. A value may stand bare,
in double quotes or in single quotes. The parser takes off blanks and double quotes.

## Single quotes

They stay where they are, on the first word of the value and on the last. Such a word is no
identifier any more. With `ID='rhel'`, nothing is known of the family, and the host gets the
directories of another one. A word in between is recognised, and so is one from the other line, so
that a family is found just if one of its words is clear of single quotes.

## Main definitions

* `osFamily`
* `OsRelease`, `OsRelease.text` — what the format allows, and how it is written
* `OsRelease.family` — the family it tells of
* `OsRelease.Discernible` — a family that is told of is told of clear of single quotes

## Main results

* `Assignment.mem_idsOf_iff` — what is read of one line
* `OsRelease.os_family_iff`
-/

namespace NextepAgent

open Words

/-! ### The parser -/

/-- `c.isspace()`. -/
def CodePoint.isSpace : CodePoint → Bool
  | .scalar c =>
    let n := c.toNat
    (9 ≤ n && n ≤ 13) || (0x1c ≤ n && n ≤ 0x20) || n == 0x85 || n == 0xa0 || n == 0x1680 ||
      (0x2000 ≤ n && n ≤ 0x200a) || n == 0x2028 || n == 0x2029 || n == 0x202f || n == 0x205f ||
      n == 0x3000
  | .surrogate _ => false

/-- `{"rhel", "fedora", "ol", "centos"}`. -/
def rhelIds : List Text := ["rhel", "fedora", "ol", "centos"].map .ofString

/-- `{"debian", "ubuntu"}`. -/
def debianIds : List Text := ["debian", "ubuntu"].map .ofString

/-- `("ID", "ID_LIKE")`. -/
def idKeys : List Text := ["ID", "ID_LIKE"].map .ofString

/-- What one line adds to the identifiers: `val.strip().strip('"').split()`. -/
def idsOf (line : Text) : List Text :=
  let (key, val) := partition (.scalar '=') line
  if key ∈ idKeys then
    words CodePoint.isSpace (strip (· == .scalar '"') (strip CodePoint.isSpace val))
  else []

/-- One of the identifiers of a family is among the tokens. -/
def Told (tokens family : List Text) : Prop := ∃ id ∈ family, id ∈ tokens

/-- The family of a host with these identifiers. -/
def familyOf (tokens : List Text) : String :=
  if tokens.any (· ∈ rhelIds) then "rhel"
  else if tokens.any (· ∈ debianIds) then "debian"
  else ""

/-- `_os_family`: what `platform.system()` says, and what comes of reading the file. It is opened in
text mode, so that every kind of line end is read as `\n`. -/
def osFamily (system : String) (file : Except Exc Text) : Except Exc String :=
  if system ≠ "Linux" then .ok ""
  else match file with
    | .error e => if e.isA .osError then .ok "" else .error e
    | .ok text => .ok (familyOf ((lines (.scalar '\n') (universalNewlines text)).flatMap idsOf))

example : osFamily "Linux" (.ok (.ofString "ID=\"ol\"\r\nID_LIKE=\"fedora\"\r\n")) = .ok "rhel" := by
  decide

/-! ### The format -/

/-- How a value is written. -/
inductive Quoting
  | bare
  | double
  | single
  deriving DecidableEq

/-- A value as it is written. -/
def Quoting.write : Quoting → Text → Text
  | .bare, v => v
  | .double, v => .scalar '"' :: (v ++ [.scalar '"'])
  | .single, v => .scalar '\'' :: (v ++ [.scalar '\''])

/-- A character that ends a line, by itself or with another one. -/
def CodePoint.isBreak (c : CodePoint) : Bool := c == .scalar '\n' || c == .scalar '\r'

/-- Values that can be written so. There are no escapes. -/
def Quoting.Allows : Quoting → Text → Prop
  | .bare, v => ∀ c ∈ v, c.isSpace = false ∧ c ≠ .scalar '"' ∧ c ≠ .scalar '\''
  | .double, v => ∀ c ∈ v, c ≠ .scalar '"' ∧ c.isBreak = false
  | .single, v => ∀ c ∈ v, c ≠ .scalar '\'' ∧ c.isBreak = false

/-- A character of a name. -/
def CodePoint.inName : CodePoint → Bool
  | .scalar c => c.isAlphanum || c == '_'
  | .surrogate _ => false

/-- `NAME=value`. -/
structure Assignment where
  name : Text
  value : Text
  quoting : Quoting
  name_ok : ∀ c ∈ name, c.inName = true
  value_ok : quoting.Allows value

/-- A line of the file. -/
inductive OsLine
  | blank (t : Text) (h : ∀ c ∈ t, c.isSpace = true ∧ c.isBreak = false)
  | comment (t : Text) (h : ∀ c ∈ t, c.isBreak = false)
  | assign (a : Assignment)

/-- A line as it is written. -/
def OsLine.text : OsLine → Text
  | .blank t _ => t
  | .comment t _ => .scalar '#' :: t
  | .assign a => a.name ++ .scalar '=' :: a.quoting.write a.value

/-- What is assigned in a line. -/
def OsLine.assignment? : OsLine → Option Assignment
  | .assign a => some a
  | _ => none

/-- The words of a value. -/
def Assignment.words (a : Assignment) : List Text := Words.words (· == .scalar ' ') a.value

/-- Those of them that are not next to a single quote. -/
def Assignment.clearWords (a : Assignment) : List Text :=
  match a.quoting with
  | .single => (a.value.splitOnP (· == .scalar ' ')).tail.dropLast.filter fun w => !w.isEmpty
  | _ => a.words

/-- An `os-release` file. Every name is assigned at most once. `ID_LIKE` is a list of identifiers
separated by blanks, of which `ID` is a single one, and no identifier has white space in it. -/
structure OsRelease where
  lines : List OsLine
  once : ((lines.filterMap OsLine.assignment?).map Assignment.name).Nodup
  blanks : ∀ a ∈ lines.filterMap OsLine.assignment?, a.name ∈ idKeys →
    ∀ c ∈ a.value, c.isSpace = true → c = .scalar ' '
  single : ∀ a ∈ lines.filterMap OsLine.assignment?, a.name = .ofString "ID" →
    a.value ≠ [] ∧ .scalar ' ' ∉ a.value

namespace OsRelease

/-- What is assigned. -/
def assignments (r : OsRelease) : List Assignment := r.lines.filterMap OsLine.assignment?

/-- The file as it is written, with `\n` between lines. -/
def text (r : OsRelease) : Text := [CodePoint.scalar '\n'].intercalate (r.lines.map OsLine.text)

/-- This is the file, whatever kinds of line ends it is written with. -/
def Reads (r : OsRelease) (t : Text) : Prop := universalNewlines t = r.text

/-- The assignment to a name. -/
def assigned (r : OsRelease) (name : String) : Option Assignment :=
  r.assignments.find? fun a => a.name = .ofString name

/-- The value of `ID`, and the words of the value of `ID_LIKE`. -/
def ids (r : OsRelease) : List Text :=
  (r.assigned "ID").toList.map Assignment.value ++
    (r.assigned "ID_LIKE").toList.flatMap Assignment.words

/-- The family that the file tells of. -/
def family (r : OsRelease) : String := familyOf r.ids

/-- If one of these identifiers is there, one is there that is not next to a single quote. -/
def Discernible (r : OsRelease) (family : List Text) : Prop :=
  Told r.ids family →
    ∃ id ∈ family, ∃ a ∈ r.assignments, a.name ∈ idKeys ∧ id ∈ a.clearWords

end OsRelease

/-! ### One line -/

/-- Without a separator, a line adds nothing. -/
theorem idsOf_of_not_mem {line : Text} (h : CodePoint.scalar '=' ∉ line) : idsOf line = [] := by
  rw [idsOf, partition_of_not_mem h]
  simp

/-- The end of a line makes no difference. -/
theorem idsOf_concat (line : Text) : idsOf (line ++ [.scalar '\n']) = idsOf line := by
  by_cases hsep : CodePoint.scalar '=' ∈ line
  · obtain ⟨key, val, rfl, hkey⟩ := List.eq_append_cons_of_mem hsep
    have hassoc : key ++ CodePoint.scalar '=' :: val ++ [.scalar '\n'] =
        key ++ .scalar '=' :: (val ++ [.scalar '\n']) := by simp
    rw [idsOf, idsOf, hassoc, partition_append hkey, partition_append hkey]
    dsimp only
    rw [strip_concat (by decide)]
  · have hsep' : CodePoint.scalar '=' ∉ line ++ [.scalar '\n'] := by simp [hsep]
    rw [idsOf_of_not_mem hsep, idsOf_of_not_mem hsep']

/-- A line without an assignment adds nothing. A comment may hold a separator, but its key begins
with `#`. -/
theorem idsOf_of_no_assignment {l : OsLine} (h : l.assignment? = none) : idsOf l.text = [] := by
  cases l with
  | blank t ht =>
    refine idsOf_of_not_mem fun hsep => ?_
    exact absurd (ht _ hsep).1 (by decide)
  | comment t ht =>
    have hkey : (partition (.scalar '=') (OsLine.comment t ht).text).1 ∉ idKeys := by
      rw [OsLine.text, partition, List.takeWhile_cons_of_pos (by decide)]
      simp [idKeys, Text.ofString]
    rw [idsOf]
    exact if_neg hkey
  | assign a => cases h

theorem Assignment.name_no_sep (a : Assignment) : CodePoint.scalar '=' ∉ a.name := fun h =>
  absurd (a.name_ok _ h) (by decide)

/-- Blanks are all that the parser takes for blank in an identifier. -/
theorem isSpace_eq {v : Text} (h : ∀ c ∈ v, c.isSpace = true → c = .scalar ' ') :
    ∀ c ∈ v, c.isSpace = (c == .scalar ' ') := by
  intro c hc
  by_cases hblank : c = .scalar ' '
  · subst hblank
    decide
  · rw [beq_eq_false_iff_ne.mpr hblank]
    exact Bool.eq_false_iff.mpr fun hspace => hblank (h c hc hspace)

/-- **One line.** Of an identifier without a single quote, it matters whether it is next to one. -/
theorem Assignment.mem_idsOf_iff {a : Assignment} {id : Text}
    (hblanks : a.name ∈ idKeys → ∀ c ∈ a.value, c.isSpace = true → c = .scalar ' ')
    (hid : CodePoint.scalar '\'' ∉ id) :
    id ∈ idsOf (OsLine.assign a).text ↔ a.name ∈ idKeys ∧ id ∈ a.clearWords := by
  rw [idsOf, OsLine.text, partition_append a.name_no_sep]
  dsimp only
  by_cases hkey : a.name ∈ idKeys
  · have hsame := isSpace_eq (hblanks hkey)
    have hok := a.value_ok
    rw [if_pos hkey, and_iff_right hkey, clearWords]
    cases hquoting : a.quoting with
    | bare =>
      rw [hquoting] at hok
      rw [Quoting.write, strip_eq_self fun c hc => (hok c hc).1,
        strip_eq_self fun c hc => beq_eq_false_iff_ne.mpr (hok c hc).2.1, words_congr hsame]
      rfl
    | double =>
      rw [hquoting] at hok
      rw [Quoting.write, strip_quotes (by decide), strip_quoted (by decide)
        fun c hc => beq_eq_false_iff_ne.mpr (hok c hc).1, words_congr hsame]
      rfl
    | single =>
      rw [Quoting.write, strip_quotes (by decide), strip_quotes (by decide),
        mem_words_quoted (by decide) hid, splitOnP_congr hsame]
      simp
  · simp [hkey]

/-! ### The file -/

theorem CodePoint.isBreak_of_isSpace {c : CodePoint} (h : c.isSpace = false) : c.isBreak = false := by
  rw [isBreak, Bool.or_eq_false_iff, beq_eq_false_iff_ne, beq_eq_false_iff_ne]
  exact ⟨fun hc => absurd h (by rw [hc]; decide), fun hc => absurd h (by rw [hc]; decide)⟩

theorem CodePoint.isBreak_of_inName {c : CodePoint} (h : c.inName = true) : c.isBreak = false := by
  rw [isBreak, Bool.or_eq_false_iff, beq_eq_false_iff_ne, beq_eq_false_iff_ne]
  exact ⟨fun hc => absurd h (by rw [hc]; decide), fun hc => absurd h (by rw [hc]; decide)⟩

/-- A line does not end before its end. -/
theorem OsLine.isBreak_text (l : OsLine) : ∀ c ∈ l.text, c.isBreak = false := by
  cases l with
  | blank t h => exact fun c hc => (h c hc).2
  | comment t h => exact List.forall_mem_cons.mpr ⟨by decide, h⟩
  | assign a =>
    have hvalue : ∀ c ∈ a.quoting.write a.value, c.isBreak = false := by
      have hok := a.value_ok
      cases hquoting : a.quoting with
      | bare =>
        rw [hquoting] at hok
        exact fun c hc => CodePoint.isBreak_of_isSpace (hok c hc).1
      | double =>
        rw [hquoting] at hok
        refine List.forall_mem_cons.mpr ⟨by decide, List.forall_mem_append.mpr ⟨?_, ?_⟩⟩
        · exact fun c hc => (hok c hc).2
        · exact List.forall_mem_singleton.mpr (by decide)
      | single =>
        rw [hquoting] at hok
        refine List.forall_mem_cons.mpr ⟨by decide, List.forall_mem_append.mpr ⟨?_, ?_⟩⟩
        · exact fun c hc => (hok c hc).2
        · exact List.forall_mem_singleton.mpr (by decide)
    refine List.forall_mem_append.mpr ⟨fun c hc => CodePoint.isBreak_of_inName (a.name_ok c hc), ?_⟩
    exact List.forall_mem_cons.mpr ⟨by decide, hvalue⟩

namespace OsRelease

variable {r : OsRelease} {a : Assignment} {id : Text}

/-- What is read of the file is what is read of its lines. -/
theorem flatMap_idsOf (r : OsRelease) :
    (Words.lines (.scalar '\n') r.text).flatMap idsOf = (r.lines.map OsLine.text).flatMap idsOf := by
  rw [flatMap_lines (idsOf_of_not_mem (by simp)) idsOf_concat, text]
  cases hlines : r.lines with
  | nil => simp [idsOf_of_not_mem]
  | cons l ls =>
    rw [List.splitOn_intercalate _ _ (by simp)]
    intro t ht
    obtain ⟨l', -, rfl⟩ := List.mem_map.mp ht
    exact fun h => absurd (l'.isBreak_text _ h) (by decide)

/-- **What is read.** -/
theorem mem_flatMap_idsOf (hid : CodePoint.scalar '\'' ∉ id) :
    id ∈ (Words.lines (.scalar '\n') r.text).flatMap idsOf ↔
      ∃ a ∈ r.assignments, a.name ∈ idKeys ∧ id ∈ a.clearWords := by
  rw [flatMap_idsOf, List.mem_flatMap]
  constructor
  · rintro ⟨t, ht, hmem⟩
    obtain ⟨l, hl, rfl⟩ := List.mem_map.mp ht
    cases hassign : l.assignment? with
    | none =>
      rw [idsOf_of_no_assignment hassign] at hmem
      cases hmem
    | some a =>
      have ha : a ∈ r.assignments := List.mem_filterMap.mpr ⟨l, hl, hassign⟩
      cases l with
      | blank t h => cases hassign
      | comment t h => cases hassign
      | assign a' =>
        cases hassign
        exact ⟨a, ha, (Assignment.mem_idsOf_iff (r.blanks a ha) hid).mp hmem⟩
  · rintro ⟨a, ha, hclear⟩
    obtain ⟨l, hl, hassign⟩ := List.mem_filterMap.mp ha
    cases l with
    | blank t h => cases hassign
    | comment t h => cases hassign
    | assign a' =>
      cases hassign
      exact ⟨_, List.mem_map_of_mem hl, (Assignment.mem_idsOf_iff (r.blanks a ha) hid).mpr hclear⟩

/-- A name is assigned once. -/
theorem assigned_eq {name : String} (ha : a ∈ r.assignments) (hname : a.name = .ofString name) :
    r.assigned name = some a := by
  rw [assigned]
  cases hfind : r.assignments.find? fun a => a.name = .ofString name with
  | none => exact absurd (List.find?_eq_none.mp hfind a ha) (by simp [hname])
  | some a' =>
    have hname' : a'.name = .ofString name := by simpa using List.find?_some hfind
    rw [List.inj_on_of_nodup_map r.once (List.mem_of_find?_eq_some hfind) ha (hname'.trans hname.symm)]

/-- What is clear of single quotes is there. -/
theorem mem_ids_of_clear (ha : a ∈ r.assignments) (hkey : a.name ∈ idKeys)
    (hclear : id ∈ a.clearWords) : id ∈ r.ids := by
  have hwords : id ∈ a.words := by
    rw [Assignment.clearWords] at hclear
    split at hclear
    · obtain ⟨hmem, hne⟩ := List.mem_filter.mp hclear
      have hsplit := List.mem_of_mem_tail ((List.dropLast_sublist _).subset hmem)
      exact List.mem_filter.mpr ⟨hsplit, hne⟩
    · exact hclear
  rw [ids, List.mem_append]
  have hkeys : a.name = .ofString "ID" ∨ a.name = .ofString "ID_LIKE" := by simpa [idKeys] using hkey
  rcases hkeys with hname | hname
  · obtain ⟨hne, hblank⟩ := r.single a ha hname
    have hword : a.words = [a.value] := words_eq_singleton
      (fun c hc => beq_eq_false_iff_ne.mpr fun h => hblank (h ▸ hc)) hne
    rw [assigned_eq ha hname]
    left
    simpa [hword] using hwords
  · rw [assigned_eq ha hname]
    right
    simpa using hwords

/-- What is read of the file tells of a family just if an identifier is clear of single quotes. -/
theorem told_flatMap_idsOf {family : List Text} (hfamily : ∀ id ∈ family, CodePoint.scalar '\'' ∉ id) :
    Told ((Words.lines (.scalar '\n') r.text).flatMap idsOf) family ↔
      ∃ id ∈ family, ∃ a ∈ r.assignments, a.name ∈ idKeys ∧ id ∈ a.clearWords :=
  exists_congr fun id => and_congr_right fun hid => mem_flatMap_idsOf (hfamily id hid)

theorem told_ids {family : List Text}
    (h : ∃ id ∈ family, ∃ a ∈ r.assignments, a.name ∈ idKeys ∧ id ∈ a.clearWords) :
    Told r.ids family := by
  obtain ⟨id, hid, a, ha, hkey, hclear⟩ := h
  exact ⟨id, hid, mem_ids_of_clear ha hkey hclear⟩

end OsRelease

/-! ### The family -/

theorem any_eq_true {tokens family : List Text} :
    tokens.any (· ∈ family) = true ↔ Told tokens family := by
  rw [List.any_eq_true]
  exact ⟨fun ⟨id, hid, hmem⟩ => ⟨id, of_decide_eq_true hmem, hid⟩,
    fun ⟨id, hmem, hid⟩ => ⟨id, hid, decide_eq_true hmem⟩⟩

theorem familyOf_eq_rhel_iff {tokens : List Text} :
    familyOf tokens = "rhel" ↔ Told tokens rhelIds := by
  rw [familyOf, ← any_eq_true]
  split
  · next h => exact iff_of_true rfl h
  · next h =>
    refine iff_of_false ?_ h
    split <;> decide

theorem familyOf_of_not_rhel {tokens : List Text} (h : ¬ Told tokens rhelIds) :
    familyOf tokens = "debian" ↔ Told tokens debianIds := by
  rw [familyOf, if_neg (any_eq_true.not.mpr h), ← any_eq_true]
  split
  · next h => exact iff_of_true rfl h
  · next h => exact iff_of_false (by decide) h

theorem familyOf_of_neither {tokens : List Text} (h : ¬ Told tokens rhelIds)
    (h' : ¬ Told tokens debianIds) : familyOf tokens = "" := by
  rw [familyOf, if_neg (any_eq_true.not.mpr h), if_neg (any_eq_true.not.mpr h')]

/-- Of tokens that may be fewer, the family is the same just if the first family that is told of is
still told of. -/
theorem familyOf_eq_iff {tokens ids : List Text} (hrhel : Told tokens rhelIds → Told ids rhelIds)
    (hdebian : Told tokens debianIds → Told ids debianIds) :
    familyOf tokens = familyOf ids ↔
      (Told ids rhelIds → Told tokens rhelIds) ∧
        (¬ Told ids rhelIds → Told ids debianIds → Told tokens debianIds) := by
  by_cases hr : Told ids rhelIds
  · rw [familyOf_eq_rhel_iff.mpr hr, familyOf_eq_rhel_iff]
    simp [hr]
  · have hr' : ¬ Told tokens rhelIds := fun h => hr (hrhel h)
    by_cases hd : Told ids debianIds
    · rw [(familyOf_of_not_rhel hr).mpr hd, familyOf_of_not_rhel hr']
      simp [hr, hd]
    · rw [familyOf_of_neither hr hd, familyOf_of_neither hr' fun h => hd (hdebian h)]
      simp [hr, hd]

/-- What the directories depend on. -/
theorem certOutputDir_eq_iff {f g : String} :
    certOutputDir f = certOutputDir g ↔ (f = "rhel" ↔ g = "rhel") := by
  rw [certOutputDir, certOutputDir]
  by_cases hf : f = "rhel" <;> by_cases hg : g = "rhel" <;> simp [hf, hg]

/-- The directories of certificates and keys, and the machine credential, are where they belong on a
host of this family. -/
def PathsFollow (read : Except Exc String) (real : String) : Prop :=
  ∃ f, read = .ok f ∧ certOutputDir f = certOutputDir real ∧ keyOutputDir f = keyOutputDir real ∧
    machineCertPath f = machineCertPath real ∧ machineKeyPath f = machineKeyPath real

theorem pathsFollow_iff {f real : String} :
    PathsFollow (.ok f) real ↔ (f = "rhel" ↔ real = "rhel") := by
  constructor
  · rintro ⟨g, hg, hcert, -⟩
    cases hg
    exact certOutputDir_eq_iff.mp hcert
  · intro h
    have hcert := certOutputDir_eq_iff.mpr h
    have hkey : keyOutputDir f = keyOutputDir real := by
      rw [keyOutputDir, keyOutputDir]
      simp only [h]
    exact ⟨f, rfl, hcert, hkey, by rw [machineCertPath, machineCertPath, hcert],
      by rw [machineKeyPath, machineKeyPath, hkey]⟩

namespace OsRelease

/-- **The family of the host.** It is the one that the file tells of, just if the first family that
is told of is told of clear of single quotes. And for the paths to be those of the host, this is
enough of the first of the two families. -/
theorem os_family_iff (r : OsRelease) (t : Text) (ht : r.Reads t) :
    (osFamily "Linux" (.ok t) = .ok r.family ↔
      r.Discernible rhelIds ∧ (¬ Told r.ids rhelIds → r.Discernible debianIds)) ∧
    (PathsFollow (osFamily "Linux" (.ok t)) r.family ↔ r.Discernible rhelIds) := by
  have hrhel : Told _ rhelIds ↔ _ := told_flatMap_idsOf (r := r) (by decide)
  have hdebian : Told _ debianIds ↔ _ := told_flatMap_idsOf (r := r) (by decide)
  have hread : osFamily "Linux" (.ok t) =
      .ok (familyOf ((Words.lines (.scalar '\n') (universalNewlines t)).flatMap idsOf)) := rfl
  rw [hread, ht, pathsFollow_iff, Except.ok.injEq, family, familyOf_eq_rhel_iff, familyOf_eq_rhel_iff,
    familyOf_eq_iff (fun h => told_ids (hrhel.mp h)) fun h => told_ids (hdebian.mp h), hrhel, hdebian]
  refine ⟨Iff.rfl, fun h => h.mpr, fun h => ⟨told_ids, h⟩⟩

/-- `ID='rhel'`. -/
def quotedRhel : OsRelease where
  lines := [.assign ⟨.ofString "ID", .ofString "rhel", .single, by decide, by
    show ∀ c ∈ Text.ofString "rhel", c ≠ .scalar '\'' ∧ c.isBreak = false
    decide⟩, .blank [] (by simp)]
  once := by decide
  blanks := by decide
  single := by decide

theorem os_family_iff_demo :
    osFamily "Linux" (.ok (.ofString "ID='rhel'\r\n")) = .ok quotedRhel.family ↔
      quotedRhel.Discernible rhelIds ∧ (¬ Told quotedRhel.ids rhelIds → quotedRhel.Discernible debianIds) :=
  (os_family_iff quotedRhel (.ofString "ID='rhel'\r\n") (by unfold Reads; decide)).1

/-- **A family in single quotes.** The host is of the family `rhel`, and its family is not known. -/
theorem single_quoted_family_missed :
    quotedRhel.family = "rhel" ∧ osFamily "Linux" (.ok quotedRhel.text) = .ok "" ∧
      ¬ ∀ (r : OsRelease) (t : Text), r.Reads t → osFamily "Linux" (.ok t) = .ok r.family := by
  have hmissed : osFamily "Linux" (.ok quotedRhel.text) = .ok "" := by decide
  refine ⟨by decide, hmissed, fun h => ?_⟩
  have hfound := h quotedRhel quotedRhel.text (by unfold Reads; decide)
  rw [hmissed] at hfound
  exact absurd hfound (by decide)

end OsRelease

end NextepAgent
