import NextepAgent.Words

/-!
# POSIX path names, resolved on the text

A path name is a list of characters, and a place is the list of names that leads to it from the
root. `resolve` reads a path name from left to right: an empty component and `.` stay where they
are, `..` goes up, and at the root it stays there. Links are not followed. A name with two leading
slashes is absolute like any other, as it is on Linux.

## Reading off the last component

A file name is often a free text with an extension behind it. The extension holds no slash and is
longer than `..`, so that whatever the text is, the last component is a name and not a step:
`resolve_append` splits the place into the folder, which the text decides, and the name.

## Main definitions

* `components`, `enter`, `resolve`
* `folder`, `lastName` — where a text with an extension leads, and what it is called there

## Main results

* `resolve_append`, `resolve_join`
* `ext_inj`, `ext_ne` — when two such places are one
-/

namespace Posix

/-- A component of a path name. -/
abbrev Name : Type := List Char

/-- The names from the root to a file or a directory. -/
abbrev Place : Type := List Name

/-- What stands between the slashes. -/
def components (p : List Char) : List Name := p.splitOn '/'

/-- One component further. -/
def enter (d : Place) (c : Name) : Place :=
  if c = [] ∨ c = ['.'] then d
  else if c = ['.', '.'] then d.dropLast
  else d ++ [c]

/-- Where the reading of a path name starts. -/
def start (cwd : Place) (p : List Char) : Place := if p.head? = some '/' then [] else cwd

/-- The place that a path name leads to, from `cwd`. -/
def resolve (cwd : Place) (p : List Char) : Place := (components p).foldl enter (start cwd p)

/-- The directory in which the last component of `p` is looked up. -/
def folder (cwd : Place) (p : List Char) : Place :=
  (components p).dropLast.foldl enter (start cwd p)

/-- The last component. -/
def lastName (p : List Char) : Name := (components p).getLastD []

/-! ### Components -/

theorem components_of_no_slash {p : List Char} (hp : '/' ∉ p) : components p = [p] := by
  refine List.splitOnP_eq_singleton fun c hc => ?_
  rw [beq_eq_false_iff_ne]
  rintro rfl
  exact hp hc

theorem lastName_of_no_slash {p : List Char} (hp : '/' ∉ p) : lastName p = p := by
  simp [lastName, components_of_no_slash hp]

/-- What follows the last slash belongs to the last component. -/
theorem components_append {s : List Char} (hs : '/' ∉ s) (p : List Char) :
    components (p ++ s) = (components p).dropLast ++ [lastName p ++ s] := by
  refine Words.splitOnP_append (fun c hc => ?_) p
  rw [beq_eq_false_iff_ne]
  rintro rfl
  exact hs hc

theorem start_append {s : List Char} (hs : '/' ∉ s) (cwd : Place) (p : List Char) :
    start cwd (p ++ s) = start cwd p := by
  cases p with
  | nil =>
    have hhead : s.head? ≠ some '/' := fun h => hs (List.mem_of_mem_head? h)
    simp [start, hhead]
  | cons c p => simp [start]

/-- A name in a directory. -/
theorem resolve_join {p s : List Char} (hp : p ≠ []) (hs : '/' ∉ s) (cwd : Place) :
    resolve cwd (p ++ '/' :: s) = enter (resolve cwd p) s := by
  obtain ⟨c, p, rfl⟩ := List.exists_cons_of_ne_nil hp
  have hcomps : components (c :: p ++ '/' :: s) = components (c :: p) ++ components s :=
    List.splitOn_append_cons_self (c :: p) s
  rw [resolve, resolve, hcomps, components_of_no_slash hs, List.foldl_append]
  rfl

/-! ### A text with an extension -/

/-- A component that is longer than `..` is a name. -/
theorem enter_of_length (d : Place) {c : Name} (hc : 2 < c.length) : enter d c = d ++ [c] := by
  have hempty : c ≠ [] := by rintro rfl; simp at hc
  have hdot : c ≠ ['.'] := by rintro rfl; simp at hc
  have hdots : c ≠ ['.', '.'] := by rintro rfl; simp at hc
  simp [enter, hempty, hdot, hdots]

/-- With an extension behind it, a text leads to a name in its folder. -/
theorem resolve_append {s : List Char} (hs : '/' ∉ s) (hlen : 2 < s.length) (cwd : Place)
    (p : List Char) : resolve cwd (p ++ s) = folder cwd p ++ [lastName p ++ s] := by
  have hname : 2 < (lastName p ++ s).length := by
    rw [List.length_append]
    omega
  rw [resolve, components_append hs, start_append hs, List.foldl_append, folder, List.foldl_cons,
    List.foldl_nil, enter_of_length _ hname]

/-- Two places with one extension. -/
theorem ext_inj {d e : Place} {n m s : Name} :
    d ++ [n ++ s] = e ++ [m ++ s] ↔ d = e ∧ n = m := by
  rw [List.append_singleton_inj, List.append_left_inj]

/-- Two extensions of one length. -/
theorem ext_ne {s t : Name} (hlen : s.length = t.length) (hne : s ≠ t) (d e : Place) (n m : Name) :
    d ++ [n ++ s] ≠ e ++ [m ++ t] := by
  intro h
  have hname := (List.append_singleton_inj.mp h).2
  exact hne (List.append_inj_right' hname hlen)

end Posix
