import Mathlib.Data.List.DropRight
import Mathlib.Data.List.Basic

/-!
# Words and lines

What scripting languages offer for taking a text apart: stripping both ends, splitting into words at
blanks, partitioning at the first separator, and reading line by line. Texts are lists over any type,
and a blank is whatever a predicate says.

## Text in quotes

A quote is no blank. It sticks to the word beside it, so that of a text in quotes the first word and
the last one carry a quote, and only those in between are words of the text (`mem_words_quoted`).
Stripping the quotes first gives the text back (`strip_quoted`).

## Main definitions

* `strip`, `words`, `partition`, `lines`

## Main results

* `splitOnP_append` — what is behind the last separator
* `mem_words_quoted`, `strip_quoted`
* `flatMap_lines` — reading line by line, when line ends do not matter
-/

namespace Words

variable {α β : Type}

/-- Without the characters at both ends that satisfy `p`. -/
def strip (p : α → Bool) (s : List α) : List α := (s.dropWhile p).rdropWhile p

/-- What stands between separators, where it is not empty. -/
def words (p : α → Bool) (s : List α) : List (List α) := (s.splitOnP p).filter fun w => !w.isEmpty

/-- What comes before the first separator, and what comes after it. -/
def partition [DecidableEq α] (sep : α) (s : List α) : List α × List α :=
  (s.takeWhile (· ≠ sep), (s.dropWhile (· ≠ sep)).tail)

/-- The lines, each with its line end, and the rest, if there is one. -/
def lines [DecidableEq α] (nl : α) (s : List α) : List (List α) :=
  (s.splitOn nl).dropLast.map (· ++ [nl]) ++ [(s.splitOn nl).getLastD []].filter fun l => !l.isEmpty

variable {p : α → Bool} {s t v w : List α} {c q : α}

/-! ### Splitting -/

/-- What follows the last separator belongs to the last part. -/
theorem splitOnP_append (hs : ∀ c ∈ s, p c = false) (t : List α) :
    (t ++ s).splitOnP p = (t.splitOnP p).dropLast ++ [(t.splitOnP p).getLastD [] ++ s] := by
  induction t with
  | nil => simp [List.splitOnP_eq_singleton hs]
  | cons c t ih =>
    obtain ⟨d, ds, hparts⟩ := List.exists_cons_of_ne_nil (List.splitOnP_ne_nil p t)
    rw [List.cons_append, List.splitOnP_cons_eq_if_modifyHead, List.splitOnP_cons_eq_if_modifyHead,
      ih, hparts]
    cases hc : p c with
    | true => simp
    | false => cases ds <;> simp

/-- Predicates that agree on a text split it alike. -/
theorem splitOnP_congr {p' : α → Bool} (h : ∀ c ∈ s, p c = p' c) : s.splitOnP p = s.splitOnP p' := by
  induction s with
  | nil => rfl
  | cons c s ih =>
    rw [List.splitOnP_cons_eq_if_modifyHead, List.splitOnP_cons_eq_if_modifyHead,
      h c List.mem_cons_self, ih fun a ha => h a (List.mem_cons_of_mem _ ha)]

theorem mem_words : w ∈ words p s ↔ w ∈ s.splitOnP p ∧ w ≠ [] := by
  rw [words, List.mem_filter, Bool.not_eq_true', List.isEmpty_eq_false_iff]

@[simp] theorem words_nil : words p [] = [] := rfl

theorem words_congr {p' : α → Bool} (h : ∀ c ∈ s, p c = p' c) : words p s = words p' s := by
  rw [words, words, splitOnP_congr h]

/-- A text without separators is one word. -/
theorem words_eq_singleton (hs : ∀ c ∈ s, p c = false) (hne : s ≠ []) : words p s = [s] := by
  rw [words, List.splitOnP_eq_singleton hs]
  simp [hne]

/-- **Words of a text in quotes.** A word without the quote is neither at its beginning nor at its
end. -/
theorem mem_words_quoted (hq : p q = false) (hw : q ∉ w) :
    w ∈ words p (q :: (v ++ [q])) ↔ w ∈ (v.splitOnP p).tail.dropLast ∧ w ≠ [] := by
  have hend : ∀ c ∈ [q], p c = false := by simpa using hq
  have hne : ∀ u : List α, w ≠ u ++ [q] := by
    rintro u rfl
    simp at hw
  have hne' : ∀ u : List α, w ≠ q :: u := by
    rintro u rfl
    simp at hw
  obtain ⟨d, ds, hparts⟩ := List.exists_cons_of_ne_nil (List.splitOnP_ne_nil p v)
  rw [mem_words, List.splitOnP_cons_eq_if_modifyHead, hq, splitOnP_append hend, hparts]
  cases ds with
  | nil => simp [hne']
  | cons e ds => simp [hne, hne']

/-! ### Stripping -/

@[simp] theorem strip_nil : strip p [] = [] := rfl

/-- One character more at the end, of those that are stripped. -/
theorem strip_concat (hc : p c = true) (s : List α) : strip p (s ++ [c]) = strip p s := by
  rw [strip, strip, List.dropWhile_append]
  cases hs : (s.dropWhile p).isEmpty with
  | true =>
    rw [if_pos rfl, List.isEmpty_iff.mp hs]
    simp [hc]
  | false => rw [if_neg Bool.false_ne_true, List.rdropWhile_concat_pos _ _ _ hc]

theorem strip_eq_self (hs : ∀ c ∈ s, p c = false) : strip p s = s := by
  have hdrop : s.dropWhile p = s := by
    cases s with
    | nil => rfl
    | cons c s => rw [List.dropWhile_cons_of_neg (by simp [hs c List.mem_cons_self])]
  rw [strip, hdrop, List.rdropWhile_eq_self_iff]
  intro hne
  rw [hs _ (List.getLast_mem hne)]
  exact Bool.false_ne_true

/-- A text in quotes is not stripped of what is no quote. -/
theorem strip_quotes (hq : p q = false) (v : List α) : strip p (q :: (v ++ [q])) = q :: (v ++ [q]) := by
  rw [strip, List.dropWhile_cons_of_neg (by simp [hq]), ← List.cons_append,
    List.rdropWhile_concat_neg _ _ _ (by simp [hq])]

/-- **Unquoting.** -/
theorem strip_quoted (hq : p q = true) (hv : ∀ c ∈ v, p c = false) :
    strip p (q :: (v ++ [q])) = v := by
  rw [← List.cons_append, strip_concat hq, strip, List.dropWhile_cons_of_pos hq]
  exact strip_eq_self hv

/-! ### Partition and lines -/

theorem partition_append [DecidableEq α] {sep : α} (hs : sep ∉ s) (t : List α) :
    partition sep (s ++ sep :: t) = (s, t) := by
  have hall : ∀ c ∈ s, decide (c ≠ sep) = true := fun c hc =>
    decide_eq_true fun h => hs (h ▸ hc)
  rw [partition, List.takeWhile_append_of_pos hall, List.dropWhile_append_of_pos hall]
  simp

theorem partition_of_not_mem [DecidableEq α] {sep : α} (hs : sep ∉ s) :
    partition sep s = (s, []) := by
  have hall : ∀ c ∈ s, decide (c ≠ sep) = true := fun c hc =>
    decide_eq_true fun h => hs (h ▸ hc)
  rw [partition, List.takeWhile_eq_self_iff.mpr hall, List.dropWhile_eq_nil_iff.mpr hall]
  rfl

/-- **Reading line by line**, with something for which the end of a line makes no difference. -/
theorem flatMap_lines [DecidableEq α] {nl : α} {f : List α → List β} (hnil : f [] = [])
    (hnl : ∀ l, f (l ++ [nl]) = f l) (s : List α) :
    (lines nl s).flatMap f = (s.splitOn nl).flatMap f := by
  have hne : s.splitOn nl ≠ [] := List.splitOn_ne_nil nl s
  have hlast : [(s.splitOn nl).getLastD []] = [(s.splitOn nl).getLast hne] := by
    rw [List.getLastD_eq_getLast?, List.getLast?_eq_some_getLast hne]
    rfl
  have hrest : ∀ l, ([l].filter fun l => !l.isEmpty).flatMap f = f l := by
    intro l
    cases l with
    | nil => simp [hnil]
    | cons c l => simp
  conv_rhs => rw [← List.dropLast_append_getLast hne]
  rw [lines, List.flatMap_append, List.flatMap_append, List.flatMap_map, hlast, hrest]
  simp [hnl]

end Words
