import Tractor.Library.Search

/-!
Words cut into lines, over an arbitrary alphabet with a line end of two distinct letters.

* `Free a b w`: the line end `[a, b]` does not occur in `w`; `free_append_iff` looks at the
  place where two words meet.
* `memmem_line`: the first line end of a free word with a line end behind it is that one;
  `split_of_memmem`, `free_of_memmem`: in front of the first line end stands a free word.
* `unlines`, `lines`: lines written one after the other, and the complete lines of a word;
  `lines_unlines` and `unlines_inj`: free lines are read back as they were written.
* `trim_append`: trimming takes off exactly what was put around a word.
-/

namespace Library

variable {α : Type*}

/-- The line end does not occur in the word. -/
def Free (a b : α) (w : List α) : Prop := w.IsChain fun x y => ¬ (x = a ∧ y = b)

/-- The lines with their ends. -/
def unlines (a b : α) (ls : List (List α)) : List α := ls.flatMap fun l => l ++ [a, b]

section Free

variable {a b : α} {u v w : List α}

lemma free_nil : Free a b [] := List.isChain_nil

lemma free_append_iff :
    Free a b (u ++ v) ↔ Free a b u ∧ Free a b v ∧
      ∀ x ∈ u.getLast?, ∀ y ∈ v.head?, ¬ (x = a ∧ y = b) :=
  List.isChain_append

/-- Words that meet at a letter other than the second of the line end. -/
lemma Free.append (hu : Free a b u) (hv : Free a b v) (hhead : ∀ y ∈ v.head?, y ≠ b) :
    Free a b (u ++ v) :=
  free_append_iff.mpr ⟨hu, hv, fun _ _ y hy h => hhead y hy h.2⟩

/-- A word without the second letter of the line end. -/
lemma free_of_notMem (h : b ∉ w) : Free a b w := by
  refine (List.Pairwise.isChain ?_ : w.IsChain _)
  refine List.pairwise_of_forall_mem_list fun x _ y hy hxy => ?_
  exact h (hxy.2 ▸ hy)

/-- A letter other than the first of the line end in front. -/
lemma Free.cons {x : α} (hx : x ≠ a) (hw : Free a b w) : Free a b (x :: w) :=
  List.isChain_cons.mpr ⟨fun _ _ h => hx h.1, hw⟩

lemma Free.of_cons {x : α} (h : Free a b (x :: w)) : Free a b w := List.IsChain.of_cons h

instance [DecidableEq α] : Decidable (Free a b w) :=
  inferInstanceAs (Decidable (w.IsChain fun x y => ¬ (x = a ∧ y = b)))

end Free

@[simp] lemma unlines_nil (a b : α) : unlines a b [] = [] := rfl

@[simp] lemma unlines_cons (a b : α) (l : List α) (ls : List (List α)) :
    unlines a b (l :: ls) = l ++ a :: b :: unlines a b ls := by
  simp [unlines]

lemma unlines_append (a b : α) (ls ls' : List (List α)) :
    unlines a b (ls ++ ls') = unlines a b ls ++ unlines a b ls' := List.flatMap_append

/-- **White space around a word is trimmed off**, and nothing of a word that neither begins
nor ends with it. -/
theorem trim_append {p : α → Bool} {u w v : List α} (hu : ∀ c ∈ u, p c) (hv : ∀ c ∈ v, p c)
    (hhead : ∀ c ∈ w.head?, p c = false) (hlast : ∀ c ∈ w.getLast?, p c = false) :
    ((u ++ w ++ v).dropWhile p).rdropWhile p = w := by
  rw [List.append_assoc, List.dropWhile_append_of_pos hu]
  cases w with
  | nil =>
      rw [List.nil_append, List.dropWhile_eq_nil_iff.mpr hv]
      exact List.rdropWhile_nil p
  | cons x w =>
      have hx : ¬ p x = true := by simp [hhead x rfl]
      rw [List.cons_append, List.dropWhile_cons_of_neg hx, ← List.cons_append, List.rdropWhile,
        List.reverse_append, List.dropWhile_append_of_pos fun c hc => hv c (List.mem_reverse.mp hc)]
      refine List.rdropWhile_eq_self_iff.mpr fun hne hp => ?_
      rw [hlast _ (List.getLast_mem_getLast? hne)] at hp
      exact absurd hp (by simp)

section Lines

variable [DecidableEq α] {a b : α}

/-- **The first line end behind a free word.** -/
theorem memmem_line (hab : a ≠ b) {l : List α} (hl : Free a b l) (r : List α) :
    memmem [a, b] (l ++ a :: b :: r) = some l.length := by
  induction l with
  | nil => simp [memmem]
  | cons x l ih =>
      have hpre : List.isPrefixOf [a, b] (x :: (l ++ a :: b :: r)) = false := by
        cases l with
        | nil => simp [List.isPrefixOf, hab.symm]
        | cons y l =>
            have hxy : ¬ (x = a ∧ y = b) := (List.isChain_cons_cons.mp hl).1
            simp only [List.cons_append, List.isPrefixOf, Bool.and_eq_false_iff,
              beq_eq_false_iff_ne]
            by_contra hall
            push Not at hall
            exact hxy ⟨hall.1.symm, hall.2.1.symm⟩
      rw [List.cons_append, memmem, hpre, ih hl.of_cons]
      rfl

/-- In front of the first of a letter there is none. -/
lemma notMem_take_findIdx (w : List α) : a ∉ w.take (w.findIdx (· == a)) := by
  intro hmem
  obtain ⟨i, hi, hget⟩ := List.getElem_of_mem hmem
  rw [List.length_take] at hi
  have hnot := List.not_of_lt_findIdx (lt_of_lt_of_le hi (min_le_left _ _))
  rw [List.getElem_take] at hget
  simp [hget] at hnot

/-- The search for a letter runs to the end of a word without it. -/
lemma findIdx_eq_length_iff {w : List α} : w.findIdx (· == a) = w.length ↔ a ∉ w := by
  rw [List.findIdx_eq_length]
  constructor
  · intro h ha
    simpa using h a ha
  · intro h x hx
    simpa using fun hxa : x = a => h (hxa ▸ hx)

/-- The search for a letter stops behind a word without it. -/
lemma findIdx_append_cons {u : List α} (hu : a ∉ u) (v : List α) :
    (u ++ a :: v).findIdx (· == a) = u.length := by
  rw [List.findIdx_append, findIdx_eq_length_iff.mpr hu, if_neg (lt_irrefl _)]
  simp [List.findIdx_cons]

/-- The word around the first place of a letter. -/
lemma split_of_findIdx {w : List α} (h : w.findIdx (· == a) ≠ w.length) :
    ∃ u v, w = u ++ a :: v ∧ a ∉ u := by
  have hmem : a ∈ w := by
    by_contra hmem
    exact h (findIdx_eq_length_iff.mpr hmem)
  obtain ⟨u, v, hu, hw⟩ := List.eq_append_cons_of_mem hmem
  exact ⟨u, v, hu, hw⟩

/-- The word around its first line end. -/
lemma split_of_memmem {w : List α} {i : ℕ} (h : memmem [a, b] w = some i) :
    w = w.take i ++ a :: b :: w.drop (i + 2) := by
  obtain ⟨-, ⟨t, ht⟩, -⟩ := memmem_eq_some_iff.mp h
  have hdrop : w.drop (i + 2) = t := by
    rw [← List.drop_drop, ← ht]
    rfl
  rw [hdrop]
  exact (List.take_append_drop i w).symm.trans (congrArg (w.take i ++ ·) ht.symm)

/-- In front of the first line end there is no other. -/
lemma free_of_memmem {w : List α} {i : ℕ} (h : memmem [a, b] w = some i) :
    Free a b (w.take i) := by
  induction w generalizing i with
  | nil =>
      rw [List.take_nil]
      exact free_nil
  | cons x w ih =>
      rw [memmem] at h
      split_ifs at h with hpre
      · obtain rfl := Option.some.inj h
        exact free_nil
      · obtain ⟨j, hj, rfl⟩ := Option.map_eq_some_iff.mp h
        refine List.isChain_cons.mpr ⟨fun y hy hxy => hpre ?_, ih hj⟩
        -- the letter behind `x` in the front part is the one behind it in the word
        obtain ⟨rfl, rfl⟩ := hxy
        cases j with
        | zero => simp at hy
        | succ j =>
            cases w with
            | nil => simp at hy
            | cons z w =>
                obtain rfl : z = y := by simpa using hy
                simp

/-- The complete lines of a word. -/
def lines (a b : α) (w : List α) : List (List α) :=
  match h : memmem [a, b] w with
  | none => []
  | some i => w.take i :: lines a b (w.drop (i + 2))
termination_by w.length
decreasing_by
  have := memmem_add_le h
  simp only [List.length_cons, List.length_nil] at this
  rw [List.length_drop]
  omega

lemma lines_of_none {w : List α} (h : memmem [a, b] w = none) : lines a b w = [] := by
  rw [lines]
  split
  · rfl
  · rename_i i hi
    exact absurd (h.symm.trans hi) (by simp)

lemma lines_of_some {w : List α} {i : ℕ} (h : memmem [a, b] w = some i) :
    lines a b w = w.take i :: lines a b (w.drop (i + 2)) := by
  rw [lines]
  split
  · rename_i hn
    exact absurd (hn.symm.trans h) (by simp)
  · rename_i j hj
    obtain rfl := Option.some.inj (h.symm.trans hj)
    rfl

omit [DecidableEq α] in
lemma drop_line (l : List α) (r : List α) : (l ++ a :: b :: r).drop (l.length + 2) = r := by
  rw [← List.drop_drop, List.drop_left]
  rfl

lemma lines_cons (hab : a ≠ b) {l : List α} (hl : Free a b l) (r : List α) :
    lines a b (l ++ a :: b :: r) = l :: lines a b r := by
  rw [lines_of_some (memmem_line hab hl r), List.take_left, drop_line]

/-- **Free lines are read back.** -/
theorem lines_unlines (hab : a ≠ b) {ls : List (List α)} (hls : ∀ l ∈ ls, Free a b l)
    (r : List α) : lines a b (unlines a b ls ++ r) = ls ++ lines a b r := by
  induction ls with
  | nil => rfl
  | cons l ls ih =>
      rw [unlines_cons, List.append_assoc, List.cons_append, List.cons_append,
        lines_cons hab (hls l (by simp)), ih fun l' hl' => hls l' (by simp [hl'])]
      rfl

/-- Free lines are determined by what they are written to. -/
theorem unlines_inj (hab : a ≠ b) {ls ls' : List (List α)} (hls : ∀ l ∈ ls, Free a b l)
    (hls' : ∀ l ∈ ls', Free a b l) (h : unlines a b ls = unlines a b ls') : ls = ls' := by
  have hread := lines_unlines hab hls []
  rw [h, lines_unlines hab hls' []] at hread
  exact (List.append_cancel_right hread).symm

end Lines

end Library
