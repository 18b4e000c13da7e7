import Mathlib

/-!
Searching and overwriting in words over an arbitrary alphabet.

* `memmem needle w`: the offset of the first occurrence of `needle` in `w`, the
  C library's search, with its characterisation `memmem_eq_some_iff`.
* `memmem_append`: a hit survives bytes arriving behind the word;
  `memmem_of_append`: a hit that ends inside the front part is a hit of the
  front part alone.  The two together say that a search which succeeded does
  not depend on how much of a stream had arrived.
* `overwrite w pos data`: `data` copied over `w` from position `pos` on, with
  the windows `window_overwrite_of_le` and `drop_overwrite` outside the copy and
  `window_overwrite` inside.
-/

namespace Library

variable {α : Type*}

/-! ### The first occurrence of a word -/

section Memmem

variable [BEq α] [LawfulBEq α]

/-- The offset of the first occurrence of `needle`, `none` if there is none. -/
def memmem (needle : List α) : List α → Option ℕ
  | [] => if needle.isPrefixOf [] then some 0 else none
  | x :: w => if needle.isPrefixOf (x :: w) then some 0 else (memmem needle w).map (· + 1)

/-- The hit is an occurrence and no smaller offset is one. -/
theorem memmem_eq_some_iff {needle w : List α} {i : ℕ} :
    memmem needle w = some i ↔
      i ≤ w.length ∧ needle <+: w.drop i ∧ ∀ j < i, ¬ needle <+: w.drop j := by
  induction w generalizing i with
  | nil =>
      rw [memmem]
      split_ifs with h <;> rw [List.isPrefixOf_iff_prefix, List.prefix_nil] at h
      · subst h
        constructor
        · rintro ⟨⟩
          simp
        · rintro ⟨hle, -, -⟩
          simp at hle
          rw [hle]
      · simp [h]
  | cons x w ih =>
      rw [memmem]
      split_ifs with h <;> rw [List.isPrefixOf_iff_prefix] at h
      · constructor
        · rintro ⟨⟩
          exact ⟨Nat.zero_le _, h, by simp⟩
        · rintro ⟨-, -, hmin⟩
          -- offset `0` is an occurrence, so it is the least one
          rcases Nat.eq_zero_or_pos i with rfl | hi
          · rfl
          · exact absurd h (hmin 0 hi)
      · rw [Option.map_eq_some_iff]
        constructor
        · rintro ⟨j, hj, rfl⟩
          obtain ⟨hle, hpre, hmin⟩ := ih.mp hj
          refine ⟨by simpa using hle, by simpa using hpre, fun k hk => ?_⟩
          cases k with
          | zero => simpa using h
          | succ k => simpa using hmin k (by omega)
        · rintro ⟨hle, hpre, hmin⟩
          cases i with
          | zero => exact absurd hpre h
          | succ i =>
              refine ⟨i, ih.mpr ⟨by simpa using hle, by simpa using hpre, fun j hj => ?_⟩, rfl⟩
              simpa using hmin (j + 1) (by omega)

/-- A hit lies inside the word. -/
lemma memmem_add_le {needle w : List α} {i : ℕ} (h : memmem needle w = some i) :
    i + needle.length ≤ w.length := by
  obtain ⟨hle, hpre, -⟩ := memmem_eq_some_iff.mp h
  have hlen := hpre.length_le
  rw [List.length_drop] at hlen
  omega

omit [BEq α] [LawfulBEq α] in
/-- An occurrence in `u ++ v` that ends inside `u` is an occurrence in `u`. -/
lemma prefix_drop_append_iff {needle u v : List α} {i : ℕ}
    (h : i + needle.length ≤ u.length) :
    needle <+: (u ++ v).drop i ↔ needle <+: u.drop i := by
  rw [List.drop_append_of_le_length (by omega)]
  refine ⟨fun hpre => ?_, fun hpre => hpre.trans (List.prefix_append _ _)⟩
  exact List.prefix_of_prefix_length_le hpre (List.prefix_append _ _)
    (by rw [List.length_drop]; omega)

/-- A hit survives whatever is appended to the word. -/
theorem memmem_append {needle u : List α} {i : ℕ} (h : memmem needle u = some i)
    (v : List α) : memmem needle (u ++ v) = some i := by
  have hlen := memmem_add_le h
  obtain ⟨hle, hpre, hmin⟩ := memmem_eq_some_iff.mp h
  refine memmem_eq_some_iff.mpr ⟨?_, (prefix_drop_append_iff hlen).mpr hpre, fun j hj => ?_⟩
  · rw [List.length_append]
    omega
  · rw [prefix_drop_append_iff (by omega)]
    exact hmin j hj

/-- A hit that ends inside the front part is found there already. -/
theorem memmem_of_append {needle u v : List α} {i : ℕ}
    (h : memmem needle (u ++ v) = some i) (hi : i + needle.length ≤ u.length) :
    memmem needle u = some i := by
  obtain ⟨-, hpre, hmin⟩ := memmem_eq_some_iff.mp h
  refine memmem_eq_some_iff.mpr ⟨by omega, (prefix_drop_append_iff hi).mp hpre, fun j hj => ?_⟩
  have := hmin j hj
  rwa [prefix_drop_append_iff (by omega)] at this

end Memmem

/-! ### Windows, and copying over a word -/

/-- A window from `i` to `k` is the window up to `j` followed by the one from `j` on. -/
lemma window_split (w : List α) {i j k : ℕ} (hij : i ≤ j) (hjk : j ≤ k) :
    (w.drop i).take (k - i) = (w.drop i).take (j - i) ++ (w.drop j).take (k - j) := by
  rw [show k - i = j - i + (k - j) by omega, List.take_add, List.drop_drop,
    show i + (j - i) = j by omega]

/-- `data` copied over `w` from position `pos` on. -/
def overwrite (w : List α) (pos : ℕ) (data : List α) : List α :=
  w.take pos ++ data ++ w.drop (pos + data.length)

@[simp] lemma overwrite_nil (w : List α) (pos : ℕ) : overwrite w pos [] = w := by
  simp [overwrite]

/-- A copy that stays inside the word keeps its length. -/
@[simp] lemma length_overwrite {w data : List α} {pos : ℕ} (h : pos + data.length ≤ w.length) :
    (overwrite w pos data).length = w.length := by
  simp only [overwrite, List.length_append, List.length_take, List.length_drop]
  omega

/-- The copied window reads back as what was copied. -/
lemma window_overwrite {w data : List α} {pos : ℕ} (h : pos ≤ w.length) :
    ((overwrite w pos data).drop pos).take data.length = data := by
  have hpos : (w.take pos).length = pos := by simp [h]
  rw [overwrite, List.append_assoc, List.drop_append_of_le_length (by omega),
    List.drop_of_length_le (by omega), List.nil_append, List.take_left]

/-- A window in front of the copy does not change. -/
lemma window_overwrite_of_le {w data : List α} {pos i : ℕ} (h : pos ≤ w.length) :
    ((overwrite w pos data).drop i).take (pos - i) = (w.drop i).take (pos - i) := by
  have hpos : (w.take pos).length = pos := by simp [h]
  rw [← List.drop_take, ← List.drop_take, overwrite, List.append_assoc,
    List.take_append_of_le_length (by omega), List.take_take, Nat.min_self]

/-- Nothing behind the copy changes. -/
lemma drop_overwrite {w data : List α} {pos n : ℕ} (hn : pos + data.length ≤ n)
    (h : pos ≤ w.length) : (overwrite w pos data).drop n = w.drop n := by
  have hpos : (w.take pos ++ data).length = pos + data.length := by simp [h]
  rw [overwrite, List.drop_append, List.drop_of_length_le (by omega), List.nil_append, hpos,
    List.drop_drop]
  congr 1
  omega

/-- A word pushed back by copies of one letter and cut to its length is the same word
exactly if it repeats that letter. -/
lemma take_replicate_append_eq_iff {k : ℕ} {a : α} {w : List α} :
    (List.replicate (k + 1) a ++ w).take w.length = w ↔ ∀ x ∈ w, x = a := by
  induction w with
  | nil => simp
  | cons x w ih =>
      rw [List.length_cons, List.replicate_succ, List.cons_append, List.take_succ_cons,
        List.cons.injEq, List.forall_mem_cons, eq_comm (a := a)]
      refine and_congr_right ?_
      rintro rfl
      rw [List.append_cons, ← List.replicate_succ', ih]

end Library
