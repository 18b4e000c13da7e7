import Mathlib.Data.List.Basic

/-!
Words read frame by frame.

A reader takes one frame off the front of a word, or finds none.

* `readAll`: the frames a reader finds one after the other.
* `readAll_frames`: frames that the reader takes off, whatever follows them, are read back as they
  were written, and the reader goes on behind them.
* `readAll_frames_last`: the same with a last frame that extends to the end of the word.
-/

namespace Library

variable {α β : Type*} (next : List α → Option (β × List α))

/-- At most `n` frames of the word. -/
def readAll : ℕ → List α → List β
  | 0, _ => []
  | n + 1, w =>
      match next w with
      | some (x, rest) => x :: readAll n rest
      | none => []

variable {next}

lemma readAll_of_some {w rest : List α} {x : β} (h : next w = some (x, rest)) (n : ℕ) :
    readAll next (n + 1) w = x :: readAll next n rest := by
  rw [readAll, h]

/-- Nothing is read from the empty word. -/
lemma readAll_nil (hnil : next [] = none) (n : ℕ) : readAll next n [] = [] := by
  cases n with
  | zero => rfl
  | succ n => rw [readAll, hnil]

section Frames

variable {ι : Type*} {frame : ι → List α} {item : ι → β} {xs : List ι}

/-- **Frames are read back**, and the reader goes on behind them. -/
theorem readAll_frames (hframe : ∀ x ∈ xs, ∀ rest, next (frame x ++ rest) = some (item x, rest))
    (n : ℕ) (w : List α) :
    readAll next (xs.length + n) ((xs.map frame).flatten ++ w) =
      xs.map item ++ readAll next n w := by
  induction xs with
  | nil => simp
  | cons x xs ih =>
      have hx := hframe x List.mem_cons_self ((xs.map frame).flatten ++ w)
      have hrest := ih fun y hy => hframe y (List.mem_cons_of_mem x hy)
      calc readAll next ((x :: xs).length + n) (((x :: xs).map frame).flatten ++ w)
          = readAll next (xs.length + n + 1) (frame x ++ ((xs.map frame).flatten ++ w)) := by
            rw [List.length_cons, List.map_cons, List.flatten_cons, List.append_assoc,
              Nat.add_right_comm]
        _ = item x :: readAll next (xs.length + n) ((xs.map frame).flatten ++ w) :=
            readAll_of_some hx _
        _ = (x :: xs).map item ++ readAll next n w := by
            rw [hrest, List.map_cons, List.cons_append]

/-- Frames that are not empty are no more than the letters they are made of. -/
lemma length_le_length_flatten (hne : ∀ x ∈ xs, frame x ≠ []) :
    xs.length ≤ (xs.map frame).flatten.length := by
  induction xs with
  | nil => simp
  | cons x xs ih =>
      have hx := List.length_pos_of_ne_nil (hne x List.mem_cons_self)
      have hrest := ih fun y hy => hne y (List.mem_cons_of_mem x hy)
      rw [List.map_cons, List.flatten_cons, List.length_append, List.length_cons]
      omega

/-- **Frames and at most one that extends to the end**, read with as many rounds as there are
letters. -/
theorem readAll_frames_last {ys : List ι} (hnil : next [] = none)
    (hframe : ∀ x ∈ xs, ∀ rest, next (frame x ++ rest) = some (item x, rest))
    (hys : ys.length ≤ 1) (hlast : ∀ y ∈ ys, next (frame y) = some (item y, []))
    (hne : ∀ x ∈ xs ++ ys, frame x ≠ []) :
    readAll next ((xs ++ ys).map frame).flatten.length ((xs ++ ys).map frame).flatten =
      (xs ++ ys).map item := by
  have hlength := length_le_length_flatten hne
  obtain ⟨m, hm⟩ := Nat.exists_eq_add_of_le hlength
  rw [hm, List.length_append, Nat.add_assoc, List.map_append, List.flatten_append,
    readAll_frames hframe, List.map_append]
  match ys, hys with
  | [], _ => rw [List.map_nil, List.flatten_nil, readAll_nil hnil, List.map_nil]
  | [y], _ =>
      have hy := hlast y (List.mem_singleton_self y)
      rw [List.map_singleton, List.flatten_singleton, List.length_singleton, Nat.add_comm 1 m,
        readAll_of_some hy, readAll_nil hnil, List.map_singleton]

end Frames

end Library
