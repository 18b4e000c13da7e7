import Mathlib

/-!
Paths as walks in a tree of names.

* `Move`: what a segment of a path does: nothing, one level up, or down to a name.
* `walk`: the names a path has come down by, the last one first.  There is nothing
  above the root.
* `climb`: how far below its start a walk ends, `none` if it has left it;
  `walk_of_climb`: a walk that does not leave its start keeps what it stands on.
* `depth`: the same with the root as the floor; `length_walk`.
* `suffix_walk_iff`: **a walk ends inside a directory exactly if it enters it once
  more and does not leave it from then on**; `walk_eq_cons_iff`: it ends there.
* `splitOn_append`: the segments of a word whose front has no separator.
-/

namespace Library

/-- What one segment of a path does. -/
inductive Move (ν : Type*) where
  | stay
  | up
  | down (name : ν)

namespace Move

variable {ν : Type*}

/-- One move, from the names above the current directory, its own first. -/
def step : List ν → Move ν → List ν
  | s, stay => s
  | s, up => s.tail
  | s, down d => d :: s

/-- The moves of a path, one after the other. -/
def walk (s : List ν) (m : List (Move ν)) : List ν := m.foldl step s

/-- One move, counted from a start that must not be left. -/
def climbStep : ℕ → Move ν → Option ℕ
  | k, stay => some k
  | 0, up => none
  | k + 1, up => some k
  | k, down _ => some (k + 1)

/-- How far below the start the path ends, `none` if it leaves the start. -/
def climb (k : ℕ) (m : List (Move ν)) : Option ℕ := m.foldlM climbStep k

/-- One move, counted from the root, where it stays when it goes up. -/
def depthStep : ℕ → Move ν → ℕ
  | k, stay => k
  | k, up => k - 1
  | k, down _ => k + 1

def depth (k : ℕ) (m : List (Move ν)) : ℕ := m.foldl depthStep k

lemma walk_append (s : List ν) (m n : List (Move ν)) : walk s (m ++ n) = walk (walk s m) n :=
  List.foldl_append

/-- The depth is the number of names. -/
lemma length_walk (s : List ν) (m : List (Move ν)) : (walk s m).length = depth s.length m := by
  induction m generalizing s with
  | nil => rfl
  | cons x m ih =>
      have hstep : (step s x).length = depthStep s.length x := by
        cases x with
        | stay => rfl
        | up => exact List.length_tail
        | down d => rfl
      rw [walk, List.foldl_cons, depth, List.foldl_cons, ← hstep]
      exact ih (step s x)

/-- A path ends at the root exactly if its depth is zero. -/
lemma walk_eq_nil_iff (m : List (Move ν)) : walk [] m = [] ↔ depth 0 m = 0 := by
  rw [← List.length_eq_zero_iff, length_walk, List.length_nil]

lemma step_of_climbStep {s t : List ν} {x : Move ν} {k : ℕ}
    (h : climbStep s.length x = some k) :
    ∃ s' : List ν, s'.length = k ∧ step (s ++ t) x = s' ++ t := by
  cases x with
  | stay =>
      obtain rfl := Option.some.inj h
      exact ⟨s, rfl, rfl⟩
  | up =>
      cases s with
      | nil => cases h
      | cons d s =>
          obtain rfl := Option.some.inj h
          exact ⟨s, rfl, rfl⟩
  | down d =>
      have h' : climbStep s.length (down d) = some (s.length + 1) := by
        cases s.length <;> rfl
      obtain rfl := Option.some.inj (h'.symm.trans h)
      exact ⟨d :: s, rfl, rfl⟩

/-- **A walk that does not leave its start keeps what it stands on.** -/
lemma walk_of_climb {s t : List ν} {m : List (Move ν)} {k : ℕ} (h : climb s.length m = some k) :
    ∃ s' : List ν, s'.length = k ∧ walk (s ++ t) m = s' ++ t := by
  induction m generalizing s with
  | nil =>
      obtain rfl := Option.some.inj h
      exact ⟨s, rfl, rfl⟩
  | cons x m ih =>
      rw [climb, List.foldlM_cons] at h
      obtain ⟨j, hj, hrest⟩ := Option.bind_eq_some_iff.mp h
      obtain ⟨s₁, rfl, hs₁⟩ := step_of_climbStep (t := t) hj
      rw [walk, List.foldl_cons, hs₁]
      exact ih hrest

lemma climb_concat {k j : ℕ} {m : List (Move ν)} (h : climb k m = some j) (x : Move ν) :
    climb k (m ++ [x]) = climbStep j x := by
  rw [climb, List.foldlM_append, ← climb, h]
  exact (Option.bind_some _ _).trans (bind_pure _)

lemma walk_concat (s : List ν) (m : List (Move ν)) (x : Move ν) :
    walk s (m ++ [x]) = step (walk s m) x := walk_append s m [x]

/-- What a walk into `d` leaves when it does not leave `d` any more. -/
lemma walk_down {A B : List (Move ν)} {d : ν} {k : ℕ} (h : climb 0 B = some k) :
    ∃ s : List ν, s.length = k ∧ walk [] (A ++ down d :: B) = s ++ d :: walk [] A := by
  obtain ⟨s, hs, hwalk⟩ := walk_of_climb (s := []) (t := d :: walk [] A) h
  refine ⟨s, hs, ?_⟩
  rw [walk_append]
  exact hwalk

/-- **A walk from the root ends inside a directory exactly if it enters it and does not
leave it from then on.**  The induction takes the last move off. -/
theorem suffix_walk_iff {m : List (Move ν)} {d : ν} {D : List ν} :
    d :: D <:+ walk [] m ↔
      ∃ (A B : List (Move ν)) (k : ℕ), m = A ++ down d :: B ∧ walk [] A = D ∧
        climb 0 B = some k := by
  constructor
  · intro h
    induction m using List.reverseRecOn with
    | nil => exact absurd (List.suffix_nil.mp h) (by simp)
    | append_singleton m x ih =>
        rw [walk_concat] at h
        cases x with
        | stay =>
            obtain ⟨A, B, k, rfl, hA, hB⟩ := ih h
            exact ⟨A, B ++ [stay], k, by simp, hA, climb_concat hB stay⟩
        | up =>
            -- the directory is still there after going up, so the walk was below it
            obtain ⟨A, B, k, rfl, hA, hB⟩ := ih (h.trans (List.tail_suffix _))
            obtain ⟨s, hs, hwalk⟩ := walk_down (A := A) (d := d) hB
            cases s with
            | nil =>
                have hlen := h.length_le
                rw [step, hwalk, hA] at hlen
                simp at hlen
            | cons e s =>
                obtain rfl : s.length + 1 = k := hs
                exact ⟨A, B ++ [up], s.length, by simp, hA, climb_concat hB up⟩
        | down e =>
            rcases List.suffix_cons_iff.mp h with heq | h
            · obtain ⟨rfl, rfl⟩ := List.cons.inj heq
              exact ⟨m, [], 0, rfl, rfl, rfl⟩
            · obtain ⟨A, B, k, rfl, hA, hB⟩ := ih h
              refine ⟨A, B ++ [down e], k + 1, by simp, hA, (climb_concat hB _).trans ?_⟩
              cases k <;> rfl
  · rintro ⟨A, B, k, rfl, rfl, hB⟩
    obtain ⟨s, -, hwalk⟩ := walk_down (A := A) (d := d) hB
    rw [hwalk]
    exact List.suffix_append s _

/-- A walk from the root ends in a directory exactly if it enters it and then returns to
it without leaving it. -/
theorem walk_eq_cons_iff {m : List (Move ν)} {d : ν} {D : List ν} :
    walk [] m = d :: D ↔
      ∃ A B : List (Move ν), m = A ++ down d :: B ∧ walk [] A = D ∧ climb 0 B = some 0 := by
  constructor
  · intro h
    have hsuffix : d :: D <:+ walk [] m := by
      rw [h]
    obtain ⟨A, B, k, rfl, rfl, hB⟩ := suffix_walk_iff.mp hsuffix
    obtain ⟨s, rfl, hwalk⟩ := walk_down (A := A) (d := d) hB
    obtain rfl : s = [] := by
      have hlen := congrArg List.length (hwalk.symm.trans h)
      rw [List.length_append] at hlen
      exact List.length_eq_zero_iff.mp (by omega)
    exact ⟨A, B, rfl, rfl, hB⟩
  · rintro ⟨A, B, rfl, rfl, hB⟩
    obtain ⟨s, hs, hwalk⟩ := walk_down (A := A) (d := d) hB
    obtain rfl := List.length_eq_zero_iff.mp hs
    exact hwalk

end Move

/-! ### The segments of a word -/

/-- Splitting a word whose front has no separator. -/
lemma splitOn_append {α : Type*} [DecidableEq α] {w : List α} {c : α} (hw : c ∉ w) (v : List α) :
    (w ++ v).splitOn c = (v.splitOn c).modifyHead (w ++ ·) := by
  induction w with
  | nil =>
      rw [List.nil_append]
      cases v.splitOn c <;> rfl
  | cons x w ih =>
      rw [List.mem_cons, not_or] at hw
      rw [List.cons_append, List.splitOn_cons_eq_if_modifyHead,
        if_neg (by simpa using Ne.symm hw.1), ih hw.2]
      cases v.splitOn c <;> rfl

end Library
