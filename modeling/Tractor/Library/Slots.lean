import Mathlib

/-!
Tables of keys with an index: a list of slots, each with a key, and a partial map that
finds the slot of a key.

* `exists_getLastD`: the last entry, by its place and as the table's own function finds it.
* `Indexes index keys`: the map finds every key of the table at its place and nothing else.
* `Indexes.push`, `Indexes.pop`, `Indexes.swapRemove`: adding a slot, removing the last
  one, and removing any other one by moving the last slot into its place.
* `Indexes.nodup`, `Indexes.encard_eq`: no key is there twice, and the map has as many keys
  as the table has slots.
-/

namespace Library

variable {K : Type*}

/-- The last entry of a table that has one. -/
lemma exists_getLastD {l : List K} (h : 0 < l.length) :
    ∃ x, l[l.length - 1]? = some x ∧ ∀ d, l.getLastD d = x := by
  refine ⟨_, List.getElem?_eq_getElem (Nat.sub_lt h Nat.one_pos), fun d => ?_⟩
  rw [List.getLastD_eq_getLast?, List.getLast?_eq_getElem?,
    List.getElem?_eq_getElem (Nat.sub_lt h Nat.one_pos)]
  rfl

/-- The key `k` is found at `i` exactly if it stands there. -/
def Indexes (index : K → Option ℕ) (keys : List K) : Prop :=
  ∀ k i, index k = some i ↔ keys[i]? = some k

namespace Indexes

variable {index : K → Option ℕ} {keys : List K}

lemma nil : Indexes (fun _ : K => none) [] := by
  intro k i
  simp

lemma lt_length (h : Indexes index keys) {k : K} {i : ℕ} (hk : index k = some i) :
    i < keys.length :=
  (List.getElem?_eq_some_iff.mp ((h k i).mp hk)).1

lemma mem_iff (h : Indexes index keys) {k : K} : k ∈ keys ↔ index k ≠ none := by
  rw [List.mem_iff_getElem?, Option.ne_none_iff_exists']
  exact exists_congr fun i => (h k i).symm

/-- Distinct keys have distinct slots. -/
lemma inj (h : Indexes index keys) {k k' : K} {i : ℕ} (hk : index k = some i)
    (hk' : index k' = some i) : k = k' :=
  Option.some.inj (((h k i).mp hk).symm.trans ((h k' i).mp hk'))

lemma nodup (h : Indexes index keys) : keys.Nodup := by
  rw [List.nodup_iff_getElem?_ne_getElem?]
  intro i j hij hj heq
  have hk := List.getElem?_eq_getElem hj
  have hi := (h _ i).mpr (heq.trans hk)
  have hj' := (h _ j).mpr hk
  exact absurd (Option.some.inj (hi.symm.trans hj')) hij.ne

/-- There are as many keys as slots. -/
lemma encard_eq (h : Indexes index keys) : {k | index k ≠ none}.encard = keys.length := by
  classical
  have hset : {k | index k ≠ none} = (keys.toFinset : Set K) := by
    ext k
    simp [h.mem_iff]
  rw [hset, Set.encard_coe_eq_coe_finsetCard, List.toFinset_card_of_nodup h.nodup]

variable [DecidableEq K]

/-- A new key goes to the end. -/
lemma push (h : Indexes index keys) {k : K} (hk : index k = none) :
    Indexes (Function.update index k (some keys.length)) (keys ++ [k]) := by
  intro k' i
  by_cases hkk : k' = k
  · subst hkk
    simp only [Function.update_self, Option.some.injEq]
    constructor
    · rintro rfl
      simp
    · intro hi
      by_contra hne
      rcases Nat.lt_or_gt_of_ne hne with hlt | hgt
      · rw [List.getElem?_eq_none (by simp; omega)] at hi
        exact absurd hi (by simp)
      · rw [List.getElem?_append_left hgt] at hi
        exact absurd (hk.symm.trans ((h k' i).mpr hi)) (by simp)
  · rw [Function.update_of_ne hkk, h k' i, List.getElem?_append]
    split_ifs with hi
    · exact Iff.rfl
    · rw [List.getElem?_eq_none (by omega)]
      refine iff_of_false (by simp) fun hlast => ?_
      have hmem : k' ∈ [k] := List.mem_of_getElem? hlast
      exact hkk (by simpa using hmem)

/-- The last slot is dropped with its key. -/
lemma pop (h : Indexes index keys) {k : K} {i : ℕ} (hk : index k = some i)
    (hlast : i = keys.length - 1) : Indexes (Function.update index k none) keys.dropLast := by
  have hlt := h.lt_length hk
  intro k' j
  rw [List.getElem?_dropLast]
  by_cases hkk : k' = k
  · subst hkk
    refine iff_of_false (by simp) fun hj => ?_
    split_ifs at hj with hlen
    have hj' := Option.some.inj (hk.symm.trans ((h k' j).mpr hj))
    omega
  · rw [Function.update_of_ne hkk, h k' j]
    split_ifs with hj
    · exact Iff.rfl
    · refine iff_of_false (fun hj' => ?_) (by simp)
      have hlen := (List.getElem?_eq_some_iff.mp hj').1
      obtain rfl : i = j := by omega
      exact hkk (h.inj ((h k' i).mpr hj') hk)

/-- The last slot moves into the place of the key that is removed. -/
lemma swapRemove (h : Indexes index keys) {k l : K} {i : ℕ} (hk : index k = some i)
    (hl : index l = some (keys.length - 1)) (hlast : i ≠ keys.length - 1) :
    Indexes (Function.update (Function.update index k none) l (some i))
      (keys.set i l).dropLast := by
  have hlt := h.lt_length hk
  have hkl : k ≠ l := by
    rintro rfl
    exact hlast (Option.some.inj (hk.symm.trans hl))
  intro k' j
  rw [List.getElem?_dropLast, List.length_set, List.getElem?_set]
  by_cases hl' : k' = l
  · subst hl'
    rw [Function.update_self]
    constructor
    · rintro ⟨⟩
      rw [if_pos (by omega), if_pos rfl, if_pos hlt]
    · intro hj
      split_ifs at hj with hlen hij
      · rw [hij]
      · have hj' := Option.some.inj (hl.symm.trans ((h k' j).mpr hj))
        omega
  · rw [Function.update_of_ne hl']
    by_cases hkk : k' = k
    · subst hkk
      refine iff_of_false (by simp) fun hj => ?_
      split_ifs at hj with hlen hij
      · exact hl' (Option.some.inj hj).symm
      · exact hij (Option.some.inj (hk.symm.trans ((h k' j).mpr hj)))
    · rw [Function.update_of_ne hkk, h k' j]
      split_ifs with hlen hij
      · -- the old key of the place is gone
        subst hij
        refine iff_of_false (fun hi => hkk (h.inj ((h k' i).mpr hi) hk)) fun hi => ?_
        exact hl' (Option.some.inj hi).symm
      · exact Iff.rfl
      · refine iff_of_false (fun hj => ?_) (by simp)
        have hj' := (List.getElem?_eq_some_iff.mp hj).1
        obtain rfl : j = keys.length - 1 := by omega
        exact hl' (h.inj ((h k' _).mpr hj) hl)

end Indexes

end Library
