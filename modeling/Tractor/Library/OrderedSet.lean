import Mathlib

/-!
Ordered sets as their iteration visits them: lists in strictly ascending order, with what
`std::set` does on them.

* `insert`, `below`, `atLeast`, `first?`: insertion, the elements before `lower_bound` and
  from it on, and the element `begin()` points to.
* `mem_insert`, `mem_below`, `mem_atLeast`: what these contain; `first?_eq_some` says that the
  first element is the least.
* `forall_first?_iff`: what holds of the first element of a set with further elements.
-/

namespace Library

/-- A list in strictly ascending order. -/
structure OrderedSet (α : Type*) [LinearOrder α] where
  toList : List α
  sorted : toList.Pairwise (· < ·)

namespace OrderedSet

variable {α : Type*} [LinearOrder α] {s : OrderedSet α} {a b x : α}

instance : Membership α (OrderedSet α) := ⟨fun s a => a ∈ s.toList⟩

instance (s : OrderedSet α) (a : α) : Decidable (a ∈ s) :=
  inferInstanceAs (Decidable (a ∈ s.toList))

lemma mem_toList : a ∈ s.toList ↔ a ∈ s := Iff.rfl

def empty : OrderedSet α := ⟨[], List.Pairwise.nil⟩

@[simp] lemma notMem_empty : a ∉ (empty : OrderedSet α) := List.not_mem_nil

/-- The element `begin()` points to, if the set is not empty. -/
def first? (s : OrderedSet α) : Option α := s.toList.head?

/-- The elements before `lower_bound(b)`. -/
def below (s : OrderedSet α) (b : α) : List α := s.toList.takeWhile (· < b)

/-- `erase(begin(), lower_bound(b))`. -/
def atLeast (s : OrderedSet α) (b : α) : OrderedSet α where
  toList := s.toList.dropWhile (· < b)
  sorted := s.sorted.sublist (List.dropWhile_sublist _)

lemma below_append_atLeast (s : OrderedSet α) (b : α) :
    s.below b ++ (s.atLeast b).toList = s.toList := List.takeWhile_append_dropWhile

lemma below_sorted (s : OrderedSet α) (b : α) : (s.below b).Pairwise (· < ·) :=
  s.sorted.sublist (List.takeWhile_sublist _)

lemma first?_eq_none : s.first? = none ↔ ∀ x, x ∉ s := by
  rw [first?, List.head?_eq_none_iff, List.eq_nil_iff_forall_not_mem]
  rfl

lemma mem_of_first? (h : s.first? = some a) : a ∈ s := List.mem_of_mem_head? h

/-- The first element is the least. -/
lemma first?_le (h : s.first? = some a) (hx : x ∈ s) : a ≤ x := by
  obtain ⟨l, hl⟩ := List.head?_eq_some_iff.mp h
  have hsorted := s.sorted
  rw [hl] at hsorted
  rcases List.mem_cons.mp (hl ▸ mem_toList.mpr hx) with rfl | hx
  · exact le_rfl
  · exact (List.rel_of_pairwise_cons hsorted hx).le

lemma first?_eq_some : s.first? = some a ↔ a ∈ s ∧ ∀ x ∈ s, a ≤ x := by
  refine ⟨fun h => ⟨mem_of_first? h, fun x hx => first?_le h hx⟩, fun ⟨hmem, hle⟩ => ?_⟩
  cases hfirst : s.first? with
  | none => exact absurd hmem (first?_eq_none.mp hfirst a)
  | some b => rw [(first?_le hfirst hmem).antisymm (hle b (mem_of_first? hfirst))]

/-- The elements of `s` and those that meet `Q`, which all meet `P`: the first one meets `P` if that
of `s` does, or if one of the others comes before it. -/
lemma forall_first?_iff {t : OrderedSet α} {P Q : α → Prop} (ht : ∀ x, x ∈ t ↔ x ∈ s ∨ Q x)
    (hQ : ∀ x, Q x → P x) :
    (∀ x ∈ t.first?, P x) ↔ ∀ x ∈ s.first?, P x ∨ ∃ y, Q y ∧ y < x := by
  constructor
  · intro h x hx
    by_cases hlt : ∃ y, Q y ∧ y < x
    · exact Or.inr hlt
    · refine Or.inl (h x (first?_eq_some.mpr ⟨(ht x).mpr (Or.inl (mem_of_first? hx)), ?_⟩))
      intro y hy
      rcases (ht y).mp hy with hy | hy
      · exact first?_le hx hy
      · exact not_lt.mp fun hyx => hlt ⟨y, hy, hyx⟩
  · intro h x hx
    rcases (ht x).mp (mem_of_first? hx) with hmem | hmem
    · cases hfirst : s.first? with
      | none => exact absurd hmem (first?_eq_none.mp hfirst x)
      | some y =>
          -- the two sets begin with the same element
          have hxy : x ≤ y := first?_le hx ((ht y).mpr (Or.inl (mem_of_first? hfirst)))
          obtain rfl := hxy.antisymm (first?_le hfirst hmem)
          refine (h x hfirst).resolve_right ?_
          rintro ⟨z, hz, hlt⟩
          exact (first?_le hx ((ht z).mpr (Or.inr hz))).not_gt hlt
    · exact hQ x hmem

/-- Behind `lower_bound(b)` nothing is less than `b`. -/
lemma le_of_mem_atLeast (h : x ∈ s.atLeast b) : b ≤ x := by
  cases hfirst : (s.atLeast b).first? with
  | none => exact absurd h (first?_eq_none.mp hfirst x)
  | some y =>
      have hhead := List.head?_dropWhile_not (· < b) s.toList
      rw [show (s.toList.dropWhile (· < b)).head? = some y from hfirst] at hhead
      have hy : b ≤ y := by simpa using hhead
      exact hy.trans (first?_le hfirst h)

lemma mem_below : x ∈ s.below b ↔ x ∈ s ∧ x < b := by
  refine ⟨fun h => ⟨List.takeWhile_subset _ h, ?_⟩, fun ⟨hmem, hlt⟩ => ?_⟩
  · simpa using List.mem_takeWhile_imp h
  · rw [← mem_toList, ← below_append_atLeast s b, List.mem_append] at hmem
    exact hmem.resolve_right fun h => (le_of_mem_atLeast h).not_gt hlt

lemma mem_atLeast : x ∈ s.atLeast b ↔ x ∈ s ∧ b ≤ x := by
  refine ⟨fun h => ⟨List.dropWhile_subset _ h, le_of_mem_atLeast h⟩, fun ⟨hmem, hle⟩ => ?_⟩
  rw [← mem_toList, ← below_append_atLeast s b, List.mem_append] at hmem
  exact hmem.resolve_left fun h => (mem_below.mp h).2.not_ge hle

/-- Insertion, which leaves a set alone that has the element. -/
def insert (s : OrderedSet α) (a : α) : OrderedSet α :=
  if h : a ∈ s then s
  else
    { toList := s.below a ++ a :: (s.atLeast a).toList
      sorted := by
        rw [List.pairwise_append, List.pairwise_cons]
        have habove : ∀ y ∈ (s.atLeast a).toList, a < y := by
          intro y hy
          obtain ⟨hmem, hle⟩ := mem_atLeast.mp (mem_toList.mp hy)
          refine hle.lt_of_ne ?_
          rintro rfl
          exact h hmem
        refine ⟨s.below_sorted a, ⟨habove, (s.atLeast a).sorted⟩, fun x hx y hy => ?_⟩
        have hxa := (mem_below.mp hx).2
        rcases List.mem_cons.mp hy with rfl | hy
        · exact hxa
        · exact hxa.trans (habove y hy) }

lemma mem_insert : x ∈ s.insert a ↔ x = a ∨ x ∈ s := by
  unfold insert
  split_ifs with h
  · refine ⟨Or.inr, ?_⟩
    rintro (rfl | hx)
    · exact h
    · exact hx
  · rw [← mem_toList, ← mem_toList, List.mem_append, List.mem_cons,
      ← below_append_atLeast s a, List.mem_append]
    tauto

/-- The first element behind an insertion into the empty set. -/
lemma first?_insert_of_none (h : s.first? = none) (a : α) : (s.insert a).first? = some a := by
  refine first?_eq_some.mpr ⟨mem_insert.mpr (Or.inl rfl), fun x hx => ?_⟩
  rcases mem_insert.mp hx with rfl | hx
  · exact le_rfl
  · exact absurd hx (first?_eq_none.mp h x)

/-- The first element behind an insertion into a set that has one. -/
lemma first?_insert_of_some (h : s.first? = some b) (a : α) :
    (s.insert a).first? = some (min a b) := by
  refine first?_eq_some.mpr ⟨mem_insert.mpr ?_, fun x hx => ?_⟩
  · rcases min_choice a b with hmin | hmin
    · exact Or.inl hmin
    · rw [hmin]
      exact Or.inr (mem_of_first? h)
  · rcases mem_insert.mp hx with rfl | hx
    · exact min_le_left x b
    · exact (min_le_right a b).trans (first?_le h hx)

end OrderedSet

end Library
