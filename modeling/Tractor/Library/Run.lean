import Mathlib

/-!
Runs of a step function over a list of labels.

* `Along step P s l`: `P` holds at every state the run of `l` from `s` comes
  through, of that state and the label it takes next.  The run stops at the
  first label whose step is not possible.
* `Passes step s l`: no step of the run fails; `along_iff` compares two properties of
  the steps of such a run, and `passes_iff` decides it from a record that is kept beside
  the run, as `along_record_iff` decides a property of its steps.
* `Reach step ok s s'`: `s'` is reached from `s` by labels that all meet `ok`;
  `Reach.invariant` is the rule that what one such step keeps, a run keeps.
* `exec step ok s l`: the state the labels `l` lead to, for computing runs;
  `Reach.of_exec` turns such a computation into a run.
-/

namespace Library

variable {σ α ε : Type*}

/-- `P` holds at every state of the run, of the state and the label taken there. -/
def Along (step : σ → α → Except ε σ) (P : σ → α → Prop) : σ → List α → Prop
  | _, [] => True
  | s, a :: l => P s a ∧ ∀ s', step s a = .ok s' → Along step P s' l

lemma along_cons_iff {step : σ → α → Except ε σ} {P : σ → α → Prop} {s s' : σ} {a : α}
    {l : List α} (h : step s a = .ok s') :
    Along step P s (a :: l) ↔ P s a ∧ Along step P s' l := by
  refine and_congr_right fun _ => ⟨fun hrest => hrest s' h, fun hrest s'' h' => ?_⟩
  obtain rfl := Except.ok.inj (h.symm.trans h')
  exact hrest

/-- What holds along a run holds where any part of it has led. -/
lemma Along.of_foldlM {step : σ → α → Except ε σ} {P : σ → α → Prop} {s s' : σ} {a : α}
    {l l' : List α} (h : Along step P s (l ++ a :: l')) (hrun : l.foldlM step s = .ok s') :
    P s' a := by
  induction l generalizing s with
  | nil =>
      obtain rfl := Except.ok.inj hrun
      exact h.1
  | cons b l ih =>
      rw [List.foldlM_cons] at hrun
      cases hb : step s b with
      | error e => simp [hb, bind, Except.bind] at hrun
      | ok s₁ =>
          rw [hb] at hrun
          exact ih (h.2 s₁ hb) hrun

instance Along.decidable {step : σ → α → Except ε σ} {P : σ → α → Prop}
    [∀ s a, Decidable (P s a)] : ∀ (s : σ) (l : List α), Decidable (Along step P s l)
  | _, [] => isTrue trivial
  | s, a :: l =>
      match h : step s a with
      | .ok s' =>
          have := (Along.decidable s' l : Decidable (Along step P s' l))
          decidable_of_iff (P s a ∧ Along step P s' l) (along_cons_iff h).symm
      | .error e =>
          decidable_of_iff (P s a)
            ⟨fun hP => ⟨hP, fun s' hs' => absurd (h.symm.trans hs') (by simp)⟩, And.left⟩

/-- No step of the run fails. -/
def Passes (step : σ → α → Except ε σ) (s : σ) (l : List α) : Prop :=
  Along step (fun s a => ∃ s', step s a = .ok s') s l

instance {step : σ → α → Except ε σ} (s : σ) (l : List α) : Decidable (Passes step s l) :=
  have : ∀ s a, Decidable (∃ s', step s a = .ok s') := fun s a =>
    match step s a with
    | .ok s' => isTrue ⟨s', rfl⟩
    | .error _ => isFalse (by simp)
  Along.decidable s l

/-- On a run that passes, two properties of its steps hold all along together, if they are
the same wherever the invariant holds and any of them keeps it. -/
theorem along_iff {step : σ → α → Except ε σ} {I : σ → Prop} {P Q : σ → α → Prop}
    (hstep : ∀ s a s', I s → step s a = .ok s' → (P s a ↔ Q s a) ∧ (Q s a → I s'))
    {s : σ} {l : List α} (hpass : Passes step s l) (hs : I s) :
    Along step P s l ↔ Along step Q s l := by
  induction l generalizing s with
  | nil => exact Iff.rfl
  | cons a l ih =>
      obtain ⟨⟨s', hs'⟩, hrest⟩ := hpass
      obtain ⟨hiff, hkeep⟩ := hstep s a s' hs hs'
      rw [along_cons_iff hs', along_cons_iff hs', hiff]
      refine and_congr_right fun hQ => ?_
      exact ih (hrest s' hs') (hkeep hQ)

/-- A record `t` is kept beside the run by `follow`, which never fails.  Where the labels
meet `W` and each step passes exactly if the record meets `Q`, the run passes exactly if the
record meets `Q` all along. -/
theorem passes_iff {τ : Type*} {step : σ → α → Except ε σ} {follow : τ → α → τ}
    {R : σ → τ → Prop} {W Q : τ → α → Prop}
    (hstep : ∀ s t a, R s t → W t a → ((∃ s', step s a = .ok s') ↔ Q t a) ∧
      ∀ s', step s a = .ok s' → R s' (follow t a))
    {s : σ} {t : τ} {l : List α} (hst : R s t)
    (hW : Along (fun t a => (.ok (follow t a) : Except ε τ)) W t l) :
    Passes step s l ↔ Along (fun t a => (.ok (follow t a) : Except ε τ)) Q t l := by
  induction l generalizing s t with
  | nil => exact Iff.rfl
  | cons a l ih =>
      obtain ⟨hWa, hrest⟩ := hW
      obtain ⟨hiff, hkeep⟩ := hstep s t a hst hWa
      rw [along_cons_iff (rfl : (.ok (follow t a) : Except ε τ) = .ok (follow t a)), ← hiff]
      constructor
      · rintro ⟨⟨s', hs'⟩, hpass⟩
        exact ⟨⟨s', hs'⟩, (ih (hkeep s' hs') (hrest _ rfl)).mp (hpass s' hs')⟩
      · rintro ⟨⟨s', hs'⟩, hQ⟩
        exact (along_cons_iff hs').mpr ⟨⟨s', hs'⟩, (ih (hkeep s' hs') (hrest _ rfl)).mpr hQ⟩

/-- A record `t` is kept beside the run.  Where the labels meet `W` and every step passes, a
property of the steps that the record decides holds all along exactly if the record meets `Q`
all along; the two need to belong together only as long as it does. -/
theorem along_record_iff {τ ε' : Type*} {step : σ → α → Except ε σ} {follow : τ → α → τ}
    {R : σ → τ → Prop} {W Q : τ → α → Prop} {P : σ → α → Prop}
    (hstep : ∀ s t a, R s t → W t a → (∃ s', step s a = .ok s') ∧ (P s a ↔ Q t a) ∧
      (Q t a → ∀ s', step s a = .ok s' → R s' (follow t a)))
    {s : σ} {t : τ} {l : List α} (hst : R s t)
    (hW : Along (fun t a => (.ok (follow t a) : Except ε' τ)) W t l) :
    Along step P s l ↔ Along (fun t a => (.ok (follow t a) : Except ε' τ)) Q t l := by
  induction l generalizing s t with
  | nil => exact Iff.rfl
  | cons a l ih =>
      obtain ⟨hWa, hrest⟩ := hW
      obtain ⟨⟨s', hs'⟩, hiff, hkeep⟩ := hstep s t a hst hWa
      rw [along_cons_iff hs', along_cons_iff (rfl : (.ok (follow t a) : Except ε' τ) = _), hiff]
      exact and_congr_right fun hQ => ih (hkeep hQ s' hs') (hrest _ rfl)

/-- `s'` is reached from `s` by steps whose labels meet `ok` where they are taken. -/
def Reach (step : σ → α → Option σ) (ok : σ → α → Prop) : σ → σ → Prop :=
  Relation.ReflTransGen fun s s' => ∃ a, ok s a ∧ step s a = some s'

namespace Reach

variable {step : σ → α → Option σ} {ok ok' : σ → α → Prop} {s s' s'' : σ}

lemma refl (s : σ) : Reach step ok s s := Relation.ReflTransGen.refl

lemma tail (h : Reach step ok s s') {a : α} (ha : ok s' a) (hstep : step s' a = some s'') :
    Reach step ok s s'' :=
  Relation.ReflTransGen.tail h ⟨a, ha, hstep⟩

lemma mono (hok : ∀ s a, ok s a → ok' s a) (h : Reach step ok s s') : Reach step ok' s s' := by
  refine Relation.ReflTransGen.mono ?_ _ _ h
  rintro s s' ⟨a, ha, hstep⟩
  exact ⟨a, hok s a ha, hstep⟩

/-- What holds at the start and is kept by every admitted step holds in every state
reached. -/
theorem invariant {I : σ → Prop}
    (hstep : ∀ s a s', I s → ok s a → step s a = some s' → I s')
    (h : Reach step ok s s') (hs : I s) : I s' := by
  induction h with
  | refl => exact hs
  | tail _ h' ih =>
      obtain ⟨a, ha, hstep'⟩ := h'
      exact hstep _ a _ ih ha hstep'

end Reach

/-- The state the labels lead to, if all their steps are possible and meet `ok`. -/
def exec (step : σ → α → Option σ) (ok : σ → α → Prop) [∀ s a, Decidable (ok s a)] :
    σ → List α → Option σ
  | s, [] => some s
  | s, a :: l => if ok s a then (step s a).bind fun s' => exec step ok s' l else none

lemma Reach.of_exec {step : σ → α → Option σ} {ok : σ → α → Prop} [∀ s a, Decidable (ok s a)]
    {s₀ s s' : σ} {l : List α} (h : Reach step ok s₀ s) (hexec : exec step ok s l = some s') :
    Reach step ok s₀ s' := by
  induction l generalizing s with
  | nil =>
      obtain rfl : s = s' := by simpa [exec] using hexec
      exact h
  | cons a l ih =>
      rw [exec] at hexec
      split_ifs at hexec with ha
      obtain ⟨s₁, hs₁, hrest⟩ := Option.bind_eq_some_iff.mp hexec
      exact ih (h.tail ha hs₁) hrest

end Library
