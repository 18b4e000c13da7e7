import Mathlib

/-!
Code that checks its assertions, and loops of the form `while (cond) body` whose
body may fail.

* `check p e`: the failure `e` unless `p` holds; `check_bind_eq_ok` and
  `check_bind_eq_error` read a checked computation that succeeded or failed,
  `check_bind_of` and `check_bind_not` run it; `toOption_eq_some` forgets the failure.
* `whileFuel cond body n s`: at most `n` rounds from the state `s`; `none` when
  they were not enough, otherwise the state the loop left or the failure that
  stopped it.  `whileFuel_round`, `whileFuel_failed` and `whileFuel_of_not` run it;
  `whileFuel_invariant` is the rule for what every round keeps, `whileFuel_fixed` for a
  loop that does not end.
* `whileFuel_sim`: loops in lockstep have related outcomes.
* `Outcome`: a value, a failure, or a loop that does not end.
-/

namespace Library

variable {σ ε : Type*} {α : Type}

/-! ### Checked assertions -/

/-- Fail with `e` unless `p` holds. -/
def check (p : Prop) [Decidable p] (e : ε) : Except ε Unit :=
  if p then .ok () else .error e

lemma check_bind_of {p : Prop} [Decidable p] (hp : p) (e : ε) (f : Unit → Except ε α) :
    (check p e >>= f) = f () := by
  rw [check, if_pos hp]
  rfl

lemma check_bind_not {p : Prop} [Decidable p] (hp : ¬ p) (e : ε) (f : Unit → Except ε α) :
    (check p e >>= f) = .error e := by
  rw [check, if_neg hp]
  rfl

/-- A checked computation that succeeded passed its check. -/
lemma check_bind_eq_ok {p : Prop} [Decidable p] {e : ε} {f : Unit → Except ε α} {a : α} :
    (check p e >>= f) = .ok a ↔ p ∧ f () = .ok a := by
  by_cases hp : p
  · rw [check_bind_of hp]
    simp [hp]
  · rw [check_bind_not hp]
    simp [hp]

/-- A checked computation that failed did so at its check or behind it. -/
lemma check_bind_eq_error {p : Prop} [Decidable p] {e e' : ε} {f : Unit → Except ε α} :
    (check p e >>= f) = .error e' ↔ ¬ p ∧ e = e' ∨ p ∧ f () = .error e' := by
  by_cases hp : p
  · rw [check_bind_of hp]
    simp [hp]
  · rw [check_bind_not hp]
    simp [hp]

lemma toOption_eq_some {x : Except ε α} {a : α} : x.toOption = some a ↔ x = .ok a := by
  cases x <;> simp [Except.toOption]

/-! ### Loops -/

/-- How a piece of code can end: with a value, stopped by a failure, or not at all. -/
inductive Outcome (ε α : Type*) where
  | ret (a : α)
  | abort (e : ε)
  | hang
  deriving DecidableEq

section Loop

variable (cond : σ → Bool) (body : σ → Except ε σ)

/-- At most `n` rounds of `while (cond) body`. -/
def whileFuel : ℕ → σ → Option (Except ε σ)
  | 0, s => if cond s then none else some (.ok s)
  | n + 1, s =>
      if cond s then
        match body s with
        | .ok s' => whileFuel n s'
        | .error e => some (.error e)
      else some (.ok s)

variable {cond body}

lemma whileFuel_of_not {s : σ} (h : cond s = false) (n : ℕ) :
    whileFuel cond body n s = some (.ok s) := by
  cases n <;> simp [whileFuel, h]

lemma whileFuel_round {s s' : σ} (h : cond s = true) (hb : body s = .ok s') (n : ℕ) :
    whileFuel cond body (n + 1) s = whileFuel cond body n s' := by
  simp [whileFuel, h, hb]

lemma whileFuel_failed {s : σ} {e : ε} (h : cond s = true) (hb : body s = .error e) (n : ℕ) :
    whileFuel cond body (n + 1) s = some (.error e) := by
  simp [whileFuel, h, hb]

/-- A round that changes nothing is repeated for ever. -/
lemma whileFuel_fixed {s : σ} (h : cond s = true) (hb : body s = .ok s) (n : ℕ) :
    whileFuel cond body n s = none := by
  induction n with
  | zero => simp [whileFuel, h]
  | succ n ih => rw [whileFuel_round h hb, ih]

/-- What every round keeps holds of the state the loop leaves. -/
theorem whileFuel_invariant {I : σ → Prop} (hbody : ∀ s s', I s → body s = .ok s' → I s')
    {n : ℕ} {s s' : σ} (h : whileFuel cond body n s = some (.ok s')) (hs : I s) : I s' := by
  cases hc : cond s with
  | false =>
      rw [whileFuel_of_not hc] at h
      obtain rfl := Except.ok.inj (Option.some.inj h)
      exact hs
  | true =>
      cases n with
      | zero => simp [whileFuel, hc] at h
      | succ n =>
          cases hb : body s with
          | ok s₁ =>
              rw [whileFuel_round hc hb] at h
              exact whileFuel_invariant hbody h (hbody s s₁ hs hb)
          | error e =>
              rw [whileFuel_failed hc hb] at h
              cases Option.some.inj h

end Loop

/-! ### Simulation of loops -/

/-- Two outcomes of checked code are related: the same failure, or related states. -/
inductive ExceptRel {τ : Type*} (R : σ → τ → Prop) : Except ε σ → Except ε τ → Prop
  | ok {s : σ} {t : τ} (h : R s t) : ExceptRel R (.ok s) (.ok t)
  | error (e : ε) : ExceptRel R (.error e) (.error e)

/-- Loops whose tests agree and whose bodies lead from related states to related
outcomes have related outcomes after any number of rounds. -/
theorem whileFuel_sim {τ : Type*} {R : σ → τ → Prop} {cond : σ → Bool} {cond' : τ → Bool}
    {body : σ → Except ε σ} {body' : τ → Except ε τ}
    (hcond : ∀ s t, R s t → cond s = cond' t)
    (hbody : ∀ s t, R s t → ExceptRel R (body s) (body' t))
    (n : ℕ) {s : σ} {t : τ} (hst : R s t) :
    Option.Rel (ExceptRel R) (whileFuel cond body n s) (whileFuel cond' body' n t) := by
  induction n generalizing s t with
  | zero =>
      cases hc : cond s with
      | false =>
          rw [whileFuel_of_not hc, whileFuel_of_not (by rw [← hcond s t hst, hc])]
          exact .some (.ok hst)
      | true =>
          have hc' : cond' t = true := by rw [← hcond s t hst, hc]
          simp only [whileFuel, hc, hc', if_true]
          exact .none
  | succ n ih =>
      cases hc : cond s with
      | false =>
          rw [whileFuel_of_not hc, whileFuel_of_not (by rw [← hcond s t hst, hc])]
          exact .some (.ok hst)
      | true =>
          have hc' : cond' t = true := by rw [← hcond s t hst, hc]
          have hrel := hbody s t hst
          cases hb : body s with
          | ok s' =>
              cases hb' : body' t with
              | ok t' =>
                  rw [hb, hb'] at hrel
                  cases hrel with
                  | ok hst' =>
                      rw [whileFuel_round hc hb, whileFuel_round hc' hb']
                      exact ih hst'
              | error e =>
                  rw [hb, hb'] at hrel
                  cases hrel
          | error e =>
              cases hb' : body' t with
              | ok t' =>
                  rw [hb, hb'] at hrel
                  cases hrel
              | error e' =>
                  rw [hb, hb'] at hrel
                  cases hrel
                  rw [whileFuel_failed hc hb, whileFuel_failed hc' hb']
                  exact .some (.error e)

end Library
