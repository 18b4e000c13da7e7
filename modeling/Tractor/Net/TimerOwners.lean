import Tractor.Net.TimerObjects

/-!
Who may let go of a `Timer`.

* `Sound`: a pointer that the queue holds was not released, and a timer is released once, when its
  last shared owner has let go.
* `Counted.sound_iff`: that is so if what the queue holds is owned.
* `Keeps`: the condition on a step: no last shared owner of a timer that the queue holds lets go,
  and nothing is deleted.
* `owners_iff`: **everything is sound in a run whose steps meet the condition, and stays sound
  exactly in those that meet it**; so the caller must keep what `addTimer` returned, and no one-shot
  timer may ever be due.
* `add_timer_dropped`: what happens to a timer whose pointer is dropped at once.
-/

namespace Tractor

open Library

namespace OwnedQueue

variable {s s' : OwnedQueue} {l : Label} {a : ℕ}

/-- **Soundness**: a pointer that the queue holds was not released, no timer is released twice, and
one was released exactly if it was made and has no shared owner any more. -/
structure Sound (s : OwnedQueue) : Prop where
  stored : ∀ a, s.queue.Holds a → s.released a = 0
  once : ∀ a, s.released a ≤ 1
  gone : ∀ a, s.released a = 1 ↔ s.made a = true ∧ s.owners a = 0

/-- **What the queue holds is owned**: then everything is sound. -/
lemma Counted.sound_iff (h : s.Counted) :
    s.Sound ↔ ∀ a, s.queue.Holds a → s.owners a ≠ 0 := by
  constructor
  · intro hsound a ha hnone
    have hmade := (h.added a (h.tracked.added_of_holds ha)).1
    have hreleased := (hsound.gone a).mpr ⟨hmade, hnone⟩
    rw [hsound.stored a ha] at hreleased
    exact absurd hreleased (by simp)
  · intro howned
    refine ⟨fun a ha => h.released_of_owned (howned a ha), fun a => ?_, fun a => ?_⟩
    · rw [h.released a]
      split_ifs <;> simp
    · rw [h.released a]
      split_ifs with hgone <;> simp [hgone]

/-- **The condition**: the step does not make the last shared owner of a timer let go that the
queue holds, `reset` finds only repeating timers in its batch, and the destructor an empty queue. -/
def Keeps (s : OwnedQueue) : Label → Prop
  | .dropFunctor a => s.queue.Holds a → 1 < s.owners a
  | .drop a => s.queue.Holds a → 1 < s.owners a
  | .queue (.reset ..) => ∀ e ∈ s.queue.phase.expired, (s.queue.heap e.second).getRepeat = true
  | .destroy => s.queue.timers.first? = none
  | _ => True

instance (s : OwnedQueue) : DecidablePred s.Keeps
  | .dropFunctor a => inferInstanceAs (Decidable (s.queue.Holds a → 1 < s.owners a))
  | .drop a => inferInstanceAs (Decidable (s.queue.Holds a → 1 < s.owners a))
  | .queue (.reset ..) => inferInstanceAs (Decidable (∀ e ∈ s.queue.phase.expired,
      (s.queue.heap e.second).getRepeat = true))
  | .destroy => inferInstanceAs (Decidable (s.queue.timers.first? = none))
  | .addTimer .. => isTrue trivial
  | .post .. => isTrue trivial
  | .runFunctor .. => isTrue trivial
  | .queue (.addTimerInLoop ..) => isTrue trivial
  | .queue (.handleRead _) => isTrue trivial
  | .queue .run => isTrue trivial
  | .queue .expire => isTrue trivial

/-! ### Steps by which nobody lets go -/

/-- A shared owner lets go. -/
def LetsGo : Label → Prop
  | .dropFunctor _ => True
  | .drop _ => True
  | _ => False

/-- Where everything is sound, a step by which nobody lets go passes exactly if nothing is deleted
in it. -/
lemma Sound.safe_iff (hsound : s.Sound) (hl : ¬ LetsGo l) : s.Safe l ↔ s.Keeps l := by
  cases l with
  | dropFunctor a => exact absurd trivial hl
  | drop a => exact absurd trivial hl
  | addTimer a t clock => exact Iff.rfl
  | post a t => exact Iff.rfl
  | runFunctor a clock => exact Iff.rfl
  | destroy => exact Iff.rfl
  | queue l =>
      cases l with
      | addTimerInLoop a t clock => exact Iff.rfl
      | handleRead now => exact Iff.rfl
      | expire => exact Iff.rfl
      | run =>
          refine iff_of_true (fun e he => hsound.stored _ (Or.inr ⟨e, ?_, rfl⟩)) trivial
          exact s.queue.phase.mem_expired_of_next he
      | reset garbage clock =>
          simp only [Safe, Keeps]
          constructor
          · exact fun h e he => (h.1 e he).1
          · refine fun h => ⟨fun e he => ⟨h e he, ?_⟩, fun e he => Or.inl ?_⟩
            · exact hsound.stored _ (Or.inr ⟨e, he, rfl⟩)
            · exact hsound.stored _ (Or.inl ⟨e, OrderedSet.mem_of_first? he, rfl⟩)

lemma owners_ne_zero : s.owners a ≠ 0 ↔ s.caller a = true ∨ s.functor a ≠ .none := by
  rw [Ne, owners_eq_zero, not_and_or, Bool.not_eq_false]

/-- An owned timer is owned behind `make_shared` for another one. -/
lemma owned_make {b : ℕ} (h : s.owners b ≠ 0) (a : ℕ) : (s.make a).owners b ≠ 0 := by
  refine owners_ne_zero.mpr ((owners_ne_zero.mp h).imp_left fun hb => ?_)
  by_cases hba : b = a
  · simp [OwnedQueue.make, hba]
  · simpa [OwnedQueue.make, hba] using hb

/-- And when a functor with a pointer of its own is set. -/
lemma owned_setFunctor {b : ℕ} {functor : BoundFunctor} (h : s.owners b ≠ 0)
    (hfunctor : functor ≠ .none) : (s.setFunctor a functor).owners b ≠ 0 := by
  refine owners_ne_zero.mpr ((owners_ne_zero.mp h).imp_right fun hb => ?_)
  by_cases hba : b = a
  · simpa [OwnedQueue.setFunctor, hba] using hfunctor
  · simpa [OwnedQueue.setFunctor, hba] using hb

/-- Behind a step of the queue that passes, what it holds is owned if that was so before and a new
timer is. -/
lemma Counted.owned_queueStep (h : s.Counted) (howned : ∀ a, s.queue.Holds a → s.owners a ≠ 0)
    {l : TimerQueue.Label} (hx : s.queueStep l = some (.ok s'))
    (hadds : ∀ a, l.Adds a → s.owners a ≠ 0) : ∀ a, s'.queue.Holds a → s'.owners a ≠ 0 := by
  obtain ⟨q, accesses, -, hstepped, hok⟩ := h.of_queueStep hx
  obtain ⟨-, rfl⟩ := touch_map_eq_ok.mp hok.symm
  intro a ha
  rcases (hstepped.holds a).mp ha with ⟨ha, -⟩ | hadd
  · exact howned a ha
  · exact hadds a hadd

/-- **A step by which nobody lets go keeps everything sound.** -/
lemma Counted.sound_next (h : s.Counted) (hsound : s.Sound) (hl : ¬ LetsGo l)
    (hx : s.next l = some s') : s'.Sound := by
  have howned := h.sound_iff.mp hsound
  rw [(h.next hx).sound_iff]
  obtain ⟨x, hok, hmove⟩ := move_of_next hx
  cases hmove with
  | @added a t clock _ hmade hx =>
      refine (h.make hmade).owned_queueStep (fun b hb => owned_make (howned b hb) a) (hok ▸ hx) ?_
      rintro b ⟨t', clock', heq⟩
      obtain ⟨rfl, -, -⟩ := TimerQueue.Label.addTimerInLoop.inj heq
      exact owners_of_caller (Function.update_self _ _ _)
  | @posted a t hmade =>
      obtain rfl := Except.ok.inj hok
      exact fun b hb => owned_setFunctor (owned_make (howned b hb) a) (by simp)
  | @ran a t clock _ hidle hwait hx =>
      refine (h.runFunctor hwait).owned_queueStep
        (fun b hb => owned_setFunctor (howned b hb) (by simp)) (hok ▸ hx) ?_
      rintro b ⟨t', clock', heq⟩
      obtain ⟨rfl, -, -⟩ := TimerQueue.Label.addTimerInLoop.inj heq
      exact owned_setFunctor (owners_of_functor (by simp [hwait])) (by simp)
  | destroyedFunctor hfunctor => exact absurd trivial hl
  | dropped hcaller => exact absurd trivial hl
  | queued hadd hx =>
      refine h.owned_queueStep howned (hok ▸ hx) ?_
      rintro a ⟨t, clock, heq⟩
      exact absurd heq (hadd a t clock)
  | destroyed hidle =>
      obtain ⟨-, rfl⟩ := touch_map_eq_ok.mp hok
      exact howned

/-! ### Owners that let go -/

lemma owners_letGo (s : OwnedQueue) (a b : ℕ) : (s.letGo a).owners b = s.owners b := by
  rw [letGo]
  split_ifs <;> rfl

/-- **One of the owners of a timer lets go**: everything stays sound if the queue does not hold the
timer, or if it was not the last. -/
lemma Counted.sound_letGo (h : s.Counted) (hsound : s.Sound) {s₁ : OwnedQueue}
    (hqueue : s₁.queue = s.queue) (hself : s.owners a = s₁.owners a + 1)
    (hother : ∀ b, b ≠ a → s₁.owners b = s.owners b) (hcounted : (s₁.letGo a).Counted) :
    (s₁.letGo a).Sound ↔ (s.queue.Holds a → 1 < s.owners a) := by
  have howned := h.sound_iff.mp hsound
  simp only [hcounted.sound_iff, queue_letGo, owners_letGo, hqueue]
  constructor
  · intro hkept ha
    have := hkept a ha
    omega
  · intro hkeeps b hb
    by_cases hba : b = a
    · subst hba
      have := hkeeps hb
      omega
    · rw [hother b hba]
      exact howned b hb

/-- The functor is destroyed. -/
lemma Counted.sound_dropFunctor (h : s.Counted) (hsound : s.Sound)
    (hfunctor : s.functor a ≠ .none) :
    ((s.setFunctor a .none).letGo a).Sound ↔ (s.queue.Holds a → 1 < s.owners a) := by
  have hnext : s.next (.dropFunctor a) = some ((s.setFunctor a .none).letGo a) :=
    next_eq_some.mpr (by simp [step, hfunctor])
  refine h.sound_letGo hsound rfl ?_ (fun b hb => ?_) (h.next hnext)
  · cases hc : s.caller a <;> simp [owners, OwnedQueue.setFunctor, hfunctor, hc]
  · exact owners_congr rfl (Function.update_of_ne hb _ _)

/-- The caller drops its pointer. -/
lemma Counted.sound_drop (h : s.Counted) (hsound : s.Sound) (hcaller : s.caller a = true) :
    ((s.forget a).letGo a).Sound ↔ (s.queue.Holds a → 1 < s.owners a) := by
  have hnext : s.next (.drop a) = some ((s.forget a).letGo a) :=
    next_eq_some.mpr (by simp [step, hcaller])
  refine h.sound_letGo hsound rfl ?_ (fun b hb => ?_) (h.next hnext)
  · by_cases hf : s.functor a = .none <;> simp [owners, OwnedQueue.forget, hcaller, hf]
  · exact owners_congr (Function.update_of_ne hb _ _) rfl

/-- **What keeps everything sound**, in one step. -/
theorem Counted.sound_next_iff (h : s.Counted) (hsound : s.Sound) (hpossible : s.step l ≠ none) :
    (∃ s', s.next l = some s' ∧ s'.Sound) ↔ s.Keeps l := by
  by_cases hl : LetsGo l
  · cases l with
    | dropFunctor a =>
        have hfunctor : s.functor a ≠ .none := fun hnone => hpossible (by simp [step, hnone])
        rw [Keeps, ← h.sound_dropFunctor hsound hfunctor]
        simp [OwnedQueue.next, step, hfunctor]
    | drop a =>
        have hcaller : s.caller a = true := by
          by_contra hnone
          exact hpossible (by simp [step, hnone])
        rw [Keeps, ← h.sound_drop hsound hcaller]
        simp [OwnedQueue.next, step, hcaller]
    | _ => exact hl.elim
  · rw [← hsound.safe_iff hl, ← h.exists_next_iff hpossible]
    constructor
    · rintro ⟨s', hx, -⟩
      exact ⟨s', hx⟩
    · rintro ⟨s', hx⟩
      exact ⟨s', hx, h.sound_next hsound hl hx⟩

lemma Reaches.sound (h : Reaches Keeps new s) : s.Sound := by
  have hnew : new.Sound := by
    refine new_counted.sound_iff.mpr fun a ha => absurd ?_ (new_counted.tracked.added_of_holds ha)
    rfl
  have hinv : s.Counted ∧ s.Sound := by
    refine Reach.invariant (I := fun s => s.Counted ∧ s.Sound) ?_ h ⟨new_counted, hnew⟩
    rintro s l s' ⟨hcounted, hsound⟩ hkeeps hstep
    have hpossible : s.step l ≠ none := by
      rw [next_eq_some.mp hstep]
      exact Option.some_ne_none _
    obtain ⟨s'', hstep', hsound'⟩ := (hcounted.sound_next_iff hsound hpossible).mpr hkeeps
    obtain rfl := Option.some.inj (hstep.symm.trans hstep')
    exact ⟨hcounted.next hstep, hsound'⟩
  exact hinv.2

/-- **Who may let go.**  In every run whose steps meet the condition everything is sound in every
state; and a further step passes and leaves everything sound if and only if it meets the condition
too. -/
theorem owners_iff (h : Reaches Keeps new s) :
    s.Sound ∧ ∀ l, s.step l ≠ none → ((∃ s', s.next l = some s' ∧ s'.Sound) ↔ s.Keeps l) :=
  ⟨h.sound, fun _ => h.counted.sound_next_iff h.sound⟩

/-- Two repeating timers, one of them from another thread, whose functor is destroyed behind its
run while the caller keeps the pointer; and a third one whose loop ends before it is added. -/
theorem owners_iff_kept : ∃ s, Reaches Keeps new s ∧
    s.queue.record.ran 0 = [⟨10, 1⟩, ⟨12, 2⟩] ∧ s.queue.timers.toList = [⟨17, 2⟩, ⟨18, 1⟩] ∧
      s.released 3 = 1 ∧ s.Sound ∧ ¬ ∃ s', s.next (.drop 1) = some s' ∧ s'.Sound := by
  have hrun : ∃ s, exec next Keeps new [.addTimer 1 ⟨10, 6⟩ 3, .post 2 ⟨12, 5⟩, .runFunctor 2 4,
      .dropFunctor 2, .queue (.handleRead 12), .queue .run, .queue .run, .post 3 ⟨20, 0⟩, .drop 3,
      .queue (.reset 0 13), .dropFunctor 3] = some s ∧
      s.queue.record.ran 0 = [⟨10, 1⟩, ⟨12, 2⟩] ∧ s.queue.timers.toList = [⟨17, 2⟩, ⟨18, 1⟩] ∧
        s.released 3 = 1 ∧ (s.step (.drop 1)).isSome = true ∧ ¬ s.Keeps (.drop 1) := by
    refine ⟨_, rfl, ?_⟩
    decide
  obtain ⟨s, hexec, hran, htimers, hreleased, hpossible, hno⟩ := hrun
  have hs : Reaches Keeps new s := (Reach.refl new).of_exec hexec
  obtain ⟨hsound, hiff⟩ := owners_iff hs
  exact ⟨s, hs, hran, htimers, hreleased, hsound,
    fun hkept => hno ((hiff _ (Option.isSome_iff_ne_none.mp hpossible)).mp hkept)⟩

/-- **The pointer that `addTimer` returned is dropped at once**: the queue holds one to a timer that
was released, and its callback is called all the same.  And where it is kept, `reset` deletes a
one-shot timer that is not its to delete. -/
theorem add_timer_dropped :
    (∃ s, Reaches (fun _ _ => True) new s ∧ s.queue.Holds 1 ∧ s.released 1 = 1 ∧ ¬ s.Sound ∧
      s.step (.queue .run) = some (.error (.released 1))) ∧
    ∃ s, Reaches (fun _ _ => True) new s ∧ s.Sound ∧ s.owners 1 = 1 ∧
      ∀ garbage clock, s.step (.queue (.reset garbage clock)) =
        some (.error (.invalidFree 1)) := by
  have hdropped : ∃ s, exec next (fun _ _ => True) new [.addTimer 1 ⟨10, 0⟩ 3, .drop 1,
      .queue (.handleRead 10)] = some s ∧ s.queue.phase = .running 10 [] [⟨10, 1⟩] ∧
        s.released 1 = 1 ∧ s.step (.queue .run) = some (.error (.released 1)) :=
    ⟨_, rfl, rfl, rfl, rfl⟩
  have hkept : ∃ s, exec next Keeps new [.addTimer 1 ⟨10, 0⟩ 3, .addTimer 2 ⟨20, 5⟩ 4,
      .queue (.handleRead 10), .queue .run] = some s ∧ s.owners 1 = 1 ∧ ∀ garbage clock,
        s.step (.queue (.reset garbage clock)) = some (.error (.invalidFree 1)) :=
    ⟨_, rfl, rfl, fun _ _ => rfl⟩
  obtain ⟨s₁, hs₁, hphase, hone, hrun⟩ := hdropped
  obtain ⟨s₂, hs₂, howners, hreset⟩ := hkept
  have hholds : s₁.queue.Holds 1 := Or.inr ⟨⟨10, 1⟩, by simp [hphase, TimerPhase.expired], rfl⟩
  have hreach : Reaches Keeps new s₂ := (Reach.refl new).of_exec hs₂
  refine ⟨⟨s₁, (Reach.refl new).of_exec hs₁, hholds, hone, fun hsound => ?_, hrun⟩, s₂,
    Reach.mono (fun _ _ _ => trivial) hreach, hreach.sound, howners, hreset⟩
  rw [hsound.stored 1 hholds] at hone
  exact absurd hone (by simp)

end OwnedQueue

end Tractor
