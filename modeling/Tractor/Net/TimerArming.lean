import Tractor.Net.TimerRuns

/-!
The timer descriptor and the queue.

`addTimerInLoop` arms the descriptor if the new timer is the earliest, and `reset` arms it at
the end of `handleRead` for the local `nextExpire`.  That variable is only assigned if the
queue is not empty, so at the end of a `handleRead` that leaves the queue empty the descriptor
is armed for whatever the variable holds, unless that is not positive.

* `Follows`: what the descriptor should be; `Timerfd.LastFor` is the last arming, and
  `howMuchTimeFromNow_stands` its relative time.
* `Label.Positive`, `Settles`: the clocks are positive, and the condition on `reset`.
* `Armings`: the invariant; inside `handleRead` it only speaks of a queue whose earliest timer
  was not after the epoch, because then `reset` leaves the descriptor alone.
* `descriptor_follows`: **in every run whose resets meet the condition the descriptor follows
  the queue** outside `handleRead`; a reset leaves it so exactly if it meets the condition, and
  a call from a callback exactly if the new timer is the earliest or it was so before.
-/

namespace Tractor

open Library

/-- The time stands for this many microseconds. -/
structure Timespec.Stands (ts : Timespec) (microseconds : ℤ) : Prop where
  tv_sec : 0 ≤ ts.tv_sec
  tv_nsec : 0 ≤ ts.tv_nsec ∧ ts.tv_nsec < 1000000000
  total : ts.tv_sec * 1000000000 + ts.tv_nsec = microseconds * 1000

lemma howMuchTimeFromNow_stands (when now : ℤ) :
    (howMuchTimeFromNow when now).Stands (max (when - now) 100) := by
  have hmicro : (if when - now < 100 then 100 else when - now) = max (when - now) 100 := by
    split_ifs with h
    · exact (max_eq_right h.le).symm
    · exact (max_eq_left (not_lt.mp h)).symm
  have hpos : (100 : ℤ) ≤ max (when - now) 100 := le_max_right _ _
  unfold howMuchTimeFromNow
  simp only [hmicro, Timer.kMicroSecondsPerSecond]
  generalize max (when - now) 100 = m at hpos ⊢
  constructor <;> simp only <;> omega

namespace Timerfd

/-- The last arming was for this expiration, with the relative time it should have. -/
def LastFor (fd : Timerfd) (expiration : ℤ) : Prop :=
  ∃ arm, fd.last = some arm ∧ arm.expiration = expiration ∧
    arm.value.Stands (max (expiration - arm.clock) 100)

/-- It was armed for this expiration and not read since. -/
def ArmedFor (fd : Timerfd) (expiration : ℤ) : Prop :=
  fd.state ≠ .disarmed ∧ fd.LastFor expiration

lemma resetTimerfd_armedFor (expiration clock : ℤ) :
    (resetTimerfd expiration clock).ArmedFor expiration := by
  refine ⟨by simp [resetTimerfd], _, rfl, rfl, ?_⟩
  exact howMuchTimeFromNow_stands expiration clock

end Timerfd

namespace TimerQueue

/-- **The descriptor follows the queue**: it is armed, or has expired and waits to be read, if
and only if the queue is not empty, and its last arming was for the earliest timer. -/
structure Follows (q : TimerQueue) : Prop where
  armed_iff : q.timerfd.state ≠ .disarmed ↔ ∃ e, e ∈ q.timers
  last : ∀ e, q.timers.first? = some e → q.timerfd.LastFor e.first

/-- The clock of a call of `handleRead` is positive. -/
def Label.Positive : Label → Prop
  | .handleRead now => 0 < now
  | _ => True

/-- The condition on a `reset` that leaves the queue empty, because nothing is in it and no
timer of the batch repeats: what `nextExpire` happens to hold is not positive, and the
descriptor is neither armed nor expired. -/
def Settles (q : TimerQueue) : Label → Prop
  | .reset garbage _ =>
      q.timers.first? = none → (∀ e ∈ q.phase.expired, (q.heap e.second).getRepeat = false) →
        garbage ≤ 0 ∧ q.timerfd.state = .disarmed
  | _ => True

instance (l : Label) : Decidable l.Positive :=
  match l with
  | .handleRead now => inferInstanceAs (Decidable (0 < now))
  | .addTimerInLoop .. => isTrue trivial
  | .run => isTrue trivial
  | .reset .. => isTrue trivial
  | .expire => isTrue trivial

instance (q : TimerQueue) (l : Label) : Decidable (q.Settles l) :=
  match l with
  | .reset garbage _ => inferInstanceAs (Decidable (q.timers.first? = none →
      (∀ e ∈ q.phase.expired, (q.heap e.second).getRepeat = false) →
        garbage ≤ 0 ∧ q.timerfd.state = .disarmed))
  | .addTimerInLoop .. => isTrue trivial
  | .handleRead _ => isTrue trivial
  | .run => isTrue trivial
  | .expire => isTrue trivial

variable {q q' : TimerQueue}

lemma follows_of_first {e : Entry} (h : q.timers.first? = some e) :
    q.Follows ↔ q.timerfd.ArmedFor e.first := by
  constructor
  · intro hf
    exact ⟨hf.armed_iff.mpr ⟨e, OrderedSet.mem_of_first? h⟩, hf.last e h⟩
  · rintro ⟨hstate, hlast⟩
    refine ⟨iff_of_true hstate ⟨e, OrderedSet.mem_of_first? h⟩, fun e' he' => ?_⟩
    obtain rfl := Option.some.inj (h.symm.trans he')
    exact hlast

lemma follows_of_empty (h : q.timers.first? = none) :
    q.Follows ↔ q.timerfd.state = .disarmed := by
  have hnone : ¬ ∃ e, e ∈ q.timers := fun ⟨e, he⟩ => OrderedSet.first?_eq_none.mp h e he
  constructor
  · intro hf
    exact not_not.mp fun hstate => hnone (hf.armed_iff.mp hstate)
  · intro hstate
    refine ⟨iff_of_false (not_not.mpr hstate) hnone, fun e he => ?_⟩
    rw [h] at he
    exact absurd he (by simp)

/-! ### What the operations do to the descriptor -/

/-- A timer that becomes the earliest. -/
lemma first?_insert_of_all {x : ℤ} {a : ℕ} (h : q.timers.first?.all (x < ·.first) = true) :
    (q.timers.insert ⟨x, a⟩).first? = some ⟨x, a⟩ := by
  cases hfirst : q.timers.first? with
  | none => exact OrderedSet.first?_insert_of_none hfirst _
  | some e =>
      rw [hfirst] at h
      have hlt : x < e.first := by simpa using h
      have hle : (⟨x, a⟩ : Entry) ≤ e := (Entry.lt_iff.mpr (Or.inl hlt)).le
      rw [OrderedSet.first?_insert_of_some hfirst, min_eq_left hle]

/-- A timer that does not: the time of the earliest stays. -/
lemma first?_insert_of_not_all {x : ℤ} {a : ℕ} (h : ¬ q.timers.first?.all (x < ·.first) = true) :
    ∃ e e', q.timers.first? = some e ∧ (q.timers.insert ⟨x, a⟩).first? = some e' ∧
      e'.first = e.first := by
  cases hfirst : q.timers.first? with
  | none =>
      rw [hfirst] at h
      exact absurd rfl h
  | some e =>
      rw [hfirst] at h
      have hle : e.first ≤ x := by simpa using h
      refine ⟨e, _, rfl, OrderedSet.first?_insert_of_some hfirst _, ?_⟩
      rcases min_choice ⟨x, a⟩ e with hmin | hmin
      · rw [hmin]
        exact (Entry.first_le (min_eq_left_iff.mp hmin)).antisymm hle
      · rw [hmin]

/-- The new timer is the earliest. -/
def Earliest (q : TimerQueue) (t : Timer) : Prop := ∀ e ∈ q.timers, t.expiration < e.first

lemma earliest_iff {t : Timer} :
    q.timers.first?.all (t.expiration < ·.first) = true ↔ q.Earliest t := by
  cases hfirst : q.timers.first? with
  | none =>
      refine iff_of_true rfl fun e he => ?_
      exact absurd he (OrderedSet.first?_eq_none.mp hfirst e)
  | some e =>
      have hall : (Option.all (t.expiration < ·.first) (some e)) = true ↔
          t.expiration < e.first := by simp
      rw [hall]
      exact ⟨fun hlt e' he' => hlt.trans_le (Entry.first_le (OrderedSet.first?_le hfirst he')),
        fun h => h e (OrderedSet.mem_of_first? hfirst)⟩

/-- **A timer is added**: the descriptor follows the queue behind it exactly if the timer is
the earliest, and was armed for, or the descriptor followed before. -/
lemma follows_add {a : ℕ} {t : Timer} (hout : ∀ e ∈ q.timers, e.second ≠ a) {clock : ℤ}
    (h : (q.make a t).addTimerInLoop a clock = .ok q') :
    (q'.Follows ↔ q.Earliest t ∨ q.Follows) ∧ q'.phase = q.phase ∧
      ∀ e', q'.timers.first? = some e' → q'.timerfd.ArmedFor e'.first ∨
        ∃ e, q.timers.first? = some e ∧ e'.first = e.first ∧ q'.timerfd = q.timerfd := by
  rw [add_eq (fun hmem => hout _ hmem rfl)] at h
  obtain rfl := Except.ok.inj h
  by_cases hall : q.timers.first?.all (t.expiration < ·.first) = true
  · have hfirst := first?_insert_of_all (a := a) hall
    have harmed := Timerfd.resetTimerfd_armedFor t.expiration clock
    refine ⟨iff_of_true ?_ (Or.inl (earliest_iff.mp hall)), rfl, fun e' he' => Or.inl ?_⟩
    · rw [follows_of_first hfirst]
      simp only [hall, if_true]
      exact harmed
    · obtain rfl := Option.some.inj (hfirst.symm.trans he')
      simp only [hall, if_true]
      exact harmed
  · obtain ⟨e, e', hfirst, hfirst', heq⟩ := first?_insert_of_not_all (a := a) hall
    have hnot : ¬ q.Earliest t := fun h => hall (earliest_iff.mpr h)
    refine ⟨?_, rfl, fun e'' he'' => Or.inr ⟨e, hfirst, ?_, ?_⟩⟩
    · rw [follows_of_first hfirst', follows_of_first hfirst, heq, or_iff_right hnot]
      simp only [hall, Bool.false_eq_true, if_false]
    · obtain rfl := Option.some.inj (hfirst'.symm.trans he'')
      exact heq
    · simp only [hall, Bool.false_eq_true, if_false]

/-- **The invariant**: outside `handleRead` the descriptor follows the queue.  Inside, a queue
whose earliest timer is not after the epoch has it from a callback, and is armed for it. -/
structure Armings (q : TimerQueue) : Prop where
  idle : q.phase = .idle → q.Follows
  running : ∀ now ran todo, q.phase = .running now ran todo → 0 < now ∧
    ∀ e, q.timers.first? = some e → e.first ≤ 0 → q.timerfd.ArmedFor e.first

lemma new_armings : new.Armings where
  idle := fun _ => (follows_of_empty rfl).mpr rfl
  running := fun now ran todo h => absurd h (by simp [new])

/-- **The end of `handleRead`**: the descriptor follows the queue behind `reset` exactly if the
reset meets the condition. -/
lemma Armings.reset (ha : q.Armings) (h : q.Tracked) {now : ℤ} {ran : List Entry}
    (hphase : q.phase = .running now ran []) {garbage clock : ℤ}
    (hx : q.reset ran now garbage clock = .ok q') :
    q'.Follows ↔ q.Settles (.reset garbage clock) := by
  have hexpired : q.phase.expired = ran := by rw [hphase, TimerPhase.expired, List.append_nil]
  obtain ⟨hpos, hearly⟩ := ha.running now ran [] hphase
  obtain ⟨q'', hq'', htracked⟩ := h.reset hphase garbage clock
  obtain rfl := Except.ok.inj (hx.symm.trans hq'')
  obtain ⟨timers, heap, hrun, htimers, -⟩ := h.reset_ok hphase
  obtain rfl := Except.ok.inj (hx.symm.trans (hrun garbage clock))
  rw [Settles, hexpired]
  cases hfirst : timers.first? with
  | none =>
      have hempty : q.timers.first? = none := by
        refine OrderedSet.first?_eq_none.mpr fun e he => ?_
        exact OrderedSet.first?_eq_none.mp hfirst e ((htimers e).mpr (Or.inl he))
      have hrep : ∀ e ∈ ran, (q.heap e.second).getRepeat = false := by
        intro e he
        by_contra htrue
        exact OrderedSet.first?_eq_none.mp hfirst ⟨now + (q.heap e.second).interval, e.second⟩
          ((htimers _).mpr (Or.inr ⟨List.mem_map.mpr ⟨e, he, rfl⟩, by simpa using htrue, rfl⟩))
      have hnext : nextExpire { q with timers := timers, heap := heap } garbage = garbage := by
        simp only [nextExpire, hfirst]
      rw [follows_of_empty hfirst]
      simp only [hnext]
      split_ifs with hgarbage
      · refine iff_of_false (by simp [Timerfd.resetTimerfd]) fun hcond => ?_
        exact (hcond hempty hrep).1.not_gt hgarbage
      · exact ⟨fun hstate _ _ => ⟨not_lt.mp hgarbage, hstate⟩, fun hcond => (hcond hempty hrep).2⟩
  | some e =>
      have hmem := OrderedSet.mem_of_first? hfirst
      have hexp : (heap e.second).expiration = e.first := htracked.stored.expiration hmem
      have hnext : nextExpire { q with timers := timers, heap := heap } garbage = e.first := by
        simp only [nextExpire, hfirst]
        exact hexp
      rw [follows_of_first hfirst]
      simp only [hnext]
      refine iff_of_true ?_ fun hempty hrep => ?_
      · split_ifs with hlater
        · exact Timerfd.resetTimerfd_armedFor e.first clock
        · -- only a callback can have added it, and it was the earliest then
          have hle := not_lt.mp hlater
          have hold : e ∈ q.timers := by
            refine ((htimers e).mp hmem).resolve_right ?_
            rintro ⟨-, -, hagain⟩
            omega
          refine hearly e (OrderedSet.first?_eq_some.mpr ⟨hold, fun e' he' => ?_⟩) hle
          exact OrderedSet.first?_le hfirst ((htimers e').mpr (Or.inl he'))
      · -- the condition asks nothing of a reset that leaves a timer
        exfalso
        obtain hold | ⟨hin, hrepeat, -⟩ := (htimers e).mp hmem
        · exact OrderedSet.first?_eq_none.mp hempty e hold
        · obtain ⟨e', he', heq⟩ := List.mem_map.mp hin
          rw [← heq, hrep e' he'] at hrepeat
          exact absurd hrepeat (by simp)

/-- **A step whose label meets the condition keeps the invariant.** -/
lemma Armings.step (ha : q.Armings) (h : q.Tracked) {l : Label}
    (hok : l.Positive ∧ q.Settles l) (hx : q.step l = some (.ok q')) : q'.Armings := by
  obtain ⟨a, t, clock, -, -, -, hnew, hadd⟩ | ⟨now, rfl, hidle, hread⟩ |
    ⟨now, ran, e, todo, -, hphase, hrun⟩ | ⟨now, ran, garbage, clock, rfl, hphase, hreset⟩ |
    ⟨-, hstate, hexpire⟩ := step_cases hx
  · obtain ⟨hfollows, hphase, hfirst⟩ := follows_add (h.notMem_of_added hnew).1 hadd.symm
    constructor
    · intro hidle
      exact hfollows.mpr (Or.inr (ha.idle (hphase ▸ hidle)))
    · intro now ran todo hrunning
      obtain ⟨hpos, hearly⟩ := ha.running now ran todo (hphase ▸ hrunning)
      refine ⟨hpos, fun e' he' hle => ?_⟩
      obtain harmed | ⟨e, he, heq, hfd⟩ := hfirst e' he'
      · exact harmed
      · rw [hfd, heq]
        exact hearly e he (heq ▸ hle)
  · rw [handleRead_eq (fun e he => h.lt_uintptrMax he)] at hread
    obtain rfl := Except.ok.inj hread
    refine ⟨fun hidle' => absurd hidle' (by simp), fun now' ran todo hphase => ?_⟩
    obtain ⟨rfl, -, -⟩ := TimerPhase.running.inj hphase
    refine ⟨hok.1, fun e he hle => ?_⟩
    -- what is left is due later than now
    obtain ⟨hmem, hsentry⟩ := OrderedSet.mem_atLeast.mp (OrderedSet.mem_of_first? he)
    have hnow : 0 < now := hok.1
    have hdue : e < ⟨now, uintptrMax⟩ :=
      (Entry.lt_sentry (h.lt_uintptrMax hmem)).mpr (hle.trans hnow.le)
    exact absurd hsentry hdue.not_ge
  · obtain rfl := Except.ok.inj hrun
    refine ⟨fun hidle => absurd hidle (by simp [runEntry]), fun now' ran' todo' hphase' => ?_⟩
    obtain ⟨rfl, -, -⟩ := TimerPhase.running.inj hphase'
    exact ha.running _ _ _ hphase
  · obtain ⟨q₁, hq₁, -⟩ := h.reset hphase garbage clock
    rw [hq₁] at hreset
    obtain rfl := Except.ok.inj hreset
    have hf := (ha.reset h hphase hq₁).mpr hok.2
    exact ⟨fun _ => ⟨hf.armed_iff, hf.last⟩,
      fun now' ran' todo' hphase' => absurd hphase' (by simp)⟩
  · obtain rfl := Except.ok.inj hexpire
    have harmed : ∀ x, q.timerfd.ArmedFor x →
        Timerfd.ArmedFor { q.timerfd with state := .expired } x :=
      fun x hx => ⟨by simp, hx.2⟩
    constructor
    · intro hidle
      have hf := ha.idle hidle
      have hdis : q.timerfd.state ≠ .disarmed := by simp [hstate]
      exact ⟨iff_of_true (by simp) (hf.armed_iff.mp hdis), hf.last⟩
    · intro now ran todo hphase
      obtain ⟨hpos, hearly⟩ := ha.running now ran todo hphase
      exact ⟨hpos, fun e he hle => harmed _ (hearly e he hle)⟩

/-- Runs with positive clocks whose resets all meet the condition. -/
def ReachesSettled : TimerQueue → TimerQueue → Prop :=
  Reaches fun q l => l.Positive ∧ q.Settles l

lemma ReachesSettled.armings (h : ReachesSettled new q) : q.Tracked ∧ q.Armings := by
  refine Reach.invariant (I := fun q => q.Tracked ∧ q.Armings) ?_ h ⟨new_tracked, new_armings⟩
  rintro q l q' ⟨hq, ha⟩ hok hstep
  have hstep := next_eq_some.mp hstep
  obtain ⟨q'', hq'', h'⟩ := hq.step hstep
  obtain rfl := Except.ok.inj hq''
  exact ⟨h', ha.step hq hok hstep⟩

/-- **The descriptor follows the queue.**  In every run with positive clocks whose resets all
meet the condition it does so in every state outside `handleRead`.  A `reset` in such a run
leaves it so if and only if it meets the condition, and a call of `addTimerInLoop`, from a
callback too, if and only if the new timer is the earliest or the descriptor followed the queue
before. -/
theorem descriptor_follows (h : ReachesSettled new q) :
    (q.phase = .idle → q.Follows) ∧
    (∀ garbage clock q', q.next (.reset garbage clock) = some q' →
      (q'.Follows ↔ q.Settles (.reset garbage clock))) ∧
    ∀ a t clock q', q.next (.addTimerInLoop a t clock) = some q' →
      (q'.Follows ↔ q.Earliest t ∨ q.Follows) := by
  obtain ⟨htracked, harmings⟩ := h.armings
  refine ⟨harmings.idle, fun garbage clock q' hnext => ?_, fun a t clock q' hnext => ?_⟩
  · obtain ⟨_, _, _, hl, -⟩ | ⟨_, hl, -⟩ | ⟨_, _, _, _, hl, -⟩ |
      ⟨now, ran, _, _, hl, hphase, hreset⟩ | ⟨hl, -⟩ := step_cases (next_eq_some.mp hnext)
    · cases hl
    · cases hl
    · cases hl
    · obtain ⟨rfl, rfl⟩ := Label.reset.inj hl
      obtain ⟨q₁, hq₁, -⟩ := htracked.reset hphase garbage clock
      rw [hq₁] at hreset
      obtain rfl := Except.ok.inj hreset
      rw [← harmings.reset htracked hphase hq₁]
      exact ⟨fun hf => ⟨hf.armed_iff, hf.last⟩, fun hf => ⟨hf.armed_iff, hf.last⟩⟩
    · cases hl
  · obtain ⟨_, _, _, hl, -, -, hnew, hadd⟩ | ⟨_, hl, -⟩ | ⟨_, _, _, _, hl, -⟩ |
      ⟨_, _, _, _, hl, -⟩ | ⟨hl, -⟩ := step_cases (next_eq_some.mp hnext)
    · obtain ⟨rfl, rfl, rfl⟩ := Label.addTimerInLoop.inj hl
      exact (follows_add (htracked.notMem_of_added hnew).1 hadd.symm).1
    · cases hl
    · cases hl
    · cases hl
    · cases hl

/-- A run with a repeating timer, and one that a callback adds. -/
theorem descriptor_follows_two :
    ∃ q, ReachesSettled new q ∧ q.timers.toList = [⟨15, 2⟩, ⟨40, 3⟩] ∧ q.Follows := by
  have hrun : ∃ q, exec next (fun q l => l.Positive ∧ q.Settles l) new
      [.addTimerInLoop 2 ⟨10, 5⟩ 3, .expire, .handleRead 10, .run, .addTimerInLoop 3 ⟨40, 0⟩ 11,
        .reset 7 12] = some q ∧ q.timers.toList = [⟨15, 2⟩, ⟨40, 3⟩] ∧ q.phase = .idle :=
    ⟨_, rfl, rfl, rfl⟩
  obtain ⟨q, hexec, htimers, hidle⟩ := hrun
  have hq : ReachesSettled new q := (Reach.refl new).of_exec hexec
  exact ⟨q, hq, htimers, (descriptor_follows hq).1 hidle⟩

/-- **The last timer runs and the descriptor is armed for nothing**: `nextExpire` holds 1. -/
theorem armed_for_nothing :
    ¬ ∀ q, Reaches (fun _ l => l.Positive) new q → q.phase = .idle → q.Follows := by
  intro h
  have hrun : ∃ q, exec next (fun _ l => l.Positive) new
      [.addTimerInLoop 2 ⟨10, 0⟩ 3, .expire, .handleRead 10, .run, .reset 1 12] = some q ∧
      q.phase = .idle ∧ q.timers.first? = none ∧ q.timerfd.state = .armed :=
    ⟨_, rfl, rfl, rfl, rfl⟩
  obtain ⟨q, hexec, hidle, hempty, hstate⟩ := hrun
  have hf := (follows_of_empty hempty).mp (h q ((Reach.refl new).of_exec hexec) hidle)
  rw [hstate] at hf
  exact absurd hf (by simp)

end TimerQueue

end Tractor
