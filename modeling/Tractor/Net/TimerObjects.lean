import Tractor.Net.TimerPointers

/-!
The objects that a `TimerQueue` points to.

`addTimer` makes a `Timer` with `make_shared` and returns a `TimerPtr`; the functor it binds
holds another until it is destroyed.  The queue keeps a raw pointer.  It uses it whoever still
owns the object, and deletes it in `reset` when a one-shot timer has run, as its destructor does
with what is left.  But `make_shared` puts the object inside the allocation of its control block,
which the last `TimerPtr` releases: `delete` of its address frees what was never allocated, and the
program is aborted.  Objects are told apart by their addresses, which are not used twice.

* `OwnedQueue`: the queue with the owners of each timer and how often it was released; `fault`:
  how an access to a timer fails.
* `step`: `none` if the label is not possible, otherwise the next state or the fault: `addTimer` in
  the thread of the loop and from another thread, the owners that let go, the steps of the queue,
  and its destructor.
* `Counted`: the invariant of all runs; a timer was released exactly if its last shared owner has
  let go.
* `Safe`, `Counted.exists_next_iff`: the condition on a step, and **exactly then it passes**.
* `Counted.once`: a call of `handleRead` with a one-shot timer does not come to its end.
* `timers_run_when_due`: **in every run whose steps meet the condition the timers run when they
  are due**; `one_shot_ends_the_loop` is what happens to them behind a one-shot timer.
-/

namespace Tractor

open Library

/-! ### The objects and their owners -/

/-- What another thread's call of `addTimer` queued in the loop: nothing, the bound functor
with its `TimerPtr` before it ran, or the functor behind that, until it is destroyed. -/
inductive BoundFunctor where
  | none
  | waiting (t : Timer)
  | done
  deriving DecidableEq

/-- How a step fails: an assertion of the queue, the use of an object that was released, or the
`delete` of an address that was not allocated. -/
inductive OwnedFault where
  | assertion (f : TimerFault)
  | released (timer : ℕ)
  | invalidFree (timer : ℕ)
  deriving DecidableEq

/-- The queue, whether it still exists, and of each timer: whether it was made, its owners, and
how often it was released. -/
structure OwnedQueue where
  queue : TimerQueue
  alive : Bool
  made : ℕ → Bool
  caller : ℕ → Bool
  functor : ℕ → BoundFunctor
  released : ℕ → ℕ

namespace OwnedQueue

def new : OwnedQueue where
  queue := .new
  alive := true
  made := fun _ => false
  caller := fun _ => false
  functor := fun _ => .none
  released := fun _ => 0

/-- The shared owners of a timer: the `TimerPtr` of the caller, and the one in the functor. -/
def owners (s : OwnedQueue) (a : ℕ) : ℕ :=
  (if s.caller a then 1 else 0) + (if s.functor a = .none then 0 else 1)

/-- How an access to a timer fails.  Every timer is made by `make_shared`, so its address is not
one that can be deleted. -/
def fault (s : OwnedQueue) : Access → Option OwnedFault
  | .use a => if s.released a = 0 then none else some (.released a)
  | .delete a => some (.invalidFree a)

/-- These accesses, one after the other. -/
def touch (s : OwnedQueue) (accesses : List Access) : Except OwnedFault Unit :=
  match accesses.findSome? s.fault with
  | some f => .error f
  | none => .ok ()

/-- `make_shared`, with the `TimerPtr` that `addTimer` returns. -/
def make (s : OwnedQueue) (a : ℕ) : OwnedQueue :=
  { s with
    made := Function.update s.made a true
    caller := Function.update s.caller a true }

def setFunctor (s : OwnedQueue) (a : ℕ) (functor : BoundFunctor) : OwnedQueue :=
  { s with functor := Function.update s.functor a functor }

/-- The caller's `TimerPtr` is gone. -/
def forget (s : OwnedQueue) (a : ℕ) : OwnedQueue :=
  { s with caller := Function.update s.caller a false }

/-- An owner of the timer has let go: the last one releases it. -/
def letGo (s : OwnedQueue) (a : ℕ) : OwnedQueue :=
  if s.owners a = 0 then { s with released := Function.update s.released a (s.released a + 1) }
  else s

/-- The steps: `addTimer` in the loop's thread, which runs the functor and destroys it at once,
and from another thread, which queues it; the loop runs a queued functor; one is destroyed, behind
its run or, if the loop ends before, without it; the caller drops its `TimerPtr`; a step of the
queue; and `~TimerQueue`. -/
inductive Label where
  | addTimer (a : ℕ) (t : Timer) (clock : ℤ)
  | post (a : ℕ) (t : Timer)
  | runFunctor (a : ℕ) (clock : ℤ)
  | dropFunctor (a : ℕ)
  | drop (a : ℕ)
  | queue (l : TimerQueue.Label)
  | destroy

/-- A step of the queue itself, on the objects there are. -/
def queueStep (s : OwnedQueue) (l : TimerQueue.Label) : Option (Except OwnedFault OwnedQueue) :=
  (s.queue.step l).map fun
    | .error f => .error (.assertion f)
    | .ok q => do
        s.touch (q.accesses.drop s.queue.accesses.length)
        pure { s with queue := q }

/-- One step: `none` if it is not possible. -/
def step (s : OwnedQueue) : Label → Option (Except OwnedFault OwnedQueue)
  | .addTimer a t clock =>
      if s.alive = true ∧ s.made a = false then
        (s.make a).queueStep (.addTimerInLoop a t clock)
      else none
  | .post a t =>
      if s.alive = true ∧ s.made a = false then
        some (.ok ((s.make a).setFunctor a (.waiting t)))
      else none
  | .runFunctor a clock =>
      match s.alive, s.queue.phase, s.functor a with
      | true, .idle, .waiting t => (s.setFunctor a .done).queueStep (.addTimerInLoop a t clock)
      | _, _, _ => none
  | .dropFunctor a =>
      if s.functor a ≠ .none then some (.ok ((s.setFunctor a .none).letGo a)) else none
  | .drop a => if s.caller a then some (.ok ((s.forget a).letGo a)) else none
  | .queue (.addTimerInLoop ..) => none
  | .queue l => if s.alive then s.queueStep l else none
  | .destroy =>
      match s.alive, s.queue.phase with
      | true, .idle => some do
          s.touch (s.queue.timers.toList.map fun e => .delete e.second)
          pure { s with alive := false }
      | _, _ => none

/-- A step that succeeds. -/
def next (s : OwnedQueue) (l : Label) : Option OwnedQueue :=
  match s.step l with
  | some (.ok s') => some s'
  | _ => none

/-- The states of runs whose steps all meet `ok`. -/
def Reaches (ok : OwnedQueue → Label → Prop) (s s' : OwnedQueue) : Prop := Reach next ok s s'

variable {s s' : OwnedQueue} {l : Label} {a : ℕ}

lemma next_eq_some : s.next l = some s' ↔ s.step l = some (.ok s') := by
  unfold next
  split <;> simp_all

/-! ### Steps -/

lemma touch_eq_ok {accesses : List Access} :
    s.touch accesses = .ok () ↔ ∀ y ∈ accesses, s.fault y = none := by
  rw [touch, ← List.findSome?_eq_none_iff]
  cases accesses.findSome? s.fault <;> simp

/-- **A step of the queue** that passes its own assertions. -/
lemma queueStep_eq {l : TimerQueue.Label} {q : TimerQueue} {accesses : List Access}
    (hq : s.queue.step l = some (.ok q)) (haccesses : q.accesses = s.queue.accesses ++ accesses) :
    s.queueStep l = some ((s.touch accesses).map fun _ => { s with queue := q }) := by
  rw [queueStep, hq]
  simp only [Option.map_some, haccesses, List.drop_left]
  cases s.touch accesses <;> rfl

/-- **What a step can be.** -/
inductive Move (s : OwnedQueue) : Label → Except OwnedFault OwnedQueue → Prop
  | added {a : ℕ} {t : Timer} {clock : ℤ} {x : Except OwnedFault OwnedQueue}
      (hmade : s.made a = false)
      (hx : (s.make a).queueStep (.addTimerInLoop a t clock) = some x) :
      Move s (.addTimer a t clock) x
  | posted {a : ℕ} {t : Timer} (hmade : s.made a = false) :
      Move s (.post a t) (.ok ((s.make a).setFunctor a (.waiting t)))
  | ran {a : ℕ} {t : Timer} {clock : ℤ} {x : Except OwnedFault OwnedQueue}
      (hidle : s.queue.phase = .idle) (hwait : s.functor a = .waiting t)
      (hx : (s.setFunctor a .done).queueStep (.addTimerInLoop a t clock) = some x) :
      Move s (.runFunctor a clock) x
  | destroyedFunctor {a : ℕ} (hfunctor : s.functor a ≠ .none) :
      Move s (.dropFunctor a) (.ok ((s.setFunctor a .none).letGo a))
  | dropped {a : ℕ} (hcaller : s.caller a = true) :
      Move s (.drop a) (.ok ((s.forget a).letGo a))
  | queued {l : TimerQueue.Label} {x : Except OwnedFault OwnedQueue}
      (hl : ∀ a t clock, l ≠ .addTimerInLoop a t clock) (hx : s.queueStep l = some x) :
      Move s (.queue l) x
  | destroyed (hidle : s.queue.phase = .idle) :
      Move s .destroy ((s.touch (s.queue.timers.toList.map fun e => .delete e.second)).map
        fun _ => { s with alive := false })

theorem move_of_step {x : Except OwnedFault OwnedQueue} (h : s.step l = some x) : Move s l x := by
  cases l with
  | addTimer a t clock =>
      simp only [step] at h
      split_ifs at h with hcond
      exact .added hcond.2 h
  | post a t =>
      simp only [step] at h
      split_ifs at h with hcond
      obtain rfl := Option.some.inj h
      exact .posted hcond.2
  | runFunctor a clock =>
      simp only [step] at h
      split at h
      · rename_i t _ hidle hwait
        exact .ran hidle hwait h
      · exact absurd h (by simp)
  | dropFunctor a =>
      simp only [step] at h
      split_ifs at h with hfunctor
      obtain rfl := Option.some.inj h
      exact .destroyedFunctor hfunctor
  | drop a =>
      simp only [step] at h
      split_ifs at h with hcaller
      obtain rfl := Option.some.inj h
      exact .dropped hcaller
  | queue l =>
      cases l with
      | addTimerInLoop a t clock => simp [step] at h
      | _ =>
          simp only [step] at h
          split_ifs at h
          exact .queued (by simp) h
  | destroy =>
      simp only [step] at h
      split at h
      · rename_i _ hidle
        obtain rfl := Option.some.inj h
        have hmove := Move.destroyed hidle
        cases htouch : s.touch (s.queue.timers.toList.map fun e => .delete e.second) <;>
          simpa [htouch, bind, Except.bind, Except.map, pure, Except.pure] using hmove
      · exact absurd h (by simp)

lemma move_of_next (h : s.next l = some s') :
    ∃ x : Except OwnedFault OwnedQueue, x = .ok s' ∧ Move s l x :=
  ⟨_, rfl, move_of_step (next_eq_some.mp h)⟩

/-! ### The invariant of all runs -/

/-- **The invariant**: the queue keeps up with its record, what has owners or is stored was made,
and a timer was released exactly if its last owner has let go. -/
structure Counted (s : OwnedQueue) : Prop where
  tracked : s.queue.Tracked
  made : ∀ a, s.owners a ≠ 0 → s.made a = true
  added : ∀ a, s.queue.record.added a ≠ none →
    s.made a = true ∧ ∀ t, s.functor a ≠ .waiting t
  released : ∀ a, s.released a = if s.made a = true ∧ s.owners a = 0 then 1 else 0

lemma new_counted : new.Counted where
  tracked := TimerQueue.new_tracked
  made := fun _ h => absurd rfl h
  added := fun _ h => absurd rfl h
  released := fun _ => rfl

lemma Counted.released_of_owned (h : s.Counted) (ha : s.owners a ≠ 0) : s.released a = 0 := by
  rw [h.released a, if_neg fun hgone => ha hgone.2]

/-- A timer that was not made is nowhere. -/
lemma Counted.of_not_made (h : s.Counted) (ha : s.made a = false) :
    s.queue.record.added a = none ∧ s.owners a = 0 ∧ s.released a = 0 := by
  refine ⟨?_, ?_, by rw [h.released a, if_neg (by simp [ha])]⟩
  · by_contra hadd
    simp [(h.added a hadd).1] at ha
  · by_contra howners
    simp [h.made a howners] at ha

lemma owners_eq_zero : s.owners a = 0 ↔ s.caller a = false ∧ s.functor a = .none := by
  rw [owners]
  cases s.caller a <;> by_cases hf : s.functor a = .none <;> simp [hf]

/-- What is done to other timers leaves the owners of this one as they are. -/
lemma owners_congr {s₁ : OwnedQueue} (hcaller : s₁.caller a = s.caller a)
    (hfunctor : s₁.functor a = s.functor a) : s₁.owners a = s.owners a := by
  rw [owners, owners, hcaller, hfunctor]

/-- The owners of other timers stay, and this one is owned. -/
lemma Counted.of_owned (h : s.Counted) {a : ℕ} {made caller : ℕ → Bool}
    {functor : ℕ → BoundFunctor} (hmade : made a = true)
    (howned : caller a = true ∨ functor a ≠ .none) (hreleased : s.released a = 0)
    (hwait : s.queue.record.added a ≠ none → ∀ t, functor a ≠ .waiting t)
    (hother : ∀ b, b ≠ a → made b = s.made b ∧ caller b = s.caller b ∧ functor b = s.functor b) :
    Counted { s with made := made, caller := caller, functor := functor } where
  tracked := h.tracked
  made b hb := by
    by_cases hba : b = a
    · exact hba ▸ hmade
    · obtain ⟨hm, hc, hf⟩ := hother b hba
      simp only [owners, hc, hf] at hb
      exact hm.trans (h.made b hb)
  added b hb := by
    by_cases hba : b = a
    · subst hba
      exact ⟨hmade, hwait hb⟩
    · obtain ⟨hm, -, hf⟩ := hother b hba
      simp only [hm, hf]
      exact h.added b hb
  released b := by
    by_cases hba : b = a
    · subst hba
      refine hreleased.trans (if_neg ?_).symm
      rintro ⟨-, hnone⟩
      obtain ⟨hc, hf⟩ := owners_eq_zero.mp hnone
      exact howned.elim (fun h => absurd (hc.symm.trans h) (by simp)) fun h => h hf
    · obtain ⟨hm, hc, hf⟩ := hother b hba
      simp only [owners, hm, hc, hf]
      exact h.released b

lemma Counted.make (h : s.Counted) (hmade : s.made a = false) : (s.make a).Counted := by
  obtain ⟨hadd, howners, hreleased⟩ := h.of_not_made hmade
  refine h.of_owned (Function.update_self _ _ _) (Or.inl (Function.update_self _ _ _)) hreleased
    (fun hne => absurd hadd hne) fun b hb => ?_
  exact ⟨Function.update_of_ne hb _ _, Function.update_of_ne hb _ _, rfl⟩

/-- A functor that owns its timer takes the place of what was there. -/
lemma Counted.setFunctor (h : s.Counted) {functor : BoundFunctor} (hmade : s.made a = true)
    (hreleased : s.released a = 0) (hfunctor : functor ≠ .none)
    (hwait : s.queue.record.added a ≠ none → ∀ t, functor ≠ .waiting t) :
    (s.setFunctor a functor).Counted := by
  refine h.of_owned hmade (Or.inr ?_) hreleased (fun hadd t => ?_) fun b hb => ?_
  · rwa [Function.update_self]
  · rw [Function.update_self]
    exact hwait hadd t
  · exact ⟨rfl, rfl, Function.update_of_ne hb _ _⟩

/-- **An owner lets go**: the timer is released if it was the last. -/
lemma Counted.letGo (h : s.Counted) {caller : ℕ → Bool} {functor : ℕ → BoundFunctor}
    (howned : s.owners a ≠ 0) (hwait : ∀ t, functor a = .waiting t → s.functor a = .waiting t)
    (hother : ∀ b, b ≠ a → caller b = s.caller b ∧ functor b = s.functor b) :
    (OwnedQueue.letGo { s with caller := caller, functor := functor } a).Counted := by
  have hmade := h.made a howned
  have hzero := h.released_of_owned howned
  have hadded : ∀ b, s.queue.record.added b ≠ none →
      s.made b = true ∧ ∀ t, functor b ≠ .waiting t := by
    intro b hb
    obtain ⟨hm, hf⟩ := h.added b hb
    refine ⟨hm, fun t hft => ?_⟩
    by_cases hba : b = a
    · subst hba
      exact hf t (hwait t hft)
    · exact hf t ((hother b hba).2 ▸ hft)
  have howners : ∀ b, b ≠ a →
      OwnedQueue.owners { s with caller := caller, functor := functor } b = s.owners b :=
    fun b hb => owners_congr (hother b hb).1 (hother b hb).2
  rw [OwnedQueue.letGo]
  split_ifs with hlast
  · refine ⟨h.tracked, fun b hb => ?_, hadded, fun b => ?_⟩
    · by_cases hba : b = a
      · exact hba ▸ hmade
      · exact h.made b (howners b hba ▸ hb)
    · by_cases hba : b = a
      · subst hba
        simp only [Function.update_self, hzero, Nat.zero_add]
        exact (if_pos ⟨hmade, hlast⟩).symm
      · simp only [Function.update_of_ne hba]
        refine (h.released b).trans ?_
        rw [← howners b hba]
        rfl
  · refine ⟨h.tracked, fun b hb => ?_, hadded, fun b => ?_⟩
    · by_cases hba : b = a
      · exact hba ▸ hmade
      · exact h.made b (howners b hba ▸ hb)
    · by_cases hba : b = a
      · subst hba
        exact hzero.trans (if_neg fun hgone => hlast hgone.2).symm
      · rw [howners b hba]
        exact h.released b

/-- The queue has made a step. -/
lemma Counted.of_queue (h : s.Counted) {q : TimerQueue} (hq : q.Tracked)
    (hadded : ∀ a, q.record.added a ≠ none → s.queue.record.added a = none →
      s.made a = true ∧ ∀ t, s.functor a ≠ .waiting t) :
    Counted { s with queue := q } where
  tracked := hq
  made := h.made
  added a ha := by
    by_cases hnew : s.queue.record.added a = none
    · exact hadded a ha hnew
    · exact h.added a hnew
  released := h.released

lemma owners_of_caller (h : s.caller a = true) : s.owners a ≠ 0 := by
  intro hnone
  exact absurd (h.symm.trans (owners_eq_zero.mp hnone).1) (by simp)

lemma owners_of_functor (h : s.functor a ≠ .none) : s.owners a ≠ 0 :=
  fun hnone => h (owners_eq_zero.mp hnone).2

@[simp] lemma queue_letGo (s : OwnedQueue) (a : ℕ) : (s.letGo a).queue = s.queue := by
  rw [letGo]
  split_ifs <;> rfl

lemma touch_map_eq_ok {accesses : List Access} {t : OwnedQueue} :
    (s.touch accesses).map (fun _ => t) = .ok s' ↔
      (∀ y ∈ accesses, s.fault y = none) ∧ s' = t := by
  rw [← touch_eq_ok]
  cases s.touch accesses <;> simp [Except.map, eq_comm]

/-- **A step of the queue** passes the queue's own assertions, and succeeds if no access fails. -/
lemma Counted.of_queueStep (h : s.Counted) {l : TimerQueue.Label}
    {x : Except OwnedFault OwnedQueue} (hx : s.queueStep l = some x) : ∃ q accesses,
      s.queue.step l = some (.ok q) ∧ TimerQueue.Stepped s.queue l q accesses ∧
        x = (s.touch accesses).map fun _ => { s with queue := q } := by
  obtain ⟨y, hy, -⟩ := Option.map_eq_some_iff.mp hx
  obtain ⟨q, accesses, rfl, hstepped⟩ := h.tracked.stepped hy
  rw [queueStep_eq hy hstepped.recorded] at hx
  exact ⟨q, accesses, hy, hstepped, (Option.some.inj hx).symm⟩

lemma Counted.of_queueNext (h : s.Counted) {l : TimerQueue.Label}
    (hx : s.queueStep l = some (.ok s'))
    (hl : ∀ a t clock, l = .addTimerInLoop a t clock →
      s.made a = true ∧ ∀ t, s.functor a ≠ .waiting t) : s'.Counted := by
  obtain ⟨q, accesses, -, hstepped, hok⟩ := h.of_queueStep hx
  obtain ⟨-, rfl⟩ := touch_map_eq_ok.mp hok.symm
  refine h.of_queue hstepped.tracked fun a ha hnew => ?_
  obtain ⟨t, clock, heq⟩ := ((hstepped.added a).mp ha).resolve_left (not_not.mpr hnew)
  exact hl a t clock heq

/-- The functor of a timer that was not made. -/
lemma Counted.functor_of_not_made (h : s.Counted) (ha : s.made a = false) :
    s.functor a = .none := (owners_eq_zero.mp (h.of_not_made ha).2.1).2

/-- The functor that the loop runs holds on to its timer. -/
lemma Counted.runFunctor (h : s.Counted) {t : Timer} (hwait : s.functor a = .waiting t) :
    (s.setFunctor a .done).Counted := by
  have howned : s.owners a ≠ 0 := owners_of_functor (by simp [hwait])
  exact h.setFunctor (h.made a howned) (h.released_of_owned howned) (by simp) (by simp)

/-- **Every step that succeeds keeps the invariant.** -/
theorem Counted.next (h : s.Counted) (hx : s.next l = some s') : s'.Counted := by
  obtain ⟨x, hok, hmove⟩ := move_of_next hx
  cases hmove with
  | added hmade hx =>
      refine (h.make hmade).of_queueNext (hok ▸ hx) fun b t' clock' heq => ?_
      obtain ⟨rfl, -, -⟩ := TimerQueue.Label.addTimerInLoop.inj heq
      refine ⟨Function.update_self _ _ _, fun t => ?_⟩
      simp [OwnedQueue.make, h.functor_of_not_made hmade]
  | posted hmade =>
      obtain rfl := Except.ok.inj hok
      obtain ⟨hadd, -, hreleased⟩ := h.of_not_made hmade
      exact (h.make hmade).setFunctor (Function.update_self _ _ _) hreleased (by simp)
        fun hne => absurd hadd hne
  | @ran a t clock _ hidle hwait hx =>
      refine (h.runFunctor hwait).of_queueNext (hok ▸ hx) fun b t' clock' heq => ?_
      obtain ⟨rfl, -, -⟩ := TimerQueue.Label.addTimerInLoop.inj heq
      refine ⟨h.made a (owners_of_functor (by simp [hwait])), fun t => ?_⟩
      simp [OwnedQueue.setFunctor]
  | destroyedFunctor hfunctor =>
      obtain rfl := Except.ok.inj hok
      exact h.letGo (owners_of_functor hfunctor) (by simp)
        fun b hb => ⟨rfl, Function.update_of_ne hb _ _⟩
  | dropped hcaller =>
      obtain rfl := Except.ok.inj hok
      exact h.letGo (owners_of_caller hcaller) (fun _ => id)
        fun b hb => ⟨Function.update_of_ne hb _ _, rfl⟩
  | queued hl hx => exact h.of_queueNext (hok ▸ hx) fun a t clock heq => absurd heq (hl a t clock)
  | destroyed hidle =>
      obtain ⟨-, rfl⟩ := touch_map_eq_ok.mp hok
      exact ⟨h.tracked, h.made, h.added, h.released⟩

lemma Reaches.counted {ok : OwnedQueue → Label → Prop} (h : Reaches ok new s) : s.Counted :=
  Reach.invariant (I := Counted) (fun _ _ _ hs _ hstep => hs.next hstep) h new_counted

/-- **What a step does to the queue**: nothing, or a step of the queue that deletes nothing. -/
lemma Counted.queue_of_next (h : s.Counted) (hx : s.next l = some s') : s'.queue = s.queue ∨
    ∃ lq accesses, s.queue.step lq = some (.ok s'.queue) ∧
      TimerQueue.Stepped s.queue lq s'.queue accesses ∧ ∀ a, .delete a ∉ accesses := by
  have hqueue : ∀ {s₁ : OwnedQueue} {lq : TimerQueue.Label}, s₁.Counted → s₁.queue = s.queue →
      s₁.queueStep lq = some (.ok s') → ∃ lq accesses, s.queue.step lq = some (.ok s'.queue) ∧
        TimerQueue.Stepped s.queue lq s'.queue accesses ∧ ∀ a, .delete a ∉ accesses := by
    intro s₁ lq h₁ hsame hx
    obtain ⟨q, accesses, hq, hstepped, hok⟩ := h₁.of_queueStep hx
    obtain ⟨hpass, rfl⟩ := touch_map_eq_ok.mp hok.symm
    rw [hsame] at hq hstepped
    exact ⟨lq, accesses, hq, hstepped, fun a ha => absurd (hpass _ ha) (by simp [fault])⟩
  obtain ⟨x, hok, hmove⟩ := move_of_next hx
  cases hmove with
  | added hmade hx => exact Or.inr (hqueue (h.make hmade) rfl (hok ▸ hx))
  | ran hidle hwait hx => exact Or.inr (hqueue (h.runFunctor hwait) rfl (hok ▸ hx))
  | queued hl hx => exact Or.inr (hqueue h rfl (hok ▸ hx))
  | posted hmade =>
      obtain rfl := Except.ok.inj hok
      exact Or.inl rfl
  | destroyedFunctor hfunctor =>
      obtain rfl := Except.ok.inj hok
      exact Or.inl (queue_letGo _ _)
  | dropped hcaller =>
      obtain rfl := Except.ok.inj hok
      exact Or.inl (queue_letGo _ _)
  | destroyed hidle =>
      obtain ⟨-, rfl⟩ := touch_map_eq_ok.mp hok
      exact Or.inl rfl

/-! ### When a step passes -/

/-- **The condition on a step**: a callback that is started is one of a timer that was not
released; the batch of `reset` holds only repeating timers, none of them released, and the first
timer of the queue was not released either, unless one of the batch comes before it; and the
destructor finds an empty queue. -/
def Safe (s : OwnedQueue) : Label → Prop
  | .queue .run => ∀ e ∈ s.queue.phase.next?, s.released e.second = 0
  | .queue (.reset ..) =>
      (∀ e ∈ s.queue.phase.expired,
        (s.queue.heap e.second).getRepeat = true ∧ s.released e.second = 0) ∧
      ∀ e ∈ s.queue.timers.first?, s.released e.second = 0 ∨
        ∃ e' ∈ s.queue.phase.expired, s.queue.againEntry e' < e
  | .destroy => s.queue.timers.first? = none
  | _ => True

instance (s : OwnedQueue) : DecidablePred s.Safe
  | .queue .run =>
      inferInstanceAs (Decidable (∀ e ∈ s.queue.phase.next?, s.released e.second = 0))
  | .queue (.reset ..) => inferInstanceAs (Decidable ((∀ e ∈ s.queue.phase.expired,
      (s.queue.heap e.second).getRepeat = true ∧ s.released e.second = 0) ∧
        ∀ e ∈ s.queue.timers.first?, s.released e.second = 0 ∨
          ∃ e' ∈ s.queue.phase.expired, s.queue.againEntry e' < e))
  | .destroy => inferInstanceAs (Decidable (s.queue.timers.first? = none))
  | .addTimer .. => isTrue trivial
  | .post .. => isTrue trivial
  | .runFunctor .. => isTrue trivial
  | .dropFunctor _ => isTrue trivial
  | .drop _ => isTrue trivial
  | .queue (.addTimerInLoop ..) => isTrue trivial
  | .queue (.handleRead _) => isTrue trivial
  | .queue .expire => isTrue trivial

lemma fault_use : s.fault (.use a) = none ↔ s.released a = 0 := by
  rw [fault]
  split_ifs with h <;> simp [h]

lemma fault_delete : s.fault (.delete a) ≠ none := by simp [fault]

/-- The accesses to the batch pass if every timer in it repeats and is still there. -/
lemma forall_resetAccesses {heap : ℕ → Timer} {ran : List Entry} :
    (∀ y ∈ TimerQueue.resetAccesses heap ran, s.fault y = none) ↔
      ∀ e ∈ ran, (heap e.second).getRepeat = true ∧ s.released e.second = 0 := by
  simp only [TimerQueue.resetAccesses, List.mem_flatMap]
  constructor
  · intro h e he
    cases hrep : (heap e.second).getRepeat with
    | true => exact ⟨rfl, fault_use.mp (h _ ⟨e, he, by simp [hrep]⟩)⟩
    | false => exact absurd (h (.delete e.second) ⟨e, he, by simp [hrep]⟩) fault_delete
  · rintro h y ⟨e, he, hy⟩
    obtain ⟨hrep, hreleased⟩ := h e he
    obtain rfl : y = .use e.second := by simpa [hrep] using hy
    exact fault_use.mpr hreleased

/-- **The accesses of `reset`.** -/
lemma forall_reset {q' : TimerQueue} {ran : List Entry}
    (htimers : ∀ e, e ∈ q'.timers ↔ e ∈ s.queue.timers ∨ ∃ e' ∈ ran,
      (s.queue.heap e'.second).getRepeat = true ∧ e = s.queue.againEntry e') :
    (∀ y ∈ TimerQueue.resetAccesses s.queue.heap ran ++
        (q'.timers.first?.map fun e => .use e.second).toList, s.fault y = none) ↔
      (∀ e ∈ ran, (s.queue.heap e.second).getRepeat = true ∧ s.released e.second = 0) ∧
        ∀ e ∈ s.queue.timers.first?, s.released e.second = 0 ∨
          ∃ e' ∈ ran, s.queue.againEntry e' < e := by
  rw [List.forall_mem_append, forall_resetAccesses]
  refine and_congr_right fun hbatch => ?_
  have hfirst : (∀ y ∈ (q'.timers.first?.map fun e => Access.use e.second).toList,
      s.fault y = none) ↔ ∀ e ∈ q'.timers.first?, s.released e.second = 0 := by
    cases q'.timers.first? <;> simp [fault_use]
  rw [hfirst, OrderedSet.forall_first?_iff (P := fun e => s.released e.second = 0) htimers]
  · refine forall₂_congr fun e he => or_congr_right ⟨?_, ?_⟩
    · rintro ⟨_, ⟨e', he', -, rfl⟩, hlt⟩
      exact ⟨e', he', hlt⟩
    · rintro ⟨e', he', hlt⟩
      exact ⟨_, ⟨e', he', (hbatch e' he').1, rfl⟩, hlt⟩
  · rintro _ ⟨e', he', -, rfl⟩
    exact (hbatch e' he').2

lemma exists_touch_map {accesses : List Access} {t : OwnedQueue} :
    (∃ s', (s.touch accesses).map (fun _ => t) = .ok s') ↔ ∀ y ∈ accesses, s.fault y = none := by
  simp only [touch_map_eq_ok, exists_and_left, exists_eq, and_true]

/-- A step that adds a timer that is owned passes. -/
lemma Counted.exists_add (h : s.Counted) (ha : s.owners a ≠ 0) {t : Timer} {clock : ℤ}
    {x : Except OwnedFault OwnedQueue} (hx : s.queueStep (.addTimerInLoop a t clock) = some x) :
    ∃ s', x = .ok s' := by
  obtain ⟨q, accesses, -, ⟨-, -, htouches, -, -⟩, rfl⟩ := h.of_queueStep hx
  cases htouches with
  | add hadd =>
      refine exists_touch_map.mpr fun y hy => ?_
      rw [hadd y hy]
      exact fault_use.mpr (h.released_of_owned ha)

/-- **A step passes exactly if it meets the condition.** -/
theorem Counted.exists_next_iff (h : s.Counted) (hpossible : s.step l ≠ none) :
    (∃ s', s.next l = some s') ↔ s.Safe l := by
  obtain ⟨x, hx⟩ := Option.ne_none_iff_exists'.mp hpossible
  have hiff : (∃ s', s.next l = some s') ↔ ∃ s', x = .ok s' := by simp [next_eq_some, hx]
  rw [hiff]
  cases move_of_step hx with
  | added hmade hx =>
      refine iff_of_true ((h.make hmade).exists_add (owners_of_caller ?_) hx) trivial
      exact Function.update_self _ _ _
  | posted hmade => exact iff_of_true ⟨_, rfl⟩ trivial
  | ran hidle hwait hx =>
      refine iff_of_true ((h.runFunctor hwait).exists_add (owners_of_functor ?_) hx) trivial
      simp [OwnedQueue.setFunctor]
  | destroyedFunctor hfunctor => exact iff_of_true ⟨_, rfl⟩ trivial
  | dropped hcaller => exact iff_of_true ⟨_, rfl⟩ trivial
  | queued hl hx =>
      obtain ⟨q, accesses, -, ⟨-, -, htouches, -, -⟩, rfl⟩ := h.of_queueStep hx
      rw [exists_touch_map]
      cases htouches with
      | add => exact absurd rfl (hl _ _ _)
      | handleRead => exact iff_of_true (by simp) trivial
      | @run now ran todo e _ hphase =>
          have hnext : s.queue.phase.next? = some e := by rw [hphase, TimerPhase.next?]
          simp [Safe, hnext, fault_use]
      | @reset now garbage clock ran _ hphase htimers =>
          have hexpired : s.queue.phase.expired = ran := by
            rw [hphase, TimerPhase.expired, List.append_nil]
          rw [forall_reset htimers, Safe, hexpired]
      | expire => exact iff_of_true (by simp) trivial
  | destroyed hidle =>
      rw [exists_touch_map, Safe, OrderedSet.first?_eq_none]
      simp only [List.forall_mem_map, fault_delete, imp_false]
      exact Iff.rfl

/-! ### When timers run -/

/-- **A one-shot timer ends the loop**: once it is in the batch, the call of `handleRead` does not
come to its end, so no other one starts, and nothing but what is in the batch is run. -/
theorem Counted.once (h : s.Counted) (hone : s.queue.HasOnce a)
    (hs : Reaches (fun _ _ => True) s s') : s.queue.Stuck s'.queue := by
  have hinv : s'.Counted ∧ s.queue.Stuck s'.queue ∧ s'.queue.HasOnce a := by
    refine Reach.invariant (I := fun s' : OwnedQueue => s'.Counted ∧ s.queue.Stuck s'.queue ∧
      s'.queue.HasOnce a) ?_ hs ⟨h, .refl _, hone⟩
    rintro s₁ l s₂ ⟨h₁, hstuck, hone₁⟩ - hstep
    refine ⟨h₁.next hstep, ?_⟩
    obtain hsame | ⟨lq, accesses, hq, hstepped, hkeep⟩ := h₁.queue_of_next hstep
    · rw [hsame]
      exact ⟨hstuck, hone₁⟩
    · obtain ⟨hstuck', hone₂⟩ := h₁.tracked.once_step hone₁ hq hstepped (hkeep a)
      exact ⟨hstuck.trans hstuck', hone₂⟩
  exact hinv.2.1

/-- **When timers run.**  In every run whose steps meet the condition the timers run exactly when
they are due; a further step passes if and only if it meets the condition too; and once a one-shot
timer is in the batch, no step that still passes ends this call of `handleRead`, starts another one,
or runs a timer that is not in the batch. -/
theorem timers_run_when_due (h : Reaches Safe new s) :
    s.queue.RunsWhenDue ∧
      (∀ l, s.step l ≠ none → ((∃ s', s.next l = some s') ↔ s.Safe l)) ∧
        ∀ a, s.queue.HasOnce a → ∀ s', Reaches (fun _ _ => True) s s' → s.queue.Stuck s'.queue :=
  ⟨h.counted.tracked.runsWhenDue, fun _ => h.counted.exists_next_iff,
    fun _ hone _ hs => h.counted.once hone hs⟩

/-- Two repeating timers, one of them added by the callback of the other when it was due already,
and a one-shot timer in the third call, which is the last. -/
theorem timers_run_when_due_three : ∃ s, Reaches Safe new s ∧
    s.queue.record.ran 0 = [⟨10, 1⟩] ∧ s.queue.record.ran 1 = [⟨9, 2⟩, ⟨15, 1⟩] ∧
      s.queue.record.ran 2 = [⟨20, 2⟩, ⟨20, 3⟩, ⟨21, 1⟩] ∧ s.queue.RunsWhenDue ∧
        (¬ ∃ s', s.next (.queue (.reset 0 31)) = some s') ∧
          ∀ s', Reaches (fun _ _ => True) s s' → s'.queue.record.reads = [10, 16, 30] := by
  have hrun : ∃ s, exec next Safe new [.addTimer 1 ⟨10, 5⟩ 3, .queue (.handleRead 10), .queue .run,
      .addTimer 2 ⟨9, 4⟩ 11, .queue (.reset 0 12), .queue (.handleRead 16), .queue .run,
      .queue .run, .addTimer 3 ⟨20, 0⟩ 17, .queue (.reset 0 18), .queue (.handleRead 30),
      .queue .run, .queue .run, .queue .run] = some s ∧
      s.queue.record.ran 0 = [⟨10, 1⟩] ∧ s.queue.record.ran 1 = [⟨9, 2⟩, ⟨15, 1⟩] ∧
        s.queue.record.ran 2 = [⟨20, 2⟩, ⟨20, 3⟩, ⟨21, 1⟩] ∧ s.queue.record.reads = [10, 16, 30] ∧
          s.queue.phase.expired = [⟨20, 2⟩, ⟨20, 3⟩, ⟨21, 1⟩] ∧ s.queue.heap 3 = ⟨20, 0⟩ ∧
            (s.step (.queue (.reset 0 31))).isSome = true ∧ ¬ s.Safe (.queue (.reset 0 31)) := by
    refine ⟨_, rfl, ?_⟩
    decide
  obtain ⟨s, hexec, hzero, hone, htwo, hreads, hbatch, hheap, hpossible, hunsafe⟩ := hrun
  have hs : Reaches Safe new s := (Reach.refl new).of_exec hexec
  obtain ⟨hdue, hiff, hends⟩ := timers_run_when_due hs
  refine ⟨s, hs, hzero, hone, htwo, hdue, fun hpass => ?_, fun s' hs' => ?_⟩
  · exact hunsafe ((hiff _ (Option.isSome_iff_ne_none.mp hpossible)).mp hpass)
  · exact (hends 3 ⟨by simp [hbatch], by rw [hheap]; rfl⟩ s' hs').reads.trans hreads

/-- **Timers whose pointers are kept, behind a one-shot timer**: at the end of the call that has
run it `reset` frees an address that was not allocated.  A second one-shot timer, which is due
later, is never run; and a repeating one that has run in the same call is never in the queue
again. -/
theorem one_shot_ends_the_loop :
    (∃ s, Reaches (fun _ _ => True) new s ∧ s.owners 1 = 1 ∧ s.owners 2 = 1 ∧
      s.queue.record.added 2 = some (0, ⟨20, 0⟩) ∧ s.queue.record.ran 0 = [⟨10, 1⟩] ∧
        (∀ garbage clock, s.step (.queue (.reset garbage clock)) =
          some (.error (.invalidFree 1))) ∧
          ∀ s', Reaches (fun _ _ => True) s s' → ∀ j, ¬ s'.queue.record.Runs 2 j) ∧
    ∃ s, Reaches (fun _ _ => True) new s ∧ s.owners 1 = 1 ∧ s.owners 2 = 1 ∧
      s.queue.record.added 2 = some (0, ⟨10, 5⟩) ∧ s.queue.record.ran 0 = [⟨10, 1⟩, ⟨10, 2⟩] ∧
        (∀ garbage clock, s.step (.queue (.reset garbage clock)) =
          some (.error (.invalidFree 1))) ∧
          ∀ s', Reaches (fun _ _ => True) s s' → ∀ e ∈ s'.queue.timers, e.second ≠ 2 := by
  constructor
  · have hrun : ∃ s, exec next (fun _ _ => True) new [.addTimer 1 ⟨10, 0⟩ 3, .addTimer 2 ⟨20, 0⟩ 4,
        .queue (.handleRead 10), .queue .run] = some s ∧ s.owners 1 = 1 ∧ s.owners 2 = 1 ∧
        s.queue.record.added 2 = some (0, ⟨20, 0⟩) ∧ s.queue.record.reads = [10] ∧
          s.queue.record.ran 0 = [⟨10, 1⟩] ∧ s.queue.phase.expired = [⟨10, 1⟩] ∧
            s.queue.heap 1 = ⟨10, 0⟩ ∧ ∀ garbage clock,
              s.step (.queue (.reset garbage clock)) = some (.error (.invalidFree 1)) :=
      ⟨_, rfl, rfl, rfl, rfl, rfl, rfl, rfl, rfl, fun _ _ => rfl⟩
    obtain ⟨s, hexec, hone, htwo, hadd, hreads, hran, hbatch, hheap, hreset⟩ := hrun
    have hs : Reaches (fun _ _ => True) new s := (Reach.refl new).of_exec hexec
    refine ⟨s, hs, hone, htwo, hadd, hran, hreset, fun s' hs' j hruns => ?_⟩
    have honce : s.queue.HasOnce 1 := ⟨by simp [hbatch], by rw [hheap]; rfl⟩
    rcases (hs.counted.once honce hs').runs 2 j hruns with hbefore | hmem
    · by_cases hj : j = 0
      · rw [hj, TimerRecord.Runs, hran] at hbefore
        exact absurd hbefore (by simp)
      · have hlen : s.queue.record.reads.length ≤ j := by
          rw [hreads]
          exact Nat.one_le_iff_ne_zero.mpr hj
        rw [TimerRecord.Runs, hs.counted.tracked.unread j hlen] at hbefore
        exact absurd hbefore List.not_mem_nil
    · rw [hbatch] at hmem
      exact absurd hmem (by simp)
  · have hrun : ∃ s, exec next (fun _ _ => True) new [.addTimer 1 ⟨10, 0⟩ 3, .addTimer 2 ⟨10, 5⟩ 4,
        .queue (.handleRead 10), .queue .run, .queue .run] = some s ∧ s.owners 1 = 1 ∧
        s.owners 2 = 1 ∧ s.queue.record.added 2 = some (0, ⟨10, 5⟩) ∧
          s.queue.record.ran 0 = [⟨10, 1⟩, ⟨10, 2⟩] ∧
            s.queue.phase.expired = [⟨10, 1⟩, ⟨10, 2⟩] ∧ s.queue.heap 1 = ⟨10, 0⟩ ∧
              ∀ garbage clock,
                s.step (.queue (.reset garbage clock)) = some (.error (.invalidFree 1)) :=
      ⟨_, rfl, rfl, rfl, rfl, rfl, rfl, rfl, fun _ _ => rfl⟩
    obtain ⟨s, hexec, hone, htwo, hadd, hran, hbatch, hheap, hreset⟩ := hrun
    have hs : Reaches (fun _ _ => True) new s := (Reach.refl new).of_exec hexec
    refine ⟨s, hs, hone, htwo, hadd, hran, hreset, fun s' hs' e he heq => ?_⟩
    have honce : s.queue.HasOnce 1 := ⟨by simp [hbatch], by rw [hheap]; rfl⟩
    have hs'' : Reaches (fun _ _ => True) new s' := Relation.ReflTransGen.trans hs hs'
    -- the timer is still in the batch of the call that does not end
    obtain ⟨-, hout⟩ := (hs''.counted.tracked.stored.timers e).mp he
    rw [(hs.counted.once honce hs').batch, hbatch, heq] at hout
    exact hout (by simp)

end OwnedQueue

end Tractor
