import Tractor.Net.EPollSet
import Tractor.Net.EventLoop

/-!
The wakeup channel of `EventLoop`: the loop with its poller, as the constructor of
`src/EventLoop.cpp` leaves them.

The constructor does not create the descriptor `wakeupFd_`, so `wakeupChannel_` is built
with whatever value is there, and it never enables that channel; the channel is private,
and `handleRead` has no body.  A call of `wakeup()` counts as a write that nobody has read.

* `Reactor`: the loop, its poller and `wakeupFd_`, with the steps of the loop, polls and the
  calls of user code on channels of its own.
* `stalls`: the loop is inside `poll` with functors pending, and no wakeup can end that.
* `no_lost_wakeup`: this does not happen exactly as long as every functor comes in where
  the loop drains the queue before the next `poll`; the wakeup never helps.
-/

namespace Tractor

open Library

/-! ### Functors pending in `poll` -/

def LoopPc.isPolling {F : Type} : LoopPc F → Bool
  | polling => true
  | _ => false

namespace EventLoop

variable {T F : Type} [DecidableEq T]

/-- The loop is inside `poll` with functors pending. -/
def pendingInPoll (e : EventLoop T F) : Prop :=
  e.pc.isPolling = true ∧ e.pendingFunctors ≠ []

/-- No functor is queued while the loop is inside `poll`, and the loop does not go on to
`poll` with functors pending. -/
def drainsFirst (e : EventLoop T F) : Label T F → Prop
  | .runInLoop _ _ => e.pc.isPolling = false
  | .queueInLoop _ _ => e.pc.isPolling = false
  | .test => e.quit = true ∨ e.pendingFunctors = []
  | _ => True

instance (e : EventLoop T F) : (l : Label T F) → Decidable (e.drainsFirst l)
  | .runInLoop _ _ | .queueInLoop _ _ => inferInstanceAs (Decidable (_ = false))
  | .test => inferInstanceAs (Decidable (_ ∨ e.pendingFunctors = []))
  | .wakeup _ | .quit _ | .loop | .pollReturn | .handled | .swap | .run | .finish => isTrue trivial

omit [DecidableEq T] in
lemma not_pendingInPoll {e : EventLoop T F} (h : e.pc.isPolling = false) : ¬ e.pendingInPoll := by
  rintro ⟨hpoll, -⟩
  exact absurd (h.symm.trans hpoll) (by simp)

/-- **One step of the loop**: it ends inside `poll` with functors pending exactly if it
does not drain first. -/
theorem pendingInPoll_step {e e' : EventLoop T F} {l : Label T F} (h : ¬ e.pendingInPoll)
    (hstep : e.step l = some e') : ¬ e'.pendingInPoll ↔ e.drainsFirst l := by
  cases l with
  | runInLoop t cb =>
      simp only [step] at hstep
      split_ifs at hstep with hfree hin <;> obtain rfl := Option.some.inj hstep
      · -- the loop's own thread is not inside `poll` when it calls
        have hpc : e.pc.isPolling = false := by
          simp only [free, hin, Bool.not_true, Bool.false_or, Bool.and_eq_true] at hfree
          cases hp : e.pc <;> simp_all [LoopPc.inCallback, LoopPc.isPolling]
        exact iff_of_true h hpc
      · simp [pendingInPoll, drainsFirst, push]
  | queueInLoop t cb =>
      simp only [step] at hstep
      split_ifs at hstep
      obtain rfl := Option.some.inj hstep
      simp [pendingInPoll, drainsFirst, push]
  | wakeup t =>
      simp only [step, wakeupFor] at hstep
      split_ifs at hstep <;> obtain rfl := Option.some.inj hstep
      · exact iff_of_true h trivial
      · exact iff_of_true h trivial
  | quit t =>
      obtain rfl := Option.some.inj hstep
      exact iff_of_true h trivial
  | test =>
      simp only [step] at hstep
      split at hstep
      · split_ifs at hstep with hquit <;> obtain rfl := Option.some.inj hstep
        · simp [pendingInPoll, drainsFirst, LoopPc.isPolling, hquit]
        · simp [pendingInPoll, drainsFirst, LoopPc.isPolling, hquit]
      · exact absurd hstep (by simp)
  | loop =>
      simp only [step] at hstep
      split at hstep
      · split_ifs at hstep
        obtain rfl := Option.some.inj hstep
        exact iff_of_true (not_pendingInPoll rfl) trivial
      · exact absurd hstep (by simp)
  | pollReturn =>
      obtain ⟨-, -, hpc, -⟩ := step_pollReturn hstep
      exact iff_of_true (not_pendingInPoll (by rw [hpc]; rfl)) trivial
  | handled =>
      obtain ⟨-, -, hpc, -⟩ := step_handled hstep
      exact iff_of_true (not_pendingInPoll (by rw [hpc]; rfl)) trivial
  | swap =>
      obtain ⟨-, -, hpc, -⟩ := step_swap hstep
      exact iff_of_true (not_pendingInPoll (by rw [hpc]; rfl)) trivial
  | run =>
      simp only [step] at hstep
      split at hstep
      · split_ifs at hstep
        obtain rfl := Option.some.inj hstep
        exact iff_of_true (not_pendingInPoll rfl) trivial
      · exact absurd hstep (by simp)
  | finish =>
      obtain ⟨-, -, hpc, -⟩ := step_finish hstep
      exact iff_of_true (not_pendingInPoll (by rw [hpc]; rfl)) trivial

end EventLoop

/-! ### The loop and its poller -/

/-- `class EventLoop` with its poller.  The channel `none` is `wakeupChannel_`, the others
are those of the user. -/
structure Reactor (T F C : Type) where
  loop : EventLoop T F
  poller : EPoller (Option C)
  wakeupFd : ℤ

namespace Reactor

variable {T F C : Type} [DecidableEq T] [DecidableEq C]

/-- The loop as its constructor leaves it in the thread `threadId`, with any value in the
member `wakeupFd_`, and new channels of the user on the descriptors `fd`. -/
def new (threadId : T) (wakeupFd : ℤ) (fd : C → ℕ) : Reactor T F C where
  loop := EventLoop.new threadId
  poller := EPoller.new fun c => c.elim wakeupFd.toNat fd
  wakeupFd := wakeupFd

/-- A step of the loop or of a thread that calls it, a `poll` that returned events, or a call
on a channel of the user in the loop's thread. -/
inductive Label (T F C : Type) where
  | loop (l : EventLoop.Label T F)
  | poll (events : List (Option C × Mask))
  | channel (c : C) (f : ChannelCall)

def step (r : Reactor T F C) : Label T F C → Option (Reactor T F C)
  | .loop l => (r.loop.step l).map fun e => { r with loop := e }
  | .poll events =>
      (r.loop.step .pollReturn).bind fun e =>
        (r.poller.fillActiveChannels events).toOption.map fun p => { r with loop := e, poller := p }
  | .channel c f =>
      if r.loop.free r.loop.threadId then
        (r.poller.call (some c) f).toOption.map fun p => { r with poller := p }
      else none

/-- The descriptor of `wakeupChannel_` is registered for reading, with that channel as its
data pointer. -/
def wakeupRegistered (r : Reactor T F C) : Prop :=
  ∃ (fd : ℕ) (m : Mask), fd = r.wakeupFd ∧ r.poller.epoll fd = some (m, none) ∧
    Mask.has m POLLIN = true

/-- The loop is inside `poll` with functors pending, and there is no wakeup it will see. -/
def stalls (r : Reactor T F C) : Prop :=
  r.loop.pendingInPoll ∧ ¬ (r.wakeupRegistered ∧ 0 < r.loop.wakeups)

/-- The condition of `EventLoop.drainsFirst`, of a step. -/
def drainsFirst (r : Reactor T F C) : Label T F C → Prop
  | .loop l => r.loop.drainsFirst l
  | _ => True

instance (r : Reactor T F C) : (l : Label T F C) → Decidable (r.drainsFirst l)
  | .loop l => inferInstanceAs (Decidable (r.loop.drainsFirst l))
  | .poll _ | .channel _ _ => isTrue trivial

/-- Nobody registers the wakeup channel. -/
structure Unregistered (r : Reactor T F C) : Prop where
  inStep : r.poller.InStep
  index : (r.poller.chan none).index = .kNew

section Step

variable {r r' : Reactor T F C} {l : Label T F C}

omit [DecidableEq T] [DecidableEq C] in
lemma new_unregistered (threadId : T) (wakeupFd : ℤ) (fd : C → ℕ) :
    (new threadId wakeupFd fd : Reactor T F C).Unregistered :=
  ⟨EPoller.new_inStep _, rfl⟩

omit [DecidableEq T] [DecidableEq C] in
lemma Unregistered.not_registered (h : r.Unregistered) : ¬ r.wakeupRegistered := by
  rintro ⟨fd, m, -, hfd, -⟩
  exact absurd (h.index.symm.trans (h.inStep.watched fd m none hfd).2) (by simp)

omit [DecidableEq T] [DecidableEq C] in
/-- So a pending functor inside `poll` is one that no wakeup reaches. -/
lemma Unregistered.stalls_iff (h : r.Unregistered) : r.stalls ↔ r.loop.pendingInPoll :=
  and_iff_left fun hreg => h.not_registered hreg.1

/-- A call on another channel leaves the wakeup channel as it is. -/
lemma chan_call {p p' : EPoller (Option C)} (h : p.InStep) {c : C} {f : ChannelCall}
    (hok : p.call (some c) f = .ok p') : p'.chan none = p.chan none := by
  by_cases hf : f = .removeChannel
  · subst hf
    obtain ⟨-, htouch, -⟩ := EPoller.removeChannel_ok h.toValid hok
    exact htouch.chan none (by simp)
  · rw [EPoller.call_eq_changeEvents p (some c) hf] at hok
    obtain ⟨-, htouch, -, -⟩ := EPoller.changeEvents_ok h.toValid hok
    exact htouch.chan none (by simp)

lemma Unregistered.step (h : r.Unregistered) (hstep : r.step l = some r') : r'.Unregistered := by
  cases l with
  | loop l =>
      obtain ⟨e, -, rfl⟩ := Option.map_eq_some_iff.mp hstep
      exact ⟨h.inStep, h.index⟩
  | poll events =>
      obtain ⟨e, -, hstep⟩ := Option.bind_eq_some_iff.mp hstep
      obtain ⟨p, hp, rfl⟩ := Option.map_eq_some_iff.mp hstep
      have hrep := EPoller.fillActiveChannels_ok (toOption_eq_some.mp hp)
      exact ⟨h.inStep.reports hrep, (hrep.chan none).2.1.trans h.index⟩
  | channel c f =>
      simp only [Reactor.step] at hstep
      split_ifs at hstep
      obtain ⟨p, hp, rfl⟩ := Option.map_eq_some_iff.mp hstep
      have hok := toOption_eq_some.mp hp
      refine ⟨h.inStep.next (l := .call (some c) f) hok, ?_⟩
      rw [chan_call h.inStep hok]
      exact h.index

/-- One step. -/
lemma Unregistered.stalls_step (h : r.Unregistered) (hs : ¬ r.stalls)
    (hstep : r.step l = some r') : ¬ r'.stalls ↔ r.drainsFirst l := by
  rw [h.stalls_iff] at hs
  rw [(h.step hstep).stalls_iff]
  cases l with
  | loop l =>
      obtain ⟨e, he, rfl⟩ := Option.map_eq_some_iff.mp hstep
      exact EventLoop.pendingInPoll_step hs he
  | poll events =>
      obtain ⟨e, he, hstep⟩ := Option.bind_eq_some_iff.mp hstep
      obtain ⟨p, -, rfl⟩ := Option.map_eq_some_iff.mp hstep
      exact EventLoop.pendingInPoll_step hs he
  | channel c f =>
      simp only [Reactor.step] at hstep
      split_ifs at hstep
      obtain ⟨p, -, rfl⟩ := Option.map_eq_some_iff.mp hstep
      exact iff_of_true hs trivial

end Step

/-- **No lost wakeup**, as far as the code goes: for a loop as its constructor builds it, in
every run whose steps drain first the loop is never inside `poll` with functors pending that
no wakeup reaches; and the first step that does not drain first leads there. -/
theorem no_lost_wakeup (threadId : T) (wakeupFd : ℤ) (fd : C → ℕ) {r : Reactor T F C}
    (h : Reach step drainsFirst (new threadId wakeupFd fd) r) :
    ¬ r.stalls ∧ ∀ l r', r.step l = some r' → (¬ r'.stalls ↔ r.drainsFirst l) := by
  have hinv : r.Unregistered ∧ ¬ r.stalls := by
    refine Reach.invariant (I := fun r => r.Unregistered ∧ ¬ r.stalls) ?_ h
      ⟨new_unregistered _ _ _, fun hs => absurd hs.1.1 (by simp [new, EventLoop.new,
        LoopPc.isPolling])⟩
    rintro r l r' ⟨hu, hs⟩ hok hstep
    exact ⟨hu.step hstep, (hu.stalls_step hs hstep).mpr hok⟩
  exact ⟨hinv.2, fun l r' hstep => hinv.1.stalls_step hinv.2 hstep⟩

/-- A functor that a handler queues is run before the loop is inside `poll` again. -/
theorem no_lost_wakeup_handler : ∃ r : Reactor Bool ℕ Unit,
    Reach step drainsFirst (new false (-1) fun _ => 5) r ∧
      r.loop.pc.isPolling = true ∧ r.loop.ran = [(false, 7)] ∧ ¬ r.stalls := by
  obtain ⟨r, hexec, hpc, hran⟩ : ∃ r : Reactor Bool ℕ Unit,
      exec step drainsFirst (new false (-1) fun _ => 5)
        [.channel () .enableReading, .loop .loop, .loop .test, .poll [(some (), POLLIN)],
          .loop (.queueInLoop false 7), .loop (.wakeup false), .loop .handled, .loop .swap,
          .loop .run, .loop .finish, .loop .test] = some r ∧
      r.loop.pc.isPolling = true ∧ r.loop.ran = [(false, 7)] :=
    ⟨_, rfl, rfl, rfl⟩
  have h := (Reach.refl _).of_exec hexec
  exact ⟨r, h, hpc, hran, (no_lost_wakeup false (-1) _ h).1⟩

/-- Another thread queues a functor while the loop is inside `poll`, and its wakeup is
written to a descriptor that was never registered. -/
theorem queued_in_poll_stalls : ∃ r : Reactor Bool ℕ Unit,
    Reach step (fun _ _ => True) (new false (-1) fun _ => 5) r ∧ 0 < r.loop.wakeups ∧
      r.stalls := by
  obtain ⟨r, hexec, hpoll, hpending, hwakeups, hepoll⟩ : ∃ r : Reactor Bool ℕ Unit,
      exec step (fun _ _ => True) (new false (-1) fun _ => 5)
        [.loop .loop, .loop .test, .loop (.queueInLoop true 7), .loop (.wakeup true)] = some r ∧
      r.loop.pc.isPolling = true ∧ r.loop.pendingFunctors = [7] ∧ r.loop.wakeups = 1 ∧
      r.poller.epoll = fun _ => none :=
    ⟨_, rfl, rfl, rfl, rfl, rfl⟩
  refine ⟨r, (Reach.refl _).of_exec hexec, by omega, ⟨hpoll, by simp [hpending]⟩, ?_⟩
  rintro ⟨⟨fd, m, -, hfd, -⟩, -⟩
  simp [hepoll] at hfd

end Reactor

end Tractor
