import Tractor.Library.Run

/-!
`EventLoop`: the functor queue of `src/EventLoop.cpp`, for any threads `T` and any
functors `F`.

The state is the loop object, the place of its thread inside `loop()`, and which threads
stand between the two halves of `queueInLoop`: the push under the lock, and the wakeup
behind it.  The bodies of I/O handlers and functors are not modelled; while one of them
may be running, the loop's thread takes any steps a caller can take.  `loop()` is
entered by the thread that built the loop, as all its callers do: the check at its top
only prints a line.

* `step`: every step of a caller and of the loop, `EventLoop::loop` and
  `doPendingFunctors` cut at the places where another thread can come in between.
* `Ordered`: what was run, what is left of the batch and what is pending is what was
  pushed, and nothing was run by another thread.
* `functor_queue_in_order`: this holds in every reachable state.
-/

namespace Tractor

open Library

/-- Where the loop's thread stands: outside `loop()`, at the test of its `while`, in
`poll`, in the handlers of the active channels, at the swap of `doPendingFunctors`, or in
its batch with these functors still to run. -/
inductive LoopPc (F : Type) where
  | outside
  | testing
  | polling
  | handling
  | draining
  | running (functors : List F)

/-- The rest of the batch. -/
def LoopPc.functors {F : Type} : LoopPc F → List F
  | running functors => functors
  | _ => []

/-- Code of a user may be running in the loop's thread. -/
def LoopPc.inCallback {F : Type} : LoopPc F → Bool
  | outside => true
  | handling => true
  | running _ => true
  | _ => false

/-- `class EventLoop`, with the record of what was pushed, what was run from the queue
and what `runInLoop` ran at once, and by which thread. -/
structure EventLoop (T F : Type) where
  threadId : T
  looping : Bool
  quit : Bool
  callingPendingFunctors : Bool
  pendingFunctors : List F
  pc : LoopPc F
  queueing : T → Bool
  wakeups : ℕ
  pushed : List F
  ran : List (T × F)
  direct : List (T × F)

namespace EventLoop

variable {T F : Type}

/-- The loop as its constructor leaves it in the thread `threadId`. -/
def new (threadId : T) : EventLoop T F where
  threadId := threadId
  looping := false
  quit := false
  callingPendingFunctors := false
  pendingFunctors := []
  pc := .outside
  queueing := fun _ => false
  wakeups := 0
  pushed := []
  ran := []
  direct := []

def isInLoopThread [DecidableEq T] (e : EventLoop T F) (t : T) : Bool := t = e.threadId

/-- The locked half of `queueInLoop`. -/
def push (e : EventLoop T F) (cb : F) : EventLoop T F :=
  { e with pendingFunctors := e.pendingFunctors ++ [cb], pushed := e.pushed ++ [cb] }

/-- `wakeup()`: the write to `wakeupFd_`. -/
def wakeup (e : EventLoop T F) : EventLoop T F := { e with wakeups := e.wakeups + 1 }

/-- The half of `queueInLoop` behind the lock, in the thread `t`. -/
def wakeupFor [DecidableEq T] (e : EventLoop T F) (t : T) : EventLoop T F :=
  if !e.isInLoopThread t || e.callingPendingFunctors then e.wakeup else e

/-- `functors.swap(pendingFunctors_)`. -/
def swap (e : EventLoop T F) : EventLoop T F :=
  { e with pc := .running e.pendingFunctors, pendingFunctors := [] }

/-- The thread can call a member function: it is not inside `queueInLoop`, and if it is
the loop's own, user code is running in it. -/
def free [DecidableEq T] (e : EventLoop T F) (t : T) : Bool :=
  !e.queueing t && (!e.isInLoopThread t || e.pc.inCallback)

/-- The calls of any thread, and the steps of `loop()`. -/
inductive Label (T F : Type) where
  | runInLoop (t : T) (cb : F)
  | queueInLoop (t : T) (cb : F)
  | wakeup (t : T)
  | quit (t : T)
  | loop
  | test
  | pollReturn
  | handled
  | swap
  | run
  | finish

/-- One step.  The labels of `loop()` are steps of the loop's thread, which finishes a
`queueInLoop` of its own first. -/
def step [DecidableEq T] (e : EventLoop T F) : Label T F → Option (EventLoop T F)
  | .runInLoop t cb =>
      if e.free t then
        if e.isInLoopThread t then some { e with direct := e.direct ++ [(t, cb)] }
        else some { e.push cb with queueing := Function.update e.queueing t true }
      else none
  | .queueInLoop t cb =>
      if e.free t then some { e.push cb with queueing := Function.update e.queueing t true }
      else none
  | .wakeup t =>
      if e.queueing t then
        some { e.wakeupFor t with queueing := Function.update e.queueing t false }
      else none
  | .quit _ => some { e with quit := true }
  | .loop =>
      match e.pc with
      | .outside =>
          -- `assert(!looping_)`
          if e.queueing e.threadId || e.looping then none
          else some { e with looping := true, quit := false, pc := .testing }
      | _ => none
  | .test =>
      match e.pc with
      | .testing =>
          if e.quit then some { e with pc := .outside, looping := false }
          else some { e with pc := .polling }
      | _ => none
  | .pollReturn =>
      match e.pc with
      | .polling => some { e with pc := .handling }
      | _ => none
  | .handled =>
      match e.pc with
      | .handling =>
          if e.queueing e.threadId then none
          else some { e with pc := .draining, callingPendingFunctors := true }
      | _ => none
  | .swap =>
      match e.pc with
      | .draining => some e.swap
      | _ => none
  | .run =>
      match e.pc with
      | .running (cb :: functors) =>
          if e.queueing e.threadId then none
          else some { e with pc := .running functors, ran := e.ran ++ [(e.threadId, cb)] }
      | _ => none
  | .finish =>
      match e.pc with
      | .running [] =>
          if e.queueing e.threadId then none
          else some { e with pc := .testing, callingPendingFunctors := false }
      | _ => none

/-! ### What a step does to the queue -/

/-- The functors that wait: the rest of the batch, then the pending ones. -/
def queue (e : EventLoop T F) : List F := e.pc.functors ++ e.pendingFunctors

section Steps

variable [DecidableEq T] {e e' : EventLoop T F} {t : T} {cb : F}

/-- Another thread's functor goes to the end of the queue. -/
lemma step_runInLoop_other (ht : t ≠ e.threadId) (h : e.step (.runInLoop t cb) = some e') :
    e'.queue = e.queue ++ [cb] ∧ e'.pc = e.pc ∧ e'.threadId = e.threadId := by
  simp only [step, isInLoopThread, ht, decide_false, Bool.false_eq_true, if_false] at h
  split_ifs at h
  obtain rfl := Option.some.inj h
  simp [queue, push]

lemma step_wakeup (h : e.step (.wakeup t) = some e') :
    e'.queue = e.queue ∧ e'.pc = e.pc ∧ e'.threadId = e.threadId := by
  simp only [step, wakeupFor] at h
  split_ifs at h <;> obtain rfl := Option.some.inj h
  · exact ⟨rfl, rfl, rfl⟩
  · exact ⟨rfl, rfl, rfl⟩

lemma step_test (h : e.step .test = some e') :
    e'.queue = e.queue ∧ e.pc = .testing ∧ (e'.pc = .outside ∨ e'.pc = .polling) ∧
      e'.threadId = e.threadId := by
  simp only [step] at h
  split at h
  · rename_i hpc
    split_ifs at h <;> obtain rfl := Option.some.inj h
    · exact ⟨by simp [queue, hpc, LoopPc.functors], hpc, Or.inl rfl, rfl⟩
    · exact ⟨by simp [queue, hpc, LoopPc.functors], hpc, Or.inr rfl, rfl⟩
  · exact absurd h (by simp)

lemma step_pollReturn (h : e.step .pollReturn = some e') :
    e'.queue = e.queue ∧ e.pc = .polling ∧ e'.pc = .handling ∧ e'.threadId = e.threadId := by
  simp only [step] at h
  split at h
  · rename_i hpc
    obtain rfl := Option.some.inj h
    exact ⟨by simp [queue, hpc, LoopPc.functors], hpc, rfl, rfl⟩
  · exact absurd h (by simp)

lemma step_handled (h : e.step .handled = some e') :
    e'.queue = e.queue ∧ e.pc = .handling ∧ e'.pc = .draining ∧ e'.threadId = e.threadId := by
  simp only [step] at h
  split at h
  · rename_i hpc
    split_ifs at h
    obtain rfl := Option.some.inj h
    exact ⟨by simp [queue, hpc, LoopPc.functors], hpc, rfl, rfl⟩
  · exact absurd h (by simp)

/-- The swap turns the pending functors into the batch and keeps their order. -/
lemma step_swap (h : e.step .swap = some e') :
    e'.queue = e.queue ∧ e.pc = .draining ∧ e'.pc = .running e.queue ∧
      e'.threadId = e.threadId := by
  simp only [step] at h
  split at h
  · rename_i hpc
    obtain rfl := Option.some.inj h
    exact ⟨by simp [queue, swap, hpc, LoopPc.functors], hpc,
      by simp [queue, swap, hpc, LoopPc.functors], rfl⟩
  · exact absurd h (by simp)

/-- The batch is run from its front. -/
lemma step_run {functors : List F} (hcb : e.pc.functors = cb :: functors)
    (h : e.step .run = some e') :
    e.queue = cb :: e'.queue ∧ e.pc = .running (cb :: functors) ∧ e'.pc = .running functors ∧
      e'.threadId = e.threadId := by
  simp only [step] at h
  split at h
  · rename_i cb' functors' hpc
    split_ifs at h
    obtain rfl := Option.some.inj h
    rw [hpc] at hcb
    obtain ⟨rfl, rfl⟩ : cb' = cb ∧ functors' = functors := by simpa [LoopPc.functors] using hcb
    exact ⟨by simp [queue, hpc, LoopPc.functors], hpc, rfl, rfl⟩
  · exact absurd h (by simp)

lemma step_finish (h : e.step .finish = some e') :
    e'.queue = e.queue ∧ e.pc = .running [] ∧ e'.pc = .testing ∧ e'.threadId = e.threadId := by
  simp only [step] at h
  split at h
  · rename_i hpc
    split_ifs at h
    obtain rfl := Option.some.inj h
    exact ⟨by simp [queue, hpc, LoopPc.functors], hpc, rfl, rfl⟩
  · exact absurd h (by simp)

end Steps

/-! ### The queue in order -/

/-- The functors run from the queue, the rest of the batch and the pending functors are
what was pushed, in that order; and the loop's thread ran every functor that was run. -/
structure Ordered (e : EventLoop T F) : Prop where
  queue : e.ran.map Prod.snd ++ e.pc.functors ++ e.pendingFunctors = e.pushed
  thread : ∀ x ∈ e.ran ++ e.direct, x.1 = e.threadId

lemma new_ordered (t : T) : (new t : EventLoop T F).Ordered := ⟨rfl, by simp [new]⟩

/-- A functor pushed at any moment goes to the end. -/
lemma Ordered.push {e : EventLoop T F} (h : e.Ordered) (cb : F) : (e.push cb).Ordered :=
  ⟨by simp [EventLoop.push, ← h.queue], h.thread⟩

/-- Only these members matter. -/
lemma Ordered.of_eq {e e' : EventLoop T F} (h : e.Ordered) (hran : e'.ran = e.ran)
    (hpc : e'.pc.functors = e.pc.functors) (hpend : e'.pendingFunctors = e.pendingFunctors)
    (hpushed : e'.pushed = e.pushed) (hdirect : e'.direct = e.direct)
    (hid : e'.threadId = e.threadId) : e'.Ordered :=
  ⟨by rw [hran, hpc, hpend, hpushed, h.queue], by rw [hran, hdirect, hid]; exact h.thread⟩

/-- The swap moves the pending functors behind a batch that is used up. -/
lemma Ordered.swap {e : EventLoop T F} (h : e.Ordered) (hpc : e.pc.functors = []) :
    e.swap.Ordered := by
  have hq := h.queue
  rw [hpc] at hq
  exact ⟨by simpa [EventLoop.swap, LoopPc.functors] using hq, h.thread⟩

/-- **Every step keeps the queue in order.** -/
theorem Ordered.step [DecidableEq T] {e e' : EventLoop T F} {l : Label T F} (h : e.Ordered)
    (hstep : e.step l = some e') : e'.Ordered ∧ e'.threadId = e.threadId := by
  cases l with
  | runInLoop t cb =>
      simp only [EventLoop.step] at hstep
      split_ifs at hstep with hfree hin
      · -- called in the loop's thread, the functor is run at once
        obtain rfl := Option.some.inj hstep
        have ht : t = e.threadId := by simpa [isInLoopThread] using hin
        refine ⟨⟨h.queue, fun x hx => ?_⟩, rfl⟩
        simp only [← List.append_assoc, List.mem_append, List.mem_singleton] at hx
        rcases hx with hx | rfl
        · exact h.thread x (List.mem_append.mpr hx)
        · exact ht
      · obtain rfl := Option.some.inj hstep
        exact ⟨(h.push cb).of_eq rfl rfl rfl rfl rfl rfl, rfl⟩
  | queueInLoop t cb =>
      simp only [EventLoop.step] at hstep
      split_ifs at hstep
      obtain rfl := Option.some.inj hstep
      exact ⟨(h.push cb).of_eq rfl rfl rfl rfl rfl rfl, rfl⟩
  | wakeup t =>
      simp only [EventLoop.step, wakeupFor] at hstep
      split_ifs at hstep <;> obtain rfl := Option.some.inj hstep
      · exact ⟨h.of_eq rfl rfl rfl rfl rfl rfl, rfl⟩
      · exact ⟨h.of_eq rfl rfl rfl rfl rfl rfl, rfl⟩
  | quit t =>
      obtain rfl := Option.some.inj hstep
      exact ⟨h.of_eq rfl rfl rfl rfl rfl rfl, rfl⟩
  | loop =>
      simp only [EventLoop.step] at hstep
      split at hstep
      · rename_i hpc
        split_ifs at hstep
        obtain rfl := Option.some.inj hstep
        exact ⟨h.of_eq rfl (by rw [hpc]; rfl) rfl rfl rfl rfl, rfl⟩
      · exact absurd hstep (by simp)
  | test =>
      simp only [EventLoop.step] at hstep
      split at hstep
      · rename_i hpc
        split_ifs at hstep <;> obtain rfl := Option.some.inj hstep
        · exact ⟨h.of_eq rfl (by rw [hpc]; rfl) rfl rfl rfl rfl, rfl⟩
        · exact ⟨h.of_eq rfl (by rw [hpc]; rfl) rfl rfl rfl rfl, rfl⟩
      · exact absurd hstep (by simp)
  | pollReturn =>
      simp only [EventLoop.step] at hstep
      split at hstep
      · rename_i hpc
        obtain rfl := Option.some.inj hstep
        exact ⟨h.of_eq rfl (by rw [hpc]; rfl) rfl rfl rfl rfl, rfl⟩
      · exact absurd hstep (by simp)
  | handled =>
      simp only [EventLoop.step] at hstep
      split at hstep
      · rename_i hpc
        split_ifs at hstep
        obtain rfl := Option.some.inj hstep
        exact ⟨h.of_eq rfl (by rw [hpc]; rfl) rfl rfl rfl rfl, rfl⟩
      · exact absurd hstep (by simp)
  | swap =>
      simp only [EventLoop.step] at hstep
      split at hstep
      · rename_i hpc
        obtain rfl := Option.some.inj hstep
        exact ⟨h.swap (by rw [hpc]; rfl), rfl⟩
      · exact absurd hstep (by simp)
  | run =>
      simp only [EventLoop.step] at hstep
      split at hstep
      · rename_i cb functors hpc
        split_ifs at hstep
        obtain rfl := Option.some.inj hstep
        have hq := h.queue
        rw [hpc] at hq
        refine ⟨⟨by simpa [LoopPc.functors] using hq, fun x hx => ?_⟩, rfl⟩
        simp only [List.mem_append, List.mem_singleton] at hx
        rcases hx with (hx | rfl) | hx
        · exact h.thread x (List.mem_append_left _ hx)
        · rfl
        · exact h.thread x (List.mem_append_right _ hx)
      · exact absurd hstep (by simp)
  | finish =>
      simp only [EventLoop.step] at hstep
      split at hstep
      · rename_i hpc
        split_ifs at hstep
        obtain rfl := Option.some.inj hstep
        exact ⟨h.of_eq rfl (by rw [hpc]; rfl) rfl rfl rfl rfl, rfl⟩
      · exact absurd hstep (by simp)

/-- **The functor queue**: in every state any schedule of callers and loop can reach, the
functors run from the queue, the unrun rest of the batch and the pending functors are
exactly what was pushed so far, in order, and every functor that was run, from the queue
or at once, was run by the thread the loop was built in. -/
theorem functor_queue_in_order [DecidableEq T] {threadId : T} {e : EventLoop T F}
    (h : Reach EventLoop.step (fun _ _ => True) (new threadId) e) :
    e.ran.map Prod.snd ++ e.pc.functors ++ e.pendingFunctors = e.pushed ∧
      ∀ x ∈ e.ran ++ e.direct, x.1 = threadId := by
  have hinv : e.Ordered ∧ e.threadId = threadId := by
    refine Reach.invariant (I := fun e => e.Ordered ∧ e.threadId = threadId) ?_ h
      ⟨new_ordered threadId, rfl⟩
    rintro e l e' ⟨hord, hid⟩ - hstep
    obtain ⟨hord', hid'⟩ := hord.step hstep
    exact ⟨hord', hid'.trans hid⟩
  obtain ⟨⟨hqueue, hthread⟩, rfl⟩ := hinv
  exact ⟨hqueue, hthread⟩

/-- Another thread queues two functors while the handlers run and a third one while the
first of them runs. -/
theorem functor_queue_in_order_three : ∃ e : EventLoop Bool ℕ,
    Reach EventLoop.step (fun _ _ => True) (new false) e ∧
      e.ran = [(false, 1)] ∧ e.pc.functors = [2] ∧ e.pendingFunctors = [3] ∧
      e.ran.map Prod.snd ++ e.pc.functors ++ e.pendingFunctors = e.pushed ∧
      ∀ x ∈ e.ran ++ e.direct, x.1 = false := by
  obtain ⟨e, hexec, hran, hbatch, hpend⟩ : ∃ e : EventLoop Bool ℕ,
      exec EventLoop.step (fun _ _ => True) (new false)
        [.loop, .test, .pollReturn, .queueInLoop true 1, .wakeup true, .runInLoop true 2,
          .handled, .swap, .run, .wakeup true, .queueInLoop true 3] = some e ∧
      e.ran = [(false, 1)] ∧ e.pc.functors = [2] ∧ e.pendingFunctors = [3] :=
    ⟨_, rfl, rfl, rfl, rfl⟩
  have h : Reach EventLoop.step (fun _ _ => True) (new false) e :=
    (Reach.refl _).of_exec hexec
  exact ⟨e, h, hran, hbatch, hpend, functor_queue_in_order h⟩

end EventLoop

end Tractor
