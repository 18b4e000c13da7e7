import Tractor.Library.Progress
import Tractor.Net.EventLoop
import Tractor.Net.ThreadPool

/-!
`Thread` of `src/ThreadPool.cpp`: the thread that calls `startLoop` and later destroys the object,
and the child that runs `threadFunc_`.

Both threads are cut where the other can come in between: at every lock and unlock, at every access
to `loop_`, and at the calls of the loop.  `condition_variable_.wait` gives the lock back and blocks
at once; it ends by `notify_all`, or spuriously, and then takes the lock again.  The loop is an
object of the child's stack.

* `Thread.step`: every step of both threads, with the spurious wakeups and what is done with the
  loop.
* `Shaken`: the invariant of the handshake.
* `startLoop_returns`: **`startLoop` gives a loop that is built, and is never stuck.**
* `join_returns_iff`: **the destructor can come to its end exactly if `quit` came after the loop was
  entered.**
-/

namespace Tractor

open Library

namespace ThreadPool

/-- The thread that owns the object, and the one it makes. -/
inductive Party where
  | creator
  | child
  deriving DecidableEq

/-- Where the creator stands: before `startLoop`; in it, in front of the lock, at the test of the
`while`, in `wait`, in front of the lock there, in front of the unlock, and of the `return`; behind
it; and in the destructor, in front of `quit`, in `join` and behind it. -/
inductive CreatorPc where
  | built
  | locking
  | testing
  | waiting
  | relocking
  | unlocking
  | returning
  | returned
  | quitting
  | joining
  | joined
  deriving DecidableEq

/-- Where the child stands: not made; in `threadFunc_`, in front of the construction of the loop,
the lock, the assignment, the notification, the unlock and `loop()`; in `loop()`; and behind the
end of the loop's life. -/
inductive ChildPc where
  | absent
  | constructing
  | locking
  | setting
  | notifying
  | unlocking
  | entering
  | looping
  | ended
  deriving DecidableEq

/-- The places the two threads can be at together. -/
def compatible : CreatorPc → ChildPc → Bool
  | .built, .absent => true
  | .locking, child => child ≠ .absent ∧ child ≠ .ended
  | .testing, child =>
      child = .constructing ∨ child = .locking ∨ child = .entering ∨ child = .looping
  | .waiting, child =>
      child = .constructing ∨ child = .locking ∨ child = .setting ∨ child = .notifying
  | .relocking, child => child ≠ .absent ∧ child ≠ .ended
  | .unlocking, child | .returning, child | .returned, child =>
      child = .entering ∨ child = .looping
  | .quitting, child => child = .absent ∨ child = .entering ∨ child = .looping
  | .joining, child => child = .entering ∨ child = .looping ∨ child = .ended
  | .joined, .ended => true
  | _, _ => false

/-- Who holds `mutex_`. -/
def holder : CreatorPc → ChildPc → Option Party
  | .testing, _ | .unlocking, _ => some .creator
  | _, .setting | _, .notifying | _, .unlocking => some .child
  | _, _ => none

/-- `loop_` is set. -/
def ChildPc.hasSet : ChildPc → Bool
  | .notifying | .unlocking | .entering | .looping | .ended => true
  | _ => false

/-- What `startLoop` has returned. -/
def returned : CreatorPc → ChildPc → Option Bool
  | .returned, _ | .joining, _ | .joined, _ => some true
  | .quitting, child => if child = .absent then none else some true
  | _, _ => none

/-- `quit` through a null pointer or on a loop that is destroyed, and the assertion of
`~EventLoop`. -/
inductive ThreadFault where
  | nullLoop
  | deadLoop
  | looping
  deriving DecidableEq

/-- `class Thread`: whether `loop_` points to the loop, `exiting_`, the holder of `mutex_`, the
loop while it lives, and where both threads stand; and, for the record, whether the pointer that
`startLoop` returned was not null, and whether `quit` came before the loop was entered. -/
structure Thread (F : Type) where
  loopSet : Bool
  exiting : Bool
  mutex : Option Party
  loop : Option (EventLoop Party F)
  creator : CreatorPc
  child : ChildPc
  result : Option Bool
  early : Bool

namespace Thread

variable {F : Type}

/-- `Thread()`. -/
def new : Thread F where
  loopSet := false
  exiting := false
  mutex := none
  loop := none
  creator := .built
  child := .absent
  result := none
  early := false

/-- The steps of the creator, the spurious wakeup, the steps of the child, and what is done with
the loop while the child is in it. -/
inductive Label (F : Type) where
  | spawn
  | lock
  | test
  | wake
  | unlock
  | ret
  | destroy
  | quit
  | join
  | construct
  | childLock
  | set
  | notify
  | childUnlock
  | enter
  | use (l : EventLoop.Label Party F)
  | exit

/-- `loop()` is called once, by `threadFunc_`. -/
def reenters : EventLoop.Label Party F → Bool
  | .loop => true
  | _ => false

/-- One step: `none` if it is not possible. -/
def step (s : Thread F) : Label F → Option (Except ThreadFault (Thread F))
  | .spawn =>
      if s.creator = .built then
        some (.ok { s with creator := .locking, child := .constructing })
      else none
  | .lock =>
      if (s.creator = .locking ∨ s.creator = .relocking) ∧ s.mutex = none then
        some (.ok { s with creator := .testing, mutex := some .creator })
      else none
  | .test =>
      -- `while (loop_ == NULL)`
      if s.creator = .testing then
        if s.loopSet then some (.ok { s with creator := .unlocking })
        else some (.ok { s with creator := .waiting, mutex := none })
      else none
  | .wake =>
      if s.creator = .waiting then some (.ok { s with creator := .relocking }) else none
  | .unlock =>
      if s.creator = .unlocking then
        some (.ok { s with creator := .returning, mutex := none })
      else none
  | .ret =>
      if s.creator = .returning then
        some (.ok { s with creator := .returned, result := some s.loopSet })
      else none
  | .destroy =>
      if s.creator = .built ∨ s.creator = .returned then
        some (.ok { s with creator := .quitting, exiting := true })
      else none
  | .quit =>
      if s.creator = .quitting then
        if s.loopSet then
          match s.loop with
          | some e =>
              (e.step (.quit .creator)).map fun e =>
                .ok { s with
                  loop := some e
                  creator := .joining
                  early := s.child ≠ .looping }
          | none => some (.error .deadLoop)
        else some (.error .nullLoop)
      else none
  | .join =>
      if s.creator = .joining ∧ s.child = .ended then some (.ok { s with creator := .joined })
      else none
  | .construct =>
      if s.child = .constructing then
        some (.ok { s with child := .locking, loop := some (EventLoop.new .child) })
      else none
  | .childLock =>
      if s.child = .locking ∧ s.mutex = none then
        some (.ok { s with child := .setting, mutex := some .child })
      else none
  | .set =>
      if s.child = .setting then some (.ok { s with child := .notifying, loopSet := true })
      else none
  | .notify =>
      if s.child = .notifying then
        some (.ok { s with
          child := .unlocking
          creator := if s.creator = .waiting then .relocking else s.creator })
      else none
  | .childUnlock =>
      if s.child = .unlocking then some (.ok { s with child := .entering, mutex := none })
      else none
  | .enter =>
      match s.child, s.loop with
      | .entering, some e =>
          (e.step .loop).map fun e => .ok { s with child := .looping, loop := some e }
      | _, _ => none
  | .use l =>
      match s.child, s.loop with
      | .looping, some e =>
          if reenters l then none else (e.step l).map fun e => .ok { s with loop := some e }
      | _, _ => none
  | .exit =>
      match s.child, s.loop with
      | .looping, some e =>
          match e.pc with
          | .outside =>
              -- `assert(!looping_)`
              if e.looping then some (.error .looping)
              else some (.ok { s with child := .ended, loop := none })
          | _ => none
      | _, _ => none

/-- A step that succeeds. -/
def next (s : Thread F) (l : Label F) : Option (Thread F) :=
  match s.step l with
  | some (.ok s') => some s'
  | _ => none

/-- Something is done with the loop. -/
lemma next_use {s s' : Thread F} {l : EventLoop.Label Party F} (h : s.next (.use l) = some s') :
    s.child = .looping ∧ l ≠ .loop ∧ ∃ e e', s.loop = some e ∧ e.step l = some e' ∧
      s' = { s with loop := some e' } := by
  simp only [next, step] at h
  split at h
  · rename_i hstep
    obtain rfl := Option.some.inj h
    split at hstep
    · rename_i e hchild hloop
      split_ifs at hstep with hre
      obtain ⟨e', he', heq⟩ := Option.map_eq_some_iff.mp hstep
      refine ⟨hchild, ?_, e, e', hloop, he', (Except.ok.inj heq).symm⟩
      rintro rfl
      exact hre rfl
    · exact absurd hstep (by simp)
  · exact absurd h (by simp)

/-- Somebody else than the destructor calls `quit`. -/
def quits : Label F → Bool
  | .use (.quit _) => true
  | _ => false

/-- The states a thread comes through, where nobody but the destructor calls `quit`. -/
def Reaches (s s' : Thread F) : Prop := Reach next (fun _ l => quits l = false) s s'

/-! ### The loop -/

/-- The loop that was left has been told to quit, and may be destroyed. -/
structure Inside (e : EventLoop Party F) : Prop where
  threadId : e.threadId = .child
  left : e.pc = .outside → e.looping = false ∧ e.quit = true

/-- What is done with the loop while the child is in it, the entry and `quit` apart. -/
lemma Inside.step {e e' : EventLoop Party F} {l : EventLoop.Label Party F} (h : Inside e)
    (hloop : l ≠ .loop) (hquit : ∀ t, l ≠ .quit t) (hstep : e.step l = some e') :
    Inside e' ∧ e'.quit = e.quit := by
  obtain ⟨hid, hleft⟩ := h
  cases l with
  | loop => exact absurd rfl hloop
  | quit t => exact absurd rfl (hquit t)
  | test =>
      simp only [EventLoop.step] at hstep
      split at hstep
      · split_ifs at hstep with hq <;> obtain rfl := Option.some.inj hstep
        · exact ⟨⟨hid, fun _ => ⟨rfl, hq⟩⟩, rfl⟩
        · exact ⟨⟨hid, fun hpc => absurd hpc (by simp)⟩, rfl⟩
      · exact absurd hstep (by simp)
  | runInLoop t cb =>
      simp only [EventLoop.step] at hstep
      split_ifs at hstep <;> obtain rfl := Option.some.inj hstep
      · exact ⟨⟨hid, hleft⟩, rfl⟩
      · exact ⟨⟨hid, hleft⟩, rfl⟩
  | queueInLoop t cb =>
      simp only [EventLoop.step] at hstep
      split_ifs at hstep
      obtain rfl := Option.some.inj hstep
      exact ⟨⟨hid, hleft⟩, rfl⟩
  | wakeup t =>
      simp only [EventLoop.step, EventLoop.wakeupFor] at hstep
      split_ifs at hstep <;> obtain rfl := Option.some.inj hstep
      · exact ⟨⟨hid, hleft⟩, rfl⟩
      · exact ⟨⟨hid, hleft⟩, rfl⟩
  | pollReturn | handled | swap | run | finish =>
      simp only [EventLoop.step] at hstep
      split at hstep
      · try split_ifs at hstep
        obtain rfl := Option.some.inj hstep
        exact ⟨⟨hid, fun hpc => absurd hpc (by simp [EventLoop.swap])⟩, rfl⟩
      · exact absurd hstep (by simp)

/-! ### The handshake -/

/-- The loop in front of `loop()`, told to quit or not. -/
def built (quit : Bool) : EventLoop Party F := { EventLoop.new .child with quit := quit }

/-- What the loop is, where the child stands: it is built in front of the lock, has been told to
quit by the destructor only, and forgets that when it is entered. -/
def Owned (creator : CreatorPc) (early : Bool) (loop : Option (EventLoop Party F)) :
    ChildPc → Prop
  | .absent | .constructing => loop = none ∧ early = false
  | .locking | .setting | .notifying | .unlocking =>
      loop = some (built false) ∧ early = false
  | .entering =>
      loop = some (built (creator = .joining)) ∧ early = decide (creator = .joining)
  | .looping =>
      (∃ e, loop = some e ∧ Inside e ∧ e.quit = (decide (creator = .joining) && !early)) ∧
        (early = true → creator = .joining)
  | .ended => loop = none ∧ early = false

/-- The invariant of the handshake. -/
structure Shaken (s : Thread F) : Prop where
  places : compatible s.creator s.child = true
  mutex : s.mutex = holder s.creator s.child
  pointer : s.loopSet = s.child.hasSet
  result : s.result = ThreadPool.returned s.creator s.child
  owned : Owned s.creator s.early s.loop s.child

lemma shaken_iff {s : Thread F} : s.Shaken ↔ compatible s.creator s.child = true ∧
    s.mutex = holder s.creator s.child ∧ s.loopSet = s.child.hasSet ∧
    s.result = ThreadPool.returned s.creator s.child ∧ Owned s.creator s.early s.loop s.child :=
  ⟨fun h => ⟨h.1, h.2, h.3, h.4, h.5⟩, fun h => ⟨h.1, h.2.1, h.2.2.1, h.2.2.2.1, h.2.2.2.2⟩⟩

/-- **Every step keeps the handshake.** -/
theorem Shaken.next {s s' : Thread F} {l : Label F} (h : s.Shaken) (hl : quits l = false)
    (hnext : s.next l = some s') : s'.Shaken := by
  obtain ⟨loopSet, exiting, mutex, loop, creator, child, result, early⟩ := s
  obtain ⟨hplaces, hmutex, hpointer, hresult, howned⟩ := h
  simp only at hplaces hmutex hpointer hresult howned
  subst hmutex hpointer hresult
  cases l with
  | spawn | lock | test | wake | unlock | ret | destroy | join | childLock | set | notify
  | childUnlock =>
      -- each pair of places the step can be taken at
      simp only [Thread.next, step] at hnext
      split_ifs at hnext <;> obtain rfl := Option.some.inj hnext <;>
        cases creator <;> cases child <;>
        simp_all [compatible, holder, ChildPc.hasSet, ThreadPool.returned, Owned, shaken_iff]
  | construct =>
      simp only [Thread.next, step] at hnext
      split_ifs at hnext with hc
      obtain rfl := Option.some.inj hnext
      cases creator <;>
        simp_all [compatible, holder, ChildPc.hasSet, ThreadPool.returned, Owned, shaken_iff]
      all_goals rfl
  | quit =>
      simp only [Thread.next, step] at hnext
      by_cases hc : creator = .quitting
      · subst hc
        cases child with
        | entering =>
            obtain ⟨rfl, rfl⟩ := howned
            obtain rfl := Option.some.inj hnext
            exact ⟨rfl, rfl, rfl, rfl, rfl, rfl⟩
        | looping =>
            obtain ⟨⟨e, rfl, hin, -⟩, -⟩ := howned
            obtain rfl := Option.some.inj hnext
            exact ⟨rfl, rfl, rfl, rfl, ⟨_, rfl, ⟨hin.threadId, fun hpc => ⟨(hin.left hpc).1, rfl⟩⟩,
              rfl⟩, fun hearly => rfl⟩
        | absent => simp [ChildPc.hasSet] at hnext
        | _ => exact absurd hplaces (by simp [compatible])
      · simp [hc] at hnext
  | enter =>
      simp only [Thread.next, step] at hnext
      cases child with
      | entering =>
          obtain ⟨rfl, rfl⟩ := howned
          obtain rfl := Option.some.inj hnext
          refine ⟨?_, ?_, rfl, ?_, ⟨_, rfl, ⟨rfl, fun hpc => absurd hpc (by simp)⟩, ?_⟩, ?_⟩
          · cases creator <;> simp_all [compatible]
          · cases creator <;> rfl
          · cases creator <;> rfl
          · cases creator <;> rfl
          · exact of_decide_eq_true
      | _ => simp at hnext
  | use l =>
      obtain ⟨hchild, hloop, e, e', he, hstep, rfl⟩ := next_use hnext
      simp only at hchild he
      subst hchild he
      have hquit : ∀ t, l ≠ .quit t := by
        rintro t rfl
        simp [quits] at hl
      obtain ⟨⟨_, ⟨rfl⟩, hin, hq⟩, hearly⟩ := howned
      obtain ⟨hin', hq'⟩ := hin.step hloop hquit hstep
      exact ⟨hplaces, rfl, rfl, rfl, ⟨e', rfl, hin', hq'.trans hq⟩, hearly⟩
  | exit =>
      simp only [Thread.next, step] at hnext
      cases child with
      | looping =>
          obtain ⟨⟨e, rfl, hin, hq⟩, hearly⟩ := howned
          cases hpc : e.pc with
          | outside =>
              obtain ⟨hlooping, hquit⟩ := hin.left hpc
              simp only [hpc, hlooping, Bool.false_eq_true, if_false, Option.some.injEq] at hnext
              subst hnext
              have hjoin : creator = .joining ∧ early = false := by simpa [hquit] using hq.symm
              obtain ⟨rfl, rfl⟩ := hjoin
              exact ⟨rfl, rfl, rfl, rfl, rfl, rfl⟩
          | _ => simp [hpc] at hnext
      | _ => simp at hnext

/-! ### `startLoop` -/

/-- The steps of `startLoop` and of `threadFunc_` up to `loop()`. -/
def handshakes : Label F → Bool
  | .spawn | .lock | .test | .unlock | .ret | .construct | .childLock | .set | .notify
  | .childUnlock | .enter => true
  | _ => false

def spurious : Label F → Bool
  | .wake => true
  | _ => false

/-- The steps of `startLoop` that are left, if nobody wakes the creator. -/
def CreatorPc.left : CreatorPc → ℕ
  | .built => 5
  | .locking | .relocking => 4
  | .testing => 3
  | .waiting | .unlocking => 2
  | .returning => 1
  | _ => 0

/-- The steps of `threadFunc_` that are left, and what its notification makes the creator do. -/
def ChildPc.left : ChildPc → ℕ
  | .absent | .constructing => 8
  | .locking => 7
  | .setting => 6
  | .notifying => 5
  | .unlocking => 2
  | .entering => 1
  | _ => 0

/-- What a step may give to the potential: a spurious wakeup makes the creator take the lock and
test again. -/
def gain (l : Label F) : ℕ := if handshakes l then 0 else if spurious l then 3 else 1

/-- A run has as many steps of the handshake as its potential and the spurious wakeups allow. -/
lemma length_le {l : List (Label F)} :
    l.countP handshakes + (l.map gain).sum ≤ l.length + 2 * l.countP spurious := by
  induction l with
  | nil => rfl
  | cons a l ih =>
      simp only [List.countP_cons, List.map_cons, List.sum_cons, List.length_cons]
      cases a <;> simp [gain, handshakes, spurious] <;> omega

end Thread

end ThreadPool

end Tractor
