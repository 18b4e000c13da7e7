import Tractor.Library.Control
import Tractor.Library.OrderedSet
import Tractor.Library.Run

/-!
`Timer` and `TimerQueue` of `src/Timer.cpp` and `src/TimerQueue.cpp`.

A pointer is a number, `heap` says what it points to, and `timers_` is the ordered set of
pairs of an expiration and a pointer.  The user's callbacks run in the middle of `handleRead`
and may add timers, so `handleRead` is cut where they run: `handleRead` up to the first
callback, one `run` for each, and `reset`.  What a step reads of its environment comes with
its label: the clock of each `Timer::now()`, and the value that the local `nextExpire` of
`reset` happens to hold when nothing is assigned to it.

* `Timer.getRepeat`, `Timer.restart`: an interval stands for the microseconds that the
  `double` is converted to.
* `Timerfd`: the timer descriptor, with its last arming; `howMuchTimeFromNow` is the relative
  time of an arming.
* `Access`: what the member functions do with the pointers, which they record in `accesses`; if
  the objects are still there, and were made so that they can be deleted, is not for the queue to
  say.
* `insert`, `addTimerInLoop`, `getExpired`, `reset`: the member functions.
* `step`: `none` if the label is not possible, otherwise the next state or the assertion that
  failed.  `TimerRecord` keeps, for the record, the clocks of the calls of `handleRead`, when
  each timer was added, and what each call has run.
-/

namespace Tractor

open Library

/-! ### Timers and entries -/

/-- `class Timer`, without its callback. -/
structure Timer where
  expiration : ℤ
  interval : ℕ
  deriving DecidableEq

namespace Timer

def kMicroSecondsPerSecond : ℤ := 1000 * 1000

def getExpiration (t : Timer) : ℤ := t.expiration

def getRepeat (t : Timer) : Bool := 0 < t.interval

def restart (t : Timer) (now : ℤ) : Timer :=
  if t.getRepeat then { t with expiration := now + t.interval } else { t with expiration := 0 }

lemma restart_repeat {t : Timer} (h : t.getRepeat = true) (now : ℤ) :
    t.restart now = ⟨now + t.interval, t.interval⟩ := if_pos h

end Timer

/-- `TimerQueue::Entry`: an expiration and a pointer. -/
@[ext] structure Entry where
  first : ℤ
  second : ℕ
  deriving DecidableEq

/-- The order of `std::pair`. -/
instance : LinearOrder Entry :=
  LinearOrder.lift' (fun e => toLex (e.first, e.second)) fun e e' h => by
    have h' : (e.first, e.second) = (e'.first, e'.second) := h
    exact Entry.ext (Prod.mk.inj h').1 (Prod.mk.inj h').2

lemma Entry.lt_iff {e e' : Entry} :
    e < e' ↔ e.first < e'.first ∨ e.first = e'.first ∧ e.second < e'.second := Prod.Lex.lt_iff

lemma Entry.first_le {e e' : Entry} (h : e ≤ e') : e.first ≤ e'.first := by
  rcases h.lt_or_eq with h | rfl
  · rcases Entry.lt_iff.mp h with h | h
    · exact h.le
    · exact h.1.le
  · exact le_rfl

/-- `UINTPTR_MAX`. -/
def uintptrMax : ℕ := 2 ^ 64 - 1

/-- The entries before the sentry of `getExpired` are those that are due. -/
lemma Entry.lt_sentry {e : Entry} {now : ℤ} (he : e.second < uintptrMax) :
    e < ⟨now, uintptrMax⟩ ↔ e.first ≤ now := by
  rw [Entry.lt_iff, le_iff_lt_or_eq]
  exact or_congr_right (and_iff_left he)

/-! ### The timer descriptor -/

/-- A `timerfd` that is not armed, one that is, and one that has expired and was not read. -/
inductive FdState where
  | disarmed
  | armed
  | expired
  deriving DecidableEq

/-- `struct timespec`. -/
structure Timespec where
  tv_sec : ℤ
  tv_nsec : ℤ
  deriving DecidableEq

/-- `howMuchTimeFromNow(when)` where `Timer::now()` reads `now`. -/
def howMuchTimeFromNow (when now : ℤ) : Timespec :=
  let microseconds := when - now
  let microseconds := if microseconds < 100 then 100 else microseconds
  { tv_sec := microseconds / Timer.kMicroSecondsPerSecond
    tv_nsec := microseconds % Timer.kMicroSecondsPerSecond * 1000 }

/-- A call of `resetTimerfd`: the expiration, the clock it read, and the time it set. -/
structure Arming where
  expiration : ℤ
  clock : ℤ
  value : Timespec
  deriving DecidableEq

/-- The timer descriptor, with its last arming. -/
structure Timerfd where
  state : FdState
  last : Option Arming
  deriving DecidableEq

namespace Timerfd

/-- `resetTimerfd(expiration)`, whose time is never zero, so that it arms. -/
def resetTimerfd (expiration clock : ℤ) : Timerfd :=
  ⟨.armed, some ⟨expiration, clock, howMuchTimeFromNow expiration clock⟩⟩

/-- `readTimerfd`: a read takes the expirations, and fails if there are none. -/
def readTimerfd (fd : Timerfd) : Timerfd :=
  match fd.state with
  | .expired => { fd with state := .disarmed }
  | _ => fd

end Timerfd

/-! ### The queue -/

/-- The assertions of `getExpired` and `insert`. -/
inductive TimerFault where
  | getExpired
  | insert
  deriving DecidableEq

/-- Outside `handleRead`; or in it, with the clock it read, the expired entries whose
callbacks were started, and those that are still to run. -/
inductive TimerPhase where
  | idle
  | running (now : ℤ) (ran todo : List Entry)

/-- The expired batch that `handleRead` holds. -/
def TimerPhase.expired : TimerPhase → List Entry
  | idle => []
  | running _ ran todo => ran ++ todo

/-- The record: the clocks of the calls of `handleRead`; for each timer how many of them came
before it was added, and what it was then; and the entries that each call has run. -/
structure TimerRecord where
  reads : List ℤ
  added : ℕ → Option (ℕ × Timer)
  ran : ℕ → List Entry

namespace TimerRecord

/-- A timer is added at the address. -/
def add (rec : TimerRecord) (a : ℕ) (t : Timer) : TimerRecord :=
  { rec with added := Function.update rec.added a (some (rec.reads.length, t)) }

/-- A call of `handleRead` starts. -/
def read (rec : TimerRecord) (now : ℤ) : TimerRecord :=
  { rec with
    reads := rec.reads ++ [now]
    ran := Function.update rec.ran rec.reads.length [] }

/-- The last call has run these so far. -/
def run (rec : TimerRecord) (ran : List Entry) : TimerRecord :=
  { rec with ran := Function.update rec.ran (rec.reads.length - 1) ran }

end TimerRecord

/-- What is done with a pointer: the object it points to is used, or deleted. -/
inductive Access where
  | use (timer : ℕ)
  | delete (timer : ℕ)
  deriving DecidableEq

/-- `class TimerQueue`, with the objects its pointers point to and, for the record, what its
member functions have done with the pointers. -/
structure TimerQueue where
  timers : OrderedSet Entry
  heap : ℕ → Timer
  timerfd : Timerfd
  phase : TimerPhase
  record : TimerRecord
  accesses : List Access

namespace TimerQueue

def new : TimerQueue where
  timers := .empty
  heap := fun _ => ⟨0, 0⟩
  timerfd := ⟨.disarmed, none⟩
  phase := .idle
  record := ⟨[], fun _ => none, fun _ => []⟩
  accesses := []

/-- A member of `*timer` is read, written or called. -/
def use (q : TimerQueue) (timer : ℕ) : TimerQueue :=
  { q with accesses := q.accesses ++ [.use timer] }

/-- `delete timer`. -/
def delete (q : TimerQueue) (timer : ℕ) : TimerQueue :=
  { q with accesses := q.accesses ++ [.delete timer] }

/-- `insert(timer)`: whether the earliest timer changed, and the queue. -/
def insert (q : TimerQueue) (timer : ℕ) : Except TimerFault (Bool × TimerQueue) := do
  let q := q.use timer
  let when := (q.heap timer).getExpiration
  let earliestChanged := q.timers.first?.all (when < ·.first)
  check (⟨when, timer⟩ ∉ q.timers) .insert
  pure (earliestChanged, { q with timers := q.timers.insert ⟨when, timer⟩ })

/-- `addTimerInLoop(timer)`. -/
def addTimerInLoop (q : TimerQueue) (timer : ℕ) (clock : ℤ) : Except TimerFault TimerQueue := do
  let (earliestChanged, q) ← q.insert timer
  if earliestChanged then
    let q := q.use timer
    pure { q with timerfd := .resetTimerfd (q.heap timer).getExpiration clock }
  else pure q

/-- `getExpired(now)`: the expired entries, and the queue without them. -/
def getExpired (q : TimerQueue) (now : ℤ) : Except TimerFault (List Entry × TimerQueue) := do
  let sentry : Entry := ⟨now, uintptrMax⟩
  let it := (q.timers.atLeast sentry).first?
  check (it.all (now < ·.first) = true) .getExpired
  pure (q.timers.below sentry, { q with timers := q.timers.atLeast sentry })

/-- One round of the loop in `reset`: a repeating timer is restarted and inserted again, any
other is deleted. -/
def resetEntry (now : ℤ) (q : TimerQueue) (e : Entry) :
    Except TimerFault TimerQueue :=
  let q := q.use e.second
  let t := q.heap e.second
  if t.getRepeat then do
    let q := { q.use e.second with heap := Function.update q.heap e.second (t.restart now) }
    let (_, q) ← q.insert e.second
    pure q
  else pure (q.delete e.second)

/-- The local `nextExpire` of `reset` where it is read: it still holds `garbage` if the queue
is empty. -/
def nextExpire (q : TimerQueue) (garbage : ℤ) : ℤ :=
  match q.timers.first? with
  | some e => (q.heap e.second).getExpiration
  | none => garbage

/-- The pointer that `reset` takes it from. -/
def useFirst (q : TimerQueue) : TimerQueue :=
  match q.timers.first? with
  | some e => q.use e.second
  | none => q

/-- `reset(expired, now)`. -/
def reset (q : TimerQueue) (expired : List Entry) (now garbage clock : ℤ) :
    Except TimerFault TimerQueue := do
  let q ← expired.foldlM (resetEntry now) q
  let q := q.useFirst
  if 0 < q.nextExpire garbage then
    pure { q with timerfd := .resetTimerfd (q.nextExpire garbage) clock }
  else pure q

/-! ### What the member functions do -/

section Members

variable {q q' : TimerQueue} {timer : ℕ} {now clock garbage : ℤ}

lemma insert_eq (q : TimerQueue) (timer : ℕ)
    (h : ⟨(q.heap timer).expiration, timer⟩ ∉ q.timers) :
    q.insert timer = .ok (q.timers.first?.all ((q.heap timer).expiration < ·.first),
      { q with
        timers := q.timers.insert ⟨(q.heap timer).expiration, timer⟩
        accesses := q.accesses ++ [.use timer] }) := by
  rw [insert, Timer.getExpiration]
  exact check_bind_of h _ _

/-- A timer that is not in the queue is inserted, and the descriptor is armed for it if it is
the earliest. -/
lemma addTimerInLoop_eq (h : ⟨(q.heap timer).expiration, timer⟩ ∉ q.timers) :
    q.addTimerInLoop timer clock = .ok { q with
      timers := q.timers.insert ⟨(q.heap timer).expiration, timer⟩
      timerfd := if q.timers.first?.all ((q.heap timer).expiration < ·.first) then
        .resetTimerfd (q.heap timer).expiration clock else q.timerfd
      accesses := q.accesses ++ .use timer ::
        if q.timers.first?.all ((q.heap timer).expiration < ·.first) then [.use timer]
        else [] } := by
  rw [addTimerInLoop, insert_eq q timer h]
  simp only [bind, Except.bind]
  split_ifs
  · simp only [use, List.append_assoc, List.singleton_append]
    rfl
  · rfl

/-- A round of the loop for a timer that is deleted. -/
lemma resetEntry_once {e : Entry} (h : (q.heap e.second).getRepeat = false) :
    q.resetEntry now e =
      .ok { q with accesses := q.accesses ++ [.use e.second, .delete e.second] } := by
  have hdelete : (q.use e.second).delete e.second =
      { q with accesses := q.accesses ++ [.use e.second, .delete e.second] } := by
    simp [use, delete]
  rw [← hdelete, resetEntry]
  exact if_neg (by simp [use, h])

/-- A round of the loop for a timer that is inserted again. -/
lemma resetEntry_repeat {e : Entry} (h : (q.heap e.second).getRepeat = true)
    (hnew : ∀ e' ∈ q.timers, e'.second ≠ e.second) :
    q.resetEntry now e = .ok { q with
      heap := Function.update q.heap e.second
        ⟨now + (q.heap e.second).interval, (q.heap e.second).interval⟩
      timers := q.timers.insert ⟨now + (q.heap e.second).interval, e.second⟩
      accesses := q.accesses ++ [.use e.second, .use e.second, .use e.second] } := by
  have hins := insert_eq { (q.use e.second).use e.second with
    heap := Function.update q.heap e.second
      ⟨now + (q.heap e.second).interval, (q.heap e.second).interval⟩ } e.second
      fun hmem => hnew _ hmem rfl
  simp only [Function.update_self, use, List.append_assoc, List.cons_append,
    List.nil_append] at hins
  rw [resetEntry]
  simp only [use, h, if_true, Timer.restart_repeat h, List.append_assoc, List.singleton_append,
    hins]
  rfl

/-- What the loop of `reset` does with the pointers of the batch. -/
def resetAccesses (heap : ℕ → Timer) (l : List Entry) : List Access :=
  l.flatMap fun e =>
    if (heap e.second).getRepeat then [.use e.second, .use e.second, .use e.second]
    else [.use e.second, .delete e.second]

lemma resetAccesses_congr {heap heap' : ℕ → Timer} {l : List Entry}
    (h : ∀ e ∈ l, heap' e.second = heap e.second) :
    resetAccesses heap' l = resetAccesses heap l :=
  List.flatMap_congr fun e he => by rw [h e he]

/-- **The loop of `reset`**, on a batch of timers that are not in the queue: the repeating ones
are inserted again, for the interval behind `now`, and the others are deleted. -/
lemma resetLoop {l : List Entry} (hnodup : (l.map Entry.second).Nodup)
    (hout : ∀ e ∈ q.timers, e.second ∉ l.map Entry.second) :
    ∃ timers heap,
      l.foldlM (resetEntry now) q = .ok { q with
        timers := timers
        heap := heap
        accesses := q.accesses ++ resetAccesses q.heap l } ∧
      (∀ e, e ∈ timers ↔ e ∈ q.timers ∨ e.second ∈ l.map Entry.second ∧
        (q.heap e.second).getRepeat = true ∧ e.first = now + (q.heap e.second).interval) ∧
      ∀ a, heap a = if a ∈ l.map Entry.second ∧ (q.heap a).getRepeat = true then
        ⟨now + (q.heap a).interval, (q.heap a).interval⟩ else q.heap a := by
  induction l generalizing q with
  | nil => exact ⟨q.timers, q.heap, by simp [resetAccesses, pure, Except.pure], by simp, by simp⟩
  | cons e₀ l ih =>
      rw [List.map_cons, List.nodup_cons] at hnodup
      obtain ⟨hnot, hnodup⟩ := hnodup
      have hne : ∀ e ∈ l, e.second ≠ e₀.second := fun e he heq =>
        hnot (heq ▸ List.mem_map_of_mem he)
      rw [List.foldlM_cons]
      cases hrep : (q.heap e₀.second).getRepeat with
      | false =>
          rw [resetEntry_once hrep]
          obtain ⟨timers, heap, hrun, htimers, hheap⟩ := ih (q := { q with
            accesses := q.accesses ++ [.use e₀.second, .delete e₀.second] }) hnodup
              fun e he hmem => hout e he (List.mem_cons_of_mem _ hmem)
          refine ⟨timers, heap, hrun.trans ?_, fun e => ?_, fun a => ?_⟩
          · simp [resetAccesses, hrep]
          · rw [htimers, List.map_cons, List.mem_cons]
            refine or_congr_right (and_congr_left fun h => (or_iff_right ?_).symm)
            intro heq
            rw [heq, hrep] at h
            exact absurd h.1 (by simp)
          · rw [hheap]
            refine if_congr (and_congr_left fun h => ?_) rfl rfl
            rw [List.map_cons, List.mem_cons, or_iff_right]
            intro heq
            rw [heq, hrep] at h
            exact absurd h (by simp)
      | true =>
          rw [resetEntry_repeat hrep fun e' he' heq => hout e' he' (by simp [heq])]
          obtain ⟨timers, heap, hrun, htimers, hheap⟩ := ih (q := { q with
            heap := Function.update q.heap e₀.second
              ⟨now + (q.heap e₀.second).interval, (q.heap e₀.second).interval⟩
            timers := q.timers.insert ⟨now + (q.heap e₀.second).interval, e₀.second⟩
            accesses := q.accesses ++ [.use e₀.second, .use e₀.second, .use e₀.second] }) hnodup (by
              intro e he
              rcases OrderedSet.mem_insert.mp he with rfl | he
              · exact hnot
              · exact fun hmem => hout e he (List.mem_cons_of_mem _ hmem))
          refine ⟨timers, heap, hrun.trans ?_, fun e => ?_, fun a => ?_⟩
          · rw [resetAccesses_congr fun e he => Function.update_of_ne (hne e he) _ _]
            simp [resetAccesses, hrep]
          · rw [htimers, OrderedSet.mem_insert, List.map_cons, List.mem_cons]
            by_cases he : e.second = e₀.second
            · simp only [he, hnot, false_and, or_false, hrep, true_and, Entry.ext_iff,
                and_true]
              exact or_comm
            · simp [he, Entry.ext_iff]
          · rw [hheap]
            by_cases ha : a = e₀.second
            · simp [ha, hnot, hrep]
            · simp [ha]

lemma useFirst_eq (q : TimerQueue) : q.useFirst = { q with
    accesses := q.accesses ++ (q.timers.first?.map fun e => .use e.second).toList } := by
  rw [useFirst]
  cases q.timers.first? <;> simp [use]

/-- `reset` is its loop, and then an arming for `nextExpire` if that is positive. -/
lemma reset_eq {expired : List Entry} (h : expired.foldlM (resetEntry now) q = .ok q') :
    q.reset expired now garbage clock = .ok { q' with
      timerfd := if 0 < q'.nextExpire garbage then
        .resetTimerfd (q'.nextExpire garbage) clock else q'.timerfd
      accesses := q'.accesses ++ (q'.timers.first?.map fun e => .use e.second).toList } := by
  have hnext : q'.useFirst.nextExpire garbage = q'.nextExpire garbage := by rw [useFirst_eq]; rfl
  rw [reset, h]
  simp only [bind, Except.bind, hnext]
  rw [useFirst_eq]
  split_ifs <;> rfl

end Members

/-! ### Steps -/

/-- The steps: a timer is added, the parts of `handleRead`, and the kernel lets the armed
descriptor expire. -/
inductive Label where
  | addTimerInLoop (timer : ℕ) (t : Timer) (clock : ℤ)
  | handleRead (now : ℤ)
  | run
  | reset (garbage clock : ℤ)
  | expire

/-- A timer can be added outside `handleRead`, and by a callback that runs. -/
def canAdd (q : TimerQueue) : Bool :=
  match q.phase with
  | .idle => true
  | .running _ ran _ => ran ≠ []

/-- A new timer at the address. -/
def make (q : TimerQueue) (timer : ℕ) (t : Timer) : TimerQueue :=
  { q with
    heap := Function.update q.heap timer t
    record := q.record.add timer t }

/-- `handleRead()` up to its first callback. -/
def handleRead (q : TimerQueue) (now : ℤ) : Except TimerFault TimerQueue := do
  let q := { q with timerfd := q.timerfd.readTimerfd }
  let (expired, q) ← q.getExpired now
  pure { q with
    phase := .running now [] expired
    record := q.record.read now }

/-- The callback of the next expired entry is started. -/
def runEntry (q : TimerQueue) (now : ℤ) (ran : List Entry) (e : Entry) (todo : List Entry) :
    TimerQueue :=
  { q.use e.second with
    phase := .running now (ran ++ [e]) todo
    record := q.record.run (ran ++ [e]) }

/-- One step: `none` if it is not possible. -/
def step (q : TimerQueue) : Label → Option (Except TimerFault TimerQueue)
  | .addTimerInLoop timer t clock =>
      if q.canAdd ∧ timer < uintptrMax ∧ q.record.added timer = none then
        some ((q.make timer t).addTimerInLoop timer clock)
      else none
  | .handleRead now =>
      match q.phase with
      | .idle => some (q.handleRead now)
      | .running .. => none
  | .run =>
      match q.phase with
      | .running now ran (e :: todo) => some (.ok (q.runEntry now ran e todo))
      | _ => none
  | .reset garbage clock =>
      match q.phase with
      | .running now ran [] => some do
          let q ← q.reset ran now garbage clock
          pure { q with phase := .idle }
      | _ => none
  | .expire =>
      match q.timerfd.state with
      | .armed => some (.ok { q with timerfd := { q.timerfd with state := .expired } })
      | _ => none

/-- A step that succeeds. -/
def next (q : TimerQueue) (l : Label) : Option TimerQueue :=
  match q.step l with
  | some (.ok q') => some q'
  | _ => none

/-- The assertion that fails in a step. -/
def failure (q : TimerQueue) (l : Label) : Option TimerFault :=
  match q.step l with
  | some (.error f) => some f
  | _ => none

lemma next_eq_some {q q' : TimerQueue} {l : Label} :
    q.next l = some q' ↔ q.step l = some (.ok q') := by
  unfold next
  split <;> simp_all

lemma failure_eq_some {q : TimerQueue} {l : Label} {f : TimerFault} :
    q.failure l = some f ↔ q.step l = some (.error f) := by
  unfold failure
  split <;> simp_all

section Steps

variable {q q' : TimerQueue} {l : Label}

/-- A new timer that is not in the queue is added to it. -/
lemma add_eq {a : ℕ} {t : Timer} (h : ⟨t.expiration, a⟩ ∉ q.timers) (clock : ℤ) :
    (q.make a t).addTimerInLoop a clock = .ok { q with
      timers := q.timers.insert ⟨t.expiration, a⟩
      heap := Function.update q.heap a t
      timerfd := if q.timers.first?.all (t.expiration < ·.first) then
        .resetTimerfd t.expiration clock else q.timerfd
      record := q.record.add a t
      accesses := q.accesses ++ .use a ::
        if q.timers.first?.all (t.expiration < ·.first) then [.use a] else [] } := by
  have hheap : (q.make a t).heap a = t := Function.update_self _ _ _
  rw [addTimerInLoop_eq (by rw [hheap]; exact h), hheap]
  rfl

/-- The entries that are due are moved to the batch, and the others stay. -/
lemma handleRead_eq (h : ∀ e ∈ q.timers, e.second < uintptrMax) (now : ℤ) :
    q.handleRead now = .ok { q with
      timers := q.timers.atLeast ⟨now, uintptrMax⟩
      timerfd := q.timerfd.readTimerfd
      phase := .running now [] (q.timers.below ⟨now, uintptrMax⟩)
      record := q.record.read now } := by
  have hassert : (q.timers.atLeast ⟨now, uintptrMax⟩).first?.all (now < ·.first) = true := by
    cases hfirst : (q.timers.atLeast ⟨now, uintptrMax⟩).first? with
    | none => rfl
    | some e =>
        obtain ⟨hmem, hle⟩ := OrderedSet.mem_atLeast.mp (OrderedSet.mem_of_first? hfirst)
        have hnot := mt (Entry.lt_sentry (h e hmem)).mpr hle.not_gt
        simpa using hnot
  rw [handleRead, getExpired]
  simp only [check_bind_of hassert]
  rfl

/-- **What a step can be.** -/
theorem step_cases {x : Except TimerFault TimerQueue} (h : q.step l = some x) :
    (∃ a t clock, l = .addTimerInLoop a t clock ∧ q.canAdd = true ∧ a < uintptrMax ∧
      q.record.added a = none ∧ x = (q.make a t).addTimerInLoop a clock) ∨
    (∃ now, l = .handleRead now ∧ q.phase = .idle ∧ x = q.handleRead now) ∨
    (∃ now ran e todo, l = .run ∧ q.phase = .running now ran (e :: todo) ∧
      x = .ok (q.runEntry now ran e todo)) ∨
    (∃ now ran garbage clock, l = .reset garbage clock ∧ q.phase = .running now ran [] ∧
      x = (q.reset ran now garbage clock).map fun q => { q with phase := .idle }) ∨
    (l = .expire ∧ q.timerfd.state = .armed ∧
      x = .ok { q with timerfd := { q.timerfd with state := .expired } }) := by
  cases l with
  | addTimerInLoop a t clock =>
      simp only [step] at h
      split_ifs at h with hcond
      obtain ⟨hcan, hlt, hnew⟩ := hcond
      exact Or.inl ⟨a, t, clock, rfl, hcan, hlt, hnew, (Option.some.inj h).symm⟩
  | handleRead now =>
      simp only [step] at h
      cases hp : q.phase with
      | running now ran todo => simp [hp] at h
      | idle =>
          simp only [hp, Option.some.injEq] at h
          exact Or.inr (Or.inl ⟨now, rfl, rfl, h.symm⟩)
  | run =>
      simp only [step] at h
      split at h
      · rename_i now ran e todo hp
        exact Or.inr (Or.inr (Or.inl ⟨now, ran, e, todo, rfl, hp, (Option.some.inj h).symm⟩))
      · exact absurd h (by simp)
  | reset garbage clock =>
      simp only [step] at h
      split at h
      · rename_i now ran hp
        refine Or.inr (Or.inr (Or.inr (Or.inl ⟨now, ran, garbage, clock, rfl, hp, ?_⟩)))
        rw [← Option.some.inj h]
        cases q.reset ran now garbage clock <;> rfl
      · exact absurd h (by simp)
  | expire =>
      simp only [step] at h
      split at h
      · rename_i hstate
        exact Or.inr (Or.inr (Or.inr (Or.inr ⟨rfl, hstate, (Option.some.inj h).symm⟩)))
      · exact absurd h (by simp)

end Steps

end TimerQueue

end Tractor
