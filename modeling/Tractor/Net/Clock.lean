import Tractor.Net.Callbacks

/-!
The receive time, from the clock to the message callback.

`EPoller::poll` reads the clock when `epoll_wait` returns, keeps it in an `int` and returns
it as an `int64_t`.  `loop()` keeps this in `pollReturnTime_` and passes it to `handleEvent`
of each active channel, which passes it on to `handleRead_` and the message callback.

* `EPoller.pollTime`: what `poll` returns, and `pollTime_eq_iff`: when this is the clock.
* `Timed`: a server with its clock, and `OnTime`: the running handler has the time that `poll`
  returned in this iteration.
* `Timed.carried_iff`: **the receive times are the clock exactly while it fits an `int`.**
-/

namespace Tractor

open Library

/-! ### The clock -/

/-- What `Timer::now()` may return: an `int64_t` that is not negative. -/
def isClock (now : ℤ) : Bool := 0 ≤ now ∧ now < 2 ^ 63

/-- The conversion of an integer to `int`, which has 32 bits. -/
def toInt (t : ℤ) : ℤ := Int.bmod t (2 ^ 32)

/-- `int now = Timer::now()` and `return now` in `EPoller::poll`. -/
def EPoller.pollTime (now : ℤ) : ℤ := toInt now

/-- **The clock is returned as it is** exactly if it fits an `int`. -/
lemma EPoller.pollTime_eq_iff {now : ℤ} (h : isClock now = true) :
    EPoller.pollTime now = now ↔ now < 2 ^ 31 := by
  simp only [isClock, decide_eq_true_eq] at h
  simp only [EPoller.pollTime, toInt, Int.bmod]
  omega

/-- The clock as it was read when `poll` returned last, `pollReturnTime_`, and the argument of
the `handleEvent` that was called last. -/
structure Clocks where
  clock : ℤ
  pollReturnTime : ℤ
  receiveTime : ℤ

/-- What a step does to them; `poll` reads `now`. -/
def Clocks.step {T : Type} (k : Clocks) (l : TcpServer.Label T) (now : ℤ) : Clocks :=
  match l with
  | .poll _ => { k with clock := now, pollReturnTime := EPoller.pollTime now }
  | .dispatch => { k with receiveTime := k.pollReturnTime }
  | _ => k

/-! ### The running handler -/

namespace TcpServer

variable {T : Type} [DecidableEq T] {s s' : TcpServer T} {c : ℕ}

/-- Only `dispatch` adds events to what there is to do. -/
lemma Move.mem_of_event {l : Label T} (hm : Move s l s') (hl : l ≠ .dispatch) {op : Op}
    (hev : op.event ≠ none) (hop : op ∈ s'.todo) : op ∈ s.todo := by
  have hpop : op ∈ s.pop.todo → op ∈ s.todo := List.mem_of_mem_tail
  have hfront : ∀ (ops : List Op) {rest : List Op}, (∀ x ∈ ops, x.event = none) →
      op ∈ ops ++ rest → op ∈ rest := fun ops _ hops hmem =>
    (List.mem_append.mp hmem).resolve_left fun hin => hev (hops op hin)
  cases hm with
  | refused | accepted | checked | pushed | disconnecting | looped | polled | userRead |
    released => exact hop
  | dispatched => exact absurd rfl hl
  | dropped | shutDrained | completed | shutDirect => exact hpop hop
  | connected htodo hfd hok =>
      obtain ⟨-, p, -, rfl⟩ := newConnection_ok hok
      exact hpop (hfront [.user] (by simp [Op.event]) hop)
  | closed htodo h hok =>
      obtain ⟨-, -, p, -, rfl⟩ := handleClose_ok hok
      exact hpop hop
  | read => exact hpop (hfront [.user] (by simp [Op.event]) hop)
  | wrote htodo hw hok =>
      rcases handleWrite_ok (s := s.pop) hw hok with ⟨-, rfl⟩ | ⟨-, p, ops, hops, -, rfl⟩
      · exact hpop hop
      · refine hpop (hfront _ ?_ hop)
        rcases hops with rfl | rfl <;> simp [Op.event]
  | removed htodo hok =>
      obtain ⟨p, -, rfl⟩ := removeChannel_ok hok
      exact hpop hop
  | userSent htodo husable hstate hok =>
      obtain ⟨p, ops, hops, -, rfl⟩ := sendInLoop_ok hok
      refine hfront ops ?_ hop
      rcases hops with rfl | rfl <;> simp [Op.event]
  | userShut => exact hfront [.setDisconnecting _] (by simp [Op.event]) hop
  | ran htodo hqueue hpc hpc' hid hok =>
      obtain ⟨-, -, ops, htodo', hops⟩ := runFunctor_frame hok
      rw [htodo'] at hop
      exact hfront ops hops hop

/-- While a read handler is to be run, the handler of its event has the time that `poll`
returned in this iteration. -/
structure OnTime (s : TcpServer T) (k : Clocks) : Prop where
  clock : isClock k.clock = true
  returned : k.pollReturnTime = EPoller.pollTime k.clock
  passed : ∀ c, .handleRead c ∈ s.todo → k.receiveTime = k.pollReturnTime

/-- When `poll` returns nothing is left to do. -/
lemma Sane.todo_of_poll {events : List (ChannelRef × Mask)} (h : s.Sane)
    (hnext : s.next (.poll events) = some s') : s.todo = [] := by
  rw [next_eq_some] at hnext
  simp only [step] at hnext
  split_ifs at hnext
  simp only [loopStep, Option.map_map, Option.map_eq_some_iff, Function.comp_apply] at hnext
  obtain ⟨e, he, -⟩ := hnext
  have hphase := h.dispatching.phase
  rw [Phase, (EventLoop.step_pollReturn he).2.1] at hphase
  exact hphase.2

/-- **Every step keeps the time.** -/
lemma OnTime.next {k : Clocks} {l : Label T} {now : ℤ} (h : s.OnTime k) (hsane : s.Sane)
    (hnow : isClock now = true) (hnext : s.next l = some s') : s'.OnTime (k.step l now) := by
  have hkeep : l ≠ .dispatch → ∀ c, .handleRead c ∈ s'.todo → .handleRead c ∈ s.todo :=
    fun hl c hc =>
      (move_of_next hsane.ledger.threadId hnext).mem_of_event hl (by simp [Op.event]) hc
  cases l with
  | poll events =>
      refine ⟨hnow, rfl, fun c hc => ?_⟩
      have hmem := hkeep (by simp) c hc
      rw [hsane.todo_of_poll hnext] at hmem
      simp at hmem
  | dispatch => exact ⟨h.clock, h.returned, fun _ _ => rfl⟩
  | _ => exact ⟨h.clock, h.returned, fun c hc => h.passed c (hkeep (by simp) c hc)⟩

end TcpServer

/-! ### Runs with a clock -/

/-- Each time is the clock of its iteration, and the times do not decrease while the clock
does not. -/
def Carried (l : List (ℤ × ℤ)) : Prop :=
  (∀ x ∈ l, x.1 = x.2) ∧
    ((l.map Prod.snd).Pairwise (· ≤ ·) → (l.map Prod.fst).Pairwise (· ≤ ·))

/-- Times that are the clock do not decrease while it does not. -/
lemma carried_of_eq {l : List (ℤ × ℤ)} (h : ∀ x ∈ l, x.1 = x.2) : Carried l := by
  refine ⟨h, fun hclock => ?_⟩
  rw [List.map_congr_left h]
  exact hclock

/-- A server with its clock, and for each message the time that was passed to the message
callback, with the clock of its iteration. -/
structure Timed (T : Type) where
  server : TcpServer T
  clocks : Clocks
  messages : List (ℤ × ℤ)

namespace Timed

variable {T : Type} {o o' : Timed T}

def start (name : String) (acceptFd : ℕ) (wc : Bool) : Timed T :=
  ⟨TcpServer.start name acceptFd wc, ⟨0, 0, 0⟩, []⟩

/-- The message callback a step calls, with its time. -/
def message (k : Clocks) : Option (ℕ × TcpServer.Callback) → List (ℤ × ℤ)
  | some (_, .message) => [(k.receiveTime, k.clock)]
  | _ => []

variable [DecidableEq T]

/-- A step of the server; `poll` reads the clock. -/
def next (o : Timed T) (l : TcpServer.Label T × ℤ) : Option (Timed T) :=
  (o.server.next l.1).map fun s' =>
    ⟨s', o.clocks.step l.1 l.2, o.messages ++ message o.clocks (o.server.callback l.1 s')⟩

/-- The states a server comes through, for any values of the clock. -/
def Reaches (o o' : Timed T) : Prop := Reach next (fun _ l => isClock l.2 = true) o o'

/-- What holds of a server and its clock in every state. -/
structure Kept (o : Timed T) : Prop where
  sane : o.server.Sane
  onTime : o.server.OnTime o.clocks
  messages : ∀ x ∈ o.messages, isClock x.2 = true ∧ x.1 = EPoller.pollTime x.2

lemma start_kept (name : String) (acceptFd : ℕ) (wc : Bool) :
    (start name acceptFd wc : Timed T).Kept where
  sane := TcpServer.start_sane name acceptFd wc
  onTime := ⟨(by decide : isClock 0 = true), (by decide : 0 = EPoller.pollTime 0), fun _ _ => rfl⟩
  messages x hx := by simp [start] at hx

/-- **Every message comes with the time `poll` returned.** -/
lemma Kept.next {l : TcpServer.Label T × ℤ} (h : o.Kept) (hl : isClock l.2 = true)
    (hnext : o.next l = some o') : o'.Kept := by
  obtain ⟨s', hs', rfl⟩ := Option.map_eq_some_iff.mp hnext
  refine ⟨h.sane.next hs', h.onTime.next h.sane hl hs', fun x hx => ?_⟩
  rcases List.mem_append.mp hx with hx | hx
  · exact h.messages x hx
  · generalize hcb : o.server.callback l.1 s' = cb at hx
    match cb with
    | none => simp [message] at hx
    | some (c, .connection b) => simp [message] at hx
    | some (c, .message) =>
        obtain rfl := List.mem_singleton.mp hx
        refine ⟨h.onTime.clock, ?_⟩
        exact (h.onTime.passed c (TcpServer.read_of_message hcb)).trans h.onTime.returned

lemma kept_of_reaches {name : String} {acceptFd : ℕ} {wc : Bool}
    (h : Reaches (start name acceptFd wc) o) : o.Kept :=
  h.invariant (fun _ _ _ ho hl hnext => ho.next hl hnext) (start_kept name acceptFd wc)

/-- **The receive times are the clock** exactly if it fits an `int` whenever a message is
received. -/
theorem carried_iff {name : String} {acceptFd : ℕ} {wc : Bool}
    (h : Reaches (start name acceptFd wc) o) :
    Carried o.messages ↔ ∀ x ∈ o.messages, x.2 < 2 ^ 31 := by
  have hkept := kept_of_reaches h
  have hiff : ∀ x ∈ o.messages, (x.1 = x.2 ↔ x.2 < 2 ^ 31) := fun x hx => by
    obtain ⟨hclock, htime⟩ := hkept.messages x hx
    rw [htime, EPoller.pollTime_eq_iff hclock]
  exact ⟨fun hc x hx => (hiff x hx).mp (hc.1 x hx),
    fun hsmall => carried_of_eq fun x hx => (hiff x hx).mpr (hsmall x hx)⟩

end Timed

end Tractor
