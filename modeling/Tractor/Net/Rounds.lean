import Tractor.Library.Progress
import Tractor.Net.Effects
import Tractor.Net.Lifetime

/-!
The rounds of `EventLoop::loop`.

A round handles what `poll` reported, runs the functors that wait when it has done so, and comes
back to `poll`.  What a handler or a functor queues is for the next round, since
`doPendingFunctors` swaps the functors out before it runs them, so it does not keep this one from
its end.

* `round`: how far a round has to go, in the order of its parts; `round_of_next`: no step but
  `poll` sets it back, and the loop's thread leaves it as it is only inside a callback.
* `exists_step`: inside `loop()` the loop's thread has a step to make, with what the system calls
  return; `Clean.exists_next`: one that passes its assertions.
* `rounds_end`: **a thread that runs the loop for ever polls again and again**, or stays in a
  callback that never returns.
-/

namespace Tractor

open Library Filter

/-- The parts of the round that are ahead. -/
def LoopPc.ahead {F : Type} : LoopPc F → ℕ
  | outside => 0
  | polling => 0
  | testing => 1
  | running _ => 2
  | draining => 3
  | handling => 4

/-- What there is to do for this, at most; what a callback leaves to do does not count. -/
def Op.rank : Op → ℕ
  | accept => 2
  | handleClose _ => 1
  | handleError _ => 1
  | handleRead _ => 2
  | handleWrite _ => 2
  | shutdownIfDisconnecting _ => 1
  | queueWriteComplete _ => 0
  | setDisconnecting _ => 0
  | user => 1
  | removeChannel _ => 1

namespace TcpServer

variable {T : Type} {s s' : TcpServer T} {l : Label T}

def Label.polls : Label T → Bool
  | .poll _ => true
  | _ => false

/-- A step of the loop's thread, `poll` aside. -/
def Label.inLoopThread : Label T → Bool
  | .send _ _ _ => false
  | .shutdown _ _ => false
  | .resume _ => false
  | .wakeup (.other _) => false
  | .poll _ => false
  | .release _ => false
  | _ => true

/-- A call the user's callback makes. -/
def Label.isCall : Label T → Bool
  | .userSend _ _ _ => true
  | .userShutdown _ => true
  | .userRetrieve _ _ => true
  | _ => false

/-- The label leaves the loop's thread where it is in `loop()`. -/
def Label.stays : Label T → Bool
  | .test => false
  | .poll _ => false
  | .dispatch => false
  | .handled => false
  | .swap => false
  | .run _ => false
  | .finish => false
  | _ => true

/-- A call of a callback, or what such a call leaves to do. -/
def inCallback (s : TcpServer T) : Label T → Bool
  | .userSend _ _ _ => true
  | .userShutdown _ => true
  | .userRetrieve _ _ => true
  | .wakeup .loop => true
  | .exec _ => s.todo.head?.any fun op => op.rank = 0
  | _ => false

/-- What there is to do of a handler or functor. -/
def todoRank (s : TcpServer T) : ℕ := (s.todo.map Op.rank).sum

/-- How far the round has to go: its parts, then the channels or functors of this one, then what
there is to do for one of them. -/
def round (s : TcpServer T) : ℕ ×ₗ ℕ ×ₗ ℕ :=
  toLex (s.loop.pc.ahead, toLex (s.active.length + s.loop.pc.functors.length, s.todoRank))

/-- What the calls of a callback have left to do. -/
def chores (s : TcpServer T) : ℕ :=
  2 * s.todo.countP (fun op => op.rank = 0) + (s.loop.queueing .loop).toNat

/-! ### How far the round has to go -/

lemma round_lt_of_ahead (h : s'.loop.pc.ahead < s.loop.pc.ahead) : s'.round < s.round :=
  Prod.Lex.toLex_lt_toLex.mpr (Or.inl h)

lemma round_lt_of_length (hahead : s'.loop.pc.ahead = s.loop.pc.ahead)
    (h : s'.active.length + s'.loop.pc.functors.length <
      s.active.length + s.loop.pc.functors.length) : s'.round < s.round :=
  Prod.Lex.toLex_lt_toLex.mpr (Or.inr ⟨hahead, Prod.Lex.toLex_lt_toLex.mpr (Or.inl h)⟩)

lemma round_lt_of_todo (hpc : s'.loop.pc = s.loop.pc) (hactive : s'.active = s.active)
    (h : s'.todoRank < s.todoRank) : s'.round < s.round := by
  refine Prod.Lex.toLex_lt_toLex.mpr (Or.inr ⟨by rw [hpc], ?_⟩)
  exact Prod.Lex.toLex_lt_toLex.mpr (Or.inr ⟨by rw [hpc, hactive], h⟩)

lemma round_eq_of_todo (hpc : s'.loop.pc = s.loop.pc) (hactive : s'.active = s.active)
    (h : s'.todoRank = s.todoRank) : s'.round = s.round := by
  rw [round, round, hpc, hactive, h]

variable [DecidableEq T]

/-! ### Steps that stay -/

lemma execOp_stays {r : Results} {op : Op} (h : s.execOp r op = some (.ok s')) :
    s'.loop.pc = s.loop.pc ∧ s'.active = s.active := by
  cases op with
  | accept =>
      simp only [execOp] at h
      split_ifs at h
      cases hr : r.accept with
      | none =>
          rw [hr] at h
          obtain rfl := Except.ok.inj (Option.some.inj h)
          exact ⟨rfl, rfl⟩
      | some fd =>
          rw [hr] at h
          obtain ⟨-, p, -, rfl⟩ := newConnection_ok (Option.some.inj h)
          exact ⟨rfl, rfl⟩
  | handleClose c =>
      obtain ⟨-, -, p, -, rfl⟩ := handleClose_ok (Option.some.inj h)
      exact ⟨rfl, rfl⟩
  | handleRead c =>
      have h := Option.some.inj h
      cases hr : r.read with
      | data bytes =>
          rw [hr] at h
          obtain rfl := Except.ok.inj h
          exact ⟨rfl, rfl⟩
      | eof =>
          rw [hr] at h
          obtain ⟨-, -, p, -, rfl⟩ := handleClose_ok h
          exact ⟨rfl, rfl⟩
      | error =>
          rw [hr] at h
          obtain rfl := Except.ok.inj h
          exact ⟨rfl, rfl⟩
  | handleWrite c =>
      simp only [execOp] at h
      split_ifs at h
      have h := Option.some.inj h
      by_cases hw : s.isWriting c = true
      · obtain ⟨-, rfl⟩ | ⟨-, p, ops, -, -, rfl⟩ := handleWrite_ok hw h
        · exact ⟨rfl, rfl⟩
        · exact ⟨rfl, rfl⟩
      · rw [handleWrite, if_neg hw] at h
        obtain rfl := Except.ok.inj h
        exact ⟨rfl, rfl⟩
  | shutdownIfDisconnecting c =>
      simp only [execOp, Option.some.injEq, Except.ok.injEq] at h
      split_ifs at h <;> subst h
      · exact ⟨rfl, rfl⟩
      · exact ⟨rfl, rfl⟩
  | removeChannel c =>
      obtain ⟨p, -, rfl⟩ := removeChannel_ok (Option.some.inj h)
      exact ⟨rfl, rfl⟩
  | handleError | queueWriteComplete | setDisconnecting =>
      obtain rfl := Except.ok.inj (Option.some.inj h)
      exact ⟨rfl, rfl⟩
  | user => simp [execOp] at h

omit [DecidableEq T] in
lemma sendInLoop_stays {th : Thread T} {c : ℕ} {message : List Byte} {nwrote : Option ℕ}
    (h : s.sendInLoop th c message nwrote = .ok s') :
    s'.loop = s.loop ∧ s'.active = s.active := by
  obtain ⟨p, ops, -, -, rfl⟩ := sendInLoop_ok h
  exact ⟨rfl, rfl⟩

omit [DecidableEq T] in
lemma runFunctor_stays {nwrote : Option ℕ} {cb : ServerFunctor T}
    (h : s.runFunctor nwrote cb = some (.ok s')) :
    s'.loop.pc = s.loop.pc ∧ s'.active = s.active := by
  cases cb with
  | sendInLoop t c message =>
      simp only [runFunctor] at h
      split_ifs at h
      obtain ⟨hloop, hactive⟩ := sendInLoop_stays (Option.some.inj h)
      exact ⟨by rw [hloop], hactive⟩
  | connectDestroyed c =>
      obtain ⟨-, p, -, rfl⟩ := connectDestroyed_ok (Option.some.inj h)
      exact ⟨rfl, rfl⟩
  | shutdownInLoop | writeComplete =>
      obtain rfl := Except.ok.inj (Option.some.inj h)
      exact ⟨rfl, rfl⟩

lemma stays_of_next (hid : s.loop.threadId = .loop) (hl : l.stays = true)
    (h : s.next l = some s') : s'.loop.pc = s.loop.pc ∧ s'.active = s.active := by
  rw [next_eq_some] at h
  cases l with
  | send | shutdown | userShutdown | userRetrieve | userReturn | release =>
      simp only [step] at h
      split_ifs at h <;> obtain rfl := Except.ok.inj (Option.some.inj h) <;> exact ⟨rfl, rfl⟩
  | resume t =>
      have hne : Thread.other t ≠ s.loop.threadId := by simp [hid]
      simp only [step] at h
      split at h
      · obtain ⟨s₁, hs₁, h⟩ := Option.map_eq_some_iff.mp h
        obtain ⟨e, he, rfl⟩ := Option.map_eq_some_iff.mp hs₁
        obtain rfl := Except.ok.inj h
        exact ⟨(EventLoop.step_runInLoop_other hne he).2.1, rfl⟩
      · obtain rfl := Except.ok.inj (Option.some.inj h)
        exact ⟨rfl, rfl⟩
      · obtain ⟨s₁, hs₁, h⟩ := Option.map_eq_some_iff.mp h
        obtain ⟨e, he, rfl⟩ := Option.map_eq_some_iff.mp hs₁
        obtain rfl := Except.ok.inj h
        exact ⟨(EventLoop.step_runInLoop_other hne he).2.1, rfl⟩
      · exact absurd h (by simp)
  | wakeup th =>
      obtain ⟨e, he, rfl⟩ := loopStep_map_ok h
      exact ⟨(EventLoop.step_wakeup he).2.1, rfl⟩
  | exec r =>
      simp only [step] at h
      split at h
      · exact absurd h (by simp)
      · split_ifs at h
        obtain ⟨hpc, hactive⟩ := execOp_stays h
        exact ⟨hpc, hactive⟩
  | userSend c message nwrote =>
      simp only [step] at h
      split_ifs at h
      · obtain ⟨hloop, hactive⟩ := sendInLoop_stays (Option.some.inj h)
        exact ⟨by rw [hloop]; rfl, hactive⟩
      · obtain rfl := Except.ok.inj (Option.some.inj h)
        exact ⟨rfl, rfl⟩
  | test | poll | dispatch | handled | swap | run | finish => simp [Label.stays] at hl

/-- The functors of the batch are run from its front. -/
lemma running_of_next {nwrote : Option ℕ} {cb : ServerFunctor T}
    {functors : List (ServerFunctor T)} (hcb : s.loop.pc.functors = cb :: functors)
    (h : s.next (.run nwrote) = some s') :
    s.loop.pc = .running (cb :: functors) ∧ s'.loop.pc = .running functors ∧
      s'.active = s.active := by
  rw [next_eq_some] at h
  simp only [step, hcb] at h
  split_ifs at h
  obtain ⟨s₁, hs₁, h⟩ := Option.bind_eq_some_iff.mp h
  obtain ⟨e, he, rfl⟩ := Option.map_eq_some_iff.mp hs₁
  obtain ⟨-, hpc, hpc', -⟩ := EventLoop.step_run hcb he
  obtain ⟨hpc₁, hactive⟩ := runFunctor_stays h
  exact ⟨hpc, hpc₁.trans hpc', hactive⟩

/-! ### One step of a round -/

omit [DecidableEq T] in
lemma todoRank_append (ops todo : List Op) :
    ((ops ++ todo).map Op.rank).sum = (ops.map Op.rank).sum + (todo.map Op.rank).sum := by
  rw [List.map_append, List.sum_append]

omit [DecidableEq T] in
/-- What queues the write-complete callback does not count. -/
lemma completeOps_rank (s : TcpServer T) (c : ℕ) (message : List Byte) (nwrote : Option ℕ) :
    ((s.completeOps c message nwrote).map Op.rank).sum = 0 := by
  rw [completeOps, writeCompleteOps]
  split_ifs <;> rfl

omit [DecidableEq T] in
/-- What a thing to do leaves behind counts less than it did. -/
lemma todoAfter_exec_rank {r : Results} {op : Op} {todo : List Op} (htodo : s.todo = op :: todo) :
    ((s.todoAfter (.exec r)).map Op.rank).sum + 1 ≤ op.rank + (todo.map Op.rank).sum ∨
      op.rank = 0 ∧ s.todoAfter (.exec r) = todo := by
  cases op with
  | accept =>
      simp only [todoAfter, htodo]
      split_ifs <;> simp [Op.rank]
  | handleRead c =>
      simp only [todoAfter, htodo]
      split <;> simp [Op.rank]
  | handleWrite c =>
      have hops : ((s.writeCompleteOps c).map Op.rank).sum = 0 := by
        rw [writeCompleteOps]
        split_ifs <;> rfl
      simp only [todoAfter, htodo]
      split_ifs
      · rw [todoRank_append, todoRank_append, hops]
        simp [Op.rank]
      · simp [Op.rank]
  | queueWriteComplete | setDisconnecting => exact Or.inr ⟨rfl, by simp [todoAfter, htodo]⟩
  | handleClose | handleError | shutdownIfDisconnecting | user | removeChannel =>
      refine Or.inl ?_
      simp [todoAfter, htodo, Op.rank, Nat.add_comm]

/-- **No step but `poll` sets a round back**, and the loop's thread brings it forward wherever it
is not in a callback. -/
theorem round_of_next (hid : s.loop.threadId = .loop) (hpoll : l.polls = false)
    (h : s.next l = some s') :
    s'.round ≤ s.round ∧
      (l.inLoopThread = true → s.inCallback l = false → s'.round < s.round) := by
  have htodo := (effects_of_next hid h).todo
  have hstays := stays_of_next (l := l) hid (h := h)
  -- a step that goes forward
  have hforward : s'.round < s.round → s'.round ≤ s.round ∧
      (l.inLoopThread = true → s.inCallback l = false → s'.round < s.round) :=
    fun hlt => ⟨hlt.le, fun _ _ => hlt⟩
  rw [next_eq_some] at h
  cases l with
  | send | shutdown | resume | release =>
      obtain ⟨hpc, hactive⟩ := hstays rfl
      refine ⟨(round_eq_of_todo hpc hactive ?_).le,
        fun hl => absurd hl (by simp [Label.inLoopThread])⟩
      rw [todoRank, htodo]
      rfl
  | wakeup th =>
      obtain ⟨hpc, hactive⟩ := hstays rfl
      refine ⟨(round_eq_of_todo hpc hactive ?_).le, fun hl hcall => ?_⟩
      · rw [todoRank, htodo]
        rfl
      · cases th with
        | loop => exact absurd hcall (by simp [inCallback])
        | other t => exact absurd hl (by simp [Label.inLoopThread])
  | userSend c message nwrote =>
      obtain ⟨hpc, hactive⟩ := hstays rfl
      refine ⟨(round_eq_of_todo hpc hactive ?_).le,
        fun _ hcall => absurd hcall (by simp [inCallback])⟩
      rw [todoRank, htodo, todoAfter]
      split_ifs
      · rw [todoRank_append, completeOps_rank, Nat.zero_add, todoRank]
      · rfl
  | userShutdown c =>
      obtain ⟨hpc, hactive⟩ := hstays rfl
      refine ⟨(round_eq_of_todo hpc hactive ?_).le,
        fun _ hcall => absurd hcall (by simp [inCallback])⟩
      rw [todoRank, htodo, todoAfter]
      split_ifs
      · simp [todoRank, Op.rank]
      · rfl
  | userRetrieve c n =>
      obtain ⟨hpc, hactive⟩ := hstays rfl
      refine ⟨(round_eq_of_todo hpc hactive ?_).le,
        fun _ hcall => absurd hcall (by simp [inCallback])⟩
      rw [todoRank, htodo]
      rfl
  | userReturn =>
      obtain ⟨hpc, hactive⟩ := hstays rfl
      simp only [step] at h
      split_ifs at h with hguard
      obtain ⟨todo, huser⟩ := List.head?_eq_some_iff.mp hguard.2
      refine hforward (round_lt_of_todo hpc hactive ?_)
      rw [todoRank, todoRank, htodo, todoAfter, huser]
      simp [Op.rank]
  | exec r =>
      obtain ⟨hpc, hactive⟩ := hstays rfl
      cases hops : s.todo with
      | nil => simp [step, hops] at h
      | cons op todo =>
          have hrank : s.todoRank = op.rank + (todo.map Op.rank).sum := by
            rw [todoRank, hops]
            rfl
          obtain hless | ⟨hzero, hrest⟩ := todoAfter_exec_rank (r := r) hops
          · refine hforward (round_lt_of_todo hpc hactive ?_)
            rw [hrank, todoRank, htodo]
            omega
          · refine ⟨(round_eq_of_todo hpc hactive ?_).le, fun _ hcall => ?_⟩
            · rw [hrank, todoRank, htodo, hrest]
              omega
            · simp [inCallback, hops, hzero] at hcall
  | test =>
      obtain ⟨e, he, rfl⟩ := loopStep_map_ok h
      obtain ⟨-, hpc, hpc', -⟩ := EventLoop.step_test he
      refine hforward (round_lt_of_ahead ?_)
      rcases hpc' with hpc' | hpc' <;> simp [hpc, hpc', LoopPc.ahead]
  | swap =>
      obtain ⟨e, he, rfl⟩ := loopStep_map_ok h
      obtain ⟨-, hpc, hpc', -⟩ := EventLoop.step_swap he
      exact hforward (round_lt_of_ahead (by simp [hpc, hpc', LoopPc.ahead]))
  | handled =>
      simp only [step] at h
      split_ifs at h
      obtain ⟨e, he, rfl⟩ := loopStep_map_ok h
      obtain ⟨-, hpc, hpc', -⟩ := EventLoop.step_handled he
      exact hforward (round_lt_of_ahead (by simp [hpc, hpc', LoopPc.ahead]))
  | finish =>
      simp only [step] at h
      split_ifs at h
      obtain ⟨e, he, rfl⟩ := loopStep_map_ok h
      obtain ⟨-, hpc, hpc', -⟩ := EventLoop.step_finish he
      exact hforward (round_lt_of_ahead (by simp [hpc, hpc', LoopPc.ahead]))
  | dispatch =>
      simp only [step] at h
      split at h
      · exact absurd h (by simp)
      · rename_i ref active hactive
        split_ifs at h
        obtain rfl := Except.ok.inj (Option.some.inj h)
        exact hforward (round_lt_of_length rfl (by simp [hactive]))
  | run nwrote =>
      cases hcb : s.loop.pc.functors with
      | nil => simp [step, hcb] at h
      | cons cb functors =>
          obtain ⟨hpc, hpc', hactive⟩ := running_of_next hcb (next_eq_some.mpr h)
          refine hforward (round_lt_of_length ?_ ?_)
          · rw [hpc, hpc']
            rfl
          · rw [hpc, hpc', hactive]
            simp [LoopPc.functors]
  | poll events => simp [Label.polls] at hpoll

/-! ### The calls of a callback -/

/-- A step of another thread leaves the loop's thread in `queueInLoop` or out of it. -/
lemma queueing_of_next (hid : s.loop.threadId = .loop) (hl : l.inLoopThread = false)
    (hpoll : l.polls = false) (h : s.next l = some s') :
    s'.loop.queueing .loop = s.loop.queueing .loop := by
  rw [next_eq_some] at h
  cases l with
  | send | shutdown | release =>
      simp only [step] at h
      split_ifs at h <;> obtain rfl := Except.ok.inj (Option.some.inj h) <;> rfl
  | resume t =>
      have hcall : ∀ {cb : ServerFunctor T} {e : EventLoop (Thread T) (ServerFunctor T)},
          s.loop.step (.runInLoop (.other t) cb) = some e →
            e.queueing .loop = s.loop.queueing .loop := by
        intro cb e he
        simp only [EventLoop.step, EventLoop.isInLoopThread, hid, reduceCtorEq, decide_false,
          Bool.false_eq_true, if_false] at he
        split_ifs at he
        obtain rfl := Option.some.inj he
        simp
      simp only [step] at h
      split at h
      · obtain ⟨s₁, hs₁, h⟩ := Option.map_eq_some_iff.mp h
        obtain ⟨e, he, rfl⟩ := Option.map_eq_some_iff.mp hs₁
        obtain rfl := Except.ok.inj h
        exact hcall he
      · obtain rfl := Except.ok.inj (Option.some.inj h)
        rfl
      · obtain ⟨s₁, hs₁, h⟩ := Option.map_eq_some_iff.mp h
        obtain ⟨e, he, rfl⟩ := Option.map_eq_some_iff.mp hs₁
        obtain rfl := Except.ok.inj h
        exact hcall he
      · exact absurd h (by simp)
  | wakeup th =>
      cases th with
      | loop => simp [Label.inLoopThread] at hl
      | other t =>
          obtain ⟨e, he, rfl⟩ := loopStep_map_ok h
          simp only [EventLoop.step, EventLoop.wakeupFor] at he
          split_ifs at he <;> obtain rfl := Option.some.inj he <;> simp
  | poll events => simp [Label.polls] at hpoll
  | _ => simp [Label.inLoopThread] at hl

/-- What a call left to do is done, or another thread makes a step. -/
lemma chores_of_next (hid : s.loop.threadId = .loop) (hpoll : l.polls = false)
    (hcall : l.isCall = false) (hback : l.inLoopThread = true → s.inCallback l = true)
    (h : s.next l = some s') :
    s'.chores ≤ s.chores ∧ (l.inLoopThread = true → s'.chores < s.chores) := by
  have htodo := (effects_of_next hid h).todo
  cases hl : l.inLoopThread with
  | false =>
      refine ⟨?_, fun h => absurd h (by simp)⟩
      have hafter : s.todoAfter l = s.todo := by
        cases l <;> simp_all [Label.inLoopThread, todoAfter]
      rw [chores, chores, htodo, hafter, queueing_of_next hid hl hpoll h]
  | true =>
      suffices hlt : s'.chores < s.chores from ⟨hlt.le, fun _ => hlt⟩
      have hback := hback hl
      rw [next_eq_some] at h
      cases l with
      | wakeup th =>
          cases th with
          | other t => simp [Label.inLoopThread] at hl
          | loop =>
              obtain ⟨e, he, rfl⟩ := loopStep_map_ok h
              simp only [EventLoop.step] at he
              split_ifs at he with hqueueing
              obtain rfl := Option.some.inj he
              simp [chores, hqueueing]
      | exec r =>
          simp only [step] at h
          split at h
          · exact absurd h (by simp)
          · rename_i op todo hops
            split_ifs at h with hready
            have hfree : s.loop.queueing .loop = false := by simpa [ready] using hready
            have hzero : op.rank = 0 := by simpa [inCallback, hops] using hback
            have hrest : s'.todo = todo := by
              obtain hless | ⟨-, hrest⟩ := todoAfter_exec_rank (r := r) hops
              · rw [htodo]
                cases op <;> simp_all [Op.rank, todoAfter]
              · exact htodo.trans hrest
            have hbit := Bool.toNat_le (s'.loop.queueing .loop)
            have hcount : s.todo.countP (fun op => op.rank = 0) =
                todo.countP (fun op => op.rank = 0) + 1 := by
              rw [hops, List.countP_cons_of_pos (by simpa using hzero)]
            rw [chores, chores, hrest, hcount, hfree]
            simp only [Bool.toNat_false]
            omega
      | userSend | userShutdown | userRetrieve => simp [Label.isCall] at hcall
      | _ => simp [inCallback] at hback

/-- Where no callback calls, every step of the loop's thread leaves less to do. -/
lemma round_chores_lt (hid : s.loop.threadId = .loop) (hlocal : l.inLoopThread = true)
    (hcall : l.isCall = false) (h : s.next l = some s') :
    toLex (s'.round, s'.chores) < toLex (s.round, s.chores) := by
  have hpoll : l.polls = false := by
    cases l <;> simp_all [Label.polls, Label.inLoopThread]
  obtain ⟨hle, hlt⟩ := round_of_next hid hpoll h
  cases hback : s.inCallback l with
  | false => exact Prod.Lex.toLex_lt_toLex.mpr (Or.inl (hlt hlocal hback))
  | true =>
      have hchores := (chores_of_next hid hpoll hcall (fun _ => hback) h).2 hlocal
      rcases hle.lt_or_eq with hlt | heq
      · exact Prod.Lex.toLex_lt_toLex.mpr (Or.inl hlt)
      · exact Prod.Lex.toLex_lt_toLex.mpr (Or.inr ⟨heq, hchores⟩)

/-! ### The loop's thread goes on -/

/-- Inside `loop()` the loop's thread has a step, if what it calls returns: it accepts nobody, and
enters the close path only for a hang-up. -/
lemma exists_step (hid : s.loop.threadId = .loop) (hpc : s.loop.pc ≠ .outside) :
    ∃ l : Label T, (l.polls = true ∨ l.inLoopThread = true) ∧ s.step l ≠ none ∧
      s.accepts l = false ∧ ∀ c, s.closing l = some c → .handleClose c ∈ s.todo := by
  cases hqueueing : s.loop.queueing .loop with
  | true =>
      refine ⟨.wakeup .loop, Or.inr rfl, ?_, rfl, by simp [closing]⟩
      simp [step, loopStep, EventLoop.step, hqueueing]
  | false =>
      have hready : s.ready = true := by simp [ready, hqueueing]
      cases htodo : s.todo with
      | cons op todo =>
          cases op with
          | user =>
              exact ⟨.userReturn, Or.inr rfl, by simp [step, hready, htodo], rfl, by simp [closing]⟩
          | _ =>
              refine ⟨.exec ⟨none, .error, none⟩, Or.inr rfl, ?_, ?_, ?_⟩
              · simp [step, hready, htodo, execOp, writable]
              · simp [accepts]
              · simp [closing, htodo]
      | nil =>
          cases hplace : s.loop.pc with
          | outside => exact absurd hplace hpc
          | testing =>
              refine ⟨.test, Or.inr rfl, ?_, rfl, by simp [closing]⟩
              simp only [step, loopStep, EventLoop.step, hplace]
              split_ifs <;> simp
          | polling =>
              refine ⟨.poll [], Or.inl rfl, ?_, rfl, by simp [closing]⟩
              simp [step, reportable, loopStep, EventLoop.step, hplace]
          | handling =>
              cases hactive : s.active with
              | cons ref active =>
                  refine ⟨.dispatch, Or.inr rfl, ?_, rfl, by simp [closing]⟩
                  simp [step, hready, htodo, hactive]
              | nil =>
                  refine ⟨.handled, Or.inr rfl, ?_, rfl, by simp [closing]⟩
                  simp [step, htodo, hactive, loopStep, EventLoop.step, hplace, hid, hqueueing]
          | draining =>
              refine ⟨.swap, Or.inr rfl, ?_, rfl, by simp [closing]⟩
              simp [step, loopStep, EventLoop.step, hplace]
          | running functors =>
              cases functors with
              | nil =>
                  refine ⟨.finish, Or.inr rfl, ?_, rfl, by simp [closing]⟩
                  simp [step, htodo, loopStep, EventLoop.step, hplace, hid, hqueueing]
              | cons cb functors =>
                  refine ⟨.run none, Or.inr rfl, ?_, rfl, by simp [closing]⟩
                  cases cb <;>
                    simp [step, htodo, loopStep, EventLoop.step, hplace, hid, hqueueing,
                      LoopPc.functors, runFunctor, writable]

/-- A connection that a hang-up is about to close has not been closed. -/
lemma Clean.closeCalls_eq_zero {c : ℕ} (h : s.Clean) (hsane : s.Sane)
    (hmem : .handleClose c ∈ s.todo) : (s.hist c).closeCalls = 0 := by
  have hindex := hsane.dispatching.registered (.conn c) (Or.inr ⟨_, hmem, rfl⟩)
  have hgone := h.gone_eq_false hindex
  obtain ⟨hfresh, hdestroying⟩ := hsane.stage_of_event hmem rfl
  rw [hsane.ledger.closeCalls c]
  cases hstage : (s.hist c).stage with
  | fresh => simp
  | established => simp
  | closed => exact absurd hmem (hsane.dispatching.once c hstage).1
  | destroying => exact absurd hstage hdestroying
  | destroyed | released => simp [gone, hstage] at hgone

/-- A step of the loop's thread that passes its assertions. -/
lemma Clean.exists_next (h : s.Clean) (hsane : s.Sane) (hpc : s.loop.pc ≠ .outside) :
    ∃ (l : Label T) (s' : TcpServer T),
      (l.polls = true ∨ l.inLoopThread = true) ∧ s.next l = some s' := by
  obtain ⟨l, hl, hstep, haccepts, hclosing⟩ := exists_step hsane.ledger.threadId hpc
  have hfail : s.failure l = none := h.no_failure hsane
    (fun c hc => h.closeCalls_eq_zero hsane (hclosing c hc)) (by simp [haccepts])
  cases hres : s.step l with
  | none => exact absurd hres hstep
  | some r =>
      cases r with
      | error f => exact absurd (failure_eq_some.mpr hres) (by simp [hfail])
      | ok s' => exact ⟨l, s', hl, next_eq_some.mpr hres⟩

/-- **Every round of the loop ends**, provided every system call returns.  In every run of a server
that does not end, with any number of connections and of other threads:

* if the loop's thread makes steps again and again, then it polls again and again, or it comes
  into a callback that calls again and again and never returns;
* and if no message is queued for a connection whose close path has run, the loop's thread has a
  step that passes its assertions, wherever it is inside `loop()`. -/
theorem rounds_end {ok : TcpServer T → Label T → Prop} {name : String} {acceptFd : ℕ} {wc : Bool}
    {s : ℕ → TcpServer T} {l : ℕ → Label T} (h : Reaches ok (start name acceptFd wc) (s 0))
    (hrun : Forever next s l) :
    ((∃ᶠ i in atTop, (l i).inLoopThread = true) →
      (∃ᶠ i in atTop, (l i).polls = true) ∨
        (∀ᶠ i in atTop, (l i).inLoopThread = true → (s i).inCallback (l i) = true) ∧
          ∃ᶠ i in atTop, (l i).isCall = true) ∧
    ((∀ s l, ok s l → s.sendsLate l = false) → (∀ i, (s i).sendsLate (l i) = false) →
      ∀ i, (s i).loop.pc ≠ .outside → ∃ (a : Label T) (s' : TcpServer T),
        (a.polls = true ∨ a.inLoopThread = true) ∧ (s i).next a = some s') := by
  have hreach : ∀ i, Reaches (fun _ _ => True) (start name acceptFd wc) (s i) := fun i =>
    (h.mono fun _ _ _ => trivial).trans (hrun.reach (fun _ => trivial) i)
  have hid : ∀ i, (s i).loop.threadId = .loop := fun i =>
    (sane_of_reaches (hreach i)).ledger.threadId
  refine ⟨fun hsteps => ?_, fun hearlier hlate i hpc => ?_⟩
  · rw [or_iff_not_imp_left, not_frequently]
    intro hpolls
    have hpolls : ∀ᶠ i in atTop, (l i).polls = false := by simpa using hpolls
    have hback : ∀ᶠ i in atTop, (l i).inLoopThread = true → (s i).inCallback (l i) = true := by
      -- the round of the last `poll` only gets shorter
      have hnone := eventually_not_of_rank (fun i => (s i).round)
        (P := fun i => (l i).inLoopThread = true ∧ (s i).inCallback (l i) = false)
        (hpolls.mono fun i hi => (round_of_next (hid i) hi (hrun i)).1)
        (hpolls.mono fun i hi hP => (round_of_next (hid i) hi (hrun i)).2 hP.1 hP.2)
      exact hnone.mono fun i hi hl => by simpa [hl] using hi
    refine ⟨hback, fun hcalls => hsteps ?_⟩
    have hcalls : ∀ᶠ i in atTop, (l i).isCall = false := by simpa using hcalls
    have hall := hpolls.and (hcalls.and hback)
    exact eventually_not_of_rank (fun i => (s i).chores)
      (hall.mono fun i hi => (chores_of_next (hid i) hi.1 hi.2.1 hi.2.2 (hrun i)).1)
      (hall.mono fun i hi => (chores_of_next (hid i) hi.1 hi.2.1 hi.2.2 (hrun i)).2)
  · obtain ⟨hsane, hclean⟩ := clean_of_reaches
      ((h.mono fun s l => hearlier s l).trans (hrun.reach hlate i))
    exact hclean.exists_next hsane hpc

/-- The steps of a server whose client sends a byte for every round, which the message callback
takes. -/
def reading (i : ℕ) : Label Empty :=
  match i % 9 with
  | 0 => .poll [(.conn 1, POLLIN)]
  | 1 => .dispatch
  | 2 => .exec ⟨none, .data [65], none⟩
  | 3 => .userRetrieve 1 1
  | 4 => .userReturn
  | 5 => .handled
  | 6 => .swap
  | 7 => .finish
  | _ => .test

/-- Its states, from the second `poll` for the connection on. -/
def readingState (i : ℕ) : TcpServer Empty :=
  (exec next (fun _ _ => True) (start "s" 3 false)
    (acceptOne Empty ++ ((List.range 9).map reading ++ (List.range (i % 9)).map reading))).getD
      (start "s" 3 false)

/-- The ninth step of a round leads back to the first. -/
lemma reading_round : next (readingState 8) (reading 8) = some (readingState 0) := by
  -- the connection and its channel are written twice, with what they were
  obtain ⟨s, hs, hconns, hchan, hrest⟩ : ∃ s, next (readingState 8) (reading 8) = some s ∧
      s.conns = (readingState 0).conns ∧ s.poller.chan = (readingState 0).poller.chan ∧
      { s with
        conns := (readingState 0).conns
        poller := { s.poller with chan := (readingState 0).poller.chan } } = readingState 0 := by
    refine ⟨_, rfl, ?_, ?_, rfl⟩
    · funext c
      match c with
      | 0 | 1 | _ + 2 => rfl
    · funext r
      match r with
      | .acceptor | .conn 0 | .conn 1 | .conn (_ + 2) => rfl
  rw [hs, ← hrest, ← hconns, ← hchan]

lemma reading_forever : Forever next readingState reading := by
  intro i
  have hlt : i % 9 < 9 := Nat.mod_lt i (by decide)
  have hstate : ∀ i, readingState i = readingState (i % 9) := fun i => by simp [readingState]
  have hlabel : reading i = reading (i % 9) := by simp [reading]
  have hnext : (i + 1) % 9 = (i % 9 + 1) % 9 := by omega
  rw [hstate, hstate (i + 1), hlabel, hnext]
  generalize i % 9 = k at hlt
  interval_cases k
  case «8» => exact reading_round
  all_goals rfl

/-- It polls again and again, and has a step to make while a byte waits to be read. -/
theorem rounds_end_reading : (∃ᶠ i in atTop, (reading i).polls = true) ∧
    (readingState 2).todo = [.handleRead 1] ∧ ∃ (a : Label Empty) (s' : TcpServer Empty),
      (a.polls = true ∨ a.inLoopThread = true) ∧ (readingState 2).next a = some s' := by
  have hlate : ∀ (s : TcpServer Empty) l, s.sendsLate l = false := fun s l => by
    cases l with
    | resume t => exact t.elim
    | _ => rfl
  have hstart : Reaches (fun _ _ => True) (start "s" 3 false) (readingState 0) :=
    (Reach.refl _).of_exec (by rfl : exec next (fun _ _ => True) (start "s" 3 false)
      (acceptOne Empty ++ ((List.range 9).map reading ++ [])) = some (readingState 0))
  obtain ⟨hpolls, hgoes⟩ := rounds_end hstart reading_forever
  have hinside : (readingState 2).loop.pc ≠ .outside :=
    show LoopPc.handling ≠ .outside by simp
  refine ⟨?_, rfl, hgoes (fun s l _ => hlate s l) (fun i => hlate _ _) 2 hinside⟩
  have hhandled : ∀ i, i % 9 = 5 → (reading i).inLoopThread = true ∧
      (readingState i).inCallback (reading i) = false := fun i hi => by
    simp [reading, hi, Label.inLoopThread, inCallback]
  have hagain : ∃ᶠ i in atTop, i % 9 = 5 :=
    frequently_atTop.mpr fun n => ⟨9 * n + 5, by omega, by omega⟩
  refine (hpolls (hagain.mono fun i hi => (hhandled i hi).1)).resolve_right fun hstuck => ?_
  -- every ninth step comes to the end of the handlers, outside a callback
  obtain ⟨i, hi, hback⟩ := (hagain.and_eventually hstuck.1).exists
  simp [hhandled i hi] at hback

end TcpServer

end Tractor
