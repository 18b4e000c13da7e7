import Tractor.Net.Ledger

/-!
What a step does to the connections, to what there is left to do, and to the queue.

* `ConnOp`: what a step does with one connection; `connOp`: which of these a step does.
* `todoAfter`, `queueAfter`: what the loop's thread has left to do behind a step, and the functors
  that wait.
* `Effects`, `effects_of_next`: **this is what every step that succeeds does.**
-/

namespace Tractor

open Library

/-- What a step of the server does with one connection: `newConnection` builds it, a state is set,
one of its functions runs, or `shutdown` is called in the loop's thread. -/
inductive ConnOp where
  | construct (name : String)
  | setState (st : ConnectState)
  | sendInLoop (isWriting : Bool) (message : List Byte) (nwrote : Option ℕ)
  | handleWrite (nwrote : Option ℕ)
  | handleRead (bytes : List Byte)
  | retrieve (n : ℕ)
  | shutdownInLoop (isWriting : Bool)
  | shutdown (isWriting : Bool)

namespace ConnOp

/-- Over lists: the connection, and what the call reports. -/
def run (conn : TcpConnection) : ConnOp → TcpConnection × Bool × Bool
  | construct name => ((TcpConnection.new name).setState .kConnected, false, false)
  | setState st => (conn.setState st, false, false)
  | sendInLoop isWriting message nwrote => conn.sendInLoop isWriting message nwrote
  | handleWrite nwrote => ((conn.handleWrite nwrote).1, (conn.handleWrite nwrote).2, false)
  | handleRead bytes => ({ conn with inputBuffer := conn.inputBuffer ++ bytes }, false, false)
  | retrieve n => ({ conn with inputBuffer := conn.inputBuffer.drop n }, false, false)
  | shutdownInLoop isWriting => (conn.shutdownInLoop isWriting, false, false)
  | shutdown isWriting => ((conn.setState .kDisconnecting).shutdownInLoop isWriting, false, false)

/-- The socket accepts no more than it is given. -/
def Possible (conn : TcpConnection) : ConnOp → Prop
  | handleWrite nwrote => TcpServer.writable nwrote conn.outputBuffer.length = true
  | _ => True

end ConnOp

namespace TcpServer

variable {T : Type} {s s' : TcpServer T}

/-- The connection a step works on, and what it does with it. -/
def connOp (s : TcpServer T) : Label T → Option (ℕ × ConnOp)
  | .resume t =>
      match s.calls t with
      | some (.setDisconnecting c) => some (c, .setState .kDisconnecting)
      | _ => none
  | .exec r =>
      match s.todo with
      | .accept :: _ => r.accept.map fun _ => (s.nextConnId, .construct (s.connName s.nextConnId))
      | .handleRead c :: _ =>
          match r.read with
          | .data bytes => some (c, .handleRead bytes)
          | _ => none
      | .handleWrite c :: _ => if s.isWriting c then some (c, .handleWrite r.write) else none
      | .shutdownIfDisconnecting c :: _ =>
          if (s.conns c).state = .kDisconnecting then some (c, .shutdownInLoop (s.isWriting c))
          else none
      | .setDisconnecting c :: _ => some (c, .shutdown (s.isWriting c))
      | _ => none
  | .userSend c message nwrote =>
      if (s.conns c).state = .kConnected then
        some (c, .sendInLoop (s.isWriting c) message nwrote)
      else none
  | .userRetrieve c n => some (c, .retrieve n)
  | .run nwrote =>
      match s.loop.pc.functors with
      | .sendInLoop _ c message :: _ => some (c, .sendInLoop (s.isWriting c) message nwrote)
      | .shutdownInLoop c :: _ => some (c, .shutdownInLoop (s.isWriting c))
      | .connectDestroyed c :: _ => some (c, .setState .kDisconnected)
      | _ => none
  | _ => none

/-- The connections behind it. -/
def perform (conns : ℕ → TcpConnection) : Option (ℕ × ConnOp) → ℕ → TcpConnection
  | none => conns
  | some (c, op) => Function.update conns c (op.run (conns c)).1

/-- What puts the write-complete callback first behind a call of `sendInLoop`. -/
def completeOps (s : TcpServer T) (c : ℕ) (message : List Byte) (nwrote : Option ℕ) : List Op :=
  if ((s.conns c).sendInLoop (s.isWriting c) message nwrote).2.1 then s.writeCompleteOps c else []

/-- What the loop's thread has left to do. -/
def todoAfter (s : TcpServer T) : Label T → List Op
  | .dispatch =>
      match s.active with
      | [] => s.todo
      | ref :: _ => s.eventOps ref
  | .exec r =>
      match s.todo with
      | .accept :: todo => if r.accept.isSome then .user :: todo else todo
      | .handleRead _ :: todo =>
          match r.read with
          | .data _ => .user :: todo
          | _ => todo
      | .handleWrite c :: todo =>
          if s.isWriting c = true ∧ ((s.conns c).handleWrite r.write).2 = true then
            s.writeCompleteOps c ++ [.shutdownIfDisconnecting c] ++ todo
          else todo
      | _ => s.todo.tail
  | .userSend c message nwrote =>
      if (s.conns c).state = .kConnected then s.completeOps c message nwrote ++ s.todo else s.todo
  | .userShutdown c =>
      if (s.conns c).state = .kConnected then .setDisconnecting c :: s.todo else s.todo
  | .userReturn => s.todo.tail
  | .run nwrote =>
      match s.loop.pc.functors with
      | .sendInLoop _ c message :: _ => s.completeOps c message nwrote ++ s.todo
      | .connectDestroyed c :: _ => .user :: .removeChannel c :: s.todo
      | .writeComplete _ :: _ => .user :: s.todo
      | _ => s.todo
  | _ => s.todo

/-- The functors that wait. -/
def queueAfter (s : TcpServer T) : Label T → List (ServerFunctor T)
  | .resume t =>
      match s.calls t with
      | some (.sendInLoop c message) => s.loop.queue ++ [.sendInLoop t c message]
      | some (.shutdownInLoop c) => s.loop.queue ++ [.shutdownInLoop c]
      | _ => s.loop.queue
  | .exec r =>
      match s.todo, r.read with
      | .handleClose c :: _, _ => s.loop.queue ++ [.connectDestroyed c]
      | .handleRead c :: _, .eof => s.loop.queue ++ [.connectDestroyed c]
      | .queueWriteComplete c :: _, _ => s.loop.queue ++ [.writeComplete c]
      | _, _ => s.loop.queue
  | .run _ => s.loop.queue.tail
  | _ => s.loop.queue

/-- The number of the next connection. -/
def nextIdAfter (s : TcpServer T) : Label T → ℕ
  | .exec r =>
      match s.todo with
      | .accept :: _ => if r.accept.isSome then s.nextConnId + 1 else s.nextConnId
      | _ => s.nextConnId
  | _ => s.nextConnId

/-- What a step does. -/
structure Effects (s : TcpServer T) (l : Label T) (s' : TcpServer T) : Prop where
  conns : s'.conns = perform s.conns (s.connOp l)
  possible : ∀ c op, s.connOp l = some (c, op) → op.Possible (s.conns c)
  todo : s'.todo = s.todoAfter l
  queue : s'.loop.queue = s.queueAfter l
  nextConnId : s'.nextConnId = s.nextIdAfter l
  hasWriteComplete : s'.hasWriteComplete = s.hasWriteComplete

lemma possible_some {conns : ℕ → TcpConnection} {c : ℕ} {op : ConnOp}
    (h : op.Possible (conns c)) :
    ∀ c' op', some (c, op) = some (c', op') → op'.Possible (conns c') := by
  rintro _ _ ⟨⟩
  exact h

/-- A call of `sendInLoop`, in a state that differs in its record and its loop. -/
lemma sendInLoop_effects {s₁ : TcpServer T} {th : Thread T} {c : ℕ} {message : List Byte}
    {nwrote : Option ℕ} (h : s₁.sendInLoop th c message nwrote = .ok s')
    (hconns : s₁.conns = s.conns) (hpoller : s₁.poller = s.poller)
    (hwc : s₁.hasWriteComplete = s.hasWriteComplete) :
    s'.conns = perform s.conns (some (c, .sendInLoop (s.isWriting c) message nwrote)) ∧
      s'.todo = s.completeOps c message nwrote ++ s₁.todo ∧ s'.loop = s₁.loop ∧
      s'.nextConnId = s₁.nextConnId ∧ s'.hasWriteComplete = s.hasWriteComplete := by
  have hwriting : s₁.isWriting c = s.isWriting c := by rw [isWriting, isWriting, hpoller]
  have hops : s₁.completeOps c message nwrote = s.completeOps c message nwrote := by
    rw [completeOps, completeOps, writeCompleteOps, writeCompleteOps, hconns, hwriting, hwc]
  rw [perform, ConnOp.run, ← hops, ← hconns, ← hwriting, ← hwc]
  simp only [sendInLoop] at h
  by_cases henable : ((s₁.conns c).sendInLoop (s₁.isWriting c) message nwrote).2.2 = true
  · rw [if_pos henable] at h
    obtain ⟨p, -, rfl⟩ := withPoller_ok h
    exact ⟨rfl, rfl, rfl, rfl, rfl⟩
  · rw [if_neg henable] at h
    obtain rfl := Except.ok.inj h
    exact ⟨rfl, rfl, rfl, rfl, rfl⟩

variable [DecidableEq T]

section Exec

variable {r : Results} {todo : List Op}

omit [DecidableEq T] in
lemma todo_pop {op : Op} (htodo : s.todo = op :: todo) : s.pop.todo = todo := by
  rw [pop, htodo, List.tail_cons]

omit [DecidableEq T] in
/-- A step that only drops what it does. -/
lemma effects_of_drop {op : Op} (htodo : s.todo = op :: todo)
    (hnone : s.connOp (.exec r) = none) (hafter : s.todoAfter (.exec r) = todo)
    (hqueue : s.queueAfter (.exec r) = s.loop.queue)
    (hid : s.nextIdAfter (.exec r) = s.nextConnId) : Effects s (.exec r) s.pop :=
  ⟨by rw [hnone]; rfl, by simp [hnone], (todo_pop htodo).trans hafter.symm, hqueue.symm, hid.symm,
    rfl⟩

/-- `handleClose_`. -/
lemma effects_of_handleClose {op : Op} {c : ℕ} (htodo : s.todo = op :: todo)
    (hok : s.pop.handleClose c = .ok s') (hnone : s.connOp (.exec r) = none)
    (hafter : s.todoAfter (.exec r) = todo)
    (hqueue : s.queueAfter (.exec r) = s.loop.queue ++ [.connectDestroyed c])
    (hid : s.nextIdAfter (.exec r) = s.nextConnId) : Effects s (.exec r) s' := by
  obtain ⟨-, -, p, -, rfl⟩ := handleClose_ok hok
  refine ⟨by rw [hnone]; rfl, by simp [hnone], (todo_pop htodo).trans hafter.symm, ?_, hid.symm,
    rfl⟩
  rw [hqueue]
  exact queue_queueInLoop s.pop (.connectDestroyed c)

/-- `handleRead` of the acceptor. -/
lemma effects_of_accept (htodo : s.todo = .accept :: todo)
    (h : s.pop.execOp r .accept = some (.ok s')) : Effects s (.exec r) s' := by
  have hpop := todo_pop htodo
  simp only [execOp] at h
  split_ifs at h
  cases hr : r.accept with
  | none =>
      rw [hr] at h
      obtain rfl : s.pop = s' := by simpa [handleAccept, pure, Except.pure] using h
      exact effects_of_drop htodo (by simp [connOp, htodo, hr]) (by simp [todoAfter, htodo, hr])
        (by simp [queueAfter, htodo]) (by simp [nextIdAfter, htodo, hr])
  | some fd =>
      rw [hr] at h
      obtain ⟨-, p, -, rfl⟩ := newConnection_ok (Option.some.inj h)
      have hconn : s.connOp (.exec r) =
          some (s.nextConnId, .construct (s.connName s.nextConnId)) := by
        simp [connOp, htodo, hr]
      refine ⟨by rw [hconn]; rfl, hconn ▸ possible_some trivial, ?_, ?_, ?_, rfl⟩
      · simp [todoAfter, htodo, hr, hpop]
      · simp [queueAfter, htodo, pop]
      · simp [nextIdAfter, htodo, hr, pop]

/-- `handleRead_`. -/
lemma effects_of_handleRead {c : ℕ} (htodo : s.todo = .handleRead c :: todo)
    (h : s.pop.execOp r (.handleRead c) = some (.ok s')) : Effects s (.exec r) s' := by
  have hpop := todo_pop htodo
  simp only [execOp, Option.some.injEq] at h
  cases hr : r.read with
  | data bytes =>
      rw [hr] at h
      obtain rfl := Except.ok.inj h
      have hconn : s.connOp (.exec r) = some (c, .handleRead bytes) := by
        simp [connOp, htodo, hr]
      refine ⟨by rw [hconn]; rfl, hconn ▸ possible_some trivial, ?_, ?_, ?_, rfl⟩
      · simp [todoAfter, htodo, hr, doFirst, setConn, hpop]
      · simp [queueAfter, htodo, hr, doFirst, setConn, pop]
      · simp [nextIdAfter, htodo, doFirst, setConn, pop]
  | eof =>
      rw [hr] at h
      exact effects_of_handleClose htodo h (by simp [connOp, htodo, hr])
        (by simp [todoAfter, htodo, hr]) (by simp [queueAfter, htodo, hr])
        (by simp [nextIdAfter, htodo])
  | error =>
      rw [hr] at h
      obtain rfl := Except.ok.inj h
      exact effects_of_drop htodo (by simp [connOp, htodo, hr]) (by simp [todoAfter, htodo, hr])
        (by simp [queueAfter, htodo, hr]) (by simp [nextIdAfter, htodo])

/-- `handleWrite_`. -/
lemma effects_of_handleWrite {c : ℕ} (htodo : s.todo = .handleWrite c :: todo)
    (h : s.pop.execOp r (.handleWrite c) = some (.ok s')) : Effects s (.exec r) s' := by
  simp only [execOp] at h
  split_ifs at h with hwritable
  have h := Option.some.inj h
  by_cases hw : s.isWriting c = true
  · have hconn : s.connOp (.exec r) = some (c, .handleWrite r.write) := by
      simp [connOp, htodo, hw]
    have hqueue : s.queueAfter (.exec r) = s.loop.queue := by simp [queueAfter, htodo]
    have hid : s.nextIdAfter (.exec r) = s.nextConnId := by simp [nextIdAfter, htodo]
    have hsame : s.pop.isWriting c = true := hw
    simp only [handleWrite, hsame, if_true] at h
    split_ifs at h with hdrained
    · obtain ⟨p, -, rfl⟩ := withPoller_ok h
      have hdrained' : ((s.conns c).handleWrite r.write).2 = true := hdrained
      refine ⟨by rw [hconn]; rfl, hconn ▸ possible_some hwritable, ?_, hqueue.symm, hid.symm,
        rfl⟩
      simp [todoAfter, htodo, hw, hdrained', doFirst, setConn, writeCompleteOps, pop]
    · obtain rfl := Except.ok.inj h
      have hdrained' : ¬ ((s.conns c).handleWrite r.write).2 = true := hdrained
      refine ⟨by rw [hconn]; rfl, hconn ▸ possible_some hwritable, ?_, hqueue.symm, hid.symm,
        rfl⟩
      simp [todoAfter, htodo, hdrained', setConn, todo_pop htodo]
  · rw [handleWrite, if_neg (by simpa [pop, isWriting] using hw)] at h
    obtain rfl := Except.ok.inj h
    exact effects_of_drop htodo (by simp [connOp, htodo, hw]) (by simp [todoAfter, htodo, hw])
      (by simp [queueAfter, htodo]) (by simp [nextIdAfter, htodo])

/-- The end of `handleWrite_`. -/
lemma effects_of_shutdownIfDisconnecting {c : ℕ}
    (htodo : s.todo = .shutdownIfDisconnecting c :: todo)
    (h : s.pop.execOp r (.shutdownIfDisconnecting c) = some (.ok s')) :
    Effects s (.exec r) s' := by
  simp only [execOp, Option.some.injEq, Except.ok.injEq] at h
  have hstate' : (s.pop.conns c).state = (s.conns c).state := rfl
  rw [hstate'] at h
  have hafter : s.todoAfter (.exec r) = todo := by simp [todoAfter, htodo]
  have hqueue : s.queueAfter (.exec r) = s.loop.queue := by simp [queueAfter, htodo]
  have hid : s.nextIdAfter (.exec r) = s.nextConnId := by simp [nextIdAfter, htodo]
  by_cases hstate : (s.conns c).state = .kDisconnecting
  · rw [if_pos hstate] at h
    subst h
    have hconn : s.connOp (.exec r) = some (c, .shutdownInLoop (s.isWriting c)) := by
      simp [connOp, htodo, hstate]
    exact ⟨by rw [hconn]; rfl, hconn ▸ possible_some trivial, (todo_pop htodo).trans hafter.symm,
      hqueue.symm, hid.symm, rfl⟩
  · rw [if_neg hstate] at h
    subst h
    exact effects_of_drop htodo (by simp [connOp, htodo, hstate]) hafter hqueue hid

/-- The next thing to do. -/
lemma effects_of_execOp {op : Op} (hop : s.todo.head? = some op)
    (h : s.pop.execOp r op = some (.ok s')) : Effects s (.exec r) s' := by
  obtain ⟨todo, htodo⟩ := List.head?_eq_some_iff.mp hop
  have hpop := todo_pop htodo
  cases op with
  | accept => exact effects_of_accept htodo h
  | handleRead c => exact effects_of_handleRead htodo h
  | handleWrite c => exact effects_of_handleWrite htodo h
  | shutdownIfDisconnecting c => exact effects_of_shutdownIfDisconnecting htodo h
  | handleClose c =>
      exact effects_of_handleClose htodo (Option.some.inj h) (by simp [connOp, htodo])
        (by simp [todoAfter, htodo]) (by simp [queueAfter, htodo]) (by simp [nextIdAfter, htodo])
  | handleError c =>
      obtain rfl : s.pop = s' := by simpa [execOp] using h
      exact effects_of_drop htodo (by simp [connOp, htodo]) (by simp [todoAfter, htodo])
        (by simp [queueAfter, htodo]) (by simp [nextIdAfter, htodo])
  | queueWriteComplete c =>
      obtain rfl : s.pop.queueInLoop (.writeComplete c) = s' := by simpa [execOp] using h
      have hconn : s.connOp (.exec r) = none := by simp [connOp, htodo]
      refine ⟨by rw [hconn]; rfl, by simp [hconn], hpop.trans ?_, ?_, ?_, rfl⟩
      · simp [todoAfter, htodo]
      · rw [queueAfter, htodo]
        exact queue_queueInLoop s.pop (.writeComplete c)
      · simp [nextIdAfter, htodo, queueInLoop, pop]
  | setDisconnecting c =>
      obtain rfl : (s.pop.setDisconnecting c).shutdownInLoop c = s' := by simpa [execOp] using h
      have hconn : s.connOp (.exec r) = some (c, .shutdown (s.isWriting c)) := by
        simp [connOp, htodo]
      refine ⟨?_, hconn ▸ possible_some trivial, hpop.trans ?_, ?_, ?_, rfl⟩
      · rw [hconn]
        simp [shutdownInLoop, setDisconnecting, setConn, setHist, perform, ConnOp.run, pop,
          isWriting]
      · simp [todoAfter, htodo]
      · simp [queueAfter, htodo, shutdownInLoop, setDisconnecting, setConn, setHist, pop]
      · simp [nextIdAfter, htodo, shutdownInLoop, setDisconnecting, setConn, setHist, pop]
  | user => simp [execOp] at h
  | removeChannel c =>
      obtain ⟨p, -, rfl⟩ := removeChannel_ok (Option.some.inj h)
      have hconn : s.connOp (.exec r) = none := by simp [connOp, htodo]
      refine ⟨by rw [hconn]; rfl, by simp [hconn], hpop.trans ?_, ?_, ?_, rfl⟩
      · simp [todoAfter, htodo]
      · simp [queueAfter, htodo, pop]
      · simp [nextIdAfter, htodo, pop]

end Exec

/-- Another thread goes on with its call. -/
lemma effects_of_resume {t : T} (hid : s.loop.threadId = .loop)
    (h : s.step (.resume t) = some (.ok s')) : Effects s (.resume t) s' := by
  have hne : Thread.other t ≠ s.loop.threadId := by simp [hid]
  simp only [step] at h
  cases hcall : s.calls t with
  | none => simp [hcall] at h
  | some call =>
      rw [hcall] at h
      cases call with
      | sendInLoop c message =>
          obtain ⟨s₁, hs₁, h⟩ := Option.map_eq_some_iff.mp h
          obtain ⟨e, he, rfl⟩ := Option.map_eq_some_iff.mp hs₁
          obtain rfl := Except.ok.inj h
          have hconn : s.connOp (.resume t) = none := by simp [connOp, hcall]
          refine ⟨by rw [hconn]; rfl, by simp [hconn], rfl, ?_, rfl, rfl⟩
          rw [queueAfter, hcall]
          exact (EventLoop.step_runInLoop_other hne he).1
      | setDisconnecting c =>
          obtain rfl := Except.ok.inj (Option.some.inj h)
          have hconn : s.connOp (.resume t) = some (c, .setState .kDisconnecting) := by
            simp [connOp, hcall]
          refine ⟨by rw [hconn]; rfl, hconn ▸ possible_some trivial, rfl, ?_, rfl, rfl⟩
          rw [queueAfter, hcall]
          rfl
      | shutdownInLoop c =>
          obtain ⟨s₁, hs₁, h⟩ := Option.map_eq_some_iff.mp h
          obtain ⟨e, he, rfl⟩ := Option.map_eq_some_iff.mp hs₁
          obtain rfl := Except.ok.inj h
          have hconn : s.connOp (.resume t) = none := by simp [connOp, hcall]
          refine ⟨by rw [hconn]; rfl, by simp [hconn], rfl, ?_, rfl, rfl⟩
          rw [queueAfter, hcall]
          exact (EventLoop.step_runInLoop_other hne he).1

/-- A functor of the batch is run. -/
lemma effects_of_run {nwrote : Option ℕ} (h : s.step (.run nwrote) = some (.ok s')) :
    Effects s (.run nwrote) s' := by
  simp only [step] at h
  split at h
  · exact absurd h (by simp)
  · rename_i cb functors hcb
    split_ifs at h with htodo
    obtain ⟨s₁, hs₁, h⟩ := Option.bind_eq_some_iff.mp h
    obtain ⟨e, he, rfl⟩ := Option.map_eq_some_iff.mp hs₁
    have hqueue : e.queue = s.queueAfter (.run nwrote) := by
      rw [queueAfter, (EventLoop.step_run hcb he).1, List.tail_cons]
    cases cb with
    | sendInLoop t c message =>
        simp only [runFunctor] at h
        split_ifs at h
        obtain ⟨hconns, htodo', hloop, hid, hwc⟩ :=
          sendInLoop_effects (s := s) (Option.some.inj h) rfl rfl rfl
        have hconn : s.connOp (.run nwrote) =
            some (c, .sendInLoop (s.isWriting c) message nwrote) := by simp [connOp, hcb]
        refine ⟨hconn ▸ hconns, hconn ▸ possible_some trivial, ?_, ?_, hid, hwc⟩
        · rw [todoAfter, hcb]
          exact htodo'
        · rw [hloop]
          exact hqueue
    | shutdownInLoop c =>
        obtain rfl := Except.ok.inj (Option.some.inj h)
        have hconn : s.connOp (.run nwrote) = some (c, .shutdownInLoop (s.isWriting c)) := by
          simp [connOp, hcb]
        refine ⟨by rw [hconn]; rfl, hconn ▸ possible_some trivial, ?_, hqueue, rfl, rfl⟩
        rw [todoAfter, hcb]
        rfl
    | connectDestroyed c =>
        obtain ⟨-, p, -, rfl⟩ := connectDestroyed_ok (Option.some.inj h)
        have hconn : s.connOp (.run nwrote) = some (c, .setState .kDisconnected) := by
          simp [connOp, hcb]
        refine ⟨by rw [hconn]; rfl, hconn ▸ possible_some trivial, ?_, hqueue, rfl, rfl⟩
        rw [todoAfter, hcb]
    | writeComplete c =>
        obtain rfl := Except.ok.inj (Option.some.inj h)
        have hconn : s.connOp (.run nwrote) = none := by simp [connOp, hcb]
        refine ⟨by rw [hconn]; rfl, by simp [hconn], ?_, hqueue, rfl, rfl⟩
        rw [todoAfter, hcb]
        rfl

omit [DecidableEq T] in
/-- A step of the loop alone. -/
lemma effects_of_loopStep {l : Label T} {e : EventLoop (Thread T) (ServerFunctor T)}
    (hqueue : e.queue = s.loop.queue) (hconn : s.connOp l = none) (htodo : s.todoAfter l = s.todo)
    (hafter : s.queueAfter l = s.loop.queue) (hid : s.nextIdAfter l = s.nextConnId) :
    Effects s l { s with loop := e } :=
  ⟨by rw [hconn]; rfl, by simp [hconn], htodo.symm, hqueue.trans hafter.symm, hid.symm, rfl⟩

/-- **Every step that succeeds does this.** -/
theorem effects_of_next {l : Label T} (hid : s.loop.threadId = .loop) (h : s.next l = some s') :
    Effects s l s' := by
  rw [next_eq_some] at h
  cases l with
  | send t c message =>
      simp only [step] at h
      split_ifs at h <;> obtain rfl := Except.ok.inj (Option.some.inj h)
      · exact ⟨rfl, by simp [connOp], rfl, rfl, rfl, rfl⟩
      · exact ⟨rfl, by simp [connOp], rfl, rfl, rfl, rfl⟩
  | shutdown t c =>
      simp only [step] at h
      split_ifs at h <;> obtain rfl := Except.ok.inj (Option.some.inj h)
      · exact ⟨rfl, by simp [connOp], rfl, rfl, rfl, rfl⟩
      · exact ⟨rfl, by simp [connOp], rfl, rfl, rfl, rfl⟩
  | resume t => exact effects_of_resume hid h
  | wakeup th =>
      obtain ⟨e, he, rfl⟩ := loopStep_map_ok h
      exact effects_of_loopStep (EventLoop.step_wakeup he).1 rfl rfl rfl rfl
  | test =>
      obtain ⟨e, he, rfl⟩ := loopStep_map_ok h
      exact effects_of_loopStep (EventLoop.step_test he).1 rfl rfl rfl rfl
  | swap =>
      obtain ⟨e, he, rfl⟩ := loopStep_map_ok h
      exact effects_of_loopStep (EventLoop.step_swap he).1 rfl rfl rfl rfl
  | poll events =>
      simp only [step] at h
      split_ifs at h
      obtain ⟨s₁, hs₁, h⟩ := Option.map_eq_some_iff.mp h
      obtain ⟨e, he, rfl⟩ := Option.map_eq_some_iff.mp hs₁
      obtain ⟨p, -, rfl⟩ := withPoller_ok h
      exact ⟨rfl, by simp [connOp], rfl, (EventLoop.step_pollReturn he).1, rfl, rfl⟩
  | dispatch =>
      simp only [step] at h
      split at h
      · exact absurd h (by simp)
      · rename_i ref active hactive
        split_ifs at h
        obtain rfl := Except.ok.inj (Option.some.inj h)
        refine ⟨rfl, by simp [connOp], ?_, rfl, rfl, rfl⟩
        rw [todoAfter, hactive]
  | exec r =>
      simp only [step] at h
      split at h
      · exact absurd h (by simp)
      · rename_i op todo htodo
        split_ifs at h
        have hpop : ({ s with todo := todo } : TcpServer T) = s.pop := by simp [pop, htodo]
        rw [hpop] at h
        exact effects_of_execOp (by simp [htodo]) h
  | userSend c message nwrote =>
      simp only [step] at h
      split_ifs at h with hguard hstate
      · obtain ⟨hconns, htodo, hloop, hid', hwc⟩ :=
          sendInLoop_effects (s := s) (Option.some.inj h) rfl rfl rfl
        have hconn : s.connOp (.userSend c message nwrote) =
            some (c, .sendInLoop (s.isWriting c) message nwrote) := by simp [connOp, hstate]
        refine ⟨hconn ▸ hconns, hconn ▸ possible_some trivial, ?_, by rw [hloop]; rfl, hid', hwc⟩
        rw [todoAfter, if_pos hstate]
        exact htodo
      · obtain rfl := Except.ok.inj (Option.some.inj h)
        have hconn : s.connOp (.userSend c message nwrote) = none := by simp [connOp, hstate]
        refine ⟨by rw [hconn]; rfl, by simp [hconn], ?_, rfl, rfl, rfl⟩
        rw [todoAfter, if_neg hstate]
  | userShutdown c =>
      simp only [step] at h
      split_ifs at h with hguard hstate <;> obtain rfl := Except.ok.inj (Option.some.inj h)
      · refine ⟨rfl, by simp [connOp], ?_, rfl, rfl, rfl⟩
        rw [todoAfter, if_pos hstate]
        rfl
      · refine ⟨rfl, by simp [connOp], ?_, rfl, rfl, rfl⟩
        rw [todoAfter, if_neg hstate]
  | userRetrieve c n =>
      simp only [step] at h
      split_ifs at h
      obtain rfl := Except.ok.inj (Option.some.inj h)
      exact ⟨rfl, possible_some trivial, rfl, rfl, rfl, rfl⟩
  | userReturn =>
      simp only [step] at h
      split_ifs at h
      obtain rfl := Except.ok.inj (Option.some.inj h)
      exact ⟨rfl, by simp [connOp], rfl, rfl, rfl, rfl⟩
  | handled =>
      simp only [step] at h
      split_ifs at h
      obtain ⟨e, he, rfl⟩ := loopStep_map_ok h
      exact effects_of_loopStep (EventLoop.step_handled he).1 rfl rfl rfl rfl
  | finish =>
      simp only [step] at h
      split_ifs at h
      obtain ⟨e, he, rfl⟩ := loopStep_map_ok h
      exact effects_of_loopStep (EventLoop.step_finish he).1 rfl rfl rfl rfl
  | run nwrote => exact effects_of_run h
  | release c =>
      simp only [step] at h
      split_ifs at h
      obtain rfl := Except.ok.inj (Option.some.inj h)
      exact ⟨rfl, by simp [connOp], rfl, rfl, rfl, rfl⟩

end TcpServer

end Tractor
