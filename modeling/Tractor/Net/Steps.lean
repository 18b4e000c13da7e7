import Tractor.Net.TcpServer

/-!
What the steps of a server do, said once.

* `sendInLoop_ok`, `handleWrite_ok`, `handleClose_ok`, `connectDestroyed_ok`,
  `removeChannel_ok`, `newConnection_ok`: the state a function leaves when its
  assertions held.
* `Move`: every step that succeeds is one of these moves (`move_of_next`).  Invariants
  are proved by cases on `Move`.
* `Fails`: every step that fails is one of these (`fails_of_failure`).
-/

namespace Tractor

open Library

namespace TcpServer

variable {T : Type} {s s' : TcpServer T} {c : ℕ}

/-! ### Functions that succeed -/

lemma withPoller_ok {r : Except PollFault (EPoller ChannelRef)} (h : s.withPoller r = .ok s') :
    ∃ p, r = .ok p ∧ s' = { s with poller := p } := by
  cases r with
  | error f => simp [withPoller] at h
  | ok p => exact ⟨p, rfl, (Except.ok.inj h).symm⟩

lemma bind_ok {ε α β : Type} {x : Except ε α} {f : α → Except ε β} {b : β}
    (h : (x >>= f) = .ok b) : ∃ a, x = .ok a ∧ f a = .ok b := by
  cases x with
  | error e => exact absurd h (by simp [bind, Except.bind])
  | ok a => exact ⟨a, rfl, h⟩

/-- `sendInLoop` hands the message to the connection, and enables the channel for writing
if something is left. -/
lemma sendInLoop_ok {th : Thread T} {message : List Byte} {nwrote : Option ℕ}
    (h : s.sendInLoop th c message nwrote = .ok s') :
    ∃ p ops, (ops = [] ∨ ops = [.queueWriteComplete c]) ∧
      ((((s.conns c).sendInLoop (s.isWriting c) message nwrote).2.2 = true ∧
          s.poller.enableWriting (.conn c) = .ok p) ∨
        (((s.conns c).sendInLoop (s.isWriting c) message nwrote).2.2 = false ∧ p = s.poller)) ∧
      s' = { s with
        poller := p
        conns := Function.update s.conns c
          ((s.conns c).sendInLoop (s.isWriting c) message nwrote).1
        hist := Function.update s.hist c
          { s.hist c with handled := (s.hist c).handled ++ [(th, message)] }
        todo := ops ++ s.todo } := by
  simp only [sendInLoop] at h
  generalize hr : (s.conns c).sendInLoop (s.isWriting c) message nwrote = r at h
  have hops : (if r.2.1 = true then s.writeCompleteOps c else []) = [] ∨
      (if r.2.1 = true then s.writeCompleteOps c else []) = [.queueWriteComplete c] := by
    by_cases hcomplete : r.2.1 = true <;> simp [writeCompleteOps, hcomplete]
  by_cases henable : r.2.2 = true
  · rw [if_pos henable] at h
    obtain ⟨p, hp, rfl⟩ := withPoller_ok h
    exact ⟨p, _, hops, Or.inl ⟨henable, hp⟩, rfl⟩
  · rw [if_neg henable] at h
    obtain rfl := Except.ok.inj h
    exact ⟨s.poller, _, hops, Or.inr ⟨by simpa using henable, rfl⟩, rfl⟩

/-- `handleWrite` on a channel that is writing. -/
lemma handleWrite_ok {nwrote : Option ℕ} (hw : s.isWriting c = true)
    (h : s.handleWrite c nwrote = .ok s') :
    (((s.conns c).handleWrite nwrote).2 = false ∧
        s' = s.setConn c ((s.conns c).handleWrite nwrote).1) ∨
      (((s.conns c).handleWrite nwrote).2 = true ∧ ∃ p ops,
        (ops = [] ∨ ops = [.queueWriteComplete c]) ∧
        s.poller.disableWriting (.conn c) = .ok p ∧
        s' = { s with
          poller := p
          conns := Function.update s.conns c ((s.conns c).handleWrite nwrote).1
          todo := ops ++ [.shutdownIfDisconnecting c] ++ s.todo }) := by
  simp only [handleWrite, hw, if_true] at h
  split_ifs at h with hdrained
  · obtain ⟨p, hp, rfl⟩ := withPoller_ok h
    refine Or.inr ⟨hdrained, p, s.writeCompleteOps c, ?_, hp, rfl⟩
    simp [writeCompleteOps]
  · obtain rfl := Except.ok.inj h
    exact Or.inl ⟨by simpa using hdrained, rfl⟩

/-- `handleClose_` takes the connection out of `connections_` and queues its
`connectDestroyed`. -/
lemma handleClose_ok [DecidableEq T] (h : s.handleClose c = .ok s') :
    (s.conns c).closable = true ∧ s.connections (s.conns c).name ≠ none ∧
      ∃ p, s.poller.disableAll (.conn c) = .ok p ∧
        s' = { s with
          poller := p
          hist := Function.update s.hist c
            { s.hist c with closeCalls := (s.hist c).closeCalls + 1, stage := .closed }
          connections := Function.update s.connections (s.conns c).name none
          loop := (s.queueInLoop (.connectDestroyed c)).loop } := by
  obtain ⟨hclosable, h⟩ := check_bind_eq_ok.mp h
  obtain ⟨s₁, hs₁, h⟩ := bind_ok h
  obtain ⟨p, hp, rfl⟩ := withPoller_ok hs₁
  obtain ⟨hname, h⟩ := check_bind_eq_ok.mp h
  obtain rfl := Except.ok.inj h
  exact ⟨hclosable, hname, p, hp, rfl⟩

lemma connectDestroyed_ok (h : s.connectDestroyed c = .ok s') :
    (s.conns c).closable = true ∧ ∃ p, s.poller.disableAll (.conn c) = .ok p ∧
      s' = { s with
        poller := p
        conns := Function.update s.conns c ((s.conns c).setState .kDisconnected)
        hist := Function.update s.hist c { s.hist c with stage := .destroying }
        todo := .user :: .removeChannel c :: s.todo } := by
  obtain ⟨hclosable, h⟩ := check_bind_eq_ok.mp h
  obtain ⟨s₁, hs₁, h⟩ := bind_ok h
  obtain ⟨p, hp, rfl⟩ := withPoller_ok hs₁
  obtain rfl := Except.ok.inj h
  exact ⟨hclosable, p, hp, rfl⟩

lemma removeChannel_ok (h : s.removeChannel c = .ok s') :
    ∃ p, s.poller.removeChannel (.conn c) = .ok p ∧
      s' = { s with
        poller := p
        hist := Function.update s.hist c { s.hist c with stage := .destroyed } } := by
  obtain ⟨p, hp, rfl⟩ := withPoller_ok h
  exact ⟨p, hp, rfl⟩

/-- A connection is built under the next number, entered in `connections_`, registered
for reading and passed to the user. -/
lemma newConnection_ok {sockfd : ℕ} (h : s.newConnection sockfd = .ok s') :
    s.nextConnId < intMax ∧ ∃ p,
      (s.poller.newChannel (.conn s.nextConnId) sockfd).enableReading (.conn s.nextConnId) =
        .ok p ∧
      s' = { s with
        nextConnId := s.nextConnId + 1
        openFds := Function.update s.openFds sockfd true
        poller := p
        connections := Function.update s.connections (s.connName s.nextConnId)
          (some s.nextConnId)
        conns := Function.update s.conns s.nextConnId
          ((TcpConnection.new (s.connName s.nextConnId)).setState .kConnected)
        hist := Function.update s.hist s.nextConnId
          { s.hist s.nextConnId with stage := .established }
        todo := .user :: s.todo } := by
  obtain ⟨hmax, h⟩ := check_bind_eq_ok.mp h
  obtain ⟨-, h⟩ := check_bind_eq_ok.mp h
  obtain ⟨s₁, hs₁, h⟩ := bind_ok h
  obtain ⟨p, hp, rfl⟩ := withPoller_ok hs₁
  obtain rfl := Except.ok.inj h
  refine ⟨hmax, p, hp, ?_⟩
  simp [setConn, setStage, setHist, doFirst, connName]

/-! ### Functions that fail -/

lemma withPoller_error {r : Except PollFault (EPoller ChannelRef)} {f : ServerFault}
    (h : s.withPoller r = .error f) : ∃ pf, r = .error pf ∧ f = .poller pf := by
  cases r with
  | error pf => exact ⟨pf, rfl, (Except.error.inj h).symm⟩
  | ok p => simp [withPoller] at h

lemma bind_error {ε α β : Type} {x : Except ε α} {g : α → Except ε β} {e : ε}
    (h : (x >>= g) = .error e) : x = .error e ∨ ∃ a, x = .ok a ∧ g a = .error e := by
  cases x with
  | error e' => exact Or.inl (by simpa [bind, Except.bind] using h)
  | ok a => exact Or.inr ⟨a, rfl, h⟩

lemma sendInLoop_error {th : Thread T} {message : List Byte} {nwrote : Option ℕ} {f : ServerFault}
    (h : s.sendInLoop th c message nwrote = .error f) :
    ∃ pf, s.poller.enableWriting (.conn c) = .error pf ∧ f = .poller pf := by
  simp only [sendInLoop] at h
  by_cases henable : ((s.conns c).sendInLoop (s.isWriting c) message nwrote).2.2 = true
  · rw [if_pos henable] at h
    exact withPoller_error h
  · rw [if_neg henable] at h
    simp [pure, Except.pure] at h

lemma handleWrite_error {nwrote : Option ℕ} {f : ServerFault}
    (h : s.handleWrite c nwrote = .error f) :
    ∃ pf, s.poller.disableWriting (.conn c) = .error pf ∧ f = .poller pf := by
  simp only [handleWrite] at h
  split_ifs at h
  · exact withPoller_error h
  · simp [pure, Except.pure] at h
  · simp [pure, Except.pure] at h

lemma handleClose_error [DecidableEq T] {f : ServerFault} (h : s.handleClose c = .error f) :
    ((s.conns c).closable = false ∧ f = .handleClose) ∨
      (∃ pf, s.poller.disableAll (.conn c) = .error pf ∧ f = .poller pf) ∨
      ((s.conns c).closable = true ∧ s.connections (s.conns c).name = none ∧
        f = .removeConnectionInLoop) := by
  rcases check_bind_eq_error.mp h with ⟨hnot, hf⟩ | ⟨hclosable, h⟩
  · exact Or.inl ⟨by simpa using hnot, hf.symm⟩
  · rcases bind_error h with h | ⟨s₁, hs₁, h⟩
    · exact Or.inr (Or.inl (withPoller_error h))
    · obtain ⟨p, -, rfl⟩ := withPoller_ok hs₁
      rcases check_bind_eq_error.mp h with ⟨hnot, hf⟩ | ⟨-, h⟩
      · exact Or.inr (Or.inr ⟨hclosable, not_ne_iff.mp hnot, hf.symm⟩)
      · simp [pure, Except.pure] at h

lemma connectDestroyed_error {f : ServerFault} (h : s.connectDestroyed c = .error f) :
    ((s.conns c).closable = false ∧ f = .connectDestroyed) ∨
      ∃ pf, s.poller.disableAll (.conn c) = .error pf ∧ f = .poller pf := by
  rcases check_bind_eq_error.mp h with ⟨hnot, hf⟩ | ⟨-, h⟩
  · exact Or.inl ⟨by simpa using hnot, hf.symm⟩
  · rcases bind_error h with h | ⟨s₁, -, h⟩
    · exact Or.inr (withPoller_error h)
    · simp [pure, Except.pure] at h

/-- The assertion of `connectEstablished` holds for the connection that was just built. -/
lemma newConnection_error {sockfd : ℕ} {f : ServerFault} (h : s.newConnection sockfd = .error f) :
    (¬ s.nextConnId < intMax ∧ f = .connIdOverflow) ∨ ∃ pf,
      (s.poller.newChannel (.conn s.nextConnId) sockfd).enableReading (.conn s.nextConnId) =
        .error pf ∧ f = .poller pf := by
  rcases check_bind_eq_error.mp h with ⟨hnot, hf⟩ | ⟨-, h⟩
  · exact Or.inl ⟨hnot, hf.symm⟩
  · rcases check_bind_eq_error.mp h with ⟨hnot, -⟩ | ⟨-, h⟩
    · simp [setConn, setStage, setHist, TcpConnection.new] at hnot
    · rcases bind_error h with h | ⟨s₁, -, h⟩
      · exact Or.inr (withPoller_error h)
      · simp [pure, Except.pure] at h

/-! ### Moves -/

section Moves

variable [DecidableEq T]

/-- The state behind the first thing to do. -/
def pop (s : TcpServer T) : TcpServer T := { s with todo := s.todo.tail }

/-- How the loop's thread goes on in `loop()` without running anything: it leaves the
handlers and the functors only when they are done. -/
inductive GoesOn (s : TcpServer T) : LoopPc (ServerFunctor T) → Prop
  | same : GoesOn s s.loop.pc
  | tested {pc : LoopPc (ServerFunctor T)} (hpc : s.loop.pc = .testing)
      (hpc' : pc = .outside ∨ pc = .polling) : GoesOn s pc
  | handled (hpc : s.loop.pc = .handling) (htodo : s.todo = []) (hactive : s.active = []) :
      GoesOn s .draining
  | swapped (hpc : s.loop.pc = .draining) : GoesOn s (.running s.loop.queue)
  | finished (hpc : s.loop.pc = .running []) (htodo : s.todo = []) : GoesOn s .testing

/-- Every way a server can move, with what each step has checked. -/
inductive Move (s : TcpServer T) : Label T → TcpServer T → Prop
  /-- A call that does nothing. -/
  | refused {l : Label T} : Move s l s
  /-- `send` in another thread passed its check. -/
  | accepted {t : T} {c : ℕ} {message : List Byte} (hcall : s.calls t = none)
      (husable : s.usable c = true) (hstate : (s.conns c).state = .kConnected) :
      Move s (.send t c message)
        ((s.accept (.other t) c message).setCall t (some (.sendInLoop c message)))
  /-- `shutdown` in another thread passed its check. -/
  | checked {t : T} {c : ℕ} (hcall : s.calls t = none) (husable : s.usable c = true)
      (hstate : (s.conns c).state = .kConnected) :
      Move s (.shutdown t c) (s.setCall t (some (.setDisconnecting c)))
  /-- Another thread pushes the message or the shutdown of its call. -/
  | pushed {t : T} {cb : ServerFunctor T} {e : EventLoop (Thread T) (ServerFunctor T)}
      (hcall : (∃ c message, s.calls t = some (.sendInLoop c message) ∧
          cb = .sendInLoop t c message) ∨
        ∃ c, s.calls t = some (.shutdownInLoop c) ∧ cb = .shutdownInLoop c)
      (hqueue : e.queue = s.loop.queue ++ [cb]) (hpc : e.pc = s.loop.pc)
      (hid : e.threadId = s.loop.threadId) :
      Move s (.resume t) (setCall { s with loop := e } t none)
  /-- Another thread sets `kDisconnecting`. -/
  | disconnecting {t : T} {c : ℕ} (hcall : s.calls t = some (.setDisconnecting c)) :
      Move s (.resume t) ((s.setDisconnecting c).setCall t (some (.shutdownInLoop c)))
  /-- The loop moves without touching its queue. -/
  | looped {l : Label T} {e : EventLoop (Thread T) (ServerFunctor T)}
      (hqueue : e.queue = s.loop.queue) (hid : e.threadId = s.loop.threadId)
      (hpc : GoesOn s e.pc) : Move s l { s with loop := e }
  /-- `poll` returns. -/
  | polled {events : List (ChannelRef × Mask)} {e : EventLoop (Thread T) (ServerFunctor T)}
      {p : EPoller ChannelRef} (hrep : s.reportable events = true)
      (hpc : s.loop.pc = .polling) (hpc' : e.pc = .handling)
      (hqueue : e.queue = s.loop.queue) (hid : e.threadId = s.loop.threadId)
      (hfill : s.poller.fillActiveChannels events = .ok p) :
      Move s (.poll events) { s with loop := e, poller := p, active := events.map Prod.fst }
  /-- The next active channel is handled. -/
  | dispatched {ref : ChannelRef} {active : List ChannelRef} (hactive : s.active = ref :: active)
      (htodo : s.todo = []) :
      Move s .dispatch { s with active := active, todo := s.eventOps ref }
  /-- Something that has no effect, or the end of a user's callback. -/
  | dropped {l : Label T} {op : Op} {todo : List Op} (htodo : s.todo = op :: todo)
      (hop : ∀ c, op ≠ .removeChannel c) : Move s l s.pop
  /-- A connection is accepted. -/
  | connected {r : Results} {todo : List Op} {sockfd : ℕ} {s' : TcpServer T}
      (htodo : s.todo = .accept :: todo) (hfd : s.openFds sockfd = false)
      (h : s.pop.newConnection sockfd = .ok s') : Move s (.exec r) s'
  /-- A connection is closed, by an event or by the end of its input. -/
  | closed {r : Results} {op : Op} {todo : List Op} {c : ℕ} {s' : TcpServer T}
      (htodo : s.todo = op :: todo)
      (hop : op = .handleClose c ∨ op = .handleRead c ∧ r.read = .eof)
      (h : s.pop.handleClose c = .ok s') : Move s (.exec r) s'
  /-- Bytes are read and passed to the user. -/
  | read {r : Results} {todo : List Op} {c : ℕ} {bytes : List Byte}
      (htodo : s.todo = .handleRead c :: todo) :
      Move s (.exec r) ((s.pop.setConn c
        { s.conns c with inputBuffer := (s.conns c).inputBuffer ++ bytes }).doFirst [.user])
  /-- Buffered bytes are written. -/
  | wrote {r : Results} {todo : List Op} {c : ℕ} {s' : TcpServer T}
      (htodo : s.todo = .handleWrite c :: todo) (hw : s.isWriting c = true)
      (h : s.pop.handleWrite c r.write = .ok s') : Move s (.exec r) s'
  /-- `handleWrite_` finds `kDisconnecting`. -/
  | shutDrained {r : Results} {todo : List Op} {c : ℕ}
      (htodo : s.todo = .shutdownIfDisconnecting c :: todo)
      (hstate : (s.conns c).state = .kDisconnecting) : Move s (.exec r) (s.pop.shutdownInLoop c)
  /-- The write-complete callback is queued. -/
  | completed {r : Results} {todo : List Op} {c : ℕ}
      (htodo : s.todo = .queueWriteComplete c :: todo) :
      Move s (.exec r) (s.pop.queueInLoop (.writeComplete c))
  /-- `shutdown` in the loop's thread goes on. -/
  | shutDirect {r : Results} {todo : List Op} {c : ℕ}
      (htodo : s.todo = .setDisconnecting c :: todo) :
      Move s (.exec r) ((s.pop.setDisconnecting c).shutdownInLoop c)
  /-- `connectDestroyed` ends. -/
  | removed {r : Results} {todo : List Op} {c : ℕ} {s' : TcpServer T}
      (htodo : s.todo = .removeChannel c :: todo) (h : s.pop.removeChannel c = .ok s') :
      Move s (.exec r) s'
  /-- The user sends in the loop's thread. -/
  | userSent {c : ℕ} {message : List Byte} {nwrote : Option ℕ} {todo : List Op}
      {s' : TcpServer T} (htodo : s.todo = .user :: todo) (husable : s.usable c = true)
      (hstate : (s.conns c).state = .kConnected)
      (h : (s.accept .loop c message).sendInLoop .loop c message nwrote = .ok s') :
      Move s (.userSend c message nwrote) s'
  /-- The user shuts down in the loop's thread. -/
  | userShut {c : ℕ} {todo : List Op} (htodo : s.todo = .user :: todo)
      (husable : s.usable c = true) (hstate : (s.conns c).state = .kConnected) :
      Move s (.userShutdown c) (s.doFirst [.setDisconnecting c])
  /-- The user takes bytes out of the input buffer. -/
  | userRead {c n : ℕ} : Move s (.userRetrieve c n)
      (s.setConn c { s.conns c with inputBuffer := (s.conns c).inputBuffer.drop n })
  /-- The next functor of the batch is run. -/
  | ran {nwrote : Option ℕ} {cb : ServerFunctor T} {functors : List (ServerFunctor T)}
      {e : EventLoop (Thread T) (ServerFunctor T)} {s' : TcpServer T} (htodo : s.todo = [])
      (hqueue : s.loop.queue = cb :: e.queue) (hpc : s.loop.pc = .running (cb :: functors))
      (hpc' : e.pc = .running functors)
      (hid : e.threadId = s.loop.threadId)
      (h : runFunctor { s with loop := e } nwrote cb = some (.ok s')) : Move s (.run nwrote) s'
  /-- A destroyed connection is released and its descriptor closed. -/
  | released {c : ℕ} (hstage : (s.hist c).stage = .destroyed) :
      Move s (.release c) (setStage { s with
        poller := s.poller.close (s.fd c)
        openFds := Function.update s.openFds (s.fd c) false } c .released)

lemma next_eq_some {l : Label T} : s.next l = some s' ↔ s.step l = some (.ok s') := by
  rw [next]
  cases h : s.step l with
  | none => simp
  | some r =>
      cases r with
      | error f => simp
      | ok s₁ => simp

/-- A thing to do that succeeds. -/
lemma move_of_execOp {r : Results} {op : Op} {todo : List Op} (htodo : s.todo = op :: todo)
    (h : execOp { s with todo := todo } r op = some (.ok s')) : Move s (.exec r) s' := by
  have hpop : ({ s with todo := todo } : TcpServer T) = s.pop := by simp [pop, htodo]
  rw [hpop] at h
  cases op with
  | accept =>
      simp only [execOp] at h
      split_ifs at h with hfd
      cases hr : r.accept with
      | none =>
          rw [hr] at h
          obtain rfl : s.pop = s' := by simpa [handleAccept, pure, Except.pure] using h
          exact .dropped htodo (by simp)
      | some sockfd =>
          rw [hr] at h hfd
          exact .connected htodo (by simpa [pop] using hfd) (Option.some.inj h)
  | handleClose c => exact .closed htodo (Or.inl rfl) (Option.some.inj h)
  | handleError c =>
      obtain rfl : s.pop = s' := by simpa [execOp] using h
      exact .dropped htodo (by simp)
  | handleRead c =>
      simp only [execOp, Option.some.injEq] at h
      cases hr : r.read with
      | data bytes =>
          rw [hr] at h
          obtain rfl := Except.ok.inj h
          exact .read htodo
      | eof =>
          rw [hr] at h
          exact .closed htodo (Or.inr ⟨rfl, hr⟩) h
      | error =>
          rw [hr] at h
          obtain rfl := Except.ok.inj h
          exact .dropped htodo (by simp)
  | handleWrite c =>
      simp only [execOp] at h
      split_ifs at h
      rw [Option.some.injEq] at h
      by_cases hw : s.isWriting c = true
      · exact .wrote htodo hw h
      · rw [handleWrite, if_neg (by simpa [pop, isWriting] using hw)] at h
        obtain rfl := Except.ok.inj h
        exact .dropped htodo (by simp)
  | shutdownIfDisconnecting c =>
      simp only [execOp, Option.some.injEq, Except.ok.injEq] at h
      split_ifs at h with hstate
      · subst h
        exact .shutDrained htodo hstate
      · subst h
        exact .dropped htodo (by simp)
  | queueWriteComplete c =>
      obtain rfl : s.pop.queueInLoop (.writeComplete c) = s' := by simpa [execOp] using h
      exact .completed htodo
  | setDisconnecting c =>
      obtain rfl : (s.pop.setDisconnecting c).shutdownInLoop c = s' := by simpa [execOp] using h
      exact .shutDirect htodo
  | user => simp [execOp] at h
  | removeChannel c => exact .removed htodo (Option.some.inj h)

/-- A step of the loop alone, as the server's step. -/
lemma loopStep_map_ok {l : EventLoop.Label (Thread T) (ServerFunctor T)}
    (h : (s.loopStep l).map Except.ok = some (Except.ok s' : Except ServerFault _)) :
    ∃ e, s.loop.step l = some e ∧ s' = { s with loop := e } := by
  simp only [loopStep, Option.map_map, Option.map_eq_some_iff, Function.comp_apply,
    Except.ok.injEq] at h
  obtain ⟨e, he, rfl⟩ := h
  exact ⟨e, he, rfl⟩

/-- **Every step that succeeds is a move.** -/
theorem move_of_next {l : Label T} (hid : s.loop.threadId = .loop) (h : s.next l = some s') :
    Move s l s' := by
  rw [next_eq_some] at h
  cases l with
  | send t c message =>
      simp only [step] at h
      split_ifs at h with hcan hstate
      · simp only [canCall, Bool.decide_and, Bool.decide_eq_true, Bool.and_eq_true,
          decide_eq_true_eq] at hcan
        obtain rfl := Except.ok.inj (Option.some.inj h)
        exact .accepted hcan.1 hcan.2.2 hstate
      · obtain rfl := Except.ok.inj (Option.some.inj h)
        exact .refused
  | shutdown t c =>
      simp only [step] at h
      split_ifs at h with hcan hstate
      · simp only [canCall, Bool.decide_and, Bool.decide_eq_true, Bool.and_eq_true,
          decide_eq_true_eq] at hcan
        obtain rfl := Except.ok.inj (Option.some.inj h)
        exact .checked hcan.1 hcan.2.2 hstate
      · obtain rfl := Except.ok.inj (Option.some.inj h)
        exact .refused
  | resume t =>
      have hother : (Thread.other t : Thread T) ≠ s.loop.threadId := by rw [hid]; simp
      simp only [step] at h
      split at h
      · rename_i c message hcall
        simp only [loopStep, Option.map_map, Option.map_eq_some_iff, Function.comp_apply,
          Except.ok.injEq] at h
        obtain ⟨e, he, rfl⟩ := h
        obtain ⟨hqueue, hpc, hid'⟩ := EventLoop.step_runInLoop_other hother he
        exact .pushed (Or.inl ⟨c, message, hcall, rfl⟩) hqueue hpc hid'
      · rename_i c hcall
        obtain rfl := Except.ok.inj (Option.some.inj h)
        exact .disconnecting hcall
      · rename_i c hcall
        simp only [loopStep, Option.map_map, Option.map_eq_some_iff, Function.comp_apply,
          Except.ok.injEq] at h
        obtain ⟨e, he, rfl⟩ := h
        obtain ⟨hqueue, hpc, hid'⟩ := EventLoop.step_runInLoop_other hother he
        exact .pushed (Or.inr ⟨c, hcall, rfl⟩) hqueue hpc hid'
      · exact absurd h (by simp)
  | wakeup th =>
      obtain ⟨e, he, rfl⟩ := loopStep_map_ok h
      obtain ⟨hqueue, hpc, hid'⟩ := EventLoop.step_wakeup he
      exact .looped hqueue hid' (hpc ▸ .same)
  | test =>
      obtain ⟨e, he, rfl⟩ := loopStep_map_ok h
      obtain ⟨hqueue, hpc, hpc', hid'⟩ := EventLoop.step_test he
      exact .looped hqueue hid' (.tested hpc hpc')
  | poll events =>
      simp only [step] at h
      split_ifs at h with hrep
      simp only [loopStep, Option.map_map, Option.map_eq_some_iff, Function.comp_apply] at h
      obtain ⟨e, he, h⟩ := h
      obtain ⟨hqueue, hpc, hpc', hid'⟩ := EventLoop.step_pollReturn he
      obtain ⟨p, hp, rfl⟩ := withPoller_ok h
      exact .polled hrep hpc hpc' hqueue hid' hp
  | dispatch =>
      simp only [step] at h
      split at h
      · exact absurd h (by simp)
      · rename_i ref active hactive
        split_ifs at h with hguard
        obtain rfl := Except.ok.inj (Option.some.inj h)
        exact .dispatched hactive hguard.2
  | exec r =>
      simp only [step] at h
      split at h
      · exact absurd h (by simp)
      · rename_i op todo htodo
        split_ifs at h
        exact move_of_execOp htodo h
  | userSend c message nwrote =>
      simp only [step] at h
      split_ifs at h with hguard hstate
      · obtain ⟨todo, htodo⟩ := List.head?_eq_some_iff.mp hguard.2.1
        exact .userSent htodo hguard.2.2.1 hstate (Option.some.inj h)
      · obtain rfl := Except.ok.inj (Option.some.inj h)
        exact .refused
  | userShutdown c =>
      simp only [step] at h
      split_ifs at h with hguard hstate <;> obtain rfl := Except.ok.inj (Option.some.inj h)
      · obtain ⟨todo, htodo⟩ := List.head?_eq_some_iff.mp hguard.2.1
        exact .userShut htodo hguard.2.2 hstate
      · exact .refused
  | userRetrieve c n =>
      simp only [step] at h
      split_ifs at h
      obtain rfl := Except.ok.inj (Option.some.inj h)
      exact .userRead
  | userReturn =>
      simp only [step] at h
      split_ifs at h with hguard
      obtain rfl := Except.ok.inj (Option.some.inj h)
      obtain ⟨todo, htodo⟩ := List.head?_eq_some_iff.mp hguard.2
      exact .dropped htodo (by simp)
  | handled =>
      simp only [step] at h
      split_ifs at h with hguard
      obtain ⟨e, he, rfl⟩ := loopStep_map_ok h
      obtain ⟨hqueue, hpc, hpc', hid'⟩ := EventLoop.step_handled he
      exact .looped hqueue hid' (hpc' ▸ .handled hpc hguard.1 hguard.2)
  | swap =>
      obtain ⟨e, he, rfl⟩ := loopStep_map_ok h
      obtain ⟨hqueue, hpc, hpc', hid'⟩ := EventLoop.step_swap he
      exact .looped hqueue hid' (hpc' ▸ .swapped hpc)
  | run nwrote =>
      simp only [step] at h
      split at h
      · exact absurd h (by simp)
      · rename_i cb functors hcb
        split_ifs at h with htodo
        obtain ⟨s₁, hs₁, h⟩ := Option.bind_eq_some_iff.mp h
        obtain ⟨e, he, rfl⟩ := Option.map_eq_some_iff.mp hs₁
        obtain ⟨hqueue, hpc, hpc', hid'⟩ := EventLoop.step_run hcb he
        exact .ran htodo hqueue hpc hpc' hid' h
  | finish =>
      simp only [step] at h
      split_ifs at h with htodo
      obtain ⟨e, he, rfl⟩ := loopStep_map_ok h
      obtain ⟨hqueue, hpc, hpc', hid'⟩ := EventLoop.step_finish he
      exact .looped hqueue hid' (hpc' ▸ .finished hpc htodo)
  | release c =>
      simp only [step] at h
      split_ifs at h with hstage
      obtain rfl := Except.ok.inj (Option.some.inj h)
      exact .released hstage

/-! ### Steps that fail -/

/-- The connection whose `handleClose_` the step enters. -/
def closing (s : TcpServer T) : Label T → Option ℕ
  | .exec r =>
      match s.todo, r.read with
      | .handleClose c :: _, _ => some c
      | .handleRead c :: _, .eof => some c
      | _, _ => none
  | _ => none

lemma failure_eq_some {l : Label T} {f : ServerFault} :
    s.failure l = some f ↔ s.step l = some (.error f) := by
  rw [failure]
  cases h : s.step l with
  | none => simp
  | some r =>
      cases r with
      | error f' => simp
      | ok s₁ => simp

/-- Every way an assertion can fail. -/
inductive Fails (s : TcpServer T) (f : ServerFault) : Label T → Prop
  | polled {events : List (ChannelRef × Mask)} {pf : PollFault}
      (hrep : s.reportable events = true) (h : s.poller.fillActiveChannels events = .error pf)
      (hf : f = .poller pf) : Fails s f (.poll events)
  | connected {r : Results} {todo : List Op} {sockfd : ℕ} (htodo : s.todo = .accept :: todo)
      (hr : r.accept = some sockfd) (hfd : s.openFds sockfd = false)
      (h : s.pop.newConnection sockfd = .error f) : Fails s f (.exec r)
  | closed {l : Label T} {c : ℕ} (hclosing : s.closing l = some c)
      (h : s.pop.handleClose c = .error f) : Fails s f l
  | wrote {r : Results} {todo : List Op} {c : ℕ} (htodo : s.todo = .handleWrite c :: todo)
      (h : s.pop.handleWrite c r.write = .error f) : Fails s f (.exec r)
  | removed {r : Results} {todo : List Op} {c : ℕ} (htodo : s.todo = .removeChannel c :: todo)
      (h : s.pop.removeChannel c = .error f) : Fails s f (.exec r)
  | userSent {c : ℕ} {message : List Byte} {nwrote : Option ℕ} (husable : s.usable c = true)
      (hstate : (s.conns c).state = .kConnected)
      (h : (s.accept .loop c message).sendInLoop .loop c message nwrote = .error f) :
      Fails s f (.userSend c message nwrote)
  | ran {nwrote : Option ℕ} {cb : ServerFunctor T} {e : EventLoop (Thread T) (ServerFunctor T)}
      (htodo : s.todo = []) (hqueue : s.loop.queue = cb :: e.queue)
      (h : runFunctor { s with loop := e } nwrote cb = some (.error f)) : Fails s f (.run nwrote)

/-- A thing to do that fails. -/
lemma fails_of_execOp {r : Results} {op : Op} {todo : List Op} {f : ServerFault}
    (htodo : s.todo = op :: todo)
    (h : execOp { s with todo := todo } r op = some (.error f)) : Fails s f (.exec r) := by
  have hpop : ({ s with todo := todo } : TcpServer T) = s.pop := by simp [pop, htodo]
  rw [hpop] at h
  cases op with
  | accept =>
      simp only [execOp] at h
      split_ifs at h with hfd
      cases hr : r.accept with
      | none => simp [hr, handleAccept, pure, Except.pure] at h
      | some sockfd =>
          rw [hr] at h hfd
          exact .connected htodo hr (by simpa [pop] using hfd) (Option.some.inj h)
  | handleClose c => exact .closed (by simp [closing, htodo]) (Option.some.inj h)
  | handleRead c =>
      simp only [execOp, Option.some.injEq] at h
      cases hr : r.read with
      | data bytes => simp [hr, handleRead, pure, Except.pure] at h
      | eof =>
          rw [hr] at h
          exact .closed (by simp [closing, htodo, hr]) h
      | error => simp [hr, handleRead, pure, Except.pure] at h
  | handleWrite c =>
      simp only [execOp] at h
      split_ifs at h
      exact .wrote htodo (Option.some.inj h)
  | removeChannel c => exact .removed htodo (Option.some.inj h)
  | handleError | shutdownIfDisconnecting | queueWriteComplete | setDisconnecting | user =>
      simp [execOp] at h

/-- **Every step that fails is one of these.** -/
theorem fails_of_failure {l : Label T} {f : ServerFault} (h : s.failure l = some f) :
    Fails s f l := by
  rw [failure_eq_some] at h
  cases l with
  | poll events =>
      simp only [step] at h
      split_ifs at h with hrep
      simp only [loopStep, Option.map_map, Option.map_eq_some_iff, Function.comp_apply] at h
      obtain ⟨e, -, h⟩ := h
      cases hfill : s.poller.fillActiveChannels events with
      | ok p => simp [hfill, withPoller] at h
      | error pf =>
          simp only [hfill, withPoller, Except.error.injEq] at h
          exact .polled hrep hfill h.symm
  | exec r =>
      simp only [step] at h
      split at h
      · exact absurd h (by simp)
      · rename_i op todo htodo
        split_ifs at h
        exact fails_of_execOp htodo h
  | userSend c message nwrote =>
      simp only [step] at h
      split_ifs at h with hguard hstate
      · exact .userSent hguard.2.2.1 hstate (Option.some.inj h)
      · exact absurd h (by simp)
  | run nwrote =>
      simp only [step] at h
      split at h
      · exact absurd h (by simp)
      · rename_i cb functors hcb
        split_ifs at h with htodo
        obtain ⟨s₁, hs₁, h⟩ := Option.bind_eq_some_iff.mp h
        obtain ⟨e, he, rfl⟩ := Option.map_eq_some_iff.mp hs₁
        exact .ran htodo (EventLoop.step_run hcb he).1 h
  | resume t =>
      simp only [step] at h
      split at h <;> simp [Option.map_eq_some_iff] at h
  | dispatch =>
      simp only [step] at h
      split at h
      · exact absurd h (by simp)
      · split_ifs at h
        exact absurd h (by simp)
  | send | shutdown | userShutdown | userRetrieve | userReturn | handled | finish | release =>
      simp only [step] at h
      split_ifs at h <;> simp [Option.map_eq_some_iff] at h
  | wakeup | test | swap => simp [step, Option.map_eq_some_iff] at h

end Moves

end TcpServer

end Tractor
