import Tractor.Net.EPoller
import Tractor.Net.EventLoop
import Tractor.Net.TcpConnection

/-!
A single-loop `TcpServer`: `src/TcpServer.cpp` with the acceptor, the connections, the
poller and the loop they run in, and other threads that call `send` and `shutdown`.

A step is what runs without another thread coming in between: it reads or writes
`state_`, or pushes to the functor queue, at most once.  So `send` in another thread is
a check and a push, `shutdown` a check, an assignment and a push, and what the loop's
thread still has to do of the handler or functor it is in is the list `todo`.  The
user's callbacks run in the loop's thread (`Op.user`) and call `send` and `shutdown` on
any connection and take bytes out of its input buffer.

The results of system calls come with the labels: which events are polled (for
descriptors in the epoll set, each at most once), what `accept` returns (a descriptor
that is not open), what is read, and how much of each write is accepted.  A connection
may be released, which closes its descriptor, at any time after `connectDestroyed`.

* `step`: `none` if the label is not possible, otherwise the next state or the assertion
  that failed.
* `History`: for the record, where each connection stands in its life, the messages
  `send` accepted from each thread, and those `sendInLoop` has taken over.
-/

namespace Tractor

open Library

/-! ### Names of things -/

/-- The loop's own thread, and the others. -/
inductive Thread (T : Type) where
  | loop
  | other (t : T)
  deriving DecidableEq

/-- The channels of a server: the acceptor's, and one for each connection. -/
inductive ChannelRef where
  | acceptor
  | conn (c : ℕ)
  deriving DecidableEq

/-- The functors a server queues.  A message remembers the thread that sent it. -/
inductive ServerFunctor (T : Type) where
  | sendInLoop (t : T) (c : ℕ) (message : List Byte)
  | shutdownInLoop (c : ℕ)
  | connectDestroyed (c : ℕ)
  | writeComplete (c : ℕ)
  deriving DecidableEq

/-- The message a functor holds for connection `c`, with its sender. -/
def ServerFunctor.sendTo {T : Type} (c : ℕ) : ServerFunctor T → Option (Thread T × List Byte)
  | sendInLoop t c' message => if c' = c then some (.other t, message) else none
  | _ => none

/-- What another thread still has to do of its call of `send` or `shutdown`. -/
inductive Call where
  | sendInLoop (c : ℕ) (message : List Byte)
  | setDisconnecting (c : ℕ)
  | shutdownInLoop (c : ℕ)
  deriving DecidableEq

/-- What the loop's thread still has to do of a handler or functor. -/
inductive Op where
  | accept
  | handleClose (c : ℕ)
  | handleError (c : ℕ)
  | handleRead (c : ℕ)
  | handleWrite (c : ℕ)
  | shutdownIfDisconnecting (c : ℕ)
  | queueWriteComplete (c : ℕ)
  | setDisconnecting (c : ℕ)
  | user
  | removeChannel (c : ℕ)
  deriving DecidableEq

/-- The assertions of the server, and the overflow of `nextConnId_`. -/
inductive ServerFault where
  | connectEstablished
  | handleClose
  | connectDestroyed
  | removeConnectionInLoop
  | connIdOverflow
  | poller (f : PollFault)
  deriving DecidableEq

/-- What `readFd` does: it reads bytes, finds the end of the stream, or fails. -/
inductive ReadResult where
  | data (bytes : List Byte)
  | eof
  | error

/-- What the system calls of a step return. -/
structure Results where
  accept : Option ℕ
  read : ReadResult
  write : Option ℕ

/-- The largest `int`. -/
def intMax : ℕ := 2147483647

/-! ### The state -/

/-- Where a connection stands in its life: not built, established, closed with its
`connectDestroyed` queued, inside `connectDestroyed`, past it, and released. -/
inductive Stage where
  | fresh
  | established
  | closed
  | destroying
  | destroyed
  | released
  deriving DecidableEq

/-- The record kept of a connection: its stage, the calls of `closeCallback_`, the
messages accepted from each thread in the order of its calls, the messages `sendInLoop`
has taken over, and those it had or the queue held when `state_` became
`kDisconnecting`. -/
structure History (T : Type) where
  stage : Stage
  closeCalls : ℕ
  accepted : Thread T → List (List Byte)
  handled : List (Thread T × List Byte)
  before : Option (List (Thread T × List Byte))

def History.new {T : Type} : History T := ⟨.fresh, 0, fun _ => [], [], none⟩

/-- A server with its loop. -/
structure TcpServer (T : Type) where
  name : String
  hasWriteComplete : Bool
  loop : EventLoop (Thread T) (ServerFunctor T)
  poller : EPoller ChannelRef
  conns : ℕ → TcpConnection
  connections : String → Option ℕ
  nextConnId : ℕ
  openFds : ℕ → Bool
  active : List ChannelRef
  todo : List Op
  calls : T → Option Call
  hist : ℕ → History T

namespace TcpServer

variable {T : Type}

/-- The server behind `start()` and at the top of `loop()`: the acceptor listens on
`acceptFd`. -/
def start (name : String) (acceptFd : ℕ) (hasWriteComplete : Bool) : TcpServer T where
  name := name
  hasWriteComplete := hasWriteComplete
  loop := { EventLoop.new .loop with looping := true, pc := .testing }
  poller :=
    { chan := Function.update (fun _ => Channel.new 0) .acceptor
        ⟨acceptFd, Channel.kReadEvent, 0, .kAdded⟩
      channels := Function.update (fun _ => none) acceptFd (some .acceptor)
      epoll := Function.update (fun _ => none) acceptFd (some (Channel.kReadEvent, .acceptor))
      eventListSize := 16
      ctls := [(.add, acceptFd)] }
  conns := fun _ => TcpConnection.new ""
  connections := fun _ => none
  nextConnId := 1
  openFds := fun fd => fd = acceptFd
  active := []
  todo := []
  calls := fun _ => none
  hist := fun _ => History.new

/-- The messages for `c` that wait in the queue, in its order. -/
def queued (s : TcpServer T) (c : ℕ) : List (Thread T × List Byte) :=
  s.loop.queue.filterMap (ServerFunctor.sendTo c)

def fd (s : TcpServer T) (c : ℕ) : ℕ := (s.poller.chan (.conn c)).fd

def isWriting (s : TcpServer T) (c : ℕ) : Bool := (s.poller.chan (.conn c)).isWriting

/-- The user holds a pointer to the connection. -/
def usable (s : TcpServer T) (c : ℕ) : Bool :=
  (s.hist c).stage ≠ .fresh ∧ (s.hist c).stage ≠ .released

/-- The loop's thread is not between the halves of `queueInLoop`. -/
def ready (s : TcpServer T) : Bool := !s.loop.queueing .loop

/-! ### Parts of the state -/

def setConn (s : TcpServer T) (c : ℕ) (conn : TcpConnection) : TcpServer T :=
  { s with conns := Function.update s.conns c conn }

def setHist (s : TcpServer T) (c : ℕ) (h : History T) : TcpServer T :=
  { s with hist := Function.update s.hist c h }

def setStage (s : TcpServer T) (c : ℕ) (stage : Stage) : TcpServer T :=
  s.setHist c { s.hist c with stage := stage }

/-- `send` accepts the message in the thread `th`. -/
def accept [DecidableEq T] (s : TcpServer T) (th : Thread T) (c : ℕ) (message : List Byte) :
    TcpServer T :=
  s.setHist c { s.hist c with
    accepted := Function.update (s.hist c).accepted th ((s.hist c).accepted th ++ [message]) }

/-- The thread `t` goes on with `call` later, or is back from its call. -/
def setCall [DecidableEq T] (s : TcpServer T) (t : T) (call : Option Call) : TcpServer T :=
  { s with calls := Function.update s.calls t call }

/-- The loop's thread does these first. -/
def doFirst (s : TcpServer T) (ops : List Op) : TcpServer T := { s with todo := ops ++ s.todo }

/-- `queueInLoop(cb)` in the loop's thread, up to the wakeup. -/
def queueInLoop [DecidableEq T] (s : TcpServer T) (cb : ServerFunctor T) : TcpServer T :=
  { s with
    loop := { s.loop.push cb with queueing := Function.update s.loop.queueing .loop true } }

/-- A call into the poller. -/
def withPoller (s : TcpServer T) : Except PollFault (EPoller ChannelRef) →
    Except ServerFault (TcpServer T)
  | .ok p => .ok { s with poller := p }
  | .error f => .error (.poller f)

/-! ### The member functions, in the loop's thread -/

/-- What queues the write-complete callback, if there is one. -/
def writeCompleteOps (s : TcpServer T) (c : ℕ) : List Op :=
  if s.hasWriteComplete then [.queueWriteComplete c] else []

/-- `TcpConnection::sendInLoop(message)` for a message of the thread `th`. -/
def sendInLoop (s : TcpServer T) (th : Thread T) (c : ℕ) (message : List Byte)
    (nwrote : Option ℕ) : Except ServerFault (TcpServer T) :=
  let r := (s.conns c).sendInLoop (s.isWriting c) message nwrote
  let s := s.setHist c { s.hist c with handled := (s.hist c).handled ++ [(th, message)] }
  let s := s.setConn c r.1
  let s := s.doFirst (if r.2.1 then s.writeCompleteOps c else [])
  if r.2.2 then s.withPoller (s.poller.enableWriting (.conn c)) else pure s

/-- `TcpConnection::handleWrite_()`, up to its look at `state_`. -/
def handleWrite (s : TcpServer T) (c : ℕ) (nwrote : Option ℕ) :
    Except ServerFault (TcpServer T) :=
  if s.isWriting c then
    let r := (s.conns c).handleWrite nwrote
    let s := s.setConn c r.1
    if r.2 then
      let s := s.doFirst (s.writeCompleteOps c ++ [.shutdownIfDisconnecting c])
      s.withPoller (s.poller.disableWriting (.conn c))
    else pure s
  else pure s

/-- `TcpConnection::shutdownInLoop()`. -/
def shutdownInLoop (s : TcpServer T) (c : ℕ) : TcpServer T :=
  s.setConn c ((s.conns c).shutdownInLoop (s.isWriting c))

/-- `setState_(kDisconnecting)` in `shutdown()`.  The first time, the record keeps the
messages handed over so far. -/
def setDisconnecting (s : TcpServer T) (c : ℕ) : TcpServer T :=
  let s := s.setHist c { s.hist c with
    before := some ((s.hist c).before.getD ((s.hist c).handled ++ s.queued c)) }
  s.setConn c ((s.conns c).setState .kDisconnecting)

/-- `TcpServer::removeConnection` and `removeConnectionInLoop`. -/
def removeConnection [DecidableEq T] (s : TcpServer T) (c : ℕ) :
    Except ServerFault (TcpServer T) := do
  let s := s.setHist c { s.hist c with closeCalls := (s.hist c).closeCalls + 1, stage := .closed }
  -- `connections_.erase` returns 1
  check (s.connections (s.conns c).name ≠ none) .removeConnectionInLoop
  let s := { s with connections := Function.update s.connections (s.conns c).name none }
  pure (s.queueInLoop (.connectDestroyed c))

/-- `TcpConnection::handleClose_()`. -/
def handleClose [DecidableEq T] (s : TcpServer T) (c : ℕ) :
    Except ServerFault (TcpServer T) := do
  check ((s.conns c).closable = true) .handleClose
  let s ← s.withPoller (s.poller.disableAll (.conn c))
  s.removeConnection c

/-- `TcpConnection::handleRead_()`. -/
def handleRead [DecidableEq T] (s : TcpServer T) (c : ℕ) :
    ReadResult → Except ServerFault (TcpServer T)
  | .data bytes =>
      let conn := s.conns c
      pure ((s.setConn c { conn with inputBuffer := conn.inputBuffer ++ bytes }).doFirst [.user])
  | .eof => s.handleClose c
  | .error => pure s

/-- `TcpConnection::connectDestroyed()`, up to the connection callback. -/
def connectDestroyed (s : TcpServer T) (c : ℕ) : Except ServerFault (TcpServer T) := do
  check ((s.conns c).closable = true) .connectDestroyed
  let s := s.setConn c ((s.conns c).setState .kDisconnected)
  let s ← s.withPoller (s.poller.disableAll (.conn c))
  pure ((s.setStage c .destroying).doFirst [.user, .removeChannel c])

/-- The end of `connectDestroyed()`. -/
def removeChannel (s : TcpServer T) (c : ℕ) : Except ServerFault (TcpServer T) :=
  (s.setStage c .destroyed).withPoller (s.poller.removeChannel (.conn c))

/-- `TcpConnection::connectEstablished()`, up to the connection callback. -/
def connectEstablished (s : TcpServer T) (c : ℕ) : Except ServerFault (TcpServer T) := do
  check ((s.conns c).state = .kConnecting) .connectEstablished
  let s := s.setConn c ((s.conns c).setState .kConnected)
  let s ← s.withPoller (s.poller.enableReading (.conn c))
  pure (s.doFirst [.user])

/-- The name of the connection with this number. -/
def connName (s : TcpServer T) (c : ℕ) : String := s.name ++ "#" ++ toString c

/-- `TcpServer::newConnection(sockfd)`. -/
def newConnection (s : TcpServer T) (sockfd : ℕ) : Except ServerFault (TcpServer T) := do
  check (s.nextConnId < intMax) .connIdOverflow
  let c := s.nextConnId
  let s := { s with
    nextConnId := c + 1
    openFds := Function.update s.openFds sockfd true
    poller := s.poller.newChannel (.conn c) sockfd
    connections := Function.update s.connections (s.connName c) (some c) }
  let s := (s.setConn c (TcpConnection.new (s.connName c))).setStage c .established
  s.connectEstablished c

/-- `Acceptor::handleRand()`. -/
def handleAccept (s : TcpServer T) : Option ℕ → Except ServerFault (TcpServer T)
  | some connFd => s.newConnection connFd
  | none => pure s

/-- `Channel::handleEvent` with the callbacks that are set. -/
def handleEvent (revents : Mask) (close error read write : List Op) : List Op :=
  (if Mask.has revents POLLHUP && !Mask.has revents POLLIN then close else []) ++
    (if Mask.has revents (POLLERR ||| POLLNVAL) then error else []) ++
    (if Mask.has revents (POLLIN ||| POLLPRI ||| POLLRDHUP) then read else []) ++
    (if Mask.has revents POLLOUT then write else [])

/-- What the event on a channel makes the loop do. -/
def eventOps (s : TcpServer T) : ChannelRef → List Op
  | .acceptor => handleEvent (s.poller.chan .acceptor).revents [] [] [.accept] []
  | .conn c =>
      handleEvent (s.poller.chan (.conn c)).revents [.handleClose c] [.handleError c]
        [.handleRead c] [.handleWrite c]

/-- At most `len` bytes were accepted. -/
def writable (nwrote : Option ℕ) (len : ℕ) : Bool := nwrote.all (· ≤ len)

/-- The next thing to do, in a state that has it no longer in its list. -/
def execOp [DecidableEq T] (s : TcpServer T) (r : Results) :
    Op → Option (Except ServerFault (TcpServer T))
  | .accept => if r.accept.all (!s.openFds ·) then some (s.handleAccept r.accept) else none
  | .handleClose c => some (s.handleClose c)
  | .handleError _ => some (.ok s)
  | .handleRead c => some (s.handleRead c r.read)
  | .handleWrite c =>
      if writable r.write (s.conns c).outputBuffer.length then some (s.handleWrite c r.write)
      else none
  | .shutdownIfDisconnecting c =>
      some (.ok (if (s.conns c).state = .kDisconnecting then s.shutdownInLoop c else s))
  | .queueWriteComplete c => some (.ok (s.queueInLoop (.writeComplete c)))
  | .setDisconnecting c => some (.ok ((s.setDisconnecting c).shutdownInLoop c))
  | .user => none
  | .removeChannel c => some (s.removeChannel c)

/-- A functor of the batch. -/
def runFunctor (s : TcpServer T) (nwrote : Option ℕ) :
    ServerFunctor T → Option (Except ServerFault (TcpServer T))
  | .sendInLoop t c message =>
      if writable nwrote message.length then some (s.sendInLoop (.other t) c message nwrote)
      else none
  | .shutdownInLoop c => some (.ok (s.shutdownInLoop c))
  | .connectDestroyed c => some (s.connectDestroyed c)
  | .writeComplete _ => some (.ok (s.doFirst [.user]))

/-! ### Steps -/

/-- The steps of other threads, of the kernel, of the loop and of the user's callbacks. -/
inductive Label (T : Type) where
  | send (t : T) (c : ℕ) (message : List Byte)
  | shutdown (t : T) (c : ℕ)
  | resume (t : T)
  | wakeup (th : Thread T)
  | test
  | poll (events : List (ChannelRef × Mask))
  | dispatch
  | exec (r : Results)
  | userSend (c : ℕ) (message : List Byte) (nwrote : Option ℕ)
  | userShutdown (c : ℕ)
  | userRetrieve (c : ℕ) (n : ℕ)
  | userReturn
  | handled
  | swap
  | run (nwrote : Option ℕ)
  | finish
  | release (c : ℕ)

variable [DecidableEq T]

/-- A step of the loop alone. -/
def loopStep (s : TcpServer T) (l : EventLoop.Label (Thread T) (ServerFunctor T)) :
    Option (TcpServer T) :=
  (s.loop.step l).map fun e => { s with loop := e }

/-- The thread `t` may start a call on the connection. -/
def canCall (s : TcpServer T) (t : T) (c : ℕ) : Bool :=
  s.calls t = none ∧ s.loop.queueing (.other t) = false ∧ s.usable c

/-- The kernel may report these events: for channels in the epoll set, no descriptor twice,
and no more than there is room for. -/
def reportable (s : TcpServer T) (events : List (ChannelRef × Mask)) : Bool :=
  events.length ≤ s.poller.eventListSize ∧
    (events.map fun x => (s.poller.chan x.1).fd).Nodup ∧
    ∀ x ∈ events, (s.poller.epoll (s.poller.chan x.1).fd).map Prod.snd = some x.1

/-- One step: `none` if it is not possible. -/
def step (s : TcpServer T) : Label T → Option (Except ServerFault (TcpServer T))
  | .send t c message =>
      if s.canCall t c then
        if (s.conns c).state = .kConnected then
          some (.ok ((s.accept (.other t) c message).setCall t (some (.sendInLoop c message))))
        else some (.ok s)
      else none
  | .shutdown t c =>
      if s.canCall t c then
        if (s.conns c).state = .kConnected then
          some (.ok (s.setCall t (some (.setDisconnecting c))))
        else some (.ok s)
      else none
  | .resume t =>
      match s.calls t with
      | some (.sendInLoop c message) =>
          (s.loopStep (.runInLoop (.other t) (.sendInLoop t c message))).map fun s =>
            .ok (s.setCall t none)
      | some (.setDisconnecting c) =>
          some (.ok ((s.setDisconnecting c).setCall t (some (.shutdownInLoop c))))
      | some (.shutdownInLoop c) =>
          (s.loopStep (.runInLoop (.other t) (.shutdownInLoop c))).map fun s =>
            .ok (s.setCall t none)
      | none => none
  | .wakeup th => (s.loopStep (.wakeup th)).map .ok
  | .test => (s.loopStep .test).map .ok
  | .poll events =>
      if s.reportable events then
        (s.loopStep .pollReturn).map fun s =>
          { s with active := events.map Prod.fst }.withPoller (s.poller.fillActiveChannels events)
      else none
  | .dispatch =>
      match s.active with
      | [] => none
      | ref :: active =>
          if s.ready ∧ s.todo = [] then
            some (.ok { s with active := active, todo := s.eventOps ref })
          else none
  | .exec r =>
      match s.todo with
      | [] => none
      | op :: todo => if s.ready then { s with todo := todo }.execOp r op else none
  | .userSend c message nwrote =>
      if s.ready ∧ s.todo.head? = some .user ∧ s.usable c ∧ writable nwrote message.length then
        if (s.conns c).state = .kConnected then
          some ((s.accept .loop c message).sendInLoop .loop c message nwrote)
        else some (.ok s)
      else none
  | .userShutdown c =>
      if s.ready ∧ s.todo.head? = some .user ∧ s.usable c then
        if (s.conns c).state = .kConnected then some (.ok (s.doFirst [.setDisconnecting c]))
        else some (.ok s)
      else none
  | .userRetrieve c n =>
      if s.ready ∧ s.todo.head? = some .user ∧ s.usable c then
        some (.ok (s.setConn c { s.conns c with inputBuffer := (s.conns c).inputBuffer.drop n }))
      else none
  | .userReturn =>
      if s.ready ∧ s.todo.head? = some .user then some (.ok { s with todo := s.todo.tail })
      else none
  | .handled =>
      if s.todo = [] ∧ s.active = [] then (s.loopStep .handled).map .ok else none
  | .swap => (s.loopStep .swap).map .ok
  | .run nwrote =>
      match s.loop.pc.functors with
      | [] => none
      | cb :: _ =>
          if s.todo = [] then (s.loopStep .run).bind fun s => s.runFunctor nwrote cb else none
  | .finish => if s.todo = [] then (s.loopStep .finish).map .ok else none
  | .release c =>
      if (s.hist c).stage = .destroyed then
        some (.ok ({ s with
          poller := s.poller.close (s.fd c)
          openFds := Function.update s.openFds (s.fd c) false }.setStage c .released))
      else none

/-- A step that succeeds. -/
def next (s : TcpServer T) (l : Label T) : Option (TcpServer T) :=
  match s.step l with
  | some (.ok s') => some s'
  | _ => none

/-- The assertion that fails in a step. -/
def failure (s : TcpServer T) (l : Label T) : Option ServerFault :=
  match s.step l with
  | some (.error f) => some f
  | _ => none

/-- The states a server comes through in runs whose steps all meet `ok`. -/
def Reaches (ok : TcpServer T → Label T → Prop) (s s' : TcpServer T) : Prop :=
  Reach next ok s s'

end TcpServer

end Tractor
