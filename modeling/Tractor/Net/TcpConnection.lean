import Tractor.Buffer.Basic

/-!
`TcpConnection`: the data of a connection and what its member functions do to it, from
`src/TcpConnection.cpp`.

The channel of a connection is kept with the poller and is an argument here: whether it
is writing, and in the results whether it is to be enabled or disabled.  The buffers are
their readable bytes.  A `::write` is given by the number of bytes it accepted, or `none`
if it failed.

* `sendInLoop_bytes`, `handleWrite_bytes`: what the socket has accepted, followed by what
  is buffered, grows by exactly the message and is not changed by writing it out.
* `sendInLoop_drained`, `handleWrite_drained`: the channel is writing exactly while bytes
  are buffered.
-/

namespace Tractor

/-- `TcpConnection::ConnectState_`. -/
inductive ConnectState where
  | kConnecting
  | kConnected
  | kDisconnected
  | kDisconnecting
  deriving DecidableEq, Repr

/-- The socket as the connection uses it: the bytes it has accepted, and how often it was
written to and shut down for writing. -/
structure Socket where
  accepted : List Byte
  writes : ℕ
  shutdownWrites : ℕ

namespace Socket

def new : Socket := ⟨[], 0, 0⟩

/-- `::write(fd, data)` that accepts `nwrote` bytes or fails. -/
def write (k : Socket) (data : List Byte) (nwrote : Option ℕ) : Socket :=
  { k with accepted := k.accepted ++ data.take (nwrote.getD 0), writes := k.writes + 1 }

def shutdownWrite (k : Socket) : Socket := { k with shutdownWrites := k.shutdownWrites + 1 }

end Socket

/-- `class TcpConnection`, its channel and its callbacks aside. -/
structure TcpConnection where
  name : String
  state : ConnectState
  inputBuffer : List Byte
  outputBuffer : List Byte
  socket : Socket

namespace TcpConnection

/-- The connection as its constructor leaves it. -/
def new (name : String) : TcpConnection := ⟨name, .kConnecting, [], [], Socket.new⟩

def setState (conn : TcpConnection) (st : ConnectState) : TcpConnection :=
  { conn with state := st }

/-- The connection may be closed: the assertion of `handleClose_` and
`connectDestroyed`. -/
def closable (conn : TcpConnection) : Bool :=
  conn.state = .kConnected ∨ conn.state = .kDisconnecting

/-- `sendInLoop(message)`: the connection, whether the whole message was written at once,
and whether the channel has to be enabled for writing. -/
def sendInLoop (conn : TcpConnection) (isWriting : Bool) (message : List Byte)
    (nwrote : Option ℕ) : TcpConnection × Bool × Bool :=
  let direct := !isWriting && conn.outputBuffer.isEmpty
  let conn := if direct then { conn with socket := conn.socket.write message nwrote } else conn
  let n := if direct then nwrote.getD 0 else 0
  let complete := direct && nwrote.isSome && !decide (n < message.length)
  if n < message.length then
    ({ conn with outputBuffer := conn.outputBuffer ++ message.drop n }, complete, !isWriting)
  else (conn, complete, false)

/-- `handleWrite_()` on a channel that is writing: the connection, and whether this wrote
the last buffered byte. -/
def handleWrite (conn : TcpConnection) (nwrote : Option ℕ) : TcpConnection × Bool :=
  let conn := { conn with socket := conn.socket.write conn.outputBuffer nwrote }
  match nwrote with
  | some (n + 1) =>
      let conn := { conn with outputBuffer := conn.outputBuffer.drop (n + 1) }
      (conn, conn.outputBuffer.isEmpty)
  | _ => (conn, false)

/-- `shutdownInLoop()`. -/
def shutdownInLoop (conn : TcpConnection) (isWriting : Bool) : TcpConnection :=
  if !isWriting then { conn with socket := conn.socket.shutdownWrite } else conn

/-! ### What stays -/

section Frame

variable (conn : TcpConnection) (isWriting : Bool) (message : List Byte) (nwrote : Option ℕ)

@[simp] lemma sendInLoop_name : (conn.sendInLoop isWriting message nwrote).1.name = conn.name := by
  simp only [sendInLoop]
  split_ifs <;> rfl

@[simp] lemma sendInLoop_state :
    (conn.sendInLoop isWriting message nwrote).1.state = conn.state := by
  simp only [sendInLoop]
  split_ifs <;> rfl

@[simp] lemma sendInLoop_shutdownWrites :
    (conn.sendInLoop isWriting message nwrote).1.socket.shutdownWrites =
      conn.socket.shutdownWrites := by
  simp only [sendInLoop]
  split_ifs <;> rfl

@[simp] lemma handleWrite_name : (conn.handleWrite nwrote).1.name = conn.name := by
  match nwrote with
  | none => rfl
  | some 0 => rfl
  | some (n + 1) => rfl

@[simp] lemma handleWrite_state : (conn.handleWrite nwrote).1.state = conn.state := by
  match nwrote with
  | none => rfl
  | some 0 => rfl
  | some (n + 1) => rfl

@[simp] lemma handleWrite_shutdownWrites :
    (conn.handleWrite nwrote).1.socket.shutdownWrites = conn.socket.shutdownWrites := by
  match nwrote with
  | none => rfl
  | some 0 => rfl
  | some (n + 1) => rfl

@[simp] lemma shutdownInLoop_name : (conn.shutdownInLoop isWriting).name = conn.name := by
  rw [shutdownInLoop]
  split_ifs <;> rfl

@[simp] lemma shutdownInLoop_state : (conn.shutdownInLoop isWriting).state = conn.state := by
  rw [shutdownInLoop]
  split_ifs <;> rfl

@[simp] lemma shutdownInLoop_outputBuffer :
    (conn.shutdownInLoop isWriting).outputBuffer = conn.outputBuffer := by
  rw [shutdownInLoop]
  split_ifs <;> rfl

@[simp] lemma shutdownInLoop_accepted :
    (conn.shutdownInLoop isWriting).socket.accepted = conn.socket.accepted := by
  rw [shutdownInLoop]
  split_ifs <;> rfl

@[simp] lemma shutdownInLoop_writes :
    (conn.shutdownInLoop isWriting).socket.writes = conn.socket.writes := by
  rw [shutdownInLoop]
  split_ifs <;> rfl

end Frame

/-! ### The bytes -/

variable (conn : TcpConnection) (isWriting : Bool) (message : List Byte) (nwrote : Option ℕ)

/-- **A message is taken over as a whole**, in part by the socket and in part by the
buffer, behind everything sent before. -/
theorem sendInLoop_bytes :
    (conn.sendInLoop isWriting message nwrote).1.socket.accepted ++
        (conn.sendInLoop isWriting message nwrote).1.outputBuffer =
      conn.socket.accepted ++ conn.outputBuffer ++ message := by
  cases hdirect : (!isWriting && conn.outputBuffer.isEmpty) with
  | true =>
      have hempty : conn.outputBuffer = [] := by simp_all
      simp only [sendInLoop, hdirect, if_true, Socket.write]
      split_ifs with hlt
      · simp [hempty]
      · -- everything was accepted at once
        simp [hempty, List.take_of_length_le (not_lt.mp hlt)]
  | false =>
      simp only [sendInLoop, hdirect, Bool.false_eq_true, if_false]
      split_ifs with hlt
      · simp
      · have hnil : message = [] := by simpa using hlt
        simp [hnil]

/-- **Writing out moves bytes** from the front of the buffer to the socket. -/
theorem handleWrite_bytes :
    (conn.handleWrite nwrote).1.socket.accepted ++ (conn.handleWrite nwrote).1.outputBuffer =
      conn.socket.accepted ++ conn.outputBuffer := by
  match nwrote with
  | none => simp [handleWrite, Socket.write]
  | some 0 => simp [handleWrite, Socket.write]
  | some (n + 1) => simp [handleWrite, Socket.write]

/-- The channel that is writing exactly while bytes are buffered is so afterwards. -/
lemma sendInLoop_drained (h : isWriting = true ↔ conn.outputBuffer ≠ []) :
    (isWriting || (conn.sendInLoop isWriting message nwrote).2.2) = true ↔
      (conn.sendInLoop isWriting message nwrote).1.outputBuffer ≠ [] := by
  cases isWriting with
  | true =>
      have hne := h.mp rfl
      simp only [sendInLoop, Bool.not_true, Bool.false_and, Bool.false_eq_true, if_false]
      split_ifs <;> simp [hne]
  | false =>
      have hnil : conn.outputBuffer = [] := by
        by_contra hne
        exact absurd (h.mpr hne) (by simp)
      simp only [sendInLoop, hnil, Bool.not_false, List.isEmpty_nil, Bool.and_self, if_true]
      split_ifs with hlt
      · simpa using hlt
      · simp

/-- A write event leaves bytes behind exactly if it does not report the buffer empty. -/
lemma handleWrite_drained (h : conn.outputBuffer ≠ []) :
    (conn.handleWrite nwrote).2 = false ↔ (conn.handleWrite nwrote).1.outputBuffer ≠ [] := by
  match nwrote with
  | none => simp [handleWrite, h]
  | some 0 => simp [handleWrite, h]
  | some (n + 1) => simp [handleWrite]

end TcpConnection

end Tractor
