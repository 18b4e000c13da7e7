import Tractor.Buffer.Refinement
import Tractor.Net.Close
import Tractor.Net.Effects

/-!
A `TcpConnection` with its two `Buffer`s.

The server's connections keep their bytes as lists.  Here `sendInLoop`, `handleWrite_` and
`handleRead_` call the operations of `Buffer` as the source does, assertions included, and
the lists are what the buffers' indices delimit.

* `BufferedConnection`: the connection with its buffers; `view`: the connection over lists.
* `ConnOp.exec`: what a step of the server does with one connection, over its buffers.
* `ConnOp.exec_view`: over buffers each does what it does over lists, and no assertion fails,
  unless a vector would become too long.
* `buffers_hold_the_bytes`: **so it is in every run of a server.**
-/

namespace Tractor

open Library

namespace Buffer

variable {b : Buffer} {data : List Byte}

/-- There is room for the readable bytes and a request of `len` more wherever the readable
bytes stand: the vector can be as long as the request makes it. -/
def HasRoom (b : Buffer) (len : ℕ) : Prop := kCheapPrepend + b.readableBytes + 2 * len ≤ maxSize

/-- With room the vector is made long enough: `makeSpace` grows it only if less than the request
and the reserved bytes are free, and then the written bytes end early. -/
lemma ensureWritableBytes_ne_lengthError (h : b.Valid) {len : ℕ} (hroom : b.HasRoom len) :
    b.ensureWritableBytes len ≠ .error .lengthError := by
  have hreader := h.reader_le
  have hwriter := h.writer_le
  have hsize := h.size_lt
  have hhalf := two_mul_maxSize_lt
  have hrb := h.readableBytes_eq
  have hwb := h.writableBytes_eq
  rw [HasRoom] at hroom
  have hsum : addSize b.writableBytes b.prependableBytes = b.writableBytes + b.readerIndex :=
    addSize_of_lt (by rw [prependableBytes]; omega)
  have hneed : addSize len kCheapPrepend = len + kCheapPrepend := addSize_of_lt (by omega)
  have hcheck : ∀ (p : Prop) [Decidable p] (f : BufferFault) (b' : Buffer), f ≠ .lengthError →
      (check p f >>= fun _ => (pure b' : Except BufferFault Buffer)) ≠ .error .lengthError := by
    intro p _ f b' hf
    by_cases hp : p
    · rw [check_bind_of hp]
      simp [pure, Except.pure]
    · rw [check_bind_not hp]
      simpa using hf
  rw [ensureWritableBytes]
  by_cases hlt : b.writableBytes < len
  · rw [if_pos hlt, makeSpace, hsum, hneed]
    by_cases hgrow : b.writableBytes + b.readerIndex < len + kCheapPrepend
    · have hmax : addSize b.writerIndex len ≤ maxSize := by
        rw [addSize_of_lt (by omega)]
        omega
      obtain ⟨v, hv, -⟩ := resize_spec (v := b.buffer) hmax
      rw [if_pos hgrow, hv]
      exact hcheck _ _ _ (by simp)
    · rw [if_neg hgrow]
      obtain ⟨-, -, hbytes, -⟩ := slide_spec h (by omega)
      rw [check_bind_of (by omega), check_bind_of hbytes.symm]
      exact hcheck _ _ _ (by simp)
  · rw [if_neg hlt]
    exact hcheck _ _ _ (by simp)

/-- **What there is room for is appended.** -/
lemma append_ok (data : List Byte) (h : b.Valid) (hroom : b.HasRoom data.length) :
    ∃ b', b.append data = .ok b' ∧ b'.Valid ∧ b'.readable = b.readable ++ data := by
  have hlen : data.length ≤ maxSize := by
    rw [HasRoom] at hroom
    omega
  refine (append_spec h (h.fits_of_le hlen)).resolve_left fun herr => ?_
  refine ensureWritableBytes_ne_lengthError h hroom ?_
  rw [append] at herr
  cases hensure : b.ensureWritableBytes data.length with
  | ok b' => simp [hensure, bind, Except.bind, pure, Except.pure] at herr
  | error f => simpa [hensure, bind, Except.bind] using herr

/-- **What `readv` delivered is read.** -/
lemma readFd_ok (h : b.Valid) (hlen : data.length ≤ b.writableBytes + kExtraSize)
    (hroom : b.HasRoom data.length) :
    ∃ b', b.readFd (some data) = .ok b' ∧ b'.Valid ∧ b'.readable = b.readable ++ data := by
  refine (readFd_spec h hlen).resolve_left fun herr => ?_
  by_cases hshort : data.length ≤ b.writableBytes
  · simp [readFd, hshort] at herr
  · -- the rest goes through `extrabuf`, behind the bytes that fill the vector
    have htake : (data.take b.writableBytes).length ≤ b.writableBytes := by
      rw [List.length_take]
      omega
    obtain ⟨hv, hread⟩ := hasWritten_spec h htake
    have hbytes := congrArg List.length hread
    rw [hv.length_readable, List.length_append, h.length_readable] at hbytes
    obtain ⟨b', hok, -⟩ := append_ok (data.drop b.writableBytes) hv (by
      rw [HasRoom] at hroom ⊢
      rw [hbytes, List.length_drop]
      omega)
    rw [readFd_long h hshort, hok] at herr
    exact absurd herr (by simp)

/-- No bytes are readable exactly if the list is empty. -/
lemma Valid.readableBytes_eq_zero_iff (h : b.Valid) : b.readableBytes = 0 ↔ b.readable = [] := by
  rw [← h.length_readable, List.length_eq_zero_iff]

end Buffer

/-- A connection with its buffers. -/
structure BufferedConnection where
  name : String
  state : ConnectState
  inputBuffer : Buffer
  outputBuffer : Buffer
  socket : Socket

namespace BufferedConnection

variable {conn : BufferedConnection} {isWriting : Bool} {message : List Byte} {nwrote : Option ℕ}

/-- The connection as its constructor leaves it. -/
def new (name : String) : BufferedConnection :=
  ⟨name, .kConnecting, Buffer.new, Buffer.new, Socket.new⟩

def setState (conn : BufferedConnection) (st : ConnectState) : BufferedConnection :=
  { conn with state := st }

/-- `sendInLoop(message)`, as `TcpConnection.sendInLoop`. -/
def sendInLoop (conn : BufferedConnection) (isWriting : Bool) (message : List Byte)
    (nwrote : Option ℕ) : Except BufferFault (BufferedConnection × Bool × Bool) :=
  let direct := !isWriting && decide (conn.outputBuffer.readableBytes = 0)
  let conn := if direct then { conn with socket := conn.socket.write message nwrote } else conn
  let n := if direct then nwrote.getD 0 else 0
  let complete := direct && nwrote.isSome && !decide (n < message.length)
  if n < message.length then do
    let outputBuffer ← conn.outputBuffer.append (message.drop n)
    pure ({ conn with outputBuffer := outputBuffer }, complete, !isWriting)
  else pure (conn, complete, false)

/-- `handleWrite_()` on a channel that is writing, as `TcpConnection.handleWrite`. -/
def handleWrite (conn : BufferedConnection) (nwrote : Option ℕ) :
    Except BufferFault (BufferedConnection × Bool) :=
  let conn := { conn with socket := conn.socket.write conn.outputBuffer.readable nwrote }
  match nwrote with
  | some (n + 1) => do
      let outputBuffer ← conn.outputBuffer.retrieve (n + 1)
      let conn := { conn with outputBuffer := outputBuffer }
      pure (conn, decide (conn.outputBuffer.readableBytes = 0))
  | _ => pure (conn, false)

/-- `handleRead_()`, as far as the buffer goes. -/
def handleRead (conn : BufferedConnection) (bytes : List Byte) :
    Except BufferFault BufferedConnection := do
  let inputBuffer ← conn.inputBuffer.readFd (some bytes)
  pure { conn with inputBuffer := inputBuffer }

/-- A callback takes bytes out of its buffer. -/
def retrieve (conn : BufferedConnection) (n : ℕ) : Except BufferFault BufferedConnection := do
  let inputBuffer ← conn.inputBuffer.retrieve n
  pure { conn with inputBuffer := inputBuffer }

/-- `shutdownInLoop()`. -/
def shutdownInLoop (conn : BufferedConnection) (isWriting : Bool) : BufferedConnection :=
  if !isWriting then { conn with socket := conn.socket.shutdownWrite } else conn

/-- The connection over lists. -/
def view (conn : BufferedConnection) : TcpConnection :=
  ⟨conn.name, conn.state, conn.inputBuffer.readable, conn.outputBuffer.readable, conn.socket⟩

/-- Both buffers are in their invariant. -/
structure Valid (conn : BufferedConnection) : Prop where
  input : conn.inputBuffer.Valid
  output : conn.outputBuffer.Valid

lemma new_valid (name : String) : (new name).Valid := ⟨Buffer.new_valid, Buffer.new_valid⟩

@[simp] lemma view_new (name : String) : (new name).view = TcpConnection.new name := by
  simp only [view, new, Buffer.new_readable]
  rfl

@[simp] lemma view_setState (st : ConnectState) : (conn.setState st).view = conn.view.setState st :=
  rfl

@[simp] lemma view_shutdownInLoop :
    (conn.shutdownInLoop isWriting).view = conn.view.shutdownInLoop isWriting := by
  cases isWriting <;> rfl

lemma Valid.setState (h : conn.Valid) (st : ConnectState) : (conn.setState st).Valid :=
  ⟨h.input, h.output⟩

lemma Valid.shutdownInLoop (h : conn.Valid) : (conn.shutdownInLoop isWriting).Valid := by
  cases isWriting
  · exact ⟨h.input, h.output⟩
  · exact h

/-- **`sendInLoop` over buffers**: the same bytes are written and buffered, and it reports the
same. -/
lemma sendInLoop_view (h : conn.Valid) (hroom : conn.outputBuffer.HasRoom message.length) :
    ∃ r, conn.sendInLoop isWriting message nwrote = .ok r ∧ r.1.Valid ∧
      (r.1.view, r.2) = conn.view.sendInLoop isWriting message nwrote := by
  have hdirect : (!isWriting && decide (conn.outputBuffer.readableBytes = 0)) =
      (!isWriting && conn.view.outputBuffer.isEmpty) := by
    rw [Bool.eq_iff_iff]
    simp [h.output.readableBytes_eq_zero_iff, view]
  simp only [sendInLoop, TcpConnection.sendInLoop, hdirect]
  generalize (!isWriting && conn.view.outputBuffer.isEmpty) = direct
  generalize hn : (if direct = true then nwrote.getD 0 else 0) = n
  have hdrop : conn.outputBuffer.HasRoom (message.drop n).length := by
    rw [Buffer.HasRoom] at hroom ⊢
    rw [List.length_drop]
    omega
  obtain ⟨b, happend, hvalid, hread⟩ := Buffer.append_ok _ h.output hdrop
  by_cases hlt : n < message.length
  · cases direct with
    | true =>
        refine ⟨_, by simp [hlt, happend, bind, Except.bind, pure, Except.pure]; rfl,
          ⟨h.input, hvalid⟩, ?_⟩
        simp [hlt, view, hread]
    | false =>
        refine ⟨_, by simp [hlt, happend, bind, Except.bind, pure, Except.pure]; rfl,
          ⟨h.input, hvalid⟩, ?_⟩
        simp [hlt, view, hread]
  · cases direct with
    | true =>
        refine ⟨_, by simp [hlt, pure, Except.pure]; rfl, ⟨h.input, h.output⟩, ?_⟩
        simp [hlt, view]
    | false =>
        refine ⟨_, by simp [hlt, pure, Except.pure]; rfl, h, ?_⟩
        simp [hlt]

/-- **`handleWrite_` over buffers**, of which the socket accepts no more than it is given. -/
lemma handleWrite_view (h : conn.Valid)
    (hn : nwrote.all (· ≤ conn.view.outputBuffer.length) = true) :
    ∃ r, conn.handleWrite nwrote = .ok r ∧ r.1.Valid ∧
      (r.1.view, r.2) = conn.view.handleWrite nwrote := by
  match nwrote with
  | none => exact ⟨_, rfl, ⟨h.input, h.output⟩, rfl⟩
  | some 0 => exact ⟨_, rfl, ⟨h.input, h.output⟩, rfl⟩
  | some (n + 1) =>
      have hle : n + 1 ≤ conn.outputBuffer.readableBytes := by
        rw [← h.output.length_readable]
        simpa [view] using hn
      obtain ⟨b, hok, hvalid, hread⟩ := Buffer.retrieve_spec h.output hle
      refine ⟨_, by simp [handleWrite, hok, bind, Except.bind, pure, Except.pure]; rfl,
        ⟨h.input, hvalid⟩, ?_⟩
      have hempty : decide (b.readableBytes = 0) = b.readable.isEmpty := by
        rw [Bool.eq_iff_iff]
        simp [hvalid.readableBytes_eq_zero_iff]
      simp [TcpConnection.handleWrite, view, hempty, hread]

end BufferedConnection

/-! ### The steps of a server -/

namespace ConnOp

/-- Over buffers. -/
def exec (conn : BufferedConnection) :
    ConnOp → Except BufferFault (BufferedConnection × Bool × Bool)
  | construct name => .ok ((BufferedConnection.new name).setState .kConnected, false, false)
  | setState st => .ok (conn.setState st, false, false)
  | sendInLoop isWriting message nwrote => conn.sendInLoop isWriting message nwrote
  | handleWrite nwrote => (conn.handleWrite nwrote).map fun r => (r.1, r.2, false)
  | handleRead bytes => (conn.handleRead bytes).map fun conn => (conn, false, false)
  | retrieve n => (conn.retrieve n).map fun conn => (conn, false, false)
  | shutdownInLoop isWriting => .ok (conn.shutdownInLoop isWriting, false, false)
  | shutdown isWriting =>
      .ok ((conn.setState .kDisconnecting).shutdownInLoop isWriting, false, false)

/-- What a caller has to keep to: there is memory for the bytes, `readv` fills at most its two
segments, and a callback takes out no more than is readable. -/
def Legal (conn : BufferedConnection) : ConnOp → Prop
  | sendInLoop _ message _ => conn.outputBuffer.HasRoom message.length
  | handleRead bytes =>
      bytes.length ≤ conn.inputBuffer.writableBytes + Buffer.kExtraSize ∧
        conn.inputBuffer.HasRoom bytes.length
  | retrieve n => n ≤ conn.inputBuffer.readableBytes
  | _ => True

instance (b : Buffer) (len : ℕ) : Decidable (b.HasRoom len) :=
  inferInstanceAs (Decidable (_ ≤ _))

instance (conn : BufferedConnection) : (op : ConnOp) → Decidable (op.Legal conn)
  | construct _ | setState _ | handleWrite _ | shutdownInLoop _ | shutdown _ => isTrue trivial
  | sendInLoop _ _ _ => inferInstanceAs (Decidable (Buffer.HasRoom _ _))
  | handleRead _ => inferInstanceAs (Decidable (_ ∧ _))
  | retrieve _ => inferInstanceAs (Decidable (_ ≤ _))

/-- **What is legal does over buffers what it does over lists**, and no assertion fails. -/
theorem exec_view {conn : BufferedConnection} {op : ConnOp} (h : conn.Valid)
    (hlegal : op.Legal conn) (hpossible : op.Possible conn.view) :
    ∃ r, op.exec conn = .ok r ∧ r.1.Valid ∧ (r.1.view, r.2) = op.run conn.view := by
  cases op with
  | construct name =>
      refine ⟨_, rfl, (BufferedConnection.new_valid name).setState _, ?_⟩
      simp [run]
  | setState st => exact ⟨_, rfl, h.setState st, rfl⟩
  | sendInLoop isWriting message nwrote => exact BufferedConnection.sendInLoop_view h hlegal
  | handleWrite nwrote =>
      obtain ⟨r, hr, hvalid, hview⟩ := BufferedConnection.handleWrite_view h hpossible
      refine ⟨(r.1, r.2, false), by rw [exec, hr]; rfl, hvalid, ?_⟩
      rw [run, ← hview]
  | handleRead bytes =>
      obtain ⟨b, hok, hvalid, hread⟩ := Buffer.readFd_ok h.input hlegal.1 hlegal.2
      refine ⟨({ conn with inputBuffer := b }, false, false), ?_, ⟨hvalid, h.output⟩, ?_⟩
      · rw [exec, BufferedConnection.handleRead, hok]
        rfl
      · simp [run, BufferedConnection.view, hread]
  | retrieve n =>
      obtain ⟨b, hok, hvalid, hread⟩ := Buffer.retrieve_spec h.input hlegal
      refine ⟨({ conn with inputBuffer := b }, false, false), ?_, ⟨hvalid, h.output⟩, ?_⟩
      · rw [exec, BufferedConnection.retrieve, hok]
        rfl
      · simp [run, BufferedConnection.view, hread]
  | shutdownInLoop isWriting =>
      refine ⟨_, rfl, h.shutdownInLoop, ?_⟩
      simp [run]
  | shutdown isWriting =>
      refine ⟨_, rfl, (h.setState _).shutdownInLoop, ?_⟩
      simp [run]

end ConnOp

/-! ### Whole runs -/

/-- A server, and its connections with their buffers. -/
structure BufferedServer (T : Type) where
  server : TcpServer T
  conns : ℕ → BufferedConnection

namespace BufferedServer

variable {T : Type} {o o' : BufferedServer T}

def start (name : String) (acceptFd : ℕ) (hasWriteComplete : Bool) : BufferedServer T :=
  ⟨TcpServer.start name acceptFd hasWriteComplete, fun _ => BufferedConnection.new ""⟩

/-- What a step of the server does with a connection, done over its buffers. -/
def perform (conns : ℕ → BufferedConnection) :
    Option (ℕ × ConnOp) → Except BufferFault (ℕ → BufferedConnection)
  | none => .ok conns
  | some (c, op) => (op.exec (conns c)).map fun r => Function.update conns c r.1

variable [DecidableEq T]

/-- One step: `none` if the server cannot take it, otherwise the next state or the assertion of
a buffer that failed. -/
def step (o : BufferedServer T) (l : TcpServer.Label T) :
    Option (Except BufferFault (BufferedServer T)) :=
  (o.server.next l).map fun s' => (perform o.conns (o.server.connOp l)).map fun conns => ⟨s', conns⟩

/-- A step that succeeds. -/
def next (o : BufferedServer T) (l : TcpServer.Label T) : Option (BufferedServer T) :=
  match o.step l with
  | some (.ok o') => some o'
  | _ => none

/-- What the step does is legal over the buffers. -/
def Legal (o : BufferedServer T) (l : TcpServer.Label T) : Prop :=
  ∀ x ∈ o.server.connOp l, x.2.Legal (o.conns x.1)

instance (o : BufferedServer T) (l : TcpServer.Label T) : Decidable (o.Legal l) :=
  inferInstanceAs (Decidable (∀ x ∈ o.server.connOp l, _))

/-- The states a server comes through in runs whose steps are all legal. -/
def Reaches (o o' : BufferedServer T) : Prop := Reach next Legal o o'

/-- The buffers are in their invariant and hold the bytes of the lists. -/
structure Holds (o : BufferedServer T) : Prop where
  sane : o.server.Sane
  valid : ∀ c, (o.conns c).Valid
  view : ∀ c, (o.conns c).view = o.server.conns c

lemma start_holds (name : String) (acceptFd : ℕ) (wc : Bool) :
    (start name acceptFd wc : BufferedServer T).Holds where
  sane := TcpServer.start_sane name acceptFd wc
  valid _ := BufferedConnection.new_valid ""
  view _ := BufferedConnection.view_new ""

/-- **A legal step of the server succeeds over the buffers.** -/
theorem Holds.step {l : TcpServer.Label T} {s' : TcpServer T} (h : o.Holds) (hlegal : o.Legal l)
    (hnext : o.server.next l = some s') :
    ∃ o', o.step l = some (.ok o') ∧ o'.server = s' ∧ o'.Holds := by
  have heffects := TcpServer.effects_of_next h.sane.ledger.threadId hnext
  have hconns := heffects.conns
  have hstep : o.step l =
      some ((perform o.conns (o.server.connOp l)).map fun conns => ⟨s', conns⟩) := by
    rw [BufferedServer.step, hnext, Option.map_some]
  cases hop : o.server.connOp l with
  | none =>
      rw [hop] at hconns hstep
      refine ⟨⟨s', o.conns⟩, hstep, rfl, h.sane.next hnext, h.valid, fun c => ?_⟩
      rw [hconns]
      exact h.view c
  | some x =>
      obtain ⟨c, op⟩ := x
      obtain ⟨r, hr, hvalid, hview⟩ := ConnOp.exec_view (h.valid c) (hlegal (c, op) hop)
        (by rw [h.view c]; exact heffects.possible c op hop)
      rw [hop] at hconns hstep
      refine ⟨⟨s', Function.update o.conns c r.1⟩, ?_, rfl, h.sane.next hnext, fun d => ?_,
        fun d => ?_⟩
      · rw [hstep, perform, hr]
        rfl
      · change (Function.update o.conns c r.1 d).Valid
        by_cases hd : d = c
        · rw [hd, Function.update_self]
          exact hvalid
        · rw [Function.update_of_ne hd]
          exact h.valid d
      · simp only [hconns, TcpServer.perform]
        by_cases hd : d = c
        · rw [hd, Function.update_self, Function.update_self, ← h.view c, ← hview]
        · rw [Function.update_of_ne hd, Function.update_of_ne hd]
          exact h.view d

lemma next_eq_some {l : TcpServer.Label T} : o.next l = some o' ↔ o.step l = some (.ok o') := by
  rw [next]
  cases h : o.step l with
  | none => simp
  | some r =>
      cases r with
      | error f => simp
      | ok o₁ => simp

lemma holds_of_reaches {name : String} {acceptFd : ℕ} {wc : Bool}
    (h : Reaches (start name acceptFd wc) o) : o.Holds := by
  refine h.invariant (I := Holds) ?_ (start_holds name acceptFd wc)
  intro o l o' hholds hlegal hnext
  rw [next_eq_some] at hnext
  cases hserver : o.server.next l with
  | none => simp [BufferedServer.step, hserver] at hnext
  | some s' =>
      obtain ⟨o₁, hstep, -, hholds'⟩ := hholds.step hlegal hserver
      obtain rfl := Except.ok.inj (Option.some.inj (hstep.symm.trans hnext))
      exact hholds'

/-- **The buffers hold the bytes of the server.**  In every run, with any number of connections
and other threads, whose messages and reads there is memory for and whose callbacks take out no
more than is readable:

* the indices of all buffers are in order, and what they delimit are the bytes that the server
  has over lists, so that what is written to a socket, searched and passed to a callback is the
  same;
* every such step that the server can take succeeds: no assertion of a buffer fails and no
  vector becomes too long;
* and what `sendInLoop` and `handleWrite_` report of their buffers is what the server goes by. -/
theorem buffers_hold_the_bytes {name : String} {acceptFd : ℕ} {wc : Bool}
    (h : Reaches (start name acceptFd wc) o) :
    (∀ c, (o.conns c).Valid ∧ (o.conns c).view = o.server.conns c) ∧
    ∀ l, o.Legal l → ∀ s', o.server.next l = some s' →
      (∃ o', o.step l = some (.ok o') ∧ o'.server = s') ∧
      ∀ c op, o.server.connOp l = some (c, op) → ∃ r, op.exec (o.conns c) = .ok r ∧
        r.2 = (op.run (o.server.conns c)).2 := by
  have hholds := holds_of_reaches h
  refine ⟨fun c => ⟨hholds.valid c, hholds.view c⟩, fun l hlegal s' hnext =>
    ⟨?_, fun c op hop => ?_⟩⟩
  · obtain ⟨o', hstep, hserver, -⟩ := hholds.step hlegal hnext
    exact ⟨o', hstep, hserver⟩
  · have heffects := TcpServer.effects_of_next hholds.sane.ledger.threadId hnext
    obtain ⟨r, hr, -, hrun⟩ := ConnOp.exec_view (hholds.valid c) (hlegal (c, op) hop)
      (by rw [hholds.view c]; exact heffects.possible c op hop)
    exact ⟨r, hr, by rw [← hholds.view c, ← hrun]⟩

/-- A connection is read from, more than its buffer has room for; a part of the bytes is taken out
and a message sent, of which the socket accepts a part. -/
def readAndSend : List (TcpServer.Label Unit) :=
  TcpServer.acceptOne Unit ++ [.poll [(.conn 1, POLLIN)], .dispatch,
    .exec ⟨none, .data (List.replicate 1100 65), none⟩, .userRetrieve 1 1000,
    .userSend 1 [1, 2, 3, 4, 5] (some 2), .userReturn]

/-- The vector has grown; the rest of the message is buffered. -/
theorem buffers_hold_the_bytes_long : ∃ o : BufferedServer Unit,
    (o.conns 1).inputBuffer.buffer.length = 1108 ∧ (o.conns 1).view = o.server.conns 1 ∧
      (o.conns 1).inputBuffer.readable.length = 100 ∧
      (o.server.conns 1).outputBuffer = [3, 4, 5] := by
  have hrun : ((exec next Legal (start "s" 3 false) readAndSend).map fun o =>
      decide ((o.conns 1).inputBuffer.buffer.length = 1108 ∧
        (o.conns 1).inputBuffer.readable.length = 100 ∧
        (o.server.conns 1).outputBuffer = [3, 4, 5])) = some true := by decide +kernel
  obtain ⟨o, ho, hvals⟩ := Option.map_eq_some_iff.mp hrun
  obtain ⟨hlength, hreadable, houtput⟩ := of_decide_eq_true hvals
  obtain ⟨hholds, -⟩ := buffers_hold_the_bytes ((Reach.refl _).of_exec ho)
  exact ⟨o, hlength, (hholds 1).2, hreadable, houtput⟩

end BufferedServer

end Tractor
