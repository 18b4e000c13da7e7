import Tractor.Apps.Application

/-!
`apps/chargen_test.cpp`: a server that sends its message to every connection, again whenever it
was written.

* `chargen`: its callbacks.
* `inFlight`: how often the next message of a connection waits: in the output buffer, in a
  write-complete functor, or in a call of the running callback.
* `Feeds`, `Generates`: what each connection gets, and the invariant.
* `chargen_streams`: **in every run it waits at exactly one place, so the stream neither stops nor
  overtakes its client.**
-/

namespace Tractor

open Library

/-- The callbacks: `onConnection`, `onMessage` and `onWriteComplete`. -/
def chargen (message : List Byte) : Application where
  onConnection conn := if conn.connected then [.send message] else []
  onMessage conn := [.retrieve conn.inputBuffer.length]
  onWriteComplete := some fun _ => [.send message]

/-- The `line` of `main`, doubled. -/
def chargenLine : List Byte :=
  let line := (List.range (127 - 33)).map fun i => (UInt8.ofNat (33 + i) : Byte)
  line ++ line

/-- The `message` of `main`. -/
def chargenMessage : List Byte :=
  (List.range (127 - 33)).flatMap fun i => (chargenLine.drop i).take 72 ++ ascii "\n"

/-! ### What one operation does to the bytes -/

namespace TcpConnection

variable (conn : TcpConnection)

/-- Bytes are buffered. -/
def buffers : ℕ := if conn.outputBuffer = [] then 0 else 1

lemma sendInLoop_room {message : List Byte} (isWriting : Bool) (nwrote : Option ℕ)
    (h : conn.outputBuffer = []) :
    (conn.sendInLoop isWriting message nwrote).1.outputBuffer.length ≤ message.length := by
  simp only [sendInLoop]
  split_ifs <;> simp [h]

/-- A message is buffered in part, or written completely. -/
lemma buffers_sendInLoop {message : List Byte} (isWriting : Bool) (nwrote : Option ℕ)
    (hne : message ≠ []) (h : conn.outputBuffer = []) :
    (conn.sendInLoop isWriting message nwrote).1.buffers +
      (conn.sendInLoop isWriting message nwrote).2.1.toNat = 1 := by
  have hlen : 0 < message.length := List.length_pos_iff.mpr hne
  cases isWriting with
  | true => simp [sendInLoop, hlen, buffers, hne]
  | false =>
      by_cases hlt : nwrote.getD 0 < message.length
      · simp [sendInLoop, h, hlt, buffers, Socket.write]
      · cases nwrote with
        | none => exact absurd hlen hlt
        | some n =>
            have hge : ¬ n < message.length := hlt
            simp [sendInLoop, h, hge, buffers, Socket.write]

end TcpConnection

namespace ConnOp

variable {conn : TcpConnection} {op : ConnOp}

/-- The operation gives the connection bytes to write, or builds it. -/
def fills : ConnOp → Bool
  | construct _ => true
  | sendInLoop _ _ _ => true
  | _ => false

/-- Nothing else sends. -/
lemma bytes_of_not_fills (conn : TcpConnection) (h : op.fills = false) :
    (op.run conn).1.socket.accepted ++ (op.run conn).1.outputBuffer =
        conn.socket.accepted ++ conn.outputBuffer ∧
      (op.run conn).1.outputBuffer.length ≤ conn.outputBuffer.length := by
  cases op with
  | construct | sendInLoop => exact absurd h (by simp [fills])
  | setState st => exact ⟨rfl, le_rfl⟩
  | handleRead bytes => exact ⟨rfl, le_rfl⟩
  | retrieve n => exact ⟨rfl, le_rfl⟩
  | shutdownInLoop isWriting => simp [run]
  | shutdown isWriting => simp [run, TcpConnection.setState]
  | handleWrite nwrote =>
      refine ⟨conn.handleWrite_bytes nwrote, ?_⟩
      obtain _ | _ | n := nwrote
      · exact le_rfl
      · exact le_rfl
      · simp [run, TcpConnection.handleWrite]

/-- The buffer is reported empty exactly when it becomes so. -/
lemma buffers_of_not_fills (h : op.fills = false) (hpossible : op.Possible conn) :
    (op.run conn).1.buffers + (op.run conn).2.1.toNat = conn.buffers := by
  cases op with
  | construct | sendInLoop => exact absurd h (by simp [fills])
  | setState st => rfl
  | handleRead bytes => rfl
  | retrieve n => rfl
  | shutdownInLoop isWriting => simp [run, TcpConnection.buffers]
  | shutdown isWriting => simp [run, TcpConnection.buffers, TcpConnection.setState]
  | handleWrite nwrote =>
      obtain _ | _ | n := nwrote
      · rfl
      · rfl
      · -- no more is written than is buffered
        have hle : n + 1 ≤ conn.outputBuffer.length := by
          simpa [Possible, TcpServer.writable] using hpossible
        have hne : conn.outputBuffer ≠ [] := by
          intro hnil
          simp [hnil] at hle
        by_cases hall : conn.outputBuffer.length ≤ n + 1
        · simp [run, TcpConnection.handleWrite, TcpConnection.buffers, hne, hall]
        · simp [run, TcpConnection.handleWrite, TcpConnection.buffers, hne, hall]

/-- What is left is what `state_` says afterwards. -/
def stateAfter (st : ConnectState) : ConnOp → ConnectState
  | construct _ => .kConnected
  | setState st' => st'
  | shutdown _ => .kDisconnecting
  | _ => st

lemma state_run : (op.run conn).1.state = op.stateAfter conn.state := by
  cases op <;> simp [run, stateAfter, TcpConnection.setState]

end ConnOp

/-! ### What the steps of the loop do -/

namespace TcpServer

variable {s s' : TcpServer Empty} {l : Label Empty} {c : ℕ} {op : ConnOp}

/-- A step of the loop builds the next connection, destroys one, or does something that neither
sends nor changes `state_`, where no `shutdown` waits. -/
lemma connOp_cases (hset : ∀ d, .setDisconnecting d ∉ s.todo) (hl : l.ofUser = false)
    (h : s.connOp l = some (c, op)) :
    ((∃ name, op = .construct name) ∧ c = s.nextConnId ∧ s.nextIdAfter l = s.nextConnId + 1) ∨
      (op = .setState .kDisconnected ∧ .connectDestroyed c ∈ s.loop.queue) ∨
      (op.fills = false ∧ ∀ st, op.stateAfter st = st) := by
  cases l with
  | exec r =>
      cases htodo : s.todo with
      | nil => simp [connOp, htodo] at h
      | cons op' todo =>
          cases op' with
          | accept =>
              obtain ⟨fd, hfd, heq⟩ : ∃ fd, r.accept = some fd ∧
                  (s.nextConnId, ConnOp.construct (s.connName s.nextConnId)) = (c, op) := by
                simpa [connOp, htodo] using h
              obtain ⟨rfl, rfl⟩ := Prod.mk.inj heq
              exact Or.inl ⟨⟨_, rfl⟩, rfl, by simp [nextIdAfter, htodo, hfd]⟩
          | setDisconnecting d => exact absurd (htodo ▸ List.mem_cons_self) (hset d)
          | handleRead d =>
              cases hr : r.read <;> simp [connOp, htodo, hr] at h
              obtain ⟨-, rfl⟩ := h
              exact Or.inr (Or.inr ⟨rfl, fun _ => rfl⟩)
          | handleWrite d =>
              simp only [connOp, htodo] at h
              split_ifs at h
              obtain ⟨-, rfl⟩ := Prod.mk.inj (Option.some.inj h)
              exact Or.inr (Or.inr ⟨rfl, fun _ => rfl⟩)
          | shutdownIfDisconnecting d =>
              simp only [connOp, htodo] at h
              split_ifs at h
              obtain ⟨-, rfl⟩ := Prod.mk.inj (Option.some.inj h)
              exact Or.inr (Or.inr ⟨rfl, fun _ => rfl⟩)
          | handleClose | handleError | queueWriteComplete | user | removeChannel =>
              simp [connOp, htodo] at h
  | run nwrote =>
      cases hcb : s.loop.pc.functors with
      | nil => simp [connOp, hcb] at h
      | cons cb functors =>
          cases cb with
          | sendInLoop t => exact t.elim
          | writeComplete d => simp [connOp, hcb] at h
          | shutdownInLoop d =>
              simp only [connOp, hcb] at h
              obtain ⟨-, rfl⟩ := Prod.mk.inj (Option.some.inj h)
              exact Or.inr (Or.inr ⟨rfl, fun _ => rfl⟩)
          | connectDestroyed d =>
              simp only [connOp, hcb] at h
              obtain ⟨rfl, rfl⟩ := Prod.mk.inj (Option.some.inj h)
              exact Or.inr (Or.inl ⟨rfl, by simp [EventLoop.queue, hcb]⟩)
  | resume t => exact t.elim
  | userSend | userRetrieve => exact absurd hl (by simp [Label.ofUser])
  | _ => simp [connOp] at h

/-- Only a call of `shutdown` in the loop's thread makes it set `state_`. -/
lemma setDisconnecting_of_todoAfter (h : .setDisconnecting c ∈ s.todoAfter l) :
    .setDisconnecting c ∈ s.todo ∨ l = .userShutdown c := by
  have hcomplete : ∀ d, .setDisconnecting c ∉ s.writeCompleteOps d := fun d => by
    rw [writeCompleteOps]
    split_ifs <;> simp
  have hcompletes : ∀ d message nwrote, .setDisconnecting c ∉ s.completeOps d message nwrote :=
    fun d message nwrote => by
      rw [completeOps]
      split_ifs
      · exact hcomplete d
      · simp
  cases l with
  | dispatch =>
      simp only [todoAfter] at h
      split at h
      · exact Or.inl h
      · exact absurd (event_of_mem_eventOps h) (by simp [Op.event])
  | exec r =>
      cases htodo : s.todo with
      | nil => simp [todoAfter, htodo] at h
      | cons op todo =>
          left
          cases op with
          | accept | handleRead =>
              simp only [todoAfter, htodo] at h
              split at h <;> simp_all
          | handleWrite d =>
              simp only [todoAfter, htodo] at h
              split_ifs at h <;> simp_all
          | _ =>
              simp only [todoAfter, htodo, List.tail_cons] at h
              exact List.mem_cons_of_mem _ h
  | userSend d message nwrote =>
      simp only [todoAfter] at h
      split_ifs at h
      · exact Or.inl ((List.mem_append.mp h).resolve_left (hcompletes _ _ _))
      · exact Or.inl h
  | userShutdown d =>
      simp only [todoAfter] at h
      split_ifs at h <;> simp_all
      exact h.symm.imp_right Eq.symm
  | userReturn => exact Or.inl (List.mem_of_mem_tail h)
  | run nwrote =>
      simp only [todoAfter] at h
      left
      split at h
      · exact (List.mem_append.mp h).resolve_left (hcompletes _ _ _)
      all_goals simpa using h
  | _ => exact Or.inl h

lemma nextConnId_le_nextIdAfter (s : TcpServer Empty) (l : Label Empty) :
    s.nextConnId ≤ s.nextIdAfter l := by
  cases l with
  | exec r =>
      simp only [nextIdAfter]
      split
      · split_ifs
        · exact Nat.le_succ _
        · exact le_rfl
      · exact le_rfl
  | _ => exact le_rfl

/-- The connection a step builds. -/
def builds (s : TcpServer Empty) (l : Label Empty) : Option ℕ :=
  match s.connOp l with
  | some (c, .construct _) => some c
  | _ => none

/-- What the callbacks of `chargen` are about to send: the message, to a connection that was built
or whose write-complete callback is called. -/
lemma count_entered (message : List Byte) (h : Effects s l s') (c : ℕ) :
    (AppServer.entered (chargen message) s s' l).count (c, .send message) =
      (if s.callsComplete l = some c then 1 else 0) +
        if s.builds l = some c then 1 else 0 := by
  cases l with
  | exec r =>
      cases htodo : s.todo with
      | nil => simp [AppServer.entered, callsComplete, builds, connOp, htodo]
      | cons op todo =>
          cases op with
          | accept =>
              cases hr : r.accept with
              | none => simp [AppServer.entered, callsComplete, builds, connOp, htodo, hr]
              | some fd =>
                  have hconn : s'.conns s.nextConnId =
                      (TcpConnection.new (s.connName s.nextConnId)).setState .kConnected := by
                    rw [h.conns]
                    simp [connOp, htodo, hr, perform, ConnOp.run]
                  by_cases hc : c = s.nextConnId
                  · subst hc
                    simp [AppServer.entered, callsComplete, builds, connOp, htodo, hr, chargen,
                      hconn, TcpConnection.connected, TcpConnection.setState]
                  · simp [AppServer.entered, callsComplete, builds, connOp, htodo, hr, chargen,
                      hconn, TcpConnection.connected, TcpConnection.setState, Ne.symm hc]
          | handleRead d =>
              cases hr : r.read <;>
                simp [AppServer.entered, callsComplete, builds, connOp, htodo, hr, chargen]
          | handleWrite d => simp [AppServer.entered, callsComplete, builds, connOp, htodo]
          | shutdownIfDisconnecting d =>
              simp [AppServer.entered, callsComplete, builds, connOp, htodo]
          | _ => simp [AppServer.entered, callsComplete, builds, connOp, htodo]
  | run nwrote =>
      cases hcb : s.loop.pc.functors with
      | nil => simp [AppServer.entered, callsComplete, builds, connOp, hcb]
      | cons cb functors =>
          cases cb with
          | connectDestroyed d =>
              have hstate : (s'.conns d).state = .kDisconnected := by
                rw [h.conns]
                simp [connOp, hcb, perform, ConnOp.run, TcpConnection.setState]
              simp [AppServer.entered, callsComplete, builds, connOp, hcb, chargen, hstate,
                TcpConnection.connected]
          | writeComplete d =>
              by_cases hd : d = c <;>
                simp [AppServer.entered, callsComplete, builds, connOp, hcb, chargen, hd]
          | _ => simp [AppServer.entered, callsComplete, builds, connOp, hcb]
  | resume t => exact t.elim
  | userSend => simp [AppServer.entered, callsComplete, builds, connOp]
  | _ => simp [AppServer.entered, callsComplete, builds, connOp]

end TcpServer

/-! ### What each connection gets -/

namespace AppServer

variable {message : List Byte} {a a' : AppServer} {c : ℕ}

/-- How often the next message of the connection waits: in its output buffer, in a write-complete
functor, or in a call of the running callback. -/
def inFlight (message : List Byte) (a : AppServer) (c : ℕ) : ℕ :=
  (a.server.conns c).buffers + a.server.completions c + a.calls.count (c, .send message)

/-- What a connection gets: whole messages, the last one in part still buffered, and the next one
on its way as long as the connection is up. -/
structure Feeds (message : List Byte) (a : AppServer) (c : ℕ) : Prop where
  bytes : ∃ k, (a.server.conns c).socket.accepted ++ (a.server.conns c).outputBuffer =
    (List.replicate k message).flatten
  room : (a.server.conns c).outputBuffer.length ≤ message.length
  unbuilt : (a.server.conns c).state = .kConnecting → a.inFlight message c = 0
  up : (a.server.conns c).state = .kConnected → a.inFlight message c = 1
  once : a.inFlight message c ≤ 1
  stays : (a.server.conns c).state ≠ .kDisconnecting

/-- The invariant. -/
structure Generates (message : List Byte) (a : AppServer) : Prop where
  graceful : a.server.Graceful
  told : a.server.hasWriteComplete = true
  fresh : ∀ c, a.server.nextConnId ≤ c → (a.server.conns c).state = .kConnecting
  shut : ∀ c, .setDisconnecting c ∉ a.server.todo
  calls : ∀ call ∈ a.calls, call.2 = .send message ∨ ∃ n, call.2 = .retrieve n
  feeds : ∀ c, a.Feeds message c

lemma start_generates (message : List Byte) (name : String) (acceptFd : ℕ) :
    (start (chargen message) name acceptFd).Generates message where
  graceful := start_graceful _ _ _
  told := rfl
  fresh c _ := rfl
  shut c := by simp [start, TcpServer.start]
  calls call h := by simp [start] at h
  feeds c := by
    have hnone : (start (chargen message) name acceptFd).inFlight message c = 0 := rfl
    exact ⟨⟨0, rfl⟩, Nat.zero_le _, fun _ => hnone, fun h => absurd h (by simp [start,
      TcpServer.start, TcpConnection.new]), hnone.le.trans (Nat.zero_le 1), by simp [start,
      TcpServer.start, TcpConnection.new]⟩

/-- Where the next message waits, behind a step of the loop. -/
lemma inFlight_looped (message : List Byte) {l : TcpServer.Label Empty} {server : TcpServer Empty}
    (hgraceful : a.server.Graceful) (h : a.server.next l = some server) (c : ℕ) :
    inFlight message ⟨server, entered (chargen message) a.server server l ++ a.calls⟩ c +
        (a.server.conns c).buffers =
      a.inFlight message c + (server.conns c).buffers +
        (if a.server.completes l = some c then 1 else 0) +
        if a.server.builds l = some c then 1 else 0 := by
  have hid := hgraceful.sane.ledger.threadId
  have hcompletions := TcpServer.completions_of_next hid h c
  have hentered := TcpServer.count_entered message (TcpServer.effects_of_next hid h) c
  simp only [inFlight, List.count_append, hentered]
  omega

/-- The connection is fed as before. -/
lemma Feeds.of_same (h : a.Feeds message c)
    (hbytes : (a'.server.conns c).socket.accepted ++ (a'.server.conns c).outputBuffer =
      (a.server.conns c).socket.accepted ++ (a.server.conns c).outputBuffer)
    (hroom : (a'.server.conns c).outputBuffer.length ≤ (a.server.conns c).outputBuffer.length)
    (hflight : a'.inFlight message c = a.inFlight message c)
    (hstate : (a'.server.conns c).state = (a.server.conns c).state ∨
      (a'.server.conns c).state = .kDisconnected) : a'.Feeds message c := by
  obtain ⟨k, hk⟩ := h.bytes
  refine ⟨⟨k, hbytes.trans hk⟩, hroom.trans h.room, fun hst => ?_, fun hst => ?_,
    hflight.le.trans h.once, fun hst => ?_⟩
  · rw [hflight]
    exact h.unbuilt ((hstate.resolve_right (by simp [hst])).symm.trans hst)
  · rw [hflight]
    exact h.up ((hstate.resolve_right (by simp [hst])).symm.trans hst)
  · exact h.stays ((hstate.resolve_right (by simp [hst])).symm.trans hst)

/-- A step of the loop that neither sends to the connection nor builds it. -/
lemma Feeds.kept {l : TcpServer.Label Empty} {server : TcpServer Empty} (h : a.Feeds message c)
    (hgraceful : a.server.Graceful) (hnext : a.server.next l = some server)
    (hbytes : (server.conns c).socket.accepted ++ (server.conns c).outputBuffer =
      (a.server.conns c).socket.accepted ++ (a.server.conns c).outputBuffer)
    (hroom : (server.conns c).outputBuffer.length ≤ (a.server.conns c).outputBuffer.length)
    (hbuffers : (server.conns c).buffers + (if a.server.completes l = some c then 1 else 0) =
      (a.server.conns c).buffers)
    (hbuilds : a.server.builds l ≠ some c)
    (hstate : (server.conns c).state = (a.server.conns c).state ∨
      (server.conns c).state = .kDisconnected) :
    Feeds message ⟨server, entered (chargen message) a.server server l ++ a.calls⟩ c := by
  refine h.of_same hbytes hroom ?_ hstate
  have hlooped := inFlight_looped message hgraceful hnext c
  rw [if_neg hbuilds] at hlooped
  omega

lemma completes_of_connOp {l : TcpServer.Label Empty} {op : ConnOp}
    (htold : a.server.hasWriteComplete = true) (h : a.server.connOp l = some (c, op)) :
    (if a.server.completes l = some c then 1 else 0) =
      (op.run (a.server.conns c)).2.1.toNat := by
  have hiff : a.server.completes l = some c ↔ (op.run (a.server.conns c)).2.1 = true :=
    (TcpServer.completes_iff h).trans (by simp [htold])
  cases hreport : (op.run (a.server.conns c)).2.1 with
  | true => rw [if_pos (hiff.mpr hreport), Bool.toNat_true]
  | false => rw [if_neg (by simp [hiff, hreport]), Bool.toNat_false]

/-- A connection is built, and its callback is about to send the message. -/
lemma Feeds.built {l : TcpServer.Label Empty} {server : TcpServer Empty} {name : String}
    (h : a.Feeds message c) (hgraceful : a.server.Graceful) (hnext : a.server.next l = some server)
    (hrun : server.conns c = (ConnOp.run (a.server.conns c) (.construct name)).1)
    (hcompletes : (if a.server.completes l = some c then 1 else 0) =
      (ConnOp.run (a.server.conns c) (.construct name)).2.1.toNat)
    (hbuilds : a.server.builds l = some c)
    (hstate : (a.server.conns c).state = .kConnecting) :
    Feeds message ⟨server, entered (chargen message) a.server server l ++ a.calls⟩ c := by
  have hconn : server.conns c = (TcpConnection.new name).setState .kConnected := hrun
  have hreport : (if a.server.completes l = some c then 1 else 0) = 0 := hcompletes
  have hbuffers : (server.conns c).buffers = 0 := by
    rw [hconn]
    rfl
  have hone : inFlight message ⟨server, entered (chargen message) a.server server l ++ a.calls⟩ c
      = 1 := by
    have hlooped := inFlight_looped message hgraceful hnext c
    have hzero := h.unbuilt hstate
    rw [if_pos hbuilds, hreport, hbuffers, hzero] at hlooped
    rw [inFlight] at hzero
    omega
  refine ⟨⟨0, ?_⟩, ?_, fun (hst : (server.conns c).state = .kConnecting) => ?_, fun _ => hone,
    hone.le, fun (hst : (server.conns c).state = .kDisconnecting) => ?_⟩
  · change (server.conns c).socket.accepted ++ (server.conns c).outputBuffer = _
    rw [hconn]
    rfl
  · change (server.conns c).outputBuffer.length ≤ _
    rw [hconn]
    exact Nat.zero_le _
  · exact absurd hst (by simp [hconn, TcpConnection.setState])
  · exact absurd hst (by simp [hconn, TcpConnection.setState])

/-- Connections that are not built stay as they are. -/
lemma Generates.fresh_looped {l : TcpServer.Label Empty} {server : TcpServer Empty}
    (h : a.Generates message) (hl : l.ofUser = false) (hnext : a.server.next l = some server)
    (c : ℕ) (hc : server.nextConnId ≤ c) : (server.conns c).state = .kConnecting := by
  have hsane := h.graceful.sane
  have heffects := TcpServer.effects_of_next hsane.ledger.threadId hnext
  have hle := TcpServer.nextConnId_le_nextIdAfter a.server l
  rw [heffects.nextConnId] at hc
  have hold := h.fresh c (hle.trans hc)
  rw [heffects.conns]
  cases hconn : a.server.connOp l with
  | none => exact hold
  | some x =>
      obtain ⟨d, op⟩ := x
      by_cases hcd : c = d
      · subst hcd
        rw [TcpServer.perform, Function.update_self, ConnOp.state_run]
        rcases TcpServer.connOp_cases h.shut hl hconn with
          ⟨-, hnew, hid⟩ | ⟨-, hqueue⟩ | ⟨-, hstate⟩
        · omega
        · have hbuilt := hsane.known c (.queue hqueue rfl)
          have hfresh := (hsane.ledger.ids c).mpr (Or.inr (hle.trans hc))
          exact absurd hfresh hbuilt
        · rw [hstate, hold]
      · rw [TcpServer.perform, Function.update_of_ne hcd, hold]

/-- The callbacks send the message or take the input out. -/
lemma entered_calls {l : TcpServer.Label Empty} {s s' : TcpServer Empty} {call : ℕ × AppCall}
    (h : call ∈ entered (chargen message) s s' l) :
    call.2 = .send message ∨ ∃ n, call.2 = .retrieve n := by
  have hconnection : ∀ conn d, call ∈ ((chargen message).onConnection conn).map (d, ·) →
      call.2 = .send message := by
    intro conn d hcall
    simp only [chargen] at hcall
    split_ifs at hcall <;> simp_all
  cases l with
  | exec r =>
      simp only [entered] at h
      split at h
      · right
        simp_all [chargen]
      · exact Or.inl (hconnection _ _ h)
      · simp at h
  | run nwrote =>
      simp only [entered] at h
      split at h
      · exact Or.inl (hconnection _ _ h)
      · left
        simp_all [chargen]
      · simp at h
  | _ => simp [entered] at h

/-- **A step of the loop.** -/
lemma Generates.looped {l : TcpServer.Label Empty} {server : TcpServer Empty}
    (h : a.Generates message) (hl : l.ofUser = false) (hnext : a.server.next l = some server) :
    Generates message ⟨server, entered (chargen message) a.server server l ++ a.calls⟩ := by
  have hsane := h.graceful.sane
  have heffects := TcpServer.effects_of_next hsane.ledger.threadId hnext
  have hother : ∀ {d : ℕ} {op : ConnOp}, a.server.connOp l = some (d, op) → ∀ c, c ≠ d →
      server.conns c = a.server.conns c := fun hconn c hc => by
    rw [heffects.conns, hconn, TcpServer.perform, Function.update_of_ne hc]
  have hself : ∀ {d : ℕ} {op : ConnOp}, a.server.connOp l = some (d, op) →
      server.conns d = (op.run (a.server.conns d)).1 := fun hconn => by
    rw [heffects.conns, hconn, TcpServer.perform, Function.update_self]
  -- a connection the step does not work on
  have hkept : ∀ c, server.conns c = a.server.conns c → a.server.completes l ≠ some c →
      a.server.builds l ≠ some c →
      Feeds message ⟨server, entered (chargen message) a.server server l ++ a.calls⟩ c :=
    fun c hc hcompletes hbuilds =>
      (h.feeds c).kept h.graceful hnext (by rw [hc]) (by rw [hc])
        (by rw [hc, if_neg hcompletes, Nat.add_zero]) hbuilds (Or.inl (by rw [hc]))
  refine ⟨h.graceful.next hnext, heffects.hasWriteComplete.trans h.told, h.fresh_looped hl hnext,
    fun c hc => ?_, fun call hcall => ?_, fun c => ?_⟩
  · have hmem : Op.setDisconnecting c ∈ a.server.todoAfter l := heffects.todo ▸ hc
    rcases TcpServer.setDisconnecting_of_todoAfter hmem with hbefore | rfl
    · exact h.shut c hbefore
    · exact absurd hl (by simp [TcpServer.Label.ofUser])
  · rcases List.mem_append.mp hcall with hcall | hcall
    · exact entered_calls hcall
    · exact h.calls call hcall
  · cases hconn : a.server.connOp l with
    | none =>
        have hconns : server.conns = a.server.conns := by
          rw [heffects.conns, hconn, TcpServer.perform]
        exact hkept c (by rw [hconns]) (by simp [TcpServer.completes, hconn])
          (by simp [TcpServer.builds, hconn])
    | some x =>
        obtain ⟨d, op⟩ := x
        by_cases hc : c = d
        · subst hc
          have hcompletes := completes_of_connOp h.told hconn
          have hrun := hself hconn
          rcases TcpServer.connOp_cases h.shut hl hconn with
            ⟨⟨name, rfl⟩, hnew, -⟩ | ⟨rfl, -⟩ | ⟨hfills, hstate⟩
          · exact (h.feeds c).built h.graceful hnext hrun hcompletes
              (by simp [TcpServer.builds, hconn]) (h.fresh c hnew.ge)
          · refine (h.feeds c).kept h.graceful hnext (by rw [hrun]; rfl) (by rw [hrun]; rfl) ?_
              (by simp [TcpServer.builds, hconn]) (Or.inr (by rw [hrun]; rfl))
            rw [hcompletes, hrun]
            rfl
          · obtain ⟨hbytes, hroom⟩ := ConnOp.bytes_of_not_fills (a.server.conns c) hfills
            have hpossible := heffects.possible c op hconn
            refine (h.feeds c).kept h.graceful hnext (by rw [hrun]; exact hbytes)
              (by rw [hrun]; exact hroom) ?_ ?_ (Or.inl ?_)
            · rw [hcompletes, hrun]
              exact ConnOp.buffers_of_not_fills hfills hpossible
            · cases op <;> simp_all [TcpServer.builds, ConnOp.fills]
            · rw [hrun, ConnOp.state_run, hstate]
        · refine hkept c (hother hconn c hc) (fun hcompletes => ?_) fun hbuilds => ?_
          · exact hc ((TcpServer.completes_iff hconn).mp hcompletes).2.2.symm
          · rw [TcpServer.builds, hconn] at hbuilds
            cases op <;> simp_all

/-- Where the next message waits, behind a call of the running callback. -/
lemma inFlight_called (message : List Byte) {d : ℕ} {call : AppCall}
    {calls : List (ℕ × AppCall)} {nwrote : Option ℕ} {server : TcpServer Empty}
    (hgraceful : a.server.Graceful) (hcalls : a.calls = (d, call) :: calls)
    (h : a.server.next (callLabel d nwrote call) = some server) (c : ℕ) :
    inFlight message ⟨server, calls⟩ c + (a.server.conns c).buffers +
        (if d = c ∧ call = .send message then 1 else 0) =
      a.inFlight message c + (server.conns c).buffers +
        if a.server.completes (callLabel d nwrote call) = some c then 1 else 0 := by
  have hcompletions := TcpServer.completions_of_next hgraceful.sane.ledger.threadId h c
  have hquiet : a.server.callsComplete (callLabel d nwrote call) = none := by cases call <;> rfl
  rw [hquiet, if_neg (by simp)] at hcompletions
  have hcount : a.calls.count (c, .send message) =
      calls.count (c, .send message) + if d = c ∧ call = .send message then 1 else 0 := by
    rw [hcalls, List.count_cons]
    simp
  simp only [inFlight, hcount]
  omega

/-- The message is sent: it is buffered in part, or its write-complete callback is queued. -/
lemma Feeds.sent {calls : List (ℕ × AppCall)} {nwrote : Option ℕ} {server : TcpServer Empty}
    (h : a.Feeds message c) (hne : message ≠ []) (hgraceful : a.server.Graceful)
    (htold : a.server.hasWriteComplete = true) (hcalls : a.calls = (c, .send message) :: calls)
    (hnext : a.server.next (.userSend c message nwrote) = some server) :
    Feeds message ⟨server, calls⟩ c := by
  have heffects := TcpServer.effects_of_next hgraceful.sane.ledger.threadId hnext
  have hlabel : callLabel c nwrote (.send message) = .userSend c message nwrote := rfl
  have hcalled := inFlight_called message hgraceful hcalls (hlabel ▸ hnext) c
  rw [if_pos ⟨rfl, rfl⟩, hlabel] at hcalled
  -- it waited in this call, and nowhere else
  have hpos : 1 ≤ a.calls.count (c, .send message) := by
    rw [hcalls, List.count_cons_self]
    omega
  have honce := h.once
  have hempty : (a.server.conns c).outputBuffer = [] := by
    by_contra hbuffered
    rw [inFlight, TcpConnection.buffers, if_neg hbuffered] at honce
    omega
  have hflight : a.inFlight message c = 1 := by
    rw [inFlight] at honce ⊢
    omega
  have hnone : (a.server.conns c).buffers = 0 := by rw [TcpConnection.buffers, if_pos hempty]
  by_cases hstate : (a.server.conns c).state = .kConnected
  · have hconn : a.server.connOp (.userSend c message nwrote) =
        some (c, .sendInLoop (a.server.isWriting c) message nwrote) := by
      simp [TcpServer.connOp, hstate]
    have hrun : server.conns c = ((a.server.conns c).sendInLoop (a.server.isWriting c) message
        nwrote).1 := by
      rw [heffects.conns, hconn, TcpServer.perform, Function.update_self, ConnOp.run]
    have hone := (a.server.conns c).buffers_sendInLoop (a.server.isWriting c) nwrote hne hempty
    rw [completes_of_connOp htold hconn, hrun] at hcalled
    have hflight' : inFlight message ⟨server, calls⟩ c = 1 := by
      rw [ConnOp.run] at hcalled
      omega
    obtain ⟨k, hk⟩ := h.bytes
    refine ⟨⟨k + 1, ?_⟩, ?_, fun (hst : (server.conns c).state = .kConnecting) => ?_,
      fun _ => hflight', hflight'.le, fun (hst : (server.conns c).state = .kDisconnecting) => ?_⟩
    · change (server.conns c).socket.accepted ++ (server.conns c).outputBuffer = _
      rw [hrun, TcpConnection.sendInLoop_bytes, hk, List.replicate_succ', List.flatten_append]
      simp
    · change (server.conns c).outputBuffer.length ≤ _
      rw [hrun]
      exact TcpConnection.sendInLoop_room _ _ _ hempty
    · rw [hrun, TcpConnection.sendInLoop_state, hstate] at hst
      exact absurd hst (by simp)
    · rw [hrun, TcpConnection.sendInLoop_state, hstate] at hst
      exact absurd hst (by simp)
  · -- the connection is down, and the message is dropped
    have hconn : a.server.connOp (.userSend c message nwrote) = none := by
      simp [TcpServer.connOp, hstate]
    have hconns : server.conns = a.server.conns := by
      rw [heffects.conns, hconn, TcpServer.perform]
    have hcompletes : a.server.completes (.userSend c message nwrote) ≠ some c := by
      simp [TcpServer.completes, hconn]
    rw [if_neg hcompletes, hconns] at hcalled
    have hflight' : inFlight message ⟨server, calls⟩ c = 0 := by omega
    have hbuilt : (a.server.conns c).state ≠ .kConnecting := fun hst => by
      have hzero := h.unbuilt hst
      omega
    obtain ⟨k, hk⟩ := h.bytes
    refine ⟨⟨k, ?_⟩, ?_, fun _ => hflight', fun hst => ?_, hflight'.le.trans (Nat.zero_le 1), ?_⟩
    · simpa only [hconns] using hk
    · simpa only [hconns] using h.room
    · simp only [hconns] at hst
      exact absurd hst hstate
    · simpa only [hconns] using h.stays

/-- **A call of the running callback.** -/
lemma Generates.called {d : ℕ} {call : AppCall} {calls : List (ℕ × AppCall)} {nwrote : Option ℕ}
    {server : TcpServer Empty} (h : a.Generates message) (hne : message ≠ [])
    (hcalls : a.calls = (d, call) :: calls)
    (hnext : a.server.next (callLabel d nwrote call) = some server) :
    Generates message ⟨server, calls⟩ := by
  have hsane := h.graceful.sane
  have heffects := TcpServer.effects_of_next hsane.ledger.threadId hnext
  have hrest : ∀ call' ∈ calls, call'.2 = .send message ∨ ∃ n, call'.2 = .retrieve n :=
    fun call' hcall' => h.calls call' (hcalls ▸ List.mem_cons_of_mem _ hcall')
  have hhead := h.calls (d, call) (hcalls ▸ List.mem_cons_self)
  -- `shutdown` is not called
  have hshut : ∀ c, .setDisconnecting c ∉ server.todo := fun c hc => by
    have hmem : Op.setDisconnecting c ∈ a.server.todoAfter (callLabel d nwrote call) :=
      heffects.todo ▸ hc
    rcases TcpServer.setDisconnecting_of_todoAfter hmem with hbefore | heq
    · exact h.shut c hbefore
    · rcases hhead with rfl | ⟨n, rfl⟩ <;> simp [callLabel] at heq
  -- what a call does to the connections
  have hconnOp : ∀ op c, a.server.connOp (callLabel d nwrote call) = some (c, op) →
      c = d ∧ ∀ conn : TcpConnection, (op.run conn).1.state = conn.state := by
    intro op c hop
    rcases hhead with rfl | ⟨n, rfl⟩
    · simp only [callLabel, TcpServer.connOp] at hop
      split_ifs at hop
      obtain ⟨rfl, rfl⟩ := Prod.mk.inj (Option.some.inj hop)
      exact ⟨rfl, fun conn => by simp [ConnOp.run]⟩
    · obtain ⟨rfl, rfl⟩ := Prod.mk.inj (Option.some.inj hop)
      exact ⟨rfl, fun conn => rfl⟩
  have hother : ∀ c, c ≠ d → server.conns c = a.server.conns c := fun c hc => by
    rw [heffects.conns]
    cases hop : a.server.connOp (callLabel d nwrote call) with
    | none => rfl
    | some x =>
        obtain ⟨rfl, -⟩ := hconnOp x.2 x.1 hop
        exact Function.update_of_ne hc _ _
  have hstate : ∀ c, (server.conns c).state = (a.server.conns c).state := fun c => by
    rw [heffects.conns]
    cases hop : a.server.connOp (callLabel d nwrote call) with
    | none => rfl
    | some x =>
        obtain ⟨-, hkeep⟩ := hconnOp x.2 x.1 hop
        exact TcpServer.apply_update_keep _ TcpConnection.state (hkeep _) c
  refine ⟨h.graceful.next hnext, heffects.hasWriteComplete.trans h.told, fun c hc => ?_, hshut,
    hrest, fun c => ?_⟩
  · have hid : server.nextConnId = a.server.nextConnId := by
      rw [heffects.nextConnId]
      cases call <;> rfl
    exact (hstate c).trans (h.fresh c (hid ▸ hc))
  · by_cases hc : c = d
    · subst hc
      rcases hhead with rfl | ⟨n, rfl⟩
      · exact (h.feeds c).sent hne h.graceful h.told hcalls hnext
      · have hrun : server.conns c = (ConnOp.run (a.server.conns c) (.retrieve n)).1 := by
          rw [heffects.conns]
          exact Function.update_self _ _ _
        have hcalled := inFlight_called message h.graceful hcalls hnext c
        have hcompletes : a.server.completes (callLabel c nwrote (.retrieve n)) ≠ some c := by
          simp [TcpServer.completes, TcpServer.connOp, callLabel, ConnOp.run]
        have hbuffers : (server.conns c).buffers = (a.server.conns c).buffers := by
          rw [hrun]
          rfl
        rw [if_neg hcompletes, if_neg (by simp), hbuffers] at hcalled
        exact (h.feeds c).of_same (by rw [hrun]; rfl) (by rw [hrun]; rfl) (by omega)
          (Or.inl (hstate c))
    · have hcalled := inFlight_called message h.graceful hcalls hnext c
      have hcompletes : a.server.completes (callLabel d nwrote call) ≠ some c := fun heq => by
        cases hop : a.server.connOp (callLabel d nwrote call) with
        | none => simp [TcpServer.completes, hop] at heq
        | some x =>
            obtain ⟨hxd, -⟩ := hconnOp x.2 x.1 hop
            exact hc (((TcpServer.completes_iff hop).mp heq).2.2.symm.trans hxd)
      rw [if_neg hcompletes, if_neg fun hd => hc hd.1.symm, hother c hc] at hcalled
      exact (h.feeds c).of_same (by rw [hother c hc]) (by rw [hother c hc]) (by omega)
        (Or.inl (hstate c))

/-- The callback returns. -/
lemma Generates.returned {server : TcpServer Empty} (h : a.Generates message)
    (hcalls : a.calls = []) (hnext : a.server.next .userReturn = some server) :
    Generates message ⟨server, []⟩ := by
  have hid := h.graceful.sane.ledger.threadId
  have heffects := TcpServer.effects_of_next hid hnext
  have hconns : server.conns = a.server.conns := heffects.conns
  refine ⟨h.graceful.next hnext, heffects.hasWriteComplete.trans h.told, fun c hc => ?_,
    fun c hc => ?_, fun call hcall => absurd hcall (by simp), fun c => ?_⟩
  · change (server.conns c).state = _
    rw [hconns]
    have hid' : server.nextConnId = a.server.nextConnId := heffects.nextConnId
    exact h.fresh c (hid' ▸ hc)
  · have htodo : server.todo = a.server.todo.tail := heffects.todo
    exact h.shut c (List.mem_of_mem_tail (htodo ▸ hc))
  · have hcompletions := TcpServer.completions_of_next hid hnext c
    have hflight : inFlight message ⟨server, []⟩ c = a.inFlight message c := by
      simpa [inFlight, hconns, hcalls, TcpServer.callsComplete, TcpServer.completes,
        TcpServer.connOp] using hcompletions
    exact (h.feeds c).of_same (by rw [hconns]) (by rw [hconns]) hflight (Or.inl (by rw [hconns]))

/-- **Every step keeps the invariant.** -/
theorem Generates.move (h : a.Generates message) (hne : message ≠ [])
    (hm : Move (chargen message) a a') : a'.Generates message := by
  cases hm with
  | looped hl hnext => exact h.looped hl hnext
  | called hcalls hnext => exact h.called hne hcalls hnext
  | returned hcalls hnext => exact h.returned hcalls hnext

/-- **The stream neither stops nor overtakes its client.**  In every run of `chargen_test`, with
any number of connections, and for every connection:

* the socket has accepted whole messages and a part of one more, and no more than one message is
  ever buffered;
* while the connection is up its next message waits at exactly one place: in the output buffer, in
  a write-complete functor, or in a call of the running callback; afterwards at most at one;
* what is buffered will be written: while the connection is established, its channel is watched
  for writing exactly if something is buffered. -/
theorem chargen_streams {name : String} {acceptFd : ℕ} (hne : message ≠ [])
    (h : Reaches (chargen message) (start (chargen message) name acceptFd) a) (c : ℕ) :
    (∃ k, (a.server.conns c).socket.accepted ++ (a.server.conns c).outputBuffer =
      (List.replicate k message).flatten) ∧
    (a.server.conns c).outputBuffer.length ≤ message.length ∧
    ((a.server.conns c).state = .kConnected → a.inFlight message c = 1) ∧
    a.inFlight message c ≤ 1 ∧
    ((a.server.hist c).stage = .established →
      (a.server.isWriting c = true ↔ (a.server.conns c).outputBuffer ≠ [])) := by
  have hgen : a.Generates message :=
    h.invariant (fun _ _ ha hm => ha.move hne hm) (start_generates message name acceptFd)
  have hfeeds := hgen.feeds c
  exact ⟨hfeeds.bytes, hfeeds.room, hfeeds.up, hfeeds.once, hgen.graceful.drained c⟩

/-- A client connects; the first message is written in two parts, and the second one is begun. -/
def oneAndAHalf : List Label :=
  [.loop .test, .loop (.poll [(.acceptor, POLLIN)]), .loop .dispatch,
    .loop (.exec ⟨some 5, .error, none⟩), .call (some 4000), .ret, .loop .handled, .loop .swap,
    .loop .finish, .loop .test, .loop (.poll [(.conn 1, POLLOUT)]), .loop .dispatch,
    .loop (.exec ⟨none, .error, some 2862⟩), .loop (.exec ⟨none, .error, none⟩),
    .loop (.wakeup .loop), .loop (.exec ⟨none, .error, none⟩), .loop .handled, .loop .swap,
    .loop (.run none), .call (some 100), .ret, .loop .finish]

/-- The message of `main`, once and in part again. -/
theorem chargen_streams_again : ∃ a : AppServer,
    (∃ k, (a.server.conns 1).socket.accepted ++ (a.server.conns 1).outputBuffer =
      (List.replicate k chargenMessage).flatten) ∧
    (a.server.conns 1).socket.accepted.length = 6962 ∧
    (a.server.conns 1).outputBuffer.length ≤ chargenMessage.length ∧
    a.inFlight chargenMessage 1 = 1 ∧ a.server.isWriting 1 = true := by
  have hrun : ((exec (next (chargen chargenMessage)) (fun _ _ => True)
      (start (chargen chargenMessage) "chargen" 3) oneAndAHalf).map fun a =>
        decide ((a.server.conns 1).socket.accepted.length = 6962 ∧
          (a.server.conns 1).outputBuffer ≠ [] ∧ (a.server.conns 1).state = .kConnected ∧
          (a.server.hist 1).stage = .established)) = some true := by
    decide +kernel
  obtain ⟨a, ha, hvals⟩ := Option.map_eq_some_iff.mp hrun
  obtain ⟨hlen, hbuffered, hstate, hstage⟩ := of_decide_eq_true hvals
  have hne : chargenMessage ≠ [] := by decide +kernel
  obtain ⟨hbytes, hroom, hone, -, hwatched⟩ :=
    chargen_streams hne ((Reach.refl _).of_exec ha) 1
  exact ⟨a, hbytes, hlen, hroom, hone hstate, (hwatched hstage).mpr hbuffered⟩

end AppServer

end Tractor
