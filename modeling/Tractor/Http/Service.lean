import Tractor.Http.Encoding
import Tractor.Http.Server
import Tractor.Net.Shutdown

/-!
`HttpServer` on its loop: `src/HttpServer.cpp` over a single-loop `TcpServer`.

The callbacks of the server run in the loop's thread, inside the handler that called
them, and no other thread touches the connections.  `onMessage` parses what was read and
is then a list of calls on its connection: it takes the consumed bytes out of the input
buffer, and sends and shuts down.  Each of these calls, and everything between them, is
a step of the `TcpServer` below.

* `next`: one step of the server.
* `Served`: what holds in every reachable state: the half-close of the server below, which
  replies `send` has accepted, and what stands behind a response in the calls to come.
* `close_announced_and_kept`: **what the client is told agrees with what the server does.**
-/

namespace Tractor

open Library

/-- What a callback does with its connection. -/
inductive ConnCall where
  | retrieve (c n : ℕ)
  | send (c : ℕ) (reply : Reply)
  | shutdown (c : ℕ)
  deriving DecidableEq

/-- The callbacks the server registers. -/
inductive ServerCallback where
  | onConnection (c : ℕ)
  | onMessage (c : ℕ)

/-- `class HttpServer`: the server below, the parser in the context of each connection, and
what the running callback still has to do; and, for the record, the replies handed to `send`,
each with whether its connection was connected then. -/
structure HttpServer where
  server : TcpServer Empty
  context : ℕ → HttpParser
  calls : List ConnCall
  replies : ℕ → List (Reply × Bool)

namespace HttpServer

/-- The server behind `start()` and at the top of `loop()`; no write-complete callback is
set. -/
def start (name : String) (acceptFd : ℕ) : HttpServer where
  server := TcpServer.start name acceptFd false
  context := fun _ => HttpParser.new
  calls := []
  replies := fun _ => []

/-- The response `onRequest` sends. -/
def respond (httpCallback : HttpCallback) (req : HttpRequest) : HttpResponse :=
  httpCallback req (HttpResponse.new (HttpSession.closeFlag req))

/-- `onRequest(conn, req)`. -/
def onRequest (httpCallback : HttpCallback) (c : ℕ) (req : HttpRequest) : List ConnCall :=
  .send c (.response ((respond httpCallback req).appendToBuffer [])) ::
    if (respond httpCallback req).closeConnection then [.shutdown c] else []

/-- `onMessage(conn, buf, receiveTime)`, up to its calls on the connection.  A parser that
does not return stops the server. -/
def onMessage (httpCallback : HttpCallback) (s : HttpServer) (c : ℕ) (receiveTime : ℤ) :
    Option HttpServer :=
  let input := (s.server.conns c).inputBuffer
  match (s.context c).parseRuquest input receiveTime with
  | .ret (ok, context, rest) =>
      some { s with
        context := Function.update s.context c (if context.gotAll then context.reset else context)
        calls := .retrieve c (input.length - rest.length) ::
          ((if ok then [] else [.send c .badRequest, .shutdown c]) ++
            if context.gotAll then onRequest httpCallback c context.httpRequest else []) }
  | _ => none

/-- `onConnection(conn)`. -/
def onConnection (s : HttpServer) (c : ℕ) : HttpServer :=
  if (s.server.conns c).state = .kConnected then
    { s with context := Function.update s.context c HttpParser.new }
  else s

/-- The callback a step of the server below calls. -/
def callback (s : TcpServer Empty) : TcpServer.Label Empty → Option ServerCallback
  | .exec r =>
      match s.todo, r.read, r.accept with
      | .handleRead c :: _, .data _, _ => some (.onMessage c)
      | .accept :: _, _, some _ => some (.onConnection s.nextConnId)
      | _, _, _ => none
  | .run _ =>
      match s.loop.pc.functors with
      | .connectDestroyed c :: _ => some (.onConnection c)
      | _ => none
  | _ => none

/-- The callback begins. -/
def enter (httpCallback : HttpCallback) (s : HttpServer) (receiveTime : ℤ) :
    Option ServerCallback → Option HttpServer
  | none => some s
  | some (.onConnection c) => some (s.onConnection c)
  | some (.onMessage c) => s.onMessage httpCallback c receiveTime

/-- The steps of the server: one of the server below that is not the user's, at some time,
the next call of the running callback, and its return. -/
inductive Label where
  | loop (l : TcpServer.Label Empty) (receiveTime : ℤ)
  | call (nwrote : Option ℕ)
  | ret

/-- The step is taken in a callback. -/
def ofUser : TcpServer.Label Empty → Bool
  | .userSend _ _ _ => true
  | .userShutdown _ => true
  | .userRetrieve _ _ => true
  | .userReturn => true
  | _ => false

/-- One step: `none` if it is not possible. -/
def next (httpCallback : HttpCallback) (s : HttpServer) : Label → Option HttpServer
  | .loop l receiveTime =>
      if ofUser l then none
      else (s.server.next l).bind fun server =>
        enter httpCallback { s with server := server } receiveTime (callback s.server l)
  | .call nwrote =>
      match s.calls with
      | [] => none
      | .retrieve c n :: calls =>
          (s.server.next (.userRetrieve c n)).map fun server =>
            { s with server := server, calls := calls }
      | .send c reply :: calls =>
          (s.server.next (.userSend c reply.bytes nwrote)).map fun server =>
            { s with
              server := server
              calls := calls
              replies := Function.update s.replies c
                (s.replies c ++ [(reply, decide ((s.server.conns c).state = .kConnected))]) }
      | .shutdown c :: calls =>
          (s.server.next (.userShutdown c)).map fun server =>
            { s with server := server, calls := calls }
  | .ret =>
      if s.calls = [] then
        (s.server.next .userReturn).map fun server => { s with server := server }
      else none

/-- The states a server comes through. -/
def Reaches (httpCallback : HttpCallback) (s s' : HttpServer) : Prop :=
  Reach (next httpCallback) (fun _ _ => True) s s'

/-! ### What a step does -/

variable {httpCallback : HttpCallback} {s s' : HttpServer}

/-- Every way the server can move. -/
inductive Move (httpCallback : HttpCallback) (s : HttpServer) : HttpServer → Prop
  | looped {l : TcpServer.Label Empty} {server : TcpServer Empty} {t : ℤ} {s' : HttpServer}
      (hl : ofUser l = false) (h : s.server.next l = some server)
      (henter : enter httpCallback { s with server := server } t (callback s.server l) = some s') :
      Move httpCallback s s'
  | retrieved {c n : ℕ} {calls : List ConnCall} {server : TcpServer Empty}
      (hcalls : s.calls = .retrieve c n :: calls)
      (h : s.server.next (.userRetrieve c n) = some server) :
      Move httpCallback s { s with server := server, calls := calls }
  | sent {c : ℕ} {reply : Reply} {calls : List ConnCall} {nwrote : Option ℕ}
      {server : TcpServer Empty} (hcalls : s.calls = .send c reply :: calls)
      (h : s.server.next (.userSend c reply.bytes nwrote) = some server) :
      Move httpCallback s { s with
        server := server
        calls := calls
        replies := Function.update s.replies c
          (s.replies c ++ [(reply, decide ((s.server.conns c).state = .kConnected))]) }
  | shut {c : ℕ} {calls : List ConnCall} {server : TcpServer Empty}
      (hcalls : s.calls = .shutdown c :: calls)
      (h : s.server.next (.userShutdown c) = some server) :
      Move httpCallback s { s with server := server, calls := calls }
  | returned {server : TcpServer Empty} (h : s.server.next .userReturn = some server) :
      Move httpCallback s { s with server := server }

theorem move_of_next {l : Label} (h : s.next httpCallback l = some s') :
    Move httpCallback s s' := by
  cases l with
  | loop l t =>
      simp only [next] at h
      split_ifs at h with hl
      obtain ⟨server, hserver, henter⟩ := Option.bind_eq_some_iff.mp h
      exact .looped (by simpa using hl) hserver henter
  | call nwrote =>
      simp only [next] at h
      split at h
      · exact absurd h (by simp)
      · rename_i hcalls
        obtain ⟨server, hserver, rfl⟩ := Option.map_eq_some_iff.mp h
        exact .retrieved hcalls hserver
      · rename_i hcalls
        obtain ⟨server, hserver, rfl⟩ := Option.map_eq_some_iff.mp h
        exact .sent hcalls hserver
      · rename_i hcalls
        obtain ⟨server, hserver, rfl⟩ := Option.map_eq_some_iff.mp h
        exact .shut hcalls hserver
  | ret =>
      simp only [next] at h
      split_ifs at h with hcalls
      obtain ⟨server, hserver, rfl⟩ := Option.map_eq_some_iff.mp h
      exact .returned hserver

/-! ### The calls to come -/

/-- Behind each response in the calls stands what `onRequest` does with it. -/
def Scripted (httpCallback : HttpCallback) : List ConnCall → Prop
  | [] => True
  | .send c (.response bytes) :: calls =>
      (∃ req, bytes = (respond httpCallback req).appendToBuffer [] ∧
        calls = if (respond httpCallback req).closeConnection then [.shutdown c] else []) ∧
      Scripted httpCallback calls
  | _ :: calls => Scripted httpCallback calls

lemma Scripted.tail {call : ConnCall} {calls : List ConnCall}
    (h : Scripted httpCallback (call :: calls)) : Scripted httpCallback calls := by
  match call with
  | .retrieve _ _ => exact h
  | .shutdown _ => exact h
  | .send _ .badRequest => exact h
  | .send _ (.response _) => exact h.2

lemma scripted_onRequest (c : ℕ) (req : HttpRequest) :
    Scripted httpCallback (onRequest httpCallback c req) := by
  refine ⟨⟨req, rfl, rfl⟩, ?_⟩
  split_ifs
  · trivial
  · trivial

/-- A callback that begins changes its calls and contexts only. -/
lemma enter_frame {t : ℤ} {cb : Option ServerCallback}
    (h : enter httpCallback s t cb = some s') :
    s'.server = s.server ∧ s'.replies = s.replies ∧
      (Scripted httpCallback s.calls → Scripted httpCallback s'.calls) := by
  match cb with
  | none =>
      obtain rfl := Option.some.inj h
      exact ⟨rfl, rfl, id⟩
  | some (.onConnection c) =>
      obtain rfl := Option.some.inj h
      rw [onConnection]
      split_ifs
      · exact ⟨rfl, rfl, id⟩
      · exact ⟨rfl, rfl, id⟩
  | some (.onMessage c) =>
      simp only [enter, onMessage] at h
      split at h
      · rename_i ok context rest _
        obtain rfl := Option.some.inj h
        refine ⟨rfl, rfl, fun _ => ?_⟩
        have hrequest : Scripted httpCallback
            (if context.gotAll then onRequest httpCallback c context.httpRequest else []) := by
          split_ifs
          · exact scripted_onRequest c context.httpRequest
          · trivial
        cases ok with
        | true => exact hrequest
        | false => exact hrequest
      · exact absurd h (by simp)

/-! ### The replies -/

/-- The replies that were handed to `send` while the connection was connected. -/
def taken (s : HttpServer) (c : ℕ) : List (List Byte) :=
  ((s.replies c).filter Prod.snd).map fun x => x.1.bytes

/-- What holds of a server in every state it comes through. -/
structure Served (httpCallback : HttpCallback) (s : HttpServer) : Prop where
  graceful : s.server.Graceful
  taken : ∀ c, s.taken c = (s.server.hist c).accepted .loop
  scripted : Scripted httpCallback s.calls

lemma start_served (name : String) (acceptFd : ℕ) : (start name acceptFd).Served httpCallback where
  graceful := by
    have h : TcpServer.Reaches (fun _ _ => True) (TcpServer.start name acceptFd false)
        (TcpServer.start name acceptFd false : TcpServer Empty) := Reach.refl _
    exact TcpServer.graceful_of_reaches h
  taken _ := rfl
  scripted := trivial

/-- A step of the server below that sends nothing. -/
lemma Served.step {server : TcpServer Empty} {l : TcpServer.Label Empty}
    (h : s.Served httpCallback) (hl : ∀ c message nwrote, l ≠ .userSend c message nwrote)
    (hserver : s.server.next l = some server) :
    server.Graceful ∧ ∀ c, s.taken c = (server.hist c).accepted .loop := by
  refine ⟨h.graceful.next hserver, fun c => ?_⟩
  have hm := TcpServer.move_of_next h.graceful.sane.ledger.threadId hserver
  rcases (hm.record c).2 with heq | ⟨d, message, nwrote, rfl⟩
  · rw [heq]
    exact h.taken c
  · exact absurd rfl (hl d message nwrote)

/-- **Every step keeps it.** -/
theorem Served.move (h : s.Served httpCallback) (hm : Move httpCallback s s') :
    s'.Served httpCallback := by
  cases hm with
  | @looped l server t _ hl hserver henter =>
      obtain ⟨hgrace, htaken⟩ := h.step (fun c message nwrote heq => by simp [heq, ofUser] at hl)
        hserver
      obtain ⟨hsame, hreplies, hscript⟩ := enter_frame henter
      refine ⟨hsame ▸ hgrace, fun c => ?_, hscript h.scripted⟩
      rw [HttpServer.taken, hreplies, hsame]
      exact htaken c
  | retrieved hcalls hserver =>
      obtain ⟨hgrace, htaken⟩ := h.step (by simp) hserver
      exact ⟨hgrace, htaken, (hcalls ▸ h.scripted).tail⟩
  | @sent c reply calls nwrote server hcalls hserver =>
      refine ⟨h.graceful.next hserver, fun d => ?_, (hcalls ▸ h.scripted).tail⟩
      rw [TcpServer.accepted_userSend hserver d, ← h.taken d]
      by_cases hdc : d = c
      · subst hdc
        by_cases hstate : (s.server.conns d).state = .kConnected
        · simp [HttpServer.taken, hstate]
        · simp [HttpServer.taken, hstate]
      · simp [HttpServer.taken, hdc]
  | shut hcalls hserver =>
      obtain ⟨hgrace, htaken⟩ := h.step (by simp) hserver
      exact ⟨hgrace, htaken, (hcalls ▸ h.scripted).tail⟩
  | returned hserver =>
      obtain ⟨hgrace, htaken⟩ := h.step (by simp) hserver
      exact ⟨hgrace, htaken, h.scripted⟩

theorem served_of_reaches {name : String} {acceptFd : ℕ}
    (h : Reaches httpCallback (start name acceptFd) s) : s.Served httpCallback :=
  h.invariant (fun _ _ _ hs _ hnext => hs.move (move_of_next hnext)) (start_served name acceptFd)

/-- With the loop's thread alone, what `sendInLoop` has taken over are the replies. -/
lemma Served.bytes_handled (h : s.Served httpCallback) (c : ℕ) :
    TcpServer.bytesOf (s.server.hist c).handled = (s.taken c).flatten := by
  have horder := (h.graceful.streamed c).order .loop
  have hloop : TcpServer.messagesOf .loop (s.server.hist c).handled =
      (s.server.hist c).handled.map Prod.snd := by
    rw [TcpServer.messagesOf, List.filter_eq_self.mpr]
    rintro ⟨th, message⟩ -
    cases th with
    | loop => rfl
    | other t => exact t.elim
  rw [TcpServer.messagesOf_append, TcpServer.messagesOf_loop_queued, hloop, List.append_nil,
    ← h.taken c] at horder
  rw [TcpServer.bytesOf, ← horder]
  exact congrArg List.flatten (List.append_nil _).symm

/-- **What the client is told agrees with what the server does.**  The callback adds no
`Connection` header and puts no line end into the status message and the headers.  In every
state that any run reaches, on every connection:

* a response that `onRequest` is about to send while the connection is connected has the line
  `Connection: close` in its header section if and only if `onRequest` then calls
  `shutdown()`;
* as long as the close path has not run, a step executes `shutdownWrite` only when nothing is
  buffered and the socket has accepted every byte of every reply that was handed to `send`
  while the connection was connected. -/
theorem close_announced_and_kept (hcb : ∀ req, (respond httpCallback req).Framed) {name : String}
    {acceptFd : ℕ} (h : Reaches httpCallback (start name acceptFd) s) (c : ℕ) :
    (∀ bytes rest, s.calls = .send c (.response bytes) :: rest →
      (s.server.conns c).state = .kConnected →
      (ascii "Connection: close" ∈ HttpResponse.headerSection bytes ↔ .shutdown c ∈ rest)) ∧
    ∀ l s', s.next httpCallback l = some s' → (s.server.hist c).closeCalls = 0 →
      TcpServer.shutsDown s.server s'.server c →
      (s.server.conns c).outputBuffer = [] ∧
        (s.server.conns c).socket.accepted = (s.taken c).flatten := by
  have hs := served_of_reaches h
  constructor
  · intro bytes rest hcalls _
    have hscript := hs.scripted
    rw [hcalls] at hscript
    obtain ⟨⟨req, rfl, rfl⟩, -⟩ := hscript
    rw [(hcb req).announces_iff]
    split_ifs with hclose
    · simp [hclose]
    · simp [hclose]
  · intro l s' hnext hopen hshut
    obtain ⟨l', hserver⟩ : ∃ l', s.server.next l' = some s'.server := by
      cases move_of_next hnext with
      | looped _ hserver henter =>
          obtain ⟨hsame, -, -⟩ := enter_frame henter
          exact ⟨_, hserver.trans (congrArg some hsame.symm)⟩
      | retrieved _ hserver => exact ⟨_, hserver⟩
      | sent _ hserver => exact ⟨_, hserver⟩
      | shut _ hserver => exact ⟨_, hserver⟩
      | returned hserver => exact ⟨_, hserver⟩
    have hm := TcpServer.move_of_next hs.graceful.sane.ledger.threadId hserver
    obtain ⟨hbuffer, haccepted⟩ := hs.graceful.drained_of_shutsDown hm hopen hshut
    exact ⟨hbuffer, haccepted.trans (hs.bytes_handled c)⟩

/-- The default callback is one of those. -/
lemma framed_default (req : HttpRequest) : (respond defaultHttpCallback req).Framed where
  message_free := by
    change Free 13 10 (ascii "Not Found")
    decide
  header_free field value h := by
    change (∅ : Std.ExtTreeMap (List Byte) (List Byte))[field]? = some value at h
    simp at h
  connection := by
    change (∅ : Std.ExtTreeMap (List Byte) (List Byte))[ascii "Connection"]? = none
    simp

/-- The callback returns and the loop comes round to `poll`. -/
def comesRound : List Label :=
  [.ret, .loop .handled 0, .loop .swap 0, .loop .finish 0, .loop .test 0]

/-- A request of version 1.0 is read from the first connection. -/
def requestRead : List Label :=
  [.loop (.poll [(.conn 1, POLLIN)]) 0, .loop .dispatch 0,
    .loop (.exec ⟨none, .data (ascii "GET / HTTP/1.0\r\n\r\n"), none⟩) 0, .call none]

/-- A connection is accepted and a request read; one byte of the response is written, and the
connection shut down. -/
def halfAnswered : List Label :=
  ([.loop .test 0, .loop (.poll [(.acceptor, POLLIN)]) 0, .loop .dispatch 0,
      .loop (.exec ⟨some 5, .error, none⟩) 0] : List Label) ++ comesRound ++ requestRead ++
    ([.call (some 1), .call none, .loop (.exec ⟨none, .error, none⟩) 0] : List Label) ++ comesRound

/-- Another request is read, and its reply handed to `send`. -/
def answeredAgain : List Label := requestRead ++ [.call none, .call none] ++ comesRound

/-- The other bytes of the response are written. -/
def fullyWritten : List Label :=
  [.loop (.poll [(.conn 1, POLLOUT)]) 0, .loop .dispatch 0,
    .loop (.exec ⟨none, .error, some 44⟩) 0]

/-- The response is written in two parts before the half-close. -/
theorem close_announced_and_kept_parts : ∃ s s' : HttpServer,
    Reaches defaultHttpCallback (start "s" 3) s ∧
    s.next defaultHttpCallback (.loop (.exec ⟨none, .error, none⟩) 0) = some s' ∧
    (s'.server.conns 1).socket.shutdownWrites = 1 ∧
    (s.server.conns 1).outputBuffer = [] ∧
    (s.server.conns 1).socket.accepted = (s.taken 1).flatten ∧
    (s.taken 1).length = 1 := by
  have hrun : ((exec (next defaultHttpCallback) (fun _ _ => True) (start "s" 3)
      (halfAnswered ++ fullyWritten)).bind fun s =>
      (s.next defaultHttpCallback (.loop (.exec ⟨none, .error, none⟩) 0)).map fun s' =>
        decide ((s.server.conns 1).socket.shutdownWrites = 0 ∧
          (s'.server.conns 1).socket.shutdownWrites = 1 ∧ (s.server.hist 1).closeCalls = 0 ∧
          (s.taken 1).length = 1)) = some true := by decide +kernel
  obtain ⟨s, hs, hrun⟩ := Option.bind_eq_some_iff.mp hrun
  obtain ⟨s', hs', hvals⟩ := Option.map_eq_some_iff.mp hrun
  obtain ⟨hbefore, hafter, hopen, hone⟩ := of_decide_eq_true hvals
  have hreach : Reaches defaultHttpCallback (start "s" 3) s := (Reach.refl _).of_exec hs
  obtain ⟨hbuffer, haccepted⟩ := (close_announced_and_kept framed_default hreach 1).2 _ s' hs' hopen
    (by simp [TcpServer.shutsDown, hbefore, hafter])
  exact ⟨s, s', hreach, hs', hafter, hbuffer, haccepted, hone⟩

/-- **A reply behind the close goes nowhere.**  A second request arrives while the response
that closes the connection is still being written: its reply is handed to `send`, which drops
it, and `shutdownWrite` is executed without a byte of it. -/
theorem reply_behind_close_dropped : (∀ req, (respond defaultHttpCallback req).Framed) ∧
    ∃ s s' : HttpServer, Reaches defaultHttpCallback (start "s" 3) s ∧
    s.next defaultHttpCallback (.loop (.exec ⟨none, .error, none⟩) 0) = some s' ∧
    (s.server.hist 1).closeCalls = 0 ∧
    TcpServer.shutsDown s.server s'.server 1 ∧
    (s.replies 1).length = 2 ∧
    (s.server.conns 1).socket.accepted ≠ ((s.replies 1).map fun x => x.1.bytes).flatten := by
  have hrun : ((exec (next defaultHttpCallback) (fun _ _ => True) (start "s" 3)
      (halfAnswered ++ answeredAgain ++ fullyWritten)).bind fun s =>
      (s.next defaultHttpCallback (.loop (.exec ⟨none, .error, none⟩) 0)).map fun s' =>
        decide ((s.server.conns 1).socket.shutdownWrites = 0 ∧
          (s'.server.conns 1).socket.shutdownWrites = 1 ∧ (s.server.hist 1).closeCalls = 0 ∧
          (s.replies 1).length = 2 ∧
          (s.server.conns 1).socket.accepted.length ≠
            ((s.replies 1).map fun x => x.1.bytes).flatten.length)) = some true := by decide +kernel
  obtain ⟨s, hs, hrun⟩ := Option.bind_eq_some_iff.mp hrun
  obtain ⟨s', hs', hvals⟩ := Option.map_eq_some_iff.mp hrun
  obtain ⟨hbefore, hafter, hopen, htwo, hne⟩ := of_decide_eq_true hvals
  refine ⟨framed_default, s, s', (Reach.refl _).of_exec hs, hs', hopen, ?_, htwo,
    fun heq => hne ?_⟩
  · simp [TcpServer.shutsDown, hbefore, hafter]
  · rw [heq]

end HttpServer

end Tractor
