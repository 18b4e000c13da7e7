import Tractor.Http.AfterClose
import Tractor.Http.ServedFiles
import Tractor.Http.Sessions

/-!
Which replies a connection gets.

`onRequest` sends the response to a request and shuts the connection down if the response closes
it; a rejected request line is answered by a 400 reply and a shutdown.  What is sent behind a
shutdown goes nowhere.

* `answers`: the responses to some requests, up to the first that closes the connection.
* `Answered`: the replies of a session are the answers to the requests passed to the callback,
  and a 400 reply at most behind them.
* `Expects.answered`: the requests that were answered are the first ones of the stream.
* `requests_answered_in_order`: **in every run, what a connection is sent are the answers to the
  first requests of the bytes read from it, each once and in their order.**
-/

namespace Tractor

open Library

/-- The reply to a request. -/
def HttpServer.reply (httpCallback : HttpCallback) (req : HttpRequest) : Reply :=
  .response ((HttpServer.respond httpCallback req).appendToBuffer [])

namespace HttpSession

open HttpParser

variable (httpCallback : HttpCallback) {s : HttpSession} {x : List Byte}

/-- The replies to the requests, up to the first that closes the connection. -/
def answers : List HttpRequest → List Reply
  | [] => []
  | req :: reqs =>
      HttpServer.reply httpCallback req ::
        if (HttpServer.respond httpCallback req).closeConnection then [] else answers reqs

/-- A reply to one of the requests closes the connection. -/
def closes (reqs : List HttpRequest) : Bool :=
  reqs.any fun req => (HttpServer.respond httpCallback req).closeConnection

/-- A 400 reply, if the connection was refused. -/
def refusal (refused : Bool) : List Reply := if refused then [.badRequest] else []

lemma closes_append (reqs reqs' : List HttpRequest) :
    closes httpCallback (reqs ++ reqs') =
      (closes httpCallback reqs || closes httpCallback reqs') := List.any_append

/-- Behind a reply that closes the connection nothing is answered. -/
lemma answers_append (reqs reqs' : List HttpRequest) :
    answers httpCallback (reqs ++ reqs') = answers httpCallback reqs ++
      if closes httpCallback reqs then [] else answers httpCallback reqs' := by
  induction reqs with
  | nil => rfl
  | cons req reqs ih =>
      have hcloses : closes httpCallback (req :: reqs) =
          ((HttpServer.respond httpCallback req).closeConnection || closes httpCallback reqs) :=
        List.any_cons
      rw [List.cons_append, answers, answers, ih, hcloses]
      cases (HttpServer.respond httpCallback req).closeConnection with
      | true => rfl
      | false => rfl

/-! ### The replies of a session -/

/-- The replies of the session are the answers to its callbacks, and a 400 reply if it was
refused, which then is the reason that it is not connected. -/
structure Answered (s : HttpSession) (refused : Bool) : Prop where
  replies : s.replies = answers httpCallback s.callbacks ++ refusal refused
  state : s.state = .kConnected ↔ closes httpCallback s.callbacks = false ∧ refused = false
  once : refused = true → closes httpCallback s.callbacks = false

lemma new_answered : new.Answered httpCallback false :=
  ⟨rfl, by simp [new, closes], by simp⟩

/-- A request is passed to the callback and answered. -/
lemma Answered.request {s' : HttpSession} {req : HttpRequest}
    (h : s.Answered httpCallback false) (hcallbacks : s'.callbacks = s.callbacks ++ [req])
    (hreplies : s'.replies =
      s.replies ++ if s.state = .kConnected then [HttpServer.reply httpCallback req] else [])
    (hstate : s'.state = .kConnected ↔ s.state = .kConnected ∧
      (HttpServer.respond httpCallback req).closeConnection = false) :
    s'.Answered httpCallback false := by
  have hone : answers httpCallback [req] = [HttpServer.reply httpCallback req] := by
    rw [answers, answers, ite_self]
  have hcloses : closes httpCallback [req] =
      (HttpServer.respond httpCallback req).closeConnection := by simp [closes]
  refine ⟨?_, ?_, by simp⟩
  · rw [hreplies, hcallbacks, h.replies, answers_append, hone]
    cases hc : closes httpCallback s.callbacks with
    | true =>
        have hne : s.state ≠ .kConnected := fun hs => by simpa [hc] using h.state.mp hs
        simp [refusal, hne]
    | false =>
        have hs := h.state.mpr ⟨hc, rfl⟩
        simp [refusal, hs]
  · rw [hstate, h.state, hcallbacks, closes_append, hcloses, Bool.or_eq_false_iff]
    tauto

/-- What one call adds to the record. -/
lemma record_onMessage (hrun : s.status = .running) (hread : s.context.Reading)
    (hfresh : s.context.Fresh) (chunk : List Byte) (t : ℤ) :
    (∃ req, (s.onMessage httpCallback chunk t).callbacks = s.callbacks ++ [req] ∧
      (s.onMessage httpCallback chunk t).replies = s.replies ++
        (if s.state = .kConnected then [HttpServer.reply httpCallback req] else []) ∧
      ((s.onMessage httpCallback chunk t).state = .kConnected ↔ s.state = .kConnected ∧
        (HttpServer.respond httpCallback req).closeConnection = false)) ∨
    ((s.onMessage httpCallback chunk t).callbacks = s.callbacks ∧
      (s.onMessage httpCallback chunk t).replies = s.replies ∧
      (s.onMessage httpCallback chunk t).state = s.state) ∨
    ((s.onMessage httpCallback chunk t).callbacks = s.callbacks ∧ s.state = .kConnected ∧
      (s.onMessage httpCallback chunk t).replies = s.replies ++ [.badRequest] ∧
      (s.onMessage httpCallback chunk t).state ≠ .kConnected) := by
  obtain ⟨ok, p, buf, -, hcall⟩ := onMessage_cases httpCallback hrun hread hfresh chunk t
  rcases hcall with ⟨-, -, hcall⟩ | ⟨-, -, -, -, hcall⟩ | ⟨-, -, hcall⟩
  · refine Or.inl ⟨p.httpRequest, ?_⟩
    rw [hcall]
    have hresp : httpCallback p.httpRequest (HttpResponse.new (closeFlag p.httpRequest)) =
        HttpServer.respond httpCallback p.httpRequest := rfl
    simp only [onRequest, hresp, send, shutdown]
    cases hclose : (HttpServer.respond httpCallback p.httpRequest).closeConnection with
    | true => by_cases hs : s.state = .kConnected <;> simp [hs, HttpServer.reply]
    | false => by_cases hs : s.state = .kConnected <;> simp [hs, HttpServer.reply]
  · exact Or.inr (Or.inl (by simp [hcall]))
  · by_cases hs : s.state = .kConnected
    · exact Or.inr (Or.inr (by simp [hcall, send, shutdown, hs]))
    · exact Or.inr (Or.inl (by simp [hcall, send, shutdown, hs]))

/-- Nothing is sent when the connection is not connected. -/
lemma replies_onMessage_of_ne (h : s.state ≠ .kConnected) (chunk : List Byte) (t : ℤ) :
    (s.onMessage httpCallback chunk t).replies = s.replies := by
  rw [onMessage]
  split_ifs
  · split
    · rfl
    · rfl
    · rename_i ok context buf _
      cases ok <;> cases context.gotAll <;> simp [onRequest, send, shutdown, h]
  · rfl

lemma replies_deliver_of_ne (h : s.state ≠ .kConnected) (chunks : List (List Byte × ℤ)) :
    (s.deliver httpCallback chunks).replies = s.replies := by
  induction chunks generalizing s with
  | nil => rfl
  | cons c chunks ih =>
      rw [deliver_cons, ih (onMessage_state_ne httpCallback h c.1 c.2),
        replies_onMessage_of_ne httpCallback h]

/-- Behind a rejected line the record stays. -/
lemma Answered.deliver_of_rejected {refused : Bool} (h : s.Answered httpCallback refused)
    (hrej : s.Rejected) (hstate : s.state ≠ .kConnected) (chunks : List (List Byte × ℤ)) :
    (s.deliver httpCallback chunks).Answered httpCallback refused := by
  have hcallbacks := hrej.deliver httpCallback chunks
  refine ⟨?_, ?_, hcallbacks ▸ h.once⟩
  · rw [replies_deliver_of_ne httpCallback hstate, hcallbacks, h.replies]
  · rw [hcallbacks, ← h.state]
    exact iff_of_false (deliver_state_ne httpCallback hstate chunks) hstate

/-! ### The requests of the stream -/

/-- The session's parser may be given a line. -/
lemma Expects.reading (h : s.Expects x) : s.context.Reading ∧ s.context.Fresh := by
  obtain ⟨x₀, b, z, htr, -, -⟩ := h.input
  exact htr.reading (by simp [Feed.active, h.gotAll])

/-- The first request of the bytes, and the others. -/
lemma requestsUpTo_of_some {q rest : List Byte} {req : HttpRequest} {n : ℕ}
    (h : requestOf q = some (req, rest)) (hn : q.length ≤ n) :
    ∃ m, rest.length ≤ m ∧ requestsUpTo n q = req :: requestsUpTo m rest := by
  obtain ⟨u, rfl, hu, -⟩ := requestOf_front h
  have hpos := List.length_pos_of_ne_nil hu
  rw [List.length_append] at hn
  obtain ⟨m, rfl⟩ : ∃ m, n = m + 1 := ⟨n - 1, by omega⟩
  refine ⟨m, by omega, ?_⟩
  rw [requestsUpTo, h]

/-- **What a session that expects a request answers**: the first requests of what is to come,
and it is refused only behind the last one there can be. -/
theorem Expects.answered (h : s.Expects x) (hs : s.Answered httpCallback false)
    (chunks : List (List Byte × ℤ)) :
    ∃ (reqs : List HttpRequest) (refused : Bool),
      (s.deliver httpCallback chunks).callbacks.map HttpRequest.untimed =
        s.callbacks.map HttpRequest.untimed ++ reqs ∧
      (s.deliver httpCallback chunks).Answered httpCallback refused ∧
      (∀ n, (x ++ (chunks.map Prod.fst).flatten).length ≤ n →
        reqs <+: requestsUpTo n (x ++ (chunks.map Prod.fst).flatten)) ∧
      (refused = true → ∀ y n, (x ++ (chunks.map Prod.fst).flatten ++ y).length ≤ n →
        requestsUpTo n (x ++ (chunks.map Prod.fst).flatten ++ y) = reqs) := by
  induction chunks generalizing s x with
  | nil =>
      exact ⟨[], false, (List.append_nil _).symm, hs, fun _ _ => List.nil_prefix, by simp⟩
  | cons c chunks ih =>
      obtain ⟨hread, hfresh⟩ := h.reading
      have hrecord := record_onMessage httpCallback h.running hread hfresh c.1 c.2
      have hcase := h.onMessage httpCallback c.1 c.2
      rw [deliver_cons, List.map_cons, List.flatten_cons, ← List.append_assoc]
      generalize s.onMessage httpCallback c.1 c.2 = s' at hrecord hcase
      cases hcase with
      | request req hreq hcb hexp =>
          -- the callback ran for the first request of the bytes
          have hs' : s'.Answered httpCallback false := by
            rcases hrecord with ⟨req', hcb', hreplies, hstate⟩ | ⟨hcb', -, -⟩ | ⟨hcb', -, -, -⟩
            · obtain rfl : req' = req := by simpa using hcb'.symm.trans hcb
              exact hs.request httpCallback hcb' hreplies hstate
            · exact absurd (hcb'.symm.trans hcb) (by simp)
            · exact absurd (hcb'.symm.trans hcb) (by simp)
          obtain ⟨reqs, refused, hcallbacks, hanswered, hfirst, hlast⟩ := ih hexp hs'
          refine ⟨req.untimed :: reqs, refused, ?_, hanswered, fun n hn => ?_, fun hr y n hn => ?_⟩
          · rw [hcallbacks, hcb]
            simp
          · obtain ⟨m, hm, heq⟩ := requestsUpTo_of_some (requestOf_append hreq _) hn
            rw [heq]
            exact List.cons_prefix_cons.mpr ⟨rfl, hfirst m hm⟩
          · have hreq' := requestOf_append (requestOf_append hreq (chunks.map Prod.fst).flatten) y
            obtain ⟨m, hm, heq⟩ := requestsUpTo_of_some hreq' hn
            rw [heq, hlast hr y m hm]
      | waits hnone hcb hexp hsame =>
          have hs' : s'.Answered httpCallback false := by
            rcases hrecord with ⟨req', hcb', -, -⟩ | ⟨-, hreplies, hstate⟩ | ⟨-, hopen, -, hclosed⟩
            · exact absurd (hcb'.symm.trans hcb) (by simp)
            · refine ⟨?_, ?_, by simp⟩
              · rw [hreplies, hcb, hs.replies]
              · rw [hstate, hcb, hs.state]
            · exact absurd (hsame.trans hopen) hclosed
          obtain ⟨reqs, refused, hcallbacks, hrest⟩ := ih hexp hs'
          exact ⟨reqs, refused, by rw [hcallbacks, hcb], hrest⟩
      | rejects hnever hcb hrej hinput hclosed =>
          have hnil : ∀ z n, requestsUpTo n (x ++ c.1 ++ z) = [] := fun z n =>
            requestsUpTo_of_none (hnever z) n
          have hs' : ∃ refused, s'.Answered httpCallback refused := by
            rcases hrecord with ⟨req', hcb', -, -⟩ | ⟨-, hreplies, hstate⟩ | ⟨-, hopen, hreplies, -⟩
            · exact absurd (hcb'.symm.trans hcb) (by simp)
            · refine ⟨false, ?_, ?_, by simp⟩
              · rw [hreplies, hcb, hs.replies]
              · rw [hstate, hcb, hs.state]
            · have hopen' := (hs.state.mp hopen).1
              refine ⟨true, ?_, iff_of_false hclosed (by simp), fun _ => hcb ▸ hopen'⟩
              rw [hreplies, hcb, hs.replies]
              simp [refusal]
          obtain ⟨refused, hs'⟩ := hs'
          refine ⟨[], refused, ?_, hs'.deliver_of_rejected httpCallback hrej hclosed chunks,
            fun _ _ => List.nil_prefix, fun _ y n _ => ?_⟩
          · rw [hrej.deliver, hcb, List.append_nil]
          · rw [List.append_assoc]
            exact hnil _ n

/-- **The replies of a new session**, whatever is delivered. -/
theorem answered_deliver (chunks : List (List Byte × ℤ)) :
    ∃ refused, (new.deliver httpCallback chunks).Answered httpCallback refused ∧
      (new.deliver httpCallback chunks).callbacks.map HttpRequest.untimed <+:
        requests (chunks.map Prod.fst).flatten ∧
      (refused = true → ∀ y, requests ((chunks.map Prod.fst).flatten ++ y) =
        (new.deliver httpCallback chunks).callbacks.map HttpRequest.untimed) := by
  obtain ⟨reqs, refused, hcallbacks, hanswered, hfirst, hlast⟩ :=
    new_expects.answered httpCallback (new_answered httpCallback) chunks
  simp only [List.nil_append] at hfirst hlast
  change _ = [] ++ reqs at hcallbacks
  rw [List.nil_append] at hcallbacks
  refine ⟨refused, hanswered, ?_, fun hr y => ?_⟩
  · rw [hcallbacks]
    exact hfirst _ le_rfl
  · rw [hcallbacks]
    exact hlast hr y _ le_rfl

end HttpSession

namespace ReadServer

open HttpParser HttpSession

variable {httpCallback : HttpCallback} {o : ReadServer}

/-- The bytes read from a connection. -/
def stream (o : ReadServer) (c : ℕ) : List Byte := ((o.reads c).map Prod.fst).flatten

/-- **Requests are answered in their order.**  In every run of an `HttpServer` and for every
connection there are requests, the first ones of the bytes read from it as they stand in this
order, each with some receive time, such that what the socket has accepted with what is buffered
are the first bytes of the responses to them, up to the first that closes the connection, and
while no callback is running all of them.  Behind them stands one 400 reply if the connection was
refused; then none of them closes it, and the bytes hold no other request, whatever follows. -/
theorem requests_answered_in_order {name : String} {acceptFd : ℕ}
    (h : Reaches httpCallback (start name acceptFd) o) (c : ℕ) :
    ∃ (reqs : List HttpRequest) (refused : Bool),
      reqs.map HttpRequest.untimed <+: requests (o.stream c) ∧
      (refused = true → closes httpCallback reqs = false ∧
        ∀ y, requests (o.stream c ++ y) = reqs.map HttpRequest.untimed) ∧
      (o.http.server.conns c).socket.accepted ++ (o.http.server.conns c).outputBuffer <+:
        ((answers httpCallback reqs ++ refusal refused).map Reply.bytes).flatten ∧
      (o.http.calls = [] →
        (o.http.server.conns c).socket.accepted ++ (o.http.server.conns c).outputBuffer =
          ((answers httpCallback reqs ++ refusal refused).map Reply.bytes).flatten) := by
  obtain ⟨-, hfirst, hquiet⟩ := connection_is_session h c
  obtain ⟨refused, hanswered, hreqs, hlast⟩ := answered_deliver httpCallback (o.reads c)
  have hreplies := hanswered.replies
  rw [session, hreplies] at hfirst hquiet
  exact ⟨_, refused, hreqs, fun hr => ⟨hanswered.once hr, hlast hr⟩, hfirst,
    fun hcalls => (hquiet hcalls).1⟩

/-- A connection is accepted; a request arrives, of whose response a part is written, and then a
line that is no request line. -/
def requestAndRefusal : List HttpServer.Label :=
  ([.loop .test 0, .loop (.poll [(.acceptor, POLLIN)]) 0, .loop .dispatch 0,
      .loop (.exec ⟨some 5, .error, none⟩) 0] : List HttpServer.Label) ++ HttpServer.comesRound ++
    ([.loop (.poll [(.conn 1, POLLIN)]) 0, .loop .dispatch 0,
      .loop (.exec ⟨none, .data (ascii "GET /hello HTTP/1.1\r\n\r\n"), none⟩) 1, .call none,
      .call (some 7)] : List HttpServer.Label) ++ HttpServer.comesRound ++
    ([.loop (.poll [(.conn 1, POLLIN)]) 0, .loop .dispatch 0,
      .loop (.exec ⟨none, .data (ascii "oops\r\n"), none⟩) 2, .call none, .call none, .call none,
      .loop (.exec ⟨none, .error, none⟩) 0] : List HttpServer.Label) ++ HttpServer.comesRound

/-- One response and the 400 reply behind it. -/
theorem requests_answered_in_order_refused : ∃ (o : ReadServer) (reqs : List HttpRequest)
    (refused : Bool), o.stream 1 = ascii "GET /hello HTTP/1.1\r\n\r\noops\r\n" ∧
    reqs.map HttpRequest.untimed <+: requests (o.stream 1) ∧
    ((o.http.server.conns 1).socket.accepted ++ (o.http.server.conns 1).outputBuffer).length = 148 ∧
    (o.http.server.conns 1).socket.accepted ++ (o.http.server.conns 1).outputBuffer =
      ((answers (HttpServerTest.onRequest fun _ => none) reqs ++ refusal refused).map
        Reply.bytes).flatten := by
  have hrun : ((exec (next (HttpServerTest.onRequest fun _ => none)) (fun _ _ => True)
      (start "s" 3) requestAndRefusal).map fun o =>
        decide (o.stream 1 = ascii "GET /hello HTTP/1.1\r\n\r\noops\r\n" ∧ o.http.calls = [] ∧
          ((o.http.server.conns 1).socket.accepted ++
            (o.http.server.conns 1).outputBuffer).length = 148)) = some true := by
    decide +kernel
  obtain ⟨o, ho, hvals⟩ := Option.map_eq_some_iff.mp hrun
  obtain ⟨hstream, hcalls, hlength⟩ := of_decide_eq_true hvals
  obtain ⟨reqs, refused, hreqs, -, -, hall⟩ :=
    requests_answered_in_order ((Reach.refl _).of_exec ho) 1
  exact ⟨o, reqs, refused, hstream, hreqs, hlength, hall hcalls⟩

end ReadServer

end Tractor
