import Tractor.Http.Incremental
import Tractor.Http.Response
import Tractor.Net.TcpConnection

/-!
`HttpServer`: one connection served by `src/HttpServer.cpp`.

A session is what the server keeps for a connection: the parser in its context, the
unread input, and the connection state that decides whether `send` and `shutdown` do
anything.  `onMessage` is one call of the message callback on a chunk that was read.
It parses at most one request of the input, and after a rejected request line it
parses the same line again when more input arrives.

* `onMessage_cases`: what one call does to a session whose parser may be given a line.
* `processRequestLine_again`: a rejected line, read again, is rejected again or trips
  the assertion of `setMethod`, if it left its method behind.
* `Rejected.deliver`: behind a rejected line no request is passed to the callback.
* `no_assertion_fails_iff`: no assertion fails and at most one 400 reply is handed to
  the socket exactly if nothing arrives behind a request line that names a known
  method and is rejected for its rest.
-/

namespace Tractor

open Library

/-- How a session stands: served, stopped by a failed assertion, or in a loop that does
not end. -/
inductive Status where
  | running
  | aborted (f : HttpFault)
  | hung
  deriving DecidableEq

/-- What is passed to `send`. -/
inductive Reply where
  | badRequest
  | response (bytes : List Byte)
  deriving DecidableEq

def Reply.bytes : Reply → List Byte
  | badRequest => ascii "HTTP/1.1 400 Bad Request\r\n\r\n"
  | response bytes => bytes

/-- `HttpServer::HttpCallback`. -/
abbrev HttpCallback := HttpRequest → HttpResponse → HttpResponse

def defaultHttpCallback : HttpCallback := fun _ resp =>
  ((resp.setStatusCode .k404NotFound).setStatusMessage (ascii "Not Found")).setCloseConnection true

/-- One connection of the server: the parser in its context, its input buffer and its
state; and, for the record, the requests passed to the callback and the replies handed
to the socket. -/
structure HttpSession where
  context : HttpParser
  inputBuffer : List Byte
  state : ConnectState
  status : Status
  callbacks : List HttpRequest
  replies : List Reply

namespace HttpSession

/-- The connection after `onConnection`. -/
def new : HttpSession := ⟨HttpParser.new, [], .kConnected, .running, [], []⟩

/-- `TcpConnection::send` in the loop thread. -/
def send (s : HttpSession) (r : Reply) : HttpSession :=
  if s.state = .kConnected then { s with replies := s.replies ++ [r] } else s

/-- `TcpConnection::shutdown`. -/
def shutdown (s : HttpSession) : HttpSession :=
  if s.state = .kConnected then { s with state := .kDisconnecting } else s

/-- The `close` flag `onRequest` gives the response. -/
def closeFlag (req : HttpRequest) : Bool :=
  let connection := req.getHeader (ascii "Connection")
  connection = ascii "close" ∨ (req.version = .kHttp10 ∧ connection ≠ ascii "Keep-Alive")

/-- `onRequest(conn, req)`. -/
def onRequest (httpCallback : HttpCallback) (s : HttpSession) (req : HttpRequest) :
    HttpSession :=
  let response := httpCallback req (HttpResponse.new (closeFlag req))
  let s := { s with callbacks := s.callbacks ++ [req] }
  let s := s.send (.response (response.appendToBuffer []))
  if response.closeConnection then s.shutdown else s

/-- `onMessage(conn, buf, receiveTime)` after `chunk` was appended to the input. -/
def onMessage (httpCallback : HttpCallback) (s : HttpSession) (chunk : List Byte)
    (receiveTime : ℤ) : HttpSession :=
  if s.status = .running then
    match s.context.parseRuquest (s.inputBuffer ++ chunk) receiveTime with
    | .abort f => { s with inputBuffer := s.inputBuffer ++ chunk, status := .aborted f }
    | .hang => { s with inputBuffer := s.inputBuffer ++ chunk, status := .hung }
    | .ret (ok, context, buf) =>
        let s := { s with context := context, inputBuffer := buf }
        let s := if ok then s else (s.send .badRequest).shutdown
        if context.gotAll then
          { onRequest httpCallback s context.httpRequest with context := context.reset }
        else s
  else s

/-- The chunks of a stream, each delivered as one call of `onMessage`. -/
def deliver (httpCallback : HttpCallback) (s : HttpSession) (chunks : List (List Byte × ℤ)) :
    HttpSession :=
  chunks.foldl (fun s c => s.onMessage httpCallback c.1 c.2) s

end HttpSession

/-! ### Lines that are rejected -/

namespace HttpParser

variable {t : ℤ} {p p' : HttpParser} {q r : List Byte} {ok : Bool}

/-- Header lines are never rejected. -/
lemma Parses.ok_of_headers (h : Parses t p q (.ok (ok, p', r)))
    (hs : p.state = .kExpectHeaders) : ok = true := by
  generalize hres : (Except.ok (ok, p', r) : Except HttpFault _) = res at h
  induction h with
  | wait _ => simp_all
  | @next p p₁ q i res hm hl _ ih => exact ih (state_of_lineStep_next (Or.inr hs) hl) hres
  | last _ _ => simp_all
  | @reject p p₁ q i hm hl =>
      have hs' := (state_of_lineStep_reject (Or.inr hs) hl).1
      exact absurd (hs.symm.trans hs') (by simp)
  | fault _ _ => simp_all

/-- A call that rejects was given the whole request line first, and leaves it unread. -/
lemma Parses.reject_inv (h : Parses t p q (.ok (false, p', r))) (hp : p.Reading) :
    r = q ∧ p.state = .kExpectRequestLine ∧ p'.state = .kExpectRequestLine ∧
      ∃ i, memmem Buffer.kCRLF q = some i ∧
        processRequestLine p.httpRequest (q.take i) = .ok (false, p'.httpRequest) := by
  generalize hres : (Except.ok (false, p', r) : Except HttpFault _) = res at h
  cases h with
  | wait _ => exact absurd hres (by simp)
  | next hm hl h' =>
      subst hres
      exact absurd (h'.ok_of_headers (state_of_lineStep_next hp hl)) (by simp)
  | last _ _ => exact absurd hres (by simp)
  | @reject _ p₁ _ i hm hl =>
      obtain ⟨rfl, rfl⟩ : p' = p₁ ∧ r = q := by simpa using hres
      obtain ⟨hs, hs', hline⟩ := state_of_lineStep_reject hp hl
      exact ⟨rfl, hs, hs', i, hm, hline⟩
  | fault _ _ => exact absurd hres (by simp)

/-- The line names a known method, and what follows is no target and version. -/
def HalfRequestLine (line : List Byte) : Prop :=
  let space := line.findIdx (· == 32)
  space ≠ line.length ∧ HttpRequest.methodOf (line.take space) ≠ .kInvalid ∧
    (processTarget HttpRequest.new (line.drop (space + 1))).1 = false

lemma processTarget_fst (r r' : HttpRequest) (rest : List Byte) :
    (processTarget r rest).1 = (processTarget r' rest).1 := by
  simp only [processTarget]
  split_ifs <;> rfl

lemma processTarget_method (r : HttpRequest) (rest : List Byte) :
    (processTarget r rest).2.method = r.method := by
  simp only [processTarget]
  split_ifs <;> rfl

/-- **A line that was rejected, read again**: it left the request as it was and is
rejected again, or it left the method behind and now trips the assertion. -/
lemma processRequestLine_again {r r' : HttpRequest} {line : List Byte}
    (hr : r.method = .kInvalid) (h : processRequestLine r line = .ok (false, r')) :
    (HalfRequestLine line ∧ processRequestLine r' line = .error .setMethod) ∨
      (¬ HalfRequestLine line ∧ r' = r) := by
  by_cases hspace : line.findIdx (· == 32) = line.length
  · simp only [processRequestLine] at h
    rw [if_neg (not_not.mpr hspace)] at h
    obtain rfl : r = r' := by simpa [pure, Except.pure] using h
    exact Or.inr ⟨fun hhalf => hhalf.1 hspace, rfl⟩
  · simp only [processRequestLine] at h
    rw [if_pos hspace, HttpRequest.setMethod, check_bind_of hr] at h
    by_cases hknown : HttpRequest.methodOf (line.take (line.findIdx (· == 32))) = .kInvalid
    · simp only [hknown, pure, Except.pure, bind, Except.bind, ne_eq, not_true_eq_false,
        decide_false, Bool.false_eq_true, if_false, Except.ok.injEq, Prod.mk.injEq,
        true_and] at h
      refine Or.inr ⟨fun hhalf => hhalf.2.1 hknown, ?_⟩
      rw [← h, ← hr]
    · simp only [hknown, pure, Except.pure, bind, Except.bind, ne_eq, not_false_eq_true,
        decide_true, if_true, Except.ok.injEq] at h
      have hmethod : r'.method ≠ .kInvalid := by
        rw [show r' = (processTarget _ _).2 from (congrArg Prod.snd h).symm,
          processTarget_method]
        exact hknown
      refine Or.inl ⟨⟨hspace, hknown, ?_⟩, processRequestLine_of_method hmethod hspace⟩
      rw [processTarget_fst _ { r with method := _ }, h]

/-- A half request line is rejected. -/
lemma processRequestLine_of_half {r : HttpRequest} {line : List Byte} (hr : r.method = .kInvalid)
    (h : HalfRequestLine line) : ∃ r', processRequestLine r line = .ok (false, r') := by
  obtain ⟨hspace, hknown, hrest⟩ := h
  simp only [processRequestLine]
  rw [if_pos hspace, HttpRequest.setMethod, check_bind_of hr]
  simp only [pure, Except.pure, bind, Except.bind, ne_eq, hknown, not_false_eq_true, decide_true,
    if_true]
  refine ⟨_, congrArg Except.ok (Prod.ext ?_ rfl)⟩
  rw [processTarget_fst _ HttpRequest.new, hrest]

end HttpParser

namespace HttpSession

variable (httpCallback : HttpCallback) {s : HttpSession}

@[simp] lemma send_context (s : HttpSession) (r : Reply) : (s.send r).context = s.context := by
  rw [send]; split_ifs <;> rfl

@[simp] lemma send_inputBuffer (s : HttpSession) (r : Reply) :
    (s.send r).inputBuffer = s.inputBuffer := by
  rw [send]; split_ifs <;> rfl

@[simp] lemma send_status (s : HttpSession) (r : Reply) : (s.send r).status = s.status := by
  rw [send]; split_ifs <;> rfl

@[simp] lemma send_callbacks (s : HttpSession) (r : Reply) :
    (s.send r).callbacks = s.callbacks := by
  rw [send]; split_ifs <;> rfl

@[simp] lemma shutdown_context (s : HttpSession) : s.shutdown.context = s.context := by
  rw [shutdown]; split_ifs <;> rfl

@[simp] lemma shutdown_inputBuffer (s : HttpSession) :
    s.shutdown.inputBuffer = s.inputBuffer := by
  rw [shutdown]; split_ifs <;> rfl

@[simp] lemma shutdown_status (s : HttpSession) : s.shutdown.status = s.status := by
  rw [shutdown]; split_ifs <;> rfl

@[simp] lemma shutdown_callbacks (s : HttpSession) : s.shutdown.callbacks = s.callbacks := by
  rw [shutdown]; split_ifs <;> rfl

@[simp] lemma send_state (s : HttpSession) (r : Reply) : (s.send r).state = s.state := by
  rw [send]; split_ifs <;> rfl

/-- A connection that was shut down is not connected. -/
lemma shutdown_state_ne (s : HttpSession) : s.shutdown.state ≠ .kConnected := by
  rw [shutdown]
  split_ifs with hs
  · simp
  · exact hs

lemma onRequest_spec (s : HttpSession) (req : HttpRequest) :
    (s.onRequest httpCallback req).status = s.status ∧
      (s.onRequest httpCallback req).inputBuffer = s.inputBuffer ∧
      (s.onRequest httpCallback req).callbacks = s.callbacks ++ [req] := by
  simp only [onRequest]
  split_ifs <;> simp

/-! ### What one call does -/

/-- **One call on a session whose parser may be given a line**: no assertion fails, and
the call completes the request, waits for more, or rejects a request line. -/
theorem onMessage_cases (hrun : s.status = .running) (hread : s.context.Reading)
    (hfresh : s.context.Fresh) (chunk : List Byte) (t : ℤ) :
    ∃ ok p buf, HttpParser.Parses t s.context (s.inputBuffer ++ chunk) (.ok (ok, p, buf)) ∧
      ((ok = true ∧ p.gotAll = true ∧ s.onMessage httpCallback chunk t =
          { onRequest httpCallback { s with context := p, inputBuffer := buf } p.httpRequest
            with context := HttpParser.new }) ∨
        (ok = true ∧ p.gotAll = false ∧ p.Reading ∧ p.Fresh ∧
          s.onMessage httpCallback chunk t = { s with context := p, inputBuffer := buf }) ∨
        (ok = false ∧ p.gotAll = false ∧ s.onMessage httpCallback chunk t =
          (send { s with context := p, inputBuffer := buf } .badRequest).shutdown)) := by
  obtain ⟨res, hparse⟩ := HttpParser.exists_parses t s.context (s.inputBuffer ++ chunk)
  obtain ⟨⟨ok, p, buf⟩, rfl⟩ := hparse.ok_of_fresh hread hfresh
  have hret := HttpParser.parseRuquest_eq hparse hread
  refine ⟨ok, p, buf, hparse, ?_⟩
  have hcall : s.onMessage httpCallback chunk t =
      if p.gotAll then
        { onRequest httpCallback
            (if ok then { s with context := p, inputBuffer := buf }
              else (send { s with context := p, inputBuffer := buf } .badRequest).shutdown)
            p.httpRequest with context := p.reset }
      else if ok then { s with context := p, inputBuffer := buf }
      else (send { s with context := p, inputBuffer := buf } .badRequest).shutdown := by
    rw [onMessage, if_pos hrun, hret]
    rfl
  rcases hparse.state_cases hread hfresh with ⟨rfl, hr, hf⟩ | ⟨rfl, hg⟩ | ⟨rfl, hs⟩
  · have hg : p.gotAll = false := by
      rcases hr with hs | hs <;> simp [HttpParser.gotAll, hs]
    exact Or.inr (Or.inl ⟨rfl, hg, hr, hf, by rw [hcall, hg]; rfl⟩)
  · exact Or.inl ⟨rfl, hg, by rw [hcall, hg]; rfl⟩
  · have hg : p.gotAll = false := by simp [HttpParser.gotAll, hs]
    exact Or.inr (Or.inr ⟨rfl, hg, by rw [hcall, hg]; rfl⟩)

/-- A session that has stopped stays as it is. -/
lemma onMessage_of_not_running (h : s.status ≠ .running) (chunk : List Byte) (t : ℤ) :
    s.onMessage httpCallback chunk t = s := if_neg h

lemma deliver_cons (s : HttpSession) (c : List Byte × ℤ) (chunks : List (List Byte × ℤ)) :
    s.deliver httpCallback (c :: chunks) =
      (s.onMessage httpCallback c.1 c.2).deliver httpCallback chunks := rfl

lemma deliver_of_not_running (h : s.status ≠ .running) (chunks : List (List Byte × ℤ)) :
    s.deliver httpCallback chunks = s := by
  induction chunks with
  | nil => rfl
  | cons c chunks ih =>
      rw [deliver_cons, onMessage_of_not_running _ h, ih]

/-! ### A rejected request line, read again -/

/-- The first line of the input is a request line that was rejected: reading it again
trips the assertion or changes nothing. -/
structure Rejected (s : HttpSession) : Prop where
  state : s.context.state = .kExpectRequestLine
  line : ∃ i, memmem Buffer.kCRLF s.inputBuffer = some i ∧
    (HttpParser.processRequestLine s.context.httpRequest (s.inputBuffer.take i) =
        .error .setMethod ∨
      HttpParser.processRequestLine s.context.httpRequest (s.inputBuffer.take i) =
        .ok (false, s.context.httpRequest))

/-- A call that rejects leaves the line to be rejected again. -/
lemma rejected_of_parses {t : ℤ} {q buf : List Byte} {p p' : HttpParser}
    (h : HttpParser.Parses t p q (.ok (false, p', buf))) (hread : p.Reading) (hfresh : p.Fresh)
    (hctx : s.context = p') (hbuf : s.inputBuffer = buf) : s.Rejected := by
  obtain ⟨rfl, hs, hs', i, hm, hline⟩ := h.reject_inv hread
  subst hctx hbuf
  refine ⟨hs', i, hm, ?_⟩
  rcases HttpParser.processRequestLine_again (hfresh hs) hline with ⟨-, hagain⟩ | ⟨-, hsame⟩
  · exact Or.inl hagain
  · rw [hsame] at hline ⊢
    exact Or.inr hline

/-- A call on input whose first line trips the assertion. -/
lemma onMessage_of_line_error {i : ℕ} {f : HttpFault} (hrun : s.status = .running)
    (hs : s.context.state = .kExpectRequestLine) (hm : memmem Buffer.kCRLF s.inputBuffer = some i)
    (hline : HttpParser.processRequestLine s.context.httpRequest (s.inputBuffer.take i) = .error f)
    (chunk : List Byte) (t : ℤ) :
    s.onMessage httpCallback chunk t =
      { s with inputBuffer := s.inputBuffer ++ chunk, status := .aborted f } := by
  obtain ⟨hm', htake, -⟩ := HttpParser.crlf_append hm chunk
  have hparse : HttpParser.Parses t s.context (s.inputBuffer ++ chunk) (.error f) := by
    refine .fault hm' ?_
    rw [htake, HttpParser.lineStep_requestLine hs, hline]
    rfl
  rw [onMessage, if_pos hrun, HttpParser.parseRuquest_eq hparse (Or.inl hs)]
  rfl

/-- A call on input whose first line is rejected and leaves the request as it is. -/
lemma onMessage_of_line_reject {i : ℕ} (hrun : s.status = .running)
    (hs : s.context.state = .kExpectRequestLine) (hm : memmem Buffer.kCRLF s.inputBuffer = some i)
    (hline : HttpParser.processRequestLine s.context.httpRequest (s.inputBuffer.take i) =
      .ok (false, s.context.httpRequest)) (chunk : List Byte) (t : ℤ) :
    s.onMessage httpCallback chunk t =
      (send { s with inputBuffer := s.inputBuffer ++ chunk } .badRequest).shutdown := by
  obtain ⟨hm', htake, -⟩ := HttpParser.crlf_append hm chunk
  have hparse : HttpParser.Parses t s.context (s.inputBuffer ++ chunk)
      (.ok (false, s.context, s.inputBuffer ++ chunk)) := by
    refine .reject hm' ?_
    rw [htake, HttpParser.lineStep_requestLine hs, hline]
    rfl
  have hgot : s.context.gotAll = false := by simp [HttpParser.gotAll, hs]
  rw [onMessage, if_pos hrun, HttpParser.parseRuquest_eq hparse (Or.inl hs)]
  simp only [HttpParser.toOutcome, hgot, Bool.false_eq_true, if_false]

/-- **Calls behind a rejected line** pass no request to the callback. -/
theorem Rejected.deliver (h : s.Rejected) (chunks : List (List Byte × ℤ)) :
    (s.deliver httpCallback chunks).callbacks = s.callbacks := by
  induction chunks generalizing s with
  | nil => rfl
  | cons c chunks ih =>
      by_cases hrun : s.status = .running
      · obtain ⟨hs, i, hm, hline⟩ := h
        obtain ⟨hm', htake, -⟩ := HttpParser.crlf_append hm c.1
        rcases hline with hline | hline
        · rw [deliver_cons, onMessage_of_line_error _ hrun hs hm hline,
            deliver_of_not_running _ (by simp)]
        · rw [deliver_cons, onMessage_of_line_reject _ hrun hs hm hline]
          refine (ih ⟨by simpa using hs, i, by simpa using hm', Or.inr ?_⟩).trans (by simp)
          simpa [htake] using hline
      · rw [deliver_of_not_running _ hrun]

/-! ### Assertions and 400 replies -/

/-- The chunk completes a request line that names a known method and is rejected for
what follows it. -/
def HalfRequest (s : HttpSession) (chunk : List Byte) : Prop :=
  s.context.state = .kExpectRequestLine ∧ ∃ i,
    memmem Buffer.kCRLF (s.inputBuffer ++ chunk) = some i ∧
      HttpParser.HalfRequestLine ((s.inputBuffer ++ chunk).take i)

/-- No assertion has failed and at most one 400 reply was handed to the socket. -/
def Safe (s : HttpSession) : Prop :=
  (∀ f, s.status ≠ .aborted f) ∧ s.replies.count .badRequest ≤ 1

/-- A session that can be given any chunk: its parser may be given a line, and a 400
reply has been handed over only if the connection was shut down. -/
structure Sound (s : HttpSession) : Prop where
  running : s.status = .running
  reading : s.context.Reading
  fresh : s.context.Fresh
  replies : s.replies.count .badRequest ≤ if s.state = .kConnected then 0 else 1

lemma new_sound : new.Sound :=
  ⟨rfl, HttpParser.new_reading, HttpParser.new_fresh, by decide⟩

/-- The bound on 400 replies survives handing over a response. -/
lemma replies_onRequest (req : HttpRequest)
    (h : s.replies.count .badRequest ≤ if s.state = .kConnected then 0 else 1) :
    (s.onRequest httpCallback req).replies.count .badRequest ≤
      if (s.onRequest httpCallback req).state = .kConnected then 0 else 1 := by
  by_cases hs : s.state = .kConnected
  · rw [if_pos hs] at h
    simp only [onRequest, send, shutdown, hs, if_true]
    split_ifs <;> simp_all
  · rw [if_neg hs] at h
    simp only [onRequest, send, shutdown, hs, if_false]
    split_ifs <;> simp_all

/-- Rejecting hands over one 400 reply and shuts the connection down. -/
lemma replies_reject (h : s.replies.count .badRequest ≤ if s.state = .kConnected then 0 else 1) :
    (s.send .badRequest).shutdown.replies.count .badRequest ≤
      if (s.send .badRequest).shutdown.state = .kConnected then 0 else 1 := by
  by_cases hs : s.state = .kConnected
  · rw [if_pos hs] at h
    simp [send, shutdown, hs]
    omega
  · rw [if_neg hs] at h
    simpa [send, shutdown, hs] using h

lemma Sound.safe (h : s.Sound) : s.Safe :=
  ⟨fun f => by rw [h.running]; simp, h.replies.trans (by split_ifs <;> omega)⟩

/-- **One call on a sound session** is safe, and the session stays sound unless the chunk
completes a half request line; then the next call aborts. -/
theorem Sound.onMessage (h : s.Sound) (chunk : List Byte) (t : ℤ) :
    (s.onMessage httpCallback chunk t).Safe ∧
      (¬ s.HalfRequest chunk → (s.onMessage httpCallback chunk t).Sound) ∧
      (s.HalfRequest chunk → ∀ chunk' t',
        ((s.onMessage httpCallback chunk t).onMessage httpCallback chunk' t').status =
          .aborted .setMethod) := by
  obtain ⟨ok, p, buf, hparse, hcall⟩ :=
    onMessage_cases httpCallback h.running h.reading h.fresh chunk t
  have hhalf : s.HalfRequest chunk → ok = false := by
    rintro ⟨hs, i, hm, hline⟩
    obtain ⟨r, hr⟩ := HttpParser.processRequestLine_of_half (h.fresh hs) hline
    have hrej : HttpParser.Parses t s.context (s.inputBuffer ++ chunk)
        (.ok (false, { s.context with httpRequest := r }, s.inputBuffer ++ chunk)) := by
      refine .reject hm ?_
      rw [HttpParser.lineStep_requestLine hs, hr]
      rfl
    have heq := hparse.unique hrej h.reading
    simp only [Except.ok.injEq, Prod.mk.injEq] at heq
    exact heq.1
  rcases hcall with ⟨rfl, hgot, hcall⟩ | ⟨rfl, hgot, hread, hfresh, hcall⟩ | ⟨rfl, hgot, hcall⟩
  · -- the request is complete: the callback ran and the parser was reset
    obtain ⟨hstatus, -, -⟩ := onRequest_spec httpCallback
      { s with context := p, inputBuffer := buf } p.httpRequest
    have hreplies := replies_onRequest httpCallback p.httpRequest
      (s := { s with context := p, inputBuffer := buf }) h.replies
    have hsound : (s.onMessage httpCallback chunk t).Sound := by
      rw [hcall]
      exact ⟨hstatus.trans h.running, HttpParser.new_reading, HttpParser.new_fresh, hreplies⟩
    exact ⟨hsound.safe, fun _ => hsound, fun hh => absurd (hhalf hh) (by simp)⟩
  · have hsound : (s.onMessage httpCallback chunk t).Sound := by
      rw [hcall]
      exact ⟨h.running, hread, hfresh, h.replies⟩
    exact ⟨hsound.safe, fun _ => hsound, fun hh => absurd (hhalf hh) (by simp)⟩
  · -- the request line is rejected: did it leave its method behind?
    obtain ⟨rfl, hs, hs', i, hm, hline⟩ := hparse.reject_inv h.reading
    have hreplies := replies_reject
      (s := { s with context := p, inputBuffer := s.inputBuffer ++ chunk }) h.replies
    have hrun : (s.onMessage httpCallback chunk t).status = .running := by
      rw [hcall]
      simpa using h.running
    refine ⟨⟨fun f => by rw [hrun]; simp, ?_⟩, fun hno => ?_, fun hhalf chunk' t' => ?_⟩
    · rw [hcall]
      exact hreplies.trans (by split_ifs <;> omega)
    · obtain ⟨hh, -⟩ | ⟨-, hsame⟩ := HttpParser.processRequestLine_again (h.fresh hs) hline
      · exact absurd ⟨hs, i, hm, hh⟩ hno
      · refine ⟨hrun, ?_, ?_, hcall ▸ hreplies⟩
        · rw [hcall]
          exact Or.inl (by simpa using hs')
        · rw [hcall]
          intro _
          simp only [shutdown_context, send_context, hsame]
          exact h.fresh hs
    · obtain ⟨-, j, hj, hjhalf⟩ := hhalf
      obtain rfl : i = j := by simpa [hm] using hj
      obtain ⟨-, hagain⟩ | ⟨hno, -⟩ := HttpParser.processRequestLine_again (h.fresh hs) hline
      · rw [onMessage_of_line_error httpCallback hrun (i := i) (f := .setMethod)] <;> rw [hcall]
        · simpa using hs'
        · simpa using hm
        · simpa using hagain
      · exact absurd hjhalf hno

/-- No chunk follows one that completes a half request line. -/
def NoneBehindHalf (s : HttpSession) (chunks : List (List Byte × ℤ)) : Prop :=
  ∀ pre chunk post, chunks = pre ++ chunk :: post →
    (s.deliver httpCallback pre).HalfRequest chunk.1 → post = []

lemma noneBehindHalf_cons {c : List Byte × ℤ} {chunks : List (List Byte × ℤ)} :
    NoneBehindHalf httpCallback s (c :: chunks) ↔
      (s.HalfRequest c.1 → chunks = []) ∧
        NoneBehindHalf httpCallback (s.onMessage httpCallback c.1 c.2) chunks := by
  constructor
  · intro h
    exact ⟨h [] c chunks rfl, fun pre chunk post heq => h (c :: pre) chunk post (by rw [heq]; rfl)⟩
  · rintro ⟨hc, hrest⟩ pre chunk post heq
    cases pre with
    | nil =>
        obtain ⟨rfl, rfl⟩ : c = chunk ∧ chunks = post := by simpa using heq
        exact hc
    | cons c' pre =>
        obtain ⟨rfl, rfl⟩ : c = c' ∧ chunks = pre ++ chunk :: post := by simpa using heq
        exact hrest pre chunk post rfl

lemma Sound.safe_deliver_iff (h : s.Sound) (chunks : List (List Byte × ℤ)) :
    (s.deliver httpCallback chunks).Safe ↔ NoneBehindHalf httpCallback s chunks := by
  induction chunks generalizing s with
  | nil =>
      refine ⟨fun _ pre chunk post heq => absurd heq (by simp), fun _ => h.safe⟩
  | cons c chunks ih =>
      obtain ⟨hsafe, hsound, habort⟩ := h.onMessage httpCallback c.1 c.2
      rw [deliver_cons, noneBehindHalf_cons]
      by_cases hhalf : s.HalfRequest c.1
      · cases chunks with
        | nil => exact ⟨fun _ => ⟨fun _ => rfl, fun _ _ _ heq => absurd heq (by simp)⟩,
            fun _ => hsafe⟩
        | cons c' chunks =>
            -- the next call aborts and nothing changes afterwards
            have hab := habort hhalf c'.1 c'.2
            have hstop := deliver_of_not_running httpCallback
              (s := (s.onMessage httpCallback c.1 c.2).onMessage httpCallback c'.1 c'.2)
              (by rw [hab]; simp) chunks
            refine ⟨fun hs => ?_, fun hcond => absurd (hcond.1 hhalf) (by simp)⟩
            rw [deliver_cons, hstop] at hs
            exact absurd hab (hs.1 _)
      · rw [ih (hsound hhalf)]
        exact ⟨fun hrest => ⟨fun hh => absurd hh hhalf, hrest⟩, fun hcond => hcond.2⟩

/-- **Remote input and assertions**: over any chunks, no assertion fails and at most one
400 reply is handed to the socket, exactly if no chunk is delivered behind one that
completes a request line with a known method and a malformed rest. -/
theorem no_assertion_fails_iff (chunks : List (List Byte × ℤ)) :
    ((∀ f, (new.deliver httpCallback chunks).status ≠ .aborted f) ∧
        (new.deliver httpCallback chunks).replies.count .badRequest ≤ 1) ↔
      ∀ pre chunk post, chunks = pre ++ chunk :: post →
        (new.deliver httpCallback pre).HalfRequest chunk.1 → post = [] :=
  new_sound.safe_deliver_iff httpCallback chunks

/-- A request line without a version, then one more byte. -/
theorem method_left_behind_asserts :
    ¬ ∀ chunks : List (List Byte × ℤ), (∀ c ∈ chunks, c.1 ≠ []) →
      (∀ f, (new.deliver defaultHttpCallback chunks).status ≠ .aborted f) ∧
        (new.deliver defaultHttpCallback chunks).replies.count .badRequest ≤ 1 := by
  intro h
  refine (h [(ascii "GET /\r\n", 0), (ascii "x", 1)] (by decide)).1 .setMethod ?_
  decide +kernel

end HttpSession

end Tractor
