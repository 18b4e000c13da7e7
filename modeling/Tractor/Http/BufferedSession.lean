import Tractor.Http.Sessions
import Tractor.Net.BufferedConnection

/-!
The HTTP server over its buffers.

`onMessage` is given the input `Buffer` of the connection, `onRequest` encodes the response into
a `Buffer` of its own and sends what `retrieveAsString` takes out of it.

* `ByteBuffer.Hom`, `parseRuquest_map`: the parser uses no more of a buffer than its interface, so
  it does the same over any two that agree on it.
* `HttpResponse.appendTo`: the encoder, string by string, over a `Buffer`.
* `BufferedSession`: a connection of the server over its buffers, and `view`, the session over
  byte lists.
* `onMessage_view`: one callback does over buffers what it does over lists.
* `buffered_connection_is_session`: **so does every connection in every run of the server.**
-/

namespace Tractor

open Library

/-! ### Any buffer -/

/-- A map between buffers that their readers cannot tell. -/
structure ByteBuffer.Hom {β γ : Type} [ByteBuffer β] [ByteBuffer γ] (f : β → γ) : Prop where
  readable : ∀ b, ByteBuffer.readable (f b) = ByteBuffer.readable b
  findCRLF : ∀ b, ByteBuffer.findCRLF (f b) = ByteBuffer.findCRLF b
  retrieveUntil : ∀ b n, ByteBuffer.retrieveUntil (f b) n = (ByteBuffer.retrieveUntil b n).map f

/-- A `Buffer` as its readers use it, the invariant aside. -/
instance : ByteBuffer Buffer where
  readable := Buffer.readable
  findCRLF b := b.findCRLF.map (· - b.readerIndex)
  retrieveUntil b n := b.retrieveUntil (b.readerIndex + n)

lemma ValidBuffer.hom : ByteBuffer.Hom ValidBuffer.toBuffer where
  readable _ := rfl
  findCRLF _ := rfl
  retrieveUntil b n := by
    simp only [ByteBuffer.retrieveUntil]
    split
    · rename_i b' h
      exact h
    · rename_i f h
      exact h

namespace HttpParser

variable {β γ : Type} [ByteBuffer β] [ByteBuffer γ] {f : β → γ}

/-- The loop over the other buffer. -/
def Loop.map (f : β → γ) (l : Loop β) : Loop γ := ⟨l.ok, l.hasMore, l.parser, f l.buf⟩

lemma requestLineBody_map (hf : ByteBuffer.Hom f) (receiveTime : ℤ) (l : Loop β) (crlf : ℕ) :
    requestLineBody receiveTime (l.map f) crlf =
      (requestLineBody receiveTime l crlf).map (Loop.map f) := by
  simp only [requestLineBody, Loop.map, hf.readable]
  cases processRequestLine l.parser.httpRequest ((ByteBuffer.readable l.buf).take crlf) with
  | error e => rfl
  | ok res =>
      obtain ⟨ok, r⟩ := res
      cases ok with
      | false => rfl
      | true =>
          simp only [bind, Except.bind, if_true, hf.retrieveUntil]
          cases ByteBuffer.retrieveUntil l.buf (crlf + 2) with
          | error e => rfl
          | ok b => rfl

lemma headerBody_map (hf : ByteBuffer.Hom f) (l : Loop β) (crlf : ℕ) :
    headerBody (l.map f) crlf = (headerBody l crlf).map (Loop.map f) := by
  simp only [headerBody, Loop.map, hf.readable]
  by_cases hcolon : ((ByteBuffer.readable l.buf).take crlf).findIdx (· == 58) ≠
      ((ByteBuffer.readable l.buf).take crlf).length
  · simp only [hcolon, ne_eq, not_false_eq_true, if_true, hf.retrieveUntil]
    cases ByteBuffer.retrieveUntil l.buf (crlf + 2) with
    | error e => rfl
    | ok b => rfl
  · simp only [hcolon, if_false, hf.retrieveUntil]
    cases ByteBuffer.retrieveUntil l.buf (crlf + 2) with
    | error e => rfl
    | ok b => rfl

lemma parseBody_map (hf : ByteBuffer.Hom f) (receiveTime : ℤ) (l : Loop β) :
    parseBody receiveTime (l.map f) = (parseBody receiveTime l).map (Loop.map f) := by
  have hcrlf : ByteBuffer.findCRLF (l.map f).buf = ByteBuffer.findCRLF l.buf := hf.findCRLF l.buf
  cases hs : l.parser.state with
  | kExpectRequestLine =>
      have hs' : (l.map f).parser.state = .kExpectRequestLine := hs
      simp only [parseBody, hs, hs', hcrlf]
      cases ByteBuffer.findCRLF l.buf with
      | none => rfl
      | some crlf => exact requestLineBody_map hf receiveTime l crlf
  | kExpectHeaders =>
      have hs' : (l.map f).parser.state = .kExpectHeaders := hs
      simp only [parseBody, hs, hs', hcrlf]
      cases ByteBuffer.findCRLF l.buf with
      | none => rfl
      | some crlf => exact headerBody_map hf l crlf
  | kExpectBody =>
      have hs' : (l.map f).parser.state = .kExpectBody := hs
      simp only [parseBody, hs, hs']
      rfl
  | kGotAll =>
      have hs' : (l.map f).parser.state = .kGotAll := hs
      simp only [parseBody, hs, hs']
      rfl

/-- The result with the other buffer. -/
def mapResult (f : β → γ) :
    Outcome HttpFault (Bool × HttpParser × β) → Outcome HttpFault (Bool × HttpParser × γ)
  | .ret (ok, p, b) => .ret (ok, p, f b)
  | .abort e => .abort e
  | .hang => .hang

lemma whileFuel_map (hf : ByteBuffer.Hom f) (receiveTime : ℤ) (n : ℕ) (l : Loop β) :
    whileFuel Loop.hasMore (parseBody receiveTime) n (l.map f) =
      (whileFuel Loop.hasMore (parseBody receiveTime) n l).map (Except.map (Loop.map f)) := by
  induction n generalizing l with
  | zero =>
      cases hmore : l.hasMore with
      | true => simp [whileFuel, Loop.map, hmore]
      | false => rw [whileFuel_of_not hmore, whileFuel_of_not (s := l.map f) hmore]; rfl
  | succ n ih =>
      cases hmore : l.hasMore with
      | false => rw [whileFuel_of_not hmore, whileFuel_of_not (s := l.map f) hmore]; rfl
      | true =>
          have hbody := parseBody_map hf receiveTime l
          cases hl : parseBody receiveTime l with
          | error e =>
              rw [hl] at hbody
              rw [whileFuel_failed hmore hl, whileFuel_failed (s := l.map f) hmore hbody]
              rfl
          | ok l' =>
              rw [hl] at hbody
              rw [whileFuel_round hmore hl, whileFuel_round (s := l.map f) hmore hbody, ih]

/-- **The parser does the same over both.** -/
theorem parseRuquest_map (hf : ByteBuffer.Hom f) (p : HttpParser) (b : β) (receiveTime : ℤ) :
    parseRuquest p (f b) receiveTime = mapResult f (parseRuquest p b receiveTime) := by
  have hloop := whileFuel_map hf receiveTime ((ByteBuffer.readable b).length + 1) ⟨true, true, p, b⟩
  rw [Loop.map] at hloop
  rw [parseRuquest, parseRuquest, hf.readable, hloop]
  cases whileFuel Loop.hasMore (parseBody receiveTime) ((ByteBuffer.readable b).length + 1)
      ⟨true, true, p, b⟩ with
  | none => rfl
  | some r =>
      cases r with
      | error e => rfl
      | ok l => rfl

/-- Over a `Buffer` in its invariant the parser leaves one, and it is the parser over its
bytes. -/
lemma parseRuquest_readable (p : HttpParser) {b : Buffer} (hb : b.Valid) (receiveTime : ℤ) :
    parseRuquest p b.readable receiveTime =
        mapResult Buffer.readable (parseRuquest p b receiveTime) ∧
      ∀ ok p' b', parseRuquest p b receiveTime = .ret (ok, p', b') → b'.Valid := by
  have hview := parseRuquest_view p ⟨b, hb⟩ receiveTime
  have hmap := parseRuquest_map ValidBuffer.hom p ⟨b, hb⟩ receiveTime
  simp only [ValidBuffer.view] at hview hmap
  cases hparse : parseRuquest p (⟨b, hb⟩ : ValidBuffer) receiveTime with
  | ret x =>
      rw [hparse] at hview hmap
      rw [hview, hmap]
      refine ⟨rfl, ?_⟩
      rintro ok p' b' ⟨⟩
      exact x.2.2.valid
  | abort e =>
      rw [hparse] at hview hmap
      rw [hview, hmap]
      exact ⟨rfl, by simp [mapResult]⟩
  | hang =>
      rw [hparse] at hview hmap
      rw [hview, hmap]
      exact ⟨rfl, by simp [mapResult]⟩

end HttpParser

/-! ### The encoder -/

namespace Buffer

variable {b : Buffer}

/-- One `append` after the other. -/
lemma foldlM_append_ok {texts : List (List Byte)} (h : b.Valid)
    (hroom : b.HasRoom texts.flatten.length) :
    ∃ b', texts.foldlM append b = .ok b' ∧ b'.Valid ∧
      b'.readable = b.readable ++ texts.flatten := by
  induction texts generalizing b with
  | nil => exact ⟨b, rfl, h, by simp⟩
  | cons text texts ih =>
      rw [HasRoom, List.flatten_cons, List.length_append] at hroom
      obtain ⟨b₁, hok, hvalid, hread⟩ := append_ok text h (by rw [HasRoom]; omega)
      have hbytes := congrArg List.length hread
      rw [hvalid.length_readable, List.length_append, h.length_readable] at hbytes
      obtain ⟨b₂, hok', hvalid', hread'⟩ := ih hvalid (by rw [HasRoom]; omega)
      refine ⟨b₂, ?_, hvalid', ?_⟩
      · rw [List.foldlM_cons, hok]
        exact hok'
      · rw [hread', hread, List.flatten_cons, List.append_assoc]

end Buffer

namespace HttpResponse

/-- What `appendToBuffer` appends, in its order. -/
def texts (r : HttpResponse) : List (List Byte) :=
  [snprintf 32 (ascii s!"HTTP/1.1 {r.statusCode.toNat} "), r.statusMessage, ascii "\r\n"] ++
    (if r.closeConnection then [ascii "Connection: close\r\n"]
      else [snprintf 32 (ascii s!"Content-Length: {r.body.length}\r\n"),
        ascii "Connection: Keep-Alive\r\n"]) ++
    (r.headers.toList.flatMap fun header => [header.1, ascii ": ", header.2, ascii "\r\n"]) ++
    [ascii "\r\n", r.body]

/-- `appendToBuffer(output)` over a `Buffer`. -/
def appendTo (r : HttpResponse) (output : Buffer) : Except BufferFault Buffer :=
  r.texts.foldlM Buffer.append output

lemma texts_flatten (r : HttpResponse) (output : List Byte) :
    output ++ r.texts.flatten = r.appendToBuffer output := by
  have hheaders : (r.headers.toList.flatMap fun header =>
      [header.1, ascii ": ", header.2, ascii "\r\n"]).flatten =
      r.headers.toList.flatMap fun header =>
        header.1 ++ ascii ": " ++ header.2 ++ ascii "\r\n" := by
    induction r.headers.toList with
    | nil => rfl
    | cons header headers ih =>
        rw [List.flatMap_cons, List.flatMap_cons, List.flatten_append, ih]
        simp
  simp only [texts, appendToBuffer, List.flatten_append, hheaders]
  cases r.closeConnection with
  | true => simp
  | false => simp

/-- There is memory for the response. -/
def HasRoom (r : HttpResponse) : Prop := Buffer.new.HasRoom (r.appendToBuffer []).length

instance (r : HttpResponse) : Decidable r.HasRoom :=
  inferInstanceAs (Decidable (Buffer.HasRoom _ _))

/-- **The encoder over a new `Buffer`** leaves the bytes of the response in it. -/
lemma appendTo_new {r : HttpResponse} (h : r.HasRoom) :
    ∃ b, r.appendTo Buffer.new = .ok b ∧ b.readable = r.appendToBuffer [] := by
  have htexts := r.texts_flatten []
  rw [List.nil_append] at htexts
  rw [HasRoom, ← htexts] at h
  obtain ⟨b, hok, -, hread⟩ := Buffer.foldlM_append_ok Buffer.new_valid h
  refine ⟨b, hok, ?_⟩
  rw [hread, Buffer.new_readable, List.nil_append, htexts]

end HttpResponse

/-! ### A session over its buffers -/

namespace HttpSession

/-- What `onMessage` does behind the parser. -/
def answer (httpCallback : HttpCallback) (s : HttpSession) (ok : Bool) (context : HttpParser) :
    HttpSession :=
  let s := if ok then s else (s.send .badRequest).shutdown
  if context.gotAll then
    { onRequest httpCallback s context.httpRequest with context := context.reset }
  else s

lemma onMessage_eq_answer (httpCallback : HttpCallback) {s : HttpSession} {chunk buf : List Byte}
    {t : ℤ} {ok : Bool} {context : HttpParser} (hrun : s.status = .running)
    (hparse : s.context.parseRuquest (s.inputBuffer ++ chunk) t = .ret (ok, context, buf)) :
    s.onMessage httpCallback chunk t =
      answer httpCallback { s with context := context, inputBuffer := buf } ok context := by
  rw [onMessage, if_pos hrun, hparse]
  rfl

end HttpSession

/-- One connection of the server, as `HttpSession`, with the `Buffer` of its input. -/
structure BufferedSession where
  context : HttpParser
  inputBuffer : Buffer
  state : ConnectState
  status : Status
  callbacks : List HttpRequest
  replies : List Reply

namespace BufferedSession

/-- The connection after `onConnection`. -/
def new : BufferedSession := ⟨HttpParser.new, Buffer.new, .kConnected, .running, [], []⟩

def send (s : BufferedSession) (r : Reply) : BufferedSession :=
  if s.state = .kConnected then { s with replies := s.replies ++ [r] } else s

def shutdown (s : BufferedSession) : BufferedSession :=
  if s.state = .kConnected then { s with state := .kDisconnecting } else s

/-- The response in `buf` is sent, and the connection shut down if it says so. -/
def respond (s : BufferedSession) (close : Bool) : Except BufferFault Buffer → BufferedSession
  | .error f => { s with status := .aborted (.buffer f) }
  | .ok buf =>
      let s := s.send (.response buf.retrieveAsString.1)
      if close then s.shutdown else s

/-- `onRequest(conn, req)`: the response is encoded into a new buffer and sent out of it. -/
def onRequest (httpCallback : HttpCallback) (s : BufferedSession) (req : HttpRequest) :
    BufferedSession :=
  let response := httpCallback req (HttpResponse.new (HttpSession.closeFlag req))
  let s := { s with callbacks := s.callbacks ++ [req] }
  s.respond response.closeConnection (response.appendTo Buffer.new)

/-- The rest of `onMessage`, behind the parser. -/
def answer (httpCallback : HttpCallback) (s : BufferedSession) (ok : Bool)
    (context : HttpParser) : BufferedSession :=
  let s := if ok then s else (s.send .badRequest).shutdown
  if context.gotAll then
    { onRequest httpCallback s context.httpRequest with context := context.reset }
  else s

/-- `handleRead_()` that reads `chunk`, and `onMessage(conn, buf, receiveTime)`. -/
def onMessage (httpCallback : HttpCallback) (s : BufferedSession) (chunk : List Byte)
    (receiveTime : ℤ) : BufferedSession :=
  if s.status = .running then
    match s.inputBuffer.readFd (some chunk) with
    | .error f => { s with status := .aborted (.buffer f) }
    | .ok buf =>
        match s.context.parseRuquest buf receiveTime with
        | .abort f => { s with inputBuffer := buf, status := .aborted f }
        | .hang => { s with inputBuffer := buf, status := .hung }
        | .ret (ok, context, buf) =>
            answer httpCallback { s with context := context, inputBuffer := buf } ok context
  else s

/-- The chunks of a stream, each read and passed to `onMessage`. -/
def deliver (httpCallback : HttpCallback) (s : BufferedSession) (chunks : List (List Byte × ℤ)) :
    BufferedSession :=
  chunks.foldl (fun s c => s.onMessage httpCallback c.1 c.2) s

/-- `readv` fills at most its two segments, and there is memory for what it read. -/
def Fits (s : BufferedSession) (chunk : List Byte) : Prop :=
  chunk.length ≤ s.inputBuffer.writableBytes + Buffer.kExtraSize ∧
    s.inputBuffer.HasRoom chunk.length

instance (s : BufferedSession) (chunk : List Byte) : Decidable (s.Fits chunk) :=
  inferInstanceAs (Decidable (_ ∧ _))

/-- Each chunk fits where it is read. -/
def FitsAll (httpCallback : HttpCallback) (s : BufferedSession) (chunks : List (List Byte × ℤ)) :
    Prop :=
  Along (fun s c => (.ok (s.onMessage httpCallback c.1 c.2) : Except Unit BufferedSession))
    (fun s c => s.Fits c.1) s chunks

instance (httpCallback : HttpCallback) (s : BufferedSession) (chunks : List (List Byte × ℤ)) :
    Decidable (s.FitsAll httpCallback chunks) :=
  inferInstanceAs (Decidable (Along _ _ _ _))

/-- The session over byte lists. -/
def view (s : BufferedSession) : HttpSession :=
  ⟨s.context, s.inputBuffer.readable, s.state, s.status, s.callbacks, s.replies⟩

variable {httpCallback : HttpCallback} {s : BufferedSession}

lemma view_new : new.view = HttpSession.new := by
  rw [view, new, Buffer.new_readable]
  rfl

@[simp] lemma view_send (r : Reply) : (s.send r).view = s.view.send r := by
  by_cases hs : s.state = .kConnected <;> simp [send, HttpSession.send, view, hs]

@[simp] lemma view_shutdown : s.shutdown.view = s.view.shutdown := by
  by_cases hs : s.state = .kConnected <;> simp [shutdown, HttpSession.shutdown, view, hs]

@[simp] lemma inputBuffer_send (r : Reply) : (s.send r).inputBuffer = s.inputBuffer := by
  rw [send]
  split_ifs <;> rfl

@[simp] lemma inputBuffer_shutdown : s.shutdown.inputBuffer = s.inputBuffer := by
  rw [shutdown]
  split_ifs <;> rfl

lemma view_withContext (context : HttpParser) :
    ({ s with context := context } : BufferedSession).view = { s.view with context := context } ∧
      ({ s with context := context } : BufferedSession).inputBuffer = s.inputBuffer :=
  ⟨rfl, rfl⟩

/-- A chunk is read, and the parser returns. -/
lemma onMessage_eq_answer {chunk : List Byte} {t : ℤ} {ok : Bool} {context : HttpParser}
    {buf rest : Buffer} (hrun : s.status = .running)
    (hread : s.inputBuffer.readFd (some chunk) = .ok buf)
    (hparse : s.context.parseRuquest buf t = .ret (ok, context, rest)) :
    s.onMessage httpCallback chunk t =
      answer httpCallback { s with context := context, inputBuffer := rest } ok context := by
  rw [onMessage, if_pos hrun, hread]
  simp only [hparse]

/-- A request is answered out of a buffer with the bytes of its response. -/
lemma view_onRequest (hroom : ∀ req, (HttpServer.respond httpCallback req).HasRoom)
    (req : HttpRequest) :
    (s.onRequest httpCallback req).view = s.view.onRequest httpCallback req ∧
      (s.onRequest httpCallback req).inputBuffer = s.inputBuffer := by
  obtain ⟨b, hok, hread⟩ := HttpResponse.appendTo_new (hroom req)
  have hresp : httpCallback req (HttpResponse.new (HttpSession.closeFlag req)) =
      HttpServer.respond httpCallback req := rfl
  have hcallbacks : ({ s with callbacks := s.callbacks ++ [req] } : BufferedSession).view =
      { s.view with callbacks := s.view.callbacks ++ [req] } := rfl
  have hbytes : b.retrieveAsString.1 = (HttpServer.respond httpCallback req).appendToBuffer [] :=
    hread
  rw [onRequest, HttpSession.onRequest, hresp, hok, respond, hbytes]
  by_cases hclose : (HttpServer.respond httpCallback req).closeConnection = true
  · rw [if_pos hclose, if_pos hclose, view_shutdown, view_send, hcallbacks]
    exact ⟨rfl, by simp⟩
  · rw [if_neg hclose, if_neg hclose, view_send, hcallbacks]
    exact ⟨rfl, by simp⟩

/-- What follows the parser does the same over lists, and leaves the input alone. -/
lemma view_answer (hroom : ∀ req, (HttpServer.respond httpCallback req).HasRoom) (ok : Bool)
    (context : HttpParser) :
    (s.answer httpCallback ok context).view = s.view.answer httpCallback ok context ∧
      (s.answer httpCallback ok context).inputBuffer = s.inputBuffer := by
  set s' := if ok = true then s else (s.send .badRequest).shutdown with hs'
  have hview : s'.view = if ok = true then s.view else (s.view.send .badRequest).shutdown := by
    cases ok <;> simp [hs']
  have hinput : s'.inputBuffer = s.inputBuffer := by
    cases ok <;> simp [hs']
  obtain ⟨hreq, hkeep⟩ := view_onRequest (s := s') hroom context.httpRequest
  rw [answer, HttpSession.answer, ← hs', ← hview, ← hreq]
  by_cases hall : context.gotAll = true
  · obtain ⟨hview', hinput'⟩ :=
      view_withContext (s := s'.onRequest httpCallback context.httpRequest) context.reset
    rw [if_pos hall, if_pos hall, hview', hinput', hkeep]
    exact ⟨rfl, hinput⟩
  · rw [if_neg hall, if_neg hall]
    exact ⟨rfl, hinput⟩

/-- **One callback over the buffers** is the callback over the lists. -/
theorem onMessage_view (hroom : ∀ req, (HttpServer.respond httpCallback req).HasRoom)
    (hvalid : s.inputBuffer.Valid) {chunk : List Byte} (hfits : s.Fits chunk) (t : ℤ) :
    (s.onMessage httpCallback chunk t).view = s.view.onMessage httpCallback chunk t ∧
      (s.onMessage httpCallback chunk t).inputBuffer.Valid := by
  obtain ⟨buf, hok, hbuf, hread⟩ := Buffer.readFd_ok hvalid hfits.1 hfits.2
  obtain ⟨hparse, hleft⟩ := HttpParser.parseRuquest_readable s.context hbuf t
  rw [hread] at hparse
  by_cases hrun : s.status = .running
  · have hrun' : s.view.status = .running := hrun
    cases hp : HttpParser.parseRuquest s.context buf t with
    | abort f =>
        rw [hp, HttpParser.mapResult] at hparse
        rw [onMessage, if_pos hrun, hok, HttpSession.onMessage, if_pos hrun']
        simp only [view, hparse, hp, hread]
        exact ⟨trivial, hbuf⟩
    | hang =>
        rw [hp, HttpParser.mapResult] at hparse
        rw [onMessage, if_pos hrun, hok, HttpSession.onMessage, if_pos hrun']
        simp only [view, hparse, hp, hread]
        exact ⟨trivial, hbuf⟩
    | ret x =>
        obtain ⟨ok, context, rest⟩ := x
        rw [hp, HttpParser.mapResult] at hparse
        obtain ⟨hview, hinput⟩ := view_answer
          (s := { s with context := context, inputBuffer := rest }) hroom ok context
        rw [onMessage_eq_answer hrun hok hp,
          HttpSession.onMessage_eq_answer httpCallback hrun' hparse, hinput]
        exact ⟨hview, hleft ok context rest hp⟩
  · have hrun' : ¬ s.view.status = .running := hrun
    rw [onMessage, if_neg hrun, HttpSession.onMessage, if_neg hrun']
    exact ⟨rfl, hvalid⟩

/-- A stream of chunks. -/
lemma deliver_view (hroom : ∀ req, (HttpServer.respond httpCallback req).HasRoom)
    (hvalid : s.inputBuffer.Valid) {chunks : List (List Byte × ℤ)}
    (hfits : FitsAll httpCallback s chunks) :
    (s.deliver httpCallback chunks).view = s.view.deliver httpCallback chunks ∧
      (s.deliver httpCallback chunks).inputBuffer.Valid := by
  induction chunks generalizing s with
  | nil => exact ⟨rfl, hvalid⟩
  | cons c chunks ih =>
      rw [FitsAll, along_cons_iff rfl] at hfits
      obtain ⟨hview, hvalid'⟩ := onMessage_view hroom hvalid hfits.1 c.2
      obtain ⟨hrest, hvalid''⟩ := ih hvalid' hfits.2
      rw [hview] at hrest
      exact ⟨hrest, hvalid''⟩

end BufferedSession

namespace ReadServer

open HttpSession

variable {httpCallback : HttpCallback} {o : ReadServer} {c : ℕ}

/-- The session over buffers that reads what was read from a connection. -/
def buffered (httpCallback : HttpCallback) (o : ReadServer) (c : ℕ) : BufferedSession :=
  BufferedSession.new.deliver httpCallback (o.reads c)

/-- **Over its buffers the server does what it does over lists.**  There is memory for every
response of the callback.  In every run of an `HttpServer` and for every connection whose chunks
`readv` could read in one call each, with memory for them:

* over its buffers the connection runs on: no assertion of a buffer fails while the chunks are
  read, parsed and retrieved and the responses encoded, and the input buffer is in its invariant;
* while no callback is running, what the socket has accepted with what is buffered are the replies
  that were sent out of the buffers, the parser is that of the connection, and the bytes in the
  input buffer are its unread input. -/
theorem buffered_connection_is_session
    (hroom : ∀ req, (HttpServer.respond httpCallback req).HasRoom) {name : String} {acceptFd : ℕ}
    (h : Reaches httpCallback (start name acceptFd) o)
    (hfits : BufferedSession.new.FitsAll httpCallback (o.reads c)) :
    (o.buffered httpCallback c).status = .running ∧
    (o.buffered httpCallback c).inputBuffer.Valid ∧
    (o.http.calls = [] →
      (o.http.server.conns c).socket.accepted ++ (o.http.server.conns c).outputBuffer =
        ((o.buffered httpCallback c).replies.map Reply.bytes).flatten ∧
      ((o.http.server.hist c).stage ≠ .fresh →
        o.http.context c = (o.buffered httpCallback c).context ∧
        (o.http.server.conns c).inputBuffer =
          (o.buffered httpCallback c).inputBuffer.readable)) := by
  obtain ⟨hview, hvalid⟩ := BufferedSession.deliver_view hroom Buffer.new_valid hfits
  rw [BufferedSession.view_new] at hview
  have hsession : (o.buffered httpCallback c).view = o.session httpCallback c := hview
  obtain ⟨hrun, -, hquiet⟩ := connection_is_session h c
  rw [← hsession] at hrun hquiet
  refine ⟨hrun, hvalid, fun hcalls => ?_⟩
  obtain ⟨hbytes, hbuilt, -⟩ := hquiet hcalls
  exact ⟨hbytes, hbuilt⟩

/-- Both chunks of a request are read, and its reply encoded, over the buffers. -/
theorem buffered_connection_is_session_two : ∃ o : ReadServer,
    o.reads 1 = [(ascii "GET / HT", 1), (ascii "TP/1.1\r\n\r\n", 2)] ∧
    (o.http.server.conns 1).socket.accepted ++ (o.http.server.conns 1).outputBuffer =
      ((o.buffered defaultHttpCallback 1).replies.map Reply.bytes).flatten ∧
    (o.http.server.conns 1).inputBuffer =
      (o.buffered defaultHttpCallback 1).inputBuffer.readable := by
  have hrun : ((exec (next defaultHttpCallback) (fun _ _ => True) (start "s" 3) interleaved).map
      fun o => decide (o.reads 1 = [(ascii "GET / HT", 1), (ascii "TP/1.1\r\n\r\n", 2)] ∧
        o.http.calls = [] ∧ (o.http.server.hist 1).stage = .established)) = some true := by
    decide +kernel
  obtain ⟨o, ho, hvals⟩ := Option.map_eq_some_iff.mp hrun
  obtain ⟨hreads, hcalls, hstage⟩ := of_decide_eq_true hvals
  have hroom : ∀ req, (HttpServer.respond defaultHttpCallback req).HasRoom := fun req => by
    have hconst : HttpServer.respond defaultHttpCallback req =
        defaultHttpCallback HttpRequest.new (HttpResponse.new true) := rfl
    rw [hconst]
    decide +kernel
  have hfits : BufferedSession.new.FitsAll defaultHttpCallback (o.reads 1) := by
    rw [hreads]
    decide +kernel
  obtain ⟨-, -, hquiet⟩ := buffered_connection_is_session hroom ((Reach.refl _).of_exec ho) hfits
  obtain ⟨hbytes, hbuilt⟩ := hquiet hcalls
  exact ⟨o, hreads, hbytes, (hbuilt (by simp [hstage])).2⟩

end ReadServer

end Tractor
