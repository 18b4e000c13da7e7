import Tractor.Http.Replies
import Tractor.Library.Framing

/-!
What a client reads of the replies of an `HttpServer`.

A response is a status line, header lines and an empty line, and a body.  `Content-Length` tells
where the body ends; the encoder writes it unless the response closes the connection, and then
the body ends with the stream.

* `Received.receive`: a client reads one response off the front of what it has received.
* `Delimited`: a response whose status message and headers are plain text of a line and that has
  no `Content-Length` of its own; `receive_response`: the client reads it back.
* `responses`: what is sent in answer to some requests.
* `responses_received`: **in every run, reading what a connection was sent gives the status lines,
  headers and bodies of the responses to its first requests, one for each and in their order.**
-/

namespace Tractor

open Library

/-- A response as a client has it. -/
structure Received where
  statusLine : List Byte
  headers : Std.ExtTreeMap (List Byte) (List Byte)
  body : List Byte

namespace Received

/-- The number that a text of digits stands for. -/
def decimal (w : List Byte) : ℕ := Nat.ofDigitChars 10 (w.map fun b => Char.ofNat b.toNat) 0

lemma decimal_toString (n : ℕ) : decimal (ascii (toString n)) = n := by
  have hdigits : ((Nat.toDigits 10 n).map fun c => c.toNat.toUInt8).map
      (fun b => Char.ofNat b.toNat) = Nat.toDigits 10 n := by
    rw [List.map_map]
    refine (List.map_congr_left fun c hc => ?_).trans (List.map_id _)
    have hdigit := Nat.isDigit_of_mem_toDigits (by decide) (by decide) hc
    obtain ⟨-, hhigh⟩ : 48 ≤ c.toNat ∧ c.toNat ≤ 57 := Char.isDigit_iff_toNat.mp hdigit
    rw [Function.comp_apply, Nat.toUInt8, UInt8.toNat_ofNat', Nat.mod_eq_of_lt (by omega),
      Char.ofNat_toNat, id_eq]
  rw [decimal, ascii_toString, hdigits, Nat.ofDigitChars_ten_toDigits]

/-- The length of the body: what the headers say, or all that is left. -/
def bodyLength (headers : Std.ExtTreeMap (List Byte) (List Byte)) (rest : List Byte) : ℕ :=
  match headers[ascii "Content-Length"]? with
  | some value => decimal value
  | none => rest.length

/-- A client reads one response: its status line, its header lines, and its body. -/
def receive (w : List Byte) : Option (Received × List Byte) :=
  match memmem Buffer.kCRLF w with
  | none => none
  | some i =>
      match HttpParser.parseRuquest ⟨.kExpectHeaders, HttpRequest.new⟩ (w.drop (i + 2)) 0 with
      | .ret (_, p, rest) =>
          if p.gotAll then
            let length := bodyLength p.httpRequest.headers rest
            if length ≤ rest.length then
              some (⟨w.take i, p.httpRequest.headers, rest.take length⟩, rest.drop length)
            else none
          else none
      | _ => none

lemma receive_nil : receive [] = none := rfl

/-- The lines of a response and what follows them. -/
lemma receive_lines {statusLine : List Byte} (hfree : Free 13 10 statusLine)
    (hs : List HeaderLine) (rest : List Byte) {length : ℕ}
    (hlength : bodyLength (hs.foldl HeaderLine.store ∅) rest = length)
    (hle : length ≤ rest.length) :
    receive (unlines 13 10 (statusLine :: (hs.map HeaderLine.text ++ [[]])) ++ rest) =
      some (⟨statusLine, hs.foldl HeaderLine.store ∅, rest.take length⟩, rest.drop length) := by
  have hfound : memmem Buffer.kCRLF
      (statusLine ++ 13 :: 10 :: (unlines 13 10 (hs.map HeaderLine.text ++ [[]]) ++ rest)) =
      some statusLine.length := memmem_line (by decide) hfree _
  have hparse := HttpParser.parseRuquest_eq (HttpParser.parses_headers (t := 0)
    (p := ⟨.kExpectHeaders, HttpRequest.new⟩) hs rfl rest) (Or.inr rfl)
  rw [unlines_cons, List.append_assoc, List.cons_append, List.cons_append, receive, hfound]
  have hempty : HttpRequest.new.headers = ∅ := rfl
  simp only [drop_line, hparse, HttpParser.toOutcome, HttpParser.gotAll, decide_true, if_true,
    List.take_left, hempty, hlength]
  rw [if_pos hle]

end Received

namespace HttpResponse

/-- The headers a client gets: those of the response over the generated ones. -/
def sentHeaders (r : HttpResponse) : Std.ExtTreeMap (List Byte) (List Byte) :=
  r.headers.toList.foldl (fun m h => m.insert h.1 h.2) r.generatedHeaders

/-- The response as a client gets it. -/
def received (r : HttpResponse) : Received := ⟨r.statusLine, r.sentHeaders, r.body⟩

/-- A response that is made of lines, leaves the `Content-Length` to the encoder, and has room
for it. -/
structure Delimited (r : HttpResponse) : Prop where
  encodable : r.Encodable
  body : r.body.length < 10 ^ 13
  length : r.headers[ascii "Content-Length"]? = none

variable {r : HttpResponse}

/-- The header lines the encoder writes, read into a map. -/
lemma exists_sentLines (h : r.Encodable) (hbody : r.body.length < 10 ^ 13) :
    ∃ hs : List HeaderLine,
      hs.map HeaderLine.text = r.generatedLines ++ r.headers.toList.map headerText ∧
      hs.foldl HeaderLine.store ∅ = r.sentHeaders ∧
      ∀ field : List Byte, r.sentHeaders[field]? =
        r.headers[field]?.or r.generatedHeaders[field]? := by
  obtain ⟨gs, hgs, hgenerated⟩ := r.exists_generated hbody
  have hplain : ∀ x ∈ r.headers.toList, Plain x.1 x.2 := fun x hx =>
    h.header_plain x.1 x.2 (Std.ExtTreeMap.mem_toList_iff_getElem?_eq_some.mp hx)
  obtain ⟨hs, hhs, hpairs⟩ := exists_headerLines hplain
  have hstore : hs.foldl HeaderLine.store r.generatedHeaders = r.sentHeaders := by
    rw [sentHeaders, ← hpairs, List.foldl_map]
    rfl
  refine ⟨gs ++ hs, by rw [List.map_append, hgs, hhs], ?_, fun field => ?_⟩
  · rw [List.foldl_append, hgenerated, hstore]
  · rw [← hstore, HeaderLine.getElem?_foldl_store, lastValue_toList hpairs]

/-- **A client reads back what the encoder wrote**: a response that keeps the connection open
whatever follows, and one that closes it at the end of the stream. -/
theorem Delimited.receive_response (h : r.Delimited) (rest : List Byte)
    (hrest : r.closeConnection = true → rest = []) :
    Received.receive (r.appendToBuffer [] ++ rest) = some (r.received, rest) := by
  obtain ⟨hs, htext, hstore, hget⟩ := exists_sentLines h.encodable h.body
  have hfound := hget (ascii "Content-Length")
  rw [h.length, Option.none_or] at hfound
  have hread := Received.receive_lines (statusLine_free h.encodable.message_free) hs
    (r.body ++ rest) ?_ (by simp : r.body.length ≤ _)
  · rw [htext, hstore, List.take_left, List.drop_left, ← List.append_assoc] at hread
    rw [appendToBuffer_lines, List.nil_append]
    exact hread
  · rw [hstore, Received.bodyLength, hfound, generatedHeaders]
    cases hclose : r.closeConnection with
    | true => simp [hrest hclose, ascii]
    | false =>
        have hvalue : (((∅ : Std.ExtTreeMap (List Byte) (List Byte)).insert
            (ascii "Content-Length") (ascii (toString r.body.length))).insert
            (ascii "Connection") (ascii "Keep-Alive"))[ascii "Content-Length"]? =
            some (ascii (toString r.body.length)) := by
          rw [Std.ExtTreeMap.getElem?_insert, if_neg (by decide),
            Std.ExtTreeMap.getElem?_insert_self]
        simp only [Bool.false_eq_true, if_false, hvalue]
        exact Received.decimal_toString r.body.length

end HttpResponse

/-! ### The replies to some requests -/

/-- The 400 reply as a client gets it. -/
def Received.badRequest : Received := ⟨ascii "HTTP/1.1 400 Bad Request", ∅, []⟩

lemma Received.receive_badRequest :
    receive Reply.badRequest.bytes = some (badRequest, []) := by
  have hfree : Free 13 10 (ascii "HTTP/1.1 400 Bad Request") := by decide
  have hlength : bodyLength (([] : List HeaderLine).foldl HeaderLine.store ∅) [] = 0 := rfl
  exact receive_lines hfree [] [] hlength le_rfl

namespace HttpSession

variable (httpCallback : HttpCallback)

/-- The responses to the requests, up to the first that closes the connection. -/
def responses : List HttpRequest → List HttpResponse
  | [] => []
  | req :: reqs =>
      HttpServer.respond httpCallback req ::
        if (HttpServer.respond httpCallback req).closeConnection then [] else responses reqs

lemma answers_eq_responses (reqs : List HttpRequest) :
    answers httpCallback reqs =
      (responses httpCallback reqs).map fun r => .response (r.appendToBuffer []) := by
  induction reqs with
  | nil => rfl
  | cons req reqs ih =>
      rw [answers, responses, List.map_cons, ih, HttpServer.reply]
      split_ifs
      · rfl
      · rfl

/-- One response for each request, if none closes the connection. -/
lemma responses_eq_map {reqs : List HttpRequest} (h : closes httpCallback reqs = false) :
    responses httpCallback reqs = reqs.map (HttpServer.respond httpCallback) := by
  induction reqs with
  | nil => rfl
  | cons req reqs ih =>
      have hcloses : closes httpCallback (req :: reqs) =
          ((HttpServer.respond httpCallback req).closeConnection || closes httpCallback reqs) :=
        List.any_cons
      rw [hcloses, Bool.or_eq_false_iff] at h
      rw [responses, h.1, ih h.2]
      rfl

/-- Only the last response closes the connection. -/
lemma exists_responses (reqs : List HttpRequest) :
    ∃ keep last, responses httpCallback reqs = keep ++ last ∧
      (∀ r ∈ keep, r.closeConnection = false) ∧ last.length ≤ 1 ∧
      (closes httpCallback reqs = false → last = []) ∧
      ∀ r ∈ keep ++ last, ∃ req, r = HttpServer.respond httpCallback req := by
  induction reqs with
  | nil => exact ⟨[], [], rfl, by simp, by simp, by simp, by simp⟩
  | cons req reqs ih =>
      have hcloses : closes httpCallback (req :: reqs) =
          ((HttpServer.respond httpCallback req).closeConnection || closes httpCallback reqs) :=
        List.any_cons
      cases hclose : (HttpServer.respond httpCallback req).closeConnection with
      | true =>
          refine ⟨[], [HttpServer.respond httpCallback req], by simp [responses, hclose], by simp,
            by simp, fun h => ?_, fun r hr => ⟨req, by simpa using hr⟩⟩
          rw [hcloses, hclose] at h
          simp at h
      | false =>
          obtain ⟨keep, last, heq, hkeep, hlast, hnone, hall⟩ := ih
          refine ⟨HttpServer.respond httpCallback req :: keep, last,
            by simp [responses, hclose, heq], ?_, hlast, fun h => ?_, fun r hr => ?_⟩
          · intro r hr
            rcases List.mem_cons.mp hr with rfl | hr
            · exact hclose
            · exact hkeep r hr
          · rw [hcloses, Bool.or_eq_false_iff] at h
            exact hnone h.2
          · rw [List.cons_append] at hr
            rcases List.mem_cons.mp hr with rfl | hr
            · exact ⟨req, rfl⟩
            · exact hall r hr

/-- **A client reads the replies back.** -/
theorem readAll_answers (hcb : ∀ req, (HttpServer.respond httpCallback req).Delimited)
    (reqs : List HttpRequest) (refused : Bool)
    (hrefused : refused = true → closes httpCallback reqs = false) :
    readAll Received.receive
        ((answers httpCallback reqs ++ refusal refused).map Reply.bytes).flatten.length
        ((answers httpCallback reqs ++ refusal refused).map Reply.bytes).flatten =
      (responses httpCallback reqs).map HttpResponse.received ++
        if refused then [Received.badRequest] else [] := by
  obtain ⟨keep, last, heq, hkeep, hlast, hnone, hall⟩ := exists_responses httpCallback reqs
  -- each response with its bytes, and the 400 reply
  let item (r : HttpResponse) : Received × List Byte := (r.received, r.appendToBuffer [])
  let xs := keep.map item
  let ys := last.map item ++
    if refused then [(Received.badRequest, Reply.badRequest.bytes)] else []
  have hbytes : (answers httpCallback reqs ++ refusal refused).map Reply.bytes =
      (xs ++ ys).map Prod.snd := by
    rw [answers_eq_responses, heq, refusal]
    cases refused <;> simp [xs, ys, item, Reply.bytes, Function.comp_def]
  have hitems : (responses httpCallback reqs).map HttpResponse.received ++
      (if refused then [Received.badRequest] else []) = (xs ++ ys).map Prod.fst := by
    rw [heq]
    cases refused <;> simp [xs, ys, item, Function.comp_def]
  have hdelimited : ∀ r ∈ keep ++ last, r.Delimited := fun r hr => by
    obtain ⟨req, rfl⟩ := hall r hr
    exact hcb req
  have hend : ∀ r ∈ last, Received.receive (r.appendToBuffer []) = some (r.received, []) :=
    fun r hr => by
      have hread := (hdelimited r (List.mem_append_right _ hr)).receive_response [] fun _ => rfl
      rwa [List.append_nil] at hread
  have hys : ∀ y ∈ ys, Received.receive y.2 = some (y.1, []) := fun y hy => by
    rcases List.mem_append.mp hy with hy | hy
    · obtain ⟨r, hr, rfl⟩ := List.mem_map.mp hy
      exact hend r hr
    · cases refused with
      | false => simp at hy
      | true =>
          obtain rfl := List.mem_singleton.mp hy
          exact Received.receive_badRequest
  have hxs : ∀ x ∈ xs, ∀ rest, Received.receive (x.2 ++ rest) = some (x.1, rest) := by
    intro x hx rest
    obtain ⟨r, hr, rfl⟩ := List.mem_map.mp hx
    refine (hdelimited r (List.mem_append_left _ hr)).receive_response rest fun hclose => ?_
    exact absurd (hclose.symm.trans (hkeep r hr)) (by simp)
  rw [hbytes, hitems]
  refine readAll_frames_last Received.receive_nil hxs ?_ hys fun x hx hnil => ?_
  · -- a refused connection was not closed by a response
    cases refused with
    | false => simpa [ys] using hlast
    | true => simp [ys, hnone (hrefused rfl)]
  · have hread : Received.receive (x.2 ++ []) = none := by rw [hnil]; rfl
    rcases List.mem_append.mp hx with hx | hx
    · exact absurd ((hxs x hx []).symm.trans hread) (by simp)
    · rw [List.append_nil] at hread
      exact absurd ((hys x hx).symm.trans hread) (by simp)

end HttpSession

/-! ### The example server -/

namespace HttpServerTest

/-- The two headers of every answer. -/
lemma delimited_of_headers {r : HttpResponse} {contentType : List Byte}
    (hheaders : r.headers = ((∅ : Std.ExtTreeMap (List Byte) (List Byte)).insert
      (ascii "Content-Type") contentType).insert (ascii "Server") (ascii "tractor"))
    (htype : contentType = ascii "text/html" ∨ contentType = ascii "text/plain")
    (hmessage : r.statusMessage = ascii "OK" ∨ r.statusMessage = ascii "Not Found")
    (hbody : r.body.length < 10 ^ 13) : r.Delimited := by
  have hfree : Free 13 10 r.statusMessage := by
    rcases hmessage with h | h <;> rw [h] <;> decide
  refine ⟨⟨hfree, fun field value h => ?_⟩, hbody, ?_⟩
  · rw [hheaders, Std.ExtTreeMap.getElem?_insert] at h
    split_ifs at h with hserver
    · obtain rfl : ascii "Server" = field := by simpa using hserver
      obtain rfl := Option.some.inj h
      exact ⟨by decide, by decide, by decide, by simp [ascii, isspace], by simp [ascii, isspace]⟩
    · rw [Std.ExtTreeMap.getElem?_insert] at h
      split_ifs at h with hcontent
      · obtain rfl : ascii "Content-Type" = field := by simpa using hcontent
        obtain rfl := Option.some.inj h
        rcases htype with rfl | rfl <;>
          exact ⟨by decide, by decide, by decide, by simp [ascii, isspace],
            by simp [ascii, isspace]⟩
      · simp at h
  · rw [hheaders, Std.ExtTreeMap.getElem?_insert, if_neg (by decide),
      Std.ExtTreeMap.getElem?_insert, if_neg (by decide), Std.ExtTreeMap.getElem?_empty]

/-- **What the example server answers can be read back**, if its files are not too long. -/
lemma delimited {files : List Byte → Option (List Byte)}
    (hfiles : ∀ name content, files name = some content → content.length < 10 ^ 13)
    (req : HttpRequest) : (HttpServer.respond (onRequest files) req).Delimited := by
  simp only [HttpServer.respond, onRequest]
  split_ifs with hroot hhello hlogin
  · refine delimited_of_headers rfl (Or.inl rfl) (Or.inl rfl) ?_
    change (ascii _).length < 10 ^ 13
    decide
  · refine delimited_of_headers rfl (Or.inr rfl) (Or.inl rfl) ?_
    change (ascii _).length < 10 ^ 13
    decide
  · refine delimited_of_headers rfl (Or.inl rfl) (Or.inl rfl) ?_
    change (ascii _).length < 10 ^ 13
    decide
  · rw [HttpResponse.setBodyByFile]
    cases hopen : files (HttpResponse.fileName req.path) with
    | none =>
        refine delimited_of_headers rfl (Or.inl rfl) (Or.inr rfl) ?_
        simp [HttpResponse.setBody]
    | some content =>
        exact delimited_of_headers rfl (Or.inl rfl) (Or.inl rfl) (hfiles _ _ hopen)

end HttpServerTest

namespace ReadServer

open HttpParser HttpSession

variable {httpCallback : HttpCallback} {o : ReadServer}

/-- **Every client can read its replies.**  The callback puts no line end into the status message
and the headers, no `:` into the name of a header and no white space before or behind a value; it
leaves the `Content-Length` to the encoder and makes bodies of less than `10 ^ 13` bytes.  In every
run of an `HttpServer`, whenever no callback is running there are for every connection some
requests, the first ones of the bytes read from it, such that reading one response after the other
off what the socket has accepted with what is buffered gives the status lines, the headers and the
bodies of the responses to them, in this order and up to the first that closes the connection, and
behind them one 400 reply if the connection was refused. -/
theorem responses_received (hcb : ∀ req, (HttpServer.respond httpCallback req).Delimited)
    {name : String} {acceptFd : ℕ} (h : Reaches httpCallback (start name acceptFd) o)
    (hcalls : o.http.calls = []) (c : ℕ) :
    ∃ (reqs : List HttpRequest) (refused : Bool),
      reqs.map HttpRequest.untimed <+: requests (o.stream c) ∧
      (refused = true → closes httpCallback reqs = false) ∧
      (closes httpCallback reqs = false →
        responses httpCallback reqs = reqs.map (HttpServer.respond httpCallback)) ∧
      readAll Received.receive
          ((o.http.server.conns c).socket.accepted ++
            (o.http.server.conns c).outputBuffer).length
          ((o.http.server.conns c).socket.accepted ++ (o.http.server.conns c).outputBuffer) =
        (responses httpCallback reqs).map HttpResponse.received ++
          if refused then [Received.badRequest] else [] := by
  obtain ⟨reqs, refused, hreqs, hrefused, -, hall⟩ := requests_answered_in_order h c
  refine ⟨reqs, refused, hreqs, fun hr => (hrefused hr).1, responses_eq_map httpCallback, ?_⟩
  rw [hall hcalls]
  exact readAll_answers httpCallback hcb reqs refused fun hr => (hrefused hr).1

/-- The client of the example server reads its greeting and the 400 reply. -/
theorem responses_received_refused : ∃ (o : ReadServer) (reqs : List HttpRequest)
    (refused : Bool), o.stream 1 = ascii "GET /hello HTTP/1.1\r\n\r\noops\r\n" ∧
    reqs.map HttpRequest.untimed <+: requests (o.stream 1) ∧
    readAll Received.receive
        ((o.http.server.conns 1).socket.accepted ++ (o.http.server.conns 1).outputBuffer).length
        ((o.http.server.conns 1).socket.accepted ++ (o.http.server.conns 1).outputBuffer) =
      (responses (HttpServerTest.onRequest fun _ => none) reqs).map HttpResponse.received ++
        if refused then [Received.badRequest] else [] := by
  have hrun : ((exec (next (HttpServerTest.onRequest fun _ => none)) (fun _ _ => True)
      (start "s" 3) requestAndRefusal).map fun o =>
        decide (o.stream 1 = ascii "GET /hello HTTP/1.1\r\n\r\noops\r\n" ∧ o.http.calls = [])) =
      some true := by decide +kernel
  obtain ⟨o, ho, hvals⟩ := Option.map_eq_some_iff.mp hrun
  obtain ⟨hstream, hcalls⟩ := of_decide_eq_true hvals
  obtain ⟨reqs, refused, hreqs, -, -, hall⟩ := responses_received
    (HttpServerTest.delimited (by simp)) ((Reach.refl _).of_exec ho) hcalls 1
  exact ⟨o, reqs, refused, hstream, hreqs, hall⟩

end ReadServer

end Tractor
