import Tractor.Buffer.Client
import Tractor.Http.Request

/-!
`HttpParser`: the incremental request parser of `src/HttpParser.cpp`.

* `processRequestLine`: the request line, with the half-filled request it leaves
  behind when it rejects the line.
* `parseBody`: one round of the `while (hasMore)` loop; `parseRuquest` is the loop
  itself.  The states `kExpectBody` and `kGotAll` have no branch that changes
  anything, so the loop does not end from them: that is `Outcome.hang`.
* `lineStep`: what the parser does with one complete line, and `Parses`, the loop
  over a byte list read line by line.  `parseRuquest_eq` says that this is what
  `parseRuquest` computes and that it always ends from the two line-reading states;
  everything else about the parser is an induction over `Parses`.
* `parseRuquest_view`: over a `Buffer` in its invariant the parser does what it
  does over the byte list the buffer stands for.
-/

namespace Tractor

open Library

/-- `HttpParser::HttpRequestParseState`. -/
inductive ParseState where
  | kExpectRequestLine
  | kExpectHeaders
  | kExpectBody
  | kGotAll
  deriving DecidableEq, Repr

/-- `class HttpParser`. -/
structure HttpParser where
  state : ParseState
  httpRequest : HttpRequest

namespace HttpParser

def new : HttpParser := ⟨.kExpectRequestLine, HttpRequest.new⟩

def gotAll (p : HttpParser) : Bool := p.state = .kGotAll

/-- `reset()`: the request is swapped with a new one. -/
def reset (p : HttpParser) : HttpParser :=
  ⟨.kExpectRequestLine, (p.httpRequest.swap HttpRequest.new).1⟩

@[simp] lemma reset_eq_new (p : HttpParser) : p.reset = new := rfl

/-- The part of `processRequestLine` behind the method: target and version of the rest
of the line, written into the request as far as they were found. -/
def processTarget (r : HttpRequest) (rest : List Byte) : Bool × HttpRequest :=
  let space := rest.findIdx (· == 32)
  if space ≠ rest.length then
    let target := rest.take space
    let question := target.findIdx (· == 63)
    let r :=
      if question ≠ target.length then
        (r.setPath (target.take question)).setQuery (target.drop question)
      else r.setPath target
    let version := rest.drop (space + 1)
    if version.length = 8 ∧ version.take 7 = ascii "HTTP/1." then
      if version.drop 7 = ascii "1" then (true, r.setVersion .kHttp11)
      else if version.drop 7 = ascii "0" then (true, r.setVersion .kHttp10)
      else (false, r)
    else (false, r)
  else (false, r)

/-- `processRequestLine(begin, end)` on the bytes of the line. -/
def processRequestLine (r : HttpRequest) (line : List Byte) :
    Except HttpFault (Bool × HttpRequest) :=
  let space := line.findIdx (· == 32)
  if space ≠ line.length then do
    let (known, r) ← r.setMethod (line.take space)
    if known then pure (processTarget r (line.drop (space + 1))) else pure (false, r)
  else pure (false, r)

/-! ### The loop -/

/-- The variables of the loop in `parseRuquest`: its two flags, the parser and the
buffer. -/
structure Loop (β : Type) where
  ok : Bool
  hasMore : Bool
  parser : HttpParser
  buf : β

section Buffer

variable {β : Type} [ByteBuffer β]

/-- The branch of a request line that is complete at `crlf`. -/
def requestLineBody (receiveTime : ℤ) (l : Loop β) (crlf : ℕ) : Except HttpFault (Loop β) := do
  let line := (ByteBuffer.readable l.buf).take crlf
  let (ok, r) ← processRequestLine l.parser.httpRequest line
  if ok then
    let buf ← (ByteBuffer.retrieveUntil l.buf (crlf + 2)).mapError .buffer
    pure { l with ok := ok, parser := ⟨.kExpectHeaders, r.setReceiveTime receiveTime⟩, buf := buf }
  else
    pure { l with ok := ok, hasMore := false, parser := { l.parser with httpRequest := r } }

/-- The branch of a header line that is complete at `crlf`: a line without a colon ends
the request. -/
def headerBody (l : Loop β) (crlf : ℕ) : Except HttpFault (Loop β) := do
  let line := (ByteBuffer.readable l.buf).take crlf
  let colon := line.findIdx (· == 58)
  let l :=
    if colon ≠ line.length then
      { l with parser :=
          { l.parser with httpRequest := l.parser.httpRequest.addHeader line colon } }
    else { l with hasMore := false, parser := { l.parser with state := .kGotAll } }
  let buf ← (ByteBuffer.retrieveUntil l.buf (crlf + 2)).mapError .buffer
  pure { l with buf := buf }

/-- One round of `while (hasMore)`. -/
def parseBody (receiveTime : ℤ) (l : Loop β) : Except HttpFault (Loop β) :=
  match l.parser.state with
  | .kExpectRequestLine =>
      match ByteBuffer.findCRLF l.buf with
      | some crlf => requestLineBody receiveTime l crlf
      | none => pure { l with hasMore := false }
  | .kExpectHeaders =>
      match ByteBuffer.findCRLF l.buf with
      | some crlf => headerBody l crlf
      | none => pure { l with hasMore := false }
  -- no branch of the source touches anything in the other two states
  | .kExpectBody => pure l
  | .kGotAll => pure l

/-- `parseRuquest(buf, receiveTime)`: the returned flag, with the parser and the buffer it
leaves.  Every round that goes on consumes a line, so one round more than there are
bytes is enough for a loop that ends at all. -/
def parseRuquest (p : HttpParser) (buf : β) (receiveTime : ℤ) :
    Outcome HttpFault (Bool × HttpParser × β) :=
  match whileFuel Loop.hasMore (parseBody receiveTime)
      ((ByteBuffer.readable buf).length + 1) ⟨true, true, p, buf⟩ with
  | some (.ok l) => .ret (l.ok, l.parser, l.buf)
  | some (.error f) => .abort f
  | none => .hang

end Buffer

/-! ### Line by line -/

/-- The parser still reads lines: its loop can end. -/
def Reading (p : HttpParser) : Prop :=
  p.state = .kExpectRequestLine ∨ p.state = .kExpectHeaders

/-- What a complete line does: it is consumed and reading goes on, it is consumed and
ends the request, or it is rejected and stays in the buffer. -/
inductive LineResult where
  | next (p : HttpParser)
  | last (p : HttpParser)
  | reject (p : HttpParser)

/-- The parser on one complete line. -/
def lineStep (receiveTime : ℤ) (p : HttpParser) (line : List Byte) :
    Except HttpFault LineResult :=
  match p.state with
  | .kExpectRequestLine => do
      let (ok, r) ← processRequestLine p.httpRequest line
      if ok then pure (.next ⟨.kExpectHeaders, r.setReceiveTime receiveTime⟩)
      else pure (.reject { p with httpRequest := r })
  | _ =>
      let colon := line.findIdx (· == 58)
      if colon ≠ line.length then
        pure (.next { p with httpRequest := p.httpRequest.addHeader line colon })
      else pure (.last { p with state := .kGotAll })

/-- The loop over a byte list: the flag it returns, the parser and the bytes it leaves,
or the assertion that stops it. -/
inductive Parses (receiveTime : ℤ) :
    HttpParser → List Byte → Except HttpFault (Bool × HttpParser × List Byte) → Prop
  | wait {p : HttpParser} {q : List Byte} (h : memmem Buffer.kCRLF q = none) :
      Parses receiveTime p q (.ok (true, p, q))
  | next {p p' : HttpParser} {q : List Byte} {i : ℕ}
      {r : Except HttpFault (Bool × HttpParser × List Byte)}
      (h : memmem Buffer.kCRLF q = some i)
      (hl : lineStep receiveTime p (q.take i) = .ok (.next p'))
      (h' : Parses receiveTime p' (q.drop (i + 2)) r) : Parses receiveTime p q r
  | last {p p' : HttpParser} {q : List Byte} {i : ℕ} (h : memmem Buffer.kCRLF q = some i)
      (hl : lineStep receiveTime p (q.take i) = .ok (.last p')) :
      Parses receiveTime p q (.ok (true, p', q.drop (i + 2)))
  | reject {p p' : HttpParser} {q : List Byte} {i : ℕ} (h : memmem Buffer.kCRLF q = some i)
      (hl : lineStep receiveTime p (q.take i) = .ok (.reject p')) :
      Parses receiveTime p q (.ok (false, p', q))
  | fault {p : HttpParser} {q : List Byte} {i : ℕ} {f : HttpFault}
      (h : memmem Buffer.kCRLF q = some i)
      (hl : lineStep receiveTime p (q.take i) = .error f) :
      Parses receiveTime p q (.error f)

/-- What the result of a line means for the loop. -/
def LineResult.loop (l : Loop (List Byte)) (i : ℕ) : LineResult → Loop (List Byte)
  | next p => { l with parser := p, buf := l.buf.drop (i + 2) }
  | last p => { l with hasMore := false, parser := p, buf := l.buf.drop (i + 2) }
  | reject p => { l with ok := false, hasMore := false, parser := p }

section Lists

variable {receiveTime : ℤ} {p p' : HttpParser} {q : List Byte} {i : ℕ}

/-- A `CR LF` that was found lies inside the buffer. -/
lemma crlf_le (h : memmem Buffer.kCRLF q = some i) : i + 2 ≤ q.length := memmem_add_le h

lemma lineStep_requestLine (hs : p.state = .kExpectRequestLine) (line : List Byte) :
    lineStep receiveTime p line = (processRequestLine p.httpRequest line).map fun x =>
      if x.1 then .next ⟨.kExpectHeaders, x.2.setReceiveTime receiveTime⟩
      else .reject { p with httpRequest := x.2 } := by
  simp only [lineStep, hs]
  cases processRequestLine p.httpRequest line with
  | error f => rfl
  | ok x =>
      obtain ⟨ok, r⟩ := x
      cases ok <;> rfl

lemma lineStep_headers (hs : p.state = .kExpectHeaders) (line : List Byte) :
    lineStep receiveTime p line = .ok (if line.findIdx (· == 58) ≠ line.length then
      .next { p with httpRequest := p.httpRequest.addHeader line (line.findIdx (· == 58)) }
      else .last { p with state := .kGotAll }) := by
  simp only [lineStep, hs]
  split_ifs <;> rfl

/-- **What a line can do to a parser that reads lines**: a request line is passed to
`processRequestLine`, a header line is stored or, without a colon, ends the request. -/
lemma lineStep_cases (hp : p.Reading) {line : List Byte} {res : Except HttpFault LineResult}
    (h : lineStep receiveTime p line = res) :
    (p.state = .kExpectRequestLine ∧
      ((∃ f, processRequestLine p.httpRequest line = .error f ∧ res = .error f) ∨
        (∃ r, processRequestLine p.httpRequest line = .ok (true, r) ∧
          res = .ok (.next ⟨.kExpectHeaders, r.setReceiveTime receiveTime⟩)) ∨
        (∃ r, processRequestLine p.httpRequest line = .ok (false, r) ∧
          res = .ok (.reject { p with httpRequest := r })))) ∨
    (p.state = .kExpectHeaders ∧
      ((line.findIdx (· == 58) ≠ line.length ∧ res = .ok (.next { p with
          httpRequest := p.httpRequest.addHeader line (line.findIdx (· == 58)) })) ∨
        (line.findIdx (· == 58) = line.length ∧
          res = .ok (.last { p with state := .kGotAll })))) := by
  subst h
  rcases hp with hs | hs
  · refine Or.inl ⟨hs, ?_⟩
    rw [lineStep_requestLine hs]
    cases processRequestLine p.httpRequest line with
    | error f => exact Or.inl ⟨f, rfl, rfl⟩
    | ok x =>
        obtain ⟨ok, r⟩ := x
        cases ok with
        | true => exact Or.inr (Or.inl ⟨r, rfl, rfl⟩)
        | false => exact Or.inr (Or.inr ⟨r, rfl, rfl⟩)
  · refine Or.inr ⟨hs, ?_⟩
    rw [lineStep_headers hs]
    by_cases hc : line.findIdx (· == 58) ≠ line.length
    · exact Or.inl ⟨hc, by rw [if_pos hc]⟩
    · exact Or.inr ⟨not_not.mp hc, by rw [if_neg hc]⟩

/-- A line behind which reading goes on is a request line that was taken or a header line
that was stored. -/
lemma lineStep_next_cases {line : List Byte} (hp : p.Reading)
    (h : lineStep receiveTime p line = .ok (.next p')) :
    (p.state = .kExpectRequestLine ∧ ∃ r, processRequestLine p.httpRequest line = .ok (true, r) ∧
      p' = ⟨.kExpectHeaders, r.setReceiveTime receiveTime⟩) ∨
    (p.state = .kExpectHeaders ∧ line.findIdx (· == 58) ≠ line.length ∧
      p' = { p with httpRequest := p.httpRequest.addHeader line (line.findIdx (· == 58)) }) := by
  obtain ⟨hs, ⟨f, -, h⟩ | ⟨r, hr, h⟩ | ⟨r, -, h⟩⟩ | ⟨hs, ⟨hcolon, h⟩ | ⟨-, h⟩⟩ :=
    lineStep_cases hp h
  · exact absurd h (by simp)
  · exact Or.inl ⟨hs, r, hr, by simpa using h⟩
  · exact absurd h (by simp)
  · exact Or.inr ⟨hs, hcolon, by simpa using h⟩
  · exact absurd h (by simp)

/-- The line that ends a request is a header line without a colon. -/
lemma lineStep_last_cases {line : List Byte} (hp : p.Reading)
    (h : lineStep receiveTime p line = .ok (.last p')) :
    p.state = .kExpectHeaders ∧ line.findIdx (· == 58) = line.length ∧
      p' = { p with state := .kGotAll } := by
  obtain ⟨-, ⟨f, -, h⟩ | ⟨r, -, h⟩ | ⟨r, -, h⟩⟩ | ⟨hs, ⟨-, h⟩ | ⟨hcolon, h⟩⟩ :=
    lineStep_cases hp h
  · exact absurd h (by simp)
  · exact absurd h (by simp)
  · exact absurd h (by simp)
  · exact absurd h (by simp)
  · exact ⟨hs, hcolon, by simpa using h⟩

/-- A line that is consumed leaves the parser waiting for header lines. -/
lemma state_of_lineStep_next {line : List Byte} (hp : p.Reading)
    (h : lineStep receiveTime p line = .ok (.next p')) : p'.state = .kExpectHeaders := by
  obtain ⟨-, r, -, rfl⟩ | ⟨hs, -, rfl⟩ := lineStep_next_cases hp h
  · rfl
  · exact hs

/-- The last line of a request leaves the parser with all of it. -/
lemma state_of_lineStep_last {line : List Byte} (hp : p.Reading)
    (h : lineStep receiveTime p line = .ok (.last p')) : p'.state = .kGotAll := by
  obtain ⟨-, -, rfl⟩ := lineStep_last_cases hp h
  rfl

/-- Only a request line is rejected. -/
lemma state_of_lineStep_reject {line : List Byte} (hp : p.Reading)
    (h : lineStep receiveTime p line = .ok (.reject p')) :
    p.state = .kExpectRequestLine ∧ p'.state = .kExpectRequestLine ∧
      processRequestLine p.httpRequest line = .ok (false, p'.httpRequest) := by
  obtain ⟨hs, ⟨f, -, h⟩ | ⟨r, -, h⟩ | ⟨r, hr, h⟩⟩ | ⟨-, ⟨-, h⟩ | ⟨-, h⟩⟩ := lineStep_cases hp h
  · exact absurd h (by simp)
  · exact absurd h (by simp)
  · obtain rfl : p' = _ := by simpa using h
    exact ⟨hs, hs, hr⟩
  · exact absurd h (by simp)
  · exact absurd h (by simp)

/-! ### The assertion of `setMethod` -/

/-- The parser may be given a request line: its request has no method yet. -/
def Fresh (p : HttpParser) : Prop :=
  p.state = .kExpectRequestLine → p.httpRequest.method = .kInvalid

lemma new_fresh : new.Fresh := fun _ => rfl

lemma new_reading : new.Reading := Or.inl rfl

/-- On a request with no method the line is judged without a failed assertion. -/
lemma processRequestLine_of_invalid {r : HttpRequest} (hr : r.method = .kInvalid)
    (line : List Byte) : ∃ x, processRequestLine r line = .ok x := by
  simp only [processRequestLine]
  split_ifs with hspace
  · rw [HttpRequest.setMethod, check_bind_of hr]
    simp only [pure, Except.pure, bind, Except.bind]
    split_ifs <;> exact ⟨_, rfl⟩
  · exact ⟨_, rfl⟩

/-- On a request that has its method, a line with a space trips the assertion. -/
lemma processRequestLine_of_method {r : HttpRequest} (hr : r.method ≠ .kInvalid)
    {line : List Byte} (hspace : line.findIdx (· == 32) ≠ line.length) :
    processRequestLine r line = .error .setMethod := by
  simp only [processRequestLine]
  rw [if_pos hspace, HttpRequest.setMethod, check_bind_not hr]
  rfl

/-- **One round is one line**: without a `CR LF` the loop stops, with one it does what the
line says. -/
lemma parseBody_list {l : Loop (List Byte)} (hok : l.ok = true) (hp : l.parser.Reading) :
    parseBody receiveTime l =
      match memmem Buffer.kCRLF l.buf with
      | none => .ok { l with hasMore := false }
      | some i => (lineStep receiveTime l.parser (l.buf.take i)).map (LineResult.loop l i) := by
  have hcr := ByteBuffer.findCRLF_list l.buf
  cases hm : memmem Buffer.kCRLF l.buf with
  | none =>
      rw [hm] at hcr
      rcases hp with hp | hp <;> simp only [parseBody, hp, hcr] <;> rfl
  | some i =>
      rw [hm] at hcr
      have hret := ByteBuffer.retrieveUntil_list (crlf_le hm)
      rcases hp with hp | hp
      · simp only [parseBody, hp, hcr, requestLineBody, ByteBuffer.readable_list, lineStep]
        cases hpr : processRequestLine l.parser.httpRequest (l.buf.take i) with
        | error f => rfl
        | ok res =>
            obtain ⟨ok, r⟩ := res
            cases ok with
            | false => rfl
            | true =>
                simp only [bind, Except.bind, if_true, hret, Except.mapError, pure, Except.pure,
                  Except.map, LineResult.loop, hok]
      · simp only [parseBody, hp, hcr, headerBody, ByteBuffer.readable_list, lineStep]
        by_cases hc : (l.buf.take i).findIdx (· == 58) ≠ (l.buf.take i).length
        · simp only [hc, ne_eq, not_false_eq_true, if_true, hret, Except.mapError, bind,
            Except.bind, pure, Except.pure, Except.map, LineResult.loop]
        · simp only [hc, if_false, hret, Except.mapError, bind, Except.bind, pure, Except.pure,
            Except.map, LineResult.loop]

/-- The loop over a byte list ends from the line-reading states. -/
lemma exists_parses (receiveTime : ℤ) (p : HttpParser) (q : List Byte) :
    ∃ r, Parses receiveTime p q r := by
  -- every line that goes on makes the list shorter
  induction hn : q.length using Nat.strong_induction_on generalizing p q with
  | _ n ih =>
    cases hm : memmem Buffer.kCRLF q with
    | none => exact ⟨_, .wait hm⟩
    | some i =>
        have hi := crlf_le hm
        cases hl : lineStep receiveTime p (q.take i) with
        | error f => exact ⟨_, .fault hm hl⟩
        | ok res =>
            cases res with
            | last p' => exact ⟨_, .last hm hl⟩
            | reject p' => exact ⟨_, .reject hm hl⟩
            | next p' =>
                obtain ⟨r, hr⟩ := ih (q.drop (i + 2)).length
                  (by rw [List.length_drop]; omega) p' (q.drop (i + 2)) rfl
                exact ⟨r, .next hm hl hr⟩

/-- The fuel of `parseRuquest` is enough. -/
lemma Parses.whileFuel {r : Except HttpFault (Bool × HttpParser × List Byte)}
    (h : Parses receiveTime p q r) (hp : p.Reading) {n : ℕ} (hn : q.length < n) :
    whileFuel Loop.hasMore (parseBody receiveTime) n ⟨true, true, p, q⟩ =
      some (r.map fun x => ⟨x.1, false, x.2.1, x.2.2⟩) := by
  induction h generalizing n with
  | wait hm =>
      obtain ⟨n, rfl⟩ : ∃ k, n = k + 1 := ⟨n - 1, by omega⟩
      rw [whileFuel_round rfl (by rw [parseBody_list rfl hp, hm]), whileFuel_of_not rfl]
      rfl
  | @next p p' q i r hm hl _ ih =>
      obtain ⟨n, rfl⟩ : ∃ k, n = k + 1 := ⟨n - 1, by omega⟩
      have hi := crlf_le hm
      have hbody : parseBody receiveTime ⟨true, true, p, q⟩ =
          .ok ⟨true, true, p', q.drop (i + 2)⟩ := by
        rw [parseBody_list rfl hp, hm]
        simp only [hl, Except.map, LineResult.loop]
      rw [whileFuel_round rfl hbody]
      exact ih (Or.inr (state_of_lineStep_next hp hl)) (by rw [List.length_drop]; omega)
  | @last p p' q i hm hl =>
      obtain ⟨n, rfl⟩ : ∃ k, n = k + 1 := ⟨n - 1, by omega⟩
      have hbody : parseBody receiveTime ⟨true, true, p, q⟩ =
          .ok ⟨true, false, p', q.drop (i + 2)⟩ := by
        rw [parseBody_list rfl hp, hm]
        simp only [hl, Except.map, LineResult.loop]
      rw [whileFuel_round rfl hbody, whileFuel_of_not rfl]
      rfl
  | @reject p p' q i hm hl =>
      obtain ⟨n, rfl⟩ : ∃ k, n = k + 1 := ⟨n - 1, by omega⟩
      have hbody : parseBody receiveTime ⟨true, true, p, q⟩ = .ok ⟨false, false, p', q⟩ := by
        rw [parseBody_list rfl hp, hm]
        simp only [hl, Except.map, LineResult.loop]
      rw [whileFuel_round rfl hbody, whileFuel_of_not rfl]
      rfl
  | @fault p q i f hm hl =>
      obtain ⟨n, rfl⟩ : ∃ k, n = k + 1 := ⟨n - 1, by omega⟩
      have hbody : parseBody receiveTime ⟨true, true, p, q⟩ = .error f := by
        rw [parseBody_list rfl hp, hm]
        simp only [hl, Except.map]
      rw [whileFuel_failed rfl hbody]
      rfl

/-- The outcome a result of the line-by-line reading stands for. -/
def toOutcome {α : Type} : Except HttpFault α → Outcome HttpFault α
  | .ok a => .ret a
  | .error f => .abort f

/-- **`parseRuquest` over a byte list is the line-by-line reading.** -/
theorem parseRuquest_eq {r : Except HttpFault (Bool × HttpParser × List Byte)}
    (h : Parses receiveTime p q r) (hp : p.Reading) :
    parseRuquest p q receiveTime = toOutcome r := by
  rw [parseRuquest, ByteBuffer.readable_list, h.whileFuel hp (Nat.lt_succ_self _)]
  cases r <;> rfl

/-- The line-by-line reading has one result. -/
lemma Parses.unique {r r' : Except HttpFault (Bool × HttpParser × List Byte)}
    (h : Parses receiveTime p q r) (h' : Parses receiveTime p q r') (hp : p.Reading) :
    r = r' := by
  have heq := (parseRuquest_eq h hp).symm.trans (parseRuquest_eq h' hp)
  cases r <;> cases r' <;> simp_all [toOutcome]

end Lists

/-! ### Over a buffer in its invariant -/

/-- Loops over a valid buffer and over its bytes. -/
def Loop.View (l : Loop ValidBuffer) (l' : Loop (List Byte)) : Prop :=
  l' = ⟨l.ok, l.hasMore, l.parser, l.buf.view⟩

lemma requestLineBody_view (receiveTime : ℤ) (l : Loop ValidBuffer) (crlf : ℕ) :
    ExceptRel Loop.View (requestLineBody receiveTime l crlf)
      (requestLineBody receiveTime ⟨l.ok, l.hasMore, l.parser, l.buf.view⟩ crlf) := by
  simp only [requestLineBody, ValidBuffer.view_readable, ByteBuffer.readable_list]
  cases processRequestLine l.parser.httpRequest (l.buf.view.take crlf) with
  | error f => exact .error f
  | ok res =>
      obtain ⟨ok, r⟩ := res
      cases ok with
      | false => exact .ok rfl
      | true =>
          have hview := l.buf.view_retrieveUntil (crlf + 2)
          simp only [bind, Except.bind, if_true, hview]
          cases ByteBuffer.retrieveUntil l.buf (crlf + 2) with
          | error f => exact .error _
          | ok b => exact .ok rfl

lemma headerBody_view (l : Loop ValidBuffer) (crlf : ℕ) :
    ExceptRel Loop.View (headerBody l crlf)
      (headerBody ⟨l.ok, l.hasMore, l.parser, l.buf.view⟩ crlf) := by
  simp only [headerBody, ValidBuffer.view_readable, ByteBuffer.readable_list]
  have hview := l.buf.view_retrieveUntil (crlf + 2)
  by_cases hc : (l.buf.view.take crlf).findIdx (· == 58) ≠ (l.buf.view.take crlf).length
  · simp only [hc, ne_eq, not_false_eq_true, if_true, hview]
    cases ByteBuffer.retrieveUntil l.buf (crlf + 2) with
    | error f => exact .error _
    | ok b => exact .ok rfl
  · simp only [hc, if_false, hview]
    cases ByteBuffer.retrieveUntil l.buf (crlf + 2) with
    | error f => exact .error _
    | ok b => exact .ok rfl

lemma parseBody_view (receiveTime : ℤ) {l : Loop ValidBuffer} {l' : Loop (List Byte)}
    (h : l.View l') :
    ExceptRel Loop.View (parseBody receiveTime l) (parseBody receiveTime l') := by
  obtain rfl := h
  have hcr := l.buf.view_findCRLF
  cases hs : l.parser.state with
  | kExpectRequestLine =>
      simp only [parseBody, hs, hcr]
      cases ByteBuffer.findCRLF l.buf with
      | none => exact .ok rfl
      | some crlf => exact requestLineBody_view receiveTime l crlf
  | kExpectHeaders =>
      simp only [parseBody, hs, hcr]
      cases ByteBuffer.findCRLF l.buf with
      | none => exact .ok rfl
      | some crlf => exact headerBody_view l crlf
  | kExpectBody =>
      simp only [parseBody, hs]
      exact .ok rfl
  | kGotAll =>
      simp only [parseBody, hs]
      exact .ok rfl

/-- **The parser over a `Buffer` in its invariant**: the result over the byte list is the
result over the buffer, with the buffer that is left read as its bytes. -/
theorem parseRuquest_view (p : HttpParser) (b : ValidBuffer) (receiveTime : ℤ) :
    parseRuquest p b.view receiveTime =
      match parseRuquest p b receiveTime with
      | .ret (ok, p', b') => .ret (ok, p', b'.view)
      | .abort f => .abort f
      | .hang => .hang := by
  have hmore : ∀ (l : Loop ValidBuffer) (l' : Loop (List Byte)), l.View l' →
      l.hasMore = l'.hasMore := by
    rintro l l' rfl
    rfl
  have hsim := whileFuel_sim hmore (fun l l' h => parseBody_view receiveTime h) (b.view.length + 1)
    (show Loop.View ⟨true, true, p, b⟩ ⟨true, true, p, b.view⟩ from rfl)
  rw [parseRuquest, parseRuquest, ByteBuffer.readable_list, ValidBuffer.view_readable]
  cases h : whileFuel Loop.hasMore (parseBody receiveTime) (b.view.length + 1)
      (⟨true, true, p, b⟩ : Loop ValidBuffer) with
  | none =>
      rw [h] at hsim
      cases h' : whileFuel Loop.hasMore (parseBody receiveTime) (b.view.length + 1)
          (⟨true, true, p, b.view⟩ : Loop (List Byte)) with
      | none => rfl
      | some r => rw [h'] at hsim; cases hsim
  | some r =>
      rw [h] at hsim
      cases h' : whileFuel Loop.hasMore (parseBody receiveTime) (b.view.length + 1)
          (⟨true, true, p, b.view⟩ : Loop (List Byte)) with
      | none => rw [h'] at hsim; cases hsim
      | some r' =>
          rw [h'] at hsim
          cases hsim with
          | some hr =>
              cases hr with
              | ok hl => obtain rfl := hl; rfl
              | error f => rfl

/-- A call over a buffer returns when the call over its bytes does, with the same bytes
left. -/
lemma parseRuquest_of_view {p p' : HttpParser} {b : ValidBuffer} {receiveTime : ℤ} {ok : Bool}
    {rest : List Byte} (h : parseRuquest p b.view receiveTime = .ret (ok, p', rest)) :
    ∃ b' : ValidBuffer, parseRuquest p b receiveTime = .ret (ok, p', b') ∧ b'.view = rest := by
  rw [parseRuquest_view] at h
  cases hb : parseRuquest p b receiveTime with
  | ret x =>
      obtain ⟨ok', p'', b'⟩ := x
      rw [hb] at h
      simp only [Outcome.ret.injEq, Prod.mk.injEq] at h
      obtain ⟨rfl, rfl, hview⟩ := h
      exact ⟨b', rfl, hview⟩
  | abort f =>
      rw [hb] at h
      cases h
  | hang =>
      rw [hb] at h
      cases h

end HttpParser

end Tractor
