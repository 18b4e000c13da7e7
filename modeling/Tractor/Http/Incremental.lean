import Tractor.Http.Parser

/-!
Parsing a stream in chunks.

The state of a parser between two chunks is its state, the half-filled request and
the unread bytes.  What relates all three to the stream is that they are the result
of one call on everything received so far.

* `Parses.append_stop`: a call that rejected a line or completed the request is not
  affected by bytes that arrive behind; they only stay unread.
* `Parses.append_wait`: a call that ran out of lines, followed by a call on what it
  left and the next bytes, is one call on all of them.
* `Parses.untimed`: receive times are written and never read, so calls at other
  times give the same request but for its receive time.
* `Parses.ok_of_fresh`: no assertion stops a parser whose request has no method yet
  while it waits for a request line.
* `incremental_eq_oneShot`: feeding any chunks ends as one call on their
  concatenation does.
-/

namespace Tractor

open Library

/-! ### Requests up to their receive time -/

/-- The request without its receive time. -/
def HttpRequest.untimed (r : HttpRequest) : HttpRequest := { r with receiveTime := none }

namespace HttpParser

def untimed (p : HttpParser) : HttpParser := { p with httpRequest := p.httpRequest.untimed }

section Untimed

variable {p p' : HttpParser}

lemma state_of_untimed (h : p.untimed = p'.untimed) : p.state = p'.state :=
  (congrArg HttpParser.state h : p.untimed.state = p'.untimed.state)

lemma gotAll_of_untimed (h : p.untimed = p'.untimed) : p.gotAll = p'.gotAll := by
  rw [gotAll, gotAll, state_of_untimed h]

lemma method_of_untimed (h : p.untimed = p'.untimed) :
    p.httpRequest.method = p'.httpRequest.method :=
  (congrArg (·.httpRequest.method) h :
    p.untimed.httpRequest.method = p'.untimed.httpRequest.method)

lemma Reading.of_untimed (hp : p.Reading) (h : p.untimed = p'.untimed) : p'.Reading := by
  rw [Reading, ← state_of_untimed h]
  exact hp

lemma Fresh.of_untimed (hp : p.Fresh) (h : p.untimed = p'.untimed) : p'.Fresh := by
  rw [Fresh, ← state_of_untimed h, ← method_of_untimed h]
  exact hp

end Untimed

/-- Two lines had the same effect, up to receive times. -/
inductive LineResult.Same : LineResult → LineResult → Prop
  | next {p p' : HttpParser} (h : p.untimed = p'.untimed) : Same (.next p) (.next p')
  | last {p p' : HttpParser} (h : p.untimed = p'.untimed) : Same (.last p) (.last p')
  | reject {p p' : HttpParser} (h : p.untimed = p'.untimed) : Same (.reject p) (.reject p')

lemma processTarget_untimed (r : HttpRequest) (rest : List Byte) :
    processTarget r.untimed rest =
      ((processTarget r rest).1, (processTarget r rest).2.untimed) := by
  simp only [processTarget]
  split_ifs <;> rfl

lemma processRequestLine_untimed (r : HttpRequest) (line : List Byte) :
    processRequestLine r.untimed line =
      (processRequestLine r line).map fun x => (x.1, x.2.untimed) := by
  simp only [processRequestLine]
  split_ifs
  · by_cases hm : r.method = .kInvalid
    · have hm' : r.untimed.method = .kInvalid := hm
      rw [HttpRequest.setMethod, HttpRequest.setMethod, check_bind_of hm, check_bind_of hm']
      by_cases hk : HttpRequest.methodOf (line.take (line.findIdx (· == 32))) = .kInvalid
      · simp only [pure, Except.pure, bind, Except.bind, Except.map, hk, ne_eq, not_true_eq_false,
          decide_false, Bool.false_eq_true, if_false]
        rfl
      · simp only [pure, Except.pure, bind, Except.bind, Except.map, ne_eq, hk, not_false_eq_true,
          decide_true, if_true, Except.ok.injEq]
        exact processTarget_untimed { r with method := HttpRequest.methodOf _ } _
    · have hm' : ¬ r.untimed.method = .kInvalid := hm
      rw [HttpRequest.setMethod, HttpRequest.setMethod, check_bind_not hm, check_bind_not hm']
      rfl
  · rfl

/-- A line does the same at any time to any two parsers that differ in their receive
times only. -/
lemma lineStep_same {p p' : HttpParser} (h : p.untimed = p'.untimed) (t t' : ℤ)
    (line : List Byte) : ExceptRel LineResult.Same (lineStep t p line) (lineStep t' p' line) := by
  have hstate := state_of_untimed h
  have hreq : p.httpRequest.untimed = p'.httpRequest.untimed := congrArg HttpParser.httpRequest h
  cases hs : p.state with
  | kExpectRequestLine =>
      have hs' : p'.state = .kExpectRequestLine := hstate ▸ hs
      have hline := processRequestLine_untimed p.httpRequest line
      rw [hreq, processRequestLine_untimed p'.httpRequest line] at hline
      simp only [lineStep, hs, hs']
      cases hr : processRequestLine p.httpRequest line with
      | error f =>
          cases hr' : processRequestLine p'.httpRequest line with
          | ok x => simp [hr, hr', Except.map] at hline
          | error f' =>
              simp only [hr, hr', Except.map, Except.error.injEq] at hline
              subst hline
              exact .error f'
      | ok x =>
          cases hr' : processRequestLine p'.httpRequest line with
          | error f' => simp [hr, hr', Except.map] at hline
          | ok x' =>
              obtain ⟨ok, r⟩ := x
              obtain ⟨ok', r'⟩ := x'
              simp only [hr, hr', Except.map, Except.ok.injEq, Prod.mk.injEq] at hline
              obtain ⟨rfl, hrr⟩ := hline
              cases ok' with
              | true => exact .ok (.next (congrArg (HttpParser.mk .kExpectHeaders) hrr.symm))
              | false => exact .ok (.reject (congrArg (HttpParser.mk .kExpectRequestLine) hrr.symm))
  | _ =>
      have hs' : p'.state = p.state := hstate.symm
      simp only [lineStep, hs, hs']
      split_ifs
      · refine .ok (.next (congrArg (HttpParser.mk _) ?_))
        exact congrArg (HttpRequest.addHeader · line (line.findIdx (· == 58))) hreq
      · exact .ok (.last (congrArg (HttpParser.mk .kGotAll) hreq))

/-- The result of a call without the receive time. -/
def untimedResult (x : Bool × HttpParser × List Byte) : Bool × HttpParser × List Byte :=
  (x.1, x.2.1.untimed, x.2.2)

/-- **Receive times are never read.** -/
theorem Parses.untimed {t t' : ℤ} {p p' : HttpParser} {q : List Byte}
    {r : Except HttpFault (Bool × HttpParser × List Byte)} (h : Parses t p q r)
    (hp : p.untimed = p'.untimed) :
    ∃ r', Parses t' p' q r' ∧ r.map untimedResult = r'.map untimedResult := by
  induction h generalizing p' with
  | @wait p q hm => exact ⟨_, .wait hm, by simp [untimedResult, hp, Except.map]⟩
  | @next p p₁ q i r hm hl _ ih =>
      have hsame := lineStep_same hp t t' (q.take i)
      rw [hl] at hsame
      generalize hl' : lineStep t' p' (q.take i) = res at hsame
      obtain hr | _ := hsame
      obtain h₁ | _ | _ := hr
      obtain ⟨r', hr', heq⟩ := ih h₁
      exact ⟨r', .next hm hl' hr', heq⟩
  | @last p p₁ q i hm hl =>
      have hsame := lineStep_same hp t t' (q.take i)
      rw [hl] at hsame
      generalize hl' : lineStep t' p' (q.take i) = res at hsame
      obtain hr | _ := hsame
      obtain _ | h₁ | _ := hr
      exact ⟨_, .last hm hl', by simp [untimedResult, h₁, Except.map]⟩
  | @reject p p₁ q i hm hl =>
      have hsame := lineStep_same hp t t' (q.take i)
      rw [hl] at hsame
      generalize hl' : lineStep t' p' (q.take i) = res at hsame
      obtain hr | _ := hsame
      obtain _ | _ | h₁ := hr
      exact ⟨_, .reject hm hl', by simp [untimedResult, h₁, Except.map]⟩
  | @fault p q i f hm hl =>
      have hsame := lineStep_same hp t t' (q.take i)
      rw [hl] at hsame
      generalize hl' : lineStep t' p' (q.take i) = res at hsame
      obtain _ | _ := hsame
      exact ⟨_, .fault hm hl', rfl⟩

/-! ### Bytes that arrive later -/

section Append

variable {t : ℤ} {p p' : HttpParser} {q r y : List Byte} {ok : Bool} {i : ℕ}

/-- A line that was complete stays the first line. -/
lemma crlf_append (h : memmem Buffer.kCRLF q = some i) (y : List Byte) :
    memmem Buffer.kCRLF (q ++ y) = some i ∧ (q ++ y).take i = q.take i ∧
      (q ++ y).drop (i + 2) = q.drop (i + 2) ++ y := by
  have hi := crlf_le h
  exact ⟨memmem_append h y, List.take_append_of_le_length (by omega),
    List.drop_append_of_le_length hi⟩

/-- **Bytes behind a finished call stay unread.** -/
theorem Parses.append_stop (h : Parses t p q (.ok (ok, p', r))) (hp : p.Reading)
    (hstop : ok = false ∨ p'.gotAll = true) (y : List Byte) :
    Parses t p (q ++ y) (.ok (ok, p', r ++ y)) := by
  generalize hres : (Except.ok (ok, p', r) : Except HttpFault _) = res at h
  induction h with
  | @wait p q hm =>
      -- a call that waits for more is not finished
      obtain ⟨rfl, rfl, rfl⟩ : ok = true ∧ p' = p ∧ r = q := by simpa using hres
      rcases hstop with hok | hgot
      · exact absurd hok (by simp)
      · rcases hp with hp | hp <;> simp [gotAll, hp] at hgot
  | @next p p₁ q i res hm hl _ ih =>
      obtain ⟨hm', htake, hdrop⟩ := crlf_append hm y
      refine .next hm' (htake ▸ hl) ?_
      rw [hdrop]
      exact ih (Or.inr (state_of_lineStep_next hp hl)) hres
  | @last p p₁ q i hm hl =>
      obtain ⟨rfl, rfl, rfl⟩ : ok = true ∧ p' = p₁ ∧ r = q.drop (i + 2) := by simpa using hres
      obtain ⟨hm', htake, hdrop⟩ := crlf_append hm y
      rw [← hdrop]
      exact .last hm' (htake ▸ hl)
  | @reject p p₁ q i hm hl =>
      obtain ⟨rfl, rfl, rfl⟩ : ok = false ∧ p' = p₁ ∧ r = q := by simpa using hres
      obtain ⟨hm', htake, -⟩ := crlf_append hm y
      exact .reject hm' (htake ▸ hl)
  | fault _ _ => exact absurd hres (by simp)

/-- **A call that waits can be resumed**: going on from what it left, with more bytes, is
one call on all of them. -/
theorem Parses.append_wait {res : Except HttpFault (Bool × HttpParser × List Byte)}
    (h : Parses t p q (.ok (true, p', r))) (hp : p.Reading) (hp' : p'.Reading)
    (h' : Parses t p' (r ++ y) res) : Parses t p (q ++ y) res := by
  generalize hres : (Except.ok (true, p', r) : Except HttpFault _) = res₀ at h
  induction h with
  | @wait p q hm =>
      obtain ⟨rfl, rfl⟩ : p' = p ∧ r = q := by simpa using hres
      exact h'
  | @next p p₁ q i res₀ hm hl _ ih =>
      obtain ⟨hm', htake, hdrop⟩ := crlf_append hm y
      refine .next hm' (htake ▸ hl) ?_
      rw [hdrop]
      exact ih (Or.inr (state_of_lineStep_next hp hl)) hres
  | @last p p₁ q i hm hl =>
      obtain ⟨rfl, rfl⟩ : p' = p₁ ∧ r = q.drop (i + 2) := by simpa using hres
      have hlast := state_of_lineStep_last hp hl
      rcases hp' with hp' | hp' <;> simp [hp'] at hlast
  | reject _ _ => exact absurd hres (by simp)
  | fault _ _ => exact absurd hres (by simp)

/-- What a call leaves unread is a suffix of what it was given. -/
lemma Parses.suffix (h : Parses t p q (.ok (ok, p', r))) : r <:+ q := by
  generalize hres : (Except.ok (ok, p', r) : Except HttpFault _) = res at h
  induction h with
  | @wait p q hm =>
      obtain ⟨-, -, rfl⟩ : ok = true ∧ p' = p ∧ r = q := by simpa using hres
      exact List.suffix_rfl
  | next _ _ _ ih => exact (ih hres).trans (List.drop_suffix _ _)
  | @last p p₁ q i hm hl =>
      obtain ⟨-, -, rfl⟩ : ok = true ∧ p' = p₁ ∧ r = q.drop (i + 2) := by simpa using hres
      exact List.drop_suffix _ _
  | @reject p p₁ q i hm hl =>
      obtain ⟨-, -, rfl⟩ : ok = false ∧ p' = p₁ ∧ r = q := by simpa using hres
      exact List.suffix_rfl
  | fault _ _ => exact absurd hres (by simp)

/-- The states a call can end in: still reading and fresh, or with the whole request, or
at a rejected request line. -/
lemma Parses.state_cases (h : Parses t p q (.ok (ok, p', r))) (hp : p.Reading)
    (hfresh : p.Fresh) :
    (ok = true ∧ p'.Reading ∧ p'.Fresh) ∨ (ok = true ∧ p'.gotAll = true) ∨
      (ok = false ∧ p'.state = .kExpectRequestLine) := by
  generalize hres : (Except.ok (ok, p', r) : Except HttpFault _) = res at h
  induction h with
  | @wait p q hm =>
      obtain ⟨rfl, rfl, rfl⟩ : ok = true ∧ p' = p ∧ r = q := by simpa using hres
      exact Or.inl ⟨rfl, hp, hfresh⟩
  | @next p p₁ q i res hm hl _ ih =>
      have hs := state_of_lineStep_next hp hl
      exact ih (Or.inr hs) (fun hs' => absurd (hs.symm.trans hs') (by simp)) hres
  | @last p p₁ q i hm hl =>
      obtain ⟨rfl, rfl, rfl⟩ : ok = true ∧ p' = p₁ ∧ r = q.drop (i + 2) := by simpa using hres
      exact Or.inr (Or.inl ⟨rfl, by simp [gotAll, state_of_lineStep_last hp hl]⟩)
  | @reject p p₁ q i hm hl =>
      obtain ⟨rfl, rfl, rfl⟩ : ok = false ∧ p' = p₁ ∧ r = q := by simpa using hres
      exact Or.inr (Or.inr ⟨rfl, (state_of_lineStep_reject hp hl).2.1⟩)
  | fault _ _ => exact absurd hres (by simp)

/-- **A fresh parser trips no assertion.** -/
theorem Parses.ok_of_fresh {res : Except HttpFault (Bool × HttpParser × List Byte)}
    (h : Parses t p q res) (hp : p.Reading) (hfresh : p.Fresh) : ∃ x, res = .ok x := by
  induction h with
  | wait _ => exact ⟨_, rfl⟩
  | @next p p₁ q i res hm hl _ ih =>
      have hs := state_of_lineStep_next hp hl
      exact ih (Or.inr hs) fun hs' => absurd (hs.symm.trans hs') (by simp)
  | last _ _ => exact ⟨_, rfl⟩
  | reject _ _ => exact ⟨_, rfl⟩
  | @fault p q i f hm hl =>
      obtain ⟨hs, ⟨f', herr, -⟩ | ⟨r, -, h⟩ | ⟨r, -, h⟩⟩ | ⟨-, ⟨-, h⟩ | ⟨-, h⟩⟩ :=
        lineStep_cases hp hl
      · obtain ⟨x, hok⟩ := processRequestLine_of_invalid (hfresh hs) (q.take i)
        exact absurd (hok.symm.trans herr) (by simp)
      all_goals exact absurd h (by simp)

end Append

/-! ### Feeding chunks -/

/-- A parser that is fed chunks: the flag of its last call, the parser, and the unread
bytes. -/
structure Feed where
  ok : Bool
  parser : HttpParser
  buf : List Byte

namespace Feed

def new : Feed := ⟨true, HttpParser.new, []⟩

/-- The last call returned true and the request is not complete: the next chunk will be
parsed. -/
def active (s : Feed) : Bool := s.ok && !s.parser.gotAll

end Feed

/-- Feed chunks, each with the time it is received: append the chunk and call
`parseRuquest`, until a call returned false or completed the request; from then on only
append. -/
def feed (s : Feed) : List (List Byte × ℤ) → Outcome HttpFault Feed
  | [] => .ret s
  | (chunk, t) :: chunks =>
      if s.active then
        match parseRuquest s.parser (s.buf ++ chunk) t with
        | .ret (ok, p, buf) => feed ⟨ok, p, buf⟩ chunks
        | .abort f => .abort f
        | .hang => .hang
      else feed { s with buf := s.buf ++ chunk } chunks

/-- The invariant of feeding: up to receive times, the parser, its flag and its unread
bytes are what one call on the whole input received so far leaves. -/
def Feed.Tracks (s : Feed) (input : List Byte) : Prop :=
  ∀ t, ∃ p, Parses t HttpParser.new input (.ok (s.ok, p, s.buf)) ∧ p.untimed = s.parser.untimed

lemma Feed.new_tracks : Feed.new.Tracks [] :=
  fun _ => ⟨HttpParser.new, .wait rfl, rfl⟩

/-- A parser that takes the next chunk still reads lines and may be given one. -/
lemma Feed.Tracks.reading {s : Feed} {input : List Byte} (h : s.Tracks input)
    (hact : s.active = true) : s.parser.Reading ∧ s.parser.Fresh := by
  simp only [Feed.active, Bool.and_eq_true, Bool.not_eq_true'] at hact
  obtain ⟨hok, hgot⟩ := hact
  obtain ⟨p, hparse, hp⟩ := h 0
  rcases hparse.state_cases new_reading new_fresh with ⟨-, hr, hf⟩ | ⟨-, hg⟩ | ⟨hno, -⟩
  · exact ⟨hr.of_untimed hp, hf.of_untimed hp⟩
  · rw [gotAll_of_untimed hp, hgot] at hg
    exact absurd hg (by simp)
  · exact absurd (hok.symm.trans hno) (by simp)

/-- **One call on a chunk**: it returns, and what it leaves tracks the longer input. -/
lemma Feed.Tracks.parse {s : Feed} {input : List Byte} (h : s.Tracks input)
    (hact : s.active = true) (chunk : List Byte) (t : ℤ) :
    ∃ s' : Feed, s'.Tracks (input ++ chunk) ∧
      Parses t s.parser (s.buf ++ chunk) (.ok (s'.ok, s'.parser, s'.buf)) ∧
      parseRuquest s.parser (s.buf ++ chunk) t = .ret (s'.ok, s'.parser, s'.buf) := by
  obtain ⟨hread, hfresh⟩ := h.reading hact
  obtain ⟨res, hcall⟩ := exists_parses t s.parser (s.buf ++ chunk)
  obtain ⟨⟨ok, p, buf⟩, rfl⟩ := hcall.ok_of_fresh hread hfresh
  refine ⟨⟨ok, p, buf⟩, ?_, hcall, parseRuquest_eq hcall hread⟩
  -- replay the call at any other time from what the one call on the input leaves
  intro t'
  obtain ⟨p₀, hparse, hp₀⟩ := h t'
  simp only [Feed.active, Bool.and_eq_true] at hact
  rw [hact.1] at hparse
  obtain ⟨res', hcall', heq⟩ : ∃ r', Parses t' p₀ (s.buf ++ chunk) r' ∧
      Except.map untimedResult (.ok (ok, p, buf)) = r'.map untimedResult :=
    hcall.untimed hp₀.symm
  cases res' with
  | error f => simp [Except.map] at heq
  | ok x =>
      obtain ⟨ok', p', buf'⟩ := x
      simp only [Except.map, untimedResult, Except.ok.injEq, Prod.mk.injEq] at heq
      obtain ⟨rfl, hp', rfl⟩ := heq
      exact ⟨p', hparse.append_wait new_reading (hread.of_untimed hp₀.symm) hcall', hp'.symm⟩

/-- A chunk that is only appended is tracked as well. -/
lemma Feed.Tracks.append {s : Feed} {input : List Byte} (h : s.Tracks input)
    (hact : s.active = false) (chunk : List Byte) :
    Feed.Tracks { s with buf := s.buf ++ chunk } (input ++ chunk) := by
  intro t
  obtain ⟨p, hparse, hp⟩ := h t
  refine ⟨p, hparse.append_stop new_reading ?_ chunk, hp⟩
  simp only [Feed.active, Bool.and_eq_false_iff, Bool.not_eq_false'] at hact
  rw [gotAll_of_untimed hp]
  exact hact

/-- Feeding returns, and what it leaves tracks everything that was fed. -/
lemma Feed.Tracks.feed {s : Feed} {input : List Byte} (h : s.Tracks input)
    (chunks : List (List Byte × ℤ)) :
    ∃ s' : Feed, feed s chunks = .ret s' ∧
      s'.Tracks (input ++ (chunks.map Prod.fst).flatten) := by
  induction chunks generalizing s input with
  | nil => exact ⟨s, rfl, by simpa using h⟩
  | cons c chunks ih =>
      obtain ⟨chunk, t⟩ := c
      cases hact : s.active with
      | true =>
          obtain ⟨s₁, h₁, -, hret⟩ := h.parse hact chunk t
          obtain ⟨s', hs', htr⟩ := ih h₁
          refine ⟨s', ?_, by simpa [List.append_assoc] using htr⟩
          simp only [HttpParser.feed, hact, if_true, hret]
          exact hs'
      | false =>
          obtain ⟨s', hs', htr⟩ := ih (h.append hact chunk)
          refine ⟨s', ?_, by simpa [List.append_assoc] using htr⟩
          simp only [HttpParser.feed, hact, Bool.false_eq_true, if_false]
          exact hs'

/-- **Incremental parsing equals one-shot parsing.**  Feeding any chunks, received at any
times, to a new parser ends with the flag, the parser state, the method, version, path,
query and headers, and the unread bytes of one call on their concatenation; and what was
consumed, followed by what is left, is the input. -/
theorem incremental_eq_oneShot (chunks : List (List Byte × ℤ)) (t : ℤ) :
    ∃ (s : Feed) (p : HttpParser),
      feed Feed.new chunks = .ret s ∧
      parseRuquest HttpParser.new (chunks.map Prod.fst).flatten t = .ret (s.ok, p, s.buf) ∧
      s.parser.state = p.state ∧
      s.parser.httpRequest.method = p.httpRequest.method ∧
      s.parser.httpRequest.version = p.httpRequest.version ∧
      s.parser.httpRequest.path = p.httpRequest.path ∧
      s.parser.httpRequest.query = p.httpRequest.query ∧
      s.parser.httpRequest.headers = p.httpRequest.headers ∧
      ∃ consumed, consumed ++ s.buf = (chunks.map Prod.fst).flatten := by
  obtain ⟨s, hs, htr⟩ := Feed.new_tracks.feed chunks
  rw [List.nil_append] at htr
  obtain ⟨p, hparse, hp⟩ := htr t
  obtain ⟨consumed, hconsumed⟩ := hparse.suffix
  have hreq : p.httpRequest.untimed = s.parser.httpRequest.untimed :=
    congrArg HttpParser.httpRequest hp
  simp only [HttpRequest.untimed, HttpRequest.mk.injEq] at hreq
  obtain ⟨hversion, hmethod, hpath, hquery, -, hheaders⟩ := hreq
  exact ⟨s, p, hs, parseRuquest_eq hparse new_reading, (state_of_untimed hp).symm, hmethod.symm,
    hversion.symm, hpath.symm, hquery.symm, hheaders.symm, consumed, hconsumed⟩

end HttpParser

end Tractor
