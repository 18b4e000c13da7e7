import Tractor.Http.Incremental
import Tractor.Http.RequestLine

/-!
One parser for the requests of a connection that is kept alive.

`reset` swaps the request with a local one whose receive time was never assigned, so the
receive time a reset request holds is arbitrary; every other member is as in a new request.
Two parsers that differ in that time only are compared call by call: while both wait for a
request line they keep differing in it only, and the line that ends the wait writes the time
in both.

* `History`: the parsers that a sequence of complete requests, each followed by `reset`,
  leaves; `History.eq_blank` says what such a parser is.
* `Twin`: the relation between the two runs, kept by a call (`Parses.twin`) and by the
  chunks (`Twin.feed`).
* `feed_after_history`: **the next complete request does not depend on the history.**
-/

namespace Tractor

open Library

namespace HttpParser

/-- `reset()` where the receive time of the local request happens to hold `g`. -/
def resetTo (p : HttpParser) (g : Option ℤ) : HttpParser :=
  ⟨.kExpectRequestLine, (p.httpRequest.swap (blank g)).1⟩

lemma resetTo_none (p : HttpParser) : p.resetTo none = p.reset := rfl

/-- The parsers behind a sequence of requests that were parsed to `gotAll()` and followed by
`reset()`, whatever the buffer held when each began and however it came in. -/
inductive History : HttpParser → Prop
  | new (g : Option ℤ) : History ⟨.kExpectRequestLine, blank g⟩
  | next {p : HttpParser} (h : History p) {buf : List Byte} {chunks : List (List Byte × ℤ)}
      {s : Feed} (hfeed : feed ⟨true, p, buf⟩ chunks = .ret s) (hgot : s.parser.gotAll = true)
      (g : Option ℤ) : History (s.parser.resetTo g)

/-- **A reset parser is a new one** but for its receive time. -/
lemma History.eq_blank {p : HttpParser} (h : History p) :
    ∃ g, p = ⟨.kExpectRequestLine, blank g⟩ := by
  cases h with
  | new g => exact ⟨g, rfl⟩
  | next _ _ _ g => exact ⟨g, rfl⟩

/-! ### Two runs side by side -/

/-- Both parsers wait for a request line and differ in their receive times only. -/
structure Waiting (p p' : HttpParser) : Prop where
  state : p.state = .kExpectRequestLine
  untimed : p.untimed = p'.untimed

/-- The two runs are the same, or still wait for the request line. -/
def Twin (s s' : Feed) : Prop :=
  s = s' ∨ (s.ok = s'.ok ∧ s.buf = s'.buf ∧ Waiting s.parser s'.parser)

lemma Waiting.reading {p p' : HttpParser} (h : Waiting p p') : p.Reading ∧ p'.Reading := by
  refine ⟨Or.inl h.state, Or.inl ?_⟩
  rw [← state_of_untimed h.untimed]
  exact h.state

lemma eq_of_untimed {p p' : HttpParser} (h : p.untimed = p'.untimed)
    (ht : p.httpRequest.receiveTime = p'.httpRequest.receiveTime) : p = p' := by
  obtain ⟨st, r⟩ := p
  obtain ⟨st', r'⟩ := p'
  simp only [HttpParser.untimed, HttpRequest.untimed, HttpParser.mk.injEq,
    HttpRequest.mk.injEq] at h
  obtain ⟨rfl, hversion, hmethod, hpath, hquery, -, hheaders⟩ := h
  congr 1
  cases r
  cases r'
  simp_all

/-- The line that ends the wait writes the receive time. -/
lemma receiveTime_of_lineStep_next {p p₁ : HttpParser} {t : ℤ} {line : List Byte}
    (hs : p.state = .kExpectRequestLine) (h : lineStep t p line = .ok (.next p₁)) :
    p₁.httpRequest.receiveTime = some t := by
  obtain ⟨-, r, -, rfl⟩ | ⟨hs', -⟩ := lineStep_next_cases (Or.inl hs) h
  · rfl
  · exact absurd (hs.symm.trans hs') (by simp)

/-- **One line, twice**: it does the same to both parsers, and if it is consumed they are
equal from then on. -/
lemma Waiting.lineStep {p p' : HttpParser} (h : Waiting p p') (t : ℤ) (line : List Byte) :
    lineStep t p line = lineStep t p' line ∨
      ∃ q q', lineStep t p line = .ok (.reject q) ∧ lineStep t p' line = .ok (.reject q') ∧
        Waiting q q' := by
  have hs' : p'.state = .kExpectRequestLine := state_of_untimed h.untimed ▸ h.state
  have hsame := lineStep_same h.untimed t t line
  generalize hl : HttpParser.lineStep t p line = res at hsame
  generalize hl' : HttpParser.lineStep t p' line = res' at hsame
  cases hsame with
  | error f => exact Or.inl rfl
  | ok hr =>
      cases hr with
      | @next q q' hq =>
          have ht := receiveTime_of_lineStep_next h.state hl
          have ht' := receiveTime_of_lineStep_next hs' hl'
          rw [eq_of_untimed hq (ht.trans ht'.symm)]
          exact Or.inl rfl
      | last hq =>
          have hs := (lineStep_last_cases (Or.inl h.state) hl).1
          exact absurd (h.state.symm.trans hs) (by simp)
      | @reject q q' hq =>
          obtain ⟨-, hst, -⟩ := state_of_lineStep_reject (Or.inl h.state) hl
          exact Or.inr ⟨q, q', rfl, rfl, hst, hq⟩

/-- **One call, twice.** -/
lemma Parses.twin {t : ℤ} {p p' : HttpParser} {q : List Byte}
    {res : Except HttpFault (Bool × HttpParser × List Byte)} (h : Parses t p q res)
    (hp : Waiting p p') :
    Parses t p' q res ∨ ∃ ok p₁ p₁' r, res = .ok (ok, p₁, r) ∧ Parses t p' q (.ok (ok, p₁', r)) ∧
      Waiting p₁ p₁' := by
  cases h with
  | wait hm => exact Or.inr ⟨true, p, p', q, rfl, .wait hm, hp⟩
  | next hm hl hrest =>
      obtain heq | ⟨_, _, hrej, -⟩ := hp.lineStep t (q.take _)
      · exact Or.inl (.next hm (heq ▸ hl) hrest)
      · exact absurd (hl.symm.trans hrej) (by simp)
  | last hm hl =>
      obtain heq | ⟨_, _, hrej, -⟩ := hp.lineStep t (q.take _)
      · exact Or.inl (.last hm (heq ▸ hl))
      · exact absurd (hl.symm.trans hrej) (by simp)
  | reject hm hl =>
      obtain heq | ⟨p₁, p₁', hrej, hrej', hw⟩ := hp.lineStep t (q.take _)
      · exact Or.inl (.reject hm (heq ▸ hl))
      · obtain rfl := LineResult.reject.inj (Except.ok.inj (hl.symm.trans hrej))
        exact Or.inr ⟨false, _, p₁', q, rfl, .reject hm hrej', hw⟩
  | fault hm hl =>
      obtain heq | ⟨_, _, hrej, -⟩ := hp.lineStep t (q.take _)
      · exact Or.inl (.fault hm (heq ▸ hl))
      · exact absurd (hl.symm.trans hrej) (by simp)

/-- **The same chunks, twice**: if one run returns so does the other, and they are still
twins. -/
lemma Twin.feed {s s' s₁ : Feed} (h : Twin s s') {chunks : List (List Byte × ℤ)}
    (hfeed : feed s chunks = .ret s₁) :
    ∃ s₁', HttpParser.feed s' chunks = .ret s₁' ∧ Twin s₁ s₁' := by
  induction chunks generalizing s s' with
  | nil =>
      obtain rfl : s = s₁ := by simpa [HttpParser.feed] using hfeed
      exact ⟨s', rfl, h⟩
  | cons c chunks ih =>
      obtain ⟨chunk, t⟩ := c
      obtain rfl | ⟨hok, hbuf, hw⟩ := h
      · exact ⟨s₁, hfeed, Or.inl rfl⟩
      · have hact : s.active = s'.active := by
          rw [Feed.active, Feed.active, hok, gotAll_of_untimed hw.untimed]
        cases ha : s.active with
        | false =>
            simp only [HttpParser.feed, ha, ← hact, Bool.false_eq_true, if_false] at hfeed ⊢
            rw [← hbuf]
            have htwin : Twin { s with buf := s.buf ++ chunk } { s' with buf := s.buf ++ chunk } :=
              Or.inr ⟨hok, rfl, hw⟩
            exact ih htwin hfeed
        | true =>
            obtain ⟨res, hcall⟩ := exists_parses t s.parser (s.buf ++ chunk)
            have hret := parseRuquest_eq hcall hw.reading.1
            simp only [HttpParser.feed, ha, ← hact, if_true, hret] at hfeed ⊢
            rw [← hbuf]
            obtain hcall' | ⟨ok, p₁, p₁', r, rfl, hcall', hw₁⟩ := hcall.twin hw
            · rw [parseRuquest_eq hcall' hw.reading.2]
              exact ⟨s₁, hfeed, Or.inl rfl⟩
            · rw [parseRuquest_eq hcall' hw.reading.2]
              have htwin : Twin ⟨ok, p₁, r⟩ ⟨ok, p₁', r⟩ := Or.inr ⟨rfl, rfl, hw₁⟩
              exact ih htwin hfeed

/-- **No leak between the requests of one connection.**  After any two histories, from the
same unread bytes and with the same chunks at the same times: if one parser reads the next
request to its end, the other does, with the same request in every member, its receive time
included, and the same bytes left unread; and so does a new parser. -/
theorem feed_after_history {p p' : HttpParser} (h : History p) (h' : History p')
    (buf : List Byte) (chunks : List (List Byte × ℤ)) {s : Feed}
    (hfeed : feed ⟨true, p, buf⟩ chunks = .ret s) (hgot : s.parser.gotAll = true) :
    feed ⟨true, p', buf⟩ chunks = .ret s ∧ feed ⟨true, new, buf⟩ chunks = .ret s := by
  have hother : ∀ {p' : HttpParser}, History p' → feed ⟨true, p', buf⟩ chunks = .ret s := by
    intro p' h'
    obtain ⟨g, rfl⟩ := h.eq_blank
    obtain ⟨g', rfl⟩ := h'.eq_blank
    have hstart : Twin ⟨true, ⟨.kExpectRequestLine, blank g⟩, buf⟩
        ⟨true, ⟨.kExpectRequestLine, blank g'⟩, buf⟩ := Or.inr ⟨rfl, rfl, rfl, rfl⟩
    obtain ⟨s', hs', rfl | ⟨-, -, hw⟩⟩ := hstart.feed hfeed
    · exact hs'
    · -- a parser that waits has not got its request
      rw [gotAll, hw.state] at hgot
      exact absurd hgot (by simp)
  exact ⟨hother h', hother (.new none)⟩

/-- A request without query and headers behind one that had both, and as the first one. -/
theorem feed_after_history_post :
    ∃ s p', feed ⟨true, new, []⟩ [(ascii "GET / HTTP/1.0\r", 7), (ascii "\n\r\n", 8)] = .ret s ∧
      s.parser.gotAll = true ∧
      feed ⟨true, new, []⟩ [(ascii "POST /a?x=1 HTTP/1.1\r\nHost:b\r\n\r\n", 5)] = .ret p' ∧
      feed ⟨true, p'.parser.resetTo (some 3), []⟩
        [(ascii "GET / HTTP/1.0\r", 7), (ascii "\n\r\n", 8)] = .ret s := by
  have hs : ∃ s,
      feed ⟨true, new, []⟩ [(ascii "GET / HTTP/1.0\r", 7), (ascii "\n\r\n", 8)] = .ret s ∧
      s.parser.gotAll = true := ⟨_, rfl, rfl⟩
  have hp' : ∃ s, feed ⟨true, new, []⟩
      [(ascii "POST /a?x=1 HTTP/1.1\r\nHost:b\r\n\r\n", 5)] = .ret s ∧
      s.parser.gotAll = true := ⟨_, rfl, rfl⟩
  obtain ⟨s, hfeed, hgot⟩ := hs
  obtain ⟨p', hfeed', hgot'⟩ := hp'
  exact ⟨s, p', hfeed, hgot, hfeed', (feed_after_history (.new none)
    (.next (.new none) hfeed' hgot' (some 3)) [] _ hfeed hgot).1⟩

end HttpParser

end Tractor
