import Tractor.Http.Reuse

/-!
Whether the loop of `parseRuquest` ends.

A round that goes on consumes a line, so the loop ends while the parser reads lines.  The
state `kGotAll` has no branch: there the loop turns for ever, and only `reset` leaves the
state.

* `LoopEnds`: some number of rounds is enough, whether the loop returns or an assertion
  stops it.
* `Reached`: the parsers a program can have, calling `parseRuquest` on any buffers and
  `reset` whenever it likes.
* `loopEnds_iff`: for these, the loop ends exactly if the parser has not got its request.
-/

namespace Tractor

open Library

namespace HttpParser

/-- The loop of `parseRuquest(buf, receiveTime)` ends. -/
def LoopEnds (p : HttpParser) (buf : ValidBuffer) (receiveTime : ℤ) : Prop :=
  ∃ n r, whileFuel Loop.hasMore (parseBody receiveTime) n ⟨true, true, p, buf⟩ = some r

/-- The parsers that constructing, resetting and calls that returned lead to, in any order.
What `receiveTime_` holds behind the constructor and behind `reset` is arbitrary. -/
inductive Reached : HttpParser → Prop
  | new (g : Option ℤ) : Reached ⟨.kExpectRequestLine, blank g⟩
  | reset {p : HttpParser} (h : Reached p) (g : Option ℤ) : Reached (p.resetTo g)
  | parse {p : HttpParser} (h : Reached p) {buf : ValidBuffer} {receiveTime : ℤ} {n : ℕ}
      {l : Loop ValidBuffer} (hloop : whileFuel Loop.hasMore (parseBody receiveTime) n
        ⟨true, true, p, buf⟩ = some (.ok l)) : Reached l.parser

section Rounds

variable {β : Type} [ByteBuffer β] {receiveTime : ℤ} {l l' : Loop β} {crlf : ℕ}

/-- A request line leaves the state or leads to the header lines. -/
lemma state_of_requestLineBody (h : requestLineBody receiveTime l crlf = .ok l') :
    l'.parser.state = l.parser.state ∨ l'.parser.state = .kExpectHeaders := by
  rw [requestLineBody] at h
  cases hpr : processRequestLine l.parser.httpRequest ((ByteBuffer.readable l.buf).take crlf) with
  | error f =>
      rw [hpr] at h
      cases h
  | ok x =>
      obtain ⟨ok, r⟩ := x
      rw [hpr] at h
      cases ok with
      | false =>
          obtain rfl := Except.ok.inj h
          exact Or.inl rfl
      | true =>
          cases hret : ByteBuffer.retrieveUntil l.buf (crlf + 2) with
          | error f => simp [bind, Except.bind, hret, Except.mapError] at h
          | ok b =>
              simp only [bind, Except.bind, hret, Except.mapError, if_true] at h
              obtain rfl := Except.ok.inj h
              exact Or.inr rfl

/-- A header line leaves the state or ends the request. -/
lemma state_of_headerBody (h : headerBody l crlf = .ok l') :
    l'.parser.state = l.parser.state ∨ l'.parser.state = .kGotAll := by
  rw [headerBody] at h
  cases hret : ByteBuffer.retrieveUntil l.buf (crlf + 2) with
  | error f =>
      split_ifs at h <;> simp [bind, Except.bind, hret, Except.mapError] at h
  | ok b =>
      split_ifs at h <;> simp only [bind, Except.bind, hret, Except.mapError] at h <;>
        obtain rfl := Except.ok.inj h
      · exact Or.inl rfl
      · exact Or.inr rfl

/-- No round enters `kExpectBody`. -/
lemma state_of_parseBody (hs : l.parser.state ≠ .kExpectBody)
    (h : parseBody receiveTime l = .ok l') : l'.parser.state ≠ .kExpectBody := by
  rw [parseBody] at h
  cases hl : l.parser.state with
  | kExpectRequestLine =>
      cases hcr : ByteBuffer.findCRLF l.buf with
      | none =>
          simp only [hl, hcr] at h
          obtain rfl := Except.ok.inj h
          exact hs
      | some crlf =>
          simp only [hl, hcr] at h
          rcases state_of_requestLineBody h with hst | hst
          · exact hst ▸ hs
          · simp [hst]
  | kExpectHeaders =>
      cases hcr : ByteBuffer.findCRLF l.buf with
      | none =>
          simp only [hl, hcr] at h
          obtain rfl := Except.ok.inj h
          exact hs
      | some crlf =>
          simp only [hl, hcr] at h
          rcases state_of_headerBody h with hst | hst
          · exact hst ▸ hs
          · simp [hst]
  | kExpectBody => exact absurd hl hs
  | kGotAll =>
      simp only [hl] at h
      obtain rfl := Except.ok.inj h
      exact hs

end Rounds

variable {p : HttpParser}

lemma Reached.state_ne (h : Reached p) : p.state ≠ .kExpectBody := by
  induction h with
  | new g => simp
  | reset _ g _ => simp [resetTo]
  | parse _ hloop ih =>
      refine whileFuel_invariant (I := fun l => l.parser.state ≠ .kExpectBody) ?_ hloop ih
      intro l l' hl hround
      exact state_of_parseBody hl hround

/-- A call that returned. -/
lemma Reached.of_ret (h : Reached p) {p' : HttpParser} {b b' : ValidBuffer} {receiveTime : ℤ}
    {ok : Bool} (hcall : parseRuquest p b receiveTime = .ret (ok, p', b')) : Reached p' := by
  rw [parseRuquest] at hcall
  cases hloop : whileFuel Loop.hasMore (parseBody receiveTime)
      ((ByteBuffer.readable b).length + 1) ⟨true, true, p, b⟩ with
  | none =>
      rw [hloop] at hcall
      cases hcall
  | some r =>
      rw [hloop] at hcall
      cases r with
      | error f => cases hcall
      | ok l =>
          obtain ⟨-, rfl, -⟩ : _ ∧ l.parser = p' ∧ _ := by simpa using hcall
          exact h.parse hloop

/-- Over a buffer in its invariant the loop ends while lines are read: `Parses` has a
result, and so many rounds as there are bytes left, and one more, are enough for it. -/
lemma loopEnds_of_reading (hp : p.Reading) (buf : ValidBuffer) (receiveTime : ℤ) :
    p.LoopEnds buf receiveTime := by
  obtain ⟨r, hr⟩ := exists_parses receiveTime p buf.view
  have hcall := parseRuquest_eq hr hp
  rw [parseRuquest_view, parseRuquest] at hcall
  cases hloop : whileFuel Loop.hasMore (parseBody receiveTime)
      ((ByteBuffer.readable buf).length + 1) ⟨true, true, p, buf⟩ with
  | some r' => exact ⟨_, r', hloop⟩
  | none =>
      rw [hloop] at hcall
      cases r <;> cases hcall

/-- Behind the end of a request it does not. -/
lemma not_loopEnds_of_gotAll (hp : p.state = .kGotAll) (buf : ValidBuffer) (receiveTime : ℤ) :
    ¬ p.LoopEnds buf receiveTime := by
  rintro ⟨n, r, hloop⟩
  have hfixed : parseBody receiveTime ⟨true, true, p, buf⟩ = .ok ⟨true, true, p, buf⟩ := by
    simp only [parseBody, hp]
    rfl
  rw [whileFuel_fixed rfl hfixed] at hloop
  cases hloop

/-- **When the parse loop ends.**  Whatever calls led to the parser, and whatever the buffer
holds, the loop ends exactly if the parser has not got a request that it was not reset
from. -/
theorem loopEnds_iff (h : Reached p) (buf : ValidBuffer) (receiveTime : ℤ) :
    p.LoopEnds buf receiveTime ↔ p.gotAll = false := by
  have hs := h.state_ne
  rw [gotAll, decide_eq_false_iff_not]
  refine ⟨fun hends hst => not_loopEnds_of_gotAll hst buf receiveTime hends, fun hst => ?_⟩
  refine loopEnds_of_reading ?_ buf receiveTime
  rw [Reading]
  cases hp : p.state with
  | kExpectRequestLine => exact Or.inl rfl
  | kExpectHeaders => exact Or.inr rfl
  | kExpectBody => exact absurd hp hs
  | kGotAll => exact absurd hp hst

/-- A parser behind a request line, and a buffer with a header line and a half. -/
theorem loopEnds_iff_header :
    ∃ (p : HttpParser) (b b₁ b₂ : ValidBuffer), b.view = ascii "GET / HTTP/1.0\r\n" ∧
      parseRuquest new b 5 = .ret (true, p, b₁) ∧ p.state = .kExpectHeaders ∧
      b₂.view = ascii "Host: tractor\r\nAcce" ∧ p.LoopEnds b₂ 6 := by
  obtain ⟨b, hb⟩ := ValidBuffer.exists_view_of_short (ascii "GET / HTTP/1.0\r\n") (by decide)
  obtain ⟨b₂, hb₂⟩ :=
    ValidBuffer.exists_view_of_short (ascii "Host: tractor\r\nAcce") (by decide)
  obtain ⟨p, hlist, hstate⟩ : ∃ p, parseRuquest new (ascii "GET / HTTP/1.0\r\n") 5
      = .ret (true, p, []) ∧ p.state = .kExpectHeaders := ⟨_, rfl, rfl⟩
  rw [← hb] at hlist
  obtain ⟨b₁, hcall, -⟩ := parseRuquest_of_view hlist
  refine ⟨p, b, b₁, b₂, hb, hcall, hstate, hb₂,
    (loopEnds_iff (Reached.of_ret (.new none) hcall) b₂ 6).mpr ?_⟩
  rw [gotAll, hstate]
  rfl

/-- One call reads a whole request; another one without `reset`, on what is left of the
buffer, does not end. -/
theorem call_behind_request_hangs :
    ∃ (p : HttpParser) (b b' : ValidBuffer), b.view = ascii "GET / HTTP/1.0\r\n\r\n" ∧
      parseRuquest new b 5 = .ret (true, p, b') ∧ b'.view = [] ∧ p.gotAll = true ∧
      Reached p ∧ ¬ p.LoopEnds b' 6 := by
  obtain ⟨b, hb⟩ := ValidBuffer.exists_view_of_short (ascii "GET / HTTP/1.0\r\n\r\n") (by decide)
  obtain ⟨p, hlist, hgot⟩ : ∃ p, parseRuquest new (ascii "GET / HTTP/1.0\r\n\r\n") 5
      = .ret (true, p, []) ∧ p.gotAll = true := ⟨_, rfl, rfl⟩
  rw [← hb] at hlist
  obtain ⟨b', hcall, hb'⟩ := parseRuquest_of_view hlist
  have hstate : p.state = .kGotAll := of_decide_eq_true hgot
  exact ⟨p, b, b', hb, hcall, hb', hgot, Reached.of_ret (.new none) hcall,
    not_loopEnds_of_gotAll hstate b' 6⟩

end HttpParser

end Tractor
