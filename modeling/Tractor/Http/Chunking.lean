import Tractor.Http.Server

/-!
Requests and chunks: when the requests a session passes to its callback do not depend
on how the stream is cut into chunks.

* `requestOf`: the first complete request of a byte list and what follows it;
  `requests`: all of them.
* `requestOf_append`, `requestOf_front`: a complete request does not depend on what
  follows it.
* `Expects`: what a session knows of the request it expects; `Answers`: what one call can
  do to it.
* `chunking_independent_iff`: since one call handles at most one request, streams with
  two complete requests are served differently in one chunk and in two; all other
  streams are served alike however they are cut.
-/

namespace Tractor

open Library

namespace HttpParser

variable {t : ℤ} {p p' : HttpParser} {q r u rest y : List Byte} {req : HttpRequest}

/-! ### The complete requests of a stream -/

/-- The first complete request of the bytes, its receive time aside, and what follows. -/
def requestOf (q : List Byte) : Option (HttpRequest × List Byte) :=
  match new.parseRuquest q 0 with
  | .ret (_, p, rest) => if p.gotAll then some (p.httpRequest.untimed, rest) else none
  | _ => none

/-- At most `n` complete requests of the bytes. -/
def requestsUpTo : ℕ → List Byte → List HttpRequest
  | 0, _ => []
  | n + 1, q =>
      match requestOf q with
      | some (req, rest) => req :: requestsUpTo n rest
      | none => []

/-- The complete requests of the bytes, one after the other.  Each takes at least one
byte. -/
def requests (q : List Byte) : List HttpRequest := requestsUpTo q.length q

lemma requestOf_of_parses {ok : Bool} (h : Parses 0 new q (.ok (ok, p, rest))) :
    requestOf q = if p.gotAll then some (p.httpRequest.untimed, rest) else none := by
  rw [requestOf, parseRuquest_eq h new_reading]
  rfl

lemma parses_of_requestOf (h : requestOf q = some (req, rest)) :
    ∃ p, Parses 0 new q (.ok (true, p, rest)) ∧ p.gotAll = true ∧ p.httpRequest.untimed = req := by
  obtain ⟨res, hparse⟩ := exists_parses 0 new q
  obtain ⟨⟨ok, p, rest'⟩, rfl⟩ := hparse.ok_of_fresh new_reading new_fresh
  rw [requestOf_of_parses hparse] at h
  split_ifs at h with hgot
  obtain ⟨rfl, rfl⟩ : p.httpRequest.untimed = req ∧ rest' = rest := by simpa using h
  rcases hparse.state_cases new_reading new_fresh with ⟨rfl, -, -⟩ | ⟨rfl, -⟩ | ⟨-, hs⟩
  · exact ⟨p, hparse, hgot, rfl⟩
  · exact ⟨p, hparse, hgot, rfl⟩
  · simp [gotAll, hs] at hgot

/-- A complete request stays the first one. -/
lemma requestOf_append (h : requestOf q = some (req, rest)) (y : List Byte) :
    requestOf (q ++ y) = some (req, rest ++ y) := by
  obtain ⟨p, hparse, hgot, rfl⟩ := parses_of_requestOf h
  rw [requestOf_of_parses (hparse.append_stop new_reading (Or.inr hgot) y), if_pos hgot]

/-- Reading a request does not look at what follows it. -/
lemma Parses.front (h : Parses t p q (.ok (true, p', rest))) (hp : p.Reading)
    (hgot : p'.gotAll = true) (hq : q = u ++ rest) : Parses t p u (.ok (true, p', [])) := by
  generalize hres : (Except.ok (true, p', rest) : Except HttpFault _) = res at h
  induction h generalizing u with
  | @wait p q hm =>
      obtain ⟨rfl, -⟩ : p' = p ∧ rest = q := by simpa using hres
      rcases hp with hs | hs <;> simp [gotAll, hs] at hgot
  | @next p p₁ q i res hm hl h' ih =>
      subst hres
      have hsuffix := h'.suffix.length_le
      have hi := crlf_le hm
      subst hq
      rw [List.length_drop, List.length_append] at hsuffix
      rw [List.length_append] at hi
      have hle : i + 2 ≤ u.length := by omega
      refine .next (memmem_of_append hm hle) ?_ (ih (Or.inr (state_of_lineStep_next hp hl)) ?_ rfl)
      · rwa [List.take_append_of_le_length (by omega)] at hl
      · rw [List.drop_append_of_le_length hle]
  | @last p p₁ q i hm hl =>
      obtain ⟨rfl, rfl⟩ : p' = p₁ ∧ rest = q.drop (i + 2) := by simpa using hres
      have hi := crlf_le hm
      have hu : u = q.take (i + 2) := by
        have := List.take_append_drop (i + 2) q
        exact List.append_cancel_right (hq.symm.trans this.symm)
      have hlen : u.length = i + 2 := by rw [hu, List.length_take]; omega
      have hm' : memmem Buffer.kCRLF u = some i := by
        rw [hq] at hm
        exact memmem_of_append hm (by rw [hlen]; exact le_refl _)
      have hnil : u.drop (i + 2) = [] := List.drop_of_length_le (by omega)
      rw [← hnil]
      refine .last hm' ?_
      rwa [hu, List.take_take, Nat.min_eq_left (by omega)]
  | reject _ _ => exact absurd hres (by simp)
  | fault _ _ => exact absurd hres (by simp)

lemma requestOf_nil : requestOf [] = none := by decide +kernel

/-- The bytes of a complete request, alone, are that request; they are not empty. -/
lemma requestOf_front (h : requestOf q = some (req, rest)) :
    ∃ u, q = u ++ rest ∧ u ≠ [] ∧ requestOf u = some (req, []) := by
  obtain ⟨p, hparse, hgot, rfl⟩ := parses_of_requestOf h
  obtain ⟨u, hu⟩ := hparse.suffix
  have hfront := hparse.front new_reading hgot hu.symm
  have heq : requestOf u = some (p.httpRequest.untimed, []) := by
    rw [requestOf_of_parses hfront, if_pos hgot]
  refine ⟨u, hu.symm, ?_, heq⟩
  rintro rfl
  simp [requestOf_nil] at heq

lemma requestsUpTo_of_none (h : requestOf q = none) (n : ℕ) : requestsUpTo n q = [] := by
  cases n <;> simp [requestsUpTo, h]

/-- The first complete request comes first, and there is room left to count the rest. -/
lemma requests_eq_cons (h : requestOf q = some (req, rest)) :
    ∃ n, rest.length ≤ n ∧ requests q = req :: requestsUpTo n rest := by
  obtain ⟨u, rfl, hu, -⟩ := requestOf_front h
  have hlen := List.length_pos_of_ne_nil hu
  obtain ⟨n, hn⟩ : ∃ n, (u ++ rest).length = n + 1 := ⟨(u ++ rest).length - 1, by simp; omega⟩
  refine ⟨n, ?_, by rw [requests, hn, requestsUpTo, h]⟩
  rw [List.length_append] at hn
  omega

/-- At most one complete request: none follows the first one. -/
lemma length_requests_le_one_iff :
    (requests q).length ≤ 1 ↔
      ∀ req rest, requestOf q = some (req, rest) → requestOf rest = none := by
  cases h : requestOf q with
  | none => simp [requests, requestsUpTo_of_none h]
  | some x =>
      obtain ⟨req, rest⟩ := x
      obtain ⟨n, hn, hreq⟩ := requests_eq_cons h
      rw [hreq]
      cases h' : requestOf rest with
      | none => simp [requestsUpTo_of_none h', h']
      | some x' =>
          -- a second request takes a byte, so it is counted
          obtain ⟨req', rest'⟩ := x'
          obtain ⟨u', rfl, hu', -⟩ := requestOf_front h'
          have hlen := List.length_pos_of_ne_nil hu'
          rw [List.length_append] at hn
          obtain ⟨m, rfl⟩ : ∃ m, n = m + 1 := ⟨n - 1, by omega⟩
          simp [requestsUpTo, h']

/-- What is left tells whether the request is complete. -/
lemma Feed.Tracks.requestOf_eq {f : Feed} {x : List Byte} (h : f.Tracks x) :
    requestOf x = if f.parser.gotAll then some (f.parser.httpRequest.untimed, f.buf) else none := by
  obtain ⟨p, hparse, hp⟩ := h 0
  have hreq : p.httpRequest.untimed = f.parser.httpRequest.untimed :=
    congrArg HttpParser.httpRequest hp
  rw [requestOf_of_parses hparse, gotAll_of_untimed hp, hreq]

/-- A rejected request line is never completed. -/
lemma Feed.Tracks.requestOf_of_reject {f : Feed} {x : List Byte} (h : f.Tracks x)
    (hok : f.ok = false) (y : List Byte) : requestOf (x ++ y) = none := by
  obtain ⟨p, hparse, hp⟩ := h 0
  have hgot : p.gotAll = false := by
    rcases hparse.state_cases new_reading new_fresh with ⟨hok', -⟩ | ⟨hok', -⟩ | ⟨-, hs⟩
    · exact absurd (hok'.symm.trans hok) (by simp)
    · exact absurd (hok'.symm.trans hok) (by simp)
    · simp [gotAll, hs]
  rw [requestOf_of_parses (hparse.append_stop new_reading (Or.inl hok) y), if_neg (by simp [hgot])]

end HttpParser

/-! ### Sessions -/

namespace HttpSession

open HttpParser

variable (httpCallback : HttpCallback) {s : HttpSession} {x rest : List Byte}
  {req : HttpRequest}

/-- The session expects a request of which `x` has been received: its parser has read a
front part of `x`, and the remainder waits in the input. -/
structure Expects (s : HttpSession) (x : List Byte) : Prop where
  running : s.status = .running
  gotAll : s.context.gotAll = false
  input : ∃ x₀ b z, Feed.Tracks ⟨true, s.context, b⟩ x₀ ∧ s.inputBuffer = b ++ z ∧ x = x₀ ++ z

lemma new_expects : new.Expects [] :=
  ⟨rfl, rfl, [], [], [], Feed.new_tracks, rfl, rfl⟩

/-- A session whose parser was reset expects the request that starts with the unread
input. -/
lemma expects_of_reset (hrun : s.status = .running) (hctx : s.context = HttpParser.new) :
    s.Expects s.inputBuffer :=
  ⟨hrun, by rw [hctx]; rfl, [], [], s.inputBuffer, hctx ▸ Feed.new_tracks, rfl, rfl⟩

/-- What a call can do to a session that expects a request of which `x` has been received
and that becomes `s'`: it passes the request to the callback if the request is complete now,
and otherwise waits for the rest of it, with the connection as it was, or has rejected its
request line and shut the connection down. -/
inductive Answers (s : HttpSession) (x : List Byte) (s' : HttpSession) : Prop
  | request (req : HttpRequest) (h : requestOf x = some (req.untimed, s'.inputBuffer))
      (callbacks : s'.callbacks = s.callbacks ++ [req]) (expects : s'.Expects s'.inputBuffer)
  | waits (h : requestOf x = none) (callbacks : s'.callbacks = s.callbacks)
      (expects : s'.Expects x) (state : s'.state = s.state)
  | rejects (h : ∀ y, requestOf (x ++ y) = none) (callbacks : s'.callbacks = s.callbacks)
      (rejected : s'.Rejected) (input : s'.inputBuffer = x) (state : s'.state ≠ .kConnected)

/-- **One call on a session that expects a request.** -/
theorem Expects.onMessage (h : s.Expects x) (chunk : List Byte) (t : ℤ) :
    s.Answers (x ++ chunk) (s.onMessage httpCallback chunk t) := by
  obtain ⟨hrun, hgot, x₀, b, z, htr, hbuf, rfl⟩ := h
  have hact : Feed.active ⟨true, s.context, b⟩ = true := by simp [Feed.active, hgot]
  obtain ⟨hread, hfresh⟩ := htr.reading hact
  obtain ⟨f, htr', hparse', -⟩ := htr.parse hact (z ++ chunk) t
  obtain ⟨ok, p, buf, hparse, hcall⟩ := onMessage_cases httpCallback hrun hread hfresh chunk t
  simp only [← List.append_assoc] at htr' hparse'
  rw [hbuf] at hparse
  obtain ⟨rfl, rfl, rfl⟩ : ok = f.ok ∧ p = f.parser ∧ buf = f.buf := by
    simpa using hparse.unique hparse' hread
  rcases hcall with ⟨-, hg, hcall⟩ | ⟨hok, hg, -, -, hcall⟩ | ⟨hno, hg, hcall⟩
  · obtain ⟨hstatus, hinput, hcb⟩ := onRequest_spec httpCallback
      { s with context := f.parser, inputBuffer := f.buf } f.parser.httpRequest
    have hrest : (s.onMessage httpCallback chunk t).inputBuffer = f.buf := by
      rw [hcall]
      exact hinput
    refine .request f.parser.httpRequest ?_ ?_ (expects_of_reset ?_ ?_)
    · rw [htr'.requestOf_eq, if_pos hg, hrest]
    · rw [hcall]
      exact hcb
    · rw [hcall]
      exact hstatus.trans hrun
    · rw [hcall]
  · refine .waits (by rw [htr'.requestOf_eq, if_neg (by simp [hg])]) (by rw [hcall]) ?_
      (by rw [hcall])
    rw [hcall]
    refine ⟨hrun, hg, _, f.buf, [], ?_, (List.append_nil _).symm, (List.append_nil _).symm⟩
    simp only [Feed.Tracks, hok] at htr' ⊢
    exact htr'
  · refine .rejects (htr'.requestOf_of_reject hno) (by rw [hcall]; simp) ?_ ?_ ?_
    · rw [hno] at hparse
      rw [hcall]
      exact rejected_of_parses hparse hread hfresh (by simp) (by simp)
    · -- nothing of the input has been consumed
      obtain ⟨p, hparse₀, -⟩ := htr' t
      rw [hno] at hparse₀
      rw [hcall, shutdown_inputBuffer, send_inputBuffer]
      exact (hparse₀.reject_inv new_reading).1
    · rw [hcall]
      exact shutdown_state_ne _

/-- Without a complete request nothing is passed to the callback. -/
lemma Expects.deliver_none (h : s.Expects x) (chunks : List (List Byte × ℤ))
    (hnone : requestOf (x ++ (chunks.map Prod.fst).flatten) = none) :
    (s.deliver httpCallback chunks).callbacks = s.callbacks := by
  induction chunks generalizing s x with
  | nil => rfl
  | cons c chunks ih =>
      rw [List.map_cons, List.flatten_cons, ← List.append_assoc] at hnone
      rw [deliver_cons]
      cases h.onMessage httpCallback c.1 c.2 with
      | request req hreq _ _ =>
          rw [requestOf_append hreq] at hnone
          exact absurd hnone (by simp)
      | waits _ hcb hexp _ => rw [ih hexp hnone, hcb]
      | rejects _ hcb hrej _ _ => rw [hrej.deliver, hcb]

/-- **A single complete request** is passed to the callback once, however it is cut. -/
lemma Expects.deliver_one (h : s.Expects x) (hx : requestOf x = none)
    (chunks : List (List Byte × ℤ))
    (hreq : requestOf (x ++ (chunks.map Prod.fst).flatten) = some (req, rest))
    (hrest : requestOf rest = none) :
    ∃ req', req'.untimed = req ∧
      (s.deliver httpCallback chunks).callbacks = s.callbacks ++ [req'] := by
  induction chunks generalizing s x with
  | nil =>
      rw [List.map_nil, List.flatten_nil, List.append_nil, hx] at hreq
      exact absurd hreq (by simp)
  | cons c chunks ih =>
      rw [List.map_cons, List.flatten_cons, ← List.append_assoc] at hreq
      rw [deliver_cons]
      cases h.onMessage httpCallback c.1 c.2 with
      | request req' hreq' hcb hexp =>
          -- the request ends in this chunk, and what follows holds no other one
          rw [requestOf_append hreq', Option.some.injEq, Prod.mk.injEq] at hreq
          obtain ⟨rfl, rfl⟩ := hreq
          exact ⟨req', rfl, by rw [hexp.deliver_none httpCallback chunks hrest, hcb]⟩
      | waits hnone hcb hexp _ =>
          obtain ⟨req', hreq', hcb'⟩ := ih hexp hnone hreq
          exact ⟨req', hreq', by rw [hcb', hcb]⟩
      | rejects hnever _ _ _ _ =>
          rw [hnever] at hreq
          exact absurd hreq (by simp)

/-- A complete request in one chunk: the call passes it on and keeps what follows for
later. -/
lemma Expects.deliver_chunk (h : s.Expects []) {q : List Byte} (t : ℤ)
    (hreq : requestOf q = some (req, rest)) :
    ∃ req', req'.untimed = req ∧
      (s.onMessage httpCallback q t).callbacks = s.callbacks ++ [req'] ∧
      (s.onMessage httpCallback q t).Expects rest := by
  cases h.onMessage httpCallback q t with
  | request req' hreq' hcb hexp =>
      rw [List.nil_append, hreq, Option.some.injEq, Prod.mk.injEq] at hreq'
      obtain ⟨rfl, rfl⟩ := hreq'
      exact ⟨req', rfl, hcb, hexp⟩
  | waits hnone _ _ _ =>
      rw [List.nil_append, hreq] at hnone
      exact absurd hnone (by simp)
  | rejects hnone _ _ _ _ =>
      have hnone' := hnone []
      rw [List.nil_append, List.append_nil, hreq] at hnone'
      exact absurd hnone' (by simp)

/-! ### Streams and their cuttings -/

/-- The chunks, none of them empty and each with the time it is received, make up the
stream. -/
def Cuts (chunks : List (List Byte × ℤ)) (stream : List Byte) : Prop :=
  (∀ c ∈ chunks, c.1 ≠ []) ∧ (chunks.map Prod.fst).flatten = stream

/-- The requests passed to the callback while the chunks are delivered on a new
connection, their receive times aside. -/
def callbacksOf (chunks : List (List Byte × ℤ)) : List HttpRequest :=
  (new.deliver httpCallback chunks).callbacks.map HttpRequest.untimed

/-- With at most one complete request, every cutting leads to the same callbacks. -/
lemma callbacksOf_eq_requests {stream : List Byte} (hone : (requests stream).length ≤ 1)
    {chunks : List (List Byte × ℤ)} (hcut : Cuts chunks stream) :
    callbacksOf httpCallback chunks = requests stream := by
  rw [length_requests_le_one_iff] at hone
  obtain ⟨-, rfl⟩ := hcut
  cases h : requestOf (chunks.map Prod.fst).flatten with
  | none =>
      rw [callbacksOf, new_expects.deliver_none httpCallback chunks (by simpa using h), requests,
        requestsUpTo_of_none h]
      rfl
  | some x =>
      obtain ⟨req, rest⟩ := x
      have hrest := hone req rest h
      obtain ⟨req', rfl, hcb⟩ :=
        new_expects.deliver_one httpCallback requestOf_nil chunks (by simpa using h) hrest
      obtain ⟨n, -, hreq⟩ := requests_eq_cons h
      rw [callbacksOf, hcb, hreq, requestsUpTo_of_none hrest]
      rfl

/-- **Chunking independence**: all cuttings of a stream lead to the same callbacks, those
of its complete requests, exactly if the stream holds at most one complete request. -/
theorem chunking_independent_iff (stream : List Byte) :
    ((∀ chunks chunks', Cuts chunks stream → Cuts chunks' stream →
        callbacksOf httpCallback chunks = callbacksOf httpCallback chunks') ∧
      ∀ chunks, Cuts chunks stream → callbacksOf httpCallback chunks = requests stream) ↔
      (requests stream).length ≤ 1 := by
  constructor
  · rintro ⟨hsame, -⟩
    rw [length_requests_le_one_iff]
    intro req rest hreq
    by_contra hne
    obtain ⟨⟨req', rest'⟩, hreq'⟩ := Option.ne_none_iff_exists'.mp hne
    obtain ⟨u, rfl, hu, hfront⟩ := requestOf_front hreq
    have hrest : rest ≠ [] := by
      rintro rfl
      exact hne requestOf_nil
    -- in one chunk the second request is not looked at
    obtain ⟨r₁, -, hone, -⟩ := new_expects.deliver_chunk httpCallback 0 hreq
    -- in two chunks, the cut behind the first request, it is
    obtain ⟨r₂, -, hfst, hexp⟩ := new_expects.deliver_chunk httpCallback 0 hfront
    obtain ⟨r₃, -, hsnd, -⟩ := hexp.deliver_chunk httpCallback 0 hreq'
    have heq := hsame [(u ++ rest, 0)] [(u, 0), (rest, 0)]
      ⟨by simp [hu], by simp⟩ ⟨by simp [hu, hrest], by simp⟩
    have hlen := congrArg List.length heq
    simp [callbacksOf, deliver, hone, hfst, hsnd] at hlen
  · intro hone
    refine ⟨fun chunks chunks' hcut hcut' => ?_, fun chunks hcut =>
      callbacksOf_eq_requests httpCallback hone hcut⟩
    rw [callbacksOf_eq_requests httpCallback hone hcut,
      callbacksOf_eq_requests httpCallback hone hcut']

/-- Two requests in one chunk, and in a chunk each. -/
theorem two_requests_one_callback :
    ¬ ∀ (stream : List Byte) (chunks chunks' : List (List Byte × ℤ)),
      Cuts chunks stream → Cuts chunks' stream →
        callbacksOf defaultHttpCallback chunks = callbacksOf defaultHttpCallback chunks' := by
  intro h
  have heq := h (ascii "GET / HTTP/1.1\r\n\r\nGET / HTTP/1.1\r\n\r\n")
    [(ascii "GET / HTTP/1.1\r\n\r\nGET / HTTP/1.1\r\n\r\n", 0)]
    [(ascii "GET / HTTP/1.1\r\n\r\n", 0), (ascii "GET / HTTP/1.1\r\n\r\n", 0)]
    ⟨by decide, by decide⟩ ⟨by decide, by decide⟩
  exact absurd (congrArg List.length heq) (by decide +kernel)

end HttpSession

end Tractor
