import Tractor.Http.Chunking
import Tractor.Http.Grammar

/-!
Requests behind the announced close.

A response with `Connection: close` and a 400 reply are followed by `shutdown()`, which
leaves reading enabled; neither `onMessage` nor the parser looks at the state of the
connection afterwards.

* `Expects.callbacks_deliver_iff`: when the calls to come pass no request to the callback.
* `Expects.of_deliver`: as long as the connection is connected, the session expects a request.
* `no_callback_behind_close_iff`: **behind the close nothing is passed to the callback if and
  only if what is still unread, with all that arrives later, holds no further request.**
-/

namespace Tractor

open Library

lemma HttpParser.requestOf_eq_none_iff (q : List Byte) :
    requestOf q = none ↔ ¬ HoldsRequest q := by
  obtain ⟨res, hparse⟩ := exists_parses 0 HttpParser.new q
  obtain ⟨⟨ok, p, rest⟩, rfl⟩ := hparse.ok_of_fresh new_reading new_fresh
  rw [requestOf_of_parses hparse, ← hparse.gotAll_iff]
  cases p.gotAll <;> simp

namespace HttpSession

open HttpParser

variable (httpCallback : HttpCallback) {s s' : HttpSession} {x : List Byte}

/-! ### The connection is never connected again -/

lemma onRequest_state_ne (h : s.state ≠ .kConnected) (req : HttpRequest) :
    (s.onRequest httpCallback req).state ≠ .kConnected := by
  simp only [onRequest]
  split_ifs
  · exact shutdown_state_ne _
  · simpa using h

lemma onMessage_state_ne (h : s.state ≠ .kConnected) (chunk : List Byte) (t : ℤ) :
    (s.onMessage httpCallback chunk t).state ≠ .kConnected := by
  rw [onMessage]
  split_ifs
  · split
    · exact h
    · exact h
    · rename_i ok context buf _
      have hrej : (if ok then { s with context := context, inputBuffer := buf } else (send
          { s with context := context, inputBuffer := buf } .badRequest).shutdown).state ≠
          .kConnected := by
        split_ifs
        · exact h
        · exact shutdown_state_ne _
      dsimp only
      by_cases hgot : context.gotAll = true
      · rw [if_pos hgot]
        exact onRequest_state_ne httpCallback hrej context.httpRequest
      · rw [if_neg hgot]
        exact hrej
  · exact h

lemma deliver_state_ne (h : s.state ≠ .kConnected) (chunks : List (List Byte × ℤ)) :
    (s.deliver httpCallback chunks).state ≠ .kConnected := by
  induction chunks generalizing s with
  | nil => exact h
  | cons c chunks ih => exact ih (onMessage_state_ne httpCallback h c.1 c.2)

/-- **A connected session expects a request**, whatever was delivered before. -/
lemma Expects.of_deliver (h : s.Expects x) (chunks : List (List Byte × ℤ))
    (hopen : (s.deliver httpCallback chunks).state = .kConnected) :
    ∃ x', (s.deliver httpCallback chunks).Expects x' := by
  induction chunks generalizing s x with
  | nil => exact ⟨x, h⟩
  | cons c chunks ih =>
      rw [deliver_cons] at hopen ⊢
      cases h.onMessage httpCallback c.1 c.2 with
      | request _ _ _ hexp => exact ih hexp hopen
      | waits _ _ hexp _ => exact ih hexp hopen
      | rejects _ _ _ _ hstate => exact absurd hopen (deliver_state_ne httpCallback hstate chunks)

/-! ### The record of callbacks -/

/-- The calls to come add to the record of callbacks. -/
lemma Expects.callbacks_prefix (h : s.Expects x) (chunks : List (List Byte × ℤ)) :
    s.callbacks <+: (s.deliver httpCallback chunks).callbacks := by
  induction chunks generalizing s x with
  | nil => exact List.prefix_rfl
  | cons c chunks ih =>
      rw [deliver_cons]
      cases h.onMessage httpCallback c.1 c.2 with
      | request req _ hcb hexp =>
          have hstep : s.callbacks <+: (s.onMessage httpCallback c.1 c.2).callbacks := by
            rw [hcb]
            exact List.prefix_append _ _
          exact hstep.trans (ih hexp)
      | waits _ hcb hexp _ =>
          rw [← hcb]
          exact ih hexp
      | rejects _ hcb hrej _ _ =>
          rw [hrej.deliver, hcb]

/-- **When the calls to come pass no request to the callback.** -/
lemma Expects.callbacks_deliver_iff (h : s.Expects x) (chunks : List (List Byte × ℤ)) :
    (s.deliver httpCallback chunks).callbacks = s.callbacks ↔
      chunks = [] ∨ ¬ HoldsRequest (x ++ (chunks.map Prod.fst).flatten) := by
  induction chunks generalizing s x with
  | nil => exact ⟨fun _ => Or.inl rfl, fun _ => rfl⟩
  | cons c chunks ih =>
      rw [deliver_cons, List.map_cons, List.flatten_cons, ← List.append_assoc,
        ← requestOf_eq_none_iff]
      simp only [reduceCtorEq, false_or]
      cases h.onMessage httpCallback c.1 c.2 with
      | request req hreq hcb hexp =>
          -- the callback ran, and what it was given stays in the record
          have hpre := (hexp.callbacks_prefix httpCallback chunks).length_le
          rw [hcb, List.length_append, List.length_singleton] at hpre
          rw [requestOf_append hreq]
          refine ⟨fun heq => ?_, fun hnone => absurd hnone (by simp)⟩
          rw [heq] at hpre
          omega
      | waits hnone hcb hexp _ =>
          rw [← hcb, ih hexp, ← requestOf_eq_none_iff]
          refine or_iff_right_of_imp ?_
          rintro rfl
          simpa using hnone
      | rejects hnever hcb hrej _ _ =>
          rw [hrej.deliver, hcb]
          exact ⟨fun _ => hnever _, fun _ => rfl⟩

/-! ### Behind the close -/

/-- What is left of the session at the call that announces the close. -/
lemma Answers.closed (h : s.Answers x s') (hopen : s.state = .kConnected)
    (hclose : s'.state ≠ .kConnected) :
    s'.Expects s'.inputBuffer ∨
      s'.Rejected ∧ ∀ y, ¬ HoldsRequest (s'.inputBuffer ++ y) := by
  cases h with
  | request _ _ _ hexp => exact Or.inl hexp
  | waits _ _ _ hstate => exact absurd (hstate.trans hopen) hclose
  | rejects hnever _ hrej hinput _ =>
      refine Or.inr ⟨hrej, fun y => ?_⟩
      rw [hinput, ← requestOf_eq_none_iff]
      exact hnever y

/-- **Requests behind the announced close.**  Any chunks are delivered, the last of which made
the server announce the close: with a response that closes the connection, or a 400 reply.
The chunks that follow pass no request to the callback if and only if there are none, or the
bytes unread at the close with all that arrive later do not hold a valid request line and,
behind it, a line without a colon. -/
theorem no_callback_behind_close_iff (pre : List (List Byte × ℤ)) (c : List Byte × ℤ)
    (post : List (List Byte × ℤ)) (hopen : (new.deliver httpCallback pre).state = .kConnected)
    (hclose : (new.deliver httpCallback (pre ++ [c])).state ≠ .kConnected) :
    (new.deliver httpCallback (pre ++ [c] ++ post)).callbacks =
        (new.deliver httpCallback (pre ++ [c])).callbacks ↔
      post = [] ∨ ¬ HoldsRequest ((new.deliver httpCallback (pre ++ [c])).inputBuffer ++
        (post.map Prod.fst).flatten) := by
  have hcall : new.deliver httpCallback (pre ++ [c]) =
      (new.deliver httpCallback pre).onMessage httpCallback c.1 c.2 := by
    simp [deliver]
  have hpost : new.deliver httpCallback (pre ++ [c] ++ post) =
      (new.deliver httpCallback (pre ++ [c])).deliver httpCallback post := List.foldl_append
  rw [hpost]
  rw [hcall] at hclose ⊢
  obtain ⟨x, hexp⟩ := new_expects.of_deliver httpCallback pre hopen
  rcases (hexp.onMessage httpCallback c.1 c.2).closed hopen hclose with hexp' | ⟨hrej, hnever⟩
  · exact hexp'.callbacks_deliver_iff httpCallback post
  · exact ⟨fun _ => Or.inr (hnever _), fun _ => hrej.deliver httpCallback post⟩

/-- A request of version 1.0, and behind its answer the beginning of another. -/
theorem no_callback_behind_close_iff_cut :
    (new.deliver defaultHttpCallback
      ([] ++ [(ascii "GET / HTTP/1.0\r\n\r\n", 0)] ++ [(ascii "GET /", 1)])).callbacks =
    (new.deliver defaultHttpCallback ([] ++ [(ascii "GET / HTTP/1.0\r\n\r\n", 0)])).callbacks := by
  refine (no_callback_behind_close_iff defaultHttpCallback []
    (ascii "GET / HTTP/1.0\r\n\r\n", 0) [(ascii "GET /", 1)] rfl (by decide +kernel)).mpr
    (Or.inr ?_)
  rintro ⟨first, ls, hlines, -⟩
  rw [lines_of_none (by decide +kernel)] at hlines
  exact absurd hlines (by simp)

/-- **A request behind the close is processed**: the response to the first has been handed
over and the connection shut down, the callback runs for the second, and its response goes
nowhere. -/
theorem request_behind_close :
    (new.deliver defaultHttpCallback [(ascii "GET / HTTP/1.0\r\n\r\n", 0)]).state ≠ .kConnected ∧
    (new.deliver defaultHttpCallback [(ascii "GET / HTTP/1.0\r\n\r\n", 0)]).replies.length = 1 ∧
    (new.deliver defaultHttpCallback [(ascii "GET / HTTP/1.0\r\n\r\n", 0)]).callbacks.length = 1 ∧
    (new.deliver defaultHttpCallback [(ascii "GET / HTTP/1.0\r\n\r\n", 0),
      (ascii "DELETE /x HTTP/1.1\r\n\r\n", 1)]).callbacks.length = 2 ∧
    (new.deliver defaultHttpCallback [(ascii "GET / HTTP/1.0\r\n\r\n", 0),
      (ascii "DELETE /x HTTP/1.1\r\n\r\n", 1)]).replies.length = 1 := by
  decide +kernel

end HttpSession

end Tractor
