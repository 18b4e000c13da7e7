import Tractor.Http.Contexts
import Tractor.Net.Clock

/-!
The receive time of a request.

`parseRuquest` writes it when a request line is complete, in the call that gets the end of
the line; the request may be passed to the callback in a later call.

* `HttpParser.Parses.receiveTime`: a parser that has a request line has the time of the call
  that completed it.
* `TimedHttp`: an `HttpServer` with its clock, and `Punctual`: the request of each connection
  has the time `poll` returned when its line was completed.
* `receive_time_carried_iff`: **the receive times of messages and requests are the clock
  exactly while it fits an `int`.**
-/

namespace Tractor

open Library

namespace HttpParser

variable {t : ℤ} {p p' : HttpParser} {q r : List Byte} {ok : Bool}

/-- The time of the request behind a call. -/
def timeBehind (p : HttpParser) (t : ℤ) : Option ℤ :=
  if p.state = .kExpectRequestLine then some t else p.httpRequest.receiveTime

/-- A line that is consumed leaves the time to the header lines. -/
lemma receiveTime_of_next {line : List Byte} (hp : p.Reading)
    (h : lineStep t p line = .ok (.next p')) : p'.httpRequest.receiveTime = p.timeBehind t := by
  obtain ⟨hs, r, -, rfl⟩ | ⟨hs, -, rfl⟩ := lineStep_next_cases hp h
  · simp [timeBehind, hs, HttpRequest.setReceiveTime]
  · simp [timeBehind, hs, HttpRequest.addHeader]

/-- **A parser that has a request line has its time**: the one of this call, if the line was
completed in it. -/
lemma Parses.receiveTime (h : Parses t p q (.ok (ok, p', r))) (hp : p.Reading) :
    (p.state = .kExpectRequestLine ∧ p'.state = .kExpectRequestLine) ∨
      ((p'.state = .kExpectHeaders ∨ p'.state = .kGotAll) ∧
        p'.httpRequest.receiveTime = p.timeBehind t) := by
  generalize hres : (Except.ok (ok, p', r) : Except HttpFault _) = res at h
  induction h with
  | wait _ =>
      obtain ⟨-, rfl, -⟩ : ok = true ∧ p' = _ ∧ r = _ := by simpa using hres
      rcases hp with hs | hs
      · exact Or.inl ⟨hs, hs⟩
      · exact Or.inr ⟨Or.inl hs, by simp [timeBehind, hs]⟩
  | @next p p₁ q i res hm hl _ ih =>
      have hs := state_of_lineStep_next hp hl
      rcases ih (Or.inr hs) hres with ⟨hs', -⟩ | ⟨hstate, htime⟩
      · exact absurd (hs.symm.trans hs') (by simp)
      · refine Or.inr ⟨hstate, ?_⟩
        rw [htime, timeBehind, if_neg (by simp [hs]), receiveTime_of_next hp hl]
  | @last p p₁ q i hm hl =>
      obtain ⟨-, rfl, -⟩ : ok = true ∧ p' = _ ∧ r = _ := by simpa using hres
      obtain ⟨hs, -, rfl⟩ := lineStep_last_cases hp hl
      exact Or.inr ⟨Or.inr rfl, by simp [timeBehind, hs]⟩
  | @reject p p₁ q i hm hl =>
      obtain ⟨-, rfl, -⟩ : ok = false ∧ p' = _ ∧ r = _ := by simpa using hres
      obtain ⟨hs, hs', -⟩ := state_of_lineStep_reject hp hl
      exact Or.inl ⟨hs, hs'⟩
  | fault _ _ => exact absurd hres (by simp)

/-- What a call that returns does to a parser that reads lines. -/
lemma parseRuquest_ret (hp : p.Reading) (h : p.parseRuquest q t = .ret (ok, p', r)) :
    Parses t p q (.ok (ok, p', r)) := by
  obtain ⟨res, hparse⟩ := exists_parses t p q
  have heq := (parseRuquest_eq hparse hp).symm.trans h
  cases res with
  | error f => simp [toOutcome] at heq
  | ok x =>
      obtain rfl : x = _ := by simpa [toOutcome] using heq
      exact hparse

end HttpParser

/-- A server with its clock, the clock of the iteration in which the request line of each
connection was completed, and for each request that was passed to the callback its
`getReceiveTime()` with that clock. -/
structure TimedHttp where
  http : HttpServer
  clocks : Clocks
  lineClock : ℕ → ℤ
  requests : List (Option ℤ × ℤ)

namespace TimedHttp

variable {httpCallback : HttpCallback} {o o' : TimedHttp}

def start (name : String) (acceptFd : ℕ) : TimedHttp :=
  ⟨HttpServer.start name acceptFd, ⟨0, 0, 0⟩, fun _ => 0, []⟩

/-- The record of a call of `onMessage` for connection `c`, whose parser goes from `context` to
`context'`. -/
def onMessage (o : TimedHttp) (c : ℕ) (context context' : HttpParser) : TimedHttp :=
  let lineClock :=
    if context.state = .kExpectRequestLine ∧ context'.state ≠ .kExpectRequestLine then
      Function.update o.lineClock c o.clocks.clock
    else o.lineClock
  { o with
    lineClock := lineClock
    requests := o.requests ++
      if context'.gotAll then [(context'.httpRequest.receiveTime, lineClock c)] else [] }

/-- The record of a callback. -/
def enter (o : TimedHttp) (server : TcpServer Empty) : Option ServerCallback → TimedHttp
  | some (.onMessage c) =>
      match (o.http.context c).parseRuquest (server.conns c).inputBuffer o.clocks.receiveTime with
      | .ret (_, context, _) => o.onMessage c (o.http.context c) context
      | _ => o
  | _ => o

/-- A step of the server; a step of the loop comes with the clock, which `poll` reads, and its
callback gets the time of the running handler. -/
def next (httpCallback : HttpCallback) (o : TimedHttp) :
    HttpServer.Label → Option TimedHttp
  | .loop l now =>
      (o.http.next httpCallback (.loop l o.clocks.receiveTime)).map fun s' =>
        { o.enter s'.server (HttpServer.callback o.http.server l) with
          http := s'
          clocks := o.clocks.step l now }
  | l => (o.http.next httpCallback l).map fun s' => { o with http := s' }

/-- The clock a step may read is an `int64_t` that is not negative. -/
def readsClock : HttpServer.Label → Bool
  | .loop _ now => isClock now
  | _ => true

/-- The states a server comes through, for any values of the clock. -/
def Reaches (httpCallback : HttpCallback) (o o' : TimedHttp) : Prop :=
  Reach (next httpCallback) (fun _ l => readsClock l = true) o o'

/-- The time is what `poll` returned when the clock was this. -/
def Stamped (time : Option ℤ) (clock : ℤ) : Prop :=
  isClock clock = true ∧ time = some (EPoller.pollTime clock)

/-- A parser that has a request line has the time of its iteration. -/
def Punctual (context : HttpParser) (lineClock : ℤ) : Prop :=
  context.Reading ∧
    (context.state = .kExpectHeaders → Stamped context.httpRequest.receiveTime lineClock)

lemma punctual_of_requestLine {context : HttpParser} (h : context.state = .kExpectRequestLine)
    (lineClock : ℤ) : Punctual context lineClock :=
  ⟨Or.inl h, fun hs => absurd (h.symm.trans hs) (by simp)⟩

/-- What holds of a server and its clock in every state. -/
structure Kept (o : TimedHttp) : Prop where
  sane : o.http.server.Sane
  onTime : o.http.server.OnTime o.clocks
  punctual : ∀ c, Punctual (o.http.context c) (o.lineClock c)
  requests : ∀ x ∈ o.requests, Stamped x.1 x.2

lemma start_kept (name : String) (acceptFd : ℕ) : (start name acceptFd).Kept where
  sane := TcpServer.start_sane name acceptFd false
  onTime := ⟨(by decide : isClock 0 = true), (by decide : 0 = EPoller.pollTime 0), fun _ _ => rfl⟩
  punctual _ := punctual_of_requestLine rfl _
  requests x hx := by simp [start] at hx

/-- **A call of `onMessage` keeps the record.** -/
lemma Kept.onMessage {c : ℕ} {context : HttpParser} {input rest : List Byte} {ok : Bool}
    (h : o.Kept) (hread : .handleRead c ∈ o.http.server.todo)
    (hparse : (o.http.context c).parseRuquest input o.clocks.receiveTime =
      .ret (ok, context, rest)) :
    (∀ x ∈ (o.onMessage c (o.http.context c) context).requests, Stamped x.1 x.2) ∧
      (∀ d, d ≠ c → (o.onMessage c (o.http.context c) context).lineClock d = o.lineClock d) ∧
      Punctual (if context.gotAll then context.reset else context)
        ((o.onMessage c (o.http.context c) context).lineClock c) := by
  obtain ⟨hreading, hstamp⟩ := h.punctual c
  have hline : (o.onMessage c (o.http.context c) context).lineClock c =
      if (o.http.context c).state = .kExpectRequestLine ∧ context.state ≠ .kExpectRequestLine then
        o.clocks.clock else o.lineClock c := by
    simp only [TimedHttp.onMessage]
    split_ifs <;> simp
  have hother : ∀ d, d ≠ c →
      (o.onMessage c (o.http.context c) context).lineClock d = o.lineClock d := fun d hd => by
    simp only [TimedHttp.onMessage]
    split_ifs <;> simp [hd]
  rcases (HttpParser.parseRuquest_ret hreading hparse).receiveTime hreading with
    ⟨-, hs⟩ | ⟨hstate, htime⟩
  · -- the request line is not complete
    have hgot : context.gotAll = false := by simp [HttpParser.gotAll, hs]
    refine ⟨fun x hx => h.requests x ?_, hother, ?_⟩
    · simpa [TimedHttp.onMessage, hgot] using hx
    · rw [hgot]
      exact punctual_of_requestLine hs _
  · have hstamped : Stamped context.httpRequest.receiveTime
        ((o.onMessage c (o.http.context c) context).lineClock c) := by
      rw [hline, htime, HttpParser.timeBehind]
      by_cases hs : (o.http.context c).state = .kExpectRequestLine
      · -- it was completed in this call
        have hne : context.state ≠ .kExpectRequestLine := by
          rcases hstate with hs' | hs' <;> simp [hs']
        rw [if_pos hs, if_pos ⟨hs, hne⟩]
        refine ⟨h.onTime.clock, congrArg some ?_⟩
        exact (h.onTime.passed c hread).trans h.onTime.returned
      · rw [if_neg hs, if_neg (fun hboth => hs hboth.1)]
        exact hstamp (hreading.resolve_left hs)
    refine ⟨fun x hx => ?_, hother, ?_⟩
    · rcases List.mem_append.mp hx with hx | hx
      · exact h.requests x hx
      · cases hgot : context.gotAll with
        | true =>
            rw [hgot, if_pos rfl] at hx
            obtain rfl := List.mem_singleton.mp hx
            exact hstamped
        | false => simp [hgot] at hx
    · split_ifs with hgot
      · exact punctual_of_requestLine rfl _
      · have hs : context.state = .kExpectHeaders :=
          hstate.resolve_right fun hs => hgot (by simp [HttpParser.gotAll, hs])
        exact ⟨Or.inr hs, fun _ => hstamped⟩

/-- **A callback keeps the record.** -/
lemma Kept.enter {server : TcpServer Empty} {s' : HttpServer} {l : TcpServer.Label Empty}
    (h : o.Kept)
    (henter : HttpServer.enter httpCallback { o.http with server := server }
      o.clocks.receiveTime (HttpServer.callback o.http.server l) = some s') :
    (∀ c, Punctual (s'.context c)
        ((o.enter server (HttpServer.callback o.http.server l)).lineClock c)) ∧
      ∀ x ∈ (o.enter server (HttpServer.callback o.http.server l)).requests,
        Stamped x.1 x.2 := by
  generalize hcb : HttpServer.callback o.http.server l = cb at henter ⊢
  match cb with
  | none =>
      obtain rfl := Option.some.inj henter
      exact ⟨h.punctual, h.requests⟩
  | some (.onConnection c) =>
      obtain rfl := Option.some.inj henter
      refine ⟨fun d => ?_, h.requests⟩
      rw [HttpServer.onConnection]
      split_ifs
      · by_cases hdc : d = c
        · subst hdc
          exact punctual_of_requestLine (by simp [HttpParser.new]) _
        · simp only [Function.update_of_ne hdc]
          exact h.punctual d
      · exact h.punctual d
  | some (.onMessage c) =>
      simp only [HttpServer.enter, HttpServer.onMessage] at henter
      split at henter
      · rename_i ok context rest hparse
        obtain rfl := Option.some.inj henter
        obtain ⟨hrequests, hother, hpunctual⟩ :=
          h.onMessage (HttpServer.read_of_callback hcb) hparse
        simp only [TimedHttp.enter, hparse]
        refine ⟨fun d => ?_, hrequests⟩
        by_cases hdc : d = c
        · subst hdc
          rw [Function.update_self]
          exact hpunctual
        · rw [Function.update_of_ne hdc, hother d hdc]
          exact h.punctual d
      · exact absurd henter (by simp)

/-- A step of the running callback. -/
lemma Kept.user {s' : HttpServer} {l : HttpServer.Label} (h : o.Kept)
    (hl : ∀ l' t, l ≠ .loop l' t) (hs' : o.http.next httpCallback l = some s') :
    Kept { o with http := s' } := by
  obtain ⟨l', hl', hserver, hcontext⟩ := HttpServer.next_user hl hs'
  refine ⟨h.sane.next hserver, ?_, fun c => by rw [hcontext]; exact h.punctual c, h.requests⟩
  have hclocks : o.clocks.step l' 0 = o.clocks := by
    cases l' <;> first | rfl | simp [HttpServer.ofUser] at hl'
  rw [← hclocks]
  exact h.onTime.next h.sane (by decide) hserver

/-- **Every step keeps the record.** -/
lemma Kept.next {l : HttpServer.Label} (h : o.Kept) (hl : readsClock l = true)
    (hnext : o.next httpCallback l = some o') : o'.Kept := by
  cases l with
  | loop l now =>
      obtain ⟨s', hs', rfl⟩ := Option.map_eq_some_iff.mp hnext
      obtain ⟨hserver, henter⟩ := HttpServer.next_loop hs'
      obtain ⟨hpunctual, hrequests⟩ := h.enter henter
      exact ⟨h.sane.next hserver, h.onTime.next h.sane hl hserver, hpunctual, hrequests⟩
  | call nwrote =>
      obtain ⟨s', hs', rfl⟩ := Option.map_eq_some_iff.mp hnext
      exact h.user (by simp) hs'
  | ret =>
      obtain ⟨s', hs', rfl⟩ := Option.map_eq_some_iff.mp hnext
      exact h.user (by simp) hs'

lemma kept_of_reaches {name : String} {acceptFd : ℕ}
    (h : Reaches httpCallback (start name acceptFd) o) : o.Kept :=
  h.invariant (fun _ _ _ ho hl hnext => ho.next hl hnext) (start_kept name acceptFd)

end TimedHttp

/-- **When the receive time is the clock.**  In every run, for any values of the clock: the
times passed to the message callback are the clock as it was read when `poll` returned, and do
not decrease while it does not, exactly if it was less than `2 ^ 31` in every iteration that
passed a message; and the receive times of the requests are the clock of the iteration in which
their request line was completed exactly if it was less than `2 ^ 31` in all of these. -/
theorem receive_time_carried_iff {T : Type} [DecidableEq T] {name : String} {acceptFd : ℕ}
    {wc : Bool} {o : Timed T} (h : Timed.Reaches (Timed.start name acceptFd wc) o)
    {httpCallback : HttpCallback} {w : TimedHttp}
    (hw : TimedHttp.Reaches httpCallback (TimedHttp.start name acceptFd) w) :
    (Carried o.messages ↔ ∀ x ∈ o.messages, x.2 < 2 ^ 31) ∧
      ((∀ x ∈ w.requests, x.1 = some x.2) ↔ ∀ x ∈ w.requests, x.2 < 2 ^ 31) := by
  refine ⟨Timed.carried_iff h, forall₂_congr fun x hx => ?_⟩
  obtain ⟨hclock, htime⟩ := (TimedHttp.kept_of_reaches hw).requests x hx
  rw [htime, Option.some.injEq, EPoller.pollTime_eq_iff hclock]

/-- A connection is accepted, and a byte read from it when the clock is `t`. -/
def byteReadAt (t : ℤ) : List (TcpServer.Label Unit × ℤ) :=
  (TcpServer.acceptOne Unit).map (·, 0) ++ [(.poll [(.conn 1, POLLIN)], t), (.dispatch, 0),
    (.exec ⟨none, .data [0], none⟩, 0)]

/-- Another byte is read when the clock is `t`. -/
def nextByteReadAt (t : ℤ) : List (TcpServer.Label Unit × ℤ) :=
  [(.userReturn, 0), (.handled, 0), (.swap, 0), (.finish, 0), (.test, 0),
    (.poll [(.conn 1, POLLIN)], t), (.dispatch, 0), (.exec ⟨none, .data [0], none⟩, 0)]

/-- A connection is accepted, and a request read from it when the clock is `t`. -/
def requestReadAt (t : ℤ) : List HttpServer.Label :=
  ([.loop .test 0, .loop (.poll [(.acceptor, POLLIN)]) 0, .loop .dispatch 0,
      .loop (.exec ⟨some 5, .error, none⟩) 0] : List HttpServer.Label) ++ HttpServer.comesRound ++
    [.loop (.poll [(.conn 1, POLLIN)]) t, .loop .dispatch 0,
      .loop (.exec ⟨none, .data (ascii "GET / HTTP/1.0\r\n\r\n"), none⟩) 0]

/-- A second after the epoch the times are the clock. -/
theorem receive_time_carried_iff_epoch : ∃ (o : Timed Unit) (w : TimedHttp),
    o.messages = [(1000000, 1000000)] ∧ w.requests = [(some 1000000, 1000000)] ∧
      Carried o.messages ∧ ∀ x ∈ w.requests, x.1 = some x.2 := by
  have hrun : ((exec Timed.next (fun _ l => isClock l.2 = true) (Timed.start "s" 3 false)
      (byteReadAt 1000000)).map fun o => o.messages) = some [(1000000, 1000000)] := by
    decide +kernel
  have hread : ((exec (TimedHttp.next defaultHttpCallback)
      (fun _ l => TimedHttp.readsClock l = true) (TimedHttp.start "s" 3)
      (requestReadAt 1000000)).map fun w => w.requests) = some [(some 1000000, 1000000)] := by
    decide +kernel
  obtain ⟨o, ho, hmessages⟩ := Option.map_eq_some_iff.mp hrun
  obtain ⟨w, hw, hrequests⟩ := Option.map_eq_some_iff.mp hread
  have hiff := receive_time_carried_iff ((Reach.refl _).of_exec ho) ((Reach.refl _).of_exec hw)
  refine ⟨o, w, hmessages, hrequests, hiff.1.mpr ?_, hiff.2.mpr ?_⟩
  · rw [hmessages]
    decide
  · rw [hrequests]
    decide

/-- In November 2023 a client sends two bytes, half an hour apart: neither time is the clock,
and the second is before the first.  The time of a request is not the clock, either. -/
theorem receive_time_truncated : ∃ (o : Timed Unit) (w : TimedHttp),
    Timed.Reaches (Timed.start "s" 3 false) o ∧
      TimedHttp.Reaches defaultHttpCallback (TimedHttp.start "s" 3) w ∧
      o.messages = [(404635648, 1700000000000000), (-2090331648, 1700001800000000)] ∧
      w.requests = [(some 404635648, 1700000000000000)] ∧
      ¬ Carried o.messages ∧ ¬ (o.messages.map Prod.fst).Pairwise (· ≤ ·) ∧
      ¬ ∀ x ∈ w.requests, x.1 = some x.2 := by
  have hrun : ((exec Timed.next (fun _ l => isClock l.2 = true) (Timed.start "s" 3 false)
      (byteReadAt 1700000000000000 ++ nextByteReadAt 1700001800000000)).map
        fun o => o.messages) =
      some [(404635648, 1700000000000000), (-2090331648, 1700001800000000)] := by
    decide +kernel
  have hread : ((exec (TimedHttp.next defaultHttpCallback)
      (fun _ l => TimedHttp.readsClock l = true) (TimedHttp.start "s" 3)
      (requestReadAt 1700000000000000)).map fun w => w.requests) =
      some [(some 404635648, 1700000000000000)] := by
    decide +kernel
  obtain ⟨o, ho, hmessages⟩ := Option.map_eq_some_iff.mp hrun
  obtain ⟨w, hw, hrequests⟩ := Option.map_eq_some_iff.mp hread
  refine ⟨o, w, (Reach.refl _).of_exec ho, (Reach.refl _).of_exec hw, hmessages, hrequests,
    fun hc => ?_, ?_, ?_⟩
  · have heq := hc.1 (404635648, 1700000000000000) (by simp [hmessages])
    exact absurd heq (by decide)
  · rw [hmessages]
    decide
  · rw [hrequests]
    decide

end Tractor
