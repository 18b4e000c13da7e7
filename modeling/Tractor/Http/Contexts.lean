import Tractor.Http.Service
import Tractor.Net.Completions

/-!
The parser in the context of a connection.

`onConnection` puts it there while the connection is connected, and `onMessage` takes it from
there by `boost::any_cast`, which returns a null pointer if the context is empty.

* `ContextServer`: a server with the `boost::any` of each connection.
* `Held`: the context of every connection that was built holds its parser.
* `callback_protocol`: **the callbacks of a connection come in order, so `any_cast` never
  returns a null pointer.**
-/

namespace Tractor

open Library

/-- A server with the `boost::any` of each connection, empty until it is set. -/
structure ContextServer where
  http : HttpServer
  any : ℕ → Option HttpParser

namespace HttpServer

/-- The parser behind one call of `onMessage`, through the pointer `any_cast` returned. -/
def parseAny (context : HttpParser) (input : List Byte) (receiveTime : ℤ) : HttpParser :=
  match context.parseRuquest input receiveTime with
  | .ret (_, context, _) => if context.gotAll then context.reset else context
  | _ => context

/-- What a callback does with the contexts. -/
def enterAny (any : ℕ → Option HttpParser) (server : TcpServer Empty) (receiveTime : ℤ) :
    Option ServerCallback → ℕ → Option HttpParser
  | none => any
  | some (.onConnection c) =>
      if (server.conns c).connected then Function.update any c (some HttpParser.new) else any
  | some (.onMessage c) =>
      Function.update any c
        ((any c).map fun context => parseAny context (server.conns c).inputBuffer receiveTime)

/-- The callbacks that are registered, for those the server below calls. -/
def registered : ℕ × TcpServer.Callback → ServerCallback
  | (c, .connection _) => .onConnection c
  | (c, .message) => .onMessage c

lemma callback_eq (s s' : TcpServer Empty) (l : TcpServer.Label Empty) :
    callback s l = (s.callback l s').map registered := by
  cases l with
  | exec r =>
      simp only [callback, TcpServer.callback]
      split <;> simp_all [registered]
  | run nwrote =>
      simp only [callback, TcpServer.callback]
      split <;> simp_all [registered]
  | _ => rfl

lemma connected_of_callback {s s' : TcpServer Empty} {l : TcpServer.Label Empty} {c : ℕ} {b : Bool}
    (h : s.callback l s' = some (c, .connection b)) : (s'.conns c).connected = b := by
  cases l with
  | exec r =>
      simp only [TcpServer.callback] at h
      split at h
      · obtain ⟨rfl, rfl⟩ : s.nextConnId = c ∧ _ = b := by simpa using h
        rfl
      · simp at h
      · simp at h
  | run nwrote =>
      simp only [TcpServer.callback] at h
      split at h
      · rename_i d functors _
        obtain ⟨rfl, rfl⟩ : d = c ∧ _ = b := by simpa using h
        rfl
      · simp at h
  | _ => simp [TcpServer.callback] at h

/-- A message callback belongs to a read handler that is next. -/
lemma read_of_callback {s : TcpServer Empty} {l : TcpServer.Label Empty} {c : ℕ}
    (h : callback s l = some (.onMessage c)) : .handleRead c ∈ s.todo := by
  rw [callback_eq s s] at h
  obtain ⟨⟨d, cb⟩, hcb, hreg⟩ := Option.map_eq_some_iff.mp h
  cases cb with
  | connection b => simp [registered] at hreg
  | message =>
      obtain rfl : d = c := by simpa [registered] using hreg
      exact TcpServer.read_of_message hcb

/-- What a step of the loop does. -/
lemma next_loop {httpCallback : HttpCallback} {s s' : HttpServer} {l : TcpServer.Label Empty}
    {t : ℤ} (h : s.next httpCallback (.loop l t) = some s') :
    s.server.next l = some s'.server ∧
      enter httpCallback { s with server := s'.server } t (callback s.server l) = some s' := by
  simp only [next] at h
  split_ifs at h
  obtain ⟨server, hserver, henter⟩ := Option.bind_eq_some_iff.mp h
  obtain ⟨rfl, -, -⟩ := enter_frame henter
  exact ⟨hserver, henter⟩

/-- A step of the running callback calls no other, and leaves the contexts. -/
lemma next_user {httpCallback : HttpCallback} {s s' : HttpServer} {l : Label}
    (hl : ∀ l' t, l ≠ .loop l' t) (h : s.next httpCallback l = some s') :
    ∃ l', ofUser l' = true ∧ s.server.next l' = some s'.server ∧ s'.context = s.context := by
  cases l with
  | loop l t => exact absurd rfl (hl l t)
  | call nwrote =>
      simp only [next] at h
      split at h
      · exact absurd h (by simp)
      all_goals
        obtain ⟨server, hserver, rfl⟩ := Option.map_eq_some_iff.mp h
        exact ⟨_, rfl, hserver, rfl⟩
  | ret =>
      simp only [next] at h
      split_ifs at h
      obtain ⟨server, hserver, rfl⟩ := Option.map_eq_some_iff.mp h
      exact ⟨_, rfl, hserver, rfl⟩

lemma callback_of_ofUser {s : TcpServer Empty} {l : TcpServer.Label Empty}
    (h : ofUser l = true) : callback s l = none := by
  cases l <;> first | rfl | simp [ofUser] at h

/-- The contexts stay those of the server: a context that held its parser before the callback,
or is set by it, holds the parser behind it. -/
lemma enterAny_eq {httpCallback : HttpCallback} {s s' : HttpServer} {any : ℕ → Option HttpParser}
    {t : ℤ} {cb : Option ServerCallback} (h : enter httpCallback s t cb = some s')
    (hmessage : ∀ c, cb = some (.onMessage c) → any c = some (s.context c)) {d : ℕ}
    (hd : any d = some (s.context d) ∨
      cb = some (.onConnection d) ∧ (s.server.conns d).connected = true) :
    enterAny any s.server t cb d = some (s'.context d) := by
  match cb with
  | none =>
      obtain rfl := Option.some.inj h
      exact hd.resolve_right (by simp)
  | some (.onConnection c) =>
      obtain rfl := Option.some.inj h
      by_cases hconnected : (s.server.conns c).state = .kConnected
      · by_cases hdc : d = c
        · simp [enterAny, onConnection, TcpConnection.connected, hconnected, hdc]
        · have hother := hd.resolve_right (by simp [Ne.symm hdc])
          simp [enterAny, onConnection, TcpConnection.connected, hconnected, hdc, hother]
      · have hsame : any d = some (s.context d) := by
          refine hd.resolve_right ?_
          rintro ⟨heq, hup⟩
          obtain rfl : c = d := by simpa using heq
          exact hconnected (by simpa [TcpConnection.connected] using hup)
        simp [enterAny, onConnection, TcpConnection.connected, hconnected, hsame]
  | some (.onMessage c) =>
      simp only [enter, onMessage] at h
      split at h
      · rename_i ok context rest hparse
        obtain rfl := Option.some.inj h
        by_cases hdc : d = c
        · subst hdc
          simp [enterAny, parseAny, hmessage d rfl, hparse]
        · have hother := hd.resolve_right (by simp)
          simp [enterAny, hdc, hother]
      · exact absurd h (by simp)

end HttpServer

namespace ContextServer

variable {httpCallback : HttpCallback} {o o' : ContextServer}

def start (name : String) (acceptFd : ℕ) : ContextServer :=
  ⟨HttpServer.start name acceptFd, fun _ => none⟩

/-- A step of the server, with what its callback does with the contexts. -/
def next (httpCallback : HttpCallback) (o : ContextServer) (l : HttpServer.Label) :
    Option ContextServer :=
  (o.http.next httpCallback l).map fun s' =>
    match l with
    | .loop l receiveTime =>
        ⟨s', HttpServer.enterAny o.any s'.server receiveTime (HttpServer.callback o.http.server l)⟩
    | _ => ⟨s', o.any⟩

/-- The states a server comes through. -/
def Reaches (httpCallback : HttpCallback) (o o' : ContextServer) : Prop :=
  Reach (next httpCallback) (fun _ _ => True) o o'

/-- The context of every connection that was built holds its parser. -/
structure Held (o : ContextServer) : Prop where
  sane : o.http.server.Sane
  held : ∀ c, (o.http.server.hist c).stage ≠ .fresh → o.any c = some (o.http.context c)

lemma start_held (name : String) (acceptFd : ℕ) : (start name acceptFd).Held where
  sane := TcpServer.start_sane name acceptFd false
  held _ h := absurd rfl h

/-- A connection that is built behind a step was built before it, or its callback is called
with `connected()` true. -/
lemma Held.built {server : TcpServer Empty} {l : TcpServer.Label Empty} (h : o.Held)
    (hnext : o.http.server.next l = some server) {d : ℕ} (hd : (server.hist d).stage ≠ .fresh) :
    (o.http.server.hist d).stage ≠ .fresh ∨
      HttpServer.callback o.http.server l = some (.onConnection d) ∧
        (server.conns d).connected = true := by
  have hspeaks := TcpServer.speaks_of_next h.sane hnext
  rw [HttpServer.callback_eq _ server]
  generalize hcb : o.http.server.callback l server = cb at hspeaks ⊢
  cases hspeaks with
  | @up c hbefore hafter hother =>
      by_cases hdc : d = c
      · subst hdc
        exact Or.inr ⟨rfl, HttpServer.connected_of_callback hcb⟩
      · exact Or.inl (hother d hdc ▸ hd)
  | message hread hstage => exact Or.inl (hstage d ▸ hd)
  | @down c hbefore hafter hother =>
      by_cases hdc : d = c
      · subst hdc
        exact Or.inl (by simp [hbefore])
      · exact Or.inl (hother d hdc ▸ hd)
  | silent hsame => exact Or.inl (mt (hsame d).1.mpr hd)

/-- A step of the running callback. -/
lemma Held.user {s' : HttpServer} {l : HttpServer.Label} (h : o.Held)
    (hl : ∀ l' t, l ≠ .loop l' t) (hs' : o.http.next httpCallback l = some s') :
    Held ⟨s', o.any⟩ := by
  obtain ⟨l', hl', hserver, hcontext⟩ := HttpServer.next_user hl hs'
  refine ⟨h.sane.next hserver, fun d hd => ?_⟩
  rw [hcontext]
  exact h.held d ((h.built hserver hd).resolve_right
    (by simp [HttpServer.callback_of_ofUser hl']))

/-- **Every step keeps the contexts.** -/
lemma Held.next {l : HttpServer.Label} (h : o.Held) (hnext : o.next httpCallback l = some o') :
    o'.Held := by
  obtain ⟨s', hs', rfl⟩ := Option.map_eq_some_iff.mp hnext
  cases l with
  | loop l t =>
      obtain ⟨hserver, henter⟩ := HttpServer.next_loop hs'
      refine ⟨h.sane.next hserver, fun d hd => ?_⟩
      refine HttpServer.enterAny_eq henter (fun c hcb => h.held c ?_)
        ((h.built hserver hd).imp_left (h.held d))
      exact (h.sane.stage_of_event (HttpServer.read_of_callback hcb) rfl).1
  | call nwrote => exact h.user (by simp) hs'
  | ret => exact h.user (by simp) hs'

lemma held_of_reaches {name : String} {acceptFd : ℕ}
    (h : Reaches httpCallback (start name acceptFd) o) : o.Held :=
  h.invariant (fun _ _ _ ho _ hnext => ho.next hnext) (start_held name acceptFd)

end ContextServer

/-- **The callback protocol.**  In every run of a single-loop server, with any number of other
threads and whatever the callbacks do: the callbacks of each connection are one call with
`connected()` true, messages, and at most one call with `connected()` false, and nothing
behind it; a connection that was built has had the first of them, and a step enters the code of
the user exactly if it calls one of them or a write-complete callback.  In every run of an
`HttpServer`, whenever `onMessage` is called the context of its connection holds the parser, so
the pointer it takes from there is not null. -/
theorem callback_protocol {T : Type} [DecidableEq T] {name : String} {acceptFd : ℕ} {wc : Bool}
    {o : Observed T} (h : Observed.Reaches (Observed.start name acceptFd wc) o)
    {httpCallback : HttpCallback} {w : ContextServer}
    (hw : ContextServer.Reaches httpCallback (ContextServer.start name acceptFd) w) :
    (∀ c, InOrder (o.callbacks c) ∧ ((o.server.hist c).stage ≠ .fresh →
      (o.callbacks c).head? = some (.connection true))) ∧
    (∀ l s', o.server.next l = some s' → (o.server.todo.count .user < s'.todo.count .user ↔
      (o.server.callback l s').isSome = true ∨ (o.server.callsComplete l).isSome = true)) ∧
      ∀ l c, HttpServer.callback w.http.server l = some (.onMessage c) →
        w.any c = some (w.http.context c) := by
  have htold := Observed.told_of_reaches h
  refine ⟨fun c => ⟨(htold.tells c).inOrder, (htold.tells c).head?_eq⟩,
    fun l s' hnext => TcpServer.enters_user_iff htold.sane.ledger.threadId hnext,
    fun l c hcb => ?_⟩
  have hheld := ContextServer.held_of_reaches hw
  refine hheld.held c (hheld.sane.stage_of_event (HttpServer.read_of_callback hcb) rfl).1

/-- A client connects, sends a byte and closes its end.  A server has accepted a connection and
is about to read from it. -/
theorem callback_protocol_closed : ∃ (o : Observed Unit) (w : ContextServer),
    o.callbacks 1 = [.connection true, .message, .connection false] ∧
    (∀ c, InOrder (o.callbacks c) ∧ ((o.server.hist c).stage ≠ .fresh →
      (o.callbacks c).head? = some (.connection true))) ∧
    HttpServer.callback w.http.server (.exec ⟨none, .data [0], none⟩) = some (.onMessage 1) ∧
    w.any 1 = some (w.http.context 1) := by
  have hrun : ((exec Observed.next (fun o l => o.server.reportsRequested l = true)
      (Observed.start "s" 3 false) (TcpServer.acceptOne Unit ++ ([.poll [(.conn 1, POLLIN)],
        .dispatch, .exec ⟨none, .data [0], none⟩, .userReturn, .handled, .swap, .finish, .test,
        .poll [(.conn 1, POLLIN)], .dispatch, .exec ⟨none, .eof, none⟩, .wakeup .loop, .handled,
        .swap, .run none] : List (TcpServer.Label Unit)))).map fun o => o.callbacks 1) =
      some [.connection true, .message, .connection false] := by decide +kernel
  obtain ⟨o, ho, hcallbacks⟩ := Option.map_eq_some_iff.mp hrun
  have hread : ((exec (ContextServer.next defaultHttpCallback) (fun _ _ => True)
      (ContextServer.start "s" 3) (([.loop .test 0, .loop (.poll [(.acceptor, POLLIN)]) 0,
        .loop .dispatch 0, .loop (.exec ⟨some 5, .error, none⟩) 0] : List HttpServer.Label) ++
        HttpServer.comesRound ++
        ([.loop (.poll [(.conn 1, POLLIN)]) 0, .loop .dispatch 0] : List HttpServer.Label))).map
          fun w => w.http.server.todo) = some [.handleRead 1] := by decide +kernel
  obtain ⟨w, hw, htodo⟩ := Option.map_eq_some_iff.mp hread
  have hcb : HttpServer.callback w.http.server (.exec ⟨none, .data [0], none⟩) =
      some (.onMessage 1) := by simp [HttpServer.callback, htodo]
  obtain ⟨horder, -, hcontext⟩ := callback_protocol ((Reach.refl _).of_exec ho)
    ((Reach.refl _).of_exec hw)
  exact ⟨o, w, hcallbacks, horder, hcb, hcontext _ _ hcb⟩

end Tractor
