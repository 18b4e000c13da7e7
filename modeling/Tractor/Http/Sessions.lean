import Tractor.Http.ReceiveTime
import Tractor.Http.Seen

/-!
Every connection of an `HttpServer` is a session of its own.

The server handles the events of all its connections in one thread, and a callback is a list of
calls that the loop goes on with.  `HttpSession` is one connection, and one message callback is
one step.

* `HttpSession.onMessage_perform`: one message callback is its list of calls.
* `ReadServer`: a server with the bytes it has read from each connection.
* `Plays`: behind the calls that are still to come, each connection is the session of the bytes
  read from it; every step keeps it.
* `connection_is_session`: **whatever the other connections do, a connection is served like a
  session that gets the same chunks.**
-/

namespace Tractor

open Library

/-! ### A message callback is its list of calls -/

/-- A call that returns leaves a parser that reads lines, once it is reset. -/
lemma HttpParser.reading_of_ret {t : ℤ} {p p' : HttpParser} {q r : List Byte} {ok : Bool}
    (hp : p.Reading) (h : p.parseRuquest q t = .ret (ok, p', r)) :
    (if p'.gotAll then p'.reset else p').Reading := by
  rcases (parseRuquest_ret hp h).receiveTime hp with ⟨-, hs⟩ | ⟨hs | hs, -⟩
  · rw [if_neg (by simp [gotAll, hs])]
    exact Or.inl hs
  · rw [if_neg (by simp [gotAll, hs])]
    exact Or.inr hs
  · rw [if_pos (by simp [gotAll, hs])]
    exact new_reading

/-- The connection of a call. -/
def ConnCall.conn : ConnCall → ℕ
  | retrieve c _ => c
  | send c _ => c
  | shutdown c => c

namespace HttpSession

variable {httpCallback : HttpCallback} {s : HttpSession}

/-- The session with this parser, its record of callbacks aside. -/
def bare (s : HttpSession) (context : HttpParser) : HttpSession :=
  { s with context := context, callbacks := [] }

/-- What one call does to the session. -/
def perform (s : HttpSession) : ConnCall → HttpSession
  | .retrieve _ n => { s with inputBuffer := s.inputBuffer.drop n }
  | .send _ reply => s.send reply
  | .shutdown _ => s.shutdown

@[simp] lemma bare_send (s : HttpSession) (r : Reply) (context : HttpParser) :
    (s.send r).bare context = (s.bare context).send r := by
  by_cases hs : s.state = .kConnected <;> simp [send, bare, hs]

@[simp] lemma bare_shutdown (s : HttpSession) (context : HttpParser) :
    s.shutdown.bare context = (s.bare context).shutdown := by
  by_cases hs : s.state = .kConnected <;> simp [shutdown, bare, hs]

lemma bare_onRequest (s : HttpSession) (req : HttpRequest) (c : ℕ) (context : HttpParser) :
    (s.onRequest httpCallback req).bare context =
      (HttpServer.onRequest httpCallback c req).foldl perform (s.bare context) := by
  have hsame : ({ s with callbacks := s.callbacks ++ [req] } : HttpSession).bare context =
      s.bare context := rfl
  have hresp : httpCallback req (HttpResponse.new (closeFlag req)) =
      HttpServer.respond httpCallback req := rfl
  simp only [onRequest, HttpServer.onRequest, hresp, List.foldl_cons, perform]
  by_cases hclose : (HttpServer.respond httpCallback req).closeConnection = true
  · rw [if_pos hclose, if_pos hclose, bare_shutdown, bare_send, hsame]
    rfl
  · rw [if_neg hclose, if_neg hclose, bare_send, hsame]
    rfl

lemma status_foldl_perform (s : HttpSession) (calls : List ConnCall) :
    (calls.foldl perform s).status = s.status := by
  induction calls generalizing s with
  | nil => rfl
  | cons call calls ih =>
      rw [List.foldl_cons, ih]
      cases call with
      | retrieve c n => rfl
      | send c reply => exact send_status s reply
      | shutdown c => exact shutdown_status s

/-- The calls add to the replies. -/
lemma replies_foldl_perform (s : HttpSession) (calls : List ConnCall) :
    s.replies <+: (calls.foldl perform s).replies := by
  induction calls generalizing s with
  | nil => exact List.prefix_rfl
  | cons call calls ih =>
      refine List.IsPrefix.trans ?_ (ih _)
      cases call with
      | retrieve c n => exact List.prefix_rfl
      | send c reply =>
          rw [perform, send]
          split_ifs
          · exact List.prefix_append _ _
          · exact List.prefix_rfl
      | shutdown c =>
          rw [perform, shutdown]
          split_ifs <;> exact List.prefix_rfl

/-- **One message callback is its list of calls**, behind the bytes that were read. -/
theorem onMessage_perform (httpCallback : HttpCallback) (hrun : s.status = .running)
    {chunk rest : List Byte} {t : ℤ} {ok : Bool} {context : HttpParser} (c : ℕ)
    (hparse : s.context.parseRuquest (s.inputBuffer ++ chunk) t = .ret (ok, context, rest))
    (hrest : rest <:+ s.inputBuffer ++ chunk) :
    (s.onMessage httpCallback chunk t).context =
        (if context.gotAll then context.reset else context) ∧
      (s.onMessage httpCallback chunk t).bare (if context.gotAll then context.reset else context) =
        (ConnCall.retrieve c ((s.inputBuffer ++ chunk).length - rest.length) ::
          ((if ok then [] else [.send c .badRequest, .shutdown c]) ++
            if context.gotAll then HttpServer.onRequest httpCallback c context.httpRequest
            else [])).foldl perform
          (({ s with inputBuffer := s.inputBuffer ++ chunk } : HttpSession).bare
            (if context.gotAll then context.reset else context)) := by
  have hdrop : (s.inputBuffer ++ chunk).drop ((s.inputBuffer ++ chunk).length - rest.length) =
      rest := by
    obtain ⟨u, hu⟩ := hrest
    rw [← hu]
    simp
  -- behind `retrieve` the session has the bytes the parser left
  have hretrieve : ∀ context' : HttpParser,
      (({ s with inputBuffer := s.inputBuffer ++ chunk } : HttpSession).bare context').perform
          (.retrieve c ((s.inputBuffer ++ chunk).length - rest.length)) =
        ({ s with context := context, inputBuffer := rest } : HttpSession).bare context' :=
    fun context' => by
      simp only [perform, bare, hdrop]
  have hreject : ∀ (s : HttpSession) (context' : HttpParser),
      (if ok = true then s else (s.send .badRequest).shutdown).bare context' =
        (if ok then [] else [.send c .badRequest, .shutdown c] : List ConnCall).foldl perform
          (s.bare context') := fun s context' => by
    cases ok with
    | true => rfl
    | false => simp [perform]
  rw [onMessage, if_pos hrun, hparse, List.foldl_cons, List.foldl_append, hretrieve, ← hreject]
  cases hgot : context.gotAll with
  | true =>
      refine ⟨by simp [hgot], ?_⟩
      simp only [hgot, if_true]
      exact bare_onRequest _ _ c _
  | false =>
      refine ⟨?_, by simp [hgot]⟩
      cases ok <;> simp [hgot]

end HttpSession

/-! ### The connections of a server -/

namespace HttpServer

variable {httpCallback : HttpCallback} {s s' : HttpServer} {c : ℕ}

/-- One connection of the server as a session. -/
def view (s : HttpServer) (c : ℕ) : HttpSession where
  context := s.context c
  inputBuffer := (s.server.conns c).inputBuffer
  state := s.server.endState c
  status := .running
  callbacks := []
  replies := ((s.replies c).filter Prod.snd).map Prod.fst

/-- The session behind the calls that the running callback still has to make. -/
def ahead (s : HttpServer) (c : ℕ) : HttpSession :=
  (s.calls.filter fun call => call.conn = c).foldl HttpSession.perform (s.view c)

lemma view_eq (hseen : TcpServer.SameSeen s.server s'.server c)
    (hcontext : s'.context c = s.context c) (hreplies : s'.replies c = s.replies c) :
    s'.view c = s.view c := by
  rw [view, hcontext, hreplies, hseen.input, hseen.state]
  rfl

lemma ahead_eq (hseen : TcpServer.SameSeen s.server s'.server c)
    (hcontext : s'.context c = s.context c) (hreplies : s'.replies c = s.replies c)
    (hcalls : (s'.calls.filter fun call => call.conn = c) =
      s.calls.filter fun call => call.conn = c) : s'.ahead c = s.ahead c := by
  rw [ahead, ahead, hcalls, view_eq hseen hcontext hreplies]

/-- A callback is about its connection. -/
lemma conn_of_mem_onRequest {req : HttpRequest} {call : ConnCall}
    (h : call ∈ onRequest httpCallback c req) : call.conn = c := by
  rw [onRequest] at h
  split_ifs at h with hclose
  · rcases List.mem_cons.mp h with rfl | h
    · rfl
    · obtain rfl := List.mem_singleton.mp h
      rfl
  · obtain rfl := List.mem_singleton.mp h
    rfl

/-- What the message callback does before its calls. -/
lemma onMessage_spec {t : ℤ} (h : s.onMessage httpCallback c t = some s') :
    ∃ ok context rest,
      (s.context c).parseRuquest (s.server.conns c).inputBuffer t = .ret (ok, context, rest) ∧
      s' = { s with
        context := Function.update s.context c (if context.gotAll then context.reset else context)
        calls := .retrieve c ((s.server.conns c).inputBuffer.length - rest.length) ::
          ((if ok then [] else [.send c .badRequest, .shutdown c]) ++
            if context.gotAll then onRequest httpCallback c context.httpRequest else []) } ∧
      ∀ call ∈ s'.calls, call.conn = c := by
  simp only [onMessage] at h
  split at h
  · rename_i ok context rest hparse
    obtain rfl := Option.some.inj h
    refine ⟨ok, context, rest, hparse, rfl, fun call hcall => ?_⟩
    rcases List.mem_cons.mp hcall with rfl | hcall
    · rfl
    · rcases List.mem_append.mp hcall with hcall | hcall
      · cases ok with
        | true => simp at hcall
        | false =>
            have hcase : call = .send c .badRequest ∨ call = .shutdown c := by simpa using hcall
            rcases hcase with rfl | rfl <;> rfl
      · split_ifs at hcall
        · exact conn_of_mem_onRequest hcall
        · simp at hcall
  · exact absurd h (by simp)

end HttpServer

/-- A server, and the bytes read from each connection, chunk by chunk with the times they were
passed on with. -/
structure ReadServer where
  http : HttpServer
  reads : ℕ → List (List Byte × ℤ)

namespace ReadServer

variable {httpCallback : HttpCallback} {o o' : ReadServer} {c : ℕ}

def start (name : String) (acceptFd : ℕ) : ReadServer :=
  ⟨HttpServer.start name acceptFd, fun _ => []⟩

/-- The record of what a step reads. -/
def record (reads : ℕ → List (List Byte × ℤ)) (receiveTime : ℤ) :
    Option (ℕ × List Byte) → ℕ → List (List Byte × ℤ)
  | none => reads
  | some (c, bytes) => Function.update reads c (reads c ++ [(bytes, receiveTime)])

/-- A step of the server, with what it reads. -/
def next (httpCallback : HttpCallback) (o : ReadServer) (l : HttpServer.Label) :
    Option ReadServer :=
  (o.http.next httpCallback l).map fun s' =>
    match l with
    | .loop l receiveTime => ⟨s', record o.reads receiveTime (o.http.server.readOf l)⟩
    | _ => ⟨s', o.reads⟩

/-- The states a server comes through. -/
def Reaches (httpCallback : HttpCallback) (o o' : ReadServer) : Prop :=
  Reach (next httpCallback) (fun _ _ => True) o o'

/-- The session that gets what was read from one connection. -/
def session (httpCallback : HttpCallback) (o : ReadServer) (c : ℕ) : HttpSession :=
  HttpSession.new.deliver httpCallback (o.reads c)

/-- How a connection goes with its session. -/
structure PlaysAt (httpCallback : HttpCallback) (o : ReadServer) (c : ℕ) : Prop where
  reading : (o.http.context c).Reading
  fresh : (o.http.server.hist c).stage = .fresh → o.reads c = [] ∧ o.http.replies c = []
  running : (o.session httpCallback c).status = .running
  context : (o.http.server.hist c).stage ≠ .fresh →
    (o.session httpCallback c).context = o.http.context c
  same : (o.http.server.hist c).stage.lives →
    o.http.ahead c = (o.session httpCallback c).bare (o.http.context c)
  told : (o.http.server.hist c).stage.over = true →
    ∃ st, o.http.view c =
      { (o.session httpCallback c).bare (o.http.context c) with state := st }

/-- **Behind the calls that are still to come, each connection is its session.** -/
structure Plays (httpCallback : HttpCallback) (o : ReadServer) : Prop where
  served : o.http.Served httpCallback
  clean : o.http.server.Clean
  prompt : o.http.server.Prompt
  busy : o.http.calls ≠ [] → o.http.server.InUser
  about : ∀ call ∈ o.http.calls, (o.http.server.hist call.conn).stage.lives
  plays : ∀ c, o.PlaysAt httpCallback c

lemma start_plays (name : String) (acceptFd : ℕ) : (start name acceptFd).Plays httpCallback where
  served := HttpServer.start_served name acceptFd
  clean := TcpServer.start_clean name acceptFd false
  prompt c h := by simp [start, HttpServer.start, TcpServer.start] at h
  busy h := absurd rfl h
  about call h := by simp [start, HttpServer.start] at h
  plays c := by
    refine ⟨Or.inl rfl, fun _ => ⟨rfl, rfl⟩, rfl, fun h => absurd rfl h, fun h => absurd rfl h.1,
      fun h => ?_⟩
    simp [start, HttpServer.start, TcpServer.start, History.new, Stage.over] at h

lemma lives_congr {s s' : TcpServer Empty} (hseen : TcpServer.SameSeen s s' c) :
    (s'.hist c).stage.lives ↔ (s.hist c).stage.lives := by
  simp only [Stage.lives, ne_eq, hseen.fresh, hseen.past]

/-- A connection that is left alone. -/
lemma PlaysAt.of_same (h : o.PlaysAt httpCallback c)
    (hseen : TcpServer.SameSeen o.http.server o'.http.server c)
    (hcontext : o'.http.context c = o.http.context c)
    (hreplies : o'.http.replies c = o.http.replies c) (hreads : o'.reads c = o.reads c)
    (hcalls : (o'.http.calls.filter fun call => call.conn = c) =
      o.http.calls.filter fun call => call.conn = c) : o'.PlaysAt httpCallback c := by
  have hsession : o'.session httpCallback c = o.session httpCallback c := by
    rw [session, session, hreads]
  refine ⟨hcontext ▸ h.reading, fun hfresh => ?_, hsession ▸ h.running, fun hfresh => ?_,
    fun hlives => ?_, fun hover => ?_⟩
  · rw [hreads, hreplies]
    exact h.fresh (hseen.fresh.mp hfresh)
  · rw [hsession, hcontext]
    exact h.context (mt hseen.fresh.mpr hfresh)
  · rw [hsession, hcontext, HttpServer.ahead_eq hseen hcontext hreplies hcalls]
    exact h.same ((lives_congr hseen).mp hlives)
  · rw [hsession, hcontext, HttpServer.view_eq hseen hcontext hreplies]
    exact h.told (hseen.past ▸ hover)

/-- A connection is accepted: it is a new session. -/
lemma PlaysAt.up {s' : HttpServer} (h : o.Plays httpCallback)
    (hbefore : (o.http.server.hist c).stage = .fresh)
    (hafter : (s'.server.hist c).stage = .established)
    (hinput : (s'.server.conns c).inputBuffer = []) (hstate : s'.server.endState c = .kConnected)
    (hcontext : s'.context c = HttpParser.new) (hreplies : s'.replies = o.http.replies)
    (hcalls : s'.calls = o.http.calls) : PlaysAt httpCallback ⟨s', o.reads⟩ c := by
  obtain ⟨hreads, hnone⟩ := (h.plays c).fresh hbefore
  have hsession : session httpCallback ⟨s', o.reads⟩ c = HttpSession.new := by
    rw [session, hreads]
    rfl
  have hview : s'.view c = HttpSession.new := by
    rw [HttpServer.view, hcontext, hinput, hstate, hreplies, hnone]
    rfl
  have hidle : (s'.calls.filter fun call => call.conn = c) = [] := by
    rw [hcalls, List.filter_eq_nil_iff]
    intro call hcall hconn
    have hlives := (h.about call hcall).1
    rw [of_decide_eq_true hconn] at hlives
    exact hlives hbefore
  refine ⟨by simpa only [hcontext] using HttpParser.new_reading, fun hfresh => ?_,
    by rw [hsession]; rfl, fun _ => by rw [hsession]; exact hcontext.symm, fun _ => ?_,
    fun hover => ?_⟩
  · exact absurd (hafter.symm.trans hfresh) (by simp)
  · rw [HttpServer.ahead, hidle, hsession, hview, hcontext]
    rfl
  · simp [hafter, Stage.over] at hover

/-- `connectDestroyed` begins. -/
lemma PlaysAt.down {s' : HttpServer} (h : o.PlaysAt httpCallback c)
    (hbefore : (o.http.server.hist c).stage = .closed)
    (hafter : (s'.server.hist c).stage = .destroying)
    (hinput : (s'.server.conns c).inputBuffer = (o.http.server.conns c).inputBuffer)
    (hcontext : s'.context = o.http.context) (hreplies : s'.replies = o.http.replies)
    (hidle : o.http.calls = []) : PlaysAt httpCallback ⟨s', o.reads⟩ c := by
  have hlives : (o.http.server.hist c).stage.lives := by simp [hbefore, Stage.lives, Stage.over]
  have hsame := h.same hlives
  rw [HttpServer.ahead, hidle] at hsame
  refine ⟨by simpa only [hcontext] using h.reading, fun hfresh => ?_, h.running,
    fun _ => ?_, fun hlives' => ?_, fun _ => ⟨s'.server.endState c, ?_⟩⟩
  · exact absurd (hafter.symm.trans hfresh) (by simp)
  · simp only [hcontext]
    exact h.context hlives.1
  · exact absurd hlives'.2 (by simp [hafter, Stage.over])
  · calc s'.view c = { o.http.view c with state := s'.server.endState c } := by
          rw [HttpServer.view, hinput, hcontext, hreplies]
          rfl
      _ = { (o.session httpCallback c).bare (o.http.context c) with
            state := s'.server.endState c } := by
          rw [show o.http.view c = _ from hsame]
      _ = _ := by rw [hcontext]; rfl

/-- **A message callback begins**, and its session gets the same bytes. -/
lemma PlaysAt.message {s' : HttpServer} {bytes : List Byte} {t : ℤ}
    (h : o.PlaysAt httpCallback c) (hlives : (o.http.server.hist c).stage.lives)
    (hidle : o.http.calls = [])
    (hinput : (s'.server.conns c).inputBuffer = (o.http.server.conns c).inputBuffer ++ bytes)
    (hstate : s'.server.endState c = o.http.server.endState c)
    (hstage : (s'.server.hist c).stage = (o.http.server.hist c).stage)
    (henter : HttpServer.onMessage httpCallback { o.http with server := s'.server } c t = some s') :
    PlaysAt httpCallback ⟨s', Function.update o.reads c (o.reads c ++ [(bytes, t)])⟩ c := by
  obtain ⟨ok, context, rest, hparse, hs', hconn⟩ := HttpServer.onMessage_spec henter
  have hsame := h.same hlives
  rw [HttpServer.ahead, hidle] at hsame
  have hctx := h.context hlives.1
  have hsuffix := (HttpParser.parseRuquest_ret h.reading hparse).suffix
  have hreading := HttpParser.reading_of_ret h.reading hparse
  -- the session has the input of the connection
  have hbuffer : (o.session httpCallback c).inputBuffer ++ bytes =
      (s'.server.conns c).inputBuffer := by
    rw [hinput]
    exact congrArg (· ++ bytes) (congrArg HttpSession.inputBuffer hsame).symm
  have hsession : session httpCallback
      ⟨s', Function.update o.reads c (o.reads c ++ [(bytes, t)])⟩ c =
      (o.session httpCallback c).onMessage httpCallback bytes t := by
    simp [session, HttpSession.deliver]
  obtain ⟨hcontext, hbare⟩ := HttpSession.onMessage_perform httpCallback h.running c
    (by rw [hbuffer, hctx]; exact hparse) (by rw [hbuffer]; exact hsuffix)
  have hcontext' : s'.context c = if context.gotAll then context.reset else context := by
    rw [hs']
    simp
  have hview : s'.view c = ({ o.session httpCallback c with
      inputBuffer := (o.session httpCallback c).inputBuffer ++ bytes } : HttpSession).bare
        (if context.gotAll then context.reset else context) := by
    calc s'.view c = { o.http.view c with
          context := if context.gotAll then context.reset else context
          inputBuffer := (s'.server.conns c).inputBuffer } := by
          rw [HttpServer.view, hcontext', hstate, hs']
          rfl
      _ = _ := by
          rw [← hbuffer, show o.http.view c = _ from hsame]
          rfl
  refine ⟨by simpa only [hcontext'] using hreading, fun hfresh => ?_, ?_, fun _ => ?_, fun _ => ?_,
    fun hover => ?_⟩
  · exact absurd (hstage.symm.trans hfresh) hlives.1
  · have hstatus := congrArg HttpSession.status hbare
    rw [HttpSession.status_foldl_perform] at hstatus
    rw [hsession]
    exact hstatus.trans h.running
  · rw [hsession, hcontext]
    exact hcontext'.symm
  · have hfilter : (s'.calls.filter fun call => call.conn = c) = s'.calls := by
      rw [List.filter_eq_self]
      intro call hcall
      simpa using hconn call hcall
    rw [HttpServer.ahead, hfilter, hview, hsession, hcontext', hbare, hbuffer]
    rw [hs']
  · rw [hstage] at hover
    exact absurd (hlives.2.symm.trans hover) (by simp)

/-- A connection with a read handler that is next has not been destroyed. -/
lemma Plays.lives_of_read (h : o.Plays httpCallback) (hread : .handleRead c ∈ o.http.server.todo) :
    (o.http.server.hist c).stage.lives := by
  have hsane := h.served.graceful.sane
  obtain ⟨hfresh, hdestroying⟩ := hsane.stage_of_event hread rfl
  have hgone := h.clean.gone_eq_false (hsane.dispatching.registered _ (Or.inr ⟨_, hread, rfl⟩))
  refine ⟨hfresh, ?_⟩
  simp only [TcpServer.gone, Bool.decide_or, Bool.or_eq_false_iff, decide_eq_false_iff_not] at hgone
  cases hstage : (o.http.server.hist c).stage <;> simp_all [Stage.over]

/-- With the loop's thread alone no message is queued late. -/
lemma sendsLate_eq_false (s : TcpServer Empty) (l : TcpServer.Label Empty) :
    s.sendsLate l = false := by
  cases l with
  | resume t => exact t.elim
  | _ => rfl

/-- A step that no session sees. -/
lemma Plays.of_seen {s' : HttpServer} (h : o.Plays httpCallback) (hserved : s'.Served httpCallback)
    (hclean : s'.server.Clean) (hprompt : s'.server.Prompt)
    (hsame : ∀ c, TcpServer.SameSeen o.http.server s'.server c)
    (huser : o.http.server.InUser → s'.server.InUser)
    (hold : s' = { o.http with server := s'.server }) : Plays httpCallback ⟨s', o.reads⟩ := by
  have hcalls : s'.calls = o.http.calls := by rw [hold]
  refine ⟨hserved, hclean, hprompt, fun hne => huser (h.busy fun hnil => hne (hcalls.trans hnil)),
    fun call hcall => ?_, fun c => ?_⟩
  · exact (lives_congr (hsame _)).mpr (h.about call (hcalls ▸ hcall))
  · exact (h.plays c).of_same (hsame c) (congrFun (congrArg HttpServer.context hold) c)
      (congrFun (congrArg HttpServer.replies hold) c) rfl (congrArg (List.filter _) hcalls)

/-- **A step of the loop.** -/
lemma Plays.loop {s' : HttpServer} {l : TcpServer.Label Empty} {t : ℤ} (h : o.Plays httpCallback)
    (hnext : o.http.next httpCallback (.loop l t) = some s') :
    Plays httpCallback ⟨s', record o.reads t (o.http.server.readOf l)⟩ := by
  have hserved := h.served.move (HttpServer.move_of_next hnext)
  obtain ⟨hserver, henter⟩ := HttpServer.next_loop hnext
  have hl : HttpServer.ofUser l = false := by
    simp only [HttpServer.next] at hnext
    split_ifs at hnext with hl
    simpa using hl
  have hsane := h.served.graceful.sane
  have hm := TcpServer.move_of_next hsane.ledger.threadId hserver
  have hclean := h.clean.move hsane (sendsLate_eq_false _ l) hm
  have hprompt := h.prompt.move hm
  have hsees := TcpServer.sees_of_next hsane h.prompt hl hserver
  have hcalls : ¬ o.http.server.InUser → o.http.calls = [] := fun hidle => by
    by_contra hne
    exact hidle (h.busy hne)
  generalize HttpServer.callback o.http.server l = cb at hsees henter
  generalize o.http.server.readOf l = rd at hsees ⊢
  cases hsees with
  | silent hsame huser =>
      have hold : s' = { o.http with server := s'.server } := (Option.some.inj henter).symm
      exact h.of_seen hserved hclean hprompt hsame huser hold
  | @up c hidle hbefore hafter hinput hstate hend hother =>
      have hnew : s' = { o.http with
          server := s'.server
          context := Function.update o.http.context c HttpParser.new } := by
        have hs' := Option.some.inj henter
        rw [HttpServer.onConnection, if_pos hstate] at hs'
        exact hs'.symm
      have hcalls' : s'.calls = o.http.calls := by rw [hnew]
      have hempty := hcalls hidle
      refine ⟨hserved, hclean, hprompt, fun hne => absurd (hcalls'.trans hempty) hne,
        fun call hcall => ?_, fun d => ?_⟩
      · change call ∈ s'.calls at hcall
        rw [hcalls', hempty] at hcall
        simp at hcall
      · by_cases hd : d = c
        · subst hd
          exact PlaysAt.up h hbefore hafter hinput hend (by rw [hnew]; simp) (by rw [hnew]) hcalls'
        · exact (h.plays d).of_same (hother d hd)
            ((congrFun (congrArg HttpServer.context hnew) d).trans (by simp [hd]))
            (congrFun (congrArg HttpServer.replies hnew) d) rfl
            (congrArg (List.filter _) hcalls')
  | @message c bytes hidle hread huser hinput hstate hstage hother =>
      have hempty := hcalls hidle
      have hlives := h.lives_of_read hread
      obtain ⟨ok, context, rest, -, hs', hconn⟩ := HttpServer.onMessage_spec henter
      refine ⟨hserved, hclean, hprompt, fun _ => huser, fun call hcall => ?_, fun d => ?_⟩
      · change (s'.server.hist call.conn).stage.lives
        rw [hconn call hcall, hstage]
        exact hlives
      · by_cases hd : d = c
        · subst hd
          exact (h.plays d).message hlives hempty hinput hstate hstage henter
        · refine (h.plays d).of_same (hother d hd) ?_ ?_ (by simp [record, hd]) ?_
          · exact (congrFun (congrArg HttpServer.context hs') d).trans (by simp [hd])
          · exact congrFun (congrArg HttpServer.replies hs') d
          · rw [hempty, List.filter_nil, List.filter_eq_nil_iff]
            intro call hcall
            simp [hconn call hcall, Ne.symm hd]
  | @down c hidle hbefore hafter hinput hstate hother =>
      have hold : s' = { o.http with server := s'.server } := by
        have hs' := Option.some.inj henter
        rw [HttpServer.onConnection, if_neg (by simp [hstate])] at hs'
        exact hs'.symm
      have hempty := hcalls hidle
      have hcalls' : s'.calls = o.http.calls := by rw [hold]
      refine ⟨hserved, hclean, hprompt, fun hne => absurd (hcalls'.trans hempty) hne,
        fun call hcall => ?_, fun d => ?_⟩
      · change call ∈ s'.calls at hcall
        rw [hcalls', hempty] at hcall
        simp at hcall
      · by_cases hd : d = c
        · subst hd
          exact (h.plays d).down hbefore hafter hinput (by rw [hold]) (by rw [hold]) hempty
        · exact (h.plays d).of_same (hother d hd)
            (congrFun (congrArg HttpServer.context hold) d)
            (congrFun (congrArg HttpServer.replies hold) d) rfl
            (congrArg (List.filter _) hcalls')

/-- The next call of the callback, on its connection. -/
lemma PlaysAt.call {s' : HttpServer} {call : ConnCall} {calls : List ConnCall}
    (h : o.PlaysAt httpCallback call.conn) (hcalls : o.http.calls = call :: calls)
    (hcalls' : s'.calls = calls) (hcontext : s'.context = o.http.context)
    (hlives : (o.http.server.hist call.conn).stage.lives)
    (hlives' : (s'.server.hist call.conn).stage.lives)
    (hview : s'.view call.conn = (o.http.view call.conn).perform call) :
    PlaysAt httpCallback ⟨s', o.reads⟩ call.conn := by
  have hahead : s'.ahead call.conn = o.http.ahead call.conn := by
    rw [HttpServer.ahead, HttpServer.ahead, hcalls, hcalls',
      List.filter_cons_of_pos (by simp), List.foldl_cons, hview]
  refine ⟨by simpa only [hcontext] using h.reading, fun hfresh => absurd hfresh hlives'.1,
    h.running, fun _ => ?_, fun _ => ?_, fun hover => ?_⟩
  · simp only [hcontext]
    exact h.context hlives.1
  · simp only [hcontext]
    exact hahead.trans (h.same hlives)
  · exact absurd (hlives'.2.symm.trans hover) (by simp)

/-- A call of the callback leaves the other connections alone. -/
lemma Plays.call {s' : HttpServer} {call : ConnCall} {calls : List ConnCall}
    (h : o.Plays httpCallback) (hserved : s'.Served httpCallback) (hclean : s'.server.Clean)
    (hprompt : s'.server.Prompt) (huser : s'.server.InUser) (hcalls : o.http.calls = call :: calls)
    (hcalls' : s'.calls = calls) (hcontext : s'.context = o.http.context)
    (hreplies : ∀ d, d ≠ call.conn → s'.replies d = o.http.replies d)
    (hlives : ∀ d, (s'.server.hist d).stage.lives ↔ (o.http.server.hist d).stage.lives)
    (hother : ∀ d, d ≠ call.conn → TcpServer.SameSeen o.http.server s'.server d)
    (hview : s'.view call.conn = (o.http.view call.conn).perform call) :
    Plays httpCallback ⟨s', o.reads⟩ := by
  have hmem : ∀ {call' : ConnCall}, call' ∈ s'.calls → call' ∈ o.http.calls := fun hcall => by
    rw [hcalls, List.mem_cons]
    exact Or.inr (hcalls' ▸ hcall)
  have hhead := h.about call (hcalls ▸ List.mem_cons_self)
  refine ⟨hserved, hclean, hprompt, fun _ => huser,
    fun call' hcall => (hlives _).mpr (h.about call' (hmem hcall)), fun d => ?_⟩
  by_cases hd : d = call.conn
  · subst hd
    exact (h.plays _).call hcalls hcalls' hcontext hhead ((hlives _).mpr hhead) hview
  · refine (h.plays d).of_same (hother d hd) (congrFun hcontext d) (hreplies d hd) rfl ?_
    change s'.calls.filter _ = _
    rw [hcalls, hcalls', List.filter_cons_of_neg (by simpa using Ne.symm hd)]

/-- **A step of the running callback.** -/
lemma Plays.user {s' : HttpServer} {l : HttpServer.Label} (h : o.Plays httpCallback)
    (hl : ∀ l' t, l ≠ .loop l' t) (hnext : o.http.next httpCallback l = some s') :
    Plays httpCallback ⟨s', o.reads⟩ := by
  have hserved := h.served.move (HttpServer.move_of_next hnext)
  have hsane := h.served.graceful.sane
  have hkeep : ∀ {l' : TcpServer.Label Empty}, o.http.server.next l' = some s'.server →
      s'.server.Clean ∧ s'.server.Prompt := fun hserver => by
    have hm := TcpServer.move_of_next hsane.ledger.threadId hserver
    exact ⟨h.clean.move hsane (sendsLate_eq_false _ _) hm, h.prompt.move hm⟩
  cases l with
  | loop l t => exact absurd rfl (hl l t)
  | ret =>
      simp only [HttpServer.next] at hnext
      split_ifs at hnext with hcalls
      obtain ⟨server, hserver, rfl⟩ := Option.map_eq_some_iff.mp hnext
      obtain ⟨hclean, hprompt⟩ := hkeep hserver
      have hseen := TcpServer.seen_userReturn hserver
      refine ⟨hserved, hclean, hprompt, fun hne => absurd hcalls hne, fun call hcall => ?_,
        fun c => (h.plays c).of_same (hseen c) rfl rfl rfl rfl⟩
      exact (lives_congr (hseen _)).mpr (h.about call hcall)
  | call nwrote =>
      simp only [HttpServer.next] at hnext
      split at hnext
      · exact absurd hnext (by simp)
      · rename_i c n calls hcalls
        obtain ⟨server, hserver, rfl⟩ := Option.map_eq_some_iff.mp hnext
        obtain ⟨hclean, hprompt⟩ := hkeep hserver
        obtain ⟨hother, huser, hhist, hinput, hstate⟩ := TcpServer.seen_userRetrieve hserver
        refine h.call hserved hclean hprompt huser hcalls rfl rfl (fun _ _ => rfl)
          (fun d => by simp only [hhist]) hother ?_
        change HttpServer.view _ c = _
        simp only [HttpServer.view, HttpSession.perform, ConnCall.conn, hinput, hstate]
      · rename_i c reply calls hcalls
        obtain ⟨server, hserver, rfl⟩ := Option.map_eq_some_iff.mp hnext
        obtain ⟨hclean, hprompt⟩ := hkeep hserver
        obtain ⟨hseen, huser, hnow⟩ := TcpServer.seen_userSend hsane h.prompt hserver
        refine h.call hserved hclean hprompt huser hcalls rfl rfl
          (fun d hd => Function.update_of_ne hd _ _) (fun d => lives_congr (hseen d))
          (fun d _ => hseen d) ?_
        change HttpServer.view _ c = HttpSession.send _ _
        by_cases hstate : (o.http.server.conns c).state = .kConnected
        · simp [HttpServer.view, HttpSession.send, ConnCall.conn, (hseen c).input, (hseen c).state,
            hnow, hstate]
        · simp [HttpServer.view, HttpSession.send, ConnCall.conn, (hseen c).input, (hseen c).state,
            hnow, hstate]
      · rename_i c calls hcalls
        obtain ⟨server, hserver, rfl⟩ := Option.map_eq_some_iff.mp hnext
        obtain ⟨hclean, hprompt⟩ := hkeep hserver
        obtain ⟨hother, huser, hhist, hinput, hstate⟩ :=
          TcpServer.seen_userShutdown h.prompt hserver
        refine h.call hserved hclean hprompt huser hcalls rfl rfl (fun _ _ => rfl)
          (fun d => by simp only [hhist]) hother ?_
        change HttpServer.view _ c = HttpSession.shutdown _
        by_cases hnow : o.http.server.endState c = .kConnected
        · simp [HttpServer.view, HttpSession.shutdown, ConnCall.conn, hinput, hstate, hnow]
        · simp [HttpServer.view, HttpSession.shutdown, ConnCall.conn, hinput, hstate, hnow]

/-- **Every step keeps the sessions.** -/
theorem Plays.next {l : HttpServer.Label} (h : o.Plays httpCallback)
    (hnext : o.next httpCallback l = some o') : o'.Plays httpCallback := by
  obtain ⟨s', hs', rfl⟩ := Option.map_eq_some_iff.mp hnext
  cases l with
  | loop l t => exact h.loop hs'
  | call nwrote => exact h.user (by simp) hs'
  | ret => exact h.user (by simp) hs'

theorem plays_of_reaches {name : String} {acceptFd : ℕ}
    (h : Reaches httpCallback (start name acceptFd) o) : o.Plays httpCallback :=
  h.invariant (fun _ _ _ ho _ hnext => ho.next hnext) (start_plays name acceptFd)

/-- The bytes handed over for a connection are the replies its view shows. -/
lemma Plays.bytes_eq (h : o.Plays httpCallback) (c : ℕ) :
    (o.http.server.conns c).socket.accepted ++ (o.http.server.conns c).outputBuffer =
      ((o.http.view c).replies.map Reply.bytes).flatten := by
  calc (o.http.server.conns c).socket.accepted ++ (o.http.server.conns c).outputBuffer
      = TcpServer.bytesOf (o.http.server.hist c).handled :=
        (h.served.graceful.streamed c).bytes
    _ = (o.http.taken c).flatten := h.served.bytes_handled c
    _ = ((o.http.view c).replies.map Reply.bytes).flatten := by
        rw [HttpServer.taken, HttpServer.view, List.map_map]
        rfl

/-- A connection shows replies of its session, all of them once no callback is running. -/
lemma Plays.replies_prefix (h : o.Plays httpCallback) (c : ℕ) :
    (o.http.view c).replies <+: (o.session httpCallback c).replies ∧
      (o.http.calls = [] → (o.http.view c).replies = (o.session httpCallback c).replies) := by
  have hplays := h.plays c
  by_cases hfresh : (o.http.server.hist c).stage = .fresh
  · obtain ⟨hreads, hnone⟩ := hplays.fresh hfresh
    have hview : (o.http.view c).replies = [] := by rw [HttpServer.view, hnone]; rfl
    have hsession : (o.session httpCallback c).replies = [] := by rw [session, hreads]; rfl
    rw [hview, hsession]
    exact ⟨List.prefix_rfl, fun _ => rfl⟩
  · cases hover : (o.http.server.hist c).stage.over with
    | false =>
        have hsame := congrArg HttpSession.replies (hplays.same ⟨hfresh, hover⟩)
        change (o.http.ahead c).replies = (o.session httpCallback c).replies at hsame
        rw [← hsame]
        refine ⟨HttpSession.replies_foldl_perform _ _, fun hcalls => ?_⟩
        rw [HttpServer.ahead, hcalls]
        rfl
    | true =>
        obtain ⟨st, hst⟩ := hplays.told hover
        have hsame : (o.http.view c).replies = (o.session httpCallback c).replies := by
          rw [hst]
          rfl
        exact ⟨hsame ▸ List.prefix_rfl, fun _ => hsame⟩

/-- **Every connection is a session of its own.**  In every run of an `HttpServer`, with any
number of connections whose events the loop handles in any order, and for the chunks that were
read from a connection, each with its receive time:

* the session that gets these chunks has not stopped, and what the socket has accepted with what
  is buffered are the first bytes of its replies;
* while no callback is running they are all its replies, and a connection that was built has the
  parser of the session and its unread input;
* then, until `connectDestroyed` sets it, its `state_` is that of the session as well, once a
  `shutdown` that has passed its check has set it. -/
theorem connection_is_session {name : String} {acceptFd : ℕ}
    (h : Reaches httpCallback (start name acceptFd) o) (c : ℕ) :
    (o.session httpCallback c).status = .running ∧
    (o.http.server.conns c).socket.accepted ++ (o.http.server.conns c).outputBuffer <+:
      ((o.session httpCallback c).replies.map Reply.bytes).flatten ∧
    (o.http.calls = [] →
      (o.http.server.conns c).socket.accepted ++ (o.http.server.conns c).outputBuffer =
        ((o.session httpCallback c).replies.map Reply.bytes).flatten ∧
      ((o.http.server.hist c).stage ≠ .fresh →
        o.http.context c = (o.session httpCallback c).context ∧
        (o.http.server.conns c).inputBuffer = (o.session httpCallback c).inputBuffer) ∧
      ((o.http.server.hist c).stage.lives → .setDisconnecting c ∉ o.http.server.todo →
        (o.http.server.conns c).state = (o.session httpCallback c).state)) := by
  have hplays := plays_of_reaches h
  obtain ⟨hfirst, heq⟩ := hplays.replies_prefix c
  have hat := hplays.plays c
  refine ⟨hat.running, ?_, fun hcalls => ⟨?_, fun hbuilt => ⟨(hat.context hbuilt).symm, ?_⟩,
    fun hlives hset => ?_⟩⟩
  · rw [hplays.bytes_eq c]
    obtain ⟨rest, hrest⟩ := hfirst
    rw [← hrest, List.map_append, List.flatten_append]
    exact List.prefix_append _ _
  · rw [hplays.bytes_eq c, heq hcalls]
  · cases hover : (o.http.server.hist c).stage.over with
    | false =>
        have hsame := hat.same ⟨hbuilt, hover⟩
        rw [HttpServer.ahead, hcalls] at hsame
        exact congrArg HttpSession.inputBuffer hsame
    | true =>
        obtain ⟨st, hst⟩ := hat.told hover
        exact congrArg HttpSession.inputBuffer hst
  · have hsame := hat.same hlives
    rw [HttpServer.ahead, hcalls] at hsame
    rw [← TcpServer.endState_of_notMem hset]
    exact congrArg HttpSession.state hsame

/-- Two connections are accepted. -/
def acceptTwo : List HttpServer.Label :=
  ([.loop .test 0, .loop (.poll [(.acceptor, POLLIN)]) 0, .loop .dispatch 0,
      .loop (.exec ⟨some 5, .error, none⟩) 0] : List HttpServer.Label) ++ HttpServer.comesRound ++
    ([.loop (.poll [(.acceptor, POLLIN)]) 0, .loop .dispatch 0,
      .loop (.exec ⟨some 6, .error, none⟩) 0] : List HttpServer.Label) ++ HttpServer.comesRound

/-- The first client sends a part of its request, the second one all of its own; then the first
sends the rest. -/
def interleaved : List HttpServer.Label :=
  acceptTwo ++
    ([.loop (.poll [(.conn 1, POLLIN), (.conn 2, POLLIN)]) 0, .loop .dispatch 0,
      .loop (.exec ⟨none, .data (ascii "GET / HT"), none⟩) 1, .call none, .ret,
      .loop .dispatch 0, .loop (.exec ⟨none, .data (ascii "GET /x HTTP/1.0\r\n\r\n"), none⟩) 1,
      .call none, .call (some 45), .call none, .loop (.exec ⟨none, .error, none⟩) 0] :
        List HttpServer.Label) ++ HttpServer.comesRound ++
    ([.loop (.poll [(.conn 1, POLLIN)]) 0, .loop .dispatch 0,
      .loop (.exec ⟨none, .data (ascii "TP/1.1\r\n\r\n"), none⟩) 2, .call none, .call (some 4),
      .call none, .loop (.exec ⟨none, .error, none⟩) 0] : List HttpServer.Label) ++
    HttpServer.comesRound

/-- Both are answered as if each were alone; of the second response 4 bytes are written. -/
theorem connection_is_session_two : ∃ o : ReadServer,
    o.reads 1 = [(ascii "GET / HT", 1), (ascii "TP/1.1\r\n\r\n", 2)] ∧
    o.reads 2 = [(ascii "GET /x HTTP/1.0\r\n\r\n", 1)] ∧
    (o.http.server.conns 1).socket.accepted.length = 4 ∧
    (∀ c, (o.http.server.conns c).socket.accepted ++ (o.http.server.conns c).outputBuffer =
      ((o.session defaultHttpCallback c).replies.map Reply.bytes).flatten) ∧
    (o.http.server.conns 1).inputBuffer = (o.session defaultHttpCallback 1).inputBuffer ∧
    (o.http.server.conns 1).state = (o.session defaultHttpCallback 1).state := by
  have hrun : ((exec (next defaultHttpCallback) (fun _ _ => True) (start "s" 3) interleaved).map
      fun o => decide (o.reads 1 = [(ascii "GET / HT", 1), (ascii "TP/1.1\r\n\r\n", 2)] ∧
        o.reads 2 = [(ascii "GET /x HTTP/1.0\r\n\r\n", 1)] ∧
        (o.http.server.conns 1).socket.accepted.length = 4 ∧ o.http.calls = [] ∧
        (o.http.server.hist 1).stage = .established ∧ o.http.server.todo = [])) = some true := by
    decide +kernel
  obtain ⟨o, ho, hvals⟩ := Option.map_eq_some_iff.mp hrun
  obtain ⟨hone, htwo, hfour, hcalls, hstage, htodo⟩ := of_decide_eq_true hvals
  have hreach : Reaches defaultHttpCallback (start "s" 3) o := (Reach.refl _).of_exec ho
  obtain ⟨-, -, hquiet⟩ := connection_is_session hreach 1
  obtain ⟨-, hbuilt, hstate⟩ := hquiet hcalls
  refine ⟨o, hone, htwo, hfour, fun c => ?_, (hbuilt (by simp [hstage])).2, ?_⟩
  · obtain ⟨-, -, hall⟩ := connection_is_session hreach c
    exact (hall hcalls).1
  · exact hstate (by simp [hstage, Stage.lives, Stage.over]) (by simp [htodo])

end ReadServer

end Tractor
