import Tractor.Net.Close

/-!
The bytes of a connection, over whole runs of a server.

A message that `send` accepted is first held by the call, then by a functor in the queue
(unless it was sent in the loop's thread), then by `sendInLoop`, which hands it to the
socket and the output buffer.

* `Streamed`: what the socket has accepted and what is buffered is what `sendInLoop` has
  taken over, and behind it the queue has each thread's messages in the thread's order.
* `sent_messages_in_order`: this holds in every reachable state.
-/

namespace Tractor

open Library

/-- The message for `c` that the call holds. -/
def Call.message (c : ℕ) : Option Call → List (List Byte)
  | some (sendInLoop c' message) => if c' = c then [message] else []
  | _ => []

namespace TcpServer

variable {T : Type}

/-- The messages of one thread, in order. -/
def messagesOf [DecidableEq T] (th : Thread T) (l : List (Thread T × List Byte)) :
    List (List Byte) :=
  (l.filter fun x => x.1 = th).map Prod.snd

/-- The bytes of messages, one behind the other. -/
def bytesOf (l : List (Thread T × List Byte)) : List Byte := (l.map Prod.snd).flatten

/-- The message for `c` that a call of `send` in the thread holds: it has passed the check
of `state_` and is not in the queue yet. -/
def inFlight (s : TcpServer T) (c : ℕ) : Thread T → List (List Byte)
  | .loop => []
  | .other t => Call.message c (s.calls t)

variable {s s' : TcpServer T} {c d : ℕ}

@[simp] lemma bytesOf_append (l l' : List (Thread T × List Byte)) :
    bytesOf (l ++ l') = bytesOf l ++ bytesOf l' := by
  simp [bytesOf]

lemma queued_push {cb : ServerFunctor T} (h : s'.loop.queue = s.loop.queue ++ [cb]) (c : ℕ) :
    s'.queued c = s.queued c ++ (cb.sendTo c).toList := by
  rw [queued, h, List.filterMap_append]
  cases hcb : cb.sendTo c <;> simp [queued, hcb]

lemma queued_cons {cb : ServerFunctor T} (h : s.loop.queue = cb :: s'.loop.queue) (c : ℕ) :
    s.queued c = (cb.sendTo c).toList ++ s'.queued c := by
  rw [queued, h]
  cases hcb : cb.sendTo c <;> simp [queued, hcb]

/-- A message goes from the queue or the loop's thread to the connection, and nothing else
changes. -/
lemma sendInLoop_frame {th : Thread T} {message : List Byte} {nwrote : Option ℕ}
    (hok : s.sendInLoop th c message nwrote = .ok s') :
    s'.loop = s.loop ∧ s'.calls = s.calls ∧
      (s'.conns c).socket.accepted ++ (s'.conns c).outputBuffer =
        (s.conns c).socket.accepted ++ (s.conns c).outputBuffer ++ message ∧
      (s'.hist c).handled = (s.hist c).handled ++ [(th, message)] ∧
      (s'.hist c).accepted = (s.hist c).accepted ∧
      ∀ d, d ≠ c → s'.conns d = s.conns d ∧ s'.hist d = s.hist d := by
  obtain ⟨p, ops, -, -, rfl⟩ := sendInLoop_ok hok
  refine ⟨rfl, rfl, ?_, by simp, by simp, fun d hd => by simp [hd]⟩
  simpa using TcpConnection.sendInLoop_bytes (s.conns c) (s.isWriting c) message nwrote

variable [DecidableEq T]

/-- A thread that gets a call that holds the same message holds the same. -/
lemma inFlight_update {t : T} {call : Option Call}
    (hcalls : s'.calls = Function.update s.calls t call)
    (hcall : Call.message c call = Call.message c (s.calls t)) : s'.inFlight c = s.inFlight c := by
  funext th
  cases th with
  | loop => rfl
  | other t' =>
      by_cases ht : t' = t
      · subst ht
        simpa [inFlight, hcalls] using hcall
      · simp [inFlight, hcalls, ht]

@[simp] lemma messagesOf_append (th : Thread T) (l l' : List (Thread T × List Byte)) :
    messagesOf th (l ++ l') = messagesOf th l ++ messagesOf th l' := by
  simp [messagesOf]

lemma messagesOf_loop_queued (s : TcpServer T) (c : ℕ) : messagesOf .loop (s.queued c) = [] := by
  rw [messagesOf, List.map_eq_nil_iff, List.filter_eq_nil_iff]
  intro x hx
  obtain ⟨cb, -, hcb⟩ := List.mem_filterMap.mp hx
  cases cb with
  | sendInLoop t d message =>
      simp only [ServerFunctor.sendTo] at hcb
      split_ifs at hcb
      obtain rfl := Option.some.inj hcb
      simp
  | _ => simp [ServerFunctor.sendTo] at hcb

@[simp] lemma handled_accept (s : TcpServer T) (th : Thread T) (c : ℕ) (message : List Byte)
    (d : ℕ) : ((s.accept th c message).hist d).handled = (s.hist d).handled :=
  apply_update_keep s.hist History.handled (by rfl) d

/-- Where the messages of a connection are. -/
structure Streamed (s : TcpServer T) (c : ℕ) : Prop where
  fresh : (s.hist c).stage = .fresh → (s.hist c).handled = []
  bytes : (s.conns c).socket.accepted ++ (s.conns c).outputBuffer = bytesOf (s.hist c).handled
  order : ∀ th, messagesOf th ((s.hist c).handled ++ s.queued c) ++ s.inFlight c th =
    (s.hist c).accepted th

lemma start_streamed (name : String) (acceptFd : ℕ) (wc : Bool) (c : ℕ) :
    (start name acceptFd wc : TcpServer T).Streamed c where
  fresh _ := rfl
  bytes := rfl
  order th := by cases th <;> rfl

/-- What the messages do not depend on may change. -/
lemma Streamed.of_eq (h : s.Streamed c)
    (hstage : (s'.hist c).stage = .fresh → (s.hist c).stage = .fresh)
    (haccepted : (s'.conns c).socket.accepted = (s.conns c).socket.accepted)
    (hbuffer : (s'.conns c).outputBuffer = (s.conns c).outputBuffer)
    (hhandled : (s'.hist c).handled = (s.hist c).handled)
    (hlog : (s'.hist c).accepted = (s.hist c).accepted)
    (hqueued : s'.queued c = s.queued c) (hflight : s'.inFlight c = s.inFlight c) :
    s'.Streamed c where
  fresh hc := hhandled.trans (h.fresh (hstage hc))
  bytes := by rw [haccepted, hbuffer, hhandled, h.bytes]
  order th := by
    rw [hhandled, hqueued, hlog, hflight]
    exact h.order th

/-- `send` in another thread accepts a message. -/
lemma Streamed.accepted {t : T} {message : List Byte} (h : s.Streamed c)
    (hcall : s.calls t = none) :
    ((s.accept (.other t) d message).setCall t (some (.sendInLoop d message))).Streamed c := by
  by_cases hcd : c = d
  · subst hcd
    refine ⟨fun hc => ?_, ?_, fun th => ?_⟩
    · simpa [setCall, accept, setHist] using
        h.fresh ((stage_accept s (.other t) c message c).symm.trans hc)
    · simpa [setCall, accept, setHist] using h.bytes
    · have horder := h.order th
      by_cases hth : th = .other t
      · subst hth
        simp only [inFlight, hcall, Call.message, List.append_nil] at horder
        simp [setCall, accept, setHist, inFlight, Call.message, queued, ← horder]
      · cases th with
        | loop => simpa [setCall, accept, setHist, inFlight, queued] using horder
        | other t' =>
            have ht : t' ≠ t := by simpa using hth
            simpa [setCall, accept, setHist, inFlight, queued, ht] using horder
  · refine h.of_eq (fun hc => (stage_accept s (.other t) d message c).symm.trans hc) rfl rfl ?_ ?_
      rfl ?_
    · simp [setCall, accept, setHist, hcd]
    · simp [setCall, accept, setHist, hcd]
    · exact inFlight_update rfl (by simp [Call.message, hcall, Ne.symm hcd])

/-- Another thread pushes what its call holds. -/
lemma Streamed.pushed {t : T} {cb : ServerFunctor T} {e : EventLoop (Thread T) (ServerFunctor T)}
    (h : s.Streamed c)
    (hcall : (∃ c message, s.calls t = some (.sendInLoop c message) ∧
        cb = .sendInLoop t c message) ∨
      ∃ c, s.calls t = some (.shutdownInLoop c) ∧ cb = .shutdownInLoop c)
    (hqueue : e.queue = s.loop.queue ++ [cb]) :
    (setCall { s with loop := e } t none).Streamed c := by
  have hqueued : (setCall { s with loop := e } t none).queued c = _ := queued_push hqueue c
  refine ⟨h.fresh, h.bytes, fun th => ?_⟩
  have horder := h.order th
  rw [hqueued]
  change messagesOf th ((s.hist c).handled ++ (s.queued c ++ _)) ++ _ = (s.hist c).accepted th
  -- what the call held is now the end of the queue
  have hmoved : messagesOf th (cb.sendTo c).toList ++
      (setCall { s with loop := e } t none).inFlight c th = s.inFlight c th := by
    cases th with
    | loop =>
        rcases hcall with ⟨d, message, -, rfl⟩ | ⟨d, -, rfl⟩
        · by_cases hd : d = c <;> simp [inFlight, ServerFunctor.sendTo, messagesOf, hd]
        · simp [inFlight, ServerFunctor.sendTo, messagesOf]
    | other t' =>
        by_cases ht : t' = t
        · subst ht
          rcases hcall with ⟨d, message, hcall, rfl⟩ | ⟨d, hcall, rfl⟩
          · by_cases hd : d = c <;>
              simp [inFlight, setCall, ServerFunctor.sendTo, messagesOf, Call.message, hcall, hd]
          · simp [inFlight, setCall, ServerFunctor.sendTo, messagesOf, Call.message, hcall]
        · have ht' : t ≠ t' := Ne.symm ht
          rcases hcall with ⟨d, message, hcall, rfl⟩ | ⟨d, hcall, rfl⟩
          · by_cases hd : d = c <;>
              simp [inFlight, setCall, ServerFunctor.sendTo, messagesOf, hd, ht, ht']
          · simp [inFlight, setCall, ServerFunctor.sendTo, messagesOf, ht]
  rw [← hmoved] at horder
  simpa using horder

/-- A message that waited is handed to its connection. -/
lemma Streamed.ran {t : T} {message : List Byte} {nwrote : Option ℕ}
    {e : EventLoop (Thread T) (ServerFunctor T)} (h : s.Streamed c)
    (hd : (s.hist d).stage ≠ .fresh) (hqueue : s.loop.queue = .sendInLoop t d message :: e.queue)
    (hok : sendInLoop { s with loop := e } (.other t) d message nwrote = .ok s') :
    s'.Streamed c := by
  obtain ⟨hloop, hcalls, hbytes, hhandled, hlog, hother⟩ := sendInLoop_frame hok
  have hstage := stage_sendInLoop hok
  have hflight : s'.inFlight c = s.inFlight c := by
    funext th
    cases th <;> simp [inFlight, hcalls]
  have hqueued : s.queued c = ((ServerFunctor.sendInLoop t d message).sendTo c).toList ++
      s'.queued c := queued_cons (by rw [hloop]; exact hqueue) c
  by_cases hcd : c = d
  · subst hcd
    refine ⟨fun hc => absurd ((hstage c).symm.trans hc) hd, ?_, fun th => ?_⟩
    · rw [hbytes, hhandled, bytesOf_append, ← h.bytes]
      simp [bytesOf]
    · have horder := h.order th
      rw [hhandled, hlog, hflight]
      simpa [hqueued, ServerFunctor.sendTo] using horder
  · obtain ⟨hconn, hhist⟩ := hother c hcd
    refine h.of_eq (fun hc => (hstage c).symm.trans hc) (by rw [hconn]) (by rw [hconn])
      (by rw [hhist]) (by rw [hhist]) ?_ hflight
    simpa [ServerFunctor.sendTo, Ne.symm hcd] using hqueued.symm

/-- The loop's thread sends itself, past the queue. -/
lemma Streamed.userSent {message : List Byte} {nwrote : Option ℕ} (h : s.Streamed c)
    (hd : (s.hist d).stage ≠ .fresh)
    (hok : (s.accept .loop d message).sendInLoop .loop d message nwrote = .ok s') :
    s'.Streamed c := by
  obtain ⟨hloop, hcalls, hbytes, hhandled, hlog, hother⟩ := sendInLoop_frame hok
  have hstage : ∀ d', (s'.hist d').stage = (s.hist d').stage := fun d' =>
    (stage_sendInLoop hok d').trans (stage_accept s .loop d message d')
  have hflight : s'.inFlight c = s.inFlight c := by
    funext th
    cases th <;> simp [inFlight, hcalls, accept, setHist]
  have hqueued : s'.queued c = s.queued c := by rw [queued, hloop]; rfl
  by_cases hcd : c = d
  · subst hcd
    refine ⟨fun hc => absurd ((hstage c).symm.trans hc) hd, ?_, fun th => ?_⟩
    · rw [hbytes, hhandled, bytesOf_append, handled_accept, ← h.bytes]
      simp [accept, setHist, bytesOf]
    · have horder := h.order th
      rw [hhandled, hlog, hflight, hqueued]
      cases th with
      | loop =>
          -- the queue has no message of the loop's thread
          rw [messagesOf_append, messagesOf_loop_queued, List.append_nil] at horder ⊢
          simpa [accept, setHist, messagesOf, inFlight] using horder
      | other t => simpa [accept, setHist, messagesOf, inFlight] using horder
  · obtain ⟨hconn, hhist⟩ := hother c hcd
    refine h.of_eq (fun hc => (hstage c).symm.trans hc) (by rw [hconn]; rfl) (by rw [hconn]; rfl)
      ?_ ?_ hqueued hflight
    · rw [hhist]
      simp [accept, setHist, hcd]
    · rw [hhist]
      simp [accept, setHist, hcd]

/-- Work on the connections and their records that leaves their messages alone. -/
lemma Streamed.of_conns (h : s.Streamed c)
    (hstage : (s'.hist c).stage = .fresh → (s.hist c).stage = .fresh)
    (hconn : (s'.conns c).socket.accepted = (s.conns c).socket.accepted ∧
      (s'.conns c).outputBuffer = (s.conns c).outputBuffer)
    (hhist : (s'.hist c).handled = (s.hist c).handled ∧
      (s'.hist c).accepted = (s.hist c).accepted)
    (hqueue : s'.loop.queue = s.loop.queue) (hcalls : s'.calls = s.calls) : s'.Streamed c := by
  refine h.of_eq hstage hconn.1 hconn.2 hhist.1 hhist.2 (by rw [queued, queued, hqueue]) ?_
  funext th
  cases th <;> simp [inFlight, hcalls]

/-- A connection moves on to another stage of its life. -/
lemma Streamed.of_stage {st : Stage} (h : s.Streamed c) (hst : st ≠ .fresh)
    (hconns : s'.conns = s.conns)
    (hhist : s'.hist = Function.update s.hist d { s.hist d with stage := st })
    (hqueue : s'.loop.queue = s.loop.queue) (hcalls : s'.calls = s.calls) : s'.Streamed c := by
  refine h.of_conns (fun hf => ?_) ⟨by rw [hconns], by rw [hconns]⟩ ⟨?_, ?_⟩ hqueue hcalls
  · rw [hhist] at hf
    by_cases hcd : c = d
    · subst hcd
      simp [hst] at hf
    · simpa [hcd] using hf
  · rw [hhist]
    exact apply_update_keep s.hist History.handled (by rfl) c
  · rw [hhist]
    exact apply_update_keep s.hist History.accepted (by rfl) c

omit [DecidableEq T] in
lemma shutdownInLoop_bytes (s : TcpServer T) (c d : ℕ) :
    ((s.shutdownInLoop c).conns d).socket.accepted = (s.conns d).socket.accepted ∧
      ((s.shutdownInLoop c).conns d).outputBuffer = (s.conns d).outputBuffer :=
  ⟨apply_update_keep s.conns (fun conn => conn.socket.accepted) (by simp) d,
    apply_update_keep s.conns TcpConnection.outputBuffer (by simp) d⟩

/-- Buffered bytes go to the socket. -/
lemma Streamed.wrote {nwrote : Option ℕ} (h : s.Streamed c) (hw : s.isWriting d = true)
    (hok : s.pop.handleWrite d nwrote = .ok s') : s'.Streamed c := by
  have hbytes := TcpConnection.handleWrite_bytes (s.conns d) nwrote
  rcases handleWrite_ok (s := s.pop) hw hok with ⟨-, rfl⟩ | ⟨-, p, ops, -, -, rfl⟩
  all_goals
    refine ⟨h.fresh, ?_, h.order⟩
    by_cases hcd : c = d
    · subst hcd
      simpa [setConn, pop, h.bytes] using hbytes
    · simpa [setConn, pop, hcd] using h.bytes

/-- **Every step keeps the messages together.** -/
theorem Streamed.move {l : Label T} (h : ∀ c, s.Streamed c) (hsane : s.Sane) (hm : Move s l s')
    (c : ℕ) : s'.Streamed c := by
  have hc := h c
  cases hm with
  | refused => exact hc
  | accepted hcall => exact hc.accepted hcall
  | @checked t d hcall =>
      exact hc.of_eq id rfl rfl rfl rfl rfl (inFlight_update rfl (by simp [Call.message, hcall]))
  | pushed hcall hqueue => exact hc.pushed hcall hqueue
  | @disconnecting t d hcall =>
      refine hc.of_eq (fun hf => (stage_setDisconnecting s d c).symm.trans hf) ?_ ?_ ?_ ?_ rfl
        (inFlight_update rfl (by simp [Call.message, hcall]))
      · exact apply_update_keep s.conns (fun conn => conn.socket.accepted) (by rfl) c
      · exact apply_update_keep s.conns TcpConnection.outputBuffer (by rfl) c
      · exact apply_update_keep s.hist History.handled (by rfl) c
      · exact apply_update_keep s.hist History.accepted (by rfl) c
  | looped hqueue hid hpc => exact hc.of_conns id ⟨rfl, rfl⟩ ⟨rfl, rfl⟩ hqueue rfl
  | polled hrep hpc hpc' hqueue => exact hc.of_conns id ⟨rfl, rfl⟩ ⟨rfl, rfl⟩ hqueue rfl
  | dispatched | dropped | userShut => exact hc.of_conns id ⟨rfl, rfl⟩ ⟨rfl, rfl⟩ rfl rfl
  | @connected r todo sockfd s' htodo hfd hok =>
      obtain ⟨-, p, -, rfl⟩ := newConnection_ok hok
      by_cases hcn : c = s.nextConnId
      · -- the new connection has sent nothing
        subst hcn
        have hnil := hc.fresh ((hsane.ledger.ids _).mpr (Or.inr le_rfl))
        refine ⟨fun hf => absurd hf (by simp [pop]), ?_, fun th => ?_⟩
        · simp [pop, hnil, TcpConnection.setState, TcpConnection.new, Socket.new, bytesOf]
        · simpa [pop, queued, inFlight] using hc.order th
      · exact hc.of_conns (fun hf => by simpa [pop, hcn] using hf) (by simp [pop, hcn])
          (by simp [pop, hcn]) rfl rfl
  | @closed r op todo d s' htodo hop hok =>
      obtain ⟨-, -, p, -, rfl⟩ := handleClose_ok hok
      refine hc.of_eq (fun hf => ?_) rfl rfl ?_ ?_ ?_ rfl
      · exact of_update_ne s.hist History.stage (by simp) hf
      · exact apply_update_keep s.hist History.handled (by rfl) c
      · exact apply_update_keep s.hist History.accepted (by rfl) c
      · have hqueued : (s.pop.queueInLoop (.connectDestroyed d)).queued c =
            s.queued c ++ ((ServerFunctor.connectDestroyed d).sendTo c).toList :=
          queued_push (queue_queueInLoop s.pop _) c
        exact hqueued.trans (by simp [ServerFunctor.sendTo])
  | read | userRead =>
      refine hc.of_conns id ⟨?_, ?_⟩ ⟨rfl, rfl⟩ rfl rfl
      · exact apply_update_keep s.conns (fun conn => conn.socket.accepted) (by rfl) c
      · exact apply_update_keep s.conns TcpConnection.outputBuffer (by rfl) c
  | @wrote r todo d s' htodo hw hok => exact hc.wrote hw hok
  | @shutDrained r todo d =>
      exact hc.of_conns id (shutdownInLoop_bytes s.pop d c) ⟨rfl, rfl⟩ rfl rfl
  | completed =>
      refine hc.of_eq id rfl rfl rfl rfl ?_ rfl
      rw [queued_push (s := s) (queue_queueInLoop s.pop _) c]
      simp [ServerFunctor.sendTo]
  | @shutDirect r todo d =>
      have hbytes := shutdownInLoop_bytes (s.pop.setDisconnecting d) d c
      refine hc.of_conns (fun hf => (stage_setDisconnecting s.pop d c).symm.trans hf)
        ⟨hbytes.1.trans ?_, hbytes.2.trans ?_⟩ ⟨?_, ?_⟩ rfl rfl
      · exact apply_update_keep s.conns (fun conn => conn.socket.accepted) (by rfl) c
      · exact apply_update_keep s.conns TcpConnection.outputBuffer (by rfl) c
      · exact apply_update_keep s.hist History.handled (by rfl) c
      · exact apply_update_keep s.hist History.accepted (by rfl) c
  | @removed r todo d s' htodo hok =>
      obtain ⟨p, -, rfl⟩ := removeChannel_ok hok
      exact hc.of_stage (by simp) rfl rfl rfl rfl
  | userSent htodo husable hstate hok => exact hc.userSent (stage_ne_fresh_of_usable husable) hok
  | @ran nwrote cb functors e s' htodo hqueue hpc hpc' hid hok =>
      have hcb : (s.hist cb.conn).stage ≠ .fresh :=
        hsane.known _ (.queue (hqueue ▸ List.mem_cons_self) rfl)
      have hrest : cb.sendTo c = none →
          e.queue.filterMap (ServerFunctor.sendTo c) = s.queued c := by
        intro hnone
        rw [queued, hqueue, List.filterMap_cons_none hnone]
      cases cb with
      | sendInLoop t d message =>
          simp only [runFunctor] at hok
          split_ifs at hok
          exact hc.ran hcb hqueue (Option.some.inj hok)
      | shutdownInLoop d =>
          obtain rfl := Except.ok.inj (Option.some.inj hok)
          have hbytes := shutdownInLoop_bytes { s with loop := e } d c
          exact hc.of_eq id hbytes.1 hbytes.2 rfl rfl (hrest rfl) rfl
      | connectDestroyed d =>
          obtain ⟨-, p, -, rfl⟩ := connectDestroyed_ok (Option.some.inj hok)
          refine hc.of_eq (fun hf => ?_) ?_ ?_ ?_ ?_ (hrest rfl) rfl
          · exact of_update_ne s.hist History.stage (by simp) hf
          · exact apply_update_keep s.conns (fun conn => conn.socket.accepted) (by rfl) c
          · exact apply_update_keep s.conns TcpConnection.outputBuffer (by rfl) c
          · exact apply_update_keep s.hist History.handled (by rfl) c
          · exact apply_update_keep s.hist History.accepted (by rfl) c
      | writeComplete d =>
          obtain rfl := Except.ok.inj (Option.some.inj hok)
          exact hc.of_eq id rfl rfl rfl rfl (hrest rfl) rfl
  | released => exact hc.of_stage (by simp) rfl rfl rfl rfl

theorem streamed_of_reaches {ok : TcpServer T → Label T → Prop} {name : String} {acceptFd : ℕ}
    {wc : Bool} (h : Reaches ok (start name acceptFd wc) s) : s.Sane ∧ ∀ c, s.Streamed c := by
  refine Reach.invariant (I := fun s => s.Sane ∧ ∀ c, s.Streamed c) ?_ h
    ⟨start_sane name acceptFd wc, start_streamed name acceptFd wc⟩
  rintro s l s' ⟨hsane, hstream⟩ - hnext
  exact ⟨hsane.next hnext, Streamed.move hstream hsane (move_of_next hsane.ledger.threadId hnext)⟩

/-- **Messages are sent whole and in order.**  In every reachable state, for any number of
other threads and any results of the writes: what the socket has accepted, what is
buffered and the messages in the queue are the bytes of messages in an order in which each
thread's are those `send` accepted from it, in the order of its calls, but for the one a
call still holds. -/
theorem sent_messages_in_order {name : String} {acceptFd : ℕ} {wc : Bool}
    (h : Reaches (fun _ _ => True) (start name acceptFd wc) s) (c : ℕ) :
    ∃ order : List (Thread T × List Byte),
      (s.conns c).socket.accepted ++ (s.conns c).outputBuffer ++ bytesOf (s.queued c) =
        bytesOf order ∧
      ∀ th, messagesOf th order ++ s.inFlight c th = (s.hist c).accepted th := by
  have hc := (streamed_of_reaches h).2 c
  exact ⟨(s.hist c).handled ++ s.queued c, by rw [bytesOf_append, hc.bytes], hc.order⟩

/-- The loop's thread sends past a message of another thread that waits, of which the
socket then takes one byte; a third thread's call still holds its message. -/
theorem sent_messages_in_order_three : ∃ s : TcpServer Bool,
    (s.conns 1).socket.accepted = [9, 1] ∧ (s.conns 1).outputBuffer = [2] ∧
    s.inFlight 1 (.other false) = [[3]] ∧
    ∃ order : List (Thread Bool × List Byte),
      (s.conns 1).socket.accepted ++ (s.conns 1).outputBuffer ++ bytesOf (s.queued 1) =
        bytesOf order ∧
      ∀ th, messagesOf th order ++ s.inFlight 1 th = (s.hist 1).accepted th := by
  have hrun : ((exec next (fun _ _ => True) (start "s" 3 false)
      (acceptOne Bool ++ ([.send true 1 [1, 2], .resume true, .wakeup (.other true),
        .send false 1 [3], .poll [(.conn 1, POLLIN)], .dispatch, .exec ⟨none, .data [0], none⟩,
        .userSend 1 [9] (some 1), .userReturn, .handled, .swap, .run (some 1)] :
          List (Label Bool)))).map fun s =>
          ((s.conns 1).socket.accepted, (s.conns 1).outputBuffer,
            s.inFlight 1 (.other false))) = some ([9, 1], [2], [[3]]) := by decide +kernel
  obtain ⟨s, hs, hvals⟩ := Option.map_eq_some_iff.mp hrun
  simp only [Prod.mk.injEq] at hvals
  exact ⟨s, hvals.1, hvals.2.1, hvals.2.2, sent_messages_in_order ((Reach.refl _).of_exec hs) 1⟩

end TcpServer

end Tractor
