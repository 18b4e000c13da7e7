import Tractor.Net.Callbacks
import Tractor.Net.Lifetime
import Tractor.Net.Rounds
import Tractor.Net.Watching

/-!
What `send` accepted can be written.

* `Move.untouched`: what the loop's thread leaves as it is when it closes nothing and no callback
  sends.
* `finishing`: the step that brings a round to its end, with a client that takes everything.
* `Delivering`: the round that writes what is buffered for a connection and then runs the functors
  that wait, up to where it stands.
* `messages_can_be_delivered`: **from every `poll` the server can write out all that was sent on a
  connection that is up.**
-/

namespace Tractor

open Library

/-- How many bytes the functor has to write. -/
def ServerFunctor.size {T : Type} : ServerFunctor T → ℕ
  | sendInLoop _ _ message => message.length
  | _ => 0

/-- What is left to do of an event for writing on `c`, of a functor, or of a callback. -/
def Op.easy (c : ℕ) : Op → Bool
  | handleWrite d => d = c
  | shutdownIfDisconnecting _ => true
  | queueWriteComplete _ => true
  | user => true
  | removeChannel _ => true
  | _ => false

namespace TcpServer

variable {T : Type} [DecidableEq T] {s s' : TcpServer T} {l : Label T} {c : ℕ}

/-! ### What stays -/

/-- Where the loop's thread closes nothing and no callback sends, established connections stay so,
and `send` neither accepts a message nor goes on in another thread. -/
lemma Move.untouched (hm : Move s l s') (hsane : s.Sane) (hlocal : l.isLocal = true)
    (hcall : l.isCall = false) (hclose : s.closing l = none) :
    ((s.hist c).stage = .established → (s'.hist c).stage = .established) ∧
      (s'.hist c).accepted = (s.hist c).accepted ∧ s'.calls = s.calls := by
  cases hm with
  | refused | looped | polled | dispatched | dropped | read | shutDrained | completed | userShut |
      userRead =>
      exact ⟨id, rfl, rfl⟩
  | accepted | checked | pushed | disconnecting => simp [Label.isLocal] at hlocal
  | @connected r todo sockfd s' htodo hfd hok =>
      obtain ⟨-, p, -, rfl⟩ := newConnection_ok hok
      have hfresh : (s.hist s.nextConnId).stage = .fresh :=
        (hsane.ledger.ids _).mpr (Or.inr le_rfl)
      refine ⟨fun he => ?_, apply_update_keep s.hist History.accepted (by rfl) c, rfl⟩
      have hne : c ≠ s.nextConnId := by
        rintro rfl
        exact absurd (he.symm.trans hfresh) (by simp)
      simpa [pop, hne] using he
  | @closed r op todo d s' htodo hop hok =>
      rcases hop with rfl | ⟨rfl, hr⟩
      · simp [closing, htodo] at hclose
      · simp [closing, htodo, hr] at hclose
  | wrote htodo hw hok =>
      rcases handleWrite_ok (s := s.pop) hw hok with ⟨-, rfl⟩ | ⟨-, p, ops, -, -, rfl⟩
      · exact ⟨id, rfl, rfl⟩
      · exact ⟨id, rfl, rfl⟩
  | @shutDirect r todo d htodo =>
      refine ⟨fun he => (stage_setDisconnecting s.pop d c).trans he, ?_, rfl⟩
      exact apply_update_keep s.hist History.accepted (by rfl) c
  | @removed r todo d s' htodo hok =>
      obtain ⟨p, -, rfl⟩ := removeChannel_ok hok
      have hstage := hsane.ledger.stage_of_todo (htodo ▸ List.mem_cons_self)
      refine ⟨fun he => ?_, apply_update_keep s.hist History.accepted (by rfl) c, rfl⟩
      have hne : c ≠ d := by
        rintro rfl
        exact absurd (he.symm.trans hstage) (by simp)
      simpa [pop, hne] using he
  | userSent => simp [Label.isCall] at hcall
  | @ran nwrote cb functors e s' htodo hqueue hpc hpc' hid hok =>
      cases cb with
      | sendInLoop t d message =>
          simp only [runFunctor] at hok
          split_ifs at hok
          have hstage := stage_sendInLoop (Option.some.inj hok) c
          obtain ⟨p, ops, -, -, rfl⟩ := sendInLoop_ok (Option.some.inj hok)
          exact ⟨fun he => hstage.trans he,
            apply_update_keep s.hist History.accepted (by rfl) c, rfl⟩
      | connectDestroyed d =>
          obtain ⟨-, p, -, rfl⟩ := connectDestroyed_ok (Option.some.inj hok)
          have hstage := hsane.ledger.stage_of_queue (hqueue ▸ List.mem_cons_self)
          refine ⟨fun he => ?_, apply_update_keep s.hist History.accepted (by rfl) c, rfl⟩
          have hne : c ≠ d := by
            rintro rfl
            exact absurd (he.symm.trans hstage) (by simp)
          simpa [hne] using he
      | shutdownInLoop | writeComplete =>
          obtain rfl := Except.ok.inj (Option.some.inj hok)
          exact ⟨id, rfl, rfl⟩
  | @released d hstage =>
      refine ⟨fun he => ?_, apply_update_keep s.hist History.accepted (by rfl) c, rfl⟩
      have hne : c ≠ d := by
        rintro rfl
        exact absurd (he.symm.trans hstage) (by simp)
      simpa [setStage, setHist, hne] using he

/-! ### A round that writes everything out -/

/-- The next step of a round in which nothing is read, callbacks return at once, and what is
written for `c` is accepted. -/
def finishing (s : TcpServer T) (c : ℕ) : Label T :=
  if s.loop.queueing .loop then .wakeup .loop
  else
    match s.todo with
    | .user :: _ => .userReturn
    | _ :: _ => .exec ⟨none, .error, some (s.conns c).outputBuffer.length⟩
    | [] =>
        match s.loop.pc with
        | .handling => if s.active.isEmpty then .handled else .dispatch
        | .draining => .swap
        | .running (cb :: _) => .run (some cb.size)
        | .running [] => .finish
        | _ => .test

/-- Where the round stands: the event that writes is ahead, or nothing is buffered any more; when
the functors run, the messages for `c` are among them. -/
def DeliveryPlace (s : TcpServer T) (c : ℕ) : Prop :=
  match s.loop.pc with
  | .handling =>
      (s.active = [] ∧ ((s.conns c).outputBuffer = [] ∨ s.todo = [.handleWrite c])) ∨
        (s.active = [.conn c] ∧ s.todo = [] ∧ (s.chan c).revents = POLLOUT)
  | .draining => (s.conns c).outputBuffer = []
  | .running functors => (s.conns c).outputBuffer = [] ∧
      s.queued c = functors.filterMap (ServerFunctor.sendTo c)
  | .testing => (s.conns c).outputBuffer = [] ∧ s.queued c = []
  | _ => False

/-- A round that writes everything out for `c`, of which `send` has accepted these messages. -/
structure Delivering (accepted : Thread T → List (List Byte)) (calls : T → Option Call) (c : ℕ)
    (s : TcpServer T) : Prop where
  graceful : s.Graceful
  clean : s.Clean
  established : (s.hist c).stage = .established
  connected : (s.conns c).state = .kConnected
  accepted : (s.hist c).accepted = accepted
  calls : s.calls = calls
  easy : ∀ op ∈ s.todo, op.easy c = true
  place : s.DeliveryPlace c

section Delivering

variable {accepted : Thread T → List (List Byte)} {calls : T → Option Call}

/-- The step is possible and passes its assertions. -/
lemma Delivering.exists_next (h : s.Delivering accepted calls c) :
    ∃ s', s.next (s.finishing c) = some s' ∧ (s.finishing c).inLoopThread = true ∧
      (s.finishing c).isCall = false ∧ s.closing (s.finishing c) = none := by
  have hid := h.graceful.sane.ledger.threadId
  have heasy := h.easy
  suffices hstep : s.step (s.finishing c) ≠ none ∧ (s.finishing c).inLoopThread = true ∧
      (s.finishing c).isCall = false ∧ s.closing (s.finishing c) = none ∧
      s.accepts (s.finishing c) = false by
    obtain ⟨hstep, hlocal, hcall, hclose, haccept⟩ := hstep
    have hfail := h.clean.no_failure h.graceful.sane (l := s.finishing c)
      (by simp [hclose]) (by simp [haccept])
    cases hres : s.step (s.finishing c) with
    | none => exact absurd hres hstep
    | some r =>
        cases r with
        | error f => exact absurd (failure_eq_some.mpr hres) (by simp [hfail])
        | ok s' => exact ⟨s', next_eq_some.mpr hres, hlocal, hcall, hclose⟩
  have hplace := h.place
  unfold DeliveryPlace at hplace
  cases hqueueing : s.loop.queueing .loop with
  | true =>
      simp [finishing, hqueueing, step, loopStep, EventLoop.step, Label.inLoopThread, Label.isCall,
        closing, accepts]
  | false =>
      have hready : s.ready = true := by simp [ready, hqueueing]
      cases htodo : s.todo with
      | cons op todo =>
          have hop := heasy op (htodo ▸ List.mem_cons_self)
          cases op with
          | user =>
              simp [finishing, hqueueing, htodo, step, hready, Label.inLoopThread, Label.isCall,
                closing, accepts]
          | handleWrite d =>
              obtain rfl : d = c := by simpa [Op.easy] using hop
              simp [finishing, hqueueing, htodo, step, hready, Label.inLoopThread, Label.isCall,
                closing, accepts, execOp, writable]
          | shutdownIfDisconnecting | queueWriteComplete | removeChannel =>
              simp [finishing, hqueueing, htodo, step, hready, Label.inLoopThread, Label.isCall,
                closing, accepts, execOp]
          | accept | handleClose | handleError | handleRead | setDisconnecting =>
              simp [Op.easy] at hop
      | nil =>
          cases hpc : s.loop.pc with
          | outside | polling => simp [hpc] at hplace
          | testing =>
              simp only [finishing, hqueueing, htodo, hpc, Bool.false_eq_true, if_false]
              refine ⟨?_, rfl, rfl, rfl, rfl⟩
              simp only [step, loopStep, EventLoop.step, hpc]
              split_ifs <;> simp
          | handling =>
              cases hactive : s.active with
              | nil =>
                  simp [finishing, hqueueing, htodo, hpc, hactive, step, loopStep, EventLoop.step,
                    hid, Label.inLoopThread, Label.isCall, closing, accepts]
              | cons ref active =>
                  simp [finishing, hqueueing, htodo, hpc, hactive, step, hready,
                    Label.inLoopThread, Label.isCall, closing, accepts]
          | draining =>
              simp [finishing, hqueueing, htodo, hpc, step, loopStep, EventLoop.step,
                Label.inLoopThread, Label.isCall, closing, accepts]
          | running functors =>
              cases functors with
              | nil =>
                  simp [finishing, hqueueing, htodo, hpc, step, loopStep, EventLoop.step, hid,
                    Label.inLoopThread, Label.isCall, closing, accepts]
              | cons cb functors =>
                  simp only [finishing, hqueueing, htodo, hpc, Bool.false_eq_true, if_false]
                  refine ⟨?_, rfl, rfl, rfl, rfl⟩
                  cases cb <;>
                    simp [step, htodo, loopStep, EventLoop.step, hpc, hid, hqueueing,
                      LoopPc.functors, runFunctor, writable, ServerFunctor.size]

omit [DecidableEq T] in
/-- A step that does not work on the connection. -/
lemma Effects.conn_of_none (h : Effects s l s') (hconn : ∀ op, s.connOp l ≠ some (c, op)) :
    s'.conns c = s.conns c := by
  rw [h.conns]
  cases hop : s.connOp l with
  | none => rfl
  | some x =>
      obtain ⟨d, op⟩ := x
      have hne : c ≠ d := by
        rintro rfl
        exact hconn op hop
      simp [perform, hne]

omit [DecidableEq T] in
/-- What is left to do of an easy thing is easy. -/
lemma easy_todoAfter {r : Results} {op : Op} {todo : List Op} (htodo : s.todo = op :: todo)
    (heasy : ∀ op ∈ s.todo, op.easy c = true) :
    ∀ op ∈ s.todoAfter (.exec r), op.easy c = true := by
  have hrest : ∀ op ∈ todo, op.easy c = true := fun op hop =>
    heasy op (htodo ▸ List.mem_cons_of_mem _ hop)
  have hop := heasy op (htodo ▸ List.mem_cons_self)
  cases op with
  | handleWrite d =>
      simp only [todoAfter, htodo]
      split_ifs
      · intro op hop
        simp only [writeCompleteOps, List.mem_append] at hop
        rcases hop with (hop | hop) | hop
        · split_ifs at hop
          · obtain rfl := List.mem_singleton.mp hop
            rfl
          · simp at hop
        · obtain rfl := List.mem_singleton.mp hop
          rfl
        · exact hrest op hop
      · exact hrest
  | shutdownIfDisconnecting | queueWriteComplete | user | removeChannel =>
      simpa [todoAfter, htodo] using hrest
  | accept | handleClose | handleError | handleRead | setDisconnecting => simp [Op.easy] at hop

omit [DecidableEq T] in
/-- What a functor leaves to do is easy. -/
lemma easy_todoAfter_run {nwrote : Option ℕ} {cb : ServerFunctor T}
    {functors : List (ServerFunctor T)} (hcb : s.loop.pc.functors = cb :: functors)
    (heasy : ∀ op ∈ s.todo, op.easy c = true) :
    ∀ op ∈ s.todoAfter (.run nwrote), op.easy c = true := by
  cases cb with
  | sendInLoop t d message =>
      simp only [todoAfter, hcb, completeOps, writeCompleteOps]
      split_ifs <;> simpa [Op.easy] using heasy
  | shutdownInLoop | connectDestroyed | writeComplete =>
      simpa [todoAfter, hcb, Op.easy] using heasy

/-- What an easy thing does to the connection: nothing is buffered behind a write of all that
was, and nothing is added. -/
lemma Delivering.conn_exec (h : s.Delivering accepted calls c) {op : Op} {todo : List Op}
    (htodo : s.todo = op :: todo) {r : Results}
    (hwrite : r.write = some (s.conns c).outputBuffer.length) (heffects : Effects s (.exec r) s') :
    (s'.conns c).state = (s.conns c).state ∧
      ((s.conns c).outputBuffer = [] ∨ op = .handleWrite c → (s'.conns c).outputBuffer = []) := by
  have hdrained := h.graceful.drained c h.established
  have hop := h.easy op (htodo ▸ List.mem_cons_self)
  cases op with
  | handleWrite d =>
      obtain rfl : d = c := by simpa [Op.easy] using hop
      cases hw : s.isWriting d with
      | true =>
          have hne := hdrained.mp hw
          have hconn : s.connOp (.exec r) = some (d, .handleWrite r.write) := by
            simp [connOp, htodo, hw]
          rw [heffects.conns, hconn, perform, Function.update_self, hwrite]
          refine ⟨by simp [ConnOp.run], fun _ => ?_⟩
          obtain ⟨b, rest, hout⟩ := List.exists_cons_of_ne_nil hne
          simp [ConnOp.run, TcpConnection.handleWrite, hout]
      | false =>
          have hnil : (s.conns d).outputBuffer = [] := by
            by_contra hne
            exact absurd (hdrained.mpr hne) (by simp [hw])
          rw [heffects.conn_of_none (by simp [connOp, htodo, hw])]
          exact ⟨rfl, fun _ => hnil⟩
  | shutdownIfDisconnecting d =>
      by_cases hd : d = c
      · subst hd
        rw [heffects.conn_of_none (by simp [connOp, htodo, h.connected])]
        exact ⟨rfl, by simp⟩
      · rw [heffects.conn_of_none (by simp [connOp, htodo, hd])]
        exact ⟨rfl, by simp⟩
  | queueWriteComplete | user | removeChannel =>
      rw [heffects.conn_of_none (by simp [connOp, htodo])]
      exact ⟨rfl, by simp⟩
  | accept | handleClose | handleError | handleRead | setDisconnecting => simp [Op.easy] at hop

/-- What a functor does to the connection when nothing is buffered: its message is written. -/
lemma Delivering.conn_run (h : s.Delivering accepted calls c) {cb : ServerFunctor T}
    {functors : List (ServerFunctor T)} (hpc : s.loop.pc = .running (cb :: functors))
    (hnil : (s.conns c).outputBuffer = []) (heffects : Effects s (.run (some cb.size)) s') :
    (s'.conns c).state = (s.conns c).state ∧ (s'.conns c).outputBuffer = [] := by
  have hidle : s.isWriting c = false := by
    by_contra hw
    exact absurd hnil ((h.graceful.drained c h.established).mp (by simpa using hw))
  have hcb : s.loop.pc.functors = cb :: functors := by rw [hpc]; rfl
  cases cb with
  | sendInLoop t d message =>
      by_cases hd : d = c
      · subst hd
        have hconn : ∀ nwrote, s.connOp (.run nwrote) =
            some (d, .sendInLoop (s.isWriting d) message nwrote) := by simp [connOp, hcb]
        rw [heffects.conns, hconn, perform, Function.update_self, ServerFunctor.size]
        simp [ConnOp.run, TcpConnection.sendInLoop, hidle, hnil, Socket.write]
      · rw [heffects.conn_of_none (by simp [connOp, hcb, hd])]
        exact ⟨rfl, hnil⟩
  | shutdownInLoop d =>
      by_cases hd : d = c
      · subst hd
        have hconn : ∀ nwrote, s.connOp (.run nwrote) =
            some (d, .shutdownInLoop (s.isWriting d)) := by simp [connOp, hcb]
        rw [heffects.conns, hconn, perform, Function.update_self]
        simp [ConnOp.run, hnil]
      · rw [heffects.conn_of_none (by simp [connOp, hcb, hd])]
        exact ⟨rfl, hnil⟩
  | connectDestroyed d =>
      have hclosed := h.graceful.sane.ledger.stage_of_queue (c := d)
        (by rw [EventLoop.queue, hcb]; simp)
      have hd : d ≠ c := by
        rintro rfl
        exact absurd (h.established.symm.trans hclosed) (by simp)
      rw [heffects.conn_of_none (by simp [connOp, hcb, hd])]
      exact ⟨rfl, hnil⟩
  | writeComplete d =>
      rw [heffects.conn_of_none (by simp [connOp, hcb])]
      exact ⟨rfl, hnil⟩

omit [DecidableEq T] in
/-- Only the place, what is buffered, the event and the queue matter. -/
lemma DeliveryPlace.of_eq (h : s.DeliveryPlace c) (htodo : s'.todo = s.todo)
    (hpc : s'.loop.pc = s.loop.pc) (hactive : s'.active = s.active) (hchan : s'.chan c = s.chan c)
    (hconn : s'.conns c = s.conns c) (hqueue : s'.loop.queue = s.loop.queue) :
    s'.DeliveryPlace c := by
  have hqueued : s'.queued c = s.queued c := by rw [queued, queued, hqueue]
  unfold DeliveryPlace at h ⊢
  rw [hpc, hactive, hchan, hconn, hqueued, htodo]
  exact h

/-- Behind a step of something that was left to do nothing is buffered. -/
lemma Delivering.place_exec (h : s.Delivering accepted calls c) {op : Op} {todo : List Op}
    (htodo : s.todo = op :: todo) (hpc : s'.loop.pc = s.loop.pc) (hactive : s'.active = s.active)
    (hout : (s.conns c).outputBuffer = [] ∨ op = .handleWrite c → (s'.conns c).outputBuffer = [])
    (hqueued : s'.queued c = s.queued c) : s'.DeliveryPlace c := by
  have hplace := h.place
  unfold DeliveryPlace at hplace ⊢
  rw [hpc, hactive, hqueued]
  cases hplace' : s.loop.pc with
  | outside | polling => simp [hplace'] at hplace
  | testing =>
      rw [hplace'] at hplace
      exact ⟨hout (Or.inl hplace.1), hplace.2⟩
  | handling =>
      rw [hplace'] at hplace
      rcases hplace with ⟨hnone, hnil | hlast⟩ | ⟨-, hempty, -⟩
      · exact Or.inl ⟨hnone, Or.inl (hout (Or.inl hnil))⟩
      · rw [htodo] at hlast
        exact Or.inl ⟨hnone, Or.inl (hout (Or.inr (List.cons.inj hlast).1))⟩
      · simp [htodo] at hempty
  | draining =>
      rw [hplace'] at hplace
      exact hout (Or.inl hplace)
  | running functors =>
      rw [hplace'] at hplace
      exact ⟨hout (Or.inl hplace.1), hplace.2⟩

/-- What a step of the round leaves for the next one. -/
structure Onward (c : ℕ) (s s' : TcpServer T) : Prop where
  state : (s'.conns c).state = (s.conns c).state
  easy : ∀ op ∈ s'.todo, op.easy c = true
  place : s'.DeliveryPlace c

/-- A callback returns. -/
lemma Delivering.onward_userReturn (h : s.Delivering accepted calls c) {todo : List Op}
    (htodo : s.todo = .user :: todo) (hnext : s.next .userReturn = some s') : Onward c s s' := by
  have hid := h.graceful.sane.ledger.threadId
  have heffects := effects_of_next hid hnext
  obtain ⟨hpc, hactive⟩ := stays_of_next hid rfl hnext
  have hconn := heffects.conn_of_none (c := c) (by simp [connOp])
  have hqueued : s'.queued c = s.queued c := by
    rw [queued, heffects.queue]
    rfl
  refine ⟨by rw [hconn], ?_, h.place_exec htodo hpc hactive ?_ hqueued⟩
  · rw [heffects.todo, todoAfter, htodo]
    exact fun op hop => h.easy op (htodo ▸ List.mem_cons_of_mem _ hop)
  · rw [hconn]
    rintro (hnil | hwrite)
    · exact hnil
    · simp at hwrite

/-- The next easy thing is done, and a write takes all that is buffered. -/
lemma Delivering.onward_exec (h : s.Delivering accepted calls c) {op : Op} {todo : List Op}
    (htodo : s.todo = op :: todo) {r : Results}
    (hwrite : r.write = some (s.conns c).outputBuffer.length)
    (hnext : s.next (.exec r) = some s') : Onward c s s' := by
  have hid := h.graceful.sane.ledger.threadId
  have heffects := effects_of_next hid hnext
  obtain ⟨hpc, hactive⟩ := stays_of_next hid rfl hnext
  obtain ⟨hstate, hout⟩ := h.conn_exec htodo hwrite heffects
  have hop := h.easy op (htodo ▸ List.mem_cons_self)
  have hqueued : s'.queued c = s.queued c := by
    rw [queued, heffects.queue]
    cases op <;> simp_all [queueAfter, queued, ServerFunctor.sendTo, Op.easy]
  refine ⟨hstate, ?_, h.place_exec htodo hpc hactive hout hqueued⟩
  rw [heffects.todo]
  exact easy_todoAfter htodo h.easy

/-- All handlers have run. -/
lemma Delivering.onward_handled (h : s.Delivering accepted calls c)
    (hpc : s.loop.pc = .handling) (hactive : s.active = []) (htodo : s.todo = [])
    (hnext : s.next .handled = some s') : Onward c s s' := by
  have hplace := h.place
  unfold DeliveryPlace at hplace
  rw [hpc] at hplace
  have hnil : (s.conns c).outputBuffer = [] := by simpa [hactive, htodo] using hplace
  rw [next_eq_some] at hnext
  simp only [step] at hnext
  split_ifs at hnext
  obtain ⟨e, he, rfl⟩ := loopStep_map_ok hnext
  obtain ⟨-, -, hpc', -⟩ := EventLoop.step_handled he
  refine ⟨rfl, h.easy, ?_⟩
  unfold DeliveryPlace
  rw [hpc']
  exact hnil

/-- The event for writing is dispatched. -/
lemma Delivering.onward_dispatch (h : s.Delivering accepted calls c)
    (hpc : s.loop.pc = .handling) (hactive : s.active ≠ []) (hnext : s.next .dispatch = some s') :
    Onward c s s' := by
  have hplace := h.place
  unfold DeliveryPlace at hplace
  rw [hpc] at hplace
  obtain ⟨hactive, -, hrevents⟩ := hplace.resolve_left fun hnone => hactive hnone.1
  rw [next_eq_some] at hnext
  simp only [step, hactive] at hnext
  split_ifs at hnext
  obtain rfl := Except.ok.inj (Option.some.inj hnext)
  have hops : s.eventOps (.conn c) = [.handleWrite c] := by
    change handleEvent (s.chan c).revents _ _ _ _ = _
    rw [hrevents]
    rfl
  refine ⟨rfl, by simp [hops, Op.easy], ?_⟩
  unfold DeliveryPlace
  rw [hpc]
  exact Or.inl ⟨rfl, Or.inr hops⟩

/-- The functors that wait are swapped out. -/
lemma Delivering.onward_swap (h : s.Delivering accepted calls c)
    (hpc : s.loop.pc = .draining) (hnext : s.next .swap = some s') : Onward c s s' := by
  have hplace := h.place
  unfold DeliveryPlace at hplace
  rw [hpc] at hplace
  obtain ⟨e, he, rfl⟩ := loopStep_map_ok (next_eq_some.mp hnext)
  obtain ⟨hqueue, -, hpc', -⟩ := EventLoop.step_swap he
  refine ⟨rfl, h.easy, ?_⟩
  unfold DeliveryPlace
  rw [hpc']
  exact ⟨hplace, by rw [queued, hqueue]⟩

/-- All functors have run. -/
lemma Delivering.onward_finish (h : s.Delivering accepted calls c)
    (hpc : s.loop.pc = .running []) (hnext : s.next .finish = some s') : Onward c s s' := by
  have hplace := h.place
  unfold DeliveryPlace at hplace
  rw [hpc] at hplace
  rw [next_eq_some] at hnext
  simp only [step] at hnext
  split_ifs at hnext
  obtain ⟨e, he, rfl⟩ := loopStep_map_ok hnext
  obtain ⟨hqueue, -, hpc', -⟩ := EventLoop.step_finish he
  refine ⟨rfl, h.easy, ?_⟩
  unfold DeliveryPlace
  rw [hpc']
  exact ⟨hplace.1, by rw [queued, hqueue]; exact hplace.2⟩

/-- A functor runs, and its message is written. -/
lemma Delivering.onward_run (h : s.Delivering accepted calls c) {cb : ServerFunctor T}
    {functors : List (ServerFunctor T)} (hpc : s.loop.pc = .running (cb :: functors))
    (hnext : s.next (.run (some cb.size)) = some s') : Onward c s s' := by
  have heffects := effects_of_next h.graceful.sane.ledger.threadId hnext
  have hplace := h.place
  unfold DeliveryPlace at hplace
  rw [hpc] at hplace
  have hcb : s.loop.pc.functors = cb :: functors := by
    rw [hpc]
    rfl
  obtain ⟨-, hpc', -⟩ := running_of_next hcb hnext
  obtain ⟨hstate, hout⟩ := h.conn_run hpc hplace.1 heffects
  refine ⟨hstate, ?_, ?_⟩
  · rw [heffects.todo]
    exact easy_todoAfter_run hcb h.easy
  · unfold DeliveryPlace
    rw [hpc']
    refine ⟨hout, ?_⟩
    -- the queue and the batch lose the same functor
    have hqueue : s.loop.queue = cb :: (functors ++ s.loop.pendingFunctors) := by
      rw [EventLoop.queue, hcb, List.cons_append]
    have hmessages := hplace.2
    rw [queued, hqueue] at hmessages
    rw [queued, heffects.queue, queueAfter, hqueue, List.tail_cons]
    cases hmessage : ServerFunctor.sendTo c cb with
    | none => simpa [List.filterMap_cons, hmessage] using hmessages
    | some x => simpa [List.filterMap_cons, hmessage] using hmessages

/-- Every step of the round. -/
lemma Delivering.onward (h : s.Delivering accepted calls c) (hpc : s.loop.pc ≠ .testing)
    (hnext : s.next (s.finishing c) = some s') : Onward c s s' := by
  cases hqueueing : s.loop.queueing .loop with
  | true =>
      have hl : s.finishing c = .wakeup .loop := by simp [finishing, hqueueing]
      rw [hl] at hnext
      obtain ⟨e, he, rfl⟩ := loopStep_map_ok (next_eq_some.mp hnext)
      obtain ⟨hqueue, hpc', -⟩ := EventLoop.step_wakeup he
      exact ⟨rfl, h.easy, h.place.of_eq rfl hpc' rfl rfl rfl hqueue⟩
  | false =>
      cases htodo : s.todo with
      | cons op todo =>
          by_cases huser : op = .user
          · subst huser
            have hl : s.finishing c = .userReturn := by simp [finishing, hqueueing, htodo]
            exact h.onward_userReturn htodo (hl ▸ hnext)
          · have hl : s.finishing c =
                .exec ⟨none, .error, some (s.conns c).outputBuffer.length⟩ := by
              cases op <;> simp_all [finishing]
            exact h.onward_exec htodo rfl (hl ▸ hnext)
      | nil =>
          cases hplace : s.loop.pc with
          | outside | polling =>
              have hnone := h.place
              simp [DeliveryPlace, hplace] at hnone
          | testing => exact absurd hplace hpc
          | handling =>
              by_cases hactive : s.active = []
              · have hl : s.finishing c = .handled := by
                  simp [finishing, hqueueing, htodo, hplace, hactive]
                exact h.onward_handled hplace hactive htodo (hl ▸ hnext)
              · have hl : s.finishing c = .dispatch := by
                  simp [finishing, hqueueing, htodo, hplace, hactive]
                exact h.onward_dispatch hplace hactive (hl ▸ hnext)
          | draining =>
              have hl : s.finishing c = .swap := by simp [finishing, hqueueing, htodo, hplace]
              exact h.onward_swap hplace (hl ▸ hnext)
          | running functors =>
              cases functors with
              | nil =>
                  have hl : s.finishing c = .finish := by
                    simp [finishing, hqueueing, htodo, hplace]
                  exact h.onward_finish hplace (hl ▸ hnext)
              | cons cb functors =>
                  have hl : s.finishing c = .run (some cb.size) := by
                    simp [finishing, hqueueing, htodo, hplace]
                  exact h.onward_run hplace (hl ▸ hnext)

/-- A step of the round. -/
theorem Delivering.next (h : s.Delivering accepted calls c) (hpc : s.loop.pc ≠ .testing)
    (hnext : s.next (s.finishing c) = some s') : s'.Delivering accepted calls c := by
  obtain ⟨-, -, hlocal, hcall, hclose⟩ := h.exists_next
  have hsane := h.graceful.sane
  have hm := move_of_next hsane.ledger.threadId hnext
  have hown : (s.finishing c).isLocal = true := by
    cases hl : s.finishing c <;> simp_all [Label.isLocal, Label.inLoopThread]
  obtain ⟨hstage, haccepted, hcalls⟩ := hm.untouched (c := c) hsane hown hcall hclose
  obtain ⟨hstate, heasy, hplace⟩ := h.onward hpc hnext
  exact ⟨h.graceful.next hnext, h.clean.move hsane (sendsLate_of_isLocal hown) hm,
    hstage h.established, hstate.trans h.connected, haccepted.trans h.accepted,
    hcalls.trans h.calls, heasy, hplace⟩

/-- The round comes to its end. -/
lemma Delivering.exists_end (h : s.Delivering accepted calls c) :
    ∃ s', Reaches (fun _ l => l.inLoopThread = true ∧ l.isCall = false) s s' ∧
      s'.Delivering accepted calls c ∧ s'.loop.pc.ahead = 1 := by
  refine exists_reach_of_rank (Delivering accepted calls c) (fun s => s.loop.pc.ahead = 1)
    (fun s => toLex (s.round, s.chores)) (fun s hs hgoal => ?_) h
  obtain ⟨s', hnext, hlocal, hcall, -⟩ := hs.exists_next
  have hpc : s.loop.pc ≠ .testing := fun hpc => hgoal (by rw [hpc]; rfl)
  refine ⟨_, s', ⟨hlocal, hcall⟩, hnext, hs.next hpc hnext, ?_⟩
  exact round_chores_lt hs.graceful.sane.ledger.threadId hlocal hcall hnext

omit [DecidableEq T] in
lemma reportsRequested_of_inLoopThread (h : l.inLoopThread = true) :
    s.reportsRequested l = true := by
  cases l <;> simp_all [Label.inLoopThread, reportsRequested]

/-- The round begins: `poll` reports that the connection can be written, if something is buffered
for it. -/
lemma Listening.exists_poll (h : s.Listening) (hgraceful : s.Graceful) (hclean : s.Clean)
    (hpc : s.loop.pc = .polling) (hstage : (s.hist c).stage = .established)
    (hstate : (s.conns c).state = .kConnected) :
    ∃ events, s.reportsRequested (.poll events) = true ∧
      ∃ s', s.next (.poll events) = some s' ∧ s'.Delivering (s.hist c).accepted s.calls c := by
  have hphase := h.sane.dispatching.phase
  simp only [Phase, hpc] at hphase
  -- behind any such report only the place is left to show
  have hreport : ∀ events, s.reportable events = true →
      (∀ s' : TcpServer T, s'.loop.pc = .handling → s'.active = events.map Prod.fst →
        s'.todo = [] → s'.conns = s.conns →
        s.poller.fillActiveChannels events = .ok s'.poller → s'.DeliveryPlace c) →
      ∃ s', s.next (.poll events) = some s' ∧ s'.Delivering (s.hist c).accepted s.calls c := by
    intro events hrep hplace
    have hfail := hclean.no_failure hgraceful.sane (l := .poll events) (by simp [closing])
      (by simp [accepts])
    have hstep : s.step (.poll events) = some (withPoller
        { s with
          loop := { s.loop with pc := .handling }
          active := events.map Prod.fst } (s.poller.fillActiveChannels events)) := by
      simp [step, hrep, loopStep, EventLoop.step, hpc]
    cases hfill : s.poller.fillActiveChannels events with
    | error f =>
        rw [hfill, withPoller] at hstep
        exact absurd (failure_eq_some.mpr hstep) (by simp [hfail])
    | ok p =>
        rw [hfill, withPoller] at hstep
        have hnext := next_eq_some.mpr hstep
        have hm := move_of_next h.sane.ledger.threadId hnext
        exact ⟨_, hnext, hgraceful.next hnext, hclean.move h.sane rfl hm, hstage, hstate, rfl, rfl,
          by simp [hphase.2], hplace _ rfl rfl hphase.2 rfl hfill⟩
  by_cases hnil : (s.conns c).outputBuffer = []
  · refine ⟨[], rfl, hreport [] (by simp [reportable]) fun s' hpc' hactive _ hconns _ => ?_⟩
    unfold DeliveryPlace
    rw [hpc', hactive, hconns]
    exact Or.inl ⟨rfl, Or.inl hnil⟩
  · have hwatched := (h.listens c hstage).1
    -- the channel is writing, so the event was asked for
    have hevents : (s.poller.chan (.conn c)).events =
        Channel.kReadEvent ||| Channel.kWriteEvent :=
      ((h.listens c).events_eq hgraceful hstage).trans (if_neg hnil)
    have hasked : Mask.reportable (s.poller.chan (.conn c)).events POLLOUT = true := by
      rw [hevents]
      decide
    refine ⟨[(.conn c, POLLOUT)], by simp [reportsRequested, hwatched.epoll, hasked],
      hreport _ ?_ fun s' hpc' hactive htodo _ hfill => ?_⟩
    · have hroom := h.room
      simp only [reportable, decide_eq_true_eq]
      exact ⟨hroom, List.nodup_singleton _, by simp [hwatched.epoll]⟩
    · unfold DeliveryPlace
      rw [hpc', hactive, htodo]
      obtain ⟨m, hm, hrevents⟩ :=
        EPoller.revents_fillActiveChannels (c := .conn c) hfill (by simp)
      obtain rfl : m = POLLOUT := by simpa using hm
      exact Or.inr ⟨rfl, rfl, hrevents⟩

end Delivering

/-- **What `send` accepted can be delivered.**  In every run in which no other thread queues a
message for a connection whose close path has run, whenever the loop is in `poll` and a connection
is up, the loop's thread alone, with a kernel that reports what it was asked for, a client that
takes what is written and callbacks that return, comes to a state in which the socket has accepted
all that was sent: the messages of every thread, in their order, up to the one it is still
sending. -/
theorem messages_can_be_delivered {name : String} {acceptFd : ℕ} {wc : Bool}
    (h : Reaches (fun s l => s.sendsLate l = false) (start name acceptFd wc) s)
    (hpc : s.loop.pc = .polling) (hstage : (s.hist c).stage = .established)
    (hstate : (s.conns c).state = .kConnected) :
    ∃ s', Reaches (fun s l => (l.polls = true ∨ l.inLoopThread = true) ∧ l.isCall = false ∧
        s.reportsRequested l = true) s s' ∧
      (s'.conns c).socket.accepted = bytesOf (s'.hist c).handled ∧
      ∀ th, messagesOf th (s'.hist c).handled ++ s.inFlight c th = (s.hist c).accepted th := by
  obtain ⟨-, hclean⟩ := clean_of_reaches h
  have hgraceful := graceful_of_reaches h
  obtain ⟨events, hasked, s₁, hpoll, hdelivering⟩ :=
    (listening_of_reaches h).exists_poll hgraceful hclean hpc hstage hstate
  obtain ⟨s', hreach, hdone, hahead⟩ := hdelivering.exists_end
  have hfirst : Reaches (fun s l => (l.polls = true ∨ l.inLoopThread = true) ∧ l.isCall = false ∧
      s.reportsRequested l = true) s s₁ := (Reach.refl s).tail ⟨Or.inl rfl, rfl, hasked⟩ hpoll
  refine ⟨s', hfirst.trans (hreach.mono fun s l hl =>
    ⟨Or.inr hl.1, hl.2, reportsRequested_of_inLoopThread hl.1⟩), ?_⟩
  -- nothing is buffered, and no message waits
  have hplace := hdone.place
  unfold DeliveryPlace at hplace
  obtain ⟨hnil, hqueued⟩ : (s'.conns c).outputBuffer = [] ∧ s'.queued c = [] := by
    cases hpc' : s'.loop.pc <;> simp_all [LoopPc.ahead]
  have hstreamed := hdone.graceful.streamed c
  refine ⟨by simpa [hnil] using hstreamed.bytes, fun th => ?_⟩
  have horder := hstreamed.order th
  have hflight : s'.inFlight c th = s.inFlight c th := by
    cases th with
    | loop => rfl
    | other t => rw [inFlight, inFlight, hdone.calls]
  rw [hqueued, List.append_nil, hflight, hdone.accepted] at horder
  exact horder

/-- The loop is in `poll` while two thirds of an answer are buffered and a message of another
thread waits. -/
def answerAndMessage : List (Label Unit) :=
  answerInPart ++ [.handled, .swap, .finish, .test, .send () 1 [9], .resume (), .wakeup (.other ())]

theorem messages_can_be_delivered_two : ∃ s s' : TcpServer Unit,
    Reaches (fun s l => (l.polls = true ∨ l.inLoopThread = true) ∧ l.isCall = false ∧
      s.reportsRequested l = true) s s' ∧
    (s.conns 1).socket.accepted = [1] ∧
    (s'.conns 1).socket.accepted = bytesOf (s'.hist 1).handled ∧
    messagesOf .loop (s'.hist 1).handled = [[1, 2, 3]] ∧
    messagesOf (.other ()) (s'.hist 1).handled = [[9]] := by
  have hrun : ((exec next (fun s l => s.sendsLate l = false) (start "s" 3 false)
      answerAndMessage).map fun s => decide ((s.conns 1).socket.accepted = [1] ∧
        (s.hist 1).stage = .established ∧ (s.conns 1).state = .kConnected ∧
        s.loop.pc.ahead = 0 ∧ s.loop.pc.inCallback = false ∧
        s.inFlight 1 (.other ()) = [] ∧ (s.hist 1).accepted .loop = [[1, 2, 3]] ∧
        (s.hist 1).accepted (.other ()) = [[9]])) = some true := by decide +kernel
  obtain ⟨s, hs, hvals⟩ := Option.map_eq_some_iff.mp hrun
  obtain ⟨hbefore, hstage, hstate, hahead, hinside, hflight, hloop, hother⟩ :=
    of_decide_eq_true hvals
  have hpc : s.loop.pc = .polling := by
    cases hpc : s.loop.pc <;> simp_all [LoopPc.ahead, LoopPc.inCallback]
  obtain ⟨s', hreach, hbytes, hmessages⟩ :=
    messages_can_be_delivered ((Reach.refl _).of_exec hs) hpc hstage hstate
  refine ⟨s, s', hreach, hbefore, hbytes, ?_, ?_⟩
  · simpa [inFlight, hloop] using hmessages .loop
  · simpa [hflight, hother] using hmessages (.other ())

end TcpServer

end Tractor
