import Tractor.Net.Stream

/-!
The half-close of a connection, over whole runs of a server.

`shutdown` sets `kDisconnecting` at once, while its `shutdownInLoop` waits in the queue
behind the messages sent before.  `handleWrite_` looks at `kDisconnecting` too, and at the
output buffer, but not at the queue.

* `Halting`: the messages that were handed over when `state_` became `kDisconnecting` come
  first, and a `shutdownInLoop` that waits has them all in front of it.
* `Drained`: the channel of an established connection is writing exactly while bytes are
  buffered.
* `shutdown_truncates_nothing`: whenever `shutdownWrite` is executed the socket has
  accepted all these messages, unless `handleWrite_` or the loop's own `shutdown` came
  before a message in the queue.
-/

namespace Tractor

open Library

namespace TcpServer

variable {T : Type} {s s' : TcpServer T} {c d : ℕ}

/-- The messages handed over before `state_` became `kDisconnecting`, or until now, that
`sendInLoop` has not taken over. -/
def waiting (s : TcpServer T) (c : ℕ) : List (Thread T × List Byte) :=
  ((s.hist c).before.getD ((s.hist c).handled ++ s.queued c)).drop (s.hist c).handled.length

/-- The step shuts down past the queue: `handleWrite_` has found `kDisconnecting`, or
`shutdown` goes on in the loop's thread, while bytes handed over before wait there. -/
def shutsEarly (s : TcpServer T) : Label T → Bool
  | .exec _ =>
      match s.todo with
      | .shutdownIfDisconnecting c :: _ =>
          (s.conns c).state = .kDisconnecting && !s.isWriting c && !(bytesOf (s.waiting c)).isEmpty
      | .setDisconnecting c :: _ => !s.isWriting c && !(bytesOf (s.waiting c)).isEmpty
      | _ => false
  | _ => false

/-- The step executes `shutdownWrite` on the socket. -/
def shutsDown (s s' : TcpServer T) (c : ℕ) : Prop :=
  (s.conns c).socket.shutdownWrites < (s'.conns c).socket.shutdownWrites

/-- `shutdownInLoop` acts on a channel that is not writing. -/
lemma shutsDown_shutdownInLoop (h : shutsDown s (s.shutdownInLoop d) c) :
    c = d ∧ s.isWriting c = false := by
  by_cases hcd : c = d
  · subst hcd
    refine ⟨rfl, ?_⟩
    by_contra hw
    have hw' : s.isWriting c = true := by simpa using hw
    simp [shutsDown, shutdownInLoop, setConn, TcpConnection.shutdownInLoop, hw'] at h
  · simp [shutsDown, shutdownInLoop, setConn, hcd] at h

/-! ### The order of messages and the shutdown -/

/-- Where the messages are that were handed over before `state_` became
`kDisconnecting`. -/
structure Halting (s : TcpServer T) (c : ℕ) : Prop where
  fresh : (s.hist c).stage = .fresh → (s.hist c).before = none
  down : (s.hist c).before ≠ none → (s.conns c).state ≠ .kConnected
  queue : .shutdownInLoop c ∈ s.loop.queue → (s.hist c).before ≠ none
  call : ∀ t, s.calls t = some (.shutdownInLoop c) → (s.hist c).before ≠ none
  front : ∀ b, (s.hist c).before = some b → b <+: (s.hist c).handled ++ s.queued c
  behind : ∀ b l l', (s.hist c).before = some b → s.loop.queue = l ++ .shutdownInLoop c :: l' →
    b <+: (s.hist c).handled ++ l.filterMap (ServerFunctor.sendTo c)

lemma start_halting (name : String) (acceptFd : ℕ) (wc : Bool) (c : ℕ) :
    (start name acceptFd wc : TcpServer T).Halting c := by
  constructor <;>
    simp [start, History.new, EventLoop.queue, EventLoop.new, LoopPc.functors]

/-- What this does not depend on may change, and `state_` may leave `kConnected`. -/
lemma Halting.of_eq (h : s.Halting c)
    (hstage : (s'.hist c).stage = .fresh → (s.hist c).stage = .fresh)
    (hstate : (s'.conns c).state = .kConnected → (s.conns c).state = .kConnected)
    (hbefore : (s'.hist c).before = (s.hist c).before)
    (hhandled : (s'.hist c).handled = (s.hist c).handled)
    (hqueue : s'.loop.queue = s.loop.queue)
    (hcalls : ∀ t, s'.calls t = some (.shutdownInLoop c) → s.calls t = some (.shutdownInLoop c)) :
    s'.Halting c where
  fresh hc := hbefore.trans (h.fresh (hstage hc))
  down hb hc := h.down (hbefore ▸ hb) (hstate hc)
  queue hc := by
    rw [hqueue] at hc
    rw [hbefore]
    exact h.queue hc
  call t ht := hbefore ▸ h.call t (hcalls t ht)
  front b hb := by
    rw [hbefore] at hb
    rw [hhandled, queued, hqueue]
    exact h.front b hb
  behind b l l' hb hl := by
    rw [hbefore] at hb
    rw [hqueue] at hl
    rw [hhandled]
    exact h.behind b l l' hb hl

/-- A functor is added that is not a shutdown, or one behind which `before` is known. -/
lemma Halting.push {cb : ServerFunctor T} (h : s.Halting c)
    (hstage : (s'.hist c).stage = .fresh → (s.hist c).stage = .fresh)
    (hstate : (s'.conns c).state = (s.conns c).state)
    (hbefore : (s'.hist c).before = (s.hist c).before)
    (hhandled : (s'.hist c).handled = (s.hist c).handled)
    (hqueue : s'.loop.queue = s.loop.queue ++ [cb])
    (hcb : cb = .shutdownInLoop c → (s.hist c).before ≠ none)
    (hcalls : ∀ t, s'.calls t = some (.shutdownInLoop c) → s.calls t = some (.shutdownInLoop c)) :
    s'.Halting c where
  fresh hc := hbefore.trans (h.fresh (hstage hc))
  down hb hc := h.down (hbefore ▸ hb) (hstate ▸ hc)
  queue hc := by
    rw [hqueue, List.mem_append, List.mem_singleton] at hc
    rw [hbefore]
    rcases hc with hc | hc
    · exact h.queue hc
    · exact hcb hc.symm
  call t ht := hbefore ▸ h.call t (hcalls t ht)
  front b hb := by
    rw [hbefore] at hb
    rw [hhandled, queued_push hqueue, ← List.append_assoc]
    exact (h.front b hb).trans (List.prefix_append _ _)
  behind b l l' hb hl := by
    rw [hbefore] at hb
    rw [hqueue] at hl
    rw [hhandled]
    -- the shutdown is the new functor, or it waited before
    rcases List.eq_nil_or_concat l' with rfl | ⟨l'', x, rfl⟩
    · obtain ⟨rfl, -⟩ := List.append_inj' hl rfl
      exact h.front b hb
    · rw [List.concat_eq_append, ← List.cons_append, ← List.append_assoc] at hl
      exact h.behind b l l'' hb (List.append_inj' hl rfl).1

/-- `state_` becomes `kDisconnecting`: the first time, everything handed over so far is
kept. -/
lemma Halting.setDisconnecting (h : s.Halting c) (hstage : (s.hist d).stage ≠ .fresh) :
    (s.setDisconnecting d).Halting c := by
  by_cases hcd : c = d
  · subst hcd
    have hbefore : ((s.setDisconnecting c).hist c).before =
        some ((s.hist c).before.getD ((s.hist c).handled ++ s.queued c)) := by
      simp [TcpServer.setDisconnecting, setConn, setHist]
    have hhandled : ((s.setDisconnecting c).hist c).handled = (s.hist c).handled :=
      apply_update_keep s.hist History.handled (by rfl) c
    refine ⟨fun hf => absurd ((stage_setDisconnecting s c c).symm.trans hf) hstage, fun _ => ?_,
      fun _ => by simp [hbefore], fun _ _ => by simp [hbefore], fun b hb => ?_,
      fun b l l' hb hl => ?_⟩
    · simp [TcpServer.setDisconnecting, setConn, TcpConnection.setState]
    · rw [hbefore, Option.some.injEq] at hb
      rw [hhandled, ← hb]
      change _ <+: (s.hist c).handled ++ s.queued c
      cases hold : (s.hist c).before with
      | none => exact List.prefix_rfl
      | some b' => exact h.front b' hold
    · rw [hbefore, Option.some.injEq] at hb
      rw [hhandled, ← hb]
      -- a shutdown that waits means that `before` was kept already
      cases hold : (s.hist c).before with
      | none => exact absurd hold (h.queue (hl ▸ by simp))
      | some b' => exact h.behind b' l l' hold hl
  · refine h.of_eq (fun hf => (stage_setDisconnecting s d c).symm.trans hf) (fun hc => ?_) ?_ ?_ rfl
      fun _ ht => ht
    · simpa [TcpServer.setDisconnecting, setConn, setHist, hcd] using hc
    · simp [TcpServer.setDisconnecting, setConn, setHist, hcd]
    · simp [TcpServer.setDisconnecting, setConn, setHist, hcd]

/-- The first functor of the queue is run: a message of `c` goes to the end of what
`sendInLoop` has taken over. -/
lemma Halting.pop {cb : ServerFunctor T} (h : s.Halting c)
    (hqueue : s.loop.queue = cb :: s'.loop.queue)
    (hstage : (s'.hist c).stage = .fresh → (s.hist c).stage = .fresh)
    (hstate : (s'.conns c).state = .kConnected → (s.conns c).state = .kConnected)
    (hbefore : (s'.hist c).before = (s.hist c).before)
    (hhandled : (s'.hist c).handled = (s.hist c).handled ++ (cb.sendTo c).toList)
    (hcalls : s'.calls = s.calls) : s'.Halting c where
  fresh hc := hbefore.trans (h.fresh (hstage hc))
  down hb hc := h.down (hbefore ▸ hb) (hstate hc)
  queue hc := by
    rw [hbefore]
    exact h.queue (hqueue ▸ List.mem_cons_of_mem _ hc)
  call t ht := by
    rw [hbefore]
    exact h.call t (hcalls ▸ ht)
  front b hb := by
    rw [hbefore] at hb
    rw [hhandled, List.append_assoc, ← queued_cons hqueue c]
    exact h.front b hb
  behind b l l' hb hl := by
    rw [hbefore] at hb
    have hold := h.behind b (cb :: l) l' hb (by rw [hqueue, hl]; rfl)
    rw [hhandled, List.append_assoc]
    cases hcb : cb.sendTo c with
    | none => simpa [List.filterMap_cons, hcb] using hold
    | some x => simpa [List.filterMap_cons, hcb] using hold

lemma bytesOf_prefix {l l' : List (Thread T × List Byte)} (h : l <+: l') :
    bytesOf l <+: bytesOf l' := by
  obtain ⟨x, rfl⟩ := h
  rw [bytesOf_append]
  exact List.prefix_append _ _

/-- If no byte handed over before waits, all of them have been taken over. -/
lemma Halting.bytes_of_waiting {b : List (Thread T × List Byte)} (h : s.Halting c)
    (hb : (s.hist c).before = some b) (hw : bytesOf (s.waiting c) = []) :
    bytesOf b <+: bytesOf (s.hist c).handled := by
  have hfront := (h.front b hb).take (s.hist c).handled.length
  rw [List.take_left] at hfront
  have hdrop : bytesOf (b.drop (s.hist c).handled.length) = [] := by
    simpa [waiting, hb] using hw
  rw [← List.take_append_drop (s.hist c).handled.length b, bytesOf_append, hdrop, List.append_nil]
  exact bytesOf_prefix hfront

section Halting

variable [DecidableEq T]

/-- The loop's thread sends only while nothing is shut down. -/
lemma Halting.userSent {message : List Byte} {nwrote : Option ℕ} (h : s.Halting c)
    (hstate : (s.conns d).state = .kConnected)
    (hok : (s.accept .loop d message).sendInLoop .loop d message nwrote = .ok s') :
    s'.Halting c := by
  have hstage : (s'.hist c).stage = (s.hist c).stage :=
    (stage_sendInLoop hok c).trans (stage_accept s .loop d message c)
  obtain ⟨hloop, hcalls, -, -, -, hother⟩ := sendInLoop_frame hok
  obtain ⟨p, ops, -, -, rfl⟩ := sendInLoop_ok hok
  by_cases hcd : c = d
  · subst hcd
    have hnone : (s.hist c).before = none := by
      by_contra hb
      exact h.down hb hstate
    have hnone' : ((Function.update (s.accept .loop c message).hist c
        { (s.accept .loop c message).hist c with
          handled := ((s.accept .loop c message).hist c).handled ++
            [(.loop, message)] }) c).before = none := by simpa [accept, setHist] using hnone
    refine ⟨fun _ => hnone', fun hb => absurd hnone' hb, fun hc => absurd hnone (h.queue hc),
      fun t ht => absurd hnone (h.call t ht), fun b hb => ?_, fun b l l' hb => ?_⟩
    · exact absurd (hnone'.symm.trans hb) (by simp)
    · exact absurd (hnone'.symm.trans hb) (by simp)
  · obtain ⟨hconn, hhist⟩ := hother c hcd
    refine h.of_eq (fun hf => hstage.symm.trans hf) (fun hc => ?_) ?_ ?_ rfl fun _ ht => ht
    · rw [hconn] at hc
      exact hc
    · rw [hhist]
      simp [accept, setHist, hcd]
    · rw [hhist]
      simp

/-- A call that is not a shutdown waits for nothing. -/
lemma calls_of_update {t : T} {call : Option Call} (hcall : call ≠ some (.shutdownInLoop c))
    (hcalls : s'.calls = Function.update s.calls t call) (t' : T)
    (h : s'.calls t' = some (.shutdownInLoop c)) : s.calls t' = some (.shutdownInLoop c) := by
  rw [hcalls] at h
  by_cases ht : t' = t
  · subst ht
    exact absurd (by simpa using h) hcall
  · simpa [ht] using h

/-- **Every step keeps the shutdown behind the messages.** -/
theorem Halting.move {l : Label T} (h : ∀ c, s.Halting c) (hsane : s.Sane) (hm : Move s l s')
    (c : ℕ) : s'.Halting c := by
  have hc := h c
  cases hm with
  | refused => exact hc
  | @accepted t d message =>
      refine hc.of_eq (fun hf => (stage_accept s _ d message c).symm.trans hf) id ?_ ?_ rfl
        (calls_of_update (by simp) rfl)
      · exact apply_update_keep s.hist History.before (by rfl) c
      · exact apply_update_keep s.hist History.handled (by rfl) c
  | checked => exact hc.of_eq id id rfl rfl rfl (calls_of_update (by simp) rfl)
  | @pushed t cb e hcall hqueue hpc hid =>
      refine hc.push id rfl rfl rfl hqueue (fun hcb => ?_) (calls_of_update (by simp) rfl)
      rcases hcall with ⟨d, message, -, rfl⟩ | ⟨d, hcall, rfl⟩
      · simp at hcb
      · obtain rfl : d = c := by simpa using hcb
        exact hc.call t hcall
  | @disconnecting t d hcall =>
      have hset := hc.setDisconnecting (hsane.known d (.call hcall rfl))
      by_cases hcd : c = d
      · subst hcd
        -- the call that waits now belongs to this shutdown
        refine ⟨hset.fresh, hset.down, hset.queue, fun _ _ => ?_, hset.front, hset.behind⟩
        simp [TcpServer.setDisconnecting, setConn, setHist, setCall]
      · exact hset.of_eq id id rfl rfl rfl (calls_of_update (by simp [Ne.symm hcd]) rfl)
  | looped hqueue => exact hc.of_eq id id rfl rfl hqueue fun _ ht => ht
  | polled hrep hpc hpc' hqueue => exact hc.of_eq id id rfl rfl hqueue fun _ ht => ht
  | dispatched | dropped | userShut => exact hc.of_eq id id rfl rfl rfl fun _ ht => ht
  | @connected r todo sockfd s' htodo hfd hok =>
      obtain ⟨-, p, -, rfl⟩ := newConnection_ok hok
      by_cases hcn : c = s.nextConnId
      · subst hcn
        have hnone := hc.fresh ((hsane.ledger.ids _).mpr (Or.inr le_rfl))
        have hnone' : ((Function.update s.hist s.nextConnId
            { s.hist s.nextConnId with stage := .established }) s.nextConnId).before = none := by
          simpa using hnone
        exact ⟨fun _ => hnone', fun hb => absurd hnone' hb, fun hq => absurd hnone (hc.queue hq),
          fun t ht => absurd hnone (hc.call t ht),
          fun b hb => absurd (hnone'.symm.trans hb) (by simp),
          fun b l l' hb => absurd (hnone'.symm.trans hb) (by simp)⟩
      · exact hc.of_eq (fun hf => by simpa [TcpServer.pop, hcn] using hf)
          (fun hf => by simpa [TcpServer.pop, hcn] using hf) (by simp [TcpServer.pop, hcn])
          (by simp [TcpServer.pop, hcn]) rfl fun _ ht => ht
  | @closed r op todo d s' htodo hop hok =>
      obtain ⟨-, -, p, -, rfl⟩ := handleClose_ok hok
      refine hc.push (fun hf => ?_) rfl ?_ ?_ (queue_queueInLoop s.pop _) (by simp) fun _ ht => ht
      · exact of_update_ne s.hist History.stage (by simp) hf
      · exact apply_update_keep s.hist History.before (by rfl) c
      · exact apply_update_keep s.hist History.handled (by rfl) c
  | read | userRead =>
      refine hc.of_eq id (fun hf => ?_) rfl rfl rfl fun _ ht => ht
      exact (apply_update_keep s.conns TcpConnection.state (by rfl) c).symm.trans hf
  | @wrote r todo d s' htodo hw hok =>
      rcases handleWrite_ok (s := s.pop) hw hok with ⟨-, rfl⟩ | ⟨-, p, ops, -, -, rfl⟩
      all_goals
        refine hc.of_eq id (fun hf => ?_) rfl rfl rfl fun _ ht => ht
        exact (apply_update_keep s.conns TcpConnection.state (by simp [TcpServer.pop])
          c).symm.trans hf
  | @shutDrained r todo d =>
      refine hc.of_eq id (fun hf => ?_) rfl rfl rfl fun _ ht => ht
      exact (apply_update_keep s.conns TcpConnection.state (by simp [TcpServer.pop])
        c).symm.trans hf
  | completed =>
      exact hc.push id rfl rfl rfl (queue_queueInLoop s.pop _) (by simp) fun _ ht => ht
  | @shutDirect r todo d htodo =>
      have hpop : s.pop.Halting c := hc.of_eq id id rfl rfl rfl fun _ ht => ht
      have hset := hpop.setDisconnecting (hsane.known d (.todo (htodo ▸ List.mem_cons_self) rfl))
      refine hset.of_eq id (fun hf => ?_) rfl rfl rfl fun _ ht => ht
      exact (apply_update_keep _ TcpConnection.state (by simp) c).symm.trans hf
  | @removed r todo d s' htodo hok =>
      obtain ⟨p, -, rfl⟩ := removeChannel_ok hok
      refine hc.of_eq (fun hf => ?_) id ?_ ?_ rfl fun _ ht => ht
      · exact of_update_ne s.hist History.stage (by simp) hf
      · exact apply_update_keep s.hist History.before (by rfl) c
      · exact apply_update_keep s.hist History.handled (by rfl) c
  | userSent htodo husable hstate hok => exact hc.userSent hstate hok
  | @ran nwrote cb functors e s' htodo hqueue hpc hpc' hid hok =>
      cases cb with
      | sendInLoop t d message =>
          simp only [runFunctor] at hok
          split_ifs at hok
          have hstage := stage_sendInLoop (Option.some.inj hok) c
          obtain ⟨p, ops, -, -, rfl⟩ := sendInLoop_ok (Option.some.inj hok)
          refine hc.pop hqueue (fun hf => hstage.symm.trans hf) (fun hf => ?_) ?_ ?_ rfl
          · exact (apply_update_keep s.conns TcpConnection.state (by simp) c).symm.trans hf
          · exact apply_update_keep s.hist History.before (by rfl) c
          · by_cases hcd : c = d
            · subst hcd
              simp [ServerFunctor.sendTo]
            · simp [ServerFunctor.sendTo, hcd, Ne.symm hcd]
      | shutdownInLoop d =>
          obtain rfl := Except.ok.inj (Option.some.inj hok)
          refine hc.pop hqueue id (fun hf => ?_) rfl (by simp [ServerFunctor.sendTo]; rfl) rfl
          exact (apply_update_keep s.conns TcpConnection.state (by simp) c).symm.trans hf
      | connectDestroyed d =>
          obtain ⟨-, p, -, rfl⟩ := connectDestroyed_ok (Option.some.inj hok)
          refine hc.pop hqueue (fun hf => ?_) (fun hf => ?_) ?_ ?_ rfl
          · exact of_update_ne s.hist History.stage (by simp) hf
          · exact of_update_ne s.conns TcpConnection.state (by simp [TcpConnection.setState]) hf
          · exact apply_update_keep s.hist History.before (by rfl) c
          · simpa [ServerFunctor.sendTo] using
              apply_update_keep s.hist History.handled (by rfl) c
      | writeComplete d =>
          obtain rfl := Except.ok.inj (Option.some.inj hok)
          exact hc.pop hqueue id id rfl (by simp [ServerFunctor.sendTo]; rfl) rfl
  | @released d =>
      refine hc.of_eq (fun hf => ?_) id ?_ ?_ rfl fun _ ht => ht
      · exact of_update_ne s.hist History.stage (by simp) hf
      · exact apply_update_keep s.hist History.before (by rfl) c
      · exact apply_update_keep s.hist History.handled (by rfl) c

end Halting

/-! ### Buffered bytes -/

/-- The channel of an established connection is writing exactly while bytes are
buffered. -/
def Drained (s : TcpServer T) (c : ℕ) : Prop :=
  (s.hist c).stage = .established → (s.isWriting c = true ↔ (s.conns c).outputBuffer ≠ [])

lemma start_drained (name : String) (acceptFd : ℕ) (wc : Bool) (c : ℕ) :
    (start name acceptFd wc : TcpServer T).Drained c :=
  fun hc => absurd hc (by simp [start, History.new])

lemma Drained.of_eq (h : s.Drained c)
    (hstage : (s'.hist c).stage = .established → (s.hist c).stage = .established)
    (hevents : (s'.chan c).events = (s.chan c).events)
    (hbuffer : (s'.conns c).outputBuffer = (s.conns c).outputBuffer) : s'.Drained c := by
  intro hc
  have hwriting : s'.isWriting c = s.isWriting c := by
    change (s'.chan c).isWriting = (s.chan c).isWriting
    rw [Channel.isWriting, Channel.isWriting, hevents]
  rw [hwriting, hbuffer]
  exact h (hstage hc)

/-- Work on the channel of another connection. -/
lemma Drained.of_touch {p : EPoller ChannelRef} (h : s.Drained c) (hcd : c ≠ d)
    (htouch : s.poller.Touches p (.conn d)) (hpoller : s'.poller = p)
    (hstage : (s'.hist c).stage = .established → (s.hist c).stage = .established)
    (hbuffer : (s'.conns c).outputBuffer = (s.conns c).outputBuffer) : s'.Drained c := by
  refine h.of_eq hstage ?_ hbuffer
  rw [chan, hpoller, htouch.chan _ (by simpa using hcd)]
  rfl

lemma Drained.sendInLoop {th : Thread T} {message : List Byte} {nwrote : Option ℕ}
    (h : s.Drained c) (hlinks : s.Links) (hok : s.sendInLoop th d message nwrote = .ok s') :
    s'.Drained c := by
  have hstage := stage_sendInLoop hok c
  obtain ⟨p, ops, -, hp, rfl⟩ := sendInLoop_ok hok
  by_cases hcd : c = d
  · subst hcd
    intro hc
    have hdrained := TcpConnection.sendInLoop_drained (s.conns c) (s.isWriting c) message nwrote
      (h (hstage.symm.trans hc))
    change (p.chan (.conn c)).isWriting = true ↔ (Function.update s.conns c
      ((s.conns c).sendInLoop (s.isWriting c) message nwrote).1 c).outputBuffer ≠ []
    rw [Function.update_self, ← hdrained]
    rcases hp with ⟨henable, hp⟩ | ⟨henable, rfl⟩
    · obtain ⟨-, -, -, hevents⟩ := EPoller.changeEvents_ok hlinks.valid hp
      rw [henable, Bool.or_true, Channel.isWriting, hevents, Mask.has_or_self _ (by decide)]
    · rw [henable, Bool.or_false]
      rfl
  · have hbuffer : ((Function.update s.conns d
        ((s.conns d).sendInLoop (s.isWriting d) message nwrote).1) c).outputBuffer =
        (s.conns c).outputBuffer := by simp [hcd]
    rcases hp with ⟨-, hp⟩ | ⟨-, rfl⟩
    · obtain ⟨-, htouch, -⟩ := EPoller.changeEvents_ok hlinks.valid hp
      exact h.of_touch hcd htouch rfl (fun hc => hstage.symm.trans hc) hbuffer
    · exact h.of_eq (fun hc => hstage.symm.trans hc) rfl hbuffer

lemma Drained.wrote {nwrote : Option ℕ} (h : s.Drained c) (hlinks : s.Links)
    (hw : s.isWriting d = true) (hok : s.pop.handleWrite d nwrote = .ok s') : s'.Drained c := by
  have hpart := TcpConnection.handleWrite_drained (s.conns d) nwrote
  rcases handleWrite_ok (s := s.pop) hw hok with ⟨hrest, rfl⟩ | ⟨hall, p, ops, -, hp, rfl⟩
  · by_cases hcd : c = d
    · subst hcd
      intro hc
      have hne := (hpart ((h hc).mp hw)).mp hrest
      refine ⟨fun _ => by simpa [setConn, TcpServer.pop] using hne, fun _ => hw⟩
    · exact h.of_eq id rfl (by simp [setConn, TcpServer.pop, hcd])
  · obtain ⟨-, htouch, -, hevents⟩ := EPoller.changeEvents_ok hlinks.valid hp
    by_cases hcd : c = d
    · subst hcd
      intro hc
      have hnil : ((s.conns c).handleWrite nwrote).1.outputBuffer = [] := by
        by_contra hne
        exact absurd (((hpart ((h hc).mp hw)).mpr hne).symm.trans hall) (by simp)
      simp [isWriting, Channel.isWriting, hevents, Mask.has_and_not_self, TcpServer.pop, hnil]
    · exact h.of_touch hcd htouch rfl id (by simp [TcpServer.pop, hcd])

variable [DecidableEq T]

/-- **Every step keeps the channel writing as long as bytes are buffered.** -/
theorem Drained.move {l : Label T} (h : ∀ c, s.Drained c) (hsane : s.Sane) (hm : Move s l s')
    (c : ℕ) : s'.Drained c := by
  have hc := h c
  have hlinks := hsane.links
  cases hm with
  | refused => exact hc
  | accepted => exact hc.of_eq (fun he => (stage_accept s _ _ _ c).symm.trans he) rfl rfl
  | checked | pushed | looped | dispatched | dropped | completed | userShut =>
      exact hc.of_eq id rfl rfl
  | @disconnecting t d =>
      exact hc.of_eq (fun he => (stage_setDisconnecting s d c).symm.trans he) rfl
        (apply_update_keep s.conns TcpConnection.outputBuffer (by rfl) c)
  | polled hrep hpc hpc' hqueue hid hfill =>
      exact hc.of_eq id ((EPoller.fillActiveChannels_ok hfill).chan _).2.2 rfl
  | @connected r todo sockfd s' htodo hfd hok =>
      obtain ⟨-, p, hp, rfl⟩ := newConnection_ok hok
      have hfresh : (s.hist s.nextConnId).stage = .fresh :=
        (hsane.ledger.ids _).mpr (Or.inr le_rfl)
      have hvalid := hlinks.valid.newChannel ((hlinks.linked _).new hfresh) sockfd
      obtain ⟨-, htouch, -, hevents⟩ := EPoller.changeEvents_ok hvalid hp
      by_cases hcn : c = s.nextConnId
      · -- a new connection is reading only and has nothing buffered
        subst hcn
        intro _
        have hread : (p.chan (.conn s.nextConnId)).events = 0 ||| Channel.kReadEvent := by
          simpa [EPoller.newChannel, Channel.new, TcpServer.pop] using hevents
        simp only [isWriting, Channel.isWriting, hread, TcpServer.pop, Function.update_self]
        simp only [TcpConnection.setState, TcpConnection.new]
        decide
      · refine hc.of_eq (fun he => by simpa [TcpServer.pop, hcn] using he) ?_
          (by simp [TcpServer.pop, hcn])
        change (p.chan (.conn c)).events = _
        rw [htouch.chan _ (by simpa [TcpServer.pop] using hcn)]
        simp [EPoller.newChannel, hcn, chan]
  | @closed r op todo d s' htodo hop hok =>
      obtain ⟨-, -, p, hp, rfl⟩ := handleClose_ok hok
      obtain ⟨-, htouch, -⟩ := EPoller.changeEvents_ok hlinks.valid hp
      by_cases hcd : c = d
      · exact fun he => absurd he (by simp [hcd])
      · exact hc.of_touch hcd htouch rfl (fun he => by simpa [TcpServer.pop, hcd] using he) rfl
  | read | userRead =>
      exact hc.of_eq id rfl (apply_update_keep s.conns TcpConnection.outputBuffer (by rfl) c)
  | wrote htodo hw hok => exact hc.wrote hlinks hw hok
  | @shutDrained r todo d => exact hc.of_eq id rfl (shutdownInLoop_bytes s.pop d c).2
  | @shutDirect r todo d =>
      refine hc.of_eq (fun he => (stage_setDisconnecting s.pop d c).symm.trans he) rfl
        ((shutdownInLoop_bytes (s.pop.setDisconnecting d) d c).2.trans ?_)
      exact apply_update_keep s.conns TcpConnection.outputBuffer (by rfl) c
  | @removed r todo d s' htodo hok =>
      obtain ⟨p, hp, rfl⟩ := removeChannel_ok hok
      obtain ⟨-, htouch, -⟩ := EPoller.removeChannel_ok hlinks.valid hp
      by_cases hcd : c = d
      · exact fun he => absurd he (by simp [hcd])
      · exact hc.of_touch hcd htouch rfl (fun he => by simpa [TcpServer.pop, hcd] using he) rfl
  | @userSent d message nwrote todo s' htodo husable hstate hok =>
      have hacc : (s.accept .loop d message).Drained c :=
        hc.of_eq (fun he => (stage_accept s _ _ _ c).symm.trans he) rfl rfl
      exact hacc.sendInLoop (hlinks.accept _ _ _) hok
  | @ran nwrote cb functors e s' htodo hqueue hpc hpc' hid hok =>
      have he : Drained { s with loop := e } c := hc.of_eq id rfl rfl
      have helinks : Links { s with loop := e } := hlinks.of_same rfl rfl rfl fun _ => rfl
      cases cb with
      | sendInLoop t d message =>
          simp only [runFunctor] at hok
          split_ifs at hok
          exact he.sendInLoop helinks (Option.some.inj hok)
      | shutdownInLoop d =>
          obtain rfl := Except.ok.inj (Option.some.inj hok)
          exact hc.of_eq id rfl (shutdownInLoop_bytes { s with loop := e } d c).2
      | connectDestroyed d =>
          obtain ⟨-, p, hp, rfl⟩ := connectDestroyed_ok (Option.some.inj hok)
          obtain ⟨-, htouch, -⟩ := EPoller.changeEvents_ok hlinks.valid hp
          by_cases hcd : c = d
          · exact fun he => absurd he (by simp [hcd])
          · exact hc.of_touch hcd htouch rfl (fun he => by simpa [hcd] using he) (by simp [hcd])
      | writeComplete d =>
          obtain rfl := Except.ok.inj (Option.some.inj hok)
          exact he.of_eq id rfl rfl
  | @released d =>
      exact hc.of_eq (fun he => of_update_ne s.hist History.stage (by simp) he) rfl rfl

/-! ### The half-close -/

/-- **What a step does to the record of a connection**: it may keep what has been handed over
as its state becomes `kDisconnecting`, and only the user's `send` adds a message of the loop's
thread. -/
lemma Move.record {l : Label T} (hm : Move s l s') (c : ℕ) :
    ((s'.hist c).before = (s.hist c).before ∨
      (s'.hist c).before = some ((s.hist c).before.getD ((s.hist c).handled ++ s.queued c))) ∧
    ((s'.hist c).accepted .loop = (s.hist c).accepted .loop ∨
      ∃ d message nwrote, l = .userSend d message nwrote) := by
  have hsame : ∀ {h : History T}, (h.before, h.accepted .loop) =
      ((s.hist c).before, (s.hist c).accepted .loop) →
      (h.before = (s.hist c).before ∨
        h.before = some ((s.hist c).before.getD ((s.hist c).handled ++ s.queued c))) ∧
      (h.accepted .loop = (s.hist c).accepted .loop ∨
        ∃ d message nwrote, l = .userSend d message nwrote) := fun heq => by
    rw [Prod.mk.injEq] at heq
    exact ⟨Or.inl heq.1, Or.inl heq.2⟩
  have hkeep : ∀ {d : ℕ} {h : History T}, (h.before, h.accepted .loop) =
      ((s.hist d).before, (s.hist d).accepted .loop) →
      ((Function.update s.hist d h c).before, (Function.update s.hist d h c).accepted .loop) =
        ((s.hist c).before, (s.hist c).accepted .loop) := fun heq =>
    apply_update_keep s.hist (fun h => (h.before, h.accepted .loop)) heq c
  have hset : ∀ d, (((s.setDisconnecting d).hist c).before = (s.hist c).before ∨
      ((s.setDisconnecting d).hist c).before =
        some ((s.hist c).before.getD ((s.hist c).handled ++ s.queued c))) ∧
      ((s.setDisconnecting d).hist c).accepted .loop = (s.hist c).accepted .loop := by
    intro d
    refine ⟨?_, apply_update_keep s.hist (fun h => h.accepted .loop) (by rfl) c⟩
    by_cases hcd : c = d
    · subst hcd
      exact Or.inr (by simp [setDisconnecting, setConn, setHist])
    · exact Or.inl (by simp [setDisconnecting, setConn, setHist, hcd])
  cases hm with
  | refused | checked | pushed | looped | polled | dispatched | dropped | read | shutDrained |
    completed | userShut | userRead => exact hsame rfl
  | accepted => exact hsame (hkeep (by simp))
  | released => exact hsame (hkeep (by rfl))
  | disconnecting | shutDirect => exact ⟨(hset _).1, Or.inl (hset _).2⟩
  | connected htodo hfd hok =>
      obtain ⟨-, p, -, rfl⟩ := newConnection_ok hok
      exact hsame (hkeep (by rfl))
  | closed htodo hop hok =>
      obtain ⟨-, -, p, -, rfl⟩ := handleClose_ok hok
      exact hsame (hkeep (by rfl))
  | wrote htodo hw hok =>
      rcases handleWrite_ok (s := s.pop) hw hok with ⟨-, rfl⟩ | ⟨-, p, ops, -, -, rfl⟩
      · exact hsame rfl
      · exact hsame rfl
  | removed htodo hok =>
      obtain ⟨p, -, rfl⟩ := removeChannel_ok hok
      exact hsame (hkeep (by rfl))
  | @userSent d message nwrote todo s' htodo husable hstate hok =>
      obtain ⟨p, ops, -, -, rfl⟩ := sendInLoop_ok hok
      refine ⟨Or.inl ?_, Or.inr ⟨d, message, nwrote, rfl⟩⟩
      refine (apply_update_keep (s.accept .loop d message).hist History.before (by rfl) c).trans ?_
      exact apply_update_keep s.hist History.before (by rfl) c
  | @ran nwrote cb functors e s' htodo hqueue hpc hpc' hid hok =>
      cases cb with
      | sendInLoop t d message =>
          simp only [runFunctor] at hok
          split_ifs at hok
          obtain ⟨p, ops, -, -, rfl⟩ := sendInLoop_ok (Option.some.inj hok)
          exact hsame (hkeep (by rfl))
      | shutdownInLoop d =>
          obtain rfl := Except.ok.inj (Option.some.inj hok)
          exact hsame rfl
      | connectDestroyed d =>
          obtain ⟨-, p, -, rfl⟩ := connectDestroyed_ok (Option.some.inj hok)
          exact hsame (hkeep (by rfl))
      | writeComplete d =>
          obtain rfl := Except.ok.inj (Option.some.inj hok)
          exact hsame rfl

/-- The user's `send` adds its message if the connection is connected. -/
lemma accepted_userSend {message : List Byte} {nwrote : Option ℕ}
    (h : s.next (.userSend d message nwrote) = some s') (c : ℕ) :
    (s'.hist c).accepted .loop = (s.hist c).accepted .loop ++
      if c = d ∧ (s.conns d).state = .kConnected then [message] else [] := by
  have hstep := next_eq_some.mp h
  simp only [step] at hstep
  split_ifs at hstep with hcan hstate
  · obtain ⟨p, ops, -, -, rfl⟩ := sendInLoop_ok (Option.some.inj hstep)
    by_cases hcd : c = d
    · subst hcd
      simp [accept, setHist, hstate]
    · simp [accept, setHist, hcd]
  · obtain rfl := Except.ok.inj (Option.some.inj hstep)
    simp [hstate]

/-- What was kept when `state_` became `kDisconnecting` stays. -/
lemma Move.before {l : Label T} {b : List (Thread T × List Byte)} (hm : Move s l s')
    (hb : (s.hist c).before = some b) : (s'.hist c).before = some b := by
  rcases (hm.record c).1 with heq | heq
  · exact heq.trans hb
  · rw [heq, hb]
    rfl

/-- Every way `shutdownWrite` is executed: in all of them the channel is not writing. -/
inductive HalfCloses (s : TcpServer T) (c : ℕ) : Label T → TcpServer T → Prop
  | drained {r : Results} {todo : List Op} (htodo : s.todo = .shutdownIfDisconnecting c :: todo)
      (hstate : (s.conns c).state = .kDisconnecting) :
      HalfCloses s c (.exec r) (s.pop.shutdownInLoop c)
  | direct {r : Results} {todo : List Op} (htodo : s.todo = .setDisconnecting c :: todo) :
      HalfCloses s c (.exec r) ((s.pop.setDisconnecting c).shutdownInLoop c)
  | queued {nwrote : Option ℕ} {e : EventLoop (Thread T) (ServerFunctor T)}
      (hqueue : s.loop.queue = .shutdownInLoop c :: e.queue) :
      HalfCloses s c (.run nwrote) (shutdownInLoop { s with loop := e } c)

lemma halfCloses_of_move {l : Label T} (hm : Move s l s') (h : shutsDown s s' c) :
    HalfCloses s c l s' ∧ s.isWriting c = false := by
  have hsame : ∀ {P : Prop},
      (s'.conns c).socket.shutdownWrites = (s.conns c).socket.shutdownWrites → P :=
    fun heq => absurd h (by simp [shutsDown, heq])
  have hkeep : ∀ {d : ℕ} {conn : TcpConnection},
      conn.socket.shutdownWrites = (s.conns d).socket.shutdownWrites →
      (Function.update s.conns d conn c).socket.shutdownWrites =
        (s.conns c).socket.shutdownWrites := fun hh =>
    apply_update_keep s.conns (fun conn => conn.socket.shutdownWrites) hh c
  cases hm with
  | refused | accepted | checked | pushed | looped | polled | dispatched | dropped | completed |
    userShut | released => exact hsame rfl
  | disconnecting => exact hsame (hkeep (by rfl))
  | @connected r todo sockfd s' htodo hfd hok =>
      obtain ⟨-, p, -, rfl⟩ := newConnection_ok hok
      by_cases hcn : c = s.nextConnId
      · simp [shutsDown, TcpServer.pop, hcn, TcpConnection.setState, TcpConnection.new,
          Socket.new] at h
      · exact hsame (by simp [TcpServer.pop, hcn])
  | closed htodo hop hok =>
      obtain ⟨-, -, p, -, rfl⟩ := handleClose_ok hok
      exact hsame rfl
  | read | userRead => exact hsame (hkeep (by rfl))
  | wrote htodo hw hok =>
      rcases handleWrite_ok (s := s.pop) hw hok with ⟨-, rfl⟩ | ⟨-, p, ops, -, -, rfl⟩
      · exact hsame (hkeep (by simp [TcpServer.pop]))
      · exact hsame (hkeep (by simp [TcpServer.pop]))
  | shutDrained htodo hstate =>
      obtain ⟨rfl, hw⟩ := shutsDown_shutdownInLoop (s := s.pop) h
      exact ⟨.drained htodo hstate, hw⟩
  | @shutDirect r todo d htodo =>
      have h' : shutsDown (s.pop.setDisconnecting d) ((s.pop.setDisconnecting d).shutdownInLoop d)
          c := by
        rw [shutsDown]
        refine lt_of_eq_of_lt ?_ h
        exact hkeep (by rfl)
      obtain ⟨rfl, hw⟩ := shutsDown_shutdownInLoop h'
      exact ⟨.direct htodo, hw⟩
  | removed htodo hok =>
      obtain ⟨p, -, rfl⟩ := removeChannel_ok hok
      exact hsame rfl
  | userSent htodo husable hstate hok =>
      obtain ⟨p, ops, -, -, rfl⟩ := sendInLoop_ok hok
      exact hsame (hkeep (by simp [accept, setHist]))
  | @ran nwrote cb functors e s' htodo hqueue hpc hpc' hid hok =>
      cases cb with
      | sendInLoop t d message =>
          simp only [runFunctor] at hok
          split_ifs at hok
          obtain ⟨p, ops, -, -, rfl⟩ := sendInLoop_ok (Option.some.inj hok)
          exact hsame (hkeep (by simp))
      | shutdownInLoop d =>
          obtain rfl := Except.ok.inj (Option.some.inj hok)
          obtain ⟨rfl, hw⟩ := shutsDown_shutdownInLoop (s := { s with loop := e }) h
          exact ⟨.queued hqueue, hw⟩
      | connectDestroyed d =>
          obtain ⟨-, p, -, rfl⟩ := connectDestroyed_ok (Option.some.inj hok)
          exact hsame (hkeep (by rfl))
      | writeComplete d =>
          obtain rfl := Except.ok.inj (Option.some.inj hok)
          exact hsame rfl

/-- What holds of the messages and the shutdown in every reachable state. -/
structure Graceful (s : TcpServer T) : Prop where
  sane : s.Sane
  streamed : ∀ c, s.Streamed c
  halting : ∀ c, s.Halting c
  drained : ∀ c, s.Drained c

lemma Graceful.next {l : Label T} (h : s.Graceful) (hnext : s.next l = some s') : s'.Graceful := by
  have hm := move_of_next h.sane.ledger.threadId hnext
  exact ⟨h.sane.next hnext, Streamed.move h.streamed h.sane hm, Halting.move h.halting h.sane hm,
    Drained.move h.drained h.sane hm⟩

lemma graceful_of_reaches {ok : TcpServer T → Label T → Prop} {name : String} {acceptFd : ℕ}
    {wc : Bool} (h : Reaches ok (start name acceptFd wc) s) : s.Graceful :=
  h.invariant (fun _ _ _ hs _ hnext => hs.next hnext)
    ⟨start_sane name acceptFd wc, start_streamed name acceptFd wc, start_halting name acceptFd wc,
      start_drained name acceptFd wc⟩

/-- **`shutdownWrite` waits for the buffer**: it is executed only while nothing is buffered
and the socket has accepted every message that `sendInLoop` has taken over. -/
lemma Graceful.drained_of_shutsDown {l : Label T} (h : s.Graceful) (hm : Move s l s')
    (hopen : (s.hist c).closeCalls = 0) (hshut : shutsDown s s' c) :
    (s.conns c).outputBuffer = [] ∧
      (s.conns c).socket.accepted = bytesOf (s.hist c).handled := by
  obtain ⟨hhalf, hw⟩ := halfCloses_of_move hm hshut
  have hmention : s.Mentions c := by
    cases hhalf with
    | drained htodo => exact .todo (htodo ▸ List.mem_cons_self) rfl
    | direct htodo => exact .todo (htodo ▸ List.mem_cons_self) rfl
    | queued hqueue => exact .queue (hqueue ▸ List.mem_cons_self) rfl
  have hest := h.sane.ledger.established_of_closeCalls hopen (h.sane.known c hmention)
  have hnil : (s.conns c).outputBuffer = [] := by
    by_contra hne
    exact absurd (((h.drained c hest).mpr hne).symm.trans hw) (by simp)
  exact ⟨hnil, by simpa [hnil] using (h.streamed c).bytes⟩

/-- **One half-close.**  Where the condition holds, the socket has accepted everything
handed over before. -/
lemma Graceful.half_close {l : Label T} {b : List (Thread T × List Byte)} (h : s.Graceful)
    (hl : s.shutsEarly l = false) (hm : Move s l s') (hopen : (s.hist c).closeCalls = 0)
    (hb : (s.hist c).before = some b) (hshut : shutsDown s s' c) :
    bytesOf b <+: (s'.conns c).socket.accepted := by
  obtain ⟨hhalf, hw⟩ := halfCloses_of_move hm hshut
  obtain ⟨-, hbytes⟩ := h.drained_of_shutsDown hm hopen hshut
  cases hhalf with
  | drained htodo hstate =>
      rw [(shutdownInLoop_bytes s.pop c c).1]
      refine hbytes ▸ (h.halting c).bytes_of_waiting hb ?_
      simpa [shutsEarly, htodo, hstate, hw] using hl
  | direct htodo =>
      rw [(shutdownInLoop_bytes (s.pop.setDisconnecting c) c c).1]
      have hsame : ((s.pop.setDisconnecting c).conns c).socket.accepted =
          (s.conns c).socket.accepted :=
        apply_update_keep s.conns (fun conn => conn.socket.accepted) (by rfl) c
      rw [hsame]
      refine hbytes ▸ (h.halting c).bytes_of_waiting hb ?_
      simpa [shutsEarly, htodo, hw] using hl
  | @queued nwrote e hqueue =>
      rw [(shutdownInLoop_bytes { s with loop := e } c c).1]
      have hbehind := (h.halting c).behind b [] e.queue hb hqueue
      rw [List.filterMap_nil, List.append_nil] at hbehind
      exact hbytes ▸ bytesOf_prefix hbehind

/-- **Graceful shutdown truncates nothing**, in every run in which neither `handleWrite_`
nor the loop's own `shutdown` shuts down past the queue.  A thread that has passed the
check of `shutdown` on a connected connection sets `kDisconnecting`; whenever
`shutdownWrite` is executed after that, as long as the close path has not run, the socket
has accepted every byte of the messages that `send` had accepted from any thread, but for
those whose calls still held them.  The thread itself holds none. -/
theorem shutdown_truncates_nothing {name : String} {acceptFd : ℕ} {wc : Bool} {t : T}
    {l : Label T} {s₁ s₂ s₃ : TcpServer T}
    (h : Reaches (fun s l => s.shutsEarly l = false) (start name acceptFd wc) s)
    (hcall : s.calls t = some (.setDisconnecting c)) (hstate : (s.conns c).state = .kConnected)
    (hset : s.next (.resume t) = some s₁)
    (h₁ : Reaches (fun s l => s.shutsEarly l = false) s₁ s₂) (hl : s₂.shutsEarly l = false)
    (hnext : s₂.next l = some s₃) (hopen : (s₂.hist c).closeCalls = 0)
    (hshut : shutsDown s₂ s₃ c) :
    ∃ sent : List (Thread T × List Byte),
      (∀ th, messagesOf th sent ++ s.inFlight c th = (s.hist c).accepted th) ∧
      messagesOf (.other t) sent = (s.hist c).accepted (.other t) ∧
      bytesOf sent <+: (s₃.conns c).socket.accepted := by
  have hs := graceful_of_reaches h
  have horder := (hs.streamed c).order
  refine ⟨(s.hist c).handled ++ s.queued c, horder, ?_, ?_⟩
  · simpa [inFlight, Call.message, hcall] using horder (.other t)
  -- everything handed over so far is kept when the state changes
  have hnone : (s.hist c).before = none := by
    by_contra hb
    exact (hs.halting c).down hb hstate
  have hs₁ := hs.next hset
  have hbefore : (s₁.hist c).before = some ((s.hist c).handled ++ s.queued c) := by
    have hok := next_eq_some.mp hset
    simp only [step, hcall, Option.some.injEq, Except.ok.injEq] at hok
    subst hok
    simp [setDisconnecting, setConn, setHist, setCall, hnone]
  have hrun : s₂.Graceful ∧ (s₂.hist c).before = some ((s.hist c).handled ++ s.queued c) := by
    refine Reach.invariant (I := fun s₂ => s₂.Graceful ∧
      (s₂.hist c).before = some ((s.hist c).handled ++ s.queued c)) ?_ h₁ ⟨hs₁, hbefore⟩
    rintro s₄ l s₅ ⟨hgrace, hb⟩ - hstep
    exact ⟨hgrace.next hstep, (move_of_next hgrace.sane.ledger.threadId hstep).before hb⟩
  exact hrun.1.half_close hl (move_of_next hrun.1.sane.ledger.threadId hnext) hopen hrun.2 hshut

/-- A message waits in front of the shutdown, and is written before it. -/
theorem shutdown_truncates_nothing_queued : ∃ s s₃ : TcpServer Unit,
    (s.hist 1).accepted (.other ()) = [[1, 2]] ∧ (s₃.conns 1).socket.shutdownWrites = 1 ∧
    ∃ sent : List (Thread Unit × List Byte),
      (∀ th, messagesOf th sent ++ s.inFlight 1 th = (s.hist 1).accepted th) ∧
      messagesOf (.other ()) sent = (s.hist 1).accepted (.other ()) ∧
      bytesOf sent <+: (s₃.conns 1).socket.accepted := by
  have hrun : ((exec next (fun s l => s.shutsEarly l = false) (start "s" 3 false)
      (acceptOne Unit ++ ([.send () 1 [1, 2], .resume (), .wakeup (.other ()),
        .shutdown () 1] : List (Label Unit)))).bind fun s => (s.next (.resume ())).bind fun s₁ =>
      (exec next (fun s l => s.shutsEarly l = false) s₁ [.resume (), .wakeup (.other ()),
        .poll [], .handled, .swap, .run (some 2)]).bind fun s₂ =>
      (s₂.next (.run none)).map fun s₃ =>
        decide (s.calls () = some (.setDisconnecting 1) ∧ (s.conns 1).state = .kConnected ∧
          s₂.shutsEarly (.run none) = false ∧ (s₂.hist 1).closeCalls = 0 ∧
          (s.hist 1).accepted (.other ()) = [[1, 2]] ∧
          (s₂.conns 1).socket.shutdownWrites = 0 ∧ (s₃.conns 1).socket.shutdownWrites = 1)) =
      some true := by decide +kernel
  obtain ⟨s, hs, hrun⟩ := Option.bind_eq_some_iff.mp hrun
  obtain ⟨s₁, hs₁, hrun⟩ := Option.bind_eq_some_iff.mp hrun
  obtain ⟨s₂, hs₂, hrun⟩ := Option.bind_eq_some_iff.mp hrun
  obtain ⟨s₃, hs₃, hvals⟩ := Option.map_eq_some_iff.mp hrun
  obtain ⟨hcall, hstate, hearly, hopen, hsent, hbefore, hafter⟩ := of_decide_eq_true hvals
  refine ⟨s, s₃, hsent, hafter, ?_⟩
  exact shutdown_truncates_nothing
    ((Reach.refl (start "s" 3 false : TcpServer Unit)).of_exec hs) hcall hstate hs₁
    ((Reach.refl s₁).of_exec hs₂) hearly hs₃ hopen (by simp [shutsDown, hbefore, hafter])

/-- A thread sends twice and shuts down.  The first message was written in part; a write
event drains the buffer, `handleWrite_` finds `kDisconnecting` and shuts down, and the
second message is still in the queue. -/
theorem shutdown_truncates_queued_message : ∃ s s₁ s₂ s₃ : TcpServer Unit,
    Reaches (fun _ _ => True) (start "s" 3 false) s ∧
      s.calls () = some (.setDisconnecting 1) ∧ (s.conns 1).state = .kConnected ∧
      s.next (.resume ()) = some s₁ ∧ Reaches (fun _ _ => True) s₁ s₂ ∧
      s₂.next (.exec ⟨none, .error, none⟩) = some s₃ ∧ (s₂.hist 1).closeCalls = 0 ∧
      shutsDown s₂ s₃ 1 ∧ (s.hist 1).accepted (.other ()) = [[1, 2], [3]] ∧
      (s₃.conns 1).socket.accepted = [1, 2] := by
  have hrun : ((exec next (fun _ _ => True) (start "s" 3 false)
      (acceptOne Unit ++ ([.send () 1 [1, 2], .resume (), .wakeup (.other ()), .poll [], .handled,
        .swap, .run (some 1), .finish, .test, .send () 1 [3], .resume (), .wakeup (.other ()),
        .shutdown () 1] : List (Label Unit)))).bind fun s => (s.next (.resume ())).bind fun s₁ =>
      (exec next (fun _ _ => True) s₁ [.poll [(.conn 1, POLLOUT)], .dispatch,
        .exec ⟨none, .error, some 1⟩]).bind fun s₂ =>
      (s₂.next (.exec ⟨none, .error, none⟩)).map fun s₃ =>
        decide (s.calls () = some (.setDisconnecting 1) ∧ (s.conns 1).state = .kConnected ∧
          (s₂.hist 1).closeCalls = 0 ∧ (s₂.conns 1).socket.shutdownWrites = 0 ∧
          (s₃.conns 1).socket.shutdownWrites = 1 ∧
          (s.hist 1).accepted (.other ()) = [[1, 2], [3]] ∧
          (s₃.conns 1).socket.accepted = [1, 2])) = some true := by decide +kernel
  obtain ⟨s, hs, hrun⟩ := Option.bind_eq_some_iff.mp hrun
  obtain ⟨s₁, hs₁, hrun⟩ := Option.bind_eq_some_iff.mp hrun
  obtain ⟨s₂, hs₂, hrun⟩ := Option.bind_eq_some_iff.mp hrun
  obtain ⟨s₃, hs₃, hvals⟩ := Option.map_eq_some_iff.mp hrun
  obtain ⟨hcall, hstate, hopen, hbefore, hafter, hsent, haccepted⟩ := of_decide_eq_true hvals
  exact ⟨s, s₁, s₂, s₃, (Reach.refl _).of_exec hs, hcall, hstate, hs₁, (Reach.refl _).of_exec hs₂,
    hs₃, hopen, by simp [shutsDown, hbefore, hafter], hsent, haccepted⟩

end TcpServer

end Tractor
