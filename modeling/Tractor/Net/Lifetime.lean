import Tractor.Net.Close

/-!
The end of a connection's life, over whole runs of a server.

* `Clean`: destroyed connections are out of the poller, and no message waits for one.
* `destroyed_connection_left_alone`: behind `connectDestroyed` nothing is written and the
  channel is not registered again, unless a message is queued behind `handleClose_`.
* `connections_held_once`: with a single thread, every connection is held once, every
  registered channel belongs to such a connection, and no assertion fails.
-/

namespace Tractor

open Library

namespace TcpServer

variable {T : Type}

/-! ### Destroyed connections -/

section Clean

variable {s s' : TcpServer T} {c d : ℕ}

/-- Another thread queues its message for a connection whose close path has run. -/
def sendsLate (s : TcpServer T) : Label T → Bool
  | .resume t =>
      match s.calls t with
      | some (.sendInLoop c _) => (s.hist c).closeCalls ≠ 0
      | _ => false
  | _ => false

/-- A message does not wait behind the `connectDestroyed` of its connection. -/
def InTime (cb cb' : ServerFunctor T) : Prop :=
  ∀ c, cb = .connectDestroyed c → ∀ t message, cb' ≠ .sendInLoop t c message

/-- The descriptor and the channel belong to a living connection. -/
def living (s : TcpServer T) (c : ℕ) : Bool :=
  (s.hist c).stage = .established ∨ (s.hist c).stage = .closed ∨ (s.hist c).stage = .destroying

/-- Destroyed connections are out of the poller, and no message waits for one. -/
structure Clean (s : TcpServer T) : Prop where
  unregistered : ∀ c, s.gone c = true → (s.chan c).index = .kNew
  pending : ∀ t c message, .sendInLoop t c message ∈ s.loop.queue →
    (s.hist c).stage = .established ∨ (s.hist c).stage = .closed
  inTime : s.loop.queue.Pairwise InTime

lemma start_clean (name : String) (acceptFd : ℕ) (wc : Bool) :
    (start name acceptFd wc : TcpServer T).Clean where
  unregistered c hc := by simp [start, gone, History.new] at hc
  pending t c message h := by simp [start, EventLoop.queue, EventLoop.new, LoopPc.functors] at h
  inTime := by simp [start, EventLoop.queue, EventLoop.new, LoopPc.functors]

/-- A connection that was destroyed before and is left alone stays out of the poller. -/
lemma Clean.unregistered_of_gone (h : s.Clean)
    (hgone : s'.gone c = true → s.gone c = true ∧ (s'.chan c).index = (s.chan c).index)
    (hc : s'.gone c = true) : (s'.chan c).index = .kNew := by
  obtain ⟨hc', hindex⟩ := hgone hc
  rw [hindex]
  exact h.unregistered c hc'

/-- No functor is added, and no destroyed connection is touched. -/
lemma Clean.keep (h : s.Clean) (hqueue : s'.loop.queue.Sublist s.loop.queue)
    (hgone : ∀ c, s'.gone c = true → s.gone c = true ∧ (s'.chan c).index = (s.chan c).index)
    (hlive : ∀ c, (s.hist c).stage = .established ∨ (s.hist c).stage = .closed →
      (s'.hist c).stage = .established ∨ (s'.hist c).stage = .closed) : s'.Clean where
  unregistered c hc := h.unregistered_of_gone (hgone c) hc
  pending t c message hcb := hlive c (h.pending t c message (hqueue.subset hcb))
  inTime := h.inTime.sublist hqueue

/-- A functor is added, a message only for a connection that is not closed. -/
lemma Clean.push (h : s.Clean) {cb : ServerFunctor T}
    (hqueue : s'.loop.queue = s.loop.queue ++ [cb])
    (hcb : ∀ t c message, cb = .sendInLoop t c message →
      (s'.hist c).stage = .established ∧ .connectDestroyed c ∉ s.loop.queue)
    (hgone : ∀ c, s'.gone c = true → s.gone c = true ∧ (s'.chan c).index = (s.chan c).index)
    (hlive : ∀ c, (s.hist c).stage = .established ∨ (s.hist c).stage = .closed →
      (s'.hist c).stage = .established ∨ (s'.hist c).stage = .closed) : s'.Clean where
  unregistered c hc := h.unregistered_of_gone (hgone c) hc
  pending t c message hmem := by
    rw [hqueue, List.mem_append, List.mem_singleton] at hmem
    rcases hmem with hmem | hmem
    · exact hlive c (h.pending t c message hmem)
    · exact Or.inl (hcb t c message hmem.symm).1
  inTime := by
    rw [hqueue, List.pairwise_append]
    refine ⟨h.inTime, List.pairwise_singleton _ _, fun a ha b hb => ?_⟩
    rintro c rfl t message rfl
    obtain rfl := List.mem_singleton.mp hb
    exact (hcb t c message rfl).2 ha

lemma gone_congr (h : (s'.hist c).stage = (s.hist c).stage) : s'.gone c = s.gone c := by
  rw [gone, gone, h]

/-- A change of events of a connection that is not destroyed. -/
lemma index_of_changeEvents {p : EPoller ChannelRef} {f : Mask → Mask} (hlinks : s.Links)
    (hp : s.poller.changeEvents (.conn c) f = .ok p) (hc : s.gone c = false)
    (hd : s.gone d = true) : (p.chan (.conn d)).index = (s.chan d).index := by
  obtain ⟨-, htouch, -⟩ := EPoller.changeEvents_ok hlinks.valid hp
  have hdc : d ≠ c := by
    rintro rfl
    exact absurd (hd.symm.trans hc) (by simp)
  rw [htouch.chan _ (by simpa using hdc)]
  rfl

lemma gone_eq_false_of_live (h : (s.hist c).stage = .established ∨ (s.hist c).stage = .closed) :
    s.gone c = false := by
  rcases h with h | h <;> simp [gone, h]

/-- `sendInLoop` on a connection that is not destroyed. -/
lemma Clean.sendInLoop {th : Thread T} {message : List Byte} {nwrote : Option ℕ} (h : s.Clean)
    (hlinks : s.Links) (hc : s.gone c = false)
    (hok : s.sendInLoop th c message nwrote = .ok s') : s'.Clean := by
  have hstage := stage_sendInLoop hok
  obtain ⟨p, ops, -, hp, rfl⟩ := sendInLoop_ok hok
  refine h.keep (List.Sublist.refl _) (fun d hd => ?_) fun d hd => ?_
  · rw [gone_congr (hstage d)] at hd
    refine ⟨hd, ?_⟩
    rcases hp with ⟨-, hp⟩ | ⟨-, rfl⟩
    · exact index_of_changeEvents hlinks hp hc hd
    · rfl
  · rw [hstage]
    exact hd

lemma Clean.gone_eq_false (h : s.Clean) (hc : (s.chan c).index ≠ .kNew) : s.gone c = false := by
  cases hg : s.gone c with
  | false => rfl
  | true => exact absurd (h.unregistered c hg) hc

/-- The record of one connection gets a new stage. -/
lemma stage_update {st : Stage} {h : History T} (hh : h.stage = st) (c d : ℕ) :
    (Function.update s.hist c h d).stage = if d = c then st else (s.hist d).stage := by
  by_cases hd : d = c
  · simp [hd, hh]
  · simp [hd]

/-- A new connection is not destroyed. -/
lemma Clean.newConnection {sockfd : ℕ} (h : s.Clean) (hlinks : s.Links)
    (hfresh : (s.hist s.nextConnId).stage = .fresh) (hok : s.newConnection sockfd = .ok s') :
    s'.Clean := by
  obtain ⟨-, p, hp, rfl⟩ := newConnection_ok hok
  have hvalid := hlinks.valid.newChannel ((hlinks.linked _).new hfresh) sockfd
  obtain ⟨-, htouch, -⟩ := EPoller.changeEvents_ok hvalid hp
  refine h.keep (List.Sublist.refl _) (fun c hc => ?_) fun c hc => ?_
  · have hne : c ≠ s.nextConnId := by
      rintro rfl
      simp [gone] at hc
    refine ⟨by simpa [gone, hne] using hc, ?_⟩
    change (p.chan (.conn c)).index = _
    rw [htouch.chan _ (by simpa using hne)]
    simp [EPoller.newChannel, hne, chan]
  · change (Function.update s.hist s.nextConnId _ c).stage = _ ∨
      (Function.update s.hist s.nextConnId _ c).stage = _
    rw [stage_update rfl]
    split_ifs
    · exact Or.inl rfl
    · exact hc

lemma Clean.removeChannel (h : s.Clean) (hlinks : s.Links)
    (hstage : (s.hist c).stage = .destroying) (hok : s.removeChannel c = .ok s') : s'.Clean := by
  obtain ⟨p, hp, rfl⟩ := removeChannel_ok hok
  obtain ⟨-, htouch, hindex⟩ := EPoller.removeChannel_ok hlinks.valid hp
  refine ⟨fun d hd => ?_, fun t d message hcb => ?_, h.inTime⟩
  · by_cases hdc : d = c
    · subst hdc
      exact hindex
    · change (p.chan (.conn d)).index = .kNew
      rw [htouch.chan _ (by simpa using hdc)]
      exact h.unregistered d (by simpa [gone, hdc] using hd)
  · have hlive := h.pending t d message hcb
    have hdc : d ≠ c := by
      rintro rfl
      simp [hstage] at hlive
    simpa [hdc] using hlive

/-- No message waits for a connection when it is destroyed. -/
lemma Clean.connectDestroyed (h : s.Clean) (hlinks : s.Links)
    (hstage : (s.hist c).stage = .closed)
    (hlast : ∀ t message, .sendInLoop t c message ∉ s.loop.queue)
    (hok : s.connectDestroyed c = .ok s') : s'.Clean := by
  obtain ⟨-, p, hp, rfl⟩ := connectDestroyed_ok hok
  refine ⟨fun d hd => ?_, fun t d message hcb => ?_, h.inTime⟩
  · have hdc : d ≠ c := by
      rintro rfl
      simp [gone] at hd
    have hd' : s.gone d = true := by simpa [gone, hdc] using hd
    exact (index_of_changeEvents hlinks hp (gone_eq_false_of_live (Or.inr hstage)) hd').trans
      (h.unregistered d hd')
  · have hdc : d ≠ c := by
      rintro rfl
      exact hlast t message hcb
    simpa [hdc] using h.pending t d message hcb

/-- A destroyed connection is released, and its descriptor closed. -/
lemma Clean.close (h : s.Clean) (hstage : (s.hist c).stage = .destroyed) :
    Clean ({ s with
      poller := s.poller.close (s.fd c)
      openFds := Function.update s.openFds (s.fd c) false }.setStage c .released) := by
  refine h.keep (List.Sublist.refl _) (fun d hd => ⟨?_, rfl⟩) fun d hd => ?_
  · by_cases hdc : d = c
    · simp [gone, hdc, hstage]
    · simpa [gone, setStage, setHist, hdc] using hd
  · have hdc : d ≠ c := by
      rintro rfl
      simp [hstage] at hd
    simpa [setStage, setHist, hdc] using hd

lemma writes_shutdownInLoop (s : TcpServer T) (c d : ℕ) :
    ((s.shutdownInLoop c).conns d).socket.writes = (s.conns d).socket.writes :=
  apply_update_keep s.conns (fun conn => conn.socket.writes) (by simp) d

lemma writes_setDisconnecting (s : TcpServer T) (c d : ℕ) :
    ((s.setDisconnecting c).conns d).socket.writes = (s.conns d).socket.writes :=
  apply_update_keep s.conns (fun conn => conn.socket.writes) (by rfl) d

end Clean

section Alone

variable [DecidableEq T] {s s' : TcpServer T} {c d : ℕ}

lemma Clean.accept (h : s.Clean) (th : Thread T) (c : ℕ) (message : List Byte) :
    (s.accept th c message).Clean :=
  h.keep (List.Sublist.refl _)
    (fun d hd => ⟨(gone_congr (stage_accept s th c message d)).symm.trans hd, rfl⟩)
    fun d hd => (stage_accept s th c message d).symm ▸ hd

lemma Clean.handleClose (h : s.Clean) (hlinks : s.Links) (hgone : s.gone c = false)
    (hok : s.handleClose c = .ok s') : s'.Clean := by
  obtain ⟨-, -, p, hp, rfl⟩ := handleClose_ok hok
  refine h.push (queue_queueInLoop _ _) (fun t d message hcb => by simp at hcb)
    (fun d hd => ?_) fun d hd => ?_
  · have hne : d ≠ c := by
      rintro rfl
      simp [gone] at hd
    have hd' : s.gone d = true := by simpa [gone, hne] using hd
    exact ⟨hd', index_of_changeEvents hlinks hp hgone hd'⟩
  · change (Function.update s.hist c _ d).stage = _ ∨ (Function.update s.hist c _ d).stage = _
    rw [stage_update rfl]
    split_ifs
    · exact Or.inr rfl
    · exact hd

/-- A connected connection is not destroyed. -/
lemma Sane.live_of_connected (h : s.Sane) (husable : s.usable c = true)
    (hstate : (s.conns c).state = .kConnected) :
    (s.hist c).stage = .established ∨ (s.hist c).stage = .closed := by
  have hfresh := stage_ne_fresh_of_usable husable
  have hdown := (h.links.linked c).down
  cases hstage : (s.hist c).stage with
  | fresh => exact absurd hstage hfresh
  | established => exact Or.inl rfl
  | closed => exact Or.inr rfl
  | destroying => exact absurd hstate (hdown (by simp [hstage]))
  | destroyed => exact absurd hstate (hdown (by simp [hstage]))
  | released => exact absurd hstate (hdown (by simp [hstage]))

/-- **Every step keeps destroyed connections out**, if it does not queue a message late. -/
theorem Clean.move {l : Label T} (h : s.Clean) (hsane : s.Sane) (hl : s.sendsLate l = false)
    (hm : Move s l s') : s'.Clean := by
  have hsame : ∀ c, s.gone c = true → s.gone c = true ∧ (s.chan c).index = (s.chan c).index :=
    fun c hc => ⟨hc, rfl⟩
  have hpop : s.pop.Clean := h.keep (List.Sublist.refl _) hsame fun _ hc => hc
  have hlinks : s.pop.Links := hsane.links.of_same rfl rfl rfl fun _ => rfl
  cases hm with
  | refused => exact h
  | accepted =>
      exact (h.accept _ _ _).keep (List.Sublist.refl _) (fun _ hc => ⟨hc, rfl⟩) fun _ hc => hc
  | checked | dispatched | dropped | read | shutDrained | userShut | userRead =>
      exact h.keep (List.Sublist.refl _) hsame fun _ hc => hc
  | @pushed t cb e hcall hqueue hpc hid =>
      refine h.push hqueue (fun t' c message hcb => ?_) hsame fun _ hc => hc
      rcases hcall with ⟨d, message', hcall, rfl⟩ | ⟨d, -, rfl⟩
      · obtain ⟨rfl, rfl, rfl⟩ : t = t' ∧ d = c ∧ message' = message := by simpa using hcb
        -- the thread is in time, so the connection is not closed
        have hzero : (s.hist d).closeCalls = 0 := by simpa [sendsLate, hcall] using hl
        have hest := hsane.ledger.established_of_closeCalls hzero (hsane.known d (.call hcall rfl))
        refine ⟨hest, fun hmem => ?_⟩
        exact absurd (hest.symm.trans (hsane.ledger.stage_of_queue hmem)) (by simp)
      · simp at hcb
  | @disconnecting t d =>
      have hstage := stage_setDisconnecting s d
      exact h.keep (List.Sublist.refl _)
        (fun c hc => ⟨(gone_congr (hstage c)).symm.trans hc, rfl⟩) fun c hc => (hstage c).symm ▸ hc
  | looped hqueue hid hpc => exact h.keep (by rw [hqueue]) hsame fun _ hc => hc
  | polled hrep hpc hpc' hqueue hid hfill =>
      have hreports := EPoller.fillActiveChannels_ok hfill
      exact h.keep (by rw [hqueue]) (fun c hc => ⟨hc, (hreports.chan _).2.1⟩) fun _ hc => hc
  | connected htodo hfd hok =>
      exact hpop.newConnection hlinks ((hsane.ledger.ids _).mpr (Or.inr le_rfl)) hok
  | @closed r op todo c s' htodo hop hok =>
      have hev : op.event = some (.conn c) := by rcases hop with rfl | ⟨rfl, -⟩ <;> rfl
      have hreg := hsane.dispatching.registered (.conn c)
        (Or.inr ⟨op, htodo ▸ List.mem_cons_self, hev⟩)
      exact hpop.handleClose hlinks (h.gone_eq_false hreg) hok
  | @wrote r todo c s' htodo hw hok =>
      have hreg := hsane.dispatching.registered (.conn c)
        (Or.inr ⟨_, htodo ▸ List.mem_cons_self, rfl⟩)
      rcases handleWrite_ok (s := s.pop) hw hok with ⟨-, rfl⟩ | ⟨-, p, ops, -, hp, rfl⟩
      · exact h.keep (List.Sublist.refl _) hsame fun _ hc => hc
      · exact h.keep (List.Sublist.refl _) (fun d hd =>
          ⟨hd, index_of_changeEvents hsane.links hp (h.gone_eq_false hreg) hd⟩) fun _ hc => hc
  | completed htodo =>
      exact h.push (queue_queueInLoop _ _) (fun _ _ _ hcb => by simp at hcb) hsame fun _ hc => hc
  | @shutDirect r todo d =>
      have hstage := stage_setDisconnecting s.pop d
      exact h.keep (List.Sublist.refl _)
        (fun c hc => ⟨(gone_congr (hstage c)).symm.trans hc, rfl⟩) fun c hc => (hstage c).symm ▸ hc
  | removed htodo hok =>
      have hstage := hsane.ledger.stage_of_todo (htodo ▸ List.mem_cons_self)
      exact hpop.removeChannel hlinks hstage hok
  | userSent htodo husable hstate hok =>
      have hlive := gone_eq_false_of_live (hsane.live_of_connected husable hstate)
      exact (h.accept _ _ _).sendInLoop (hsane.links.accept _ _ _)
        ((gone_congr (stage_accept s .loop _ _ _)).trans hlive) hok
  | @ran nwrote cb functors e s' htodo hqueue hpc hpc' hid hok =>
      have hmem : cb ∈ s.loop.queue := hqueue ▸ List.mem_cons_self
      have he : Clean { s with loop := e } :=
        h.keep (hqueue ▸ List.sublist_cons_self _ _) hsame fun _ hc => hc
      have helinks : Links { s with loop := e } := hsane.links.of_same rfl rfl rfl fun _ => rfl
      cases cb with
      | sendInLoop t c message =>
          simp only [runFunctor] at hok
          split_ifs at hok
          exact he.sendInLoop helinks (gone_eq_false_of_live (h.pending t c message hmem))
            (Option.some.inj hok)
      | shutdownInLoop c =>
          obtain rfl := Except.ok.inj (Option.some.inj hok)
          exact he.keep (List.Sublist.refl _) hsame fun _ hc => hc
      | connectDestroyed c =>
          have htime := h.inTime
          rw [hqueue, List.pairwise_cons] at htime
          exact he.connectDestroyed helinks (hsane.ledger.stage_of_queue hmem)
            (fun t message hcb => htime.1 _ hcb c rfl t message rfl) (Option.some.inj hok)
      | writeComplete c =>
          obtain rfl := Except.ok.inj (Option.some.inj hok)
          exact he.keep (List.Sublist.refl _) hsame fun _ hc => hc
  | released hstage => exact h.close hstage

theorem clean_of_reaches {name : String} {acceptFd : ℕ} {wc : Bool}
    (h : Reaches (fun s l => s.sendsLate l = false) (start name acceptFd wc) s) :
    s.Sane ∧ s.Clean := by
  refine Reach.invariant (I := fun s => s.Sane ∧ s.Clean) ?_ h
    ⟨start_sane name acceptFd wc, start_clean name acceptFd wc⟩
  rintro s l s' ⟨hsane, hclean⟩ hl hnext
  exact ⟨hsane.next hnext, hclean.move hsane hl (move_of_next hsane.ledger.threadId hnext)⟩

/-- No step works on the socket of a destroyed connection, or brings it back. -/
lemma Sane.left_alone {l : Label T} (h : s.Sane) (hclean : s.Clean) (hm : Move s l s')
    (hc : s.gone c = true) :
    s'.gone c = true ∧ (s'.conns c).socket.writes = (s.conns c).socket.writes := by
  -- what is done is done to another connection
  have hother : ∀ d, s.gone d = false → c ≠ d := by
    rintro d hd rfl
    exact absurd (hc.symm.trans hd) (by simp)
  have hreg : ∀ op todo d, s.todo = op :: todo → op.event = some (.conn d) → c ≠ d :=
    fun op todo d htodo hev => hother d (hclean.gone_eq_false (h.dispatching.registered (.conn d)
      (Or.inr ⟨op, htodo ▸ List.mem_cons_self, hev⟩)))
  have hsend : ∀ {s₁ s₂ : TcpServer T} {th : Thread T} {d : ℕ} {message : List Byte}
      {nwrote : Option ℕ}, c ≠ d → s₁.sendInLoop th d message nwrote = .ok s₂ →
      (s₂.hist c).stage = (s₁.hist c).stage ∧ s₂.conns c = s₁.conns c := by
    intro s₁ s₂ th d message nwrote hcd hok
    refine ⟨stage_sendInLoop hok c, ?_⟩
    obtain ⟨p, ops, -, -, rfl⟩ := sendInLoop_ok hok
    simp [hcd]
  cases hm with
  | refused | checked | pushed | looped | polled | dispatched | dropped | completed | userShut =>
      exact ⟨hc, rfl⟩
  | accepted => exact ⟨(gone_congr (stage_accept s _ _ _ c)).trans hc, rfl⟩
  | @disconnecting t d =>
      exact ⟨(gone_congr (stage_setDisconnecting s d c)).trans hc, writes_setDisconnecting s d c⟩
  | @connected r todo sockfd s' htodo hfd hok =>
      obtain ⟨-, p, -, rfl⟩ := newConnection_ok hok
      have hfresh : (s.hist s.nextConnId).stage = .fresh :=
        (h.ledger.ids _).mpr (Or.inr le_rfl)
      have hne : c ≠ s.nextConnId := hother _ (by simp [gone, hfresh])
      exact ⟨by simpa [gone, pop, hne] using hc, by simp [pop, hne]⟩
  | @closed r op todo d s' htodo hop hok =>
      obtain ⟨-, -, p, -, rfl⟩ := handleClose_ok hok
      have hne := hreg op todo d htodo (by rcases hop with rfl | ⟨rfl, -⟩ <;> rfl)
      exact ⟨by simpa [gone, pop, hne] using hc, rfl⟩
  | read htodo => exact ⟨hc, apply_update_keep s.conns (fun conn => conn.socket.writes) (by rfl) c⟩
  | @wrote r todo d s' htodo hw hok =>
      have hne := hreg _ todo d htodo rfl
      rcases handleWrite_ok (s := s.pop) hw hok with ⟨-, rfl⟩ | ⟨-, p, ops, -, -, rfl⟩
      · exact ⟨hc, by simp [setConn, pop, hne]⟩
      · exact ⟨hc, by simp [pop, hne]⟩
  | @shutDrained r todo d => exact ⟨hc, writes_shutdownInLoop s.pop d c⟩
  | @shutDirect r todo d htodo =>
      refine ⟨(gone_congr (stage_setDisconnecting s.pop d c)).trans hc, ?_⟩
      rw [writes_shutdownInLoop, writes_setDisconnecting]
      rfl
  | @removed r todo d s' htodo hok =>
      obtain ⟨p, -, rfl⟩ := removeChannel_ok hok
      have hstage := h.ledger.stage_of_todo (htodo ▸ List.mem_cons_self)
      have hne : c ≠ d := hother d (by simp [gone, hstage])
      exact ⟨by simpa [gone, pop, hne] using hc, rfl⟩
  | userSent htodo husable hstate hok =>
      have hne := hother _ (gone_eq_false_of_live (h.live_of_connected husable hstate))
      obtain ⟨hstage, hconn⟩ := hsend hne hok
      refine ⟨(gone_congr (hstage.trans (stage_accept s .loop _ _ c))).trans hc, ?_⟩
      rw [hconn]
      rfl
  | userRead => exact ⟨hc, apply_update_keep s.conns (fun conn => conn.socket.writes) (by rfl) c⟩
  | @ran nwrote cb functors e s' htodo hqueue hpc hpc' hid hok =>
      have hmem : cb ∈ s.loop.queue := hqueue ▸ List.mem_cons_self
      cases cb with
      | sendInLoop t d message =>
          simp only [runFunctor] at hok
          split_ifs at hok
          have hne := hother d (gone_eq_false_of_live (hclean.pending t d message hmem))
          obtain ⟨hstage, hconn⟩ := hsend hne (Option.some.inj hok)
          refine ⟨(gone_congr hstage).trans hc, ?_⟩
          rw [hconn]
      | shutdownInLoop d =>
          obtain rfl := Except.ok.inj (Option.some.inj hok)
          exact ⟨hc, writes_shutdownInLoop { s with loop := e } d c⟩
      | connectDestroyed d =>
          obtain ⟨-, p, -, rfl⟩ := connectDestroyed_ok (Option.some.inj hok)
          have hne : c ≠ d := hother d (by simp [gone, h.ledger.stage_of_queue hmem])
          exact ⟨by simpa [gone, hne] using hc, by simp [hne]⟩
      | writeComplete d =>
          obtain rfl := Except.ok.inj (Option.some.inj hok)
          exact ⟨hc, rfl⟩
  | @released d hstage =>
      refine ⟨?_, rfl⟩
      by_cases hd : c = d
      · simp [gone, setStage, setHist, hd]
      · simpa [gone, setStage, setHist, hd] using hc

/-- **Nothing happens on a destroyed connection.**  In every run in which no other thread
queues a message for a connection whose close path has run, once `connectDestroyed` has
run for a connection its socket is never written to again, and its channel is not in
`channels_` again. -/
theorem destroyed_connection_left_alone {name : String} {acceptFd : ℕ} {wc : Bool}
    (h : Reaches (fun s l => s.sendsLate l = false) (start name acceptFd wc) s)
    (hc : s.gone c = true) (h' : Reaches (fun s l => s.sendsLate l = false) s s') :
    (s'.conns c).socket.writes = (s.conns c).socket.writes ∧
      ∀ fd, s'.poller.channels fd ≠ some (.conn c) := by
  obtain ⟨hsane, hclean⟩ := clean_of_reaches h
  have hinv : (s'.Sane ∧ s'.Clean) ∧ s'.gone c = true ∧
      (s'.conns c).socket.writes = (s.conns c).socket.writes := by
    refine Reach.invariant (I := fun s₁ => (s₁.Sane ∧ s₁.Clean) ∧ s₁.gone c = true ∧
      (s₁.conns c).socket.writes = (s.conns c).socket.writes) ?_ h' ⟨⟨hsane, hclean⟩, hc, rfl⟩
    rintro s₁ l s₂ ⟨⟨hsane, hclean⟩, hgone, hwrites⟩ hl hnext
    have hm := move_of_next hsane.ledger.threadId hnext
    obtain ⟨hgone', hwrites'⟩ := hsane.left_alone hclean hm hgone
    exact ⟨⟨hsane.next hnext, hclean.move hsane hl hm⟩, hgone', hwrites'.trans hwrites⟩
  obtain ⟨⟨hsane', hclean'⟩, hgone, hwrites⟩ := hinv
  refine ⟨hwrites, fun fd hfd => ?_⟩
  exact (hsane'.links.valid.found fd _ hfd).2 (hclean'.unregistered c hgone)

/-- What the loop does to destroy connection 1 when the batch comes to it. -/
def destroyOne (T : Type) : List (Label T) :=
  [.run none, .userReturn, .exec ⟨none, .error, none⟩]

/-- A message of another thread is queued in time: it is written, and the connection, once
destroyed, is left alone. -/
theorem destroyed_connection_left_alone_in_time : ∃ s s' : TcpServer Unit,
    s.gone 1 = true ∧ (s.conns 1).socket.writes = 1 ∧ s'.loop.pc.inCallback = false ∧
      (s'.conns 1).socket.writes = (s.conns 1).socket.writes ∧
      ∀ fd, s'.poller.channels fd ≠ some (.conn 1) := by
  have hrun : ((exec next (fun s l => s.sendsLate l = false) (start "s" 3 false)
      (acceptOne Unit ++ ([.send () 1 [7], .resume (), .wakeup (.other ()),
        .poll [(.conn 1, POLLIN)], .dispatch, .exec ⟨none, .eof, none⟩, .wakeup .loop,
        .handled, .swap, .run (some 1)] : List (Label Unit)) ++ destroyOne Unit)).bind fun s =>
      (exec next (fun s l => s.sendsLate l = false) s [.finish, .test]).map fun s' =>
        (s.gone 1, (s.conns 1).socket.writes, s'.loop.pc.inCallback)) =
      some (true, 1, false) := by decide +kernel
  obtain ⟨s, hs, hrun'⟩ := Option.bind_eq_some_iff.mp hrun
  obtain ⟨s', hs', hvals⟩ := Option.map_eq_some_iff.mp hrun'
  simp only [Prod.mk.injEq] at hvals
  have h := (Reach.refl (start "s" 3 false : TcpServer Unit)).of_exec hs
  exact ⟨s, s', hvals.1, hvals.2.1, hvals.2.2,
    destroyed_connection_left_alone h hvals.1 ((Reach.refl s).of_exec hs')⟩

/-- Another thread has passed the check of `send` when the connection is closed, and
queues its message behind `connectDestroyed`: the destroyed connection is written to, and
its channel is registered again. -/
theorem late_message_wakes_destroyed_connection : ∃ s s' : TcpServer Unit,
    Reaches (fun _ _ => True) (start "s" 3 false) s ∧ s.gone 1 = true ∧
      Reaches (fun _ _ => True) s s' ∧
      (s'.conns 1).socket.writes = (s.conns 1).socket.writes + 1 ∧
      s'.poller.channels 5 = some (.conn 1) := by
  have hrun : ((exec next (fun _ _ => True) (start "s" 3 false)
      (acceptOne Unit ++ ([.send () 1 [7], .poll [(.conn 1, POLLIN)], .dispatch,
        .exec ⟨none, .eof, none⟩, .wakeup .loop, .resume (), .wakeup (.other ()),
        .handled, .swap] : List (Label Unit)) ++ destroyOne Unit)).bind fun s =>
      (exec next (fun _ _ => True) s [.run (some 0)]).map fun s' =>
        (s.gone 1, (s.conns 1).socket.writes, (s'.conns 1).socket.writes,
          s'.poller.channels 5)) =
      some (true, 0, 1, some (.conn 1)) := by decide +kernel
  obtain ⟨s, hs, hrun'⟩ := Option.bind_eq_some_iff.mp hrun
  obtain ⟨s', hs', hvals⟩ := Option.map_eq_some_iff.mp hrun'
  simp only [Prod.mk.injEq] at hvals
  obtain ⟨hgone, hbefore, hafter, hchannel⟩ := hvals
  exact ⟨s, s', (Reach.refl _).of_exec hs, hgone, (Reach.refl _).of_exec hs',
    by rw [hbefore, hafter], hchannel⟩

end Alone

/-! ### A single thread -/

/-- The label is not one of another thread. -/
def Label.isLocal : Label T → Bool
  | .send _ _ _ => false
  | .shutdown _ _ => false
  | .resume _ => false
  | _ => true

/-- The step accepts a connection. -/
def accepts (s : TcpServer T) : Label T → Bool
  | .exec r => s.todo.head? = some .accept ∧ r.accept.isSome
  | _ => false

/-- A step of the loop's thread that accepts a connection only if `nextConnId_` does not
overflow and enters the close path only if it has not run. -/
def orderly (s : TcpServer T) (l : Label T) : Bool :=
  l.isLocal && (!s.accepts l || s.nextConnId < intMax) &&
    (s.closing l).all fun c => (s.hist c).closeCalls = 0

section Local

variable {s s' : TcpServer T} {c d : ℕ}

lemma sendsLate_of_isLocal {l : Label T} (h : l.isLocal = true) : s.sendsLate l = false := by
  cases l with
  | resume t => simp [Label.isLocal] at h
  | _ => rfl

/-- A registered channel changes its events without failing. -/
lemma Links.changeEvents_ne_error (h : s.Links) (hc : (s.chan c).index ≠ .kNew) (f : Mask → Mask)
    (pf : PollFault) : s.poller.changeEvents (.conn c) f ≠ .error pf := by
  intro herr
  have hnew : (s.poller.chan (.conn c)).index = .kNew →
      s.poller.channels (s.poller.chan (.conn c)).fd = none := fun hn => absurd hn hc
  obtain ⟨p, hp⟩ := EPoller.changeEvents_exists h.valid hnew f
  exact absurd (hp.symm.trans herr) (by simp)

/-- No channel is registered under a descriptor that is not open. -/
lemma Clean.channels_of_closed {fd : ℕ} (h : s.Clean) (hlinks : s.Links)
    (hfd : s.openFds fd = false) : s.poller.channels fd = none := by
  rw [Option.eq_none_iff_forall_ne_some]
  intro r hr
  obtain ⟨rfl, hindex⟩ := hlinks.valid.found fd r hr
  cases r with
  | acceptor => exact absurd (hlinks.listening.symm.trans hfd) (by simp)
  | conn c =>
      have hgone := h.gone_eq_false hindex
      have halive : (s.hist c).stage.alive :=
        ⟨fun hf => hindex ((hlinks.linked c).new hf), fun hr => by simp [gone, hr] at hgone⟩
      exact absurd ((hlinks.opened c halive).symm.trans hfd) (by simp)

end Local

section Held

variable [DecidableEq T] {s s' : TcpServer T} {c d : ℕ}

/-- **No assertion fails** in a clean state, if the close path is entered once and
`nextConnId_` does not overflow. -/
lemma Clean.no_failure {l : Label T} (h : s.Clean) (hsane : s.Sane)
    (hclose : ∀ c, s.closing l = some c → (s.hist c).closeCalls = 0)
    (haccept : s.accepts l = true → s.nextConnId < intMax) : s.failure l = none := by
  rw [Option.eq_none_iff_forall_ne_some]
  intro f hfail
  have hlinks := hsane.links
  have hup : ∀ c, (s.hist c).stage = .established ∨ (s.hist c).stage = .closed →
      (s.chan c).index ≠ .kNew := fun c hc => ((hlinks.linked c).up hc).2
  cases fails_of_failure hfail with
  | @polled events pf hrep hfill hf =>
      have hreg : ∀ r ∈ events.map Prod.fst,
          s.poller.channels (s.poller.chan r).fd = some r := fun r hr =>
        hlinks.valid.registered r (by simp [index_of_reportable hlinks.valid hrep hr])
      have hlen : events.length ≤ s.poller.eventListSize := by
        simp only [reportable, decide_eq_true_eq] at hrep
        exact hrep.1
      obtain ⟨p, hp⟩ := EPoller.fillActiveChannels_exists hlen hreg
      exact absurd (hp.symm.trans hfill) (by simp)
  | @connected r todo sockfd htodo hr hfd hok =>
      rcases newConnection_error hok with ⟨hmax, -⟩ | ⟨pf, herr, -⟩
      · exact hmax (haccept (by simp [accepts, htodo, hr]))
      · have hfresh : (s.hist s.nextConnId).stage = .fresh :=
          (hsane.ledger.ids _).mpr (Or.inr le_rfl)
        have hvalid := hlinks.valid.newChannel ((hlinks.linked _).new hfresh) sockfd
        have hfree := h.channels_of_closed hlinks hfd
        obtain ⟨p, hp⟩ := EPoller.changeEvents_exists hvalid (c := .conn s.nextConnId)
          (fun _ => by simpa [EPoller.newChannel, Channel.new] using hfree)
          (· ||| Channel.kReadEvent)
        exact absurd (hp.symm.trans herr) (by simp)
  | @closed l c hclosing hok =>
      obtain ⟨hindex, hfresh, -⟩ := hsane.closing hclosing
      have hest := hsane.ledger.established_of_closeCalls (hclose c hclosing) hfresh
      have hin := (hsane.ledger.connections _ c).mpr ⟨hest, hsane.ledger.named c hfresh⟩
      rcases handleClose_error hok with ⟨hnot, -⟩ | ⟨pf, herr, -⟩ | ⟨-, hname, -⟩
      · exact absurd (((hlinks.linked c).up (Or.inl hest)).1.symm.trans hnot) (by simp)
      · exact hlinks.changeEvents_ne_error hindex _ pf herr
      · exact absurd (hin.symm.trans hname) (by simp)
  | @wrote r todo c htodo hok =>
      obtain ⟨pf, herr, -⟩ := handleWrite_error hok
      refine hlinks.changeEvents_ne_error ?_ _ pf herr
      exact hsane.dispatching.registered (.conn c) (Or.inr ⟨_, htodo ▸ List.mem_cons_self, rfl⟩)
  | @removed r todo c htodo hok =>
      obtain ⟨pf, herr, -⟩ := withPoller_error hok
      have hstage := hsane.ledger.stage_of_todo (htodo ▸ List.mem_cons_self)
      obtain ⟨hindex, hnone⟩ := (hlinks.linked c).quiet hstage
      obtain ⟨p, hp⟩ := EPoller.removeChannel_exists hlinks.valid hindex hnone
      exact absurd (hp.symm.trans herr) (by simp)
  | userSent husable hstate hok =>
      obtain ⟨pf, herr, -⟩ := sendInLoop_error hok
      exact hlinks.changeEvents_ne_error (hup _ (hsane.live_of_connected husable hstate)) _ pf herr
  | @ran nwrote cb e htodo hqueue hok =>
      have hmem : cb ∈ s.loop.queue := hqueue ▸ List.mem_cons_self
      cases cb with
      | sendInLoop t c message =>
          simp only [runFunctor] at hok
          split_ifs at hok
          obtain ⟨pf, herr, -⟩ := sendInLoop_error (Option.some.inj hok)
          exact hlinks.changeEvents_ne_error (hup _ (h.pending t c message hmem)) _ pf herr
      | connectDestroyed c =>
          have hstage := hsane.ledger.stage_of_queue hmem
          rcases connectDestroyed_error (Option.some.inj hok) with ⟨hnot, -⟩ | ⟨pf, herr, -⟩
          · exact absurd (((hlinks.linked c).up (Or.inr hstage)).1.symm.trans hnot) (by simp)
          · exact hlinks.changeEvents_ne_error (hup _ (Or.inr hstage)) _ pf herr
      | shutdownInLoop | writeComplete => simp [runFunctor] at hok

/-- How many functors hold the connection: those that wait, and one that is being run. -/
def holders (s : TcpServer T) (c : ℕ) : ℕ :=
  s.loop.queue.count (.connectDestroyed c) + s.todo.count (.removeChannel c)

/-- The ledger, read for a living connection. -/
lemma Ledger.held_once (h : s.Ledger) (hc : s.living c = true) :
    ((∀ nm, s.connections nm = some c ↔ nm = (s.conns c).name) ∧ s.holders c = 0) ∨
      ((∀ nm, s.connections nm ≠ some c) ∧ s.holders c = 1) := by
  have hfresh : (s.hist c).stage ≠ .fresh := by
    intro hf
    simp [living, hf] at hc
  rw [holders, h.destroy c, h.remove c, h.named c hfresh]
  simp only [living, decide_eq_true_eq] at hc
  rcases hc with hc | hc | hc
  · exact Or.inl ⟨fun nm => by simp [h.connections, hc], by simp [hc]⟩
  · exact Or.inr ⟨fun nm => by simp [h.connections, hc], by simp [hc]⟩
  · exact Or.inr ⟨fun nm => by simp [h.connections, hc], by simp [hc]⟩

lemma Ledger.name_injective (h : s.Ledger) (hc : (s.hist c).stage ≠ .fresh)
    (hd : (s.hist d).stage ≠ .fresh) (hname : (s.conns d).name = (s.conns c).name) : d = c := by
  rw [h.named c hc, h.named d hd] at hname
  exact connName_injective s hname

/-- **Ownership and registration over whole runs.**  As long as only the loop's thread
runs, `nextConnId_` does not overflow and no close path is entered twice: every connection
that was established and is not destroyed is held once, by `connections_` under its own
name, which no other one has, or by one `connectDestroyed` that waits or is being run;
every registered channel is the acceptor's or belongs to such a connection; and no
assertion fails. -/
theorem connections_held_once {name : String} {acceptFd : ℕ} {wc : Bool}
    (h : Reaches (fun s l => s.orderly l = true) (start name acceptFd wc) s) :
    (∀ c, s.living c = true →
      (((∀ nm, s.connections nm = some c ↔ nm = (s.conns c).name) ∧ s.holders c = 0) ∨
        ((∀ nm, s.connections nm ≠ some c) ∧ s.holders c = 1)) ∧
      ∀ d, s.living d = true → (s.conns d).name = (s.conns c).name → d = c) ∧
    (∀ fd r, s.poller.channels fd = some r →
      r = .acceptor ∨ ∃ c, r = .conn c ∧ s.living c = true) ∧
    ∀ l, s.orderly l = true → s.failure l = none := by
  have hlate : ∀ (s : TcpServer T) l, s.orderly l = true → s.sendsLate l = false := fun s l hl => by
    simp only [orderly, Bool.and_eq_true] at hl
    exact sendsLate_of_isLocal hl.1.1
  obtain ⟨hsane, hclean⟩ := clean_of_reaches (h.mono hlate)
  have hne : ∀ c, s.living c = true → (s.hist c).stage ≠ .fresh := by
    intro c hc hf
    simp [living, hf] at hc
  refine ⟨fun c hc => ⟨hsane.ledger.held_once hc, fun d hd hname => ?_⟩, fun fd r hr => ?_,
    fun l hl => ?_⟩
  · exact hsane.ledger.name_injective (hne c hc) (hne d hd) hname
  · obtain ⟨-, hindex⟩ := hsane.links.valid.found fd r hr
    cases r with
    | acceptor => exact Or.inl rfl
    | conn c =>
        refine Or.inr ⟨c, rfl, ?_⟩
        have hgone := hclean.gone_eq_false hindex
        have hnew := (hsane.links.linked c).new
        cases hstage : (s.hist c).stage <;> simp_all [living, gone, chan]
  · simp only [orderly, Bool.and_eq_true, Bool.or_eq_true, Bool.not_eq_true',
      decide_eq_true_eq] at hl
    refine hclean.no_failure hsane (fun c hc => ?_) fun hacc => ?_
    · simpa [hc] using hl.2
    · exact hl.1.2.resolve_left (by simp [hacc])

/-- A connection is closed, destroyed and released, and another one is accepted on the
descriptor it had. -/
theorem connections_held_once_reused : ∃ s : TcpServer Unit,
    s.living 2 = true ∧ s.poller.channels 5 = some (.conn 2) ∧
    (∀ c, s.living c = true →
      (((∀ nm, s.connections nm = some c ↔ nm = (s.conns c).name) ∧ s.holders c = 0) ∨
        ((∀ nm, s.connections nm ≠ some c) ∧ s.holders c = 1)) ∧
      ∀ d, s.living d = true → (s.conns d).name = (s.conns c).name → d = c) ∧
    (∀ fd r, s.poller.channels fd = some r →
      r = .acceptor ∨ ∃ c, r = .conn c ∧ s.living c = true) ∧
    ∀ l, s.orderly l = true → s.failure l = none := by
  have hrun : ((exec next (fun s l => s.orderly l = true) (start "s" 3 false)
      (acceptOne Unit ++ ([.poll [(.conn 1, POLLIN)], .dispatch, .exec ⟨none, .eof, none⟩,
        .wakeup .loop, .handled, .swap] : List (Label Unit)) ++ destroyOne Unit ++
        ([.finish, .release 1] : List (Label Unit)) ++ acceptOne Unit)).map fun s =>
          (s.living 2, s.poller.channels 5)) =
      some (true, some (.conn 2)) := by decide +kernel
  obtain ⟨s, hs, hvals⟩ := Option.map_eq_some_iff.mp hrun
  simp only [Prod.mk.injEq] at hvals
  exact ⟨s, hvals.1, hvals.2, connections_held_once ((Reach.refl _).of_exec hs)⟩

end Held

end TcpServer

end Tractor
