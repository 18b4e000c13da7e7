import Tractor.Net.Ledger

/-!
Connections, their channels and their descriptors.

`Links` says how the poller, the open descriptors and `state_` go with the stage of a
connection: from `connectEstablished` to the end of `connectDestroyed` the channel is
registered and the descriptor is open and its own, `state_` allows the connection to be
closed until `connectDestroyed`, and it is never `kConnected` afterwards.

* `Links.changeEvents`: changing the events of a registered channel keeps the links.
* `Links.newConnection`, `Links.handleClose`, `Links.connectDestroyed`,
  `Links.removeChannel`, `Links.release`: so do the functions that move a connection on.
* `Links.move`: every step that succeeds keeps the links.
-/

namespace Tractor

open Library

/-- The descriptor belongs to the connection. -/
def Stage.alive (st : Stage) : Prop := st ≠ .fresh ∧ st ≠ .released

namespace TcpServer

variable {T : Type} {s s' : TcpServer T} {c d : ℕ} {p : EPoller ChannelRef}

/-- The channel of a connection. -/
def chan (s : TcpServer T) (c : ℕ) : Channel := s.poller.chan (.conn c)

/-- How the channel and `state_` of a connection go with its stage. -/
structure LinkedAt (s : TcpServer T) (c : ℕ) : Prop where
  new : (s.hist c).stage = .fresh → (s.chan c).index = .kNew
  up : (s.hist c).stage = .established ∨ (s.hist c).stage = .closed →
    (s.conns c).closable = true ∧ (s.chan c).index ≠ .kNew
  quiet : (s.hist c).stage = .destroying →
    (s.chan c).index ≠ .kNew ∧ (s.chan c).isNoneEvent = true
  down : (s.hist c).stage = .destroying ∨ (s.hist c).stage = .destroyed ∨
    (s.hist c).stage = .released → (s.conns c).state ≠ .kConnected

/-- How channels, descriptors and `state_` go with the stages. -/
structure Links (s : TcpServer T) : Prop where
  valid : s.poller.Valid
  acceptor : (s.poller.chan .acceptor).index ≠ .kNew
  listening : s.openFds (s.poller.chan .acceptor).fd = true
  linked : ∀ c, s.LinkedAt c
  opened : ∀ c, (s.hist c).stage.alive → s.openFds (s.chan c).fd = true
  distinct : ∀ c d, (s.hist c).stage.alive → (s.hist d).stage.alive →
    (s.chan c).fd = (s.chan d).fd → c = d
  apart : ∀ c, (s.hist c).stage.alive → (s.chan c).fd ≠ (s.poller.chan .acceptor).fd

lemma start_links (name : String) (acceptFd : ℕ) (wc : Bool) :
    (start name acceptFd wc : TcpServer T).Links where
  valid := by
    refine ⟨fun fd r hr => ?_, fun r hr => ?_, fun fd m r hr => ?_⟩
    · by_cases hfd : fd = acceptFd
      · subst hfd
        obtain rfl : ChannelRef.acceptor = r := by simpa [start] using hr
        simp [start]
      · simp [start, hfd] at hr
    · cases r with
      | acceptor => simp [start]
      | conn c => simp [start, Channel.new] at hr
    · by_cases hfd : fd = acceptFd
      · subst hfd
        obtain ⟨-, rfl⟩ : Channel.kReadEvent = m ∧ ChannelRef.acceptor = r := by
          simpa [start] using hr
        simp [start]
      · simp [start, hfd] at hr
  acceptor := by simp [start]
  listening := by simp [start]
  linked c := by constructor <;> simp [start, chan, Channel.new, History.new]
  opened c h := absurd rfl h.1
  distinct c d h := absurd rfl h.1
  apart c h := absurd rfl h.1

/-- The link of one connection depends on its channel, its stage and its `state_`, which
may become `kDisconnecting`. -/
lemma LinkedAt.of_eq (h : s.LinkedAt c) (hindex : (s'.chan c).index = (s.chan c).index)
    (hevents : (s'.chan c).events = (s.chan c).events)
    (hstage : (s'.hist c).stage = (s.hist c).stage)
    (hstate : (s'.conns c).state = (s.conns c).state ∨ (s'.conns c).state = .kDisconnecting) :
    s'.LinkedAt c where
  new hc := by
    rw [hindex]
    exact h.new (hstage ▸ hc)
  up hc := by
    have hup := h.up (hstage ▸ hc)
    refine ⟨?_, hindex ▸ hup.2⟩
    rcases hstate with hst | hst
    · rw [TcpConnection.closable, hst]
      exact hup.1
    · simp [TcpConnection.closable, hst]
  quiet hc := by
    have hquiet := h.quiet (hstage ▸ hc)
    rw [Channel.isNoneEvent, hindex, hevents]
    exact hquiet
  down hc := by
    rcases hstate with hst | hst
    · rw [hst]
      exact h.down (hstage ▸ hc)
    · simp [hst]

/-- What the links do not look at may change. -/
lemma Links.of_eq (h : s.Links) (hvalid : s'.poller.Valid)
    (hfd : ∀ r, (s'.poller.chan r).fd = (s.poller.chan r).fd)
    (hindex : ∀ r, (s'.poller.chan r).index = (s.poller.chan r).index)
    (hevents : ∀ r, (s'.poller.chan r).events = (s.poller.chan r).events)
    (hopen : s'.openFds = s.openFds) (hstage : ∀ c, (s'.hist c).stage = (s.hist c).stage)
    (hstate : ∀ c, (s'.conns c).state = (s.conns c).state ∨
      (s'.conns c).state = .kDisconnecting) : s'.Links where
  valid := hvalid
  acceptor := by rw [hindex]; exact h.acceptor
  listening := by rw [hfd, hopen]; exact h.listening
  linked c := (h.linked c).of_eq (hindex _) (hevents _) (hstage c) (hstate c)
  opened c hc := by
    rw [hstage] at hc
    rw [chan, hfd, hopen]
    exact h.opened c hc
  distinct c d hc hd := by
    rw [hstage] at hc hd
    rw [chan, chan, hfd, hfd]
    exact h.distinct c d hc hd
  apart c hc := by
    rw [hstage] at hc
    rw [chan, hfd, hfd]
    exact h.apart c hc

/-- Nothing but `state_` changes, towards `kDisconnecting` if at all. -/
lemma Links.of_state (h : s.Links) (hpoller : s'.poller = s.poller)
    (hopen : s'.openFds = s.openFds) (hstage : ∀ c, (s'.hist c).stage = (s.hist c).stage)
    (hstate : ∀ c, (s'.conns c).state = (s.conns c).state ∨
      (s'.conns c).state = .kDisconnecting) : s'.Links :=
  h.of_eq (hpoller ▸ h.valid) (fun _ => by rw [hpoller]) (fun _ => by rw [hpoller])
    (fun _ => by rw [hpoller]) hopen hstage hstate

/-- **Work on one connection** keeps the links if it keeps those of this connection. -/
lemma Links.touch (h : s.Links) (hvalid : s'.poller.Valid)
    (htouch : s.poller.Touches s'.poller (.conn c)) (hopen : s'.openFds = s.openFds)
    (hstage : ∀ d, d ≠ c → (s'.hist d).stage = (s.hist d).stage)
    (hstate : ∀ d, d ≠ c → (s'.conns d).state = (s.conns d).state)
    (halive : (s'.hist c).stage.alive → (s.hist c).stage.alive) (hc : s'.LinkedAt c) :
    s'.Links := by
  have hfd : ∀ r, (s'.poller.chan r).fd = (s.poller.chan r).fd := fun r => by
    by_cases hr : r = .conn c
    · rw [hr, htouch.fd]
    · rw [htouch.chan r hr]
  have hchan : ∀ d, d ≠ c → s'.chan d = s.chan d := fun d hd =>
    htouch.chan _ (by simpa using hd)
  have hal : ∀ d, (s'.hist d).stage.alive → (s.hist d).stage.alive := fun d hd => by
    by_cases hdc : d = c
    · subst hdc
      exact halive hd
    · rwa [hstage d hdc] at hd
  refine ⟨hvalid, ?_, ?_, fun d => ?_, fun d hd => ?_, fun d e hd he => ?_, fun d hd => ?_⟩
  · rw [htouch.chan _ (by simp)]
    exact h.acceptor
  · rw [hfd, hopen]
    exact h.listening
  · by_cases hdc : d = c
    · subst hdc
      exact hc
    · exact (h.linked d).of_eq (by rw [hchan d hdc]) (by rw [hchan d hdc]) (hstage d hdc)
        (Or.inl (hstate d hdc))
  · rw [chan, hfd, hopen]
    exact h.opened d (hal d hd)
  · rw [chan, chan, hfd, hfd]
    exact h.distinct d e (hal d hd) (hal e he)
  · rw [chan, hfd, hfd]
    exact h.apart d (hal d hd)

/-! ### Functions -/

/-- A registered channel outside `connectDestroyed` may change its events. -/
lemma LinkedAt.changeEvents (h : s.LinkedAt c) (hfresh : (s.hist c).stage ≠ .fresh)
    (hquiet : (s.hist c).stage ≠ .destroying) (hindex : (s'.chan c).index ≠ .kNew)
    (hstage : (s'.hist c).stage = (s.hist c).stage)
    (hstate : (s'.conns c).state = (s.conns c).state) : s'.LinkedAt c where
  new hc := absurd (hstage ▸ hc) hfresh
  up hc := ⟨by rw [TcpConnection.closable, hstate]; exact (h.up (hstage ▸ hc)).1, hindex⟩
  quiet hc := absurd (hstage ▸ hc) hquiet
  down hc := by
    rw [hstate]
    exact h.down (hstage ▸ hc)

lemma Links.sendInLoop {th : Thread T} {message : List Byte} {nwrote : Option ℕ} (h : s.Links)
    (hfresh : (s.hist c).stage ≠ .fresh) (hquiet : (s.hist c).stage ≠ .destroying)
    (hok : s.sendInLoop th c message nwrote = .ok s') : s'.Links := by
  obtain ⟨p, ops, -, hp, rfl⟩ := sendInLoop_ok hok
  have hstate : (((s.conns c).sendInLoop (s.isWriting c) message nwrote).1).state =
      (s.conns c).state := by simp
  rcases hp with ⟨-, hp⟩ | ⟨-, rfl⟩
  · obtain ⟨hvalid, htouch, hindex, -⟩ := EPoller.changeEvents_ok h.valid hp
    refine h.touch hvalid htouch rfl (fun d hd => by simp [hd]) (fun d hd => by simp [hd])
      (by simp) ?_
    exact (h.linked c).changeEvents hfresh hquiet hindex (by simp) (by simp)
  · exact h.of_state rfl rfl (apply_update_keep s.hist History.stage rfl)
      fun d => Or.inl (apply_update_keep s.conns TcpConnection.state hstate d)

lemma Links.handleWrite {nwrote : Option ℕ} (h : s.Links)
    (hfresh : (s.hist c).stage ≠ .fresh) (hquiet : (s.hist c).stage ≠ .destroying)
    (hw : s.isWriting c = true) (hok : s.handleWrite c nwrote = .ok s') : s'.Links := by
  have hstate : (((s.conns c).handleWrite nwrote).1).state = (s.conns c).state := by simp
  rcases handleWrite_ok hw hok with ⟨-, rfl⟩ | ⟨-, p, ops, -, hp, rfl⟩
  · exact h.of_state rfl rfl (fun _ => rfl)
      fun d => Or.inl (apply_update_keep s.conns TcpConnection.state hstate d)
  · obtain ⟨hvalid, htouch, hindex, -⟩ := EPoller.changeEvents_ok h.valid hp
    refine h.touch hvalid htouch rfl (fun _ _ => rfl) (fun d hd => by simp [hd]) id ?_
    exact (h.linked c).changeEvents hfresh hquiet hindex rfl (by simp)

lemma Links.handleClose [DecidableEq T] (h : s.Links)
    (hstage : (s.hist c).stage = .established) (hok : s.handleClose c = .ok s') : s'.Links := by
  obtain ⟨hclosable, -, p, hp, rfl⟩ := handleClose_ok hok
  obtain ⟨hvalid, htouch, hindex, -⟩ := EPoller.changeEvents_ok h.valid hp
  refine h.touch hvalid htouch rfl (fun d hd => by simp [hd]) (fun _ _ => rfl)
    (fun _ => by simp [Stage.alive, hstage]) ⟨?_, fun _ => ⟨hclosable, hindex⟩, ?_, ?_⟩
  all_goals simp

lemma Links.connectDestroyed (h : s.Links) (hstage : (s.hist c).stage = .closed)
    (hok : s.connectDestroyed c = .ok s') : s'.Links := by
  obtain ⟨-, p, hp, rfl⟩ := connectDestroyed_ok hok
  obtain ⟨hvalid, htouch, hindex, hevents⟩ := EPoller.changeEvents_ok h.valid hp
  refine h.touch hvalid htouch rfl (fun d hd => by simp [hd]) (fun d hd => by simp [hd])
    (fun _ => by simp [Stage.alive, hstage]) ⟨?_, ?_, fun _ => ⟨hindex, ?_⟩, ?_⟩
  · simp
  · simp
  · simp [chan, Channel.isNoneEvent, hevents]
  · simp [TcpConnection.setState]

lemma Links.removeChannel (h : s.Links) (hstage : (s.hist c).stage = .destroying)
    (hok : s.removeChannel c = .ok s') : s'.Links := by
  obtain ⟨p, hp, rfl⟩ := removeChannel_ok hok
  obtain ⟨hvalid, htouch, hindex⟩ := EPoller.removeChannel_ok h.valid hp
  refine h.touch hvalid htouch rfl (fun d hd => by simp [hd]) (fun _ _ => rfl)
    (fun _ => by simp [Stage.alive, hstage]) ⟨?_, ?_, ?_, fun _ => ?_⟩
  · simp
  · simp
  · simp
  · exact (h.linked c).down (Or.inl hstage)

/-- A new connection gets a descriptor that was not open, so it is nobody else's. -/
lemma Links.newConnection {sockfd : ℕ} (h : s.Links)
    (hfresh : (s.hist s.nextConnId).stage = .fresh) (hfd : s.openFds sockfd = false)
    (hok : s.newConnection sockfd = .ok s') : s'.Links := by
  obtain ⟨-, p, hp, rfl⟩ := newConnection_ok hok
  have hnew := h.valid.newChannel ((h.linked _).new hfresh) sockfd
  obtain ⟨hvalid, htouch, hindex, -⟩ := EPoller.changeEvents_ok hnew hp
  generalize hn : s.nextConnId = n at *
  have hchan : ∀ r, r ≠ .conn n → p.chan r = s.poller.chan r := fun r hr => by
    rw [htouch.chan r hr]
    simp [EPoller.newChannel, hr]
  have hconn : ∀ d, d ≠ n → p.chan (.conn d) = s.poller.chan (.conn d) := fun d hd =>
    hchan _ (by simpa using hd)
  have hself : (p.chan (.conn n)).fd = sockfd := by
    rw [htouch.fd]
    simp [EPoller.newChannel, Channel.new]
  -- an open descriptor is another one
  have hne : ∀ fd, s.openFds fd = true → fd ≠ sockfd := by
    rintro fd hopen rfl
    exact absurd (hopen.symm.trans hfd) (by simp)
  refine ⟨hvalid, ?_, ?_, fun d => ?_, fun d hd => ?_, fun d e hd he heq => ?_, fun d hd => ?_⟩
  · change (p.chan .acceptor).index ≠ .kNew
    rw [hchan _ (by simp)]
    exact h.acceptor
  · change Function.update s.openFds sockfd true (p.chan .acceptor).fd = true
    rw [hchan _ (by simp), Function.update_of_ne (hne _ h.listening)]
    exact h.listening
  · by_cases hd : d = n
    · subst hd
      refine ⟨?_, fun _ => ⟨?_, hindex⟩, ?_, ?_⟩
      · simp
      · simp [TcpConnection.closable, TcpConnection.setState]
      · simp
      · simp
    · refine (h.linked d).of_eq ?_ ?_ ?_ (Or.inl ?_)
      · simp only [chan, hconn d hd]
      · simp only [chan, hconn d hd]
      · simp [hd]
      · simp [hd]
  · change Function.update s.openFds sockfd true (p.chan (.conn d)).fd = true
    by_cases hdn : d = n
    · subst hdn
      rw [hself, Function.update_self]
    · rw [hconn d hdn]
      have hopen : s.openFds (s.poller.chan (.conn d)).fd = true :=
        h.opened d (by simpa [hdn] using hd)
      rw [Function.update_of_ne (hne _ hopen)]
      exact hopen
  · change (p.chan (.conn d)).fd = (p.chan (.conn e)).fd at heq
    by_cases hdn : d = n
    · by_cases hen : e = n
      · exact hdn.trans hen.symm
      · rw [hdn, hself, hconn e hen] at heq
        exact absurd heq.symm (hne _ (h.opened e (by simpa [hen] using he)))
    · by_cases hen : e = n
      · rw [hen, hself, hconn d hdn] at heq
        exact absurd heq (hne _ (h.opened d (by simpa [hdn] using hd)))
      · rw [hconn d hdn, hconn e hen] at heq
        exact h.distinct d e (by simpa [hdn] using hd) (by simpa [hen] using he) heq
  · change (p.chan (.conn d)).fd ≠ (p.chan .acceptor).fd
    rw [hchan .acceptor (by simp)]
    by_cases hdn : d = n
    · rw [hdn, hself]
      exact (hne _ h.listening).symm
    · rw [hconn d hdn]
      exact h.apart d (by simpa [hdn] using hd)

/-- Only the released connection had its descriptor. -/
lemma Links.release (h : s.Links) (hstage : (s.hist c).stage = .destroyed) :
    (setStage { s with
      poller := s.poller.close (s.fd c)
      openFds := Function.update s.openFds (s.fd c) false } c .released).Links := by
  have halive : (s.hist c).stage.alive := by simp [Stage.alive, hstage]
  -- what is alive now was alive before, and is not `c`
  have hal : ∀ d, (Function.update s.hist c { s.hist c with stage := .released } d).stage.alive →
      d ≠ c ∧ (s.hist d).stage.alive := by
    intro d hd
    by_cases hdc : d = c
    · subst hdc
      simp [Stage.alive] at hd
    · exact ⟨hdc, by simpa [hdc] using hd⟩
  refine ⟨h.valid.close _, h.acceptor, ?_, fun d => ?_, fun d hd => ?_, fun d e hd he heq => ?_,
    fun d hd => ?_⟩
  · change Function.update s.openFds (s.chan c).fd false (s.poller.chan .acceptor).fd = true
    rw [Function.update_of_ne (h.apart c halive).symm]
    exact h.listening
  · by_cases hdc : d = c
    · subst hdc
      refine ⟨?_, ?_, ?_, fun _ => (h.linked d).down (Or.inr (Or.inl hstage))⟩
      · simp [setStage, setHist]
      · simp [setStage, setHist]
      · simp [setStage, setHist]
    · exact (h.linked d).of_eq rfl rfl (by simp [setStage, setHist, hdc]) (Or.inl rfl)
  · obtain ⟨hdc, hd'⟩ := hal d hd
    change Function.update s.openFds (s.chan c).fd false (s.chan d).fd = true
    rw [Function.update_of_ne fun heq => hdc (h.distinct d c hd' halive heq)]
    exact h.opened d hd'
  · exact h.distinct d e (hal d hd).2 (hal e he).2 heq
  · exact h.apart d (hal d hd).2

/-! ### Moves -/

lemma Links.setDisconnecting (h : s.Links) (c : ℕ) : (s.setDisconnecting c).Links := by
  refine h.of_state rfl rfl (stage_setDisconnecting s c) fun d => ?_
  by_cases hd : d = c
  · exact Or.inr (by simp [TcpServer.setDisconnecting, setConn, TcpConnection.setState, hd])
  · exact Or.inl (by simp [TcpServer.setDisconnecting, setConn, setHist, hd])

lemma Links.setConn (h : s.Links) {conn : TcpConnection}
    (hstate : conn.state = (s.conns c).state) : (s.setConn c conn).Links :=
  h.of_state rfl rfl (fun _ => rfl)
    fun d => Or.inl (apply_update_keep s.conns TcpConnection.state hstate d)

/-- Only the poller, the descriptors, the connections and their stages are linked. -/
lemma Links.of_same (h : s.Links) (hpoller : s'.poller = s.poller)
    (hopen : s'.openFds = s.openFds) (hconns : s'.conns = s.conns)
    (hstage : ∀ c, (s'.hist c).stage = (s.hist c).stage) : s'.Links :=
  h.of_state hpoller hopen hstage fun _ => Or.inl (by rw [hconns])

variable [DecidableEq T]

lemma Links.accept (h : s.Links) (th : Thread T) (c : ℕ) (message : List Byte) :
    (s.accept th c message).Links :=
  h.of_same rfl rfl rfl (stage_accept s th c message)

/-- **Every step keeps the links.**  Events are handled for connections that exist and are
not inside `connectDestroyed`, and messages wait for connections that exist. -/
theorem Links.move {l : Label T} (h : s.Links) (hl : s.Ledger)
    (hevent : ∀ op todo c, s.todo = op :: todo →
      op = .handleClose c ∨ op = .handleRead c ∨ op = .handleWrite c →
      (s.hist c).stage ≠ .fresh ∧ (s.hist c).stage ≠ .destroying)
    (hqueued : ∀ t c message, .sendInLoop t c message ∈ s.loop.queue →
      (s.hist c).stage ≠ .fresh)
    (hm : Move s l s') : s'.Links := by
  have hpop : s.pop.Links := h.of_same rfl rfl rfl fun _ => rfl
  cases hm with
  | refused => exact h
  | accepted => exact (h.accept _ _ _).of_same rfl rfl rfl fun _ => rfl
  | checked => exact h.of_same rfl rfl rfl fun _ => rfl
  | pushed => exact h.of_same rfl rfl rfl fun _ => rfl
  | @disconnecting t c => exact (h.setDisconnecting c).of_same rfl rfl rfl fun _ => rfl
  | looped => exact h.of_same rfl rfl rfl fun _ => rfl
  | polled hrep hpc hpc' hqueue hid hfill =>
      have hreports := EPoller.fillActiveChannels_ok hfill
      exact h.of_eq (h.valid.reports hreports) (fun r => (hreports.chan r).1)
        (fun r => (hreports.chan r).2.1) (fun r => (hreports.chan r).2.2) rfl (fun _ => rfl)
        fun _ => Or.inl rfl
  | dispatched => exact h.of_same rfl rfl rfl fun _ => rfl
  | dropped => exact hpop
  | connected htodo hfd hok =>
      exact hpop.newConnection ((hl.ids _).mpr (Or.inr le_rfl)) hfd hok
  | @closed r op todo c s' htodo hop hok =>
      have hc := hevent op todo c htodo (by tauto)
      obtain ⟨-, hname, -⟩ := handleClose_ok hok
      exact hpop.handleClose (hl.established_of_connections hc.1 hname) hok
  | @read r todo c =>
      refine Links.of_same (s := s.pop.setConn c _) (hpop.setConn ?_) rfl rfl rfl fun _ => rfl
      rfl
  | @wrote r todo c s' htodo hw hok =>
      obtain ⟨hfresh, hquiet⟩ := hevent _ todo c htodo (by tauto)
      exact hpop.handleWrite hfresh hquiet hw hok
  | shutDrained => exact hpop.setConn (by simp)
  | completed => exact hpop.of_same rfl rfl rfl fun _ => rfl
  | @shutDirect r todo c => exact (hpop.setDisconnecting c).setConn (by simp)
  | @removed r todo c s' htodo hok =>
      exact hpop.removeChannel (hl.stage_of_todo (htodo ▸ List.mem_cons_self)) hok
  | @userSent c message nwrote todo s' htodo husable hstate hok =>
      have hfresh : (s.hist c).stage ≠ .fresh := by
        simp only [usable, decide_eq_true_eq] at husable
        exact husable.1
      -- `state_` is no longer `kConnected` inside `connectDestroyed`
      have hquiet : (s.hist c).stage ≠ .destroying := fun hd =>
        (h.linked c).down (Or.inl hd) hstate
      have hstage := stage_accept s .loop c message c
      exact (h.accept _ _ _).sendInLoop (hstage.trans_ne hfresh) (hstage.trans_ne hquiet) hok
  | userShut => exact h.of_same rfl rfl rfl fun _ => rfl
  | userRead => exact h.setConn rfl
  | @ran nwrote cb functors e s' htodo hqueue hpc hpc' hid hok =>
      have he : ({ s with loop := e } : TcpServer T).Links := h.of_same rfl rfl rfl fun _ => rfl
      cases cb with
      | sendInLoop t c message =>
          simp only [runFunctor] at hok
          split_ifs at hok
          -- nothing is left to do, so no connection is inside `connectDestroyed`
          have hquiet : (s.hist c).stage ≠ .destroying := fun hd => by
            have hcount := hl.remove c
            simp [htodo, hd] at hcount
          exact he.sendInLoop (hqueued t c message (hqueue ▸ List.mem_cons_self)) hquiet
            (Option.some.inj hok)
      | shutdownInLoop c =>
          obtain rfl := Except.ok.inj (Option.some.inj hok)
          exact he.setConn (by simp)
      | connectDestroyed c =>
          exact he.connectDestroyed (hl.stage_of_queue (hqueue ▸ List.mem_cons_self))
            (Option.some.inj hok)
      | writeComplete c =>
          obtain rfl := Except.ok.inj (Option.some.inj hok)
          exact he.of_same rfl rfl rfl fun _ => rfl
  | released hstage => exact h.release hstage

end TcpServer

end Tractor
