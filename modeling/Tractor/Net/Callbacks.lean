import Tractor.Net.Close
import Tractor.Net.EPollSet

/-!
The callbacks of a `TcpServer`, over whole runs.

The connection callback is called at the end of `connectEstablished` and in
`connectDestroyed`, the message callback in `handleRead_`.  A late message can put the
channel of a destroyed connection back into the epoll set, but only for writing.

* `EPoller.Deaf`: a channel that asks for no input.
* `Hushed`: the channels of closed connections are deaf, and nothing is read from a
  destroyed one.
* `Speaks`: what a step does to the stages, by the callback it calls.
* `Told`: **the callbacks of a connection are up, messages, down.**
-/

namespace Tractor

open Library

/-! ### Channels that ask for no input -/

/-- The bits for which `handleEvent` calls the read callback. -/
def Mask.reads (mask : Mask) : Bool := mask.has (POLLIN ||| POLLPRI ||| POLLRDHUP)

namespace Mask

variable {mask m : Mask}

lemma reads_eq_false_iff :
    mask.reads = false ↔ mask &&& (POLLIN ||| POLLPRI ||| POLLRDHUP) = 0 := by
  simp [reads, has]

lemma reads_or (h : mask.reads = false) (hm : m.reads = false) : (mask ||| m).reads = false := by
  rw [reads_eq_false_iff] at *
  rw [BitVec.and_comm, BitVec.and_or_distrib_left, BitVec.and_comm, h, BitVec.and_comm, hm]
  rfl

lemma reads_and (h : mask.reads = false) (m : Mask) : (mask &&& m).reads = false := by
  rw [reads_eq_false_iff] at *
  rw [BitVec.and_comm mask, BitVec.and_assoc, h]
  exact BitVec.and_zero

/-- What is reported without being asked for are errors and hang-ups. -/
def reportable (requested mask : Mask) : Bool :=
  mask &&& ~~~(requested ||| POLLERR ||| POLLHUP) = 0

lemma reads_of_reportable (h : reportable m mask = true) (hm : m.reads = false) :
    mask.reads = false := by
  have hsub : mask &&& (m ||| POLLERR ||| POLLHUP) = mask := by
    have hzero : mask &&& ~~~(m ||| POLLERR ||| POLLHUP) = 0 := by simpa [reportable] using h
    calc mask &&& (m ||| POLLERR ||| POLLHUP)
        = (mask &&& (m ||| POLLERR ||| POLLHUP)) |||
            (mask &&& ~~~(m ||| POLLERR ||| POLLHUP)) := by rw [hzero]; simp
      _ = mask := by
          rw [← BitVec.and_or_distrib_left, BitVec.or_not_self, BitVec.and_allOnes]
  rw [← hsub, BitVec.and_comm]
  exact reads_and (reads_or (reads_or hm (by decide)) (by decide)) mask

end Mask

/-- `connected()`. -/
def TcpConnection.connected (conn : TcpConnection) : Bool := conn.state = .kConnected

namespace EPoller

variable {C : Type} {p p' : EPoller C} {c d : C}

/-- The channel wants no input, and the kernel watches it for none. -/
structure Deaf (p : EPoller C) (c : C) : Prop where
  events : (p.chan c).events.reads = false
  watched : ∀ fd m, p.epoll fd = some (m, c) → m.reads = false

lemma Deaf.of_eq (h : p.Deaf c) (hevents : (p'.chan c).events = (p.chan c).events)
    (hepoll : ∀ fd m, p'.epoll fd = some (m, c) → p.epoll fd = some (m, c)) : p'.Deaf c where
  events := by rw [hevents, h.events]
  watched fd m hm := h.watched fd m (hepoll fd m hm)

/-- Work on another channel. -/
lemma Deaf.of_touches (h : p.Deaf c) (htouch : p.Touches p' d) (hcd : c ≠ d) : p'.Deaf c :=
  h.of_eq (by rw [htouch.chan c hcd]) fun fd m hm =>
    (htouch.epoll fd m c hm).resolve_left hcd

variable [DecidableEq C]

/-- What `updateChannel` enters in the epoll set is what the channel wants. -/
lemma updateChannel_watched (h : p.Valid) (hok : p.updateChannel c = .ok p') {fd : ℕ} {m : Mask}
    (hm : p'.epoll fd = some (m, c)) : m = (p.chan c).events := by
  obtain ⟨hvalid, htouch, -, -⟩ := updateChannel_ok h hok
  obtain rfl : (p.chan c).fd = fd := htouch.fd.symm.trans (hvalid.watched fd m c hm).1
  by_cases hin : (p.chan c).index = .kAdded → p.epoll (p.chan c).fd ≠ none
  · have heq := updateChannel_eq h hin hok
    by_cases hdel : (p.chan c).index = .kAdded ∧ (p.chan c).isNoneEvent = true
    · rw [if_pos hdel] at heq
      subst heq
      simp [place] at hm
    · rw [if_neg hdel] at heq
      subst heq
      simpa [place, eq_comm] using hm
  · -- `EPOLL_CTL_MOD` finds nothing
    obtain ⟨hidx, hnone⟩ : (p.chan c).index = .kAdded ∧ p.epoll (p.chan c).fd = none := by
      simpa using hin
    simp only [updateChannel, hidx] at hok
    obtain ⟨-, hok⟩ := check_bind_eq_ok.mp hok
    obtain ⟨-, hok⟩ := check_bind_eq_ok.mp hok
    split_ifs at hok <;> obtain rfl := Except.ok.inj hok
    · simp [update, setIndex] at hm
    · simp [update, hnone] at hm

/-- A channel whose new events have no input in them is deaf. -/
lemma deaf_of_changeEvents {f : Mask → Mask} (h : p.Valid) (hok : p.changeEvents c f = .ok p')
    (hf : (f (p.chan c).events).reads = false) : p'.Deaf c where
  events := by
    obtain ⟨-, -, -, hevents⟩ := changeEvents_ok h hok
    rw [hevents, hf]
  watched fd m hm := by
    rw [updateChannel_watched (h.setEvents c _) hok hm]
    simpa [setEvents] using hf

/-- A change of events that adds no input. -/
lemma Deaf.changeEvents {f : Mask → Mask} (hdeaf : p.Deaf c) (h : p.Valid)
    (hok : p.changeEvents d f = .ok p') (hf : ∀ m : Mask, m.reads = false → (f m).reads = false) :
    p'.Deaf c := by
  by_cases hcd : c = d
  · subst hcd
    exact deaf_of_changeEvents h hok (hf _ hdeaf.events)
  · exact hdeaf.of_touches (changeEvents_ok h hok).2.1 hcd

lemma removeChannel_events (hok : p.removeChannel c = .ok p') :
    (p'.chan c).events = (p.chan c).events := by
  obtain ⟨-, -, rfl⟩ := removeChannel_eq hok
  simp [setIndex]

lemma Deaf.removeChannel (hdeaf : p.Deaf c) (h : p.Valid) (hok : p.removeChannel d = .ok p') :
    p'.Deaf c := by
  obtain ⟨hvalid, htouch, hindex⟩ := removeChannel_ok h hok
  by_cases hcd : c = d
  · subst hcd
    refine ⟨by rw [removeChannel_events hok, hdeaf.events], fun fd m hm => ?_⟩
    exact absurd (hindex.symm.trans (hvalid.watched fd m c hm).2) (by simp)
  · exact hdeaf.of_touches htouch hcd

/-- What was reported for a channel is its mask in the list. -/
lemma revents_fillChannels {events : List (C × Mask)} (hok : p.fillChannels events = .ok p')
    (hc : c ∈ events.map Prod.fst) : ∃ m, (c, m) ∈ events ∧ (p'.chan c).revents = m := by
  induction events generalizing p with
  | nil => simp at hc
  | cons x events ih =>
      obtain ⟨-, hok⟩ := check_bind_eq_ok.mp hok
      obtain ⟨-, hok⟩ := check_bind_eq_ok.mp hok
      by_cases hrest : c ∈ events.map Prod.fst
      · obtain ⟨m, hm, hrev⟩ := ih hok hrest
        exact ⟨m, List.mem_cons_of_mem _ hm, hrev⟩
      · obtain rfl : c = x.1 := by simpa [hrest] using hc
        refine ⟨x.2, List.mem_cons_self, ?_⟩
        rw [(fillChannels_ok hok).1.revents _ hrest]
        simp [setRevents]

lemma revents_fillActiveChannels {events : List (C × Mask)}
    (hok : p.fillActiveChannels events = .ok p') (hc : c ∈ events.map Prod.fst) :
    ∃ m, (c, m) ∈ events ∧ (p'.chan c).revents = m := by
  obtain ⟨-, hok⟩ := check_bind_eq_ok.mp hok
  cases hfill : p.fillChannels events with
  | error f => simp [hfill, bind, Except.bind] at hok
  | ok p₁ =>
      rw [hfill] at hok
      simp only [bind, Except.bind] at hok
      obtain ⟨m, hm, hrev⟩ := revents_fillChannels hfill hc
      split_ifs at hok <;> obtain rfl := Except.ok.inj hok
      · exact ⟨m, hm, hrev⟩
      · exact ⟨m, hm, hrev⟩

end EPoller

/-- `handleClose_` has run. -/
def Stage.ended : Stage → Bool
  | fresh => false
  | established => false
  | _ => true

/-- `connectDestroyed` has begun. -/
def Stage.over : Stage → Bool
  | destroying => true
  | destroyed => true
  | released => true
  | _ => false

namespace TcpServer

variable {T : Type} {s s' : TcpServer T} {c d : ℕ}

/-- The kernel reports what it was asked for, and errors and hang-ups. -/
def reportsRequested (s : TcpServer T) : Label T → Bool
  | .poll events => events.all fun x =>
      (s.poller.epoll (s.poller.chan x.1).fd).all fun e => Mask.reportable e.1 x.2
  | _ => true

/-- Closed connections ask for no input, and nothing is read from a destroyed one. -/
structure Hushed (s : TcpServer T) : Prop where
  deaf : ∀ c, (s.hist c).stage.ended = true → s.poller.Deaf (.conn c)
  unread : ∀ c, (s.hist c).stage.over = true →
    .handleRead c ∉ s.todo ∧ (.conn c ∈ s.active → (s.chan c).revents.reads = false)

lemma start_hushed (name : String) (acceptFd : ℕ) (wc : Bool) :
    (start name acceptFd wc : TcpServer T).Hushed where
  deaf c hc := by simp [start, History.new, Stage.ended] at hc
  unread c hc := by simp [start, History.new, Stage.over] at hc

lemma ended_of_over {st : Stage} (h : st.over = true) : st.ended = true := by
  cases st <;> simp_all [Stage.over, Stage.ended]

/-- A later stage that is as much an end as the one before. -/
lemma stage_setStage_keep (s : TcpServer T) (d : ℕ) (st : Stage)
    (hended : st.ended = (s.hist d).stage.ended) (hover : st.over = (s.hist d).stage.over) (c : ℕ) :
    ((s.setStage d st).hist c).stage.ended = (s.hist c).stage.ended ∧
      ((s.setStage d st).hist c).stage.over = (s.hist c).stage.over :=
  ⟨apply_update_keep s.hist (fun h => h.stage.ended) hended c,
    apply_update_keep s.hist (fun h => h.stage.over) hover c⟩

/-- No read callback is added, and no connection is destroyed. -/
lemma Hushed.keep (h : s.Hushed)
    (hdeaf : ∀ c, (s'.hist c).stage.ended = true → s'.poller.Deaf (.conn c))
    (hover : ∀ c, (s'.hist c).stage.over = true →
      (s.hist c).stage.over = true ∧ (s'.chan c).revents = (s.chan c).revents)
    (htodo : ∀ c, .handleRead c ∈ s'.todo → .handleRead c ∈ s.todo)
    (hactive : s'.active = s.active) : s'.Hushed where
  deaf := hdeaf
  unread c hc := by
    obtain ⟨hc', hrev⟩ := hover c hc
    rw [hactive, hrev]
    exact ⟨fun hread => (h.unread c hc').1 (htodo c hread), (h.unread c hc').2⟩

/-- The poller and the stages stay. -/
lemma Hushed.of_eq (h : s.Hushed) (hpoller : s'.poller = s.poller)
    (hstage : ∀ c, (s'.hist c).stage = (s.hist c).stage)
    (htodo : ∀ c, .handleRead c ∈ s'.todo → .handleRead c ∈ s.todo)
    (hactive : s'.active = s.active) : s'.Hushed := by
  refine h.keep (fun c hc => ?_) (fun c hc => ?_) htodo hactive
  · rw [hpoller]
    exact h.deaf c (hstage c ▸ hc)
  · rw [hstage] at hc
    exact ⟨hc, by rw [chan, hpoller]; rfl⟩

/-- A call that changes the events of one channel, and adds no input. -/
lemma Hushed.changeEvents {f : Mask → Mask} {p : EPoller ChannelRef} (h : s.Hushed)
    (hlinks : s.Links) (hp : s.poller.changeEvents (.conn d) f = .ok p)
    (hf : ∀ m : Mask, m.reads = false → (f m).reads = false) (hpoller : s'.poller = p)
    (hstage : ∀ c, (s'.hist c).stage = (s.hist c).stage)
    (htodo : ∀ c, .handleRead c ∈ s'.todo → .handleRead c ∈ s.todo)
    (hactive : s'.active = s.active) : s'.Hushed := by
  obtain ⟨-, htouch, -⟩ := EPoller.changeEvents_ok hlinks.valid hp
  refine h.keep (fun c hc => ?_) (fun c hc => ?_) htodo hactive
  · rw [hpoller]
    exact (h.deaf c (hstage c ▸ hc)).changeEvents hlinks.valid hp hf
  · refine ⟨hstage c ▸ hc, ?_⟩
    rw [chan, hpoller]
    by_cases hcd : c = d
    · subst hcd
      exact htouch.revents
    · rw [htouch.chan _ (by simpa using hcd)]
      rfl

lemma Hushed.sendInLoop {th : Thread T} {message : List Byte} {nwrote : Option ℕ} (h : s.Hushed)
    (hlinks : s.Links) (hok : s.sendInLoop th d message nwrote = .ok s') : s'.Hushed := by
  have hstage := stage_sendInLoop hok
  obtain ⟨p, ops, hops, hp, rfl⟩ := sendInLoop_ok hok
  have htodo : ∀ c, .handleRead c ∈ ops ++ s.todo → .handleRead c ∈ s.todo := fun c hc => by
    rcases hops with rfl | rfl <;> simpa using hc
  rcases hp with ⟨-, hp⟩ | ⟨-, rfl⟩
  · exact h.changeEvents hlinks hp (fun m hm => Mask.reads_or hm (by decide)) rfl hstage htodo rfl
  · exact h.of_eq rfl hstage htodo rfl

lemma reads_of_mem (h : .handleRead c ∈ s.eventOps (.conn c)) :
    (s.chan c).revents.reads = true := by
  simp only [eventOps, handleEvent, List.mem_append] at h
  rcases h with ((h | h) | h) | h
  · split_ifs at h <;> simp at h
  · split_ifs at h <;> simp at h
  · split_ifs at h with hreads
    · exact hreads
    · simp at h
  · split_ifs at h <;> simp at h

/-- The next active channel is handled. -/
lemma Hushed.dispatched {ref : ChannelRef} {active : List ChannelRef} (h : s.Hushed)
    (hactive : s.active = ref :: active) :
    Hushed { s with active := active, todo := s.eventOps ref } := by
  refine ⟨h.deaf, fun c hc => ⟨fun hread => ?_, fun hmem => ?_⟩⟩
  · obtain rfl : ref = .conn c := Option.some.inj (event_of_mem_eventOps hread).symm
    have hreads := (h.unread c hc).2 (hactive ▸ List.mem_cons_self)
    exact absurd ((reads_of_mem hread).symm.trans hreads) (by simp)
  · exact (h.unread c hc).2 (hactive ▸ List.mem_cons_of_mem _ hmem)

/-- A new connection is not closed. -/
lemma Hushed.newConnection {sockfd : ℕ} (h : s.Hushed) (hlinks : s.Links)
    (hfresh : (s.hist s.nextConnId).stage = .fresh) (hok : s.newConnection sockfd = .ok s') :
    s'.Hushed := by
  obtain ⟨-, p, hp, rfl⟩ := newConnection_ok hok
  have hvalid := hlinks.valid.newChannel ((hlinks.linked _).new hfresh) sockfd
  obtain ⟨-, htouch, -⟩ := EPoller.changeEvents_ok hvalid hp
  -- a connection that is closed is another one
  have hne : ∀ c, (Function.update s.hist s.nextConnId
      { s.hist s.nextConnId with stage := .established } c).stage.ended = true →
      c ≠ s.nextConnId ∧ (s.hist c).stage.ended = true := fun c hc => by
    by_cases hcn : c = s.nextConnId
    · subst hcn
      simp [Stage.ended] at hc
    · exact ⟨hcn, by simpa [hcn] using hc⟩
  have hchan : ∀ c, c ≠ s.nextConnId → p.chan (.conn c) = s.poller.chan (.conn c) :=
    fun c hcn => by
      rw [htouch.chan _ (by simpa using hcn)]
      simp [EPoller.newChannel, hcn]
  refine h.keep (fun c hc => ?_) (fun c hc => ?_) (fun c hread => by simpa using hread) rfl
  · obtain ⟨hcn, hc'⟩ := hne c hc
    refine (h.deaf c hc').of_eq (by rw [hchan c hcn]) fun fd m hm => ?_
    exact (htouch.epoll fd m _ hm).resolve_left (by simpa using hcn)
  · obtain ⟨hcn, -⟩ := hne c (ended_of_over hc)
    refine ⟨?_, by rw [chan, hchan c hcn]; rfl⟩
    simpa [hcn] using hc

lemma Hushed.removeChannel (h : s.Hushed) (hlinks : s.Links)
    (hstage : (s.hist d).stage = .destroying) (hok : s.removeChannel d = .ok s') : s'.Hushed := by
  obtain ⟨p, hp, rfl⟩ := removeChannel_ok hok
  obtain ⟨-, htouch, -⟩ := EPoller.removeChannel_ok hlinks.valid hp
  have hsame := stage_setStage_keep s d .destroyed
    (by simp [hstage, Stage.ended]) (by simp [hstage, Stage.over])
  refine h.keep (fun c hc => ?_) (fun c hc => ⟨(hsame c).2.symm.trans hc, ?_⟩) (fun _ => id) rfl
  · exact (h.deaf c ((hsame c).1.symm.trans hc)).removeChannel hlinks.valid hp
  · change (p.chan (.conn c)).revents = _
    by_cases hcd : c = d
    · subst hcd
      exact htouch.revents
    · rw [htouch.chan _ (by simpa using hcd)]
      rfl

/-- A connection is destroyed when no handler is left to run. -/
lemma Hushed.connectDestroyed (h : s.Hushed) (hlinks : s.Links) (htodo : s.todo = [])
    (hactive : s.active = []) (hok : s.connectDestroyed d = .ok s') : s'.Hushed := by
  obtain ⟨-, p, hp, rfl⟩ := connectDestroyed_ok hok
  obtain ⟨-, htouch, -⟩ := EPoller.changeEvents_ok hlinks.valid hp
  refine ⟨fun c hc => ?_, fun c _ => ⟨by simp [htodo], fun hmem => ?_⟩⟩
  · by_cases hcd : c = d
    · subst hcd
      exact EPoller.deaf_of_changeEvents hlinks.valid hp (by decide)
    · exact (h.deaf c (by simpa [hcd] using hc)).of_touches htouch (by simpa using hcd)
  · exact absurd hmem (by simp [hactive])

/-- A connection is released, and its descriptor closed. -/
lemma Hushed.close (h : s.Hushed) (hstage : (s.hist d).stage = .destroyed) :
    Hushed ({ s with
      poller := s.poller.close (s.fd d)
      openFds := Function.update s.openFds (s.fd d) false }.setStage d .released) := by
  have hsame := stage_setStage_keep s d .released
    (by simp [hstage, Stage.ended]) (by simp [hstage, Stage.over])
  refine h.keep (fun c hc => ?_) (fun c hc => ⟨(hsame c).2.symm.trans hc, rfl⟩) (fun _ => id) rfl
  refine (h.deaf c ((hsame c).1.symm.trans hc)).of_eq rfl fun fd m hm => ?_
  simp only [setStage, setHist, EPoller.close] at hm
  by_cases hfd : fd = s.fd d
  · simp [hfd] at hm
  · simpa [hfd] using hm

/-- A functor of the batch. -/
lemma Hushed.runFunctor {nwrote : Option ℕ} {cb : ServerFunctor T} (h : s.Hushed)
    (hlinks : s.Links) (htodo : s.todo = []) (hactive : s.active = [])
    (hok : s.runFunctor nwrote cb = some (.ok s')) : s'.Hushed := by
  cases cb with
  | sendInLoop t d message =>
      simp only [TcpServer.runFunctor] at hok
      split_ifs at hok
      exact h.sendInLoop hlinks (Option.some.inj hok)
  | shutdownInLoop d =>
      obtain rfl := Except.ok.inj (Option.some.inj hok)
      exact h.of_eq rfl (fun _ => rfl) (fun _ => id) rfl
  | connectDestroyed d => exact h.connectDestroyed hlinks htodo hactive (Option.some.inj hok)
  | writeComplete d =>
      obtain rfl := Except.ok.inj (Option.some.inj hok)
      exact h.of_eq rfl (fun _ => rfl) (fun c hc => by simpa [doFirst] using hc) rfl

section Hushed

variable [DecidableEq T]

/-- `poll` returns: a destroyed connection is reported nothing to read. -/
lemma Hushed.polled {events : List (ChannelRef × Mask)}
    {e : EventLoop (Thread T) (ServerFunctor T)} {p : EPoller ChannelRef} (h : s.Hushed)
    (hsane : s.Sane) (hl : s.reportsRequested (.poll events) = true)
    (hrep : s.reportable events = true) (hpc : s.loop.pc = .polling)
    (hfill : s.poller.fillActiveChannels events = .ok p) :
    Hushed { s with loop := e, poller := p, active := events.map Prod.fst } := by
  have hreports := EPoller.fillActiveChannels_ok hfill
  have hphase := hsane.dispatching.phase
  rw [Phase, hpc] at hphase
  refine ⟨fun c hc => ?_, fun c hc => ⟨by simp [hphase.2], fun hactive => ?_⟩⟩
  · refine (h.deaf c hc).of_eq (hreports.chan _).2.2 fun fd m hm => ?_
    rw [← hreports.epoll]
    exact hm
  · obtain ⟨m, hm, hrev⟩ := EPoller.revents_fillActiveChannels hfill hactive
    change (p.chan (.conn c)).revents.reads = false
    rw [hrev]
    simp only [TcpServer.reportable, decide_eq_true_eq] at hrep
    obtain ⟨⟨requested, r⟩, hepoll, hr⟩ := Option.map_eq_some_iff.mp (hrep.2.2 _ hm)
    obtain rfl : r = .conn c := hr
    have hmask : Mask.reportable requested m = true := by
      have hx := List.all_eq_true.mp hl _ hm
      simpa [hepoll] using hx
    exact Mask.reads_of_reportable hmask ((h.deaf c (ended_of_over hc)).watched _ _ hepoll)

/-- A connection that is closed asks for nothing any more. -/
lemma Hushed.handleClose (h : s.Hushed) (hlinks : s.Links) (hok : s.handleClose d = .ok s') :
    s'.Hushed := by
  obtain ⟨-, -, p, hp, rfl⟩ := handleClose_ok hok
  obtain ⟨-, htouch, -⟩ := EPoller.changeEvents_ok hlinks.valid hp
  refine h.keep (fun c hc => ?_) (fun c hc => ?_) (fun _ => id) rfl
  · by_cases hcd : c = d
    · subst hcd
      exact EPoller.deaf_of_changeEvents hlinks.valid hp (by decide)
    · exact (h.deaf c (by simpa [hcd] using hc)).of_touches htouch (by simpa using hcd)
  · have hcd : c ≠ d := by
      rintro rfl
      simp [Stage.over] at hc
    refine ⟨by simpa [hcd] using hc, ?_⟩
    change (p.chan (.conn c)).revents = _
    rw [htouch.chan _ (by simpa using hcd)]
    rfl

/-- **Every step keeps closed connections deaf**, if the kernel reports what it was asked
for. -/
theorem Hushed.move {l : Label T} (h : s.Hushed) (hsane : s.Sane)
    (hl : s.reportsRequested l = true) (hm : Move s l s') : s'.Hushed := by
  have hpop : s.pop.Hushed := h.of_eq rfl (fun _ => rfl) (fun _ => List.mem_of_mem_tail) rfl
  have hlinks : s.pop.Links := hsane.links.of_same rfl rfl rfl fun _ => rfl
  cases hm with
  | refused => exact h
  | accepted => exact h.of_eq rfl (stage_accept s _ _ _) (fun _ => id) rfl
  | checked | pushed | looped | userRead => exact h.of_eq rfl (fun _ => rfl) (fun _ => id) rfl
  | disconnecting => exact h.of_eq rfl (stage_setDisconnecting s _) (fun _ => id) rfl
  | polled hrep hpc _ _ _ hfill => exact h.polled hsane hl hrep hpc hfill
  | dispatched hactive => exact h.dispatched hactive
  | dropped => exact hpop
  | connected htodo hfd hok =>
      exact hpop.newConnection hlinks ((hsane.ledger.ids _).mpr (Or.inr le_rfl)) hok
  | closed htodo hop hok => exact hpop.handleClose hlinks hok
  | read =>
      exact hpop.of_eq rfl (fun _ => rfl) (fun c hc => by simpa [doFirst, setConn] using hc) rfl
  | wrote htodo hw hok =>
      rcases handleWrite_ok (s := s.pop) hw hok with ⟨-, rfl⟩ | ⟨-, p, ops, hops, hp, rfl⟩
      · exact hpop.of_eq rfl (fun _ => rfl) (fun _ => id) rfl
      · refine hpop.changeEvents hlinks hp (fun m hm => Mask.reads_and hm _) rfl (fun _ => rfl)
          (fun c hc => ?_) rfl
        rcases hops with rfl | rfl <;> simpa using hc
  | shutDrained => exact hpop.of_eq rfl (fun _ => rfl) (fun _ => id) rfl
  | completed => exact hpop.of_eq rfl (fun _ => rfl) (fun _ => id) rfl
  | shutDirect => exact hpop.of_eq rfl (stage_setDisconnecting s.pop _) (fun _ => id) rfl
  | removed htodo hok =>
      have hstage := hsane.ledger.stage_of_todo (htodo ▸ List.mem_cons_self)
      exact hpop.removeChannel hlinks hstage hok
  | @userSent d message nwrote todo s' htodo husable hstate hok =>
      have haccept : (s.accept .loop d message).Hushed :=
        h.of_eq rfl (stage_accept s _ _ _) (fun _ => id) rfl
      exact haccept.sendInLoop (hsane.links.accept _ _ _) hok
  | userShut => exact h.of_eq rfl (fun _ => rfl) (fun c hc => by simpa [doFirst] using hc) rfl
  | @ran nwrote cb functors e s' htodo hqueue hpc hpc' hid hok =>
      have he : Hushed { s with loop := e } := h.of_eq rfl (fun _ => rfl) (fun _ => id) rfl
      have helinks : Links { s with loop := e } := hsane.links.of_same rfl rfl rfl fun _ => rfl
      exact he.runFunctor helinks htodo (hsane.dispatching.calm (by simp [hpc])).1 hok
  | released hstage => exact h.close hstage

end Hushed

/-! ### The callbacks -/

/-- The callbacks of a connection, the first with what `connected()` is when it is called. -/
inductive Callback where
  | connection (connected : Bool)
  | message
  deriving DecidableEq

/-- The callback that the step to `s'` calls, with its connection. -/
def callback (s : TcpServer T) (l : Label T) (s' : TcpServer T) : Option (ℕ × Callback) :=
  match l with
  | .exec r =>
      match s.todo, r.accept, r.read with
      | .accept :: _, some _, _ =>
          some (s.nextConnId, .connection (s'.conns s.nextConnId).connected)
      | .handleRead c :: _, _, .data _ => some (c, .message)
      | _, _, _ => none
  | .run _ =>
      match s.loop.pc.functors with
      | .connectDestroyed c :: _ => some (c, .connection (s'.conns c).connected)
      | _ => none
  | _ => none

/-- A message callback belongs to a read handler that is next. -/
lemma read_of_message {l : Label T} (h : s.callback l s' = some (c, .message)) :
    .handleRead c ∈ s.todo := by
  cases l with
  | exec r =>
      simp only [callback] at h
      split at h
      · simp at h
      · rename_i d todo bytes htodo _
        obtain rfl : d = c := by simpa using h
        exact htodo ▸ List.mem_cons_self
      · simp at h
  | run nwrote =>
      simp only [callback] at h
      split at h <;> simp at h
  | _ => simp [callback] at h

/-- The same connections are built, and the same ones are destroyed. -/
def SameTold (s s' : TcpServer T) : Prop :=
  ∀ d, ((s'.hist d).stage = .fresh ↔ (s.hist d).stage = .fresh) ∧
    (s'.hist d).stage.over = (s.hist d).stage.over

lemma sameTold_of_stage (h : ∀ d, (s'.hist d).stage = (s.hist d).stage) : SameTold s s' :=
  fun d => by simp [h d]

/-- A connection goes on to a stage in which as much is told of it. -/
lemma sameTold_of_update {st : Stage} {h : History T} (hst : h.stage = st)
    (hhist : s'.hist = Function.update s.hist c h) (hbefore : (s.hist c).stage ≠ .fresh)
    (hafter : st ≠ .fresh) (hover : st.over = (s.hist c).stage.over) : SameTold s s' := by
  intro d
  rw [hhist]
  by_cases hdc : d = c
  · subst hdc
    simp [hst, hbefore, hafter, hover]
  · simp [hdc]

/-- What a step does to the stages, by the callback it calls. -/
inductive Speaks (s s' : TcpServer T) : Option (ℕ × Callback) → Prop
  | up {c : ℕ} (hbefore : (s.hist c).stage = .fresh)
      (hafter : (s'.hist c).stage = .established)
      (hother : ∀ d, d ≠ c → (s'.hist d).stage = (s.hist d).stage) :
      Speaks s s' (some (c, .connection true))
  | message {c : ℕ} (hread : .handleRead c ∈ s.todo)
      (hstage : ∀ d, (s'.hist d).stage = (s.hist d).stage) : Speaks s s' (some (c, .message))
  | down {c : ℕ} (hbefore : (s.hist c).stage = .closed)
      (hafter : (s'.hist c).stage = .destroying)
      (hother : ∀ d, d ≠ c → (s'.hist d).stage = (s.hist d).stage) :
      Speaks s s' (some (c, .connection false))
  | silent (hsame : SameTold s s') : Speaks s s' none

variable [DecidableEq T]

/-- A step that neither accepts a connection nor enters `connectDestroyed`. -/
lemma Move.sameTold {l : Label T} (hm : Move s l s') (hsane : s.Sane)
    (haccept : ∀ r todo, l = .exec r → s.todo ≠ .accept :: todo)
    (hdestroy : ∀ nwrote c functors, l = .run nwrote →
      s.loop.pc.functors ≠ .connectDestroyed c :: functors) : SameTold s s' := by
  cases hm with
  | refused | checked | pushed | looped | polled | dispatched | dropped | read | shutDrained |
    completed | userShut | userRead => exact sameTold_of_stage fun _ => rfl
  | accepted => exact sameTold_of_stage (stage_accept s _ _ _)
  | disconnecting => exact sameTold_of_stage (stage_setDisconnecting s _)
  | shutDirect => exact sameTold_of_stage (stage_setDisconnecting s.pop _)
  | connected htodo => exact absurd htodo (haccept _ _ rfl)
  | @closed r op todo d s' htodo hop hok =>
      have hev : op.event = some (.conn d) := by rcases hop with rfl | ⟨rfl, -⟩ <;> rfl
      have hfresh := (hsane.stage_of_event (htodo ▸ List.mem_cons_self) hev).1
      obtain ⟨-, hname, p, -, rfl⟩ := handleClose_ok hok
      have hstage := hsane.ledger.established_of_connections hfresh hname
      exact sameTold_of_update rfl rfl hfresh (by simp) (by rw [hstage]; rfl)
  | wrote htodo hw hok =>
      rcases handleWrite_ok (s := s.pop) hw hok with ⟨-, rfl⟩ | ⟨-, p, ops, -, -, rfl⟩
      · exact sameTold_of_stage fun _ => rfl
      · exact sameTold_of_stage fun _ => rfl
  | removed htodo hok =>
      have hstage := hsane.ledger.stage_of_todo (htodo ▸ List.mem_cons_self)
      obtain ⟨p, -, rfl⟩ := removeChannel_ok hok
      exact sameTold_of_update rfl rfl (by simp [hstage]) (by simp) (by rw [hstage]; rfl)
  | userSent htodo husable hstate hok =>
      exact sameTold_of_stage fun d => (stage_sendInLoop hok d).trans (stage_accept s _ _ _ d)
  | @ran nwrote cb functors e s' htodo hqueue hpc hpc' hid hok =>
      cases cb with
      | sendInLoop t d message =>
          simp only [runFunctor] at hok
          split_ifs at hok
          have hstage := stage_sendInLoop (Option.some.inj hok)
          exact sameTold_of_stage hstage
      | shutdownInLoop d =>
          obtain rfl := Except.ok.inj (Option.some.inj hok)
          exact sameTold_of_stage fun _ => rfl
      | connectDestroyed d =>
          exact absurd (by rw [hpc]; rfl) (hdestroy nwrote d functors rfl)
      | writeComplete d =>
          obtain rfl := Except.ok.inj (Option.some.inj hok)
          exact sameTold_of_stage fun _ => rfl
  | released hstage =>
      exact sameTold_of_update rfl rfl (by simp [hstage]) (by simp) (by rw [hstage]; rfl)

/-- **What a step tells goes with what it does.** -/
theorem speaks_of_next {l : Label T} (hsane : s.Sane) (hnext : s.next l = some s') :
    Speaks s s' (s.callback l s') := by
  have hm := move_of_next hsane.ledger.threadId hnext
  have hstep := next_eq_some.mp hnext
  have hsilent : s.callback l s' = none → SameTold s s' →
      Speaks s s' (s.callback l s') := fun hnone hsame => hnone ▸ .silent hsame
  cases l with
  | exec r =>
      cases htodo : s.todo with
      | nil => simp [step, htodo] at hstep
      | cons op todo =>
          have hpop : ({ s with todo := todo } : TcpServer T) = s.pop := by simp [pop, htodo]
          have hsame : (∀ todo', s.todo ≠ .accept :: todo') → SameTold s s' := fun haccept =>
            hm.sameTold hsane (fun _ todo' _ => haccept todo') (by simp)
          simp only [step, htodo, hpop] at hstep
          split_ifs at hstep
          cases op with
          | accept =>
              simp only [execOp] at hstep
              split_ifs at hstep
              cases hr : r.accept with
              | none =>
                  rw [hr] at hstep
                  obtain rfl : s.pop = s' := by
                    simpa [handleAccept, pure, Except.pure] using hstep
                  exact hsilent (by simp [callback, htodo, hr])
                    (sameTold_of_stage fun _ => rfl)
              | some sockfd =>
                  rw [hr] at hstep
                  obtain ⟨-, p, -, rfl⟩ := newConnection_ok (Option.some.inj hstep)
                  have hfresh : (s.hist s.nextConnId).stage = .fresh :=
                    (hsane.ledger.ids _).mpr (Or.inr le_rfl)
                  simp only [callback, htodo, hr, pop, Function.update_self,
                    TcpConnection.connected, TcpConnection.setState, decide_true]
                  exact .up hfresh (by simp) fun d hd => by simp [hd]
          | handleRead c =>
              simp only [execOp, Option.some.injEq] at hstep
              cases hr : r.read with
              | data bytes =>
                  rw [hr] at hstep
                  obtain rfl := Except.ok.inj hstep
                  simp only [callback, htodo, hr]
                  exact .message (htodo ▸ List.mem_cons_self) fun _ => rfl
              | eof => exact hsilent (by simp [callback, htodo, hr]) (hsame (by simp [htodo]))
              | error => exact hsilent (by simp [callback, htodo, hr]) (hsame (by simp [htodo]))
          | _ => exact hsilent (by simp [callback, htodo]) (hsame (by simp [htodo]))
  | run nwrote =>
      by_cases hdestroy : ∃ c functors, s.loop.pc.functors = .connectDestroyed c :: functors
      · obtain ⟨c, functors, hcb⟩ := hdestroy
        simp only [step, hcb] at hstep
        split_ifs at hstep
        obtain ⟨s₁, hs₁, hstep⟩ := Option.bind_eq_some_iff.mp hstep
        obtain ⟨e, he, rfl⟩ := Option.map_eq_some_iff.mp hs₁
        have hmem : .connectDestroyed c ∈ s.loop.queue := by
          rw [(EventLoop.step_run hcb he).1]
          exact List.mem_cons_self
        obtain ⟨-, p, -, rfl⟩ := connectDestroyed_ok (Option.some.inj hstep)
        simp only [callback, hcb, Function.update_self, TcpConnection.connected,
          TcpConnection.setState]
        exact .down (hsane.ledger.stage_of_queue hmem) (by simp) fun d hd => by simp [hd]
      · refine hsilent ?_ (hm.sameTold hsane (by simp) fun _ c functors _ hcb =>
          hdestroy ⟨c, functors, hcb⟩)
        simp only [callback]
        split
        · rename_i c functors hcb
          exact absurd ⟨c, functors, hcb⟩ hdestroy
        · rfl
  | _ => exact .silent (hm.sameTold hsane (by simp) (by simp))

end TcpServer

/-! ### What the user is told of a connection -/

/-- One call with `connected()` true, messages, and at most one call with `connected()`
false. -/
def InOrder (l : List TcpServer.Callback) : Prop :=
  l = [] ∨ ∃ n, l = .connection true :: List.replicate n .message ∨
    l = .connection true :: (List.replicate n .message ++ [.connection false])

/-- What is told of a connection at this stage of its life. -/
structure Stage.Tells (st : Stage) (l : List TcpServer.Callback) : Prop where
  fresh : st = .fresh → l = []
  up : st ≠ .fresh → st.over = false → ∃ n, l = .connection true :: List.replicate n .message
  down : st.over = true →
    ∃ n, l = .connection true :: (List.replicate n .message ++ [.connection false])

lemma Stage.Tells.inOrder {st : Stage} {l : List TcpServer.Callback} (h : st.Tells l) :
    InOrder l := by
  by_cases hfresh : st = .fresh
  · exact Or.inl (h.fresh hfresh)
  · cases hover : st.over with
    | false =>
        obtain ⟨n, hn⟩ := h.up hfresh hover
        exact Or.inr ⟨n, Or.inl hn⟩
    | true =>
        obtain ⟨n, hn⟩ := h.down hover
        exact Or.inr ⟨n, Or.inr hn⟩

/-- A connection that was built has had its first callback. -/
lemma Stage.Tells.head?_eq {st : Stage} {l : List TcpServer.Callback} (h : st.Tells l)
    (hst : st ≠ .fresh) : l.head? = some (.connection true) := by
  cases hover : st.over with
  | false =>
      obtain ⟨n, hn⟩ := h.up hst hover
      rw [hn, List.head?_cons]
  | true =>
      obtain ⟨n, hn⟩ := h.down hover
      rw [hn, List.head?_cons]

lemma Stage.Tells.congr {st st' : Stage} {l : List TcpServer.Callback} (h : st.Tells l)
    (hfresh : st' = .fresh ↔ st = .fresh) (hover : st'.over = st.over) : st'.Tells l where
  fresh hst := h.fresh (hfresh.mp hst)
  up hst ho := h.up (mt hfresh.mpr hst) (hover ▸ ho)
  down ho := h.down (hover ▸ ho)

/-- A server, and the callbacks it has called, with their connections. -/
structure Observed (T : Type) where
  server : TcpServer T
  log : List (ℕ × TcpServer.Callback)

namespace Observed

variable {T : Type} {o o' : Observed T}

def start (name : String) (acceptFd : ℕ) (wc : Bool) : Observed T :=
  ⟨TcpServer.start name acceptFd wc, []⟩

/-- The callbacks of one connection. -/
def callbacks (o : Observed T) (c : ℕ) : List TcpServer.Callback :=
  (o.log.filter fun x => x.1 = c).map Prod.snd

lemma callbacks_append (o : Observed T) (s' : TcpServer T) (c d : ℕ) (cb : TcpServer.Callback) :
    callbacks ⟨s', o.log ++ [(c, cb)]⟩ d = o.callbacks d ++ if c = d then [cb] else [] := by
  by_cases hcd : c = d <;> simp [callbacks, hcd]

variable [DecidableEq T]

/-- A step of the server, and the callback it calls. -/
def next (o : Observed T) (l : TcpServer.Label T) : Option (Observed T) :=
  (o.server.next l).map fun s' => ⟨s', o.log ++ (o.server.callback l s').toList⟩

/-- The states a server comes through, over a kernel that reports what it was asked for. -/
def Reaches (o o' : Observed T) : Prop :=
  Reach next (fun o l => o.server.reportsRequested l = true) o o'

/-- What holds of a server and its callbacks in every state. -/
structure Told (o : Observed T) : Prop where
  sane : o.server.Sane
  hushed : o.server.Hushed
  tells : ∀ c, (o.server.hist c).stage.Tells (o.callbacks c)

lemma start_told (name : String) (acceptFd : ℕ) (wc : Bool) :
    (start name acceptFd wc : Observed T).Told where
  sane := TcpServer.start_sane name acceptFd wc
  hushed := TcpServer.start_hushed name acceptFd wc
  tells _ := ⟨fun _ => rfl, fun h => absurd rfl h, by
    simp [start, TcpServer.start, History.new, Stage.over]⟩

/-- **Every step tells the next thing.** -/
lemma Told.next {l : TcpServer.Label T} (h : o.Told)
    (hl : o.server.reportsRequested l = true) (hnext : o.next l = some o') : o'.Told := by
  obtain ⟨s', hs', rfl⟩ := Option.map_eq_some_iff.mp hnext
  refine ⟨h.sane.next hs', ?_, fun d => ?_⟩
  · exact h.hushed.move h.sane hl (TcpServer.move_of_next h.sane.ledger.threadId hs')
  have htells := h.tells d
  have hspeaks := TcpServer.speaks_of_next h.sane hs'
  generalize o.server.callback l s' = cb at hspeaks ⊢
  cases hspeaks with
  | @up c hbefore hafter hother =>
      rw [Option.toList_some, callbacks_append]
      by_cases hcd : c = d
      · subst hcd
        rw [htells.fresh hbefore, if_pos rfl]
        exact ⟨by simp [hafter], fun _ _ => ⟨0, rfl⟩, by simp [hafter, Stage.over]⟩
      · rw [if_neg hcd, List.append_nil, hother d (Ne.symm hcd)]
        exact htells
  | @message c hread hstage =>
      rw [Option.toList_some, callbacks_append, hstage]
      by_cases hcd : c = d
      · subst hcd
        -- nothing is read from a destroyed connection
        have hfresh := (h.sane.stage_of_event hread rfl).1
        have hover : (o.server.hist c).stage.over = false := by
          by_contra hover
          exact (h.hushed.unread c (by simpa using hover)).1 hread
        obtain ⟨n, hn⟩ := htells.up hfresh hover
        rw [hn, if_pos rfl]
        refine ⟨fun hf => absurd hf hfresh, fun _ _ => ⟨n + 1, ?_⟩, by simp [hover]⟩
        rw [List.replicate_succ', List.cons_append]
      · rw [if_neg hcd, List.append_nil]
        exact htells
  | @down c hbefore hafter hother =>
      rw [Option.toList_some, callbacks_append]
      by_cases hcd : c = d
      · subst hcd
        obtain ⟨n, hn⟩ := htells.up (by simp [hbefore]) (by simp [hbefore, Stage.over])
        rw [hn, if_pos rfl]
        exact ⟨by simp [hafter], by simp [hafter, Stage.over], fun _ => ⟨n, rfl⟩⟩
      · rw [if_neg hcd, List.append_nil, hother d (Ne.symm hcd)]
        exact htells
  | silent hsame =>
      rw [Option.toList_none, List.append_nil]
      exact htells.congr (hsame d).1 (hsame d).2

lemma told_of_reaches {name : String} {acceptFd : ℕ} {wc : Bool}
    (h : Reaches (start name acceptFd wc) o) : o.Told :=
  h.invariant (fun _ _ _ ho hl hnext => ho.next hl hnext) (start_told name acceptFd wc)

end Observed

end Tractor
