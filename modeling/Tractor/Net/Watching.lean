import Tractor.Net.EPollSet
import Tractor.Net.Shutdown

/-!
What the kernel watches for the connections of a server.

* `EPoller.Watched`: a channel is in the epoll set with its own mask and pointer; calls on other
  channels leave it there.
* `established_watched`: **in every run, an established connection is watched for reading, and for
  writing exactly while bytes are buffered.**
-/

namespace Tractor

open Library

namespace EPoller

variable {C : Type} {p p' : EPoller C} {c d : C}

/-- The channel is in the epoll set with its own mask and pointer. -/
structure Watched (p : EPoller C) (c : C) : Prop where
  index : (p.chan c).index = .kAdded
  epoll : p.epoll (p.chan c).fd = some ((p.chan c).events, c)

lemma Watched.of_eq (h : p.Watched d) (hfd : (p'.chan d).fd = (p.chan d).fd)
    (hindex : (p'.chan d).index = (p.chan d).index)
    (hevents : (p'.chan d).events = (p.chan d).events)
    (hepoll : p'.epoll (p.chan d).fd = p.epoll (p.chan d).fd) : p'.Watched d :=
  ⟨hindex.trans h.index, by rw [hfd, hepoll, hevents, h.epoll]⟩

variable [DecidableEq C]

/-- Another channel changes its events. -/
lemma Watched.changeEvents_of_ne (h : p.Watched d) (hvalid : p.Valid) (hdc : d ≠ c)
    {f : Mask → Mask} (hok : p.changeEvents c f = .ok p') : p'.Watched d := by
  obtain ⟨hvalid', htouch, hindex, -⟩ := changeEvents_ok hvalid hok
  have hsame := htouch.chan d hdc
  -- two registered channels have two descriptors
  have hfd : (p.chan d).fd ≠ (p.chan c).fd := by
    intro hfd
    refine hdc (hvalid'.eq_of_fd (by rw [hsame, h.index]; simp) hindex ?_)
    rw [hsame, htouch.fd, hfd]
  refine h.of_eq (by rw [hsame]) (by rw [hsame]) (by rw [hsame]) ?_
  obtain ⟨i, op, e, rfl, -, -, hother, -⟩ := updateChannel_eq_place (hvalid.setEvents c _) hok
  exact hother _ (by simpa [setEvents] using hfd)

/-- The channel itself changes its events, and still wants some. -/
lemma watched_changeEvents {f : Mask → Mask} (hvalid : p.Valid)
    (h : (p.chan c).index = .kAdded → p.Watched c)
    (hm : f (p.chan c).events ≠ Channel.kNoneEvent) (hok : p.changeEvents c f = .ok p') :
    p'.Watched c := by
  have heq := updateChannel_eq (hvalid.setEvents c _) (fun hindex => ?_) hok
  · rw [if_neg (by simp [setEvents, Channel.isNoneEvent, hm])] at heq
    subst heq
    exact ⟨by simp [place, setIndex], by simp [place, setIndex, setEvents]⟩
  · have hwatched := h (by simpa [setEvents] using hindex)
    simp [setEvents, hwatched.epoll]

/-- Another channel is removed. -/
lemma Watched.removeChannel_of_ne (h : p.Watched d) (hvalid : p.Valid) (hdc : d ≠ c)
    (hok : p.removeChannel c = .ok p') : p'.Watched d := by
  obtain ⟨-, htouch, -⟩ := removeChannel_ok hvalid hok
  have hsame := htouch.chan d hdc
  refine h.of_eq (by rw [hsame]) (by rw [hsame]) (by rw [hsame]) ?_
  obtain ⟨hsome, -, rfl⟩ := removeChannel_eq hok
  have hfd : (p.chan d).fd ≠ (p.chan c).fd := fun hfd =>
    hdc (hvalid.eq_of_fd (by rw [h.index]; simp) (hvalid.found _ c hsome).2 hfd)
  by_cases hadded : (p.chan c).index = .kAdded
  · simp [hadded, hfd]
  · simp [hadded]

/-- The event list never gets shorter. -/
lemma eventListSize_fillActiveChannels {events : List (C × Mask)}
    (hok : p.fillActiveChannels events = .ok p') : p.eventListSize ≤ p'.eventListSize := by
  obtain ⟨-, hok⟩ := check_bind_eq_ok.mp hok
  cases hp : p.fillChannels events with
  | error f => simp [hp, bind, Except.bind] at hok
  | ok p₁ =>
      rw [hp] at hok
      have hsize := (fillChannels_ok hp).2
      simp only [bind, Except.bind] at hok
      split_ifs at hok <;> obtain rfl := Except.ok.inj hok
      · simp only [hsize]
        omega
      · exact hsize.ge

end EPoller

namespace TcpServer

variable {T : Type} {s s' : TcpServer T} {c d : ℕ}

/-- An established connection is watched, always for reading. -/
def Listens (s : TcpServer T) (c : ℕ) : Prop :=
  (s.hist c).stage = .established → s.poller.Watched (.conn c) ∧
    ((s.chan c).events = Channel.kReadEvent ∨
      (s.chan c).events = Channel.kReadEvent ||| Channel.kWriteEvent)

lemma start_listens (name : String) (acceptFd : ℕ) (wc : Bool) (c : ℕ) :
    (start name acceptFd wc : TcpServer T).Listens c :=
  fun hc => absurd hc (by simp [start, History.new])

lemma Listens.of_eq (h : s.Listens c)
    (hstage : (s'.hist c).stage = .established → (s.hist c).stage = .established)
    (hpoller : s'.poller = s.poller) : s'.Listens c := by
  intro hc
  rw [chan, hpoller]
  exact h (hstage hc)

/-- Work on the channel of another connection. -/
lemma Listens.changeEvents_of_ne {p : EPoller ChannelRef} {f : Mask → Mask} (h : s.Listens c)
    (hvalid : s.poller.Valid) (hcd : c ≠ d) (hp : s.poller.changeEvents (.conn d) f = .ok p)
    (hpoller : s'.poller = p)
    (hstage : (s'.hist c).stage = .established → (s.hist c).stage = .established) :
    s'.Listens c := by
  intro hc
  obtain ⟨hwatched, hevents⟩ := h (hstage hc)
  obtain ⟨-, htouch, -⟩ := EPoller.changeEvents_ok hvalid hp
  rw [chan, hpoller, htouch.chan _ (by simpa using hcd)]
  exact ⟨hwatched.changeEvents_of_ne hvalid (by simpa using hcd) hp, hevents⟩

/-- Its own channel is enabled or disabled for writing. -/
lemma Listens.changeEvents {p : EPoller ChannelRef} {f : Mask → Mask} (h : s.Listens c)
    (hvalid : s.poller.Valid) (hp : s.poller.changeEvents (.conn c) f = .ok p)
    (hf : ∀ m, m = Channel.kReadEvent ∨ m = Channel.kReadEvent ||| Channel.kWriteEvent →
      f m = Channel.kReadEvent ∨ f m = Channel.kReadEvent ||| Channel.kWriteEvent)
    (hpoller : s'.poller = p)
    (hstage : (s'.hist c).stage = .established → (s.hist c).stage = .established) :
    s'.Listens c := by
  intro hc
  obtain ⟨hwatched, hevents⟩ := h (hstage hc)
  obtain ⟨-, -, -, hevents'⟩ := EPoller.changeEvents_ok hvalid hp
  have hnew := hf _ hevents
  rw [chan, hpoller, hevents']
  refine ⟨EPoller.watched_changeEvents hvalid (fun _ => hwatched) ?_ hp, hnew⟩
  rcases hnew with hnew | hnew
  · exact fun hnone => absurd (hnew.symm.trans hnone) (by decide)
  · exact fun hnone => absurd (hnew.symm.trans hnone) (by decide)

lemma Listens.sendInLoop {th : Thread T} {message : List Byte} {nwrote : Option ℕ}
    (h : s.Listens c) (hlinks : s.Links) (hok : s.sendInLoop th d message nwrote = .ok s') :
    s'.Listens c := by
  have hstage := stage_sendInLoop hok c
  obtain ⟨p, ops, -, hp, rfl⟩ := sendInLoop_ok hok
  rcases hp with ⟨-, hp⟩ | ⟨-, rfl⟩
  · by_cases hcd : c = d
    · subst hcd
      refine h.changeEvents hlinks.valid hp (fun m hm => ?_) rfl fun hc => hstage.symm.trans hc
      rcases hm with rfl | rfl <;> exact Or.inr (by decide)
    · exact h.changeEvents_of_ne hlinks.valid hcd hp rfl fun hc => hstage.symm.trans hc
  · exact h.of_eq (fun hc => hstage.symm.trans hc) rfl

variable [DecidableEq T]

/-- **Every step keeps the established connections watched.** -/
theorem Listens.move {l : Label T} (h : ∀ c, s.Listens c) (hsane : s.Sane) (hm : Move s l s')
    (c : ℕ) : s'.Listens c := by
  have hc := h c
  have hlinks := hsane.links
  cases hm with
  | refused => exact hc
  | accepted => exact hc.of_eq (fun he => (stage_accept s _ _ _ c).symm.trans he) rfl
  | checked | pushed | looped | dispatched | dropped | completed | userShut | read | userRead |
      shutDrained =>
      exact hc.of_eq id rfl
  | @disconnecting t d =>
      exact hc.of_eq (fun he => (stage_setDisconnecting s d c).symm.trans he) rfl
  | polled hrep hpc hpc' hqueue hid hfill =>
      intro he
      have hreports := EPoller.fillActiveChannels_ok hfill
      obtain ⟨hwatched, hevents⟩ := hc he
      obtain ⟨hfd, hindex, hev⟩ := hreports.chan (.conn c)
      exact ⟨hwatched.of_eq hfd hindex hev (by rw [hreports.epoll]),
        by rw [chan, hev]; exact hevents⟩
  | @connected r todo sockfd s' htodo hfd hok =>
      obtain ⟨-, p, hp, rfl⟩ := newConnection_ok hok
      have hfresh : (s.hist s.nextConnId).stage = .fresh :=
        (hsane.ledger.ids _).mpr (Or.inr le_rfl)
      have hnew := (hlinks.linked _).new hfresh
      have hvalid := hlinks.valid.newChannel hnew sockfd
      obtain ⟨-, htouch, -, hevents⟩ := EPoller.changeEvents_ok hvalid hp
      by_cases hcn : c = s.nextConnId
      · -- a new connection is added, for reading
        subst hcn
        intro _
        refine ⟨EPoller.watched_changeEvents hvalid (fun hadded => ?_) ?_ hp, Or.inl ?_⟩
        · simp [EPoller.newChannel, Channel.new] at hadded
        · simp only [EPoller.newChannel, Function.update_self, Channel.new]
          decide
        · have hread : (p.chan (.conn s.nextConnId)).events = 0 ||| Channel.kReadEvent := by
            simpa [EPoller.newChannel, Channel.new, TcpServer.pop] using hevents
          exact hread.trans (by decide)
      · intro he
        have he : (s.hist c).stage = .established := by simpa [TcpServer.pop, hcn] using he
        have hne : ChannelRef.conn c ≠ .conn s.nextConnId := by simpa using hcn
        obtain ⟨hwatched, hev⟩ := hc he
        have hsame : (s.poller.newChannel (.conn s.nextConnId) sockfd).chan (.conn c) =
            s.poller.chan (.conn c) := by simp [EPoller.newChannel, hcn]
        have hkeep : (s.poller.newChannel (.conn s.nextConnId) sockfd).Watched (.conn c) :=
          hwatched.of_eq (by rw [hsame]) (by rw [hsame]) (by rw [hsame]) rfl
        refine ⟨hkeep.changeEvents_of_ne hvalid hne hp, ?_⟩
        change (p.chan (.conn c)).events = _ ∨ (p.chan (.conn c)).events = _
        rw [htouch.chan _ hne]
        exact hsame ▸ hev
  | @closed r op todo d s' htodo hop hok =>
      obtain ⟨-, -, p, hp, rfl⟩ := handleClose_ok hok
      by_cases hcd : c = d
      · exact fun he => absurd he (by simp [hcd])
      · exact hc.changeEvents_of_ne hlinks.valid hcd hp rfl
          fun he => by simpa [TcpServer.pop, hcd] using he
  | @wrote r todo d s' htodo hw hok =>
      rcases handleWrite_ok (s := s.pop) hw hok with ⟨-, rfl⟩ | ⟨-, p, ops, -, hp, rfl⟩
      · exact hc.of_eq id rfl
      · by_cases hcd : c = d
        · subst hcd
          refine hc.changeEvents hlinks.valid hp (fun m hm => ?_) rfl id
          rcases hm with rfl | rfl <;> exact Or.inl (by decide)
        · exact hc.changeEvents_of_ne hlinks.valid hcd hp rfl id
  | @shutDirect r todo d =>
      exact hc.of_eq (fun he => (stage_setDisconnecting s.pop d c).symm.trans he) rfl
  | @removed r todo d s' htodo hok =>
      obtain ⟨p, hp, rfl⟩ := removeChannel_ok hok
      by_cases hcd : c = d
      · exact fun he => absurd he (by simp [hcd])
      · intro he
        obtain ⟨hwatched, hev⟩ := hc (by simpa [TcpServer.pop, hcd] using he)
        obtain ⟨-, htouch, -⟩ := EPoller.removeChannel_ok hlinks.valid hp
        have hne : ChannelRef.conn c ≠ .conn d := by simpa using hcd
        refine ⟨hwatched.removeChannel_of_ne hlinks.valid hne hp, ?_⟩
        change (p.chan (.conn c)).events = _ ∨ (p.chan (.conn c)).events = _
        rw [htouch.chan _ hne]
        exact hev
  | userSent htodo husable hstate hok =>
      exact Listens.sendInLoop
        (hc.of_eq (fun he => (stage_accept s _ _ _ c).symm.trans he) rfl)
        (hlinks.accept _ _ _) hok
  | @ran nwrote cb functors e s' htodo hqueue hpc hpc' hid hok =>
      have he : Listens { s with loop := e } c := hc.of_eq id rfl
      have helinks : Links { s with loop := e } := hlinks.of_same rfl rfl rfl fun _ => rfl
      cases cb with
      | sendInLoop t d message =>
          simp only [runFunctor] at hok
          split_ifs at hok
          exact he.sendInLoop helinks (Option.some.inj hok)
      | connectDestroyed d =>
          obtain ⟨-, p, hp, rfl⟩ := connectDestroyed_ok (Option.some.inj hok)
          by_cases hcd : c = d
          · exact fun he => absurd he (by simp [hcd])
          · exact hc.changeEvents_of_ne hlinks.valid hcd hp rfl fun he => by simpa [hcd] using he
      | shutdownInLoop | writeComplete =>
          obtain rfl := Except.ok.inj (Option.some.inj hok)
          exact hc.of_eq id rfl
  | @released d hstage =>
      intro he
      have hcd : c ≠ d := by
        rintro rfl
        simp [setStage, setHist] at he
      have hest : (s.hist c).stage = .established := by simpa [setStage, setHist, hcd] using he
      obtain ⟨hwatched, hev⟩ := hc hest
      -- the descriptor that is closed is another one
      have hfd : (s.chan c).fd ≠ s.fd d := fun hfd => hcd
        (hlinks.distinct c d (by simp [Stage.alive, hest]) (by simp [Stage.alive, hstage]) hfd)
      refine ⟨hwatched.of_eq rfl rfl rfl ?_, hev⟩
      simp only [setStage, setHist, EPoller.close]
      exact Function.update_of_ne hfd _ _

/-- The kernel can go on reporting events: the event list never gets shorter. -/
lemma Move.eventListSize_le {l : Label T} (hm : Move s l s') (hsane : s.Sane) :
    s.poller.eventListSize ≤ s'.poller.eventListSize := by
  have hlinks := hsane.links
  have hchange : ∀ {p p' : EPoller ChannelRef} {r : ChannelRef} {f : Mask → Mask}, p.Valid →
      p.changeEvents r f = .ok p' → p.eventListSize ≤ p'.eventListSize := fun hvalid hp =>
    (EPoller.changeEvents_ok hvalid hp).2.1.eventListSize.ge
  have hsend : ∀ (s₁ : TcpServer T) {s₂ : TcpServer T} {th : Thread T} {c : ℕ} {message : List Byte}
      {nwrote : Option ℕ}, s₁.poller.Valid → s₁.sendInLoop th c message nwrote = .ok s₂ →
      s₁.poller.eventListSize ≤ s₂.poller.eventListSize := by
    intro s₁ s₂ th c message nwrote hvalid hok
    obtain ⟨p, ops, -, ⟨-, hp⟩ | ⟨-, rfl⟩, rfl⟩ := sendInLoop_ok hok
    · exact hchange hvalid hp
    · exact le_rfl
  cases hm with
  | polled hrep hpc hpc' hqueue hid hfill => exact EPoller.eventListSize_fillActiveChannels hfill
  | @connected r todo sockfd s' htodo hfd hok =>
      obtain ⟨-, p, hp, rfl⟩ := newConnection_ok hok
      have hfresh : (s.hist s.nextConnId).stage = .fresh :=
        (hsane.ledger.ids _).mpr (Or.inr le_rfl)
      have hvalid := hlinks.valid.newChannel ((hlinks.linked _).new hfresh) sockfd
      exact (EPoller.changeEvents_ok hvalid hp).2.1.eventListSize.ge
  | closed htodo hop hok =>
      obtain ⟨-, -, p, hp, rfl⟩ := handleClose_ok hok
      exact hchange hlinks.valid hp
  | wrote htodo hw hok =>
      rcases handleWrite_ok (s := s.pop) hw hok with ⟨-, rfl⟩ | ⟨-, p, ops, -, hp, rfl⟩
      · exact le_rfl
      · exact hchange hlinks.valid hp
  | removed htodo hok =>
      obtain ⟨p, hp, rfl⟩ := removeChannel_ok hok
      exact (EPoller.removeChannel_ok hlinks.valid hp).2.1.eventListSize.ge
  | @userSent c message nwrote todo s' htodo husable hstate hok =>
      exact hsend (s.accept .loop c message) hlinks.valid hok
  | @ran nwrote cb functors e s' htodo hqueue hpc hpc' hid hok =>
      cases cb with
      | sendInLoop t d message =>
          simp only [runFunctor] at hok
          split_ifs at hok
          exact hsend { s with loop := e } hlinks.valid (Option.some.inj hok)
      | connectDestroyed d =>
          obtain ⟨-, p, hp, rfl⟩ := connectDestroyed_ok (Option.some.inj hok)
          exact hchange hlinks.valid hp
      | shutdownInLoop | writeComplete =>
          obtain rfl := Except.ok.inj (Option.some.inj hok)
          exact le_rfl
  | _ => exact le_rfl

/-- The poller in every reachable state. -/
structure Listening (s : TcpServer T) : Prop where
  sane : s.Sane
  listens : ∀ c, s.Listens c
  room : 0 < s.poller.eventListSize

lemma listening_of_reaches {ok : TcpServer T → Label T → Prop} {name : String} {acceptFd : ℕ}
    {wc : Bool} (h : Reaches ok (start name acceptFd wc) s) : s.Listening := by
  refine h.invariant (fun s _ s' hs _ hnext => ?_)
    ⟨start_sane name acceptFd wc, start_listens name acceptFd wc, by simp [start]⟩
  have hm := move_of_next hs.sane.ledger.threadId hnext
  exact ⟨hs.sane.next hnext, Listens.move hs.listens hs.sane hm,
    hs.room.trans_le (hm.eventListSize_le hs.sane)⟩

/-- The mask of an established connection says whether bytes are buffered. -/
lemma Listens.events_eq (h : s.Listens c) (hgraceful : s.Graceful)
    (hc : (s.hist c).stage = .established) :
    (s.chan c).events = if (s.conns c).outputBuffer = [] then Channel.kReadEvent
      else Channel.kReadEvent ||| Channel.kWriteEvent := by
  have hdrained := hgraceful.drained c hc
  rcases (h hc).2 with hread | hwrite
  · have hidle : s.isWriting c = false := by
      change Mask.has (s.chan c).events Channel.kWriteEvent = false
      rw [hread]
      decide
    rw [hread, if_pos (by simpa [hidle] using hdrained)]
  · have hbusy : s.isWriting c = true := by
      change Mask.has (s.chan c).events Channel.kWriteEvent = true
      rw [hwrite]
      decide
    rw [hwrite, if_neg (hdrained.mp hbusy)]

/-- **The kernel watches what a connection needs.**  In every run of a server, with any number of
connections and of other threads, an established connection has one entry in the epoll set, under
its own descriptor: for reading, and for writing too exactly while bytes are buffered. -/
theorem established_watched {ok : TcpServer T → Label T → Prop} {name : String} {acceptFd : ℕ}
    {wc : Bool} (h : Reaches ok (start name acceptFd wc) s)
    (hc : (s.hist c).stage = .established) (fd : ℕ) (m : Mask) :
    s.poller.epoll fd = some (m, .conn c) ↔
      fd = s.fd c ∧ m = if (s.conns c).outputBuffer = [] then Channel.kReadEvent
        else Channel.kReadEvent ||| Channel.kWriteEvent := by
  obtain ⟨hsane, hlistens, -⟩ := listening_of_reaches h
  have hwatched := (hlistens c hc).1
  have hmask := (hlistens c).events_eq (graceful_of_reaches h) hc
  constructor
  · intro hentry
    obtain rfl : s.fd c = fd := (hsane.links.valid.watched fd m _ hentry).1
    have hboth := hentry.symm.trans hwatched.epoll
    exact ⟨rfl, (Prod.mk.inj (Option.some.inj hboth)).1.trans hmask⟩
  · rintro ⟨rfl, rfl⟩
    rw [← hmask]
    exact hwatched.epoll

/-- A client connects, and two thirds of an answer are left to write. -/
def answerInPart : List (Label Unit) :=
  acceptOne Unit ++ [.poll [(.conn 1, POLLIN)], .dispatch, .exec ⟨none, .data [65], none⟩,
    .userSend 1 [1, 2, 3] (some 1), .userReturn]

theorem established_watched_writing : ∃ s : TcpServer Unit, (s.conns 1).outputBuffer = [2, 3] ∧
    ∀ fd m, s.poller.epoll fd = some (m, .conn 1) ↔
      fd = s.fd 1 ∧ m = Channel.kReadEvent ||| Channel.kWriteEvent := by
  have hrun : ((exec next (fun _ _ => True) (start "s" 3 false) answerInPart).map fun s =>
      decide ((s.conns 1).outputBuffer = [2, 3] ∧ (s.hist 1).stage = .established)) =
        some true := by decide +kernel
  obtain ⟨s, hs, hvals⟩ := Option.map_eq_some_iff.mp hrun
  obtain ⟨houtput, hstage⟩ := of_decide_eq_true hvals
  refine ⟨s, houtput, fun fd m => ?_⟩
  rw [established_watched ((Reach.refl _).of_exec hs) hstage fd m, if_neg (by simp [houtput])]

end TcpServer

end Tractor
