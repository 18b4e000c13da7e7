import Tractor.Net.Callbacks
import Tractor.Net.PollHistory

/-!
`Poller` and `EPoller` side by side, on the same calls.

Both look after the same channels.  `poll(2)` looks at the slots that are not negated, `epoll_wait`
at the epoll set.  `EPoller` puts a channel that it has taken out back into the set on its next
update; `Poller` never takes a slot back that it has negated.

* `Pollers`: the two pollers; `call` makes the call on both.
* `ChannelRecord.muted`: the channel was updated twice, and wants no events.
* `Agrees`: how the pollers and the records of the channels belong together.
* `watch_the_same_iff`: **the two pollers watch the same descriptors for the same events, after
  every call, exactly if no call updates a channel that is muted.**
-/

namespace Tractor

open Library

namespace ChannelRecord

/-- The channel has a slot, was updated again, and wants no events. -/
def muted (r : ChannelRecord) : Prop := 2 ≤ r.updates ∧ r.events = Channel.kNoneEvent

instance (r : ChannelRecord) : Decidable r.muted := inferInstanceAs (Decidable (_ ∧ _))

/-- The call is not one that updates a muted channel. -/
def leavesMuted (r : ChannelRecord) (f : ChannelCall) : Prop := r.muted → f = .removeChannel

instance (r : ChannelRecord) (f : ChannelCall) : Decidable (r.leavesMuted f) :=
  inferInstanceAs (Decidable (_ → _))

/-- What both pollers ask of a call: their assertions hold. -/
def orderly (r : ChannelRecord) (f : ChannelCall) : Prop := r.behaves f ∧ r.accepted f

instance (r : ChannelRecord) (f : ChannelCall) : Decidable (r.orderly f) :=
  inferInstanceAs (Decidable (_ ∧ _))

end ChannelRecord

/-- The entries that `epoll_wait` looks at. -/
def EPoller.watched {C : Type} (p : EPoller C) : Set (ℤ × Mask) :=
  {x | ∃ (fd : ℕ) (m : Mask) (c : C), p.epoll fd = some (m, c) ∧ x = ((fd : ℤ), m)}

/-- The two pollers. -/
structure Pollers (C : Type) where
  poller : Poller C
  epoller : EPoller C

namespace Pollers

variable {C : Type}

def new (fd : C → ℕ) : Pollers C := ⟨Poller.new fd, EPoller.new fd⟩

/-- The call on both. -/
def call [DecidableEq C] (p : Pollers C) (a : C × ChannelCall) :
    Except (SlotFault ⊕ PollFault) (Pollers C) :=
  match p.poller.call a.1 a.2, p.epoller.call a.1 a.2 with
  | .ok poller, .ok epoller => .ok ⟨poller, epoller⟩
  | .error f, _ => .error (.inl f)
  | .ok _, .error f => .error (.inr f)

lemma call_ok_iff [DecidableEq C] {p p' : Pollers C} {a : C × ChannelCall} : p.call a = .ok p' ↔
    p.poller.call a.1 a.2 = .ok p'.poller ∧ p.epoller.call a.1 a.2 = .ok p'.epoller := by
  rw [call]
  cases p.poller.call a.1 a.2 with
  | error f => simp
  | ok poller =>
      cases p.epoller.call a.1 a.2 with
      | error f => simp
      | ok epoller => cases p'; simp

/-! ### Pollers and records -/

/-- The index that `EPoller` gives a channel, by its record. -/
def indexOf (r : ChannelRecord) : ChannelIndex :=
  if r.updates = 0 then .kNew else if r.muted then .kDeleted else .kAdded

/-- Both pollers follow the record of every channel, as long as no muted channel is updated. -/
structure Agrees (fd : C → ℕ) (p : Pollers C) (r : C → ChannelRecord) : Prop where
  follows : Poller.Follows fd p.poller r
  inStep : p.epoller.InStep
  fds : ∀ c, (p.epoller.chan c).fd = fd c
  events : ∀ c, (p.epoller.chan c).events = (r c).events
  index : ∀ c, (p.epoller.chan c).index = indexOf (r c)
  slot : ∀ c pfd, p.poller.channels (p.poller.chan c).fd = some c → p.poller.slotAt c = some pfd →
    ¬ (r c).muted → pfd.fd = fd c

lemma new_agrees (fd : C → ℕ) :
    Agrees fd (new fd) fun _ => ChannelRecord.new where
  follows := Poller.new_follows fd
  inStep := EPoller.new_inStep fd
  fds _ := rfl
  events _ := rfl
  index _ := rfl
  slot _ _ h := by simp [new, Poller.new] at h

variable {fd : C → ℕ} {p p' : Pollers C} {r : C → ChannelRecord} {c : C}

/-- The channel's slot is not negated exactly if the channel is registered and not muted. -/
lemma Agrees.polls_iff (h : Agrees fd p r) (c : C) :
    p.poller.inChannels c ∧ p.poller.polls c ↔ 0 < (r c).updates ∧ ¬ (r c).muted := by
  have hmatch := h.follows.channel c
  have hin : p.poller.inChannels c ↔ 0 < (r c).updates := by
    rw [← hmatch.found]
    refine ⟨fun ⟨k, hk⟩ => ?_, fun hsome => ⟨_, hsome⟩⟩
    rw [(h.follows.slots.found k c hk).1]
    exact hk
  rw [hin]
  refine and_congr_right fun hup => ?_
  have hsome := hmatch.found.mpr hup
  obtain ⟨pfd, hpfd, -, -⟩ := h.follows.slots.slot_spec ⟨_, hsome⟩
  rw [Poller.polls_iff hpfd]
  constructor
  · rintro hpos ⟨htwo, hnone⟩
    have hneg := (hmatch.slot pfd hsome hpfd).2 htwo hnone
    omega
  · intro hmuted
    rw [h.slot c pfd hsome hpfd hmuted]
    exact Int.natCast_nonneg _

/-- The channel is in the epoll set exactly then. -/
lemma Agrees.added_iff (h : Agrees fd p r) (c : C) :
    (p.epoller.chan c).index = .kAdded ↔ 0 < (r c).updates ∧ ¬ (r c).muted := by
  rw [h.index, indexOf]
  split_ifs with hup hmuted
  · simp [hup]
  · simp [hmuted]
  · simp [hmuted, Nat.pos_of_ne_zero hup]

/-- **Pollers that agree watch the same.** -/
lemma Agrees.polled_eq_watched (h : Agrees fd p r) : p.poller.polled = p.epoller.watched := by
  ext x
  have hpolled : x ∈ p.poller.polled ↔
      ∃ c, (0 < (r c).updates ∧ ¬ (r c).muted) ∧ x = ((fd c : ℤ), (r c).events) := by
    rw [h.follows.slots.mem_polled_iff]
    refine exists_congr fun c => ?_
    rw [← and_assoc, h.polls_iff c, h.follows.fds c, (h.follows.channel c).events]
  rw [hpolled]
  constructor
  · rintro ⟨c, hc, rfl⟩
    have hadded := h.inStep.added c ((h.added_iff c).mpr hc)
    rw [h.fds, h.events] at hadded
    exact ⟨fd c, (r c).events, c, hadded, rfl⟩
  · rintro ⟨k, m, c, hk, rfl⟩
    obtain ⟨hfd, hidx⟩ := h.inStep.watched k m c hk
    have hadded := h.inStep.added c hidx
    rw [hfd, hk] at hadded
    rw [h.fds] at hfd
    refine ⟨c, (h.added_iff c).mp hidx, ?_⟩
    rw [hfd, ← h.events, (Prod.mk.inj (Option.some.inj hadded)).1]

/-! ### One call -/

/-- The descriptor of a channel without an index is free. -/
lemma Agrees.free_of_kNew (h : Agrees fd p r) (hfd : fd.Injective)
    (hnew : (p.epoller.chan c).index = .kNew) :
    p.epoller.channels (p.epoller.chan c).fd = none := by
  cases hd : p.epoller.channels (p.epoller.chan c).fd with
  | none => rfl
  | some d =>
      obtain ⟨hdc, hidx⟩ := h.inStep.found _ d hd
      rw [h.fds, h.fds] at hdc
      obtain rfl := hfd hdc
      exact absurd hnew hidx

variable [DecidableEq C]

/-- `EPoller` accepts every orderly call. -/
lemma Agrees.epoller_passes (h : Agrees fd p r) (hfd : fd.Injective) {f : ChannelCall}
    (hf : (r c).orderly f) : ∃ e, p.epoller.call c f = .ok e := by
  by_cases hremove : f = .removeChannel
  · subst hremove
    obtain ⟨hup, hnone⟩ := hf.1 rfl
    refine EPoller.removeChannel_exists h.inStep.toValid ?_ ?_
    · rw [h.index, indexOf, if_neg (by omega)]
      split_ifs <;> simp
    · simp [Channel.isNoneEvent, h.events, hnone]
  · rw [EPoller.call_eq_changeEvents _ c hremove]
    exact EPoller.changeEvents_exists h.inStep.toValid (fun hnew => h.free_of_kNew hfd hnew) _

/-- So does `Poller`, and it follows the records. -/
lemma Agrees.poller_passes (h : Agrees fd p r) (hfd : fd.Injective) {f : ChannelCall}
    (hf : (r c).orderly f) : (∃ q, p.poller.call c f = .ok q) ∧
      ∀ q, p.poller.call c f = .ok q → Poller.Follows fd q (Poller.follow r (c, f)) := by
  obtain ⟨hbehaves, haccepted⟩ := hf
  have hchange : ∀ f : ChannelCall, (r c).removals = 0 →
      (∃ q, p.poller.changeEvents c f.events = .ok q) ∧
        ∀ q, p.poller.changeEvents c f.events = .ok q → Poller.Follows fd q (Function.update r c
          { r c with events := f.events (r c).events, updates := (r c).updates + 1 }) := by
    intro f hrem
    have hnarrow : (r c).events.toNat < 8 :=
      (h.follows.channel c).events ▸ h.follows.slots.narrow c
    rw [Poller.changeEvents, (h.follows.channel c).events]
    obtain ⟨hiff, hfollows⟩ := h.follows.update hfd c (Poller.ChannelCall.events_lt f hnarrow)
    exact ⟨hiff.mpr hrem, hfollows⟩
  cases f with
  | removeChannel =>
      obtain ⟨hup, hnone⟩ := hbehaves rfl
      obtain ⟨hiff, hfollows⟩ := h.follows.remove hfd hup hnone
      exact ⟨hiff.mpr haccepted, hfollows⟩
  | enableReading => exact hchange .enableReading haccepted
  | enableWriting => exact hchange .enableWriting haccepted
  | disableWriting => exact hchange .disableWriting haccepted
  | disableAll => exact hchange .disableAll haccepted

/-- An update of the channel's slot: it is new, or a registered one that gets the mask and, if
that is empty, the negated descriptor. -/
lemma Agrees.slot_updated (h : Agrees fd p r) {f : ChannelCall} {q : Poller C}
    (hf : f ≠ .removeChannel) (hok : p.poller.call c f = .ok q) :
    p.poller.Spares q c ∧
      (((r c).updates = 0 ∧ ∃ pfd, q.slotAt c = some pfd ∧ pfd.fd = fd c) ∨
        ∃ pfd pfd', p.poller.channels (p.poller.chan c).fd = some c ∧
          p.poller.slotAt c = some pfd ∧ q.slotAt c = some pfd' ∧
          pfd'.fd = if f.events (r c).events = Channel.kNoneEvent then -(fd c : ℤ) - 1
            else pfd.fd) := by
  have hmatch := h.follows.channel c
  have hchange : p.poller.changeEvents c f.events = .ok q := by
    cases f with
    | removeChannel => exact absurd rfl hf
    | _ => exact hok
  rw [Poller.changeEvents, hmatch.events] at hchange
  obtain ⟨hneg, -, rfl⟩ | ⟨-, hsome, pfd, hpfd, -, rfl⟩ := Poller.updateChannel_ok hchange
  · refine ⟨h.follows.slots.spares_pushed c _, Or.inl ⟨(hmatch.index.mp hneg).1, _,
      Poller.slotAt_pushed _ c _, ?_⟩⟩
    simp [h.follows.fds]
  · refine ⟨h.follows.slots.spares_masked hsome _ _, Or.inr ⟨pfd, _, hsome, hpfd,
      h.follows.slots.slotAt_masked hsome _ _, ?_⟩⟩
    simp [h.follows.fds]

/-- What `EPoller` makes of an update. -/
lemma Agrees.epoller_updated (h : Agrees fd p r) {f : ChannelCall} {e : EPoller C}
    (hf : f ≠ .removeChannel) (hok : p.epoller.call c f = .ok e) :
    p.epoller.Touches e c ∧ (e.chan c).events = f.events (r c).events ∧
      (e.chan c).index = (if (p.epoller.chan c).index = .kAdded ∧
        f.events (r c).events = Channel.kNoneEvent then .kDeleted else .kAdded) := by
  rw [EPoller.call_eq_changeEvents _ c hf] at hok
  obtain ⟨-, htouch, -, hev⟩ := EPoller.changeEvents_ok h.inStep.toValid hok
  obtain ⟨hidx, -⟩ := h.inStep.changeEvents_spec rfl hok
  rw [h.events c] at hev hidx
  exact ⟨htouch, hev, hidx⟩

/-- Only the channel that was called on has to be looked at. -/
lemma Agrees.of_channel (h : Agrees fd p r) {r' : ChannelRecord}
    (hfollows : Poller.Follows fd p'.poller (Function.update r c r'))
    (hinStep : p'.epoller.InStep) (hspares : p.poller.Spares p'.poller c)
    (htouch : p.epoller.Touches p'.epoller c) (hevents : (p'.epoller.chan c).events = r'.events)
    (hindex : (p'.epoller.chan c).index = indexOf r')
    (hslot : ∀ pfd, p'.poller.channels (fd c) = some c → p'.poller.slotAt c = some pfd →
      ¬ r'.muted → pfd.fd = fd c) : Agrees fd p' (Function.update r c r') := by
  refine ⟨hfollows, hinStep, fun d => ?_, fun d => ?_, fun d => ?_, fun d pfd hd hpfd hmuted => ?_⟩
  · by_cases hdc : d = c
    · subst hdc
      exact htouch.fd.trans (h.fds d)
    · rw [htouch.chan d hdc, h.fds]
  · by_cases hdc : d = c
    · subst hdc
      rw [Function.update_self, hevents]
    · rw [Function.update_of_ne hdc, htouch.chan d hdc, h.events]
  · by_cases hdc : d = c
    · subst hdc
      rw [Function.update_self, hindex]
    · rw [Function.update_of_ne hdc, htouch.chan d hdc, h.index]
  · have hd' : p'.poller.channels (fd d) = some d := hfollows.fds d ▸ hd
    by_cases hdc : d = c
    · subst hdc
      rw [Function.update_self] at hmuted
      exact hslot pfd hd' hpfd hmuted
    · rw [Function.update_of_ne hdc] at hmuted
      obtain ⟨hsome, hkeep, -⟩ := hspares.keeps _ d hdc hd'
      rw [hkeep] at hpfd
      exact h.slot d pfd (by rw [h.follows.fds]; exact hsome) hpfd hmuted

/-- **A call that leaves the muted channels alone keeps the agreement.** -/
lemma Agrees.step (h : Agrees fd p r) (hfd : fd.Injective) {f : ChannelCall}
    (hf : (r c).orderly f) (hleaves : (r c).leavesMuted f) (hok : p.call (c, f) = .ok p') :
    Agrees fd p' (Poller.follow r (c, f)) := by
  obtain ⟨hpoller, hepoller⟩ := call_ok_iff.mp hok
  have hfollows := (h.poller_passes hfd hf).2 _ hpoller
  have hinStep : p'.epoller.InStep := h.inStep.next (l := .call c f) hepoller
  by_cases hremove : f = .removeChannel
  · subst hremove
    obtain ⟨-, htouch, hidx⟩ := EPoller.removeChannel_ok h.inStep.toValid hepoller
    obtain ⟨hspares, hnone, hchan⟩ := h.follows.slots.spares_removed hpoller
    rw [h.follows.fds] at hnone
    refine h.of_channel hfollows hinStep hspares htouch ?_ hidx fun pfd hsome => ?_
    · rw [EPoller.removeChannel_events hepoller, h.events]
      rfl
    · exact absurd (hnone.symm.trans hsome) (by simp)
  · obtain ⟨hspares, hslot⟩ := h.slot_updated hremove hpoller
    obtain ⟨htouch, hev, hidx⟩ := h.epoller_updated hremove hepoller
    have hmuted : ¬ (r c).muted := fun hmuted => hremove (hleaves hmuted)
    have hrecord : (r c).follow f =
        { r c with events := f.events (r c).events, updates := (r c).updates + 1 } := by
      cases f with
      | removeChannel => exact absurd rfl hremove
      | _ => rfl
    rw [Poller.follow, hrecord] at hfollows ⊢
    refine h.of_channel hfollows hinStep hspares htouch hev ?_ fun pfd hsome hpfd hmuted' => ?_
    · rw [hidx, h.index, indexOf, indexOf, if_neg hmuted]
      by_cases hup : (r c).updates = 0
      · simp [hup, ChannelRecord.muted]
      · have htwo : 2 ≤ (r c).updates + 1 := by omega
        simp [hup, ChannelRecord.muted, htwo]
    · rcases hslot with ⟨-, new, hnew, heq⟩ | ⟨old, new, hsome', hold, hnew, heq⟩
      · obtain rfl := Option.some.inj (hpfd.symm.trans hnew)
        exact heq
      · -- the channel was registered, so that it wants events now
        obtain rfl := Option.some.inj (hpfd.symm.trans hnew)
        have hup := (h.follows.channel c).found.mp hsome'
        have hwants : f.events (r c).events ≠ Channel.kNoneEvent := fun hnone =>
          hmuted' ⟨Nat.succ_le_succ hup, hnone⟩
        rw [heq, if_neg hwants]
        exact h.slot c old hsome' hold hmuted

/-- **A call that updates a muted channel makes the pollers differ**: `EPoller` watches the channel
again, and `Poller` leaves its slot negated. -/
lemma Agrees.differs (h : Agrees fd p r) (hfd : fd.Injective) {f : ChannelCall}
    (hf : (r c).orderly f) (hmuted : (r c).muted) (hupdate : f ≠ .removeChannel)
    (hok : p.call (c, f) = .ok p') : p'.poller.polled ≠ p'.epoller.watched := by
  obtain ⟨hpoller, hepoller⟩ := call_ok_iff.mp hok
  have hfollows := (h.poller_passes hfd hf).2 _ hpoller
  have hinStep : p'.epoller.InStep := h.inStep.next (l := .call c f) hepoller
  obtain ⟨-, hslot⟩ := h.slot_updated hupdate hpoller
  obtain ⟨htouch, hev, hidx⟩ := h.epoller_updated hupdate hepoller
  have hup : (r c).updates ≠ 0 := by
    have htwo := hmuted.1
    omega
  have hdeleted : (p.epoller.chan c).index = .kDeleted := by
    rw [h.index, indexOf, if_neg hup, if_pos hmuted]
  have hadded : (p'.epoller.chan c).index = .kAdded := by
    rw [hidx, hdeleted]
    simp
  have hwatched : ((fd c : ℤ), f.events (r c).events) ∈ p'.epoller.watched := by
    have hin := hinStep.added c hadded
    rw [htouch.fd, h.fds, hev] at hin
    exact ⟨fd c, _, c, hin, rfl⟩
  obtain ⟨old, new, hsome, hold, hnew, heq⟩ := hslot.resolve_left fun hfresh => hup hfresh.1
  have hneg := ((h.follows.channel c).slot old hsome hold).2 hmuted.1 hmuted.2
  rw [h.follows.fds] at hneg
  intro hsame
  rw [← hsame, hfollows.slots.mem_polled_iff] at hwatched
  obtain ⟨d, -, hpolls, hx⟩ := hwatched
  have hdc : (fd c : ℤ) = fd d := by
    rw [← hfollows.fds d]
    exact (Prod.mk.inj hx).1
  obtain rfl := hfd (by exact_mod_cast hdc)
  have hpos := (Poller.polls_iff hnew).mp hpolls
  split_ifs at heq <;> omega

/-- **Two pollers for one set of channels.**  For channels with distinct descriptors and any calls
on them that both pollers accept (a channel is removed only without events and after two updates,
and not updated again), no assertion fails, and after every call `poll(2)` and `epoll_wait` look at
the same descriptors for the same events, if and only if no call updates a channel that is muted:
one that was updated at least twice and wants no events. -/
theorem watch_the_same_iff (fd : C → ℕ) (hfd : fd.Injective) (calls : List (C × ChannelCall))
    (hcalls : Poller.Recorded ChannelRecord.orderly calls) :
    Along call (fun p a => ∃ p', p.call a = .ok p' ∧ p'.poller.polled = p'.epoller.watched)
        (new fd) calls ↔
      Poller.Recorded ChannelRecord.leavesMuted calls := by
  refine along_record_iff (R := Agrees fd) ?_ (new_agrees fd) hcalls
  rintro p r ⟨c, f⟩ h hf
  obtain ⟨⟨q, hq⟩, -⟩ := h.poller_passes hfd hf
  obtain ⟨e, he⟩ := h.epoller_passes hfd hf
  have hok : p.call (c, f) = .ok ⟨q, e⟩ := call_ok_iff.mpr ⟨hq, he⟩
  refine ⟨⟨_, hok⟩, ⟨?_, fun hleaves => ?_⟩, fun hleaves p' hok' => h.step hfd hf hleaves hok'⟩
  · rintro ⟨p', hok', hsame⟩ hmuted
    by_contra hupdate
    exact h.differs hfd hf hmuted hupdate hok' hsame
  · exact ⟨_, hok, (h.step hfd hf hleaves hok).polled_eq_watched⟩

/-- Two channels, of which the second is written for a while and then removed. -/
theorem watch_the_same_iff_two :
    Along call (fun p a => ∃ p', p.call a = .ok p' ∧ p'.poller.polled = p'.epoller.watched)
      (new fun c : Fin 2 => (c : ℕ) + 4)
      [(0, .enableReading), (1, .enableReading), (1, .enableWriting), (1, .disableWriting),
        (1, .disableAll), (0, .enableWriting), (1, .removeChannel)] := by
  refine (watch_the_same_iff _ (fun c d h => ?_) _ (by decide)).mpr (by decide)
  exact Fin.ext (by simpa using h)

end Pollers

end Tractor
