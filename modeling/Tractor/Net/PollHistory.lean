import Tractor.Net.Poller

/-!
The histories of channels that `Poller` accepts.

Whoever uses a channel knows its events, and how often it was updated and removed.  This
record decides whether the assertions of `updateChannel` and `removeChannel` hold:
`removeChannel` does not set the index back, so that a removed channel is taken for one that
has a slot, and it asserts a negated slot, which the first update of a channel never
leaves.

* `ChannelRecord`: the record of one channel; `behaves` is what its user has to keep.
* `Matches`: how the poller and the record of a channel belong together.
* `accepts_history_iff`: **no assertion fails exactly if no channel is updated again after
  its removal and none is removed after a single update.**
-/

namespace Tractor

open Library

/-- What the user of a channel knows of it: its events, how often it was updated since it was
created or last removed, and how often it was removed. -/
structure ChannelRecord where
  events : Mask
  updates : ℕ
  removals : ℕ

namespace ChannelRecord

def new : ChannelRecord := ⟨Channel.kNoneEvent, 0, 0⟩

/-- The record behind a call. -/
def follow (r : ChannelRecord) : ChannelCall → ChannelRecord
  | .removeChannel => { r with updates := 0, removals := r.removals + 1 }
  | f => { r with events := f.events r.events, updates := r.updates + 1 }

/-- The channel is removed only when it was updated since its creation or last removal, and
its events are empty. -/
def behaves (r : ChannelRecord) (f : ChannelCall) : Prop :=
  f = .removeChannel → 0 < r.updates ∧ r.events = Channel.kNoneEvent

instance (r : ChannelRecord) (f : ChannelCall) : Decidable (r.behaves f) :=
  inferInstanceAs (Decidable (_ → _))

/-- The channel is not removed after a single update, and not updated after a removal. -/
def accepted (r : ChannelRecord) : ChannelCall → Prop
  | .removeChannel => 2 ≤ r.updates
  | _ => r.removals = 0

instance (r : ChannelRecord) : (f : ChannelCall) → Decidable (r.accepted f)
  | .removeChannel => inferInstanceAs (Decidable (2 ≤ _))
  | .enableReading | .enableWriting | .disableWriting | .disableAll =>
      inferInstanceAs (Decidable (_ = 0))

end ChannelRecord

namespace Poller

variable {C : Type} {p p' : Poller C} {c d : C} {m : Mask} {pfd : PollFd}

/-! ### Poller and record -/

/-- How a channel stands in the poller, by its record: it has no index as long as it was
neither updated nor removed, it is in the map exactly if it was updated since, and its slot
is not negated behind the first update and negated behind any later one without events. -/
structure Matches (p : Poller C) (c : C) (r : ChannelRecord) : Prop where
  events : (p.chan c).events = r.events
  index : (p.chan c).index < 0 ↔ r.updates = 0 ∧ r.removals = 0
  once : r.updates = 0 ∨ r.removals = 0
  found : p.channels (p.chan c).fd = some c ↔ 0 < r.updates
  slot : ∀ pfd, p.channels (p.chan c).fd = some c → p.slotAt c = some pfd →
    (r.updates = 1 → pfd.fd = (p.chan c).fd) ∧
    (2 ≤ r.updates → r.events = Channel.kNoneEvent → pfd.fd = -(p.chan c).fd - 1)

/-- The poller and the records of all its channels, which have distinct descriptors. -/
structure Follows (fd : C → ℕ) (p : Poller C) (r : C → ChannelRecord) : Prop where
  slots : p.Slots
  fds : ∀ c, (p.chan c).fd = fd c
  channel : ∀ c, p.Matches c (r c)

/-- What a call on `c` leaves as it is for the other channels: their descriptors and events,
whether they have an index, and whether they are in the map. -/
structure Spares (p p' : Poller C) (c : C) : Prop where
  fd : ∀ d, (p'.chan d).fd = (p.chan d).fd
  events : ∀ d, d ≠ c → (p'.chan d).events = (p.chan d).events
  index : ∀ d, d ≠ c → ((p'.chan d).index < 0 ↔ (p.chan d).index < 0)
  channels : ∀ k : ℤ, k ≠ (p.chan c).fd → p'.channels k = p.channels k
  keeps : p.KeepsOthers p' c

/-- The record of another channel stays right. -/
lemma Matches.spared {r : ChannelRecord} (h : p.Matches d r) (hs : p.Spares p' c) (hdc : d ≠ c)
    (hfd : (p.chan d).fd ≠ (p.chan c).fd) : p'.Matches d r := by
  have hfound : p'.channels (p'.chan d).fd = p.channels (p.chan d).fd := by
    rw [hs.fd d, hs.channels _ (by exact_mod_cast hfd)]
  refine ⟨(hs.events d hdc).trans h.events, (hs.index d hdc).trans h.index, h.once, ?_, ?_⟩
  · rw [hfound]
    exact h.found
  · intro pfd hsome hpfd
    obtain ⟨hsome', hslot, -⟩ := hs.keeps _ d hdc hsome
    rw [hs.fd d] at hsome' ⊢
    exact h.slot pfd hsome' (hslot ▸ hpfd)

section Follows

variable {fd : C → ℕ} {r : C → ChannelRecord}

lemma new_follows (fd : C → ℕ) : Follows fd (new fd) fun _ => ChannelRecord.new where
  slots := new_slots fd
  fds _ := rfl
  channel c := by
    refine ⟨rfl, ?_, Or.inl rfl, ?_, fun _ h => ?_⟩
    · simp [new, PollChannel.new, ChannelRecord.new]
    · simp [new, ChannelRecord.new]
    · simp [new] at h

/-- The descriptor of a channel that was not updated since its creation or removal is free. -/
lemma Follows.channels_eq_none (h : Follows fd p r) (hfd : fd.Injective)
    (hup : (r c).updates = 0) : p.channels (p.chan c).fd = none := by
  cases hd : p.channels (p.chan c).fd with
  | none => rfl
  | some d =>
      have hdc := (h.slots.found _ d hd).1
      rw [h.fds d, h.fds c] at hdc
      obtain rfl := hfd (by exact_mod_cast hdc)
      exact absurd ((h.channel d).found.mp hd) (by omega)

end Follows

variable [DecidableEq C]

/-- The records of all channels behind a call. -/
def follow (r : C → ChannelRecord) (a : C × ChannelCall) : C → ChannelRecord :=
  Function.update r a.1 ((r a.1).follow a.2)

/-- `P` holds of the record of the channel at every call. -/
def Recorded (P : ChannelRecord → ChannelCall → Prop) (calls : List (C × ChannelCall)) : Prop :=
  Along (fun r a => (.ok (follow r a) : Except SlotFault (C → ChannelRecord)))
    (fun r a => P (r a.1) a.2) (fun _ => ChannelRecord.new) calls

instance (P : ChannelRecord → ChannelCall → Prop) [∀ r f, Decidable (P r f)]
    (calls : List (C × ChannelCall)) : Decidable (Recorded P calls) :=
  Along.decidable _ calls

/-! ### Calls that pass, and calls that do not -/

/-- A channel that never had a slot gets one. -/
lemma updateChannel_new (hidx : (p.chan c).index < 0) (hnone : p.channels (p.chan c).fd = none)
    (m : Mask) : (p.setEvents c m).updateChannel c = .ok (p.pushed c m) := by
  have hchan : (p.setEvents c m).chan c = { p.chan c with events := m } := by simp [setEvents]
  have hnone' : (p.setEvents c m).channels ((p.chan c).fd : ℤ) = none := hnone
  simp only [updateChannel, hchan]
  rw [if_pos hidx, check_bind_of hnone']
  simp [pushed, setEvents, setIndex, pure, Except.pure]

/-- A channel that has a slot passes. -/
lemma updateChannel_found (hidx : 0 ≤ (p.chan c).index)
    (hsome : p.channels (p.chan c).fd = some c) (hslot : p.slotAt c = some pfd)
    (hfd : pfd.fd = (p.chan c).fd ∨ pfd.fd = -(p.chan c).fd - 1) (m : Mask) :
    ∃ p', (p.setEvents c m).updateChannel c = .ok p' := by
  have hchan : (p.setEvents c m).chan c = { p.chan c with events := m } := by simp [setEvents]
  have hsome' : (p.setEvents c m).channels ((p.chan c).fd : ℤ) = some c := hsome
  have hslot' : (p.setEvents c m).slot (p.chan c).index = some pfd := by
    simpa [slot, slotAt, hidx, setEvents] using hslot
  simp only [updateChannel, hchan]
  rw [if_neg (by omega), check_bind_of (by simp [hsome']), check_bind_of hsome', hslot']
  dsimp only
  rw [check_bind_of hfd]
  exact ⟨_, rfl⟩

/-- A channel with an index that is not in the map does not pass. -/
lemma updateChannel_lost (hidx : 0 ≤ (p.chan c).index)
    (hnone : p.channels (p.chan c).fd = none) (m : Mask) :
    (p.setEvents c m).updateChannel c = .error .updateFound := by
  have hchan : (p.setEvents c m).chan c = { p.chan c with events := m } := by simp [setEvents]
  have hnone' : (p.setEvents c m).channels ((p.chan c).fd : ℤ) = none := hnone
  simp only [updateChannel, hchan]
  rw [if_neg (by omega), check_bind_not (by simp [hnone'])]

/-- A channel without events passes `removeChannel` exactly if its slot is negated. -/
lemma Slots.removeChannel_iff (h : p.Slots) (hsome : p.channels (p.chan c).fd = some c)
    (hnone : (p.chan c).events = Channel.kNoneEvent) (hslot : p.slotAt c = some pfd) :
    (∃ p', p.removeChannel c = .ok p') ↔ pfd.fd = -(p.chan c).fd - 1 := by
  obtain ⟨-, hidx⟩ := h.found _ c hsome
  have hslot' : p.slot (p.chan c).index = some pfd := by simpa [slot, slotAt, hidx] using hslot
  obtain ⟨pfd', hpfd', -, hev⟩ := h.slot_spec ⟨_, hsome⟩
  obtain rfl := Option.some.inj (hslot.symm.trans hpfd')
  simp only [Poller.removeChannel]
  rw [check_bind_of (by simp [hsome]), check_bind_of hsome,
    check_bind_of (by simp [PollChannel.isNoneEvent, hnone]), hslot']
  dsimp only
  by_cases hneg : pfd.fd = -(p.chan c).fd - 1
  · rw [check_bind_of ⟨hneg, hev⟩]
    refine iff_of_true ?_ hneg
    by_cases hlast : (p.chan c).index.toNat = p.pollfds.length - 1
    · rw [if_pos hlast]
      exact ⟨_, rfl⟩
    · -- the last slot belongs to another registered channel
      rw [if_neg hlast]
      have hlt := h.lt_length hsome
      obtain ⟨back, hback, hlastD⟩ := exists_getLastD (l := p.pollfds) (by omega)
      have hown : p.slotOf back.owner = some (p.pollfds.length - 1) :=
        (h.table _ _).mpr (by simp [hback])
      obtain ⟨d, hd, hdidx⟩ := Option.map_eq_some_iff.mp hown
      have hne : back.owner ≠ (p.chan c).fd := by
        intro heq
        rw [heq, hsome] at hd
        obtain rfl := Option.some.inj hd
        exact hlast hdidx
      have hd' : Function.update p.channels ((p.chan c).fd : ℤ) none back.owner = some d :=
        update_none_eq_some.mpr ⟨hne, hd⟩
      simp only [PollFd.owner] at hd'
      simp only [hlastD, hd']
      exact ⟨_, rfl⟩
  · rw [check_bind_not fun hboth => hneg hboth.1]
    simp [hneg]

lemma Slots.spares_pushed (h : p.Slots) (c : C) (m : Mask) : p.Spares (p.pushed c m) c where
  fd d := by by_cases hdc : d = c <;> simp [Poller.pushed, hdc]
  events d hdc := by simp [Poller.pushed, hdc]
  index d hdc := by simp [Poller.pushed, hdc]
  channels k hk := by simp [Poller.pushed, hk]
  keeps := h.keeps_pushed c m

lemma Slots.spares_masked (h : p.Slots) (hsome : p.channels (p.chan c).fd = some c) (m : Mask)
    (k : ℤ) : p.Spares (p.masked c m k) c where
  fd d := (p.masked_chan c m k d).1
  events d hdc := by simp [Poller.masked, setEvents, hdc]
  index d _ := by rw [(p.masked_chan c m k d).2]
  channels _ _ := rfl
  keeps := h.keeps_masked hsome m k

/-- `removeChannel` takes `c` out of the map, and leaves its index and events. -/
lemma Slots.spares_removed (h : p.Slots) (hok : p.removeChannel c = .ok p') :
    p.Spares p' c ∧ p'.channels (p.chan c).fd = none ∧ p'.chan c = p.chan c := by
  obtain ⟨hsome, -, hpos, ⟨hlast, rfl⟩ | ⟨hlast, back, d, hback, hd, rfl⟩⟩ := removeChannel_ok hok
  · refine ⟨⟨fun _ => rfl, fun _ _ => rfl, fun _ _ => Iff.rfl, fun k hk => ?_,
      h.keeps_popped hsome hlast⟩, ?_, rfl⟩
    · simp [Poller.popped, hk]
    · simp [Poller.popped]
  · -- the channel of the last slot had an index, and has the one of `c` now
    obtain ⟨hne, hd'⟩ := update_none_eq_some.mp hd
    have hdidx := (h.found _ d hd').2
    have hdc : d ≠ c := h.ne_of_fd hne hd'
    refine ⟨⟨fun e => ?_, fun e _ => ?_, fun e _ => ?_, fun k hk => ?_,
      h.keeps_swapped hsome hlast hback hd⟩, ?_, ?_⟩
    · by_cases hed : e = d <;> simp [Poller.swapped, setIndex, hed]
    · by_cases hed : e = d <;> simp [Poller.swapped, setIndex, hed]
    · by_cases hed : e = d
      · subst hed
        simp only [Poller.swapped, setIndex, Function.update_self]
        omega
      · simp [Poller.swapped, setIndex, hed]
    · simp [Poller.swapped, hk]
    · simp [Poller.swapped]
    · simp [Poller.swapped, setIndex, hdc.symm]

/-! ### One call -/

section Follows

variable {fd : C → ℕ} {r : C → ChannelRecord}

/-- Only the record of the channel that was called on has changed. -/
lemma Follows.step (h : Follows fd p r) (hfd : fd.Injective) (hslots : p'.Slots)
    (hs : p.Spares p' c) {r' : ChannelRecord} (hc : p'.Matches c r') :
    Follows fd p' (Function.update r c r') := by
  refine ⟨hslots, fun d => (hs.fd d).trans (h.fds d), fun d => ?_⟩
  by_cases hdc : d = c
  · subst hdc
    simpa using hc
  · rw [Function.update_of_ne hdc]
    refine (h.channel d).spared hs hdc fun heq => hdc (hfd ?_)
    rw [← h.fds d, ← h.fds c, heq]

/-- **An update passes exactly if the channel was never removed.** -/
lemma Follows.update (h : Follows fd p r) (hfd : fd.Injective) (c : C) (hm : m.toNat < 8) :
    ((∃ p', (p.setEvents c m).updateChannel c = .ok p') ↔ (r c).removals = 0) ∧
      ∀ p', (p.setEvents c m).updateChannel c = .ok p' →
        Follows fd p' (Function.update r c
          { r c with events := m, updates := (r c).updates + 1 }) := by
  have hc := h.channel c
  constructor
  · by_cases hup : (r c).updates = 0
    · have hnone := h.channels_eq_none hfd hup
      by_cases hrem : (r c).removals = 0
      · exact iff_of_true ⟨_, updateChannel_new (hc.index.mpr ⟨hup, hrem⟩) hnone m⟩ hrem
      · -- the index is the one the channel had when it was removed
        have hidx : 0 ≤ (p.chan c).index := by
          by_contra hneg
          exact hrem (hc.index.mp (by omega)).2
        rw [updateChannel_lost hidx hnone]
        simp [hrem]
    · have hsome := hc.found.mpr (by omega)
      obtain ⟨pfd, hpfd, hown, -⟩ := h.slots.slot_spec ⟨_, hsome⟩
      exact iff_of_true (updateChannel_found (h.slots.found _ c hsome).2 hsome hpfd hown m)
        (hc.once.resolve_left hup)
  · intro p' hok
    have hslots := h.slots.updateChannel hm hok
    obtain ⟨hneg, hnone, rfl⟩ | ⟨hpos, hsome, pfd, hpfd, hown, rfl⟩ := updateChannel_ok hok
    · obtain ⟨hup, hrem⟩ := hc.index.mp hneg
      refine h.step hfd hslots (h.slots.spares_pushed c m) ⟨events_pushed p c m, ?_, ?_, ?_, ?_⟩
      · simp [pushed]
      · exact Or.inr hrem
      · simp [pushed]
      · intro pfd _ hpfd
        rw [slotAt_pushed] at hpfd
        obtain rfl := Option.some.inj hpfd
        refine ⟨fun _ => by simp [pushed], fun htwo => ?_⟩
        simp only at htwo
        omega
    · have hup := hc.found.mp hsome
      refine h.step hfd hslots (h.slots.spares_masked hsome m _) ⟨events_masked p c m _, ?_, ?_,
        ?_, ?_⟩
      · rw [(p.masked_chan c m _ c).2]
        simp only [Nat.add_eq_zero_iff, one_ne_zero, and_false, false_and, iff_false]
        omega
      · exact Or.inr (hc.once.resolve_left (by omega))
      · rw [(p.masked_chan c m _ c).1]
        exact iff_of_true hsome (Nat.succ_pos _)
      · intro pfd' _ hpfd'
        rw [h.slots.slotAt_masked hsome] at hpfd'
        obtain rfl := Option.some.inj hpfd'
        rw [(p.masked_chan c m _ c).1]
        refine ⟨fun hone => ?_, fun _ hev => if_pos hev⟩
        simp only at hone
        omega

/-- **A removal without events passes exactly if the channel was updated twice.** -/
lemma Follows.remove (h : Follows fd p r) (hfd : fd.Injective) (hup : 0 < (r c).updates)
    (hev : (r c).events = Channel.kNoneEvent) :
    ((∃ p', p.removeChannel c = .ok p') ↔ 2 ≤ (r c).updates) ∧
      ∀ p', p.removeChannel c = .ok p' →
        Follows fd p' (Function.update r c ((r c).follow .removeChannel)) := by
  have hc := h.channel c
  have hsome := hc.found.mpr hup
  obtain ⟨pfd, hpfd, hown, -⟩ := h.slots.slot_spec ⟨_, hsome⟩
  obtain ⟨hfirst, hlater⟩ := hc.slot pfd hsome hpfd
  constructor
  · rw [h.slots.removeChannel_iff hsome (hc.events.trans hev) hpfd]
    refine ⟨fun hneg => ?_, fun htwo => hlater htwo hev⟩
    by_contra hone
    have hpos := hfirst (by omega)
    omega
  · intro p' hok
    obtain ⟨hs, hnone, hchan⟩ := h.slots.spares_removed hok
    refine h.step hfd (h.slots.removeChannel hok) hs ⟨?_, ?_, ?_, ?_, ?_⟩
    · rw [hchan]
      exact hc.events
    · rw [hchan, hc.index]
      simp only [ChannelRecord.follow, Nat.add_eq_zero_iff, one_ne_zero, and_false, iff_false]
      omega
    · exact Or.inl rfl
    · rw [hchan, hnone]
      simp [ChannelRecord.follow]
    · intro pfd hsome'
      rw [hchan, hnone] at hsome'
      exact absurd hsome' (by simp)

end Follows

/-- **The histories that `Poller` accepts.**  For channels with distinct descriptors and any
calls on them in which a channel is removed only if it was updated since its creation or last
removal and has no events: no assertion of `updateChannel` and `removeChannel` fails if and
only if no channel is updated after its removal and none is removed after a single update. -/
theorem accepts_history_iff (fd : C → ℕ) (hfd : fd.Injective) (calls : List (C × ChannelCall))
    (hcalls : Recorded ChannelRecord.behaves calls) :
    Passes (fun (p : Poller C) a => p.call a.1 a.2) (new fd) calls ↔
      Recorded ChannelRecord.accepted calls := by
  refine passes_iff (R := Follows fd) ?_ (new_follows fd) hcalls
  rintro p r ⟨c, f⟩ h hwell
  have hchange : ∀ f : ChannelCall,
      ((∃ p', p.changeEvents c f.events = .ok p') ↔ (r c).removals = 0) ∧
        ∀ p', p.changeEvents c f.events = .ok p' → Follows fd p' (Function.update r c
          { r c with events := f.events (r c).events, updates := (r c).updates + 1 }) := by
    intro f
    have hnarrow : (r c).events.toNat < 8 := (h.channel c).events ▸ h.slots.narrow c
    rw [changeEvents, (h.channel c).events]
    exact h.update hfd c (ChannelCall.events_lt f hnarrow)
  cases f with
  | removeChannel =>
      obtain ⟨hup, hev⟩ := hwell rfl
      exact h.remove hfd hup hev
  | enableReading => exact hchange .enableReading
  | enableWriting => exact hchange .enableWriting
  | disableWriting => exact hchange .disableWriting
  | disableAll => exact hchange .disableAll

/-- Two channels, of which the first is removed and the second is written and disabled. -/
theorem accepts_history_iff_two :
    Passes (fun (p : Poller (Fin 2)) a => p.call a.1 a.2) (new fun c : Fin 2 => (c : ℕ) + 4)
      [(0, .enableReading), (1, .enableWriting), (1, .disableWriting), (0, .disableAll),
        (0, .removeChannel), (1, .enableReading)] := by
  refine (accepts_history_iff _ (fun c d h => ?_) _ (by decide)).mpr (by decide)
  exact Fin.ext (by simpa using h)

/-- **A removed channel cannot be registered again**, and a channel whose only update left it
without events cannot be removed. -/
theorem removed_channel_not_registered_again :
    (fun _ : Unit => 5).Injective ∧
    (Recorded ChannelRecord.behaves [((), .enableReading), ((), .disableAll), ((), .removeChannel),
        ((), .enableReading)] ∧
      ¬ Passes (fun (p : Poller Unit) a => p.call a.1 a.2) (new fun _ => 5)
        [((), .enableReading), ((), .disableAll), ((), .removeChannel), ((), .enableReading)]) ∧
    Recorded ChannelRecord.behaves [((), .disableWriting), ((), .removeChannel)] ∧
      ¬ Passes (fun (p : Poller Unit) a => p.call a.1 a.2) (new fun _ => 5)
        [((), .disableWriting), ((), .removeChannel)] := by
  refine ⟨fun _ _ _ => rfl, ⟨by decide, by decide⟩, by decide, by decide⟩

end Poller

end Tractor
