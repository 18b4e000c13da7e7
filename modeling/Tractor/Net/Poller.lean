import Tractor.Library.Slots
import Tractor.Net.EPollSet

/-!
`Poller`: the slot table of `src/Poller.cpp` over `poll(2)`.

Channels are named by the elements of any type `C`, on non-negative descriptors, and
carry the `int` index of their slot.  `events` and `revents` of a slot are `short`s; the
slot of a channel that is to be ignored holds `-fd - 1`.

* `updateChannel`, `removeChannel`, `fillActiveChannels`: with their assertions.
* `Slots`: the map, the indices and the table are one table with an index.
* `slot_table_bijective`: this holds in every reachable state, and `fillActiveChannels`
  appends the registered channels with reported events, each once.
* `polls_interested`: a slot is polled exactly if its channel wants events, as long as
  nobody registers a channel without events and nobody enables a registered one that has
  none: `updateChannel` takes slots out of the poll and never back.
-/

namespace Tractor

open Library

abbrev Short := BitVec 16

/-- `static_cast<short>(mask)`. -/
def Mask.toShort (m : Mask) : Short := m.setWidth 16

/-- The promotion of a `short` to `int`. -/
def Mask.ofShort (m : Short) : Mask := m.signExtend 32

/-- The masks of channels survive the way through a `short`. -/
lemma Mask.ofShort_toShort {m : Mask} (hm : m.toNat < 8) : Mask.ofShort m.toShort = m := by
  have hmsb : (m.setWidth 16).msb = false := by
    rw [BitVec.msb_eq_false_iff_two_mul_lt, BitVec.toNat_setWidth]
    omega
  refine BitVec.eq_of_toNat_eq ?_
  rw [Mask.ofShort, Mask.toShort, BitVec.signExtend_eq_setWidth_of_msb_false hmsb,
    BitVec.toNat_setWidth, BitVec.toNat_setWidth]
  omega

/-- `struct pollfd`. -/
structure PollFd where
  fd : ℤ
  events : Short
  revents : Short

/-- The descriptor a slot is about. -/
def PollFd.owner (pfd : PollFd) : ℤ := if pfd.fd < 0 then -pfd.fd - 1 else pfd.fd

lemma PollFd.owner_eq_iff {pfd : PollFd} {fd : ℕ} :
    pfd.owner = fd ↔ pfd.fd = fd ∨ pfd.fd = -fd - 1 := by
  rw [PollFd.owner]
  split_ifs <;> omega

/-- `class Channel` with the index `Poller` gives it. -/
structure PollChannel where
  fd : ℕ
  events : Mask
  revents : Mask
  index : ℤ

namespace PollChannel

def new (fd : ℕ) : PollChannel := ⟨fd, 0, 0, -1⟩

def isNoneEvent (ch : PollChannel) : Bool := ch.events = Channel.kNoneEvent

end PollChannel

/-- The assertions of `Poller`, and the null pointer that `channels_[channelAtEnd]` is if
the descriptor is not in the map. -/
inductive SlotFault where
  | updateNew
  | updateFound
  | updateSame
  | updateIndex
  | updateSlot
  | removeFound
  | removeSame
  | removeNone
  | removeIndex
  | removeSlot
  | removeNull
  | fillFound
  | fillSame
  deriving DecidableEq

/-- `class Poller` with the channel objects it points to. -/
structure Poller (C : Type) where
  chan : C → PollChannel
  channels : ℤ → Option C
  pollfds : List PollFd

namespace Poller

variable {C : Type}

section Operations

variable [DecidableEq C]

/-- A new poller, and new channels on the descriptors `fd`. -/
def new (fd : C → ℕ) : Poller C where
  chan := fun c => PollChannel.new (fd c)
  channels := fun _ => none
  pollfds := []

def setIndex (p : Poller C) (c : C) (idx : ℤ) : Poller C :=
  { p with chan := Function.update p.chan c { p.chan c with index := idx } }

def setEvents (p : Poller C) (c : C) (e : Mask) : Poller C :=
  { p with chan := Function.update p.chan c { p.chan c with events := e } }

def setRevents (p : Poller C) (c : C) (e : Mask) : Poller C :=
  { p with chan := Function.update p.chan c { p.chan c with revents := e } }

/-- `pollfds_[idx]`, if `0 <= idx && idx < static_cast<int>(pollfds_.size())`. -/
def slot (p : Poller C) (idx : ℤ) : Option PollFd :=
  if 0 ≤ idx then p.pollfds[idx.toNat]? else none

/-- `updateChannel(channel)`. -/
def updateChannel (p : Poller C) (c : C) : Except SlotFault (Poller C) :=
  let channel := p.chan c
  if channel.index < 0 then do
    check (p.channels channel.fd = none) .updateNew
    let pfd : PollFd := ⟨channel.fd, channel.events.toShort, 0⟩
    let p := { p with pollfds := p.pollfds ++ [pfd] }
    let p := p.setIndex c (p.pollfds.length - 1)
    pure { p with channels := Function.update p.channels pfd.fd (some c) }
  else do
    check (p.channels channel.fd ≠ none) .updateFound
    check (p.channels channel.fd = some c) .updateSame
    match p.slot channel.index with
    | none => .error .updateIndex
    | some pfd => do
        check (pfd.fd = channel.fd ∨ pfd.fd = -channel.fd - 1) .updateSlot
        let pfd := { pfd with events := channel.events.toShort, revents := 0 }
        let pfd := if channel.isNoneEvent then { pfd with fd := -channel.fd - 1 } else pfd
        pure { p with pollfds := p.pollfds.set channel.index.toNat pfd }

/-- `removeChannel(channel)`.  The descriptor was found, so `erase` returns 1. -/
def removeChannel (p : Poller C) (c : C) : Except SlotFault (Poller C) := do
  let channel := p.chan c
  check (p.channels channel.fd ≠ none) .removeFound
  check (p.channels channel.fd = some c) .removeSame
  check (channel.isNoneEvent = true) .removeNone
  match p.slot channel.index with
  | none => .error .removeIndex
  | some pfd => do
      check (pfd.fd = -channel.fd - 1 ∧ Mask.ofShort pfd.events = channel.events) .removeSlot
      let p := { p with channels := Function.update p.channels channel.fd none }
      let idx := channel.index.toNat
      if idx = p.pollfds.length - 1 then pure { p with pollfds := p.pollfds.dropLast }
      else
        let back := p.pollfds.getLastD pfd
        -- `iter_swap`
        let pollfds := (p.pollfds.set idx back).set (p.pollfds.length - 1) pfd
        let channelAtEnd := if back.fd < 0 then -back.fd - 1 else back.fd
        match p.channels channelAtEnd with
        | none => .error .removeNull
        | some d => pure { p.setIndex d channel.index with pollfds := pollfds.dropLast }

/-- The loop of `fillActiveChannels`. -/
def fillChannels (p : Poller C) :
    List PollFd → ℕ → List C → Except SlotFault (Poller C × List C)
  | [], _, activeChannels => pure (p, activeChannels)
  | pfd :: pollfds, numEvents, activeChannels =>
      if 0 < numEvents then
        if 0 < pfd.revents.toInt then
          match p.channels pfd.fd with
          | none => .error .fillFound
          | some c => do
              check ((p.chan c).fd = pfd.fd) .fillSame
              (p.setRevents c (Mask.ofShort pfd.revents)).fillChannels pollfds (numEvents - 1)
                (activeChannels ++ [c])
        else p.fillChannels pollfds numEvents activeChannels
      else pure (p, activeChannels)

/-- `fillActiveChannels(numEvents, activeChannels)`. -/
def fillActiveChannels (p : Poller C) (numEvents : ℕ) (activeChannels : List C) :
    Except SlotFault (Poller C × List C) :=
  p.fillChannels p.pollfds numEvents activeChannels

/-- `poll(2)` fills in `revents` of every slot. -/
def report (p : Poller C) (revents : ℕ → Short) : Poller C :=
  { p with pollfds := p.pollfds.mapIdx fun i pfd => { pfd with revents := revents i } }

/-- The number `poll(2)` returns: the slots with non-zero `revents`. -/
def numEvents (p : Poller C) : ℕ := p.pollfds.countP fun pfd => pfd.revents ≠ 0

/-- `poll`, with an empty list of active channels as `loop()` passes it. -/
def poll (p : Poller C) (revents : ℕ → Short) : Except SlotFault (Poller C × List C) :=
  let p := p.report revents
  if 0 < p.numEvents then p.fillActiveChannels p.numEvents [] else pure (p, [])

/-- A member function of `Channel` that changes its events and calls `update()`. -/
def changeEvents (p : Poller C) (c : C) (f : Mask → Mask) : Except SlotFault (Poller C) :=
  (p.setEvents c (f (p.chan c).events)).updateChannel c

/-- A call on the channel `c`. -/
def call (p : Poller C) (c : C) : ChannelCall → Except SlotFault (Poller C)
  | .removeChannel => p.removeChannel c
  | f => p.changeEvents c f.events

/-- A call on a channel, a bare `updateChannel`, or a poll. -/
inductive Label (C : Type) where
  | call (c : C) (f : ChannelCall)
  | update (c : C)
  | poll (revents : ℕ → Short)

def next (p : Poller C) : Label C → Except SlotFault (Poller C)
  | .call c f => p.call c f
  | .update c => p.updateChannel c
  | .poll revents => (p.poll revents).map Prod.fst

/-! ### What the calls do -/

/-- The slot of a channel. -/
def slotAt (p : Poller C) (c : C) : Option PollFd := p.pollfds[(p.chan c).index.toNat]?

/-- The poller with a new slot for the channel, which has the mask `m` now. -/
def pushed (p : Poller C) (c : C) (m : Mask) : Poller C :=
  { p with
    chan := Function.update p.chan c { p.chan c with events := m, index := p.pollfds.length }
    channels := Function.update p.channels (p.chan c).fd (some c)
    pollfds := p.pollfds ++ [⟨(p.chan c).fd, m.toShort, 0⟩] }

/-- The poller with the mask `m` for the channel and the descriptor `fd` in its slot. -/
def masked (p : Poller C) (c : C) (m : Mask) (fd : ℤ) : Poller C :=
  { p.setEvents c m with
    pollfds := p.pollfds.set (p.chan c).index.toNat ⟨fd, m.toShort, 0⟩ }

/-- The poller without its last slot, which was that of the channel. -/
def popped (p : Poller C) (c : C) : Poller C :=
  { p with
    channels := Function.update p.channels (p.chan c).fd none
    pollfds := p.pollfds.dropLast }

/-- The poller with the last slot, `back` of the channel `d`, in the place of the slot of
the channel `c`. -/
def swapped (p : Poller C) (c d : C) (back : PollFd) : Poller C :=
  { p.setIndex d (p.chan c).index with
    channels := Function.update p.channels (p.chan c).fd none
    pollfds := (p.pollfds.set (p.chan c).index.toNat back).dropLast }

lemma dropLast_set_last {α : Type} (l : List α) (i : ℕ) (a b : α) :
    ((l.set i a).set (l.length - 1) b).dropLast = (l.set i a).dropLast := by
  refine List.ext_getElem? fun j => ?_
  rw [List.getElem?_dropLast, List.getElem?_dropLast, List.length_set, List.length_set]
  by_cases hj : j < l.length - 1
  · rw [if_pos hj, if_pos hj, List.getElem?_set_ne (by omega)]
  · rw [if_neg hj, if_neg hj]

variable {p p' : Poller C} {c : C} {m : Mask}

/-- **A call of `updateChannel` that passed its assertions**, from a channel whose events
have become `m`: a new slot, or the old one with the new mask and, if that is empty, the
descriptor negated. -/
lemma updateChannel_ok (hok : (p.setEvents c m).updateChannel c = .ok p') :
    ((p.chan c).index < 0 ∧ p.channels (p.chan c).fd = none ∧ p' = p.pushed c m) ∨
    (0 ≤ (p.chan c).index ∧ p.channels (p.chan c).fd = some c ∧
      ∃ pfd, p.slotAt c = some pfd ∧ (pfd.fd = (p.chan c).fd ∨ pfd.fd = -(p.chan c).fd - 1) ∧
        p' = p.masked c m
          (if m = Channel.kNoneEvent then -(p.chan c).fd - 1 else pfd.fd)) := by
  have hchan : (p.setEvents c m).chan c = { p.chan c with events := m } := by simp [setEvents]
  simp only [updateChannel, hchan] at hok
  by_cases hidx : (p.chan c).index < 0
  · rw [if_pos hidx] at hok
    obtain ⟨hnone, hok⟩ := check_bind_eq_ok.mp hok
    obtain rfl := Except.ok.inj hok
    refine Or.inl ⟨hidx, hnone, ?_⟩
    simp [pushed, setEvents, setIndex]
  · rw [if_neg hidx] at hok
    obtain ⟨-, hok⟩ := check_bind_eq_ok.mp hok
    obtain ⟨hsome, hok⟩ := check_bind_eq_ok.mp hok
    have hpos : 0 ≤ (p.chan c).index := by omega
    refine Or.inr ⟨hpos, hsome, ?_⟩
    cases hslot : (p.setEvents c m).slot (p.chan c).index with
    | none => simp [hslot] at hok
    | some pfd =>
        simp only [hslot] at hok
        obtain ⟨hfd, hok⟩ := check_bind_eq_ok.mp hok
        obtain rfl := Except.ok.inj hok
        refine ⟨pfd, by simpa [slot, slotAt, hpos, setEvents] using hslot, hfd, ?_⟩
        by_cases hm : m = Channel.kNoneEvent
        · simp [masked, setEvents, PollChannel.isNoneEvent, hm]
        · simp [masked, setEvents, PollChannel.isNoneEvent, hm]

/-- **A call of `removeChannel` that passed its assertions**: the last slot is dropped,
after it was moved into the place of the channel's slot if that is another one. -/
lemma removeChannel_ok (hok : p.removeChannel c = .ok p') :
    p.channels (p.chan c).fd = some c ∧ (p.chan c).events = Channel.kNoneEvent ∧
    0 ≤ (p.chan c).index ∧
    (((p.chan c).index.toNat = p.pollfds.length - 1 ∧ p' = p.popped c) ∨
    ((p.chan c).index.toNat ≠ p.pollfds.length - 1 ∧
      ∃ back d, p.pollfds[p.pollfds.length - 1]? = some back ∧
        Function.update p.channels (p.chan c).fd none back.owner = some d ∧
        p' = p.swapped c d back)) := by
  obtain ⟨-, hok⟩ := check_bind_eq_ok.mp hok
  obtain ⟨hsome, hok⟩ := check_bind_eq_ok.mp hok
  obtain ⟨hnone, hok⟩ := check_bind_eq_ok.mp hok
  cases hslot : p.slot (p.chan c).index with
  | none => simp [hslot] at hok
  | some pfd =>
      simp only [hslot] at hok
      obtain ⟨-, hok⟩ := check_bind_eq_ok.mp hok
      have hpos : 0 ≤ (p.chan c).index := by
        by_contra hneg
        simp [slot, hneg] at hslot
      have hidx : p.pollfds[(p.chan c).index.toNat]? = some pfd := by
        simpa [slot, hpos] using hslot
      refine ⟨hsome, by simpa [PollChannel.isNoneEvent] using hnone, hpos, ?_⟩
      by_cases hlast : (p.chan c).index.toNat = p.pollfds.length - 1
      · rw [if_pos hlast] at hok
        obtain rfl := Except.ok.inj hok
        exact Or.inl ⟨hlast, rfl⟩
      · rw [if_neg hlast] at hok
        have hlt := (List.getElem?_eq_some_iff.mp hidx).1
        obtain ⟨back, hback, hlastD⟩ := exists_getLastD (l := p.pollfds) (by omega)
        simp only [hlastD] at hok
        refine Or.inr ⟨hlast, back, ?_⟩
        cases hd : Function.update p.channels (p.chan c).fd none back.owner with
        | none =>
            simp only [PollFd.owner] at hd
            simp only [hd] at hok
            exact absurd hok (by simp)
        | some d =>
            have hd' := hd
            simp only [PollFd.owner] at hd'
            simp only [hd'] at hok
            obtain rfl := Except.ok.inj hok
            refine ⟨d, hback, rfl, ?_⟩
            simp [swapped, setIndex, dropLast_set_last]

end Operations

/-! ### The slot table -/

/-- The channel is in `channels_`. -/
def inChannels (p : Poller C) (c : C) : Prop := ∃ fd, p.channels fd = some c

/-- Where a descriptor has its slot, read off the map and the channels. -/
def slotOf (p : Poller C) (fd : ℤ) : Option ℕ :=
  (p.channels fd).map fun c => (p.chan c).index.toNat

/-- Every registered channel but `c` was registered before, with the same slot. -/
def KeepsOthers (p p' : Poller C) (c : C) : Prop :=
  ∀ fd d, d ≠ c → p'.channels fd = some d →
    p.channels fd = some d ∧ p'.slotAt d = p.slotAt d ∧ (p'.chan d).events = (p.chan d).events

/-- The map, the indices and the table agree, and every slot has the mask of its channel.
Events are those of `kReadEvent` and `kWriteEvent`, so that they fit a `short`. -/
structure Slots (p : Poller C) : Prop where
  found : ∀ fd c, p.channels fd = some c → ((p.chan c).fd : ℤ) = fd ∧ 0 ≤ (p.chan c).index
  table : Indexes p.slotOf (p.pollfds.map PollFd.owner)
  events : ∀ fd c, p.channels fd = some c →
    (p.slotAt c).map PollFd.events = some (p.chan c).events.toShort
  narrow : ∀ c, (p.chan c).events.toNat < 8

lemma new_slots (fd : C → ℕ) : (new fd).Slots where
  found _ _ h := absurd h (by simp [new])
  table := Indexes.nil
  events _ _ h := absurd h (by simp [new])
  narrow c := by simp [new, PollChannel.new]

section Slots

variable {p p' : Poller C} {c : C} {m : Mask}

lemma slotOf_eq {fd : ℤ} (h : p.channels fd = some c) :
    p.slotOf fd = some (p.chan c).index.toNat := by
  rw [slotOf, h]
  rfl

/-- Whoever is found under another descriptor is another channel. -/
lemma Slots.ne_of_fd (h : p.Slots) {fd : ℤ} {d : C} (hfd : fd ≠ (p.chan c).fd)
    (hd : p.channels fd = some d) : d ≠ c := by
  rintro rfl
  exact hfd (h.found fd d hd).1.symm

/-- Distinct registered channels have distinct slots. -/
lemma Slots.index_ne (h : p.Slots) {f g : ℤ} {d e : C} (hd : p.channels f = some d)
    (he : p.channels g = some e) (hde : d ≠ e) :
    (p.chan d).index.toNat ≠ (p.chan e).index.toNat := by
  intro heq
  have hfg := h.table.inj (slotOf_eq hd) (by rw [slotOf_eq he, heq])
  rw [hfg, he] at hd
  exact hde (Option.some.inj hd).symm

lemma Slots.lt_length (h : p.Slots) {fd : ℤ} (hc : p.channels fd = some c) :
    (p.chan c).index.toNat < p.pollfds.length := by
  simpa using h.table.lt_length (slotOf_eq hc)

lemma Slots.keeps_events (h : p.Slots) (hkeep : p.KeepsOthers p' c) {fd : ℤ} {d : C} (hdc : d ≠ c)
    (hd : p'.channels fd = some d) :
    (p'.slotAt d).map PollFd.events = some (p'.chan d).events.toShort := by
  obtain ⟨hd', hslot, hev⟩ := hkeep fd d hdc hd
  rw [hslot, hev]
  exact h.events fd d hd'

/-! ### The last slot given up -/

lemma update_none_eq_some {f : ℤ → Option C} {k fd : ℤ} {d : C} :
    Function.update f k none fd = some d ↔ fd ≠ k ∧ f fd = some d := by
  by_cases hfd : fd = k <;> simp [hfd]

lemma Slots.keeps_popped (h : p.Slots) (hsome : p.channels (p.chan c).fd = some c)
    (hlast : (p.chan c).index.toNat = p.pollfds.length - 1) : p.KeepsOthers (p.popped c) c := by
  intro fd d hdc hd
  obtain ⟨-, hd'⟩ := update_none_eq_some.mp hd
  have hlt := h.lt_length hd'
  have hne := h.index_ne hd' hsome hdc
  refine ⟨hd', ?_, rfl⟩
  rw [slotAt, popped, List.getElem?_dropLast, if_pos (by simp only; omega)]
  rfl

lemma Slots.popped (h : p.Slots) (hsome : p.channels (p.chan c).fd = some c)
    (hlast : (p.chan c).index.toNat = p.pollfds.length - 1) : (p.popped c).Slots := by
  constructor
  · intro fd d hd
    exact h.found fd d (update_none_eq_some.mp hd).2
  · have htable := h.table.pop (slotOf_eq hsome) (by simpa using hlast)
    convert htable using 1
    · funext fd
      by_cases hfd : fd = (p.chan c).fd
      · subst hfd
        simp [slotOf, Poller.popped]
      · simp [slotOf, Poller.popped, hfd]
    · rw [Poller.popped, List.map_dropLast]
  · intro fd d hd
    refine h.keeps_events (h.keeps_popped hsome hlast) ?_ hd
    exact h.ne_of_fd (update_none_eq_some.mp hd).1 (update_none_eq_some.mp hd).2
  · exact h.narrow

/-- The channel of the last slot. -/
lemma Slots.index_back (h : p.Slots) {back : PollFd} {d : C}
    (hback : p.pollfds[p.pollfds.length - 1]? = some back) (hd : p.channels back.owner = some d) :
    (p.chan d).index.toNat = p.pollfds.length - 1 := by
  have hslot : p.slotOf back.owner = some (p.pollfds.length - 1) :=
    (h.table _ _).mpr (by simp [hback])
  exact Option.some.inj ((slotOf_eq hd).symm.trans hslot)

variable [DecidableEq C]

/-! ### A new slot -/

lemma slotAt_pushed (p : Poller C) (c : C) (m : Mask) :
    (p.pushed c m).slotAt c = some ⟨(p.chan c).fd, m.toShort, 0⟩ := by
  simp [slotAt, pushed]

lemma events_pushed (p : Poller C) (c : C) (m : Mask) : ((p.pushed c m).chan c).events = m := by
  simp [pushed]

lemma Slots.keeps_pushed (h : p.Slots) (c : C) (m : Mask) : p.KeepsOthers (p.pushed c m) c := by
  intro fd d hdc hd
  have hfd : fd ≠ (p.chan c).fd := by
    rintro rfl
    exact hdc (by simpa [pushed] using hd.symm)
  have hd' : p.channels fd = some d := by simpa [pushed, hfd] using hd
  have hlt := h.lt_length hd'
  refine ⟨hd', ?_, by simp [pushed, hdc]⟩
  simp [slotAt, pushed, hdc, List.getElem?_append_left hlt]

lemma Slots.pushed (h : p.Slots) (hm : m.toNat < 8) (hnone : p.channels (p.chan c).fd = none) :
    (p.pushed c m).Slots := by
  constructor
  · intro fd d hd
    by_cases hfd : fd = (p.chan c).fd
    · subst hfd
      obtain rfl : c = d := by simpa [Poller.pushed] using hd
      simp [Poller.pushed]
    · have hd' : p.channels fd = some d := by simpa [Poller.pushed, hfd] using hd
      simpa [Poller.pushed, h.ne_of_fd hfd hd'] using h.found fd d hd'
  · have htable := h.table.push (k := ((p.chan c).fd : ℤ)) (by rw [slotOf, hnone]; rfl)
    convert htable using 1
    · funext fd
      by_cases hfd : fd = (p.chan c).fd
      · subst hfd
        simp [slotOf, Poller.pushed]
      · cases hd : p.channels fd with
        | none => simp [slotOf, Poller.pushed, hfd, hd]
        | some d => simp [slotOf, Poller.pushed, hfd, hd, h.ne_of_fd hfd hd]
    · simp [Poller.pushed, PollFd.owner]
  · intro fd d hd
    by_cases hdc : d = c
    · subst hdc
      rw [slotAt_pushed, events_pushed]
      rfl
    · exact h.keeps_events (h.keeps_pushed c m) hdc hd
  · intro d
    by_cases hdc : d = c
    · subst hdc
      simpa [Poller.pushed] using hm
    · simpa [Poller.pushed, hdc] using h.narrow d

/-! ### A slot with a new mask -/

lemma masked_chan (p : Poller C) (c : C) (m : Mask) (fd : ℤ) (d : C) :
    ((p.masked c m fd).chan d).fd = (p.chan d).fd ∧
      ((p.masked c m fd).chan d).index = (p.chan d).index := by
  by_cases hdc : d = c <;> simp [masked, setEvents, hdc]

lemma events_masked (p : Poller C) (c : C) (m : Mask) (fd : ℤ) :
    ((p.masked c m fd).chan c).events = m := by
  simp [masked, setEvents]

lemma Slots.slotAt_masked (h : p.Slots) (hsome : p.channels (p.chan c).fd = some c) (m : Mask)
    (fd : ℤ) : (p.masked c m fd).slotAt c = some ⟨fd, m.toShort, 0⟩ := by
  rw [slotAt, (p.masked_chan c m fd c).2]
  exact List.getElem?_set_self (h.lt_length hsome)

lemma Slots.keeps_masked (h : p.Slots) (hsome : p.channels (p.chan c).fd = some c) (m : Mask)
    (fd : ℤ) : p.KeepsOthers (p.masked c m fd) c := by
  intro f d hdc hd
  have hd' : p.channels f = some d := hd
  refine ⟨hd', ?_, by simp [masked, setEvents, hdc]⟩
  rw [slotAt, (p.masked_chan c m fd d).2]
  exact List.getElem?_set_ne (h.index_ne hsome hd' (Ne.symm hdc))

lemma Slots.masked (h : p.Slots) (hm : m.toNat < 8) (hsome : p.channels (p.chan c).fd = some c)
    {fd : ℤ} (hfd : fd = (p.chan c).fd ∨ fd = -(p.chan c).fd - 1) :
    (p.masked c m fd).Slots := by
  constructor
  · intro f d hd
    rw [(p.masked_chan c m fd d).1, (p.masked_chan c m fd d).2]
    exact h.found f d hd
  · -- neither the indices nor the owners of the slots change
    have hslot : (p.masked c m fd).slotOf = p.slotOf := by
      funext f
      simp only [slotOf, (p.masked_chan c m fd _).2]
      rfl
    have hi : (p.chan c).index.toNat < (p.pollfds.map PollFd.owner).length := by
      simpa using h.lt_length hsome
    have hown := (h.table _ _).mp (slotOf_eq hsome)
    rw [List.getElem?_eq_getElem hi] at hown
    have howners : (p.masked c m fd).pollfds.map PollFd.owner = p.pollfds.map PollFd.owner := by
      rw [Poller.masked, List.map_set, PollFd.owner_eq_iff.mpr hfd, ← Option.some.inj hown,
        List.set_getElem_self]
    rw [hslot, howners]
    exact h.table
  · intro f d hd
    by_cases hdc : d = c
    · subst hdc
      rw [h.slotAt_masked hsome, events_masked]
      rfl
    · exact h.keeps_events (h.keeps_masked hsome m fd) hdc hd
  · intro d
    by_cases hdc : d = c
    · subst hdc
      simpa [Poller.masked, setEvents] using hm
    · simpa [Poller.masked, setEvents, hdc] using h.narrow d

/-- **`updateChannel` keeps the table.** -/
lemma Slots.updateChannel (h : p.Slots) (hm : m.toNat < 8)
    (hok : (p.setEvents c m).updateChannel c = .ok p') : p'.Slots := by
  obtain ⟨-, hnone, rfl⟩ | ⟨-, hsome, pfd, hpfd, hfd, rfl⟩ := updateChannel_ok hok
  · exact h.pushed hm hnone
  · refine h.masked hm hsome ?_
    split_ifs
    · exact Or.inr rfl
    · exact hfd

/-! ### A slot removed -/

section Swap

variable {d : C} {back : PollFd}

lemma Slots.keeps_swapped (h : p.Slots) (hsome : p.channels (p.chan c).fd = some c)
    (hlast : (p.chan c).index.toNat ≠ p.pollfds.length - 1)
    (hback : p.pollfds[p.pollfds.length - 1]? = some back)
    (hd : Function.update p.channels (p.chan c).fd none back.owner = some d) :
    p.KeepsOthers (p.swapped c d back) c := by
  intro fd e hec he
  obtain ⟨-, hd'⟩ := update_none_eq_some.mp hd
  obtain ⟨-, he'⟩ := update_none_eq_some.mp he
  have hlt := h.lt_length hsome
  have hdlast := h.index_back hback hd'
  by_cases hed : e = d
  · -- the moved slot
    subst hed
    refine ⟨he', ?_, by simp [swapped, setIndex]⟩
    rw [slotAt, slotAt, hdlast, hback]
    simp only [swapped, setIndex, Function.update_self]
    rw [List.getElem?_dropLast, List.length_set, if_pos (by omega), List.getElem?_set_self hlt]
  · have hlt' := h.lt_length he'
    have hne := h.index_ne he' hd' hed
    refine ⟨he', ?_, by simp [swapped, setIndex, hed]⟩
    rw [slotAt, slotAt]
    simp only [swapped, setIndex, ne_eq, hed, not_false_eq_true, Function.update_of_ne]
    rw [List.getElem?_dropLast, List.length_set, if_pos (by omega),
      List.getElem?_set_ne (h.index_ne hsome he' (Ne.symm hec))]

lemma Slots.swapped (h : p.Slots) (hsome : p.channels (p.chan c).fd = some c)
    (hlast : (p.chan c).index.toNat ≠ p.pollfds.length - 1) (hpos : 0 ≤ (p.chan c).index)
    (hback : p.pollfds[p.pollfds.length - 1]? = some back)
    (hd : Function.update p.channels (p.chan c).fd none back.owner = some d) :
    (p.swapped c d back).Slots := by
  obtain ⟨hown, hd'⟩ := update_none_eq_some.mp hd
  have hdfd := (h.found _ d hd').1
  constructor
  · intro fd e he
    have hfound := h.found fd e (update_none_eq_some.mp he).2
    by_cases hed : e = d
    · subst hed
      simpa [Poller.swapped, setIndex] using ⟨hfound.1, hpos⟩
    · simpa [Poller.swapped, setIndex, hed] using hfound
  · have htable := h.table.swapRemove (slotOf_eq hsome)
      (by rw [slotOf_eq hd', h.index_back hback hd']; simp) (by simpa using hlast)
    convert htable using 1
    · funext fd
      by_cases hfd : fd = back.owner
      · subst hfd
        simp [slotOf, hd, Poller.swapped, setIndex]
      · rw [Function.update_of_ne hfd]
        by_cases hfdc : fd = (p.chan c).fd
        · subst hfdc
          simp [slotOf, Poller.swapped]
        · cases he : p.channels fd with
          | none => simp [slotOf, Poller.swapped, hfdc, he]
          | some e =>
              have hed : e ≠ d := h.ne_of_fd (by rw [hdfd]; exact hfd) he
              simp [slotOf, Poller.swapped, hfdc, he, setIndex, hed]
    · rw [Poller.swapped, List.map_dropLast, List.map_set]
  · intro fd e he
    refine h.keeps_events (h.keeps_swapped hsome hlast hback hd) ?_ he
    exact h.ne_of_fd (update_none_eq_some.mp he).1 (update_none_eq_some.mp he).2
  · intro e
    by_cases hed : e = d
    · subst hed
      simpa [Poller.swapped, setIndex] using h.narrow e
    · simpa [Poller.swapped, setIndex, hed] using h.narrow e

end Swap

/-- **`removeChannel` keeps the table.** -/
lemma Slots.removeChannel (h : p.Slots) (hok : p.removeChannel c = .ok p') : p'.Slots := by
  obtain ⟨hsome, -, hpos, ⟨hlast, rfl⟩ | ⟨hlast, back, d, hback, hd, rfl⟩⟩ := removeChannel_ok hok
  · exact h.popped hsome hlast
  · exact h.swapped hsome hlast hpos hback hd

/-- The calls keep events within `kReadEvent` and `kWriteEvent`. -/
lemma ChannelCall.events_lt (f : ChannelCall) {m : Mask} (hm : m.toNat < 8) :
    (f.events m).toNat < 8 := by
  cases f with
  | enableReading => exact Nat.or_lt_two_pow (n := 3) hm (by decide)
  | enableWriting => exact Nat.or_lt_two_pow (n := 3) hm (by decide)
  | disableWriting => exact lt_of_le_of_lt Nat.and_le_left hm
  | disableAll => exact Nat.zero_lt_succ 7
  | removeChannel => exact hm

lemma setEvents_self (p : Poller C) (c : C) : p.setEvents c (p.chan c).events = p := by
  simp [setEvents]

end Slots

/-! ### Reported events -/

section Report

variable {p p' : Poller C} {c : C}

/-- The channels of the slots with events. -/
def hits (p : Poller C) (pollfds : List PollFd) : List C :=
  pollfds.filterMap fun pfd => if pfd.revents = 0 then none else p.channels pfd.fd

/-- Only what was reported for channels changed, for these ones. -/
structure Reports (p p' : Poller C) (l : List C) : Prop where
  chan : ∀ d, p'.chan d = { p.chan d with revents := (p'.chan d).revents }
  channels : p'.channels = p.channels
  pollfds : p'.pollfds = p.pollfds
  revents : ∀ d, d ∉ l → (p'.chan d).revents = (p.chan d).revents

/-- A slot with events is one `fillActiveChannels` takes and finds its channel for. -/
def Hit (p : Poller C) (pfd : PollFd) : Prop :=
  0 < pfd.revents.toInt ∧ ∃ c, p.channels pfd.fd = some c ∧ ((p.chan c).fd : ℤ) = pfd.fd

lemma Reports.trans {p₁ p₂ p₃ : Poller C} {l₁ l₂ : List C} (h : p₁.Reports p₂ l₁)
    (h' : p₂.Reports p₃ l₂) : p₁.Reports p₃ (l₁ ++ l₂) where
  chan d := by
    rw [h'.chan d, h.chan d]
  channels := h'.channels.trans h.channels
  pollfds := h'.pollfds.trans h.pollfds
  revents d hd := by
    simp only [List.mem_append, not_or] at hd
    rw [h'.revents d hd.2, h.revents d hd.1]

lemma Hit.reports {pfd : PollFd} {l : List C} (h : p.Hit pfd) (hrep : p.Reports p' l) :
    p'.Hit pfd := by
  obtain ⟨hpos, c, hc, hfd⟩ := h
  refine ⟨hpos, c, by rw [hrep.channels]; exact hc, ?_⟩
  rw [hrep.chan c]
  exact hfd

lemma Reports.hits_eq {l : List C} (hrep : p.Reports p' l) (pollfds : List PollFd) :
    p'.hits pollfds = p.hits pollfds := by
  rw [hits, hits, hrep.channels]

lemma getElem?_report (p : Poller C) (revents : ℕ → Short) (i : ℕ) :
    (p.report revents).pollfds[i]? =
      p.pollfds[i]?.map fun pfd => { pfd with revents := revents i } := by
  rw [report, List.getElem?_mapIdx]

lemma Slots.report (h : p.Slots) (revents : ℕ → Short) : (p.report revents).Slots := by
  refine ⟨h.found, ?_, fun fd d hd => ?_, h.narrow⟩
  · have howners : (p.report revents).pollfds.map PollFd.owner = p.pollfds.map PollFd.owner := by
      refine List.ext_getElem? fun i => ?_
      rw [List.getElem?_map, getElem?_report, List.getElem?_map, Option.map_map]
      rfl
    rw [howners]
    exact h.table
  · rw [slotAt, getElem?_report, Option.map_map]
    exact h.events fd d hd

lemma Slots.reports {l : List C} (h : p.Slots) (hrep : p.Reports p' l) : p'.Slots := by
  refine ⟨fun fd d hd => ?_, ?_, fun fd d hd => ?_, fun d => ?_⟩
  · rw [hrep.channels] at hd
    rw [hrep.chan d]
    exact h.found fd d hd
  · have hslot : p'.slotOf = p.slotOf := by
      funext fd
      rw [slotOf, slotOf, hrep.channels]
      congr 1
      funext d
      rw [hrep.chan d]
    rw [hslot, hrep.pollfds]
    exact h.table
  · rw [hrep.channels] at hd
    rw [slotAt, hrep.pollfds, hrep.chan d]
    exact h.events fd d hd
  · rw [hrep.chan d]
    exact h.narrow d

/-- What `poll(2)` can fill in: nothing for a slot with a negative descriptor, and no event
that is the sign bit of a `short`. -/
def fillable (p : Poller C) (revents : ℕ → Short) : Prop :=
  ∀ i pfd, p.pollfds[i]? = some pfd →
    (pfd.fd < 0 → revents i = 0) ∧ (revents i).msb = false

/-- A descriptor in the map is the owner of a slot that holds it. -/
lemma Slots.owner_eq (h : p.Slots) {pfd : PollFd} (hc : p.channels pfd.fd = some c) :
    pfd.owner = (p.chan c).fd := by
  have hfd := (h.found _ c hc).1
  exact PollFd.owner_eq_iff.mpr (Or.inl hfd.symm)

/-- No channel is hit twice. -/
lemma Slots.nodup_hits (h : p.Slots) : (p.hits p.pollfds).Nodup := by
  have hnodup := h.table.nodup
  rw [List.Nodup, List.pairwise_map] at hnodup
  rw [hits, List.Nodup, List.pairwise_filterMap]
  refine hnodup.imp fun hne c hc d hd => ?_
  rintro rfl
  split_ifs at hc hd
  exact hne ((h.owner_eq hc).trans (h.owner_eq hd).symm)

/-- A slot with events is that of a registered channel, and not negated. -/
lemma Slots.hit (h : p.Slots) {revents : ℕ → Short} (hfill : p.fillable revents) {x : PollFd}
    (hx : x ∈ (p.report revents).pollfds) (hx0 : x.revents ≠ 0) :
    (p.report revents).Hit x ∧
      ∃ c, p.channels x.fd = some c ∧ x.revents = revents (p.chan c).index.toNat := by
  obtain ⟨i, hi⟩ := List.mem_iff_getElem?.mp hx
  rw [getElem?_report] at hi
  obtain ⟨pfd, hpfd, rfl⟩ := Option.map_eq_some_iff.mp hi
  obtain ⟨hneg, hmsb⟩ := hfill i pfd hpfd
  have hfd : 0 ≤ pfd.fd := by
    by_contra hlt
    exact hx0 (hneg (by omega))
  have hown : (p.pollfds.map PollFd.owner)[i]? = some pfd.fd := by
    simp [hpfd, PollFd.owner, not_lt.mpr hfd]
  obtain ⟨c, hc, hidx⟩ := Option.map_eq_some_iff.mp ((h.table _ _).mpr hown)
  refine ⟨⟨?_, c, hc, (h.found _ c hc).1⟩, c, hc, by rw [hidx]⟩
  have htoNat : (revents i).toNat ≠ 0 := fun h0 => hx0 (BitVec.eq_of_toNat_eq h0)
  rw [BitVec.toInt_eq_toNat_of_msb hmsb]
  omega

/-- A registered channel with events has its slot among those with events. -/
lemma Slots.exists_hit (h : p.Slots) {revents : ℕ → Short} (hfill : p.fillable revents)
    (hc : p.inChannels c) (hr : revents (p.chan c).index.toNat ≠ 0) :
    ∃ x ∈ (p.report revents).pollfds, x.revents ≠ 0 ∧ p.channels x.fd = some c := by
  obtain ⟨fd, hc⟩ := hc
  have hslot := (h.table _ _).mp (slotOf_eq hc)
  rw [List.getElem?_map] at hslot
  obtain ⟨pfd, hpfd, hown⟩ := Option.map_eq_some_iff.mp hslot
  obtain ⟨hneg, -⟩ := hfill _ pfd hpfd
  have hfd : pfd.fd = fd := by
    have hnn : ¬ pfd.fd < 0 := fun hlt => hr (hneg hlt)
    rw [← hown, PollFd.owner, if_neg hnn]
  refine ⟨{ pfd with revents := revents (p.chan c).index.toNat }, ?_, hr, ?_⟩
  · refine List.mem_iff_getElem?.mpr ⟨(p.chan c).index.toNat, ?_⟩
    rw [getElem?_report, hpfd]
    rfl
  · rw [← hfd] at hc
    exact hc

/-- The slot of a registered channel. -/
lemma Slots.slot_spec (h : p.Slots) (hc : p.inChannels c) : ∃ pfd, p.slotAt c = some pfd ∧
    (pfd.fd = (p.chan c).fd ∨ pfd.fd = -(p.chan c).fd - 1) ∧
    Mask.ofShort pfd.events = (p.chan c).events := by
  obtain ⟨fd, hc⟩ := hc
  obtain ⟨pfd, hpfd, hev⟩ := Option.map_eq_some_iff.mp (h.events fd c hc)
  refine ⟨pfd, hpfd, PollFd.owner_eq_iff.mp ?_, ?_⟩
  · have hown := (h.table _ _).mp (slotOf_eq hc)
    rw [List.getElem?_map] at hown
    obtain ⟨pfd', hpfd', hown⟩ := Option.map_eq_some_iff.mp hown
    obtain rfl := Option.some.inj (hpfd.symm.trans hpfd')
    rw [hown, (h.found fd c hc).1]
  · rw [hev]
    exact Mask.ofShort_toShort (h.narrow c)

variable [DecidableEq C]

lemma reports_setRevents (p : Poller C) (c : C) (m : Mask) :
    p.Reports (p.setRevents c m) [c] where
  chan d := by by_cases hd : d = c <;> simp [setRevents, hd]
  channels := rfl
  pollfds := rfl
  revents d hd := by
    have hdc : d ≠ c := by simpa using hd
    simp [setRevents, hdc]

/-- A slot without events is passed over, also when the count has run out. -/
lemma fillChannels_skip {pfd : PollFd} (hz : pfd.revents = 0) (pollfds : List PollFd) (n : ℕ)
    (activeChannels : List C) :
    p.fillChannels (pfd :: pollfds) n activeChannels = p.fillChannels pollfds n activeChannels := by
  cases n with
  | zero => cases pollfds <;> simp [fillChannels]
  | succ n => simp [fillChannels, hz]

/-- **`fillActiveChannels` takes every slot with events**, in the order of the table; the
count it is given runs out behind the last of them. -/
lemma fillChannels_spec {pollfds : List PollFd} {n : ℕ} (activeChannels : List C)
    (hhit : ∀ pfd ∈ pollfds, pfd.revents ≠ 0 → p.Hit pfd)
    (hn : n = pollfds.countP fun pfd => pfd.revents ≠ 0) (hnodup : (p.hits pollfds).Nodup) :
    ∃ p', p.fillChannels pollfds n activeChannels = .ok (p', activeChannels ++ p.hits pollfds) ∧
      p.Reports p' (p.hits pollfds) ∧
      ∀ pfd ∈ pollfds, pfd.revents ≠ 0 → ∀ c, p.channels pfd.fd = some c →
        (p'.chan c).revents = Mask.ofShort pfd.revents := by
  induction pollfds generalizing p n activeChannels with
  | nil =>
      refine ⟨p, by simp [fillChannels, hits, pure, Except.pure], ⟨fun _ => rfl, rfl, rfl, ?_⟩, ?_⟩
      · intro _ _
        rfl
      · simp
  | cons pfd pollfds ih =>
      by_cases hz : pfd.revents = 0
      · have hhits : p.hits (pfd :: pollfds) = p.hits pollfds := by simp [hits, hz]
        rw [hhits] at hnodup ⊢
        rw [fillChannels_skip hz]
        obtain ⟨p', hfill, hrep, hrev⟩ := @ih p n activeChannels
          (fun x hx => hhit x (by simp [hx])) (by simpa [hz] using hn) hnodup
        refine ⟨p', hfill, hrep, fun x hx hx0 => ?_⟩
        rcases List.mem_cons.mp hx with rfl | hx
        · exact absurd hz hx0
        · exact hrev x hx hx0
      · obtain ⟨hpos, c, hc, hfd⟩ := hhit pfd (by simp) hz
        have hhits : p.hits (pfd :: pollfds) = c :: p.hits pollfds := by
          rw [hits, List.filterMap_cons_some (by rw [if_neg hz, hc])]
          rfl
        rw [hhits] at hnodup ⊢
        obtain ⟨hnew, hnodup⟩ := List.nodup_cons.mp hnodup
        have hset := p.reports_setRevents c (Mask.ofShort pfd.revents)
        rw [List.countP_cons_of_pos (by simpa using hz)] at hn
        have hcount : n - 1 = pollfds.countP fun pfd => pfd.revents ≠ 0 := by rw [hn]; rfl
        obtain ⟨p', hfill, hrep, hrev⟩ := @ih (p.setRevents c (Mask.ofShort pfd.revents)) (n - 1)
          (activeChannels ++ [c])
          (fun x hx hx0 => (hhit x (by simp [hx]) hx0).reports hset) hcount
          (by rw [hset.hits_eq]; exact hnodup)
        rw [hset.hits_eq] at hfill hrep
        refine ⟨p', ?_, hset.trans hrep, fun x hx hx0 d hd => ?_⟩
        · have hnpos : 0 < n := by omega
          rw [fillChannels, if_pos hnpos, if_pos hpos]
          simp only [hc]
          rw [check_bind_of hfd, hfill]
          simp
        · rcases List.mem_cons.mp hx with rfl | hx
          · -- later slots are those of other channels
            obtain rfl := Option.some.inj (hc.symm.trans hd)
            rw [hrep.revents c hnew]
            simp [setRevents]
          · exact hrev x hx hx0 d hd

/-- Whatever is reported, only `revents` change. -/
lemma fillChannels_reports {pollfds : List PollFd} {n : ℕ} {a a' : List C}
    (hok : p.fillChannels pollfds n a = .ok (p', a')) : ∃ l, p.Reports p' l := by
  induction pollfds generalizing p n a with
  | nil =>
      obtain ⟨rfl, -⟩ := Prod.mk.inj (Except.ok.inj hok)
      exact ⟨[], fun _ => rfl, rfl, rfl, fun _ _ => rfl⟩
  | cons pfd pollfds ih =>
      rw [fillChannels] at hok
      split_ifs at hok with hn hpos
      · cases hc : p.channels pfd.fd with
        | none => simp [hc] at hok
        | some c =>
            simp only [hc] at hok
            obtain ⟨-, hok⟩ := check_bind_eq_ok.mp hok
            obtain ⟨l, hrep⟩ := ih hok
            exact ⟨_, (p.reports_setRevents c _).trans hrep⟩
      · exact ih hok
      · obtain ⟨rfl, -⟩ := Prod.mk.inj (Except.ok.inj hok)
        exact ⟨[], fun _ => rfl, rfl, rfl, fun _ _ => rfl⟩

lemma poll_reports {revents : ℕ → Short} (hok : (p.poll revents).map Prod.fst = .ok p') :
    ∃ l, (p.report revents).Reports p' l := by
  cases hpoll : p.poll revents with
  | error f => simp [hpoll, Except.map] at hok
  | ok x =>
      obtain ⟨q, a⟩ := x
      obtain rfl : q = p' := by simpa [hpoll, Except.map] using hok
      simp only [poll] at hpoll
      split_ifs at hpoll with hn
      · exact fillChannels_reports hpoll
      · obtain ⟨rfl, -⟩ := Prod.mk.inj (Except.ok.inj hpoll)
        exact ⟨[], fun _ => rfl, rfl, rfl, fun _ _ => rfl⟩

/-- **Every step that passed its assertions keeps the table.** -/
theorem Slots.next (h : p.Slots) {l : Label C} (hok : p.next l = .ok p') : p'.Slots := by
  cases l with
  | update c =>
      refine h.updateChannel (h.narrow c) (c := c) ?_
      rw [setEvents_self]
      exact hok
  | poll revents =>
      obtain ⟨l, hrep⟩ := poll_reports hok
      exact (h.report revents).reports hrep
  | call c f =>
      cases f with
      | removeChannel => exact h.removeChannel hok
      | _ => exact h.updateChannel (ChannelCall.events_lt _ (h.narrow c)) hok

/-- The channels `fillActiveChannels` appends. -/
lemma Slots.fillActiveChannels (h : p.Slots) {revents : ℕ → Short} (hfill : p.fillable revents)
    (activeChannels : List C) :
    ∃ p' added, (p.report revents).fillActiveChannels (p.report revents).numEvents activeChannels =
        .ok (p', activeChannels ++ added) ∧
      added.Nodup ∧
      (∀ c, c ∈ added ↔ p.inChannels c ∧ revents (p.chan c).index.toNat ≠ 0) ∧
      ∀ c ∈ added, (p'.chan c).revents = Mask.ofShort (revents (p.chan c).index.toNat) := by
  have hnodup := (h.report revents).nodup_hits
  obtain ⟨p', hok, -, hrev⟩ := fillChannels_spec activeChannels
    (fun x hx hx0 => (h.hit hfill hx hx0).1) rfl hnodup
  -- a channel is hit through a slot with events
  have hmem : ∀ c, c ∈ (p.report revents).hits (p.report revents).pollfds ↔
      ∃ x ∈ (p.report revents).pollfds, x.revents ≠ 0 ∧ p.channels x.fd = some c := by
    intro c
    simp only [hits, List.mem_filterMap]
    refine exists_congr fun x => and_congr_right fun _ => ?_
    split_ifs with hx0
    · exact iff_of_false (by simp) fun h => h.1 hx0
    · exact (and_iff_right hx0).symm
  refine ⟨p', _, hok, hnodup, fun c => ?_, fun c hc => ?_⟩
  · rw [hmem]
    constructor
    · rintro ⟨x, hx, hx0, hc⟩
      obtain ⟨-, d, hd, hr⟩ := h.hit hfill hx hx0
      obtain rfl := Option.some.inj (hc.symm.trans hd)
      exact ⟨⟨_, hc⟩, by rw [← hr]; exact hx0⟩
    · rintro ⟨hc, hr⟩
      exact h.exists_hit hfill hc hr
  · obtain ⟨x, hx, hx0, hc⟩ := (hmem c).mp hc
    obtain ⟨-, d, hd, hr⟩ := h.hit hfill hx hx0
    obtain rfl := Option.some.inj (hc.symm.trans hd)
    rw [hrev x hx hx0 c hc, hr]

/-- **The slot table of `Poller` is a bijection**: in every state that calls on channels
with any descriptors and polls can reach, `channels_` has as many entries as `pollfds_`, the
index of a registered channel is a slot of its own, and that slot holds the channel's
descriptor, as it is or negated, and its mask.  So `fillActiveChannels` appends exactly the
registered channels with reported events, each once and with what was reported for it. -/
theorem slot_table_bijective (fd : C → ℕ) {p : Poller C}
    (hp : Reach (fun p l => (p.next l).toOption) (fun _ _ => True) (new fd) p) :
    {k | p.channels k ≠ none}.encard = p.pollfds.length ∧
    (∀ c, p.inChannels c → ∃ i : ℕ, (p.chan c).index = i ∧ ∃ pfd, p.pollfds[i]? = some pfd ∧
      (pfd.fd = (p.chan c).fd ∨ pfd.fd = -(p.chan c).fd - 1) ∧
      Mask.ofShort pfd.events = (p.chan c).events) ∧
    (∀ c d, p.inChannels c → p.inChannels d → (p.chan c).index = (p.chan d).index → c = d) ∧
    ∀ revents, p.fillable revents → ∀ activeChannels, ∃ p' added,
      (p.report revents).fillActiveChannels (p.report revents).numEvents activeChannels =
        .ok (p', activeChannels ++ added) ∧
      added.Nodup ∧
      (∀ c, c ∈ added ↔ p.inChannels c ∧ revents (p.chan c).index.toNat ≠ 0) ∧
      ∀ c ∈ added, (p'.chan c).revents = Mask.ofShort (revents (p.chan c).index.toNat) := by
  have h : p.Slots := by
    refine Reach.invariant (I := Slots) ?_ hp (new_slots fd)
    intro p l p' h _ hstep
    exact h.next (toOption_eq_some.mp hstep)
  refine ⟨?_, fun c hc => ?_, fun c d hc hd hidx => ?_, fun revents hfill => ?_⟩
  · have hcard := h.table.encard_eq
    rw [List.length_map] at hcard
    rw [← hcard]
    congr 1
    ext k
    simp [slotOf]
  · obtain ⟨fd, hfd⟩ := hc
    have hpos := (h.found fd c hfd).2
    exact ⟨(p.chan c).index.toNat, by omega, h.slot_spec ⟨fd, hfd⟩⟩
  · obtain ⟨f, hc⟩ := hc
    obtain ⟨g, hd⟩ := hd
    by_contra hcd
    exact h.index_ne hc hd hcd (by rw [hidx])
  · exact h.fillActiveChannels hfill

/-- Of three channels the last one is disabled, and then the first one is disabled and
removed: the negated slot moves to the front. -/
theorem slot_table_bijective_moved : ∃ p : Poller (Fin 3),
    Reach (fun p l => (p.next l).toOption) (fun _ _ => True) (new fun c : Fin 3 => (c : ℕ) + 4) p ∧
    ((p.chan 2).index = 0 ∧ (p.chan 1).index = 1 ∧ p.pollfds.map PollFd.fd = [-7, 5]) ∧
    {k | p.channels k ≠ none}.encard = p.pollfds.length := by
  obtain ⟨p, hexec, hslots⟩ : ∃ p : Poller (Fin 3),
      exec (fun p l => (p.next l).toOption) (fun _ _ => True) (new fun c : Fin 3 => (c : ℕ) + 4)
        [.call 0 .enableReading, .call 1 .enableReading, .call 2 .enableReading,
          .call 2 .disableAll, .call 0 .disableAll, .call 0 .removeChannel] = some p ∧
      (p.chan 2).index = 0 ∧ (p.chan 1).index = 1 ∧ p.pollfds.map PollFd.fd = [-7, 5] :=
    ⟨_, rfl, rfl, rfl, rfl⟩
  have hp := (Reach.refl (new fun c : Fin 3 => (c : ℕ) + 4)).of_exec hexec
  exact ⟨p, hp, hslots, (slot_table_bijective _ hp).1⟩

end Report

/-! ### Which channels are polled -/

/-- The entries of `pollfds_` that `poll(2)` looks at. -/
def polled (p : Poller C) : Set (ℤ × Mask) :=
  {x | ∃ pfd ∈ p.pollfds, 0 ≤ pfd.fd ∧ x = (pfd.fd, Mask.ofShort pfd.events)}

/-- The registered channels that want events, with these events. -/
def interested (p : Poller C) : Set (ℤ × Mask) :=
  {x | ∃ c, p.inChannels c ∧ (p.chan c).isNoneEvent = false ∧
    x = (((p.chan c).fd : ℤ), (p.chan c).events)}

/-- The slot of the channel is not negated. -/
def polls (p : Poller C) (c : C) : Prop := ∃ pfd, p.slotAt c = some pfd ∧ 0 ≤ pfd.fd

/-- Every registered channel is polled exactly if it wants events. -/
def Exact (p : Poller C) : Prop :=
  ∀ c, p.inChannels c → (p.polls c ↔ (p.chan c).events ≠ Channel.kNoneEvent)

/-- The channel whose events become `m` is not registered without events, and it is not
given events if it was registered and had none. -/
def keepsPolled (p : Poller C) (c : C) (m : Mask) : Prop :=
  if (p.chan c).index < 0 then m ≠ Channel.kNoneEvent
  else (p.chan c).events = Channel.kNoneEvent → m = Channel.kNoneEvent

instance (p : Poller C) (c : C) (m : Mask) : Decidable (p.keepsPolled c m) :=
  inferInstanceAs (Decidable (ite _ _ _))

/-- The same for a step. -/
def staysPolled (p : Poller C) : Label C → Prop
  | .call _ .removeChannel => True
  | .call c f => p.keepsPolled c (f.events (p.chan c).events)
  | .update c => p.keepsPolled c (p.chan c).events
  | .poll _ => True

instance (p : Poller C) : (l : Label C) → Decidable (p.staysPolled l)
  | .call _ .removeChannel => isTrue trivial
  | .call c .enableReading | .call c .enableWriting | .call c .disableWriting
  | .call c .disableAll => inferInstanceAs (Decidable (p.keepsPolled c _))
  | .update c => inferInstanceAs (Decidable (p.keepsPolled c _))
  | .poll _ => isTrue trivial

section Exact

variable {p p' : Poller C} {c : C} {m : Mask}

lemma Slots.mem_polled_iff (h : p.Slots) {x : ℤ × Mask} : x ∈ p.polled ↔
    ∃ c, p.inChannels c ∧ p.polls c ∧ x = (((p.chan c).fd : ℤ), (p.chan c).events) := by
  constructor
  · rintro ⟨pfd, hmem, hfd, rfl⟩
    obtain ⟨i, hi⟩ := List.mem_iff_getElem?.mp hmem
    have hown : (p.pollfds.map PollFd.owner)[i]? = some pfd.fd := by
      simp [hi, PollFd.owner, not_lt.mpr hfd]
    obtain ⟨c, hc, rfl⟩ := Option.map_eq_some_iff.mp ((h.table _ _).mpr hown)
    obtain ⟨pfd', hpfd', -, hev⟩ := h.slot_spec ⟨_, hc⟩
    obtain rfl := Option.some.inj (hi.symm.trans hpfd')
    exact ⟨c, ⟨_, hc⟩, ⟨pfd, hi, hfd⟩, by rw [hev, (h.found _ c hc).1]⟩
  · rintro ⟨c, hc, ⟨pfd, hpfd, hfd⟩, rfl⟩
    obtain ⟨pfd', hpfd', hown, hev⟩ := h.slot_spec hc
    obtain rfl := Option.some.inj (hpfd.symm.trans hpfd')
    refine ⟨pfd, List.mem_of_getElem? hpfd, hfd, ?_⟩
    rw [hev]
    congr 1
    omega

lemma Slots.polled_eq_iff (h : p.Slots) : p.polled = p.interested ↔ p.Exact := by
  -- registered channels with the same descriptor are the same
  have hinj : ∀ c d, p.inChannels c → p.inChannels d →
      ((p.chan c).fd : ℤ) = (p.chan d).fd → c = d := by
    rintro c d ⟨f, hc⟩ ⟨g, hd⟩ hfd
    rw [(h.found f c hc).1, (h.found g d hd).1] at hfd
    rw [hfd, hd] at hc
    exact (Option.some.inj hc).symm
  have hnone : ∀ c, (p.chan c).isNoneEvent = false ↔ (p.chan c).events ≠ Channel.kNoneEvent := by
    intro c
    simp [PollChannel.isNoneEvent]
  constructor
  · intro heq c hc
    rw [← hnone]
    constructor
    · intro hpolls
      have hmem : (((p.chan c).fd : ℤ), (p.chan c).events) ∈ p.interested := by
        rw [← heq, h.mem_polled_iff]
        exact ⟨c, hc, hpolls, rfl⟩
      obtain ⟨d, hd, hev, hx⟩ := hmem
      obtain rfl := hinj c d hc hd (Prod.mk.inj hx).1
      exact hev
    · intro hev
      have hmem : (((p.chan c).fd : ℤ), (p.chan c).events) ∈ p.polled := by
        rw [heq]
        exact ⟨c, hc, hev, rfl⟩
      obtain ⟨d, hd, hpolls, hx⟩ := h.mem_polled_iff.mp hmem
      obtain rfl := hinj c d hc hd (Prod.mk.inj hx).1
      exact hpolls
  · intro hexact
    ext x
    rw [h.mem_polled_iff]
    refine exists_congr fun c => and_congr_right fun hc => and_congr_left fun _ => ?_
    rw [hexact c hc, hnone]

/-- What a step leaves as it is stays exact, so that only the channel `c` matters. -/
lemma Exact.iff_of_keeps (hexact : p.Exact) (hkeep : p.KeepsOthers p' c) (hc : p'.inChannels c) :
    p'.Exact ↔ (p'.polls c ↔ (p'.chan c).events ≠ Channel.kNoneEvent) := by
  refine ⟨fun h => h c hc, fun h d ⟨fd, hd⟩ => ?_⟩
  by_cases hdc : d = c
  · subst hdc
    exact h
  · obtain ⟨hd', hslot, hev⟩ := hkeep fd d hdc hd
    rw [polls, hslot, hev]
    exact hexact d ⟨fd, hd'⟩

lemma polls_iff {pfd : PollFd} (hpfd : p.slotAt c = some pfd) : p.polls c ↔ 0 ≤ pfd.fd := by
  simp [polls, hpfd]

variable [DecidableEq C]

/-- An update of the channel's mask keeps the polled slots exact or not. -/
lemma Slots.exact_update (h : p.Slots) (hexact : p.Exact)
    (hok : (p.setEvents c m).updateChannel c = .ok p') : p'.Exact ↔ p.keepsPolled c m := by
  obtain ⟨hneg, -, rfl⟩ | ⟨hpos, hsome, pfd, hpfd, -, rfl⟩ := updateChannel_ok hok
  · have hin : (p.pushed c m).inChannels c := ⟨(p.chan c).fd, by simp [Poller.pushed]⟩
    have hpolls : (p.pushed c m).polls c := ⟨_, slotAt_pushed p c m, Int.natCast_nonneg _⟩
    rw [hexact.iff_of_keeps (h.keeps_pushed c m) hin, events_pushed, keepsPolled, if_pos hneg]
    exact iff_true_left hpolls
  · -- a negated slot stays negated, any other one is negated with an empty mask
    have hpolls := hexact c ⟨_, hsome⟩
    rw [polls_iff hpfd] at hpolls
    have hcond : p.keepsPolled c m ↔
        ((p.chan c).events = Channel.kNoneEvent → m = Channel.kNoneEvent) := by
      rw [keepsPolled, if_neg (by omega)]
    rw [hexact.iff_of_keeps (h.keeps_masked hsome m _) ⟨_, hsome⟩,
      polls_iff (h.slotAt_masked hsome m _), events_masked, hcond]
    by_cases hm : m = Channel.kNoneEvent
    · refine iff_of_true (iff_of_false ?_ fun hne => hne hm) fun _ => hm
      simp only [hm, if_true]
      omega
    · simp only [hm, if_false, ne_eq, not_false_eq_true, iff_true, imp_false]
      exact hpolls

lemma Slots.exact_remove (h : p.Slots) (hexact : p.Exact) (hok : p.removeChannel c = .ok p') :
    p'.Exact := by
  have hall : p.KeepsOthers p' c ∧ ∀ fd d, p'.channels fd = some d → d ≠ c := by
    obtain ⟨hsome, -, -, ⟨hlast, rfl⟩ | ⟨hlast, back, d, hback, hd, rfl⟩⟩ := removeChannel_ok hok
    · refine ⟨h.keeps_popped hsome hlast, fun fd d hd => ?_⟩
      exact h.ne_of_fd (update_none_eq_some.mp hd).1 (update_none_eq_some.mp hd).2
    · refine ⟨h.keeps_swapped hsome hlast hback hd, fun fd e he => ?_⟩
      exact h.ne_of_fd (update_none_eq_some.mp he).1 (update_none_eq_some.mp he).2
  rintro d ⟨fd, hd⟩
  obtain ⟨hd', hslot, hev⟩ := hall.1 fd d (hall.2 fd d hd) hd
  rw [polls, hslot, hev]
  exact hexact d ⟨fd, hd'⟩

lemma Exact.poll (hexact : p.Exact) {revents : ℕ → Short}
    (hok : (p.poll revents).map Prod.fst = .ok p') : p'.Exact := by
  obtain ⟨l, hrep⟩ := poll_reports hok
  rintro d ⟨fd, hd⟩
  rw [hrep.channels] at hd
  have hpolls := hexact d ⟨fd, hd⟩
  have hidx : (p'.chan d).index = (p.chan d).index := by
    rw [hrep.chan d]
    rfl
  have hev : (p'.chan d).events = (p.chan d).events := by
    rw [hrep.chan d]
    rfl
  have hslot : p'.slotAt d = (p.slotAt d).map fun pfd =>
      { pfd with revents := revents (p.chan d).index.toNat } := by
    rw [slotAt, hidx, hrep.pollfds, getElem?_report]
    rfl
  rw [hev, ← hpolls, polls, polls, hslot]
  cases p.slotAt d with
  | none => simp
  | some pfd => simp

/-- One step. -/
lemma Slots.exact_next (h : p.Slots) (hexact : p.Exact) {l : Label C} (hok : p.next l = .ok p') :
    p'.Exact ↔ p.staysPolled l := by
  cases l with
  | update c =>
      refine h.exact_update hexact ?_
      rw [setEvents_self]
      exact hok
  | poll revents => exact iff_of_true (hexact.poll hok) trivial
  | call c f =>
      cases f with
      | removeChannel => exact iff_of_true (h.exact_remove hexact hok) trivial
      | _ => exact h.exact_update hexact hok

/-- **`Poller` polls exactly the interested channels**, after every call of a run, exactly
if no call of the run registers a channel without events and none gives events to a
registered channel that has none: `updateChannel` registers every channel to be polled, and
leaves a slot it has negated as it is. -/
theorem polls_interested (fd : C → ℕ) (l : List (Label C)) (hpass : Passes next (new fd) l) :
    Along next (fun p a => ∀ p', p.next a = .ok p' → p'.polled = p'.interested) (new fd) l ↔
      Along next staysPolled (new fd) l := by
  refine along_iff (I := fun p => p.Slots ∧ p.Exact) ?_ hpass ⟨new_slots fd, ?_⟩
  · rintro p a p' ⟨h, hexact⟩ hok
    have hiff := h.exact_next hexact hok
    refine ⟨?_, fun hstays => ⟨h.next hok, hiff.mpr hstays⟩⟩
    rw [← hiff, ← (h.next hok).polled_eq_iff]
    refine ⟨fun hall => hall p' hok, fun heq p'' hok' => ?_⟩
    obtain rfl := Except.ok.inj (hok.symm.trans hok')
    exact heq
  · rintro c ⟨fd, hc⟩
    simp [new] at hc

/-- A channel that is read, writes for a while and is disabled before it is removed. -/
theorem polls_interested_orderly :
    Along next (fun p a => ∀ p', p.next a = .ok p' → p'.polled = p'.interested)
      (new fun _ : Unit => 5)
      [.call () .enableReading, .call () .enableWriting, .call () .disableWriting,
        .call () .disableAll, .call () .removeChannel] := by
  exact (polls_interested _ _ (by decide)).mpr (by decide)

/-- A channel that is disabled and enabled again is not polled any more. -/
theorem enabled_again_not_polled :
    Passes next (new fun _ : Unit => 5)
      [.call () .enableReading, .call () .disableAll, .call () .enableReading] ∧
    ¬ Along next (fun p a => ∀ p', p.next a = .ok p' → p'.polled = p'.interested)
      (new fun _ : Unit => 5)
      [.call () .enableReading, .call () .disableAll, .call () .enableReading] := by
  refine ⟨by decide, fun h => ?_⟩
  obtain ⟨p, p', hrun, hok, hslots, hin, hev⟩ : ∃ p p' : Poller Unit,
      [Label.call () .enableReading, .call () .disableAll].foldlM next (new fun _ => 5) = .ok p ∧
      p.next (.call () .enableReading) = .ok p' ∧ p'.pollfds.map PollFd.fd = [-6] ∧
      p'.channels 5 = some () ∧ (p'.chan ()).isNoneEvent = false :=
    ⟨_, _, rfl, rfl, rfl, rfl, rfl⟩
  have heq : p'.polled = p'.interested := Along.of_foldlM (l := [_, _]) h hrun p' hok
  -- the channel wants events, and the only slot is negated
  have hmem : (((p'.chan ()).fd : ℤ), (p'.chan ()).events) ∈ p'.polled := by
    rw [heq]
    exact ⟨(), ⟨5, hin⟩, hev, rfl⟩
  obtain ⟨pfd, hpfd, hfd, -⟩ := hmem
  have hneg : pfd.fd ∈ p'.pollfds.map PollFd.fd := List.mem_map_of_mem hpfd
  rw [hslots, List.mem_singleton] at hneg
  omega

end Exact

end Poller

end Tractor
