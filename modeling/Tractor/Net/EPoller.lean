import Tractor.Library.Control

/-!
`Channel` and `EPoller`: `include/tractor/Channel.h`, `src/Channel.cpp` and
`src/EPoller.cpp`.

Channels are named by the elements of any type `C`; the poller carries the channel
objects beside its own map from descriptors to channels and the kernel's epoll set.
`epoll_ctl` behaves as documented and its failures change nothing, as the code ignores
them.

* `updateChannel`, `removeChannel`, `fillActiveChannels`: with their assertions.
* `Valid`: the map and the channels' indices agree, and the epoll set holds channels
  with index `kAdded` only.
* `changeEvents_ok`, `removeChannel_ok`: what an operation that passed its assertions
  has done, with `Valid` kept; `changeEvents_exists`, `removeChannel_exists`,
  `fillActiveChannels_ok`: when the assertions hold.
-/

namespace Tractor

open Library

/-! ### Event masks -/

/-- The `int` of an event mask. -/
abbrev Mask := BitVec 32

def POLLIN : Mask := 0x1
def POLLPRI : Mask := 0x2
def POLLOUT : Mask := 0x4
def POLLERR : Mask := 0x8
def POLLHUP : Mask := 0x10
def POLLNVAL : Mask := 0x20
def POLLRDHUP : Mask := 0x2000

/-- `mask & bits`, as a condition. -/
def Mask.has (mask bits : Mask) : Bool := mask &&& bits ≠ 0

lemma Mask.has_or_self (mask : Mask) {bits : Mask} (h : bits ≠ 0) :
    Mask.has (mask ||| bits) bits = true := by
  have heq : (mask ||| bits) &&& bits = bits := by
    ext i
    simp only [BitVec.getElem_and, BitVec.getElem_or]
    grind
  simpa [Mask.has, heq] using h

lemma Mask.has_and_not_self (mask bits : Mask) : Mask.has (mask &&& ~~~bits) bits = false := by
  have heq : (mask &&& ~~~bits) &&& bits = 0 := by
    ext i
    simp
  simp [Mask.has, heq]

/-! ### Channels -/

/-- The values `EPoller` gives `Channel::index_`. -/
inductive ChannelIndex where
  | kNew
  | kAdded
  | kDeleted
  deriving DecidableEq, Repr

/-- `class Channel`, its callbacks aside. -/
structure Channel where
  fd : ℕ
  events : Mask
  revents : Mask
  index : ChannelIndex

namespace Channel

def new (fd : ℕ) : Channel := ⟨fd, 0, 0, .kNew⟩

def kNoneEvent : Mask := 0
def kReadEvent : Mask := POLLIN ||| POLLPRI
def kWriteEvent : Mask := POLLOUT

def isNoneEvent (ch : Channel) : Bool := ch.events = kNoneEvent

def isWriting (ch : Channel) : Bool := Mask.has ch.events kWriteEvent

end Channel

/-! ### The poller -/

/-- The assertions of `EPoller`. -/
inductive PollFault where
  | updateNew
  | updateFound
  | updateSame
  | removeFound
  | removeSame
  | removeNone
  | removeIndex
  | fillCount
  | fillFound
  | fillSame
  deriving DecidableEq, Repr

inductive EpollCtl where
  | add
  | mod
  | del
  deriving DecidableEq

/-- `class EPoller` with the channel objects it points to and the kernel's epoll set,
which holds a mask and a data pointer for each descriptor in it; and, for the record, the
operations that `update` has handed to `epoll_ctl`, each with its descriptor. -/
structure EPoller (C : Type) where
  chan : C → Channel
  channels : ℕ → Option C
  epoll : ℕ → Option (Mask × C)
  eventListSize : ℕ
  ctls : List (EpollCtl × ℕ)

namespace EPoller

variable {C : Type} [DecidableEq C]

/-- `update(operation, channel)`: `epoll_ctl` on the channel's descriptor. -/
def update (p : EPoller C) (operation : EpollCtl) (c : C) : EPoller C :=
  let fd := (p.chan c).fd
  let event := ((p.chan c).events, c)
  let p := { p with ctls := p.ctls ++ [(operation, fd)] }
  match operation with
  | .add =>
      if p.epoll fd = none then { p with epoll := Function.update p.epoll fd (some event) } else p
  | .mod =>
      if p.epoll fd = none then p else { p with epoll := Function.update p.epoll fd (some event) }
  | .del => { p with epoll := Function.update p.epoll fd none }

def setIndex (p : EPoller C) (c : C) (i : ChannelIndex) : EPoller C :=
  { p with chan := Function.update p.chan c { p.chan c with index := i } }

def setEvents (p : EPoller C) (c : C) (e : Mask) : EPoller C :=
  { p with chan := Function.update p.chan c { p.chan c with events := e } }

def setRevents (p : EPoller C) (c : C) (e : Mask) : EPoller C :=
  { p with chan := Function.update p.chan c { p.chan c with revents := e } }

/-- `updateChannel(channel)`. -/
def updateChannel (p : EPoller C) (c : C) : Except PollFault (EPoller C) :=
  let fd := (p.chan c).fd
  match (p.chan c).index with
  | .kNew => do
      check (p.channels fd = none) .updateNew
      let p := { p with channels := Function.update p.channels fd (some c) }
      pure ((p.setIndex c .kAdded).update .add c)
  | .kDeleted => do
      check (p.channels fd ≠ none) .updateFound
      check (p.channels fd = some c) .updateSame
      pure ((p.setIndex c .kAdded).update .add c)
  | .kAdded => do
      check (p.channels fd ≠ none) .updateFound
      check (p.channels fd = some c) .updateSame
      if (p.chan c).isNoneEvent then pure ((p.update .del c).setIndex c .kDeleted)
      else pure (p.update .mod c)

/-- `removeChannel(channel)`.  The descriptor was found, so `erase` returns 1. -/
def removeChannel (p : EPoller C) (c : C) : Except PollFault (EPoller C) := do
  let fd := (p.chan c).fd
  check (p.channels fd ≠ none) .removeFound
  check (p.channels fd = some c) .removeSame
  check ((p.chan c).isNoneEvent = true) .removeNone
  let index := (p.chan c).index
  check (index = .kAdded ∨ index = .kDeleted) .removeIndex
  let p := { p with channels := Function.update p.channels fd none }
  let p := if index = .kAdded then p.update .del c else p
  pure (p.setIndex c .kNew)

/-- `fillActiveChannels`: the loop over the events, each a data pointer with the mask it
is reported with. -/
def fillChannels (p : EPoller C) : List (C × Mask) → Except PollFault (EPoller C)
  | [] => pure p
  | (c, mask) :: events => do
      let fd := (p.chan c).fd
      check (p.channels fd ≠ none) .fillFound
      check (p.channels fd = some c) .fillSame
      (p.setRevents c mask).fillChannels events

/-- `fillActiveChannels(numEvents, activeChannels)`, and the growth of the event list in
`poll`. -/
def fillActiveChannels (p : EPoller C) (events : List (C × Mask)) :
    Except PollFault (EPoller C) := do
  check (events.length ≤ p.eventListSize) .fillCount
  let p ← p.fillChannels events
  if events.length = p.eventListSize then pure { p with eventListSize := p.eventListSize * 2 }
  else pure p

/-- A member function of `Channel` that changes its events and calls `update()`. -/
def changeEvents (p : EPoller C) (c : C) (f : Mask → Mask) : Except PollFault (EPoller C) :=
  (p.setEvents c (f (p.chan c).events)).updateChannel c

def enableReading (p : EPoller C) (c : C) : Except PollFault (EPoller C) :=
  p.changeEvents c (· ||| Channel.kReadEvent)

def enableWriting (p : EPoller C) (c : C) : Except PollFault (EPoller C) :=
  p.changeEvents c (· ||| Channel.kWriteEvent)

def disableWriting (p : EPoller C) (c : C) : Except PollFault (EPoller C) :=
  p.changeEvents c (· &&& ~~~Channel.kWriteEvent)

def disableAll (p : EPoller C) (c : C) : Except PollFault (EPoller C) :=
  p.changeEvents c fun _ => Channel.kNoneEvent

/-! ### The invariant -/

/-- The map holds exactly the channels whose index says so, each under its descriptor, and
the epoll set holds channels with index `kAdded` only, likewise. -/
structure Valid (p : EPoller C) : Prop where
  found : ∀ fd c, p.channels fd = some c → (p.chan c).fd = fd ∧ (p.chan c).index ≠ .kNew
  registered : ∀ c, (p.chan c).index ≠ .kNew → p.channels (p.chan c).fd = some c
  watched : ∀ fd m c, p.epoll fd = some (m, c) → (p.chan c).fd = fd ∧ (p.chan c).index = .kAdded

/-- An operation on the channel `c`: no other channel and no other descriptor changed, and
the epoll set has got at most this channel. -/
structure Touches (p p' : EPoller C) (c : C) : Prop where
  chan : ∀ d, d ≠ c → p'.chan d = p.chan d
  fd : (p'.chan c).fd = (p.chan c).fd
  revents : (p'.chan c).revents = (p.chan c).revents
  channels : ∀ fd, fd ≠ (p.chan c).fd → p'.channels fd = p.channels fd
  epoll : ∀ fd m d, p'.epoll fd = some (m, d) → d = c ∨ p.epoll fd = some (m, d)
  eventListSize : p'.eventListSize = p.eventListSize

omit [DecidableEq C] in
/-- Distinct registered channels have distinct descriptors. -/
lemma Valid.eq_of_fd {p : EPoller C} (h : p.Valid) {c d : C} (hc : (p.chan c).index ≠ .kNew)
    (hd : (p.chan d).index ≠ .kNew) (hfd : (p.chan c).fd = (p.chan d).fd) : c = d := by
  have hc' := h.registered c hc
  rw [hfd, h.registered d hd] at hc'
  exact (Option.some.inj hc').symm

omit [DecidableEq C] in
/-- Only a channel with index `kAdded` is watched under the descriptor of a registered
channel, and it is that channel. -/
lemma Valid.epoll_eq_none {p : EPoller C} {c : C} (h : p.Valid) (hreg : (p.chan c).index ≠ .kAdded)
    (hfree : p.channels (p.chan c).fd = none ∨ p.channels (p.chan c).fd = some c) :
    p.epoll (p.chan c).fd = none := by
  cases hp : p.epoll (p.chan c).fd with
  | none => rfl
  | some x =>
      obtain ⟨hfd, hidx⟩ := h.watched _ x.1 x.2 hp
      have hx := h.registered x.2 (by rw [hidx]; simp)
      rw [hfd] at hx
      rcases hfree with hnone | hsome
      · exact absurd (hx.symm.trans hnone) (by simp)
      · obtain rfl := Option.some.inj (hx.symm.trans hsome)
        exact absurd hidx hreg

omit [DecidableEq C] in
/-- `epoll_ctl` is called for one descriptor. -/
lemma update_epoll_of_ne {p : EPoller C} {c : C} (operation : EpollCtl) {fd : ℕ}
    (hf : fd ≠ (p.chan c).fd) : (p.update operation c).epoll fd = p.epoll fd := by
  cases operation <;> simp only [update]
  · split_ifs <;> simp [hf]
  · split_ifs <;> simp [hf]
  · simp [hf]

/-- The poller with channel `c` registered under index `i`, behind an operation on its descriptor
that left the epoll set `e`. -/
def place (p : EPoller C) (c : C) (i : ChannelIndex) (op : EpollCtl)
    (e : ℕ → Option (Mask × C)) : EPoller C :=
  { p.setIndex c i with
    channels := Function.update p.channels (p.chan c).fd (some c)
    epoll := e
    ctls := p.ctls ++ [(op, (p.chan c).fd)] }

section Place

variable {p p' : EPoller C} {c : C} {i : ChannelIndex} {op : EpollCtl}
  {e : ℕ → Option (Mask × C)}

lemma Valid.place (h : p.Valid) (hi : i ≠ .kNew)
    (hfree : p.channels (p.chan c).fd = none ∨ p.channels (p.chan c).fd = some c)
    (hother : ∀ fd, fd ≠ (p.chan c).fd → e fd = p.epoll fd)
    (hfd : ∀ m d, e (p.chan c).fd = some (m, d) → d = c ∧ i = .kAdded) :
    (p.place c i op e).Valid := by
  simp only [EPoller.place, setIndex]
  constructor
  · intro fd d hd
    by_cases hf : fd = (p.chan c).fd
    · subst hf
      obtain rfl : c = d := by simpa using hd
      simpa using hi
    · have hd' : p.channels fd = some d := by simpa [hf] using hd
      have hdc : d ≠ c := by
        rintro rfl
        exact hf (h.found _ _ hd').1.symm
      simpa [hdc] using h.found _ _ hd'
  · intro d hd
    by_cases hdc : d = c
    · subst hdc
      simp
    · have hreg := h.registered d (by simpa [hdc] using hd)
      by_cases hf : (p.chan d).fd = (p.chan c).fd
      · -- the descriptor is free or taken by `c` itself
        rw [hf] at hreg
        rcases hfree with hnone | hsome
        · exact absurd (hreg.symm.trans hnone) (by simp)
        · exact absurd (Option.some.inj (hreg.symm.trans hsome)) hdc
      · simpa [hdc, hf] using hreg
  · intro fd m d hd
    by_cases hf : fd = (p.chan c).fd
    · subst hf
      obtain ⟨rfl, rfl⟩ := hfd m d hd
      simp
    · have hw := h.watched fd m d (by rw [← hother fd hf]; exact hd)
      have hdc : d ≠ c := by
        rintro rfl
        exact hf hw.1.symm
      simpa [hdc] using hw

lemma touches_place
    (hother : ∀ fd, fd ≠ (p.chan c).fd → e fd = p.epoll fd)
    (hfd : ∀ m d, e (p.chan c).fd = some (m, d) → d = c ∧ i = .kAdded) :
    p.Touches (p.place c i op e) c where
  chan d hd := by simp [EPoller.place, setIndex, hd]
  fd := by simp [EPoller.place, setIndex]
  revents := by simp [EPoller.place, setIndex]
  channels fd hf := by simp [EPoller.place, setIndex, hf]
  epoll fd m d hd := by
    by_cases hf : fd = (p.chan c).fd
    · subst hf
      exact Or.inl (hfd m d hd).1
    · exact Or.inr (by rw [← hother fd hf]; exact hd)
  eventListSize := rfl

/-- The call of `epoll_ctl` that `updateChannel` makes, and the index it leaves, by the index
it finds. -/
lemma updateChannel_cases (hok : p.updateChannel c = .ok p') :
    ∃ op i, p' = p.place c i op (p.update op c).epoll ∧
      (((p.chan c).index = .kNew ∧ p.channels (p.chan c).fd = none ∧ op = .add ∧ i = .kAdded) ∨
        ((p.chan c).index = .kDeleted ∧ p.channels (p.chan c).fd = some c ∧ op = .add ∧
          i = .kAdded) ∨
        ((p.chan c).index = .kAdded ∧ p.channels (p.chan c).fd = some c ∧
          (p.chan c).isNoneEvent = true ∧ op = .del ∧ i = .kDeleted) ∨
        ((p.chan c).index = .kAdded ∧ p.channels (p.chan c).fd = some c ∧
          (p.chan c).isNoneEvent = false ∧ op = .mod ∧ i = .kAdded)) := by
  cases hidx : (p.chan c).index with
  | kNew =>
      simp only [updateChannel, hidx] at hok
      obtain ⟨hnone, hok⟩ := check_bind_eq_ok.mp hok
      obtain rfl := Except.ok.inj hok
      refine ⟨.add, .kAdded, ?_, Or.inl ⟨rfl, hnone, rfl, rfl⟩⟩
      by_cases habs : p.epoll (p.chan c).fd = none <;> simp [place, setIndex, update, habs]
  | kDeleted =>
      simp only [updateChannel, hidx] at hok
      obtain ⟨-, hok⟩ := check_bind_eq_ok.mp hok
      obtain ⟨hsome, hok⟩ := check_bind_eq_ok.mp hok
      obtain rfl := Except.ok.inj hok
      refine ⟨.add, .kAdded, ?_, Or.inr (Or.inl ⟨rfl, hsome, rfl, rfl⟩)⟩
      by_cases habs : p.epoll (p.chan c).fd = none <;>
        simp [place, setIndex, update, habs, ← hsome]
  | kAdded =>
      simp only [updateChannel, hidx] at hok
      obtain ⟨-, hok⟩ := check_bind_eq_ok.mp hok
      obtain ⟨hsome, hok⟩ := check_bind_eq_ok.mp hok
      have hchannels : Function.update p.channels (p.chan c).fd (some c) = p.channels := by
        rw [← hsome, Function.update_eq_self]
      by_cases hev : (p.chan c).isNoneEvent = true
      · rw [if_pos hev] at hok
        obtain rfl := Except.ok.inj hok
        refine ⟨.del, .kDeleted, ?_, Or.inr (Or.inr (Or.inl ⟨rfl, hsome, hev, rfl, rfl⟩))⟩
        simp [place, setIndex, update, hchannels]
      · rw [if_neg hev] at hok
        obtain rfl := Except.ok.inj hok
        have hchan : Function.update p.chan c { p.chan c with index := .kAdded } = p.chan := by
          rw [← hidx, Function.update_eq_self]
        refine ⟨.mod, .kAdded, ?_,
          Or.inr (Or.inr (Or.inr ⟨rfl, hsome, by simpa using hev, rfl, rfl⟩))⟩
        by_cases habs : p.epoll (p.chan c).fd = none <;>
          simp [place, setIndex, update, hchannels, hchan, habs]

/-- What `updateChannel` does: it places the channel, under its assertions. -/
lemma updateChannel_eq_place (h : p.Valid) (hok : p.updateChannel c = .ok p') :
    ∃ i op e, p' = p.place c i op e ∧ i ≠ .kNew ∧
      (p.channels (p.chan c).fd = none ∨ p.channels (p.chan c).fd = some c) ∧
      (∀ fd, fd ≠ (p.chan c).fd → e fd = p.epoll fd) ∧
      ∀ m d, e (p.chan c).fd = some (m, d) → d = c ∧ i = .kAdded := by
  obtain ⟨op, i, rfl, hcase⟩ := updateChannel_cases hok
  refine ⟨i, op, _, rfl, ?_, ?_, fun fd hf => update_epoll_of_ne op hf, fun m d hd => ?_⟩
  · rcases hcase with ⟨-, -, -, rfl⟩ | ⟨-, -, -, rfl⟩ | ⟨-, -, -, -, rfl⟩ | ⟨-, -, -, -, rfl⟩ <;>
      simp
  · rcases hcase with ⟨-, hfree, -⟩ | ⟨-, hfree, -⟩ | ⟨-, hfree, -⟩ | ⟨-, hfree, -⟩
    · exact Or.inl hfree
    all_goals exact Or.inr hfree
  · rcases hcase with ⟨hidx, hfree, rfl, rfl⟩ | ⟨hidx, hfree, rfl, rfl⟩ | ⟨-, -, -, rfl, rfl⟩ |
      ⟨-, -, -, rfl, rfl⟩
    · have habs := h.epoll_eq_none (by rw [hidx]; simp) (Or.inl hfree)
      simp only [update, habs, if_true, Function.update_self, Option.some.injEq,
        Prod.mk.injEq] at hd
      exact ⟨hd.2.symm, rfl⟩
    · have habs := h.epoll_eq_none (by rw [hidx]; simp) (Or.inr hfree)
      simp only [update, habs, if_true, Function.update_self, Option.some.injEq,
        Prod.mk.injEq] at hd
      exact ⟨hd.2.symm, rfl⟩
    · simp [update] at hd
    · simp only [update] at hd
      split_ifs at hd with habs
      · exact absurd (hd.symm.trans habs) (by simp)
      · simp only [Function.update_self, Option.some.injEq, Prod.mk.injEq] at hd
        exact ⟨hd.2.symm, rfl⟩

/-- **A call of `updateChannel` that passed its assertions.** -/
lemma updateChannel_ok (h : p.Valid) (hok : p.updateChannel c = .ok p') :
    p'.Valid ∧ p.Touches p' c ∧ (p'.chan c).index ≠ .kNew ∧
      (p'.chan c).events = (p.chan c).events := by
  obtain ⟨i, op, e, rfl, hi, hfree, hother, hfd⟩ := updateChannel_eq_place h hok
  exact ⟨h.place hi hfree hother hfd, touches_place hother hfd,
    by simpa [place, setIndex] using hi, by simp [place, setIndex]⟩

/-- The assertions of `updateChannel` hold for a channel that is registered, and for a new
one whose descriptor is not in the map. -/
lemma updateChannel_exists (h : p.Valid)
    (hnew : (p.chan c).index = .kNew → p.channels (p.chan c).fd = none) :
    ∃ p', p.updateChannel c = .ok p' := by
  cases hidx : (p.chan c).index with
  | kNew =>
      simp only [updateChannel, hidx]
      rw [check_bind_of (hnew hidx)]
      exact ⟨_, rfl⟩
  | kDeleted =>
      have hreg := h.registered c (by rw [hidx]; simp)
      simp only [updateChannel, hidx]
      rw [check_bind_of (by rw [hreg]; simp), check_bind_of hreg]
      exact ⟨_, rfl⟩
  | kAdded =>
      have hreg := h.registered c (by rw [hidx]; simp)
      simp only [updateChannel, hidx]
      rw [check_bind_of (by rw [hreg]; simp), check_bind_of hreg]
      split_ifs
      · exact ⟨_, rfl⟩
      · exact ⟨_, rfl⟩

/-! ### The member functions of `Channel` -/

omit [DecidableEq C] in
/-- Only descriptors and indices matter. -/
lemma Valid.of_chan (h : p.Valid) (hfd : ∀ d, (p'.chan d).fd = (p.chan d).fd)
    (hidx : ∀ d, (p'.chan d).index = (p.chan d).index) (hchannels : p'.channels = p.channels)
    (hepoll : p'.epoll = p.epoll) : p'.Valid := by
  constructor
  · intro fd d hd
    rw [hfd, hidx]
    exact h.found fd d (by rw [← hchannels]; exact hd)
  · intro d hd
    rw [hidx] at hd
    rw [hfd, hchannels]
    exact h.registered d hd
  · intro fd m d hd
    rw [hfd, hidx]
    exact h.watched fd m d (by rw [← hepoll]; exact hd)

lemma Valid.setEvents (h : p.Valid) (c : C) (m : Mask) : (p.setEvents c m).Valid := by
  refine h.of_chan (fun d => ?_) (fun d => ?_) rfl rfl <;>
    (by_cases hd : d = c <;> simp [EPoller.setEvents, hd])

/-- **A change of events that passed its assertions**: the channel is registered and wants
the new events. -/
theorem changeEvents_ok {f : Mask → Mask} (h : p.Valid) (hok : p.changeEvents c f = .ok p') :
    p'.Valid ∧ p.Touches p' c ∧ (p'.chan c).index ≠ .kNew ∧
      (p'.chan c).events = f (p.chan c).events := by
  obtain ⟨hvalid, htouch, hidx, hev⟩ := updateChannel_ok (h.setEvents c _) hok
  have hfd : ((p.setEvents c (f (p.chan c).events)).chan c).fd = (p.chan c).fd := by
    simp [setEvents]
  refine ⟨hvalid, ⟨fun d hd => ?_, htouch.fd.trans hfd, ?_, fun fd hne => ?_, htouch.epoll,
    htouch.eventListSize⟩, hidx, ?_⟩
  · rw [htouch.chan d hd]
    simp [setEvents, hd]
  · rw [htouch.revents]
    simp [setEvents]
  · exact htouch.channels fd (by rw [hfd]; exact hne)
  · rw [hev]
    simp [setEvents]

/-- A registered channel stays one, and what was reported for it stays. -/
lemma changeEvents_chan {f : Mask → Mask} (h : p.Valid) (hok : p.changeEvents c f = .ok p') {d : C}
    (hd : (p.chan d).index ≠ .kNew) :
    (p'.chan d).index ≠ .kNew ∧ (p'.chan d).revents = (p.chan d).revents := by
  obtain ⟨-, htouch, hindex, -⟩ := changeEvents_ok h hok
  by_cases hdc : d = c
  · subst hdc
    exact ⟨hindex, htouch.revents⟩
  · rw [htouch.chan d hdc]
    exact ⟨hd, rfl⟩

/-- The assertions behind a change of events. -/
lemma changeEvents_exists (h : p.Valid)
    (hnew : (p.chan c).index = .kNew → p.channels (p.chan c).fd = none) (f : Mask → Mask) :
    ∃ p', p.changeEvents c f = .ok p' := by
  refine updateChannel_exists (h.setEvents c _) ?_
  simpa [setEvents] using hnew

/-- What `removeChannel` does, under its assertions: it hands `EPOLL_CTL_DEL` to `epoll_ctl` for a
channel with index `kAdded`. -/
lemma removeChannel_eq (hok : p.removeChannel c = .ok p') :
    p.channels (p.chan c).fd = some c ∧ (p.chan c).isNoneEvent = true ∧
      p' = { p.setIndex c .kNew with
        channels := Function.update p.channels (p.chan c).fd none
        epoll := if (p.chan c).index = .kAdded then Function.update p.epoll (p.chan c).fd none
          else p.epoll
        ctls := p.ctls ++ if (p.chan c).index = .kAdded then [(.del, (p.chan c).fd)] else [] } := by
  simp only [removeChannel] at hok
  obtain ⟨-, hok⟩ := check_bind_eq_ok.mp hok
  obtain ⟨hsome, hok⟩ := check_bind_eq_ok.mp hok
  obtain ⟨hnone, hok⟩ := check_bind_eq_ok.mp hok
  obtain ⟨-, hok⟩ := check_bind_eq_ok.mp hok
  obtain rfl := Except.ok.inj hok
  refine ⟨hsome, hnone, ?_⟩
  by_cases hadded : (p.chan c).index = .kAdded
  · simp [hadded, setIndex, update]
  · simp [hadded, setIndex]

/-- **A call of `removeChannel` that passed its assertions.** -/
theorem removeChannel_ok (h : p.Valid) (hok : p.removeChannel c = .ok p') :
    p'.Valid ∧ p.Touches p' c ∧ (p'.chan c).index = .kNew := by
  obtain ⟨hsome, -, rfl⟩ := removeChannel_eq hok
  -- in both branches the epoll set has nothing under the descriptor any more
  obtain ⟨e, he, hfd, hother⟩ : ∃ e : ℕ → Option (Mask × C),
      (if (p.chan c).index = .kAdded then Function.update p.epoll (p.chan c).fd none
        else p.epoll) = e ∧
      e (p.chan c).fd = none ∧ ∀ fd, fd ≠ (p.chan c).fd → e fd = p.epoll fd := by
    by_cases hadded : (p.chan c).index = .kAdded
    · exact ⟨_, if_pos hadded, by simp, fun fd hf => by simp [hf]⟩
    · exact ⟨_, if_neg hadded, h.epoll_eq_none hadded (Or.inr hsome), fun _ _ => rfl⟩
  simp only [he]
  refine ⟨⟨fun fd d hd => ?_, fun d hd => ?_, fun fd m d hd => ?_⟩, ⟨fun d hd => ?_, ?_, ?_,
    fun fd hf => ?_, fun fd m d hd => ?_, rfl⟩, by simp [setIndex]⟩
  · have hf : fd ≠ (p.chan c).fd := by
      rintro rfl
      simp at hd
    have hd' : p.channels fd = some d := by simpa [hf] using hd
    have hdc : d ≠ c := by
      rintro rfl
      exact hf (h.found _ _ hd').1.symm
    simpa [setIndex, hdc] using h.found _ _ hd'
  · have hdc : d ≠ c := by
      rintro rfl
      simp [setIndex] at hd
    have hd' : (p.chan d).index ≠ .kNew := by simpa [setIndex, hdc] using hd
    have hreg := h.registered d hd'
    have hf : (p.chan d).fd ≠ (p.chan c).fd := by
      intro hf
      rw [hf, hsome] at hreg
      exact hdc (Option.some.inj hreg).symm
    simpa [setIndex, hdc, hf] using hreg
  · have hf : fd ≠ (p.chan c).fd := by
      rintro rfl
      exact absurd (hd.symm.trans hfd) (by simp)
    have hw := h.watched fd m d (by rw [← hother fd hf]; exact hd)
    have hdc : d ≠ c := by
      rintro rfl
      exact hf hw.1.symm
    simpa [setIndex, hdc] using hw
  · simp [setIndex, hd]
  · simp [setIndex]
  · simp [setIndex]
  · simp [hf]
  · by_cases hf : fd = (p.chan c).fd
    · subst hf
      exact absurd (hd.symm.trans hfd) (by simp)
    · exact Or.inr (by rw [← hother fd hf]; exact hd)

/-- The assertions of `removeChannel` hold for a registered channel without events. -/
lemma removeChannel_exists (h : p.Valid) (hidx : (p.chan c).index ≠ .kNew)
    (hev : (p.chan c).isNoneEvent = true) : ∃ p', p.removeChannel c = .ok p' := by
  have hreg := h.registered c hidx
  simp only [removeChannel]
  rw [check_bind_of (by rw [hreg]; simp), check_bind_of hreg, check_bind_of hev, check_bind_of]
  · exact ⟨_, rfl⟩
  · cases hi : (p.chan c).index with
    | kNew => exact absurd hi hidx
    | kAdded => exact Or.inl rfl
    | kDeleted => exact Or.inr rfl

/-! ### Reported events -/

/-- Filling in reported events changes nothing but what they say. -/
structure Reports (p p' : EPoller C) (events : List (C × Mask)) : Prop where
  chan : ∀ d, (p'.chan d).fd = (p.chan d).fd ∧ (p'.chan d).index = (p.chan d).index ∧
    (p'.chan d).events = (p.chan d).events
  channels : p'.channels = p.channels
  epoll : p'.epoll = p.epoll
  revents : ∀ d, d ∉ events.map Prod.fst → (p'.chan d).revents = (p.chan d).revents
  found : ∀ d ∈ events.map Prod.fst, p.channels (p.chan d).fd = some d

lemma reports_setRevents (hreg : p.channels (p.chan c).fd = some c) (m : Mask) :
    p.Reports (p.setRevents c m) [(c, m)] where
  chan d := by by_cases hd : d = c <;> simp [setRevents, hd]
  channels := rfl
  epoll := rfl
  revents d hd := by
    have hdc : d ≠ c := by simpa using hd
    simp [setRevents, hdc]
  found d hd := by
    obtain rfl : d = c := by simpa using hd
    exact hreg

omit [DecidableEq C] in
lemma Reports.trans {p₁ p₂ p₃ : EPoller C} {l₁ l₂ : List (C × Mask)} (h : p₁.Reports p₂ l₁)
    (h' : p₂.Reports p₃ l₂) : p₁.Reports p₃ (l₁ ++ l₂) where
  chan d := by
    rw [(h'.chan d).1, (h'.chan d).2.1, (h'.chan d).2.2]
    exact h.chan d
  channels := h'.channels.trans h.channels
  epoll := h'.epoll.trans h.epoll
  revents d hd := by
    simp only [List.map_append, List.mem_append, not_or] at hd
    rw [h'.revents d hd.2, h.revents d hd.1]
  found d hd := by
    simp only [List.map_append, List.mem_append] at hd
    rcases hd with hd | hd
    · exact h.found d hd
    · rw [← h.channels, ← (h.chan d).1]
      exact h'.found d hd

lemma fillChannels_ok {events : List (C × Mask)} (hok : p.fillChannels events = .ok p') :
    p.Reports p' events ∧ p'.eventListSize = p.eventListSize := by
  induction events generalizing p with
  | nil =>
      obtain rfl : p = p' := by simpa [fillChannels, pure, Except.pure] using hok
      exact ⟨⟨fun _ => ⟨rfl, rfl, rfl⟩, rfl, rfl, fun _ _ => rfl, by simp⟩, rfl⟩
  | cons x events ih =>
      obtain ⟨d, m⟩ := x
      obtain ⟨-, hok⟩ := check_bind_eq_ok.mp hok
      obtain ⟨hreg, hok⟩ := check_bind_eq_ok.mp hok
      obtain ⟨hrep, hsize⟩ := ih hok
      exact ⟨(reports_setRevents hreg m).trans hrep, hsize⟩

/-- **A poll that passed the assertions of `fillActiveChannels`.** -/
theorem fillActiveChannels_ok {events : List (C × Mask)}
    (hok : p.fillActiveChannels events = .ok p') : p.Reports p' events := by
  obtain ⟨-, hok⟩ := check_bind_eq_ok.mp hok
  cases hfill : p.fillChannels events with
  | error f => simp [hfill, bind, Except.bind] at hok
  | ok p₁ =>
      obtain ⟨hrep, hsize⟩ := fillChannels_ok hfill
      rw [hfill] at hok
      simp only [bind, Except.bind] at hok
      split_ifs at hok <;> obtain rfl := Except.ok.inj hok
      · exact ⟨hrep.chan, hrep.channels, hrep.epoll, hrep.revents, hrep.found⟩
      · exact hrep

/-- The assertions of `fillActiveChannels` hold for registered channels. -/
lemma fillActiveChannels_exists {events : List (C × Mask)}
    (hlen : events.length ≤ p.eventListSize)
    (hreg : ∀ d ∈ events.map Prod.fst, p.channels (p.chan d).fd = some d) :
    ∃ p', p.fillActiveChannels events = .ok p' := by
  have hfill : ∃ p', p.fillChannels events = .ok p' := by
    clear hlen
    induction events generalizing p with
    | nil => exact ⟨p, rfl⟩
    | cons x events ih =>
        obtain ⟨d, m⟩ := x
        have hd := hreg d (by simp)
        rw [fillChannels, check_bind_of (by rw [hd]; simp), check_bind_of hd]
        have hrep := reports_setRevents hd m
        refine ih fun d' hd' => ?_
        rw [hrep.channels, (hrep.chan d').1]
        exact hreg d' (by simp [hd'])
  obtain ⟨p', hp'⟩ := hfill
  rw [fillActiveChannels, check_bind_of hlen, hp']
  simp only [bind, Except.bind]
  split_ifs
  · exact ⟨_, rfl⟩
  · exact ⟨_, rfl⟩

omit [DecidableEq C] in
lemma Valid.reports {events : List (C × Mask)} (h : p.Valid) (hrep : p.Reports p' events) :
    p'.Valid :=
  h.of_chan (fun d => (hrep.chan d).1) (fun d => (hrep.chan d).2.1) hrep.channels hrep.epoll

end Place

/-! ### Objects and descriptors coming and going -/

/-- A new channel object on the descriptor `fd`. -/
def newChannel (p : EPoller C) (c : C) (fd : ℕ) : EPoller C :=
  { p with chan := Function.update p.chan c (Channel.new fd) }

/-- The kernel takes a closed descriptor out of the epoll set. -/
def close (p : EPoller C) (fd : ℕ) : EPoller C :=
  { p with epoll := Function.update p.epoll fd none }

lemma Valid.newChannel {p : EPoller C} (h : p.Valid) {c : C} (hc : (p.chan c).index = .kNew)
    (fd : ℕ) : (p.newChannel c fd).Valid := by
  simp only [EPoller.newChannel]
  refine ⟨fun f d hd => ?_, fun d hd => ?_, fun f m d hd => ?_⟩
  · have hdc : d ≠ c := by
      rintro rfl
      exact (h.found f d hd).2 hc
    simpa [hdc] using h.found f d hd
  · have hdc : d ≠ c := by
      rintro rfl
      simp [Channel.new] at hd
    simpa [hdc] using h.registered d (by simpa [hdc] using hd)
  · have hdc : d ≠ c := by
      rintro rfl
      exact absurd (hc.symm.trans (h.watched f m d hd).2) (by simp)
    simpa [hdc] using h.watched f m d hd

omit [DecidableEq C] in
lemma Valid.close {p : EPoller C} (h : p.Valid) (fd : ℕ) : (p.close fd).Valid := by
  refine ⟨h.found, h.registered, fun f m d hd => ?_⟩
  by_cases hf : f = fd
  · subst hf
    simp [EPoller.close] at hd
  · exact h.watched f m d (by simpa [EPoller.close, hf] using hd)

end EPoller

end Tractor
