import Tractor.Library.Run
import Tractor.Net.EPoller

/-!
`EPoller` over whole runs: the member functions of `Channel` that call `update()`, and
`EPoller::removeChannel`, on any channels, with polls in between.

* `ChannelCall`, `EPoller.next`: one call, or one return of `epoll_wait`.
* `InStep`: `Valid`, and a channel with index `kAdded` is in the epoll set with its own
  mask and pointer.
* `ctls_call`: what `update` has handed to `epoll_ctl` in a call.
* `epoll_set_in_step`: the views agree in every reachable state, so that each `epoll_ctl` finds
  what it expects and the assertions of `fillActiveChannels` hold.
* `quiet`: no channel without events is watched.  A call that leaves a channel without
  events which was not in the epoll set adds it there: `uninterested_not_watched` says
  that this is the only way to break `quiet`.
-/

namespace Tractor

open Library

/-! ### Runs -/

/-- The calls on a channel that reach its poller. -/
inductive ChannelCall where
  | enableReading
  | enableWriting
  | disableWriting
  | disableAll
  | removeChannel
  deriving DecidableEq

/-- What the call makes of the channel's events. -/
def ChannelCall.events : ChannelCall → Mask → Mask
  | enableReading, m => m ||| Channel.kReadEvent
  | enableWriting, m => m ||| Channel.kWriteEvent
  | disableWriting, m => m &&& ~~~Channel.kWriteEvent
  | disableAll, _ => Channel.kNoneEvent
  | removeChannel, m => m

namespace EPoller

variable {C : Type}

section Operations

variable [DecidableEq C]

def kInitEventListSize : ℕ := 16

/-- A new poller, and new channels on the descriptors `fd`. -/
def new (fd : C → ℕ) : EPoller C where
  chan := fun c => Channel.new (fd c)
  channels := fun _ => none
  epoll := fun _ => none
  eventListSize := kInitEventListSize
  ctls := []

/-- A call on the channel `c`. -/
def call (p : EPoller C) (c : C) : ChannelCall → Except PollFault (EPoller C)
  | .enableReading => p.enableReading c
  | .enableWriting => p.enableWriting c
  | .disableWriting => p.disableWriting c
  | .disableAll => p.disableAll c
  | .removeChannel => p.removeChannel c

/-- A call on a channel, or a poll that returned events. -/
inductive Label (C : Type) where
  | call (c : C) (f : ChannelCall)
  | poll (events : List (C × Mask))

def next (p : EPoller C) : Label C → Except PollFault (EPoller C)
  | .call c f => p.call c f
  | .poll events => p.fillActiveChannels events

/-- What `epoll_wait` can return: no more events than there is room for, each with the
data pointer of an entry of the epoll set. -/
def reportable (p : EPoller C) (events : List (C × Mask)) : Prop :=
  events.length ≤ p.eventListSize ∧ ∀ x ∈ events, ∃ fd m, p.epoll fd = some (m, x.1)

/-- Calls are made at any time; polls return what `epoll_wait` can return. -/
def possible (p : EPoller C) : Label C → Prop
  | .call _ _ => True
  | .poll events => p.reportable events

/-- The calls that change events are one family. -/
lemma call_eq_changeEvents (p : EPoller C) (c : C) {f : ChannelCall} (hf : f ≠ .removeChannel) :
    p.call c f = p.changeEvents c f.events := by
  cases f with
  | removeChannel => exact absurd rfl hf
  | _ => rfl

end Operations

/-! ### In step with the kernel -/

/-- The channel is in `channels_`. -/
def inChannels (p : EPoller C) (c : C) : Prop := ∃ fd, p.channels fd = some c

/-- The index, the map and the epoll set agree. -/
structure InStep (p : EPoller C) : Prop extends p.Valid where
  added : ∀ c, (p.chan c).index = .kAdded → p.epoll (p.chan c).fd = some ((p.chan c).events, c)

lemma new_inStep (fd : C → ℕ) : (new fd).InStep where
  found _ _ h := absurd h (by simp [new])
  registered _ h := absurd rfl h
  watched _ _ _ h := absurd h (by simp [new])
  added _ h := absurd h (by simp [new, Channel.new])

section InStep

variable {p p' : EPoller C} {c : C}

lemma Valid.inChannels_iff (h : p.Valid) : p.inChannels c ↔ (p.chan c).index ≠ .kNew :=
  ⟨fun ⟨fd, hfd⟩ => (h.found fd c hfd).2, fun hc => ⟨_, h.registered c hc⟩⟩

lemma InStep.reports (h : p.InStep) {events : List (C × Mask)} (hrep : p.Reports p' events) :
    p'.InStep := by
  refine ⟨h.toValid.reports hrep, fun d hd => ?_⟩
  obtain ⟨hfd, hidx, hev⟩ := hrep.chan d
  rw [hrep.epoll, hfd, hev]
  exact h.added d (hidx.symm.trans hd)

/-- The three views of one channel. -/
lemma InStep.index_iff (h : p.InStep) (c : C) :
    ((p.chan c).index = .kNew ↔ ¬ p.inChannels c) ∧
      ((p.chan c).index = .kDeleted ↔ p.inChannels c ∧ p.epoll (p.chan c).fd = none) ∧
      ((p.chan c).index = .kAdded ↔
        p.inChannels c ∧ p.epoll (p.chan c).fd = some ((p.chan c).events, c)) := by
  rw [h.inChannels_iff]
  cases hidx : (p.chan c).index with
  | kNew => simp
  | kDeleted =>
      have habs := h.epoll_eq_none (by rw [hidx]; simp)
        (Or.inr (h.registered c (by rw [hidx]; simp)))
      simp [habs]
  | kAdded => simp [h.added c hidx]

/-- What `epoll_wait` returns are channels in the map. -/
lemma Valid.found_of_reportable (h : p.Valid) {events : List (C × Mask)}
    (hrep : p.reportable events) :
    ∀ d ∈ events.map Prod.fst, p.channels (p.chan d).fd = some d := by
  intro d hd
  obtain ⟨x, hx, rfl⟩ := List.mem_map.mp hd
  obtain ⟨fd, m, hfd⟩ := hrep.2 x hx
  refine h.registered x.1 ?_
  rw [(h.watched fd m x.1 hfd).2]
  simp

variable [DecidableEq C]

/-- `updateChannel` takes a channel without events out of the epoll set if its index says
that it is there, and puts it there with its mask in every other case. -/
lemma updateChannel_eq (h : p.Valid)
    (hin : (p.chan c).index = .kAdded → p.epoll (p.chan c).fd ≠ none)
    (hok : p.updateChannel c = .ok p') :
    p' = if (p.chan c).index = .kAdded ∧ (p.chan c).isNoneEvent = true then
        p.place c .kDeleted .del (Function.update p.epoll (p.chan c).fd none)
      else
        p.place c .kAdded (if (p.chan c).index = .kAdded then .mod else .add)
          (Function.update p.epoll (p.chan c).fd (some ((p.chan c).events, c))) := by
  obtain ⟨op, i, rfl, hcase⟩ := updateChannel_cases hok
  rcases hcase with ⟨hidx, hnone, rfl, rfl⟩ | ⟨hidx, hsome, rfl, rfl⟩ |
    ⟨hidx, -, hev, rfl, rfl⟩ | ⟨hidx, -, hev, rfl, rfl⟩
  · have habs := h.epoll_eq_none (by rw [hidx]; simp) (Or.inl hnone)
    simp [hidx, update, habs]
  · have habs := h.epoll_eq_none (by rw [hidx]; simp) (Or.inr hsome)
    simp [hidx, update, habs]
  · simp [hidx, update, hev]
  · simp [hidx, update, hev, hin hidx]

/-- A change of events, by the index of the channel before it and its mask behind it. -/
lemma InStep.changeEvents_eq (h : p.InStep) {f : Mask → Mask} {m : Mask}
    (hm : f (p.chan c).events = m) (hok : p.changeEvents c f = .ok p') :
    p' = if (p.chan c).index = .kAdded ∧ m = Channel.kNoneEvent then
        (p.setEvents c m).place c .kDeleted .del (Function.update p.epoll (p.chan c).fd none)
      else
        (p.setEvents c m).place c .kAdded (if (p.chan c).index = .kAdded then .mod else .add)
          (Function.update p.epoll (p.chan c).fd (some (m, c))) := by
  subst hm
  have heq := updateChannel_eq (h.toValid.setEvents c _) ?_ hok
  · simpa [setEvents, Channel.isNoneEvent] using heq
  · intro hidx
    have hadded := h.added c (by simpa [setEvents] using hidx)
    simp [setEvents, hadded]

/-- The descriptor of a channel whose events were changed is free or its own. -/
lemma Valid.free_of_changeEvents (h : p.Valid) {f : Mask → Mask}
    (hok : p.changeEvents c f = .ok p') :
    p.channels (p.chan c).fd = none ∨ p.channels (p.chan c).fd = some c := by
  obtain ⟨_, _, _, -, -, hfree, -, -⟩ := updateChannel_eq_place (h.setEvents c _) hok
  simpa [EPoller.setEvents] using hfree

/-- Behind a change of events the channel is in the epoll set with its new mask, unless it
was there and its mask is empty now. -/
lemma InStep.changeEvents_spec (h : p.InStep) {f : Mask → Mask} {m : Mask}
    (hm : f (p.chan c).events = m) (hok : p.changeEvents c f = .ok p') :
    (p'.chan c).index =
        (if (p.chan c).index = .kAdded ∧ m = Channel.kNoneEvent then .kDeleted else .kAdded) ∧
      p'.epoll = Function.update p.epoll (p.chan c).fd
        (if (p.chan c).index = .kAdded ∧ m = Channel.kNoneEvent then none else some (m, c)) := by
  have heq := h.changeEvents_eq hm hok
  by_cases hdel : (p.chan c).index = .kAdded ∧ m = Channel.kNoneEvent
  · rw [if_pos hdel] at heq
    subst heq
    simp [place, setIndex, setEvents, hdel]
  · rw [if_neg hdel] at heq
    subst heq
    rw [if_neg hdel, if_neg hdel]
    simp [place, setIndex, setEvents]

lemma InStep.changeEvents (h : p.InStep) {f : Mask → Mask} (hok : p.changeEvents c f = .ok p') :
    p'.InStep := by
  obtain ⟨hvalid, htouch, hnew, hev⟩ := changeEvents_ok h.toValid hok
  obtain ⟨hidx, hepoll⟩ := h.changeEvents_spec rfl hok
  refine ⟨hvalid, fun d hd => ?_⟩
  by_cases hdc : d = c
  · subst hdc
    rw [hidx] at hd
    split_ifs at hd with hdel
    rw [hepoll, htouch.fd, hev, if_neg hdel, Function.update_self]
  · -- another channel has another descriptor
    have hfd : (p.chan d).fd ≠ (p.chan c).fd := by
      intro hfd
      refine hdc (hvalid.eq_of_fd (by rw [hd]; simp) hnew ?_)
      rw [htouch.chan d hdc, htouch.fd, hfd]
    rw [htouch.chan d hdc] at hd ⊢
    rw [hepoll, Function.update_of_ne hfd]
    exact h.added d hd

/-- Behind `removeChannel` the epoll set has nothing under the channel's descriptor. -/
lemma InStep.removeChannel_spec (h : p.InStep) (hok : p.removeChannel c = .ok p') :
    p'.epoll = Function.update p.epoll (p.chan c).fd none ∧ (p.chan c).index ≠ .kNew ∧
      (p.chan c).events = Channel.kNoneEvent := by
  obtain ⟨hsome, hnone, rfl⟩ := removeChannel_eq hok
  refine ⟨?_, (h.found _ c hsome).2, by simpa [Channel.isNoneEvent] using hnone⟩
  by_cases hadded : (p.chan c).index = .kAdded
  · simp [hadded]
  · simp [hadded, ← h.epoll_eq_none hadded (Or.inr hsome)]

lemma InStep.removeChannel (h : p.InStep) (hok : p.removeChannel c = .ok p') : p'.InStep := by
  obtain ⟨hvalid, htouch, hidx⟩ := removeChannel_ok h.toValid hok
  obtain ⟨hepoll, hnew, -⟩ := h.removeChannel_spec hok
  refine ⟨hvalid, fun d hd => ?_⟩
  have hdc : d ≠ c := by
    rintro rfl
    exact absurd (hidx.symm.trans hd) (by simp)
  rw [htouch.chan d hdc] at hd ⊢
  have hfd : (p.chan d).fd ≠ (p.chan c).fd := fun hfd =>
    hdc (h.eq_of_fd (by rw [hd]; simp) hnew hfd)
  rw [hepoll, Function.update_of_ne hfd]
  exact h.added d hd

/-- **Every step that passed its assertions keeps the three views in step.** -/
theorem InStep.next (h : p.InStep) {l : Label C} (hok : p.next l = .ok p') : p'.InStep := by
  cases l with
  | poll events => exact h.reports (fillActiveChannels_ok hok)
  | call c f =>
      by_cases hf : f = .removeChannel
      · subst hf
        exact h.removeChannel hok
      · exact h.changeEvents ((p.call_eq_changeEvents c hf).symm.trans hok)

/-! ### The control operations -/

/-- The one operation that a change of events hands to `epoll_ctl`. -/
lemma InStep.ctls_changeEvents (h : p.InStep) {f : Mask → Mask} {m : Mask}
    (hm : f (p.chan c).events = m) (hok : p.changeEvents c f = .ok p') :
    p'.ctls = p.ctls ++ [(if (p.chan c).index = .kAdded then
      if m = Channel.kNoneEvent then .del else .mod else .add, (p.chan c).fd)] := by
  have heq := h.changeEvents_eq hm hok
  by_cases hdel : (p.chan c).index = .kAdded ∧ m = Channel.kNoneEvent
  · rw [if_pos hdel] at heq
    subst heq
    simp [place, setEvents, hdel]
  · rw [if_neg hdel] at heq
    subst heq
    by_cases hadded : (p.chan c).index = .kAdded
    · have hne : m ≠ Channel.kNoneEvent := fun hnone => hdel ⟨hadded, hnone⟩
      simp [place, setEvents, hadded, hne]
    · simp [place, setEvents, hadded]

/-- **What a call hands to `epoll_ctl`**: one operation at most, on the channel's own descriptor,
which `EPOLL_CTL_ADD` finds absent from the epoll set and the other operations in it. -/
lemma InStep.ctls_call (h : p.InStep) {f : ChannelCall} (hok : p.call c f = .ok p') :
    ∃ ops, p'.ctls = p.ctls ++ ops ∧ ops.length ≤ 1 ∧ ∀ op fd, (op, fd) ∈ ops →
      fd = (p.chan c).fd ∧ (op = .add ↔ p.epoll fd = none) := by
  have hin : (p.chan c).index = .kAdded → p.epoll (p.chan c).fd ≠ none := fun hadded => by
    rw [h.added c hadded]
    simp
  by_cases hf : f = .removeChannel
  · subst hf
    obtain ⟨-, -, rfl⟩ := removeChannel_eq hok
    refine ⟨_, rfl, by split_ifs <;> simp, fun op fd hmem => ?_⟩
    by_cases hadded : (p.chan c).index = .kAdded
    · obtain ⟨rfl, rfl⟩ : op = .del ∧ fd = (p.chan c).fd := by simpa [hadded] using hmem
      exact ⟨rfl, iff_of_false (by simp) (hin hadded)⟩
    · simp [hadded] at hmem
  · rw [call_eq_changeEvents p c hf] at hok
    refine ⟨_, h.ctls_changeEvents rfl hok, le_rfl, fun op fd hmem => ?_⟩
    obtain ⟨rfl, rfl⟩ := Prod.mk.inj (List.mem_singleton.mp hmem)
    refine ⟨rfl, ?_⟩
    by_cases hadded : (p.chan c).index = .kAdded
    · rw [if_pos hadded]
      refine iff_of_false ?_ (hin hadded)
      split_ifs <;> simp
    · rw [if_neg hadded]
      exact iff_of_true rfl (h.epoll_eq_none hadded (h.toValid.free_of_changeEvents hok))

/-- **`EPoller` stays in step with the kernel's epoll set**: in every state that calls on
channels with any descriptors and polls can reach, the index of a channel says whether it
is in `channels_` and whether its descriptor is in the epoll set, there with the channel's
own mask and pointer.  So every call that passes its assertions hands at most one operation to
`epoll_ctl`, on the descriptor of its channel, which is `EPOLL_CTL_ADD` exactly if the descriptor
is absent; and the assertions of `fillActiveChannels` hold for everything `epoll_wait` can
return. -/
theorem epoll_set_in_step (fd : C → ℕ) {p : EPoller C}
    (hp : Reach (fun p l => (p.next l).toOption) possible (new fd) p) :
    (∀ c, ((p.chan c).index = .kNew ↔ ¬ p.inChannels c) ∧
      ((p.chan c).index = .kDeleted ↔ p.inChannels c ∧ p.epoll (p.chan c).fd = none) ∧
      ((p.chan c).index = .kAdded ↔
        p.inChannels c ∧ p.epoll (p.chan c).fd = some ((p.chan c).events, c))) ∧
    (∀ c f p', p.call c f = .ok p' → ∃ ops, p'.ctls = p.ctls ++ ops ∧ ops.length ≤ 1 ∧
      ∀ op fd, (op, fd) ∈ ops → fd = (p.chan c).fd ∧ (op = .add ↔ p.epoll fd = none)) ∧
    ∀ events, p.reportable events → ∃ p', p.fillActiveChannels events = .ok p' := by
  have h : p.InStep := by
    refine Reach.invariant (I := InStep) ?_ hp (new_inStep fd)
    intro p l p' h _ hstep
    exact h.next (toOption_eq_some.mp hstep)
  exact ⟨h.index_iff, fun c f p' hok => h.ctls_call hok, fun events hrep =>
    fillActiveChannels_exists hrep.1 (h.found_of_reportable hrep)⟩

/-- One channel is read and then disabled, another one writes. -/
theorem epoll_set_in_step_two : ∃ p : EPoller Bool,
    Reach (fun p l => (p.next l).toOption) possible (new fun b => if b then 5 else 4) p ∧
    p.ctls = [(.add, 5), (.add, 4), (.del, 5)] ∧
    (p.chan true).index = .kDeleted ∧ (p.chan false).index = .kAdded ∧
    (p.inChannels true ∧ p.epoll 5 = none) ∧
    (p.inChannels false ∧ p.epoll 4 = some (Channel.kWriteEvent, false)) := by
  obtain ⟨p, hp, hctls, htrue, hfalse, hfd, hfd', hev⟩ : ∃ p : EPoller Bool,
      Reach (fun p l => (p.next l).toOption) possible (new fun b => if b then 5 else 4) p ∧
      p.ctls = [(.add, 5), (.add, 4), (.del, 5)] ∧
      (p.chan true).index = .kDeleted ∧ (p.chan false).index = .kAdded ∧
      (p.chan true).fd = 5 ∧ (p.chan false).fd = 4 ∧
      (p.chan false).events = Channel.kWriteEvent :=
    ⟨_, (((Reach.refl _).tail (a := .call true .enableReading) trivial rfl).tail
      (a := .call false .enableWriting) trivial rfl).tail (a := .call true .disableAll) trivial rfl,
      rfl, rfl, rfl, rfl, rfl, rfl⟩
  obtain ⟨hindex, -, -⟩ := epoll_set_in_step _ hp
  refine ⟨p, hp, hctls, htrue, hfalse, ?_, ?_⟩
  · rw [← hfd]
    exact (hindex true).2.1.mp htrue
  · rw [← hfd', ← hev]
    exact (hindex false).2.2.mp hfalse

end InStep

/-! ### Channels without events -/

/-- No channel without events is in the epoll set. -/
def quiet (p : EPoller C) : Prop :=
  ∀ fd m c, p.epoll fd = some (m, c) → (p.chan c).isNoneEvent = false

/-- A call that leaves the channel without events finds it in the epoll set. -/
def keepsInterest (p : EPoller C) : Label C → Prop
  | .call _ .removeChannel => True
  | .call c f => f.events (p.chan c).events = Channel.kNoneEvent → (p.chan c).index = .kAdded
  | .poll _ => True

instance (p : EPoller C) : (l : Label C) → Decidable (p.keepsInterest l)
  | .call _ .removeChannel => isTrue trivial
  | .call _ .enableReading | .call _ .enableWriting | .call _ .disableWriting
  | .call _ .disableAll => inferInstanceAs (Decidable (_ = _ → _ = _))
  | .poll _ => isTrue trivial

section Quiet

variable {p p' : EPoller C} {c : C}

lemma InStep.quiet_iff (h : p.InStep) :
    p.quiet ↔ ∀ c, (p.chan c).index = .kAdded → (p.chan c).isNoneEvent = false := by
  refine ⟨fun hq c hc => hq _ _ c (h.added c hc), fun hq fd m c hc => ?_⟩
  exact hq c (h.watched fd m c hc).2

lemma quiet.reports (hq : p.quiet) {events : List (C × Mask)}
    (hrep : p.Reports p' events) : p'.quiet := by
  intro fd m c hc
  rw [hrep.epoll] at hc
  have hev := hq fd m c hc
  simpa [Channel.isNoneEvent, (hrep.chan c).2.2] using hev

variable [DecidableEq C]

/-- A change of events that leaves none breaks `quiet` unless the channel was watched. -/
lemma InStep.quiet_changeEvents (h : p.InStep) (hq : p.quiet) {f : Mask → Mask}
    (hok : p.changeEvents c f = .ok p') :
    p'.quiet ↔ (f (p.chan c).events = Channel.kNoneEvent → (p.chan c).index = .kAdded) := by
  obtain ⟨-, htouch, -, hev⟩ := changeEvents_ok h.toValid hok
  obtain ⟨hidx, -⟩ := h.changeEvents_spec rfl hok
  rw [(h.changeEvents hok).quiet_iff]
  rw [h.quiet_iff] at hq
  constructor
  · intro hq' hnone
    by_contra hadded
    have hc := hq' c (by rw [hidx, if_neg (fun hand => hadded hand.1)])
    simp [Channel.isNoneEvent, hev, hnone] at hc
  · intro hkeep d hd
    by_cases hdc : d = c
    · subst hdc
      simp only [Channel.isNoneEvent, hev, decide_eq_false_iff_not]
      intro hnone
      rw [hidx, if_pos ⟨hkeep hnone, hnone⟩] at hd
      exact absurd hd (by simp)
    · rw [htouch.chan d hdc] at hd ⊢
      exact hq d hd

lemma InStep.quiet_removeChannel (h : p.InStep) (hq : p.quiet)
    (hok : p.removeChannel c = .ok p') : p'.quiet := by
  obtain ⟨-, htouch, hidx⟩ := removeChannel_ok h.toValid hok
  rw [(h.removeChannel hok).quiet_iff]
  rw [h.quiet_iff] at hq
  intro d hd
  have hdc : d ≠ c := by
    rintro rfl
    exact absurd (hidx.symm.trans hd) (by simp)
  rw [htouch.chan d hdc] at hd ⊢
  exact hq d hd

/-- One step. -/
lemma InStep.quiet_next (h : p.InStep) (hq : p.quiet) {l : Label C} (hok : p.next l = .ok p') :
    p'.quiet ↔ p.keepsInterest l := by
  cases l with
  | poll events => exact iff_of_true (hq.reports (fillActiveChannels_ok hok)) trivial
  | call c f =>
      cases f with
      | removeChannel => exact iff_of_true (h.quiet_removeChannel hq hok) trivial
      | _ => exact h.quiet_changeEvents hq hok

/-- **A channel without events is not watched**, after every call of a run, exactly if no
call of the run leaves a channel without events whose index is `kNew` or `kDeleted`:
`updateChannel` adds such a channel with its empty mask. -/
theorem uninterested_not_watched (fd : C → ℕ) (l : List (Label C))
    (hpass : Passes next (new fd) l) :
    Along next (fun p a => ∀ p', p.next a = .ok p' → p'.quiet) (new fd) l ↔
      Along next keepsInterest (new fd) l := by
  refine along_iff (I := fun p => p.InStep ∧ p.quiet) ?_ hpass
    ⟨new_inStep fd, fun _ _ _ h => absurd h (by simp [new])⟩
  rintro p a p' ⟨h, hq⟩ hok
  have hiff := h.quiet_next hq hok
  refine ⟨?_, fun hkeep => ⟨h.next hok, hiff.mpr hkeep⟩⟩
  rw [← hiff]
  refine ⟨fun hall => hall p' hok, fun hq' p'' hok' => ?_⟩
  obtain rfl := Except.ok.inj (hok.symm.trans hok')
  exact hq'

/-- The channel of a connection is read, and disabled once. -/
theorem uninterested_not_watched_once :
    Along next (fun p a => ∀ p', p.next a = .ok p' → p'.quiet) (new fun _ : Unit => 5)
      [.call () .enableReading, .call () .disableAll, .call () .removeChannel] := by
  exact (uninterested_not_watched _ _ (by decide)).mpr (by decide)

/-- Disabled in `handleClose_` and again in `connectDestroyed`, the channel is in the epoll
set without events. -/
theorem disabled_twice_watched :
    Passes next (new fun _ : Unit => 5)
      [.call () .enableReading, .call () .disableAll, .call () .disableAll] ∧
    ¬ Along next (fun p a => ∀ p', p.next a = .ok p' → p'.quiet) (new fun _ : Unit => 5)
      [.call () .enableReading, .call () .disableAll, .call () .disableAll] := by
  refine ⟨by decide, fun h => ?_⟩
  obtain ⟨p, p', hrun, hok, hin, hev⟩ : ∃ p p' : EPoller Unit,
      [Label.call () .enableReading, .call () .disableAll].foldlM next (new fun _ => 5) = .ok p ∧
      p.next (.call () .disableAll) = .ok p' ∧ p'.epoll 5 = some (0, ()) ∧
      (p'.chan ()).isNoneEvent = true :=
    ⟨_, _, rfl, rfl, rfl, rfl⟩
  have hquiet : p'.quiet := Along.of_foldlM (l := [_, _]) h hrun p' hok
  exact absurd (hquiet 5 0 () hin) (by simp [hev])

end Quiet

end EPoller

end Tractor
