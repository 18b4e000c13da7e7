import Tractor.Net.Links

/-!
What the loop's thread has before it.

`Known` says that everything that waits is about connections that exist: the handlers and
functors to come, the active channels, and the calls of other threads.  `Dispatching`
says where the loop stands: outside the handlers nothing of an event is left; inside them
the active channels are registered, each is handled once, what is left of the current
event is an end of its list of handlers, and no active channel is closed.

* `Known.move`, `Dispatching.move`: every step that succeeds keeps them.
* `Sane`: with the ledger and the links, they hold in every reachable state
  (`sane_of_reaches`), whatever the threads, the kernel and the user do.
-/

namespace Tractor

open Library

/-! ### What is handled -/

/-- The channel whose event this is part of. -/
def Op.event : Op → Option ChannelRef
  | accept => some .acceptor
  | handleClose c => some (.conn c)
  | handleError c => some (.conn c)
  | handleRead c => some (.conn c)
  | handleWrite c => some (.conn c)
  | _ => none

/-- The connection this is about. -/
def Op.conn : Op → Option ℕ
  | handleClose c => some c
  | handleError c => some c
  | handleRead c => some c
  | handleWrite c => some c
  | shutdownIfDisconnecting c => some c
  | queueWriteComplete c => some c
  | setDisconnecting c => some c
  | removeChannel c => some c
  | _ => none

/-- What handlers and callbacks put in front of what is left to do. -/
def Op.minor : Op → Bool
  | shutdownIfDisconnecting _ => true
  | queueWriteComplete _ => true
  | setDisconnecting _ => true
  | user => true
  | _ => false

lemma Op.eq_conn_of_event {op : Op} {ref : ChannelRef} {c : ℕ} (h : op.event = some ref)
    (hc : op.conn = some c) : ref = .conn c := by
  cases op <;> simp_all [event, conn]

lemma Op.conn_of_event {op : Op} {c : ℕ} (h : op.event = some (.conn c)) : op.conn = some c := by
  cases op <;> simp_all [event, conn]

lemma Op.event_of_minor {op : Op} (h : op.minor = true) : op.event = none := by
  cases op <;> simp [minor, event] at *

def ServerFunctor.conn {T : Type} : ServerFunctor T → ℕ
  | sendInLoop _ c _ => c
  | shutdownInLoop c => c
  | connectDestroyed c => c
  | writeComplete c => c

def Call.conn : Call → ℕ
  | sendInLoop c _ => c
  | setDisconnecting c => c
  | shutdownInLoop c => c

namespace TcpServer

variable {T : Type} {s s' : TcpServer T} {c d : ℕ} {ref : ChannelRef}

/-- The events that are still to be handled of the current one. -/
def events (s : TcpServer T) : List Op := s.todo.filter fun op => op.event.isSome

lemma event_of_mem_eventOps {op : Op} (h : op ∈ s.eventOps ref) : op.event = some ref := by
  cases ref with
  | acceptor =>
      simp only [eventOps, handleEvent] at h
      split_ifs at h <;> simp_all [Op.event]
  | conn c =>
      simp only [eventOps, handleEvent, List.mem_append] at h
      rcases h with ((h | h) | h) | h
      all_goals
        split_ifs at h
        · obtain rfl := List.mem_singleton.mp h
          rfl
        · exact absurd h (by simp)

/-! ### Everything that waits is about connections that exist -/

/-- Something that waits is about the connection. -/
inductive Mentions (s : TcpServer T) (c : ℕ) : Prop
  | todo {op : Op} (hop : op ∈ s.todo) (hc : op.conn = some c)
  | active (hc : .conn c ∈ s.active)
  | queue {cb : ServerFunctor T} (hcb : cb ∈ s.loop.queue) (hc : cb.conn = c)
  | call {t : T} {call : Call} (hcall : s.calls t = some call) (hc : call.conn = c)

/-- Everything that waits is about connections that exist. -/
def Known (s : TcpServer T) : Prop := ∀ c, s.Mentions c → (s.hist c).stage ≠ .fresh

lemma start_known (name : String) (acceptFd : ℕ) (wc : Bool) :
    (start name acceptFd wc : TcpServer T).Known := by
  intro c h
  cases h with
  | todo hop => simp [start] at hop
  | active hc => simp [start] at hc
  | queue hcb => simp [start, EventLoop.queue, EventLoop.new, LoopPc.functors] at hcb
  | call hcall => simp [start] at hcall

/-- What waits in another state waits here, or is about a connection that exists. -/
lemma Known.of_mentions (h : s.Known) (hc : s'.Mentions c)
    (htodo : ∀ op ∈ s'.todo, op ∈ s.todo ∨ ∀ d, op.conn = some d → (s.hist d).stage ≠ .fresh)
    (hactive : ∀ d, .conn d ∈ s'.active → .conn d ∈ s.active ∨ (s.hist d).stage ≠ .fresh)
    (hqueue : ∀ cb ∈ s'.loop.queue, cb ∈ s.loop.queue ∨ (s.hist cb.conn).stage ≠ .fresh)
    (hcalls : ∀ t call, s'.calls t = some call →
      s.calls t = some call ∨ (s.hist call.conn).stage ≠ .fresh) : (s.hist c).stage ≠ .fresh := by
  cases hc with
  | todo hop hc =>
      rcases htodo _ hop with hop' | hnew
      · exact h c (.todo hop' hc)
      · exact hnew c hc
  | active hc =>
      rcases hactive c hc with hc' | hnew
      · exact h c (.active hc')
      · exact hnew
  | queue hcb hc =>
      subst hc
      rcases hqueue _ hcb with hcb' | hnew
      · exact h _ (.queue hcb' rfl)
      · exact hnew
  | call hcall hc =>
      subst hc
      rcases hcalls _ _ hcall with hcall' | hnew
      · exact h _ (.call hcall' rfl)
      · exact hnew

/-- Only the list of things to do has changed. -/
lemma Known.of_todo (h : s.Known) (hc : s'.Mentions c)
    (htodo : ∀ op ∈ s'.todo, op ∈ s.todo ∨ ∀ d, op.conn = some d → (s.hist d).stage ≠ .fresh)
    (hactive : s'.active = s.active) (hqueue : ∀ cb ∈ s'.loop.queue, cb ∈ s.loop.queue)
    (hcalls : s'.calls = s.calls) : (s.hist c).stage ≠ .fresh :=
  h.of_mentions hc htodo (fun _ hd => Or.inl (hactive ▸ hd)) (fun cb hcb => Or.inl (hqueue cb hcb))
    fun _ _ hcall => Or.inl (hcalls ▸ hcall)

lemma stage_ne_fresh_of_usable (h : s.usable c = true) : (s.hist c).stage ≠ .fresh := by
  simp only [usable, decide_eq_true_eq] at h
  exact h.1

/-- A reported channel belongs to a connection that exists. -/
lemma Links.stage_of_reportable {events : List (ChannelRef × Mask)} (h : s.Links)
    (hrep : s.reportable events = true) (hd : .conn d ∈ events.map Prod.fst) :
    (s.hist d).stage ≠ .fresh := by
  obtain ⟨x, hx, hxd⟩ := List.mem_map.mp hd
  simp only [reportable, decide_eq_true_eq] at hrep
  obtain ⟨⟨m, r⟩, hepoll, hr⟩ := Option.map_eq_some_iff.mp (hrep.2.2 x hx)
  obtain rfl : r = .conn d := hr.trans hxd
  intro hfresh
  have hnew : (s.poller.chan (.conn d)).index = .kNew := (h.linked d).new hfresh
  exact absurd (hnew.symm.trans (h.valid.watched _ m _ hepoll).2) (by simp)

section Known

variable [DecidableEq T]

/-- A connection never becomes one that does not exist. -/
lemma Move.stage_ne_fresh {l : Label T} (hm : Move s l s') (hc : (s.hist c).stage ≠ .fresh) :
    (s'.hist c).stage ≠ .fresh := by
  -- in every case one connection at most has another record
  have hupdate : ∀ (d : ℕ) (h : History T), (d = c → h.stage ≠ .fresh) →
      (Function.update s.hist d h c).stage ≠ .fresh := by
    intro d h hh
    by_cases hd : c = d
    · subst hd
      simpa using hh rfl
    · simpa [hd] using hc
  cases hm with
  | refused | checked | pushed | looped | polled | dispatched | dropped | read | shutDrained |
    completed | userShut | userRead => exact hc
  | accepted | disconnecting | shutDirect => exact hupdate _ _ fun hd => hd ▸ hc
  | connected htodo hfd hok =>
      obtain ⟨-, p, -, rfl⟩ := newConnection_ok hok
      exact hupdate _ _ fun _ => by simp
  | closed htodo hop hok =>
      obtain ⟨-, -, p, -, rfl⟩ := handleClose_ok hok
      exact hupdate _ _ fun _ => by simp
  | wrote htodo hw hok =>
      rcases handleWrite_ok (s := s.pop) hw hok with ⟨-, rfl⟩ | ⟨-, p, ops, -, -, rfl⟩
      · exact hc
      · exact hc
  | removed htodo hok =>
      obtain ⟨p, -, rfl⟩ := removeChannel_ok hok
      exact hupdate _ _ fun _ => by simp
  | userSent htodo husable hstate hok =>
      rw [stage_sendInLoop hok, stage_accept]
      exact hc
  | @ran nwrote cb functors e s' htodo hqueue hpc hpc' hid hok =>
      cases cb with
      | sendInLoop t d message =>
          simp only [runFunctor] at hok
          split_ifs at hok
          rw [stage_sendInLoop (Option.some.inj hok)]
          exact hc
      | shutdownInLoop d =>
          obtain rfl := Except.ok.inj (Option.some.inj hok)
          exact hc
      | connectDestroyed d =>
          obtain ⟨-, p, -, rfl⟩ := connectDestroyed_ok (Option.some.inj hok)
          exact hupdate _ _ fun _ => by simp
      | writeComplete d =>
          obtain rfl := Except.ok.inj (Option.some.inj hok)
          exact hc
  | released => exact hupdate _ _ fun _ => by simp

/-- Only the call of one thread has changed. -/
lemma Known.of_call (h : s.Known) (hc : s'.Mentions c) {t : T} {call : Option Call}
    (htodo : s'.todo = s.todo) (hactive : s'.active = s.active)
    (hqueue : ∀ cb ∈ s'.loop.queue, cb ∈ s.loop.queue ∨ (s.hist cb.conn).stage ≠ .fresh)
    (hcalls : s'.calls = Function.update s.calls t call)
    (hcall : ∀ x, call = some x → (s.hist x.conn).stage ≠ .fresh) :
    (s.hist c).stage ≠ .fresh := by
  refine h.of_mentions hc (fun _ hop => Or.inl (htodo ▸ hop)) (fun _ hd => Or.inl (hactive ▸ hd))
    hqueue fun t' call' hcall' => ?_
  rw [hcalls] at hcall'
  by_cases ht : t' = t
  · subst ht
    exact Or.inr (hcall call' (by simpa using hcall'))
  · exact Or.inl (by simpa [ht] using hcall')

/-- **Every step keeps this.** -/
theorem Known.move {l : Label T} (h : s.Known) (hlinks : s.Links) (hm : Move s l s') :
    s'.Known := by
  intro c hc
  refine hm.stage_ne_fresh ?_
  have hpop : ∀ op ∈ s.todo.tail, op ∈ s.todo := fun op hop => List.mem_of_mem_tail hop
  -- new things to do are about connections that exist
  have hfront : ∀ ops rest : List Op,
      (∀ op ∈ ops, ∀ d, op.conn = some d → (s.hist d).stage ≠ .fresh) →
      (∀ op ∈ rest, op ∈ s.todo) → ∀ op ∈ ops ++ rest,
        op ∈ s.todo ∨ ∀ d, op.conn = some d → (s.hist d).stage ≠ .fresh := by
    intro ops rest hops hrest op hop
    rcases List.mem_append.mp hop with hop | hop
    · exact Or.inr (hops op hop)
    · exact Or.inl (hrest op hop)
  cases hm with
  | refused => exact h c hc
  | accepted hcall husable hstate =>
      refine h.of_call hc rfl rfl (fun _ hcb => Or.inl hcb) rfl fun x hx => ?_
      obtain rfl := Option.some.inj hx
      exact stage_ne_fresh_of_usable husable
  | checked hcall husable hstate =>
      refine h.of_call hc rfl rfl (fun _ hcb => Or.inl hcb) rfl fun x hx => ?_
      obtain rfl := Option.some.inj hx
      exact stage_ne_fresh_of_usable husable
  | @pushed t cb e hcall hqueue hpc hid =>
      refine h.of_call hc rfl rfl (fun cb' hcb' => ?_) rfl fun x hx => absurd hx (by simp)
      change cb' ∈ e.queue at hcb'
      rw [hqueue, List.mem_append, List.mem_singleton] at hcb'
      refine hcb'.imp_right ?_
      rintro rfl
      rcases hcall with ⟨d, message, hcall, rfl⟩ | ⟨d, hcall, rfl⟩
      · exact h d (.call hcall rfl)
      · exact h d (.call hcall rfl)
  | @disconnecting t d hcall =>
      refine h.of_call hc rfl rfl (fun _ hcb => Or.inl hcb) rfl fun x hx => ?_
      obtain rfl := Option.some.inj hx
      exact h d (.call hcall rfl)
  | looped hqueue hid hpc =>
      exact h.of_todo hc (fun _ hop => Or.inl hop) rfl (fun _ hcb => hqueue ▸ hcb) rfl
  | polled hrep hpc hpc' hqueue hid hfill =>
      exact h.of_mentions hc (fun _ hop => Or.inl hop)
        (fun d hd => Or.inr (hlinks.stage_of_reportable hrep hd))
        (fun _ hcb => Or.inl (hqueue ▸ hcb)) fun _ _ hcall => Or.inl hcall
  | @dispatched ref active hactive htodo =>
      refine h.of_mentions hc (fun op hop => Or.inr fun d hd => ?_)
        (fun d hd => Or.inl (by rw [hactive]; exact List.mem_cons_of_mem _ hd))
        (fun _ hcb => Or.inl hcb) fun _ _ hcall => Or.inl hcall
      obtain rfl := Op.eq_conn_of_event (event_of_mem_eventOps hop) hd
      exact h d (.active (by rw [hactive]; exact List.mem_cons_self))
  | dropped =>
      exact h.of_todo hc (fun _ hop => Or.inl (hpop _ hop)) rfl (fun _ hcb => hcb) rfl
  | connected htodo hfd hok =>
      obtain ⟨-, p, -, rfl⟩ := newConnection_ok hok
      exact h.of_todo hc (hfront [.user] _ (by simp [Op.conn]) hpop) rfl (fun _ hcb => hcb) rfl
  | @closed r op todo d s' htodo hop hok =>
      obtain ⟨-, -, p, -, rfl⟩ := handleClose_ok hok
      refine h.of_mentions hc (fun _ hop => Or.inl (hpop _ hop)) (fun _ hd => Or.inl hd)
        (fun cb hcb => ?_) fun _ _ hcall => Or.inl hcall
      rw [queue_queueInLoop, List.mem_append, List.mem_singleton] at hcb
      refine hcb.imp_right ?_
      rintro rfl
      have hmem : op ∈ s.todo := htodo ▸ List.mem_cons_self
      refine h d (.todo hmem ?_)
      rcases hop with rfl | ⟨rfl, -⟩ <;> rfl
  | read htodo =>
      exact h.of_todo hc (hfront [.user] _ (by simp [Op.conn]) hpop) rfl (fun _ hcb => hcb) rfl
  | @wrote r todo d s' htodo hw hok =>
      have hd := h d (.todo (htodo ▸ List.mem_cons_self) rfl)
      rcases handleWrite_ok (s := s.pop) hw hok with ⟨-, rfl⟩ | ⟨-, p, ops, hops, -, rfl⟩
      · exact h.of_todo hc (fun _ hop => Or.inl (hpop _ hop)) rfl (fun _ hcb => hcb) rfl
      · refine h.of_todo hc (hfront (ops ++ [.shutdownIfDisconnecting d]) _ ?_ hpop) rfl
          (fun _ hcb => hcb) rfl
        rcases hops with rfl | rfl <;> simpa [Op.conn] using hd
  | shutDrained | shutDirect =>
      exact h.of_todo hc (fun _ hop => Or.inl (hpop _ hop)) rfl (fun _ hcb => hcb) rfl
  | @completed r todo d htodo =>
      refine h.of_mentions hc (fun _ hop => Or.inl (hpop _ hop)) (fun _ hd => Or.inl hd)
        (fun cb hcb => ?_) fun _ _ hcall => Or.inl hcall
      rw [queue_queueInLoop, List.mem_append, List.mem_singleton] at hcb
      refine hcb.imp_right ?_
      rintro rfl
      exact h d (.todo (htodo ▸ List.mem_cons_self) rfl)
  | removed htodo hok =>
      obtain ⟨p, -, rfl⟩ := removeChannel_ok hok
      exact h.of_todo hc (fun _ hop => Or.inl (hpop _ hop)) rfl (fun _ hcb => hcb) rfl
  | @userSent d message nwrote todo s' htodo husable hstate hok =>
      obtain ⟨p, ops, hops, -, rfl⟩ := sendInLoop_ok hok
      refine h.of_todo hc (hfront ops _ ?_ fun _ hop => hop) rfl (fun _ hcb => hcb) rfl
      have hd := stage_ne_fresh_of_usable husable
      rcases hops with rfl | rfl
      · simp
      · simpa [Op.conn] using hd
  | @userShut d todo htodo husable hstate =>
      refine h.of_todo hc (hfront [.setDisconnecting d] _ ?_ fun _ hop => hop) rfl
        (fun _ hcb => hcb) rfl
      simpa [Op.conn] using stage_ne_fresh_of_usable husable
  | userRead | released =>
      exact h.of_todo hc (fun _ hop => Or.inl hop) rfl (fun _ hcb => hcb) rfl
  | @ran nwrote cb functors e s' htodo hqueue hpc hpc' hid hok =>
      have hcb : (s.hist cb.conn).stage ≠ .fresh := h _ (.queue (hqueue ▸ List.mem_cons_self) rfl)
      have hrest : ∀ cb' ∈ e.queue, cb' ∈ s.loop.queue := fun cb' hcb' =>
        hqueue ▸ List.mem_cons_of_mem _ hcb'
      cases cb with
      | sendInLoop t d message =>
          simp only [runFunctor] at hok
          split_ifs at hok
          obtain ⟨p, ops, hops, -, rfl⟩ := sendInLoop_ok (Option.some.inj hok)
          change (s.hist d).stage ≠ .fresh at hcb
          refine h.of_todo hc (hfront ops _ ?_ fun _ hop => hop) rfl hrest rfl
          rcases hops with rfl | rfl
          · simp
          · simpa [Op.conn] using hcb
      | shutdownInLoop d =>
          obtain rfl := Except.ok.inj (Option.some.inj hok)
          exact h.of_todo hc (fun _ hop => Or.inl hop) rfl hrest rfl
      | connectDestroyed d =>
          obtain ⟨-, p, -, rfl⟩ := connectDestroyed_ok (Option.some.inj hok)
          change (s.hist d).stage ≠ .fresh at hcb
          refine h.of_todo hc (hfront [.user, .removeChannel d] _ ?_ fun _ hop => hop) rfl hrest rfl
          simpa [Op.conn] using hcb
      | writeComplete d =>
          obtain rfl := Except.ok.inj (Option.some.inj hok)
          exact h.of_todo hc (hfront [.user] _ (by simp [Op.conn]) fun _ hop => hop) rfl hrest rfl

end Known

/-! ### Where the loop stands -/

/-- The functor, which waits, is run before the next poll. -/
def dueNow (pc : LoopPc (ServerFunctor T)) (cb : ServerFunctor T) : Prop :=
  match pc with
  | .handling => True
  | .draining => True
  | .running functors => cb ∈ functors
  | _ => False

/-- What may be left to do at this place of `loop()`. -/
def Phase (s : TcpServer T) : Prop :=
  match s.loop.pc with
  | .handling => ∀ c, .removeChannel c ∉ s.todo
  | .running _ => s.active = [] ∧ s.events = []
  | _ => s.active = [] ∧ s.todo = []

/-- The event that makes `handleEvent` call the close callback. -/
def hangsUp (s : TcpServer T) (c : ℕ) : Bool :=
  Mask.has (s.chan c).revents POLLHUP && !Mask.has (s.chan c).revents POLLIN

/-- Where the loop stands in the events that `poll` reported.  A connection is closed
once: in the list of handlers of its own event the close callback comes first. -/
structure Dispatching (s : TcpServer T) : Prop where
  phase : s.Phase
  due : ∀ c, .connectDestroyed c ∈ s.loop.queue → dueNow s.loop.pc (.connectDestroyed c)
  nodup : s.active.Nodup
  handled : ∀ op ∈ s.todo, ∀ ref ∈ s.active, op.event ≠ some ref
  registered : ∀ ref, ref ∈ s.active ∨ (∃ op ∈ s.todo, op.event = some ref) →
    (s.poller.chan ref).index ≠ .kNew
  unclosed : ∀ c, .conn c ∈ s.active → (s.hist c).stage ≠ .closed
  current : ∃ ref, s.events <:+ s.eventOps ref
  once : ∀ c, (s.hist c).stage = .closed →
    .handleClose c ∉ s.todo ∧ (.handleRead c ∈ s.todo → s.hangsUp c = true)

lemma start_dispatching (name : String) (acceptFd : ℕ) (wc : Bool) :
    (start name acceptFd wc : TcpServer T).Dispatching where
  phase := ⟨rfl, rfl⟩
  due c hc := by simp [start, EventLoop.queue, EventLoop.new, LoopPc.functors] at hc
  nodup := List.nodup_nil
  handled op hop := absurd hop (by simp [start])
  registered ref h := by simp [start] at h
  unclosed c hc := absurd hc (by simp [start])
  current := ⟨.acceptor, List.nil_suffix⟩
  once c hc := absurd hc (by simp [start, History.new])

/-- Handlers and callbacks only put minor things in front. -/
inductive Follows (todo : List Op) : List Op → Prop
  | same : Follows todo todo
  | front (ops : List Op) (hne : todo ≠ []) (hops : ∀ op ∈ ops, op.minor = true) :
      Follows todo (ops ++ todo)
  | pop (ops : List Op) (hne : todo ≠ []) (hops : ∀ op ∈ ops, op.minor = true) :
      Follows todo (ops ++ todo.tail)

lemma Follows.mem {todo todo' : List Op} (h : Follows todo todo') {op : Op} (hop : op ∈ todo') :
    op ∈ todo ∨ op.minor = true := by
  cases h with
  | same => exact Or.inl hop
  | front ops hne hops =>
      rcases List.mem_append.mp hop with hop | hop
      · exact Or.inr (hops op hop)
      · exact Or.inl hop
  | pop ops hne hops =>
      rcases List.mem_append.mp hop with hop | hop
      · exact Or.inr (hops op hop)
      · exact Or.inl (List.mem_of_mem_tail hop)

lemma Follows.eq_nil {todo' : List Op} (h : Follows [] todo') : todo' = [] := by
  cases h with
  | same => rfl
  | front ops hne => exact absurd rfl hne
  | pop ops hne => exact absurd rfl hne

/-- What is left of the events is an end of what there was. -/
lemma Follows.events {todo todo' : List Op} (h : Follows todo todo') :
    todo'.filter (fun op => op.event.isSome) <:+ todo.filter fun op => op.event.isSome := by
  have hminor : ∀ ops : List Op, (∀ op ∈ ops, op.minor = true) →
      ops.filter (fun op => op.event.isSome) = [] := by
    intro ops hops
    refine List.filter_eq_nil_iff.mpr fun op hop => ?_
    simp [Op.event_of_minor (hops op hop)]
  cases h with
  | same => exact List.suffix_rfl
  | front ops hne hops => rw [List.filter_append, hminor _ hops, List.nil_append]
  | pop ops hne hops =>
      rw [List.filter_append, hminor _ hops, List.nil_append]
      exact (List.tail_suffix todo).filter _

/-- The handlers of an event depend on what was reported. -/
lemma eventOps_congr (h : (s'.poller.chan ref).revents = (s.poller.chan ref).revents) :
    s'.eventOps ref = s.eventOps ref := by
  cases ref with
  | acceptor => simp only [eventOps, h]
  | conn c => simp only [eventOps, h]

/-- The rest of an event stays an end of its list of handlers. -/
lemma Dispatching.current_of_suffix (h : s.Dispatching) (htodo : s'.events <:+ s.events)
    (hrev : ∀ r, (s.poller.chan r).index ≠ .kNew →
      (s'.poller.chan r).revents = (s.poller.chan r).revents) :
    ∃ r, s'.events <:+ s'.eventOps r := by
  obtain ⟨r, hr⟩ := h.current
  cases hev : s'.events with
  | nil => exact ⟨.acceptor, List.nil_suffix⟩
  | cons op rest =>
      -- the channel whose event is handled is registered
      have hop : op ∈ s.events := htodo.subset (by rw [hev]; exact List.mem_cons_self)
      have hevent := event_of_mem_eventOps (hr.subset hop)
      have hreg := h.registered r (Or.inr ⟨op, (List.mem_filter.mp hop).1, hevent⟩)
      refine ⟨r, ?_⟩
      rw [eventOps_congr (hrev r hreg), ← hev]
      exact htodo.trans hr

lemma Phase.follows (h : s.Phase) (hpc : s'.loop.pc = s.loop.pc) (hactive : s'.active = s.active)
    (htodo : Follows s.todo s'.todo) : s'.Phase := by
  rw [Phase, hpc]
  rw [Phase] at h
  cases hs : s.loop.pc with
  | handling =>
      rw [hs] at h
      intro c hc
      rcases htodo.mem hc with hc | hc
      · exact h c hc
      · simp [Op.minor] at hc
  | running functors =>
      rw [hs] at h
      refine ⟨hactive.trans h.1, List.suffix_nil.mp ?_⟩
      rw [← h.2]
      exact htodo.events
  | outside | testing | polling | draining =>
      rw [hs] at h
      exact ⟨hactive.trans h.1, (h.2 ▸ htodo).eq_nil⟩

/-- **Work inside the handlers or functors** that closes nothing. -/
lemma Dispatching.keep (h : s.Dispatching) (hpc : s'.loop.pc = s.loop.pc)
    (hactive : s'.active = s.active) (htodo : Follows s.todo s'.todo)
    (hqueue : ∀ c, .connectDestroyed c ∈ s'.loop.queue → .connectDestroyed c ∈ s.loop.queue)
    (hchan : ∀ r, (s.poller.chan r).index ≠ .kNew → (s'.poller.chan r).index ≠ .kNew ∧
      (s'.poller.chan r).revents = (s.poller.chan r).revents)
    (hstage : ∀ c, (s'.hist c).stage = .closed → (s.hist c).stage = .closed) :
    s'.Dispatching := by
  have hmem : ∀ op ∈ s'.todo, op.event ≠ none → op ∈ s.todo := by
    intro op hop hev
    refine (htodo.mem hop).resolve_right fun hminor => ?_
    exact hev (Op.event_of_minor hminor)
  have hreg : ∀ r, r ∈ s'.active ∨ (∃ op ∈ s'.todo, op.event = some r) →
      (s.poller.chan r).index ≠ .kNew := by
    rintro r (hr | ⟨op, hop, hev⟩)
    · exact h.registered r (Or.inl (hactive ▸ hr))
    · exact h.registered r (Or.inr ⟨op, hmem op hop (by simp [hev]), hev⟩)
  refine ⟨h.phase.follows hpc hactive htodo, fun c hc => ?_, hactive ▸ h.nodup,
    fun op hop r hr hev => ?_, fun r hr => (hchan r (hreg r hr)).1, fun c hc => ?_,
    h.current_of_suffix htodo.events fun r hr => (hchan r hr).2, fun c hc => ?_⟩
  · rw [hpc]
    exact h.due c (hqueue c hc)
  · exact h.handled op (hmem op hop (by simp [hev])) r (hactive ▸ hr) hev
  · exact fun hclosed => h.unclosed c (hactive ▸ hc) (hstage c hclosed)
  · obtain ⟨hclose, hread⟩ := h.once c (hstage c hc)
    refine ⟨fun hmem' => hclose (hmem _ hmem' (by simp [Op.event])), fun hmem' => ?_⟩
    have hrev := (hchan (.conn c) (hreg _ (Or.inr ⟨_, hmem', rfl⟩))).2
    rw [hangsUp, chan, hrev]
    exact hread (hmem _ hmem' (by simp [Op.event]))

/-- Events are handled in the handlers only. -/
lemma Dispatching.handling_of_event (h : s.Dispatching) {op : Op} (hop : op ∈ s.todo)
    (hev : op.event ≠ none) : s.loop.pc = .handling := by
  have hphase := h.phase
  rw [Phase] at hphase
  cases hs : s.loop.pc with
  | handling => rfl
  | running functors =>
      rw [hs] at hphase
      have hmem : op ∈ s.events :=
        List.mem_filter.mpr ⟨hop, Option.isSome_iff_ne_none.mpr hev⟩
      simp [hphase.2] at hmem
  | outside | testing | polling | draining =>
      rw [hs] at hphase
      simp [hphase.2] at hop

/-- The loop goes on in `loop()`. -/
lemma Dispatching.goesOn {e : EventLoop (Thread T) (ServerFunctor T)} (h : s.Dispatching)
    (hqueue : e.queue = s.loop.queue) (hpc : GoesOn s e.pc) :
    Dispatching { s with loop := e } := by
  have hphase := h.phase
  have hdue := h.due
  rw [Phase] at hphase
  suffices hnew : Phase { s with loop := e } ∧
      ∀ c, .connectDestroyed c ∈ e.queue → dueNow e.pc (.connectDestroyed c) from
    ⟨hnew.1, hnew.2, h.nodup, h.handled, h.registered, h.unclosed, h.current, h.once⟩
  rw [hqueue]
  simp only [Phase]
  generalize e.pc = pc at hpc ⊢
  cases hpc with
  | same => exact ⟨hphase, hdue⟩
  | tested hpc hpc' =>
      rw [hpc] at hphase hdue
      rcases hpc' with rfl | rfl
      · exact ⟨hphase, fun c hc => (hdue c hc).elim⟩
      · exact ⟨hphase, fun c hc => (hdue c hc).elim⟩
  | handled hpc htodo hactive => exact ⟨⟨hactive, htodo⟩, fun _ _ => trivial⟩
  | swapped hpc =>
      rw [hpc] at hphase
      exact ⟨⟨hphase.1, by simp [events, hphase.2]⟩, fun c hc => hc⟩
  | finished hpc htodo =>
      rw [hpc] at hphase hdue
      exact ⟨⟨hphase.1, htodo⟩, fun c hc => absurd (hdue c hc) (by simp [dueNow])⟩

/-- A reported channel is in the epoll set. -/
lemma index_of_reportable {events : List (ChannelRef × Mask)} (hvalid : s.poller.Valid)
    (hrep : s.reportable events = true) {r : ChannelRef} (hr : r ∈ events.map Prod.fst) :
    (s.poller.chan r).index = .kAdded := by
  obtain ⟨x, hx, rfl⟩ := List.mem_map.mp hr
  simp only [reportable, decide_eq_true_eq] at hrep
  obtain ⟨⟨m, r⟩, hepoll, hr⟩ := Option.map_eq_some_iff.mp (hrep.2.2 x hx)
  obtain rfl : r = x.1 := hr
  exact (hvalid.watched _ m _ hepoll).2

/-- The next active channel is handled. -/
lemma Dispatching.dispatched {active : List ChannelRef} (h : s.Dispatching)
    (hactive : s.active = ref :: active) :
    Dispatching { s with active := active, todo := s.eventOps ref } := by
  have hpc : s.loop.pc = .handling := by
    have hphase := h.phase
    rw [Phase] at hphase
    cases hs : s.loop.pc <;> simp_all
  obtain ⟨hnotin, hnodup⟩ := List.nodup_cons.mp (hactive ▸ h.nodup)
  have hsub : ∀ r ∈ active, r ∈ s.active := fun r hr => hactive ▸ List.mem_cons_of_mem _ hr
  have hself : ref ∈ s.active := hactive ▸ List.mem_cons_self
  refine ⟨?_, h.due, hnodup, fun op hop r hr hev => ?_, fun r hr => ?_, fun c hc => ?_,
    ⟨ref, ?_⟩, fun c hc => ?_⟩
  · simp only [Phase, hpc]
    intro c hc
    exact absurd (event_of_mem_eventOps hc) (by simp [Op.event])
  · rw [event_of_mem_eventOps hop] at hev
    obtain rfl := Option.some.inj hev
    exact hnotin hr
  · rcases hr with hr | ⟨op, hop, hev⟩
    · exact h.registered r (Or.inl (hsub r hr))
    · rw [event_of_mem_eventOps hop] at hev
      obtain rfl := Option.some.inj hev
      exact h.registered _ (Or.inl hself)
  · exact h.unclosed c (hsub _ hc)
  · have hall : (s.eventOps ref).filter (fun op => op.event.isSome) = s.eventOps ref :=
      List.filter_eq_self.mpr fun op hop => by rw [event_of_mem_eventOps hop]; rfl
    change (s.eventOps ref).filter _ <:+ s.eventOps ref
    rw [hall]
  · -- a closed connection is not active
    have hne : ref ≠ .conn c := by
      rintro rfl
      exact h.unclosed c hself hc
    have habs : ∀ op, op.event = some (.conn c) → op ∉ s.eventOps ref := fun op hev hop =>
      hne (Option.some.inj ((event_of_mem_eventOps hop).symm.trans hev))
    exact ⟨habs _ rfl, fun hread => absurd hread (habs _ rfl)⟩

/-- In the list of handlers of an event the close callback comes first, and the read
callback once. -/
lemma eventOps_sublist (s : TcpServer T) (c : ℕ) :
    (s.eventOps (.conn c)).Sublist
      [.handleClose c, .handleError c, .handleRead c, .handleWrite c] := by
  have hpart : ∀ (b : Bool) (op : Op), (if b then [op] else []).Sublist [op] := by
    intro b op
    cases b <;> simp
  exact (((hpart _ _).append (hpart _ _)).append (hpart _ _)).append (hpart _ _)

lemma hangsUp_of_mem (h : .handleClose c ∈ s.eventOps (.conn c)) : s.hangsUp c = true := by
  simp only [eventOps, handleEvent, List.mem_append] at h
  rcases h with ((h | h) | h) | h
  · split_ifs at h with hup
    · exact hup
    · exact absurd h (by simp)
  all_goals
    split_ifs at h <;> simp at h

/-- Behind a handler that closes the connection there is no close callback, and a read
callback only behind the close callback of a hang-up. -/
lemma Dispatching.rest (h : s.Dispatching) {op : Op} {todo : List Op}
    (htodo : s.todo = op :: todo) (hop : op = .handleClose c ∨ op = .handleRead c) :
    .handleClose c ∉ todo ∧ (.handleRead c ∈ todo → s.hangsUp c = true) := by
  have hev : op.event = some (.conn c) := by rcases hop with rfl | rfl <;> rfl
  have hevents : s.events = op :: todo.filter fun op => op.event.isSome := by
    rw [events, htodo, List.filter_cons_of_pos (by simp [hev])]
  obtain ⟨r, hr⟩ := h.current
  rw [hevents] at hr
  obtain rfl : r = .conn c := by
    have hmem := event_of_mem_eventOps (hr.subset List.mem_cons_self)
    exact Option.some.inj (hmem.symm.trans hev)
  have hsub := hr.sublist.trans (eventOps_sublist s c)
  have hin : ∀ op' ∈ todo, op'.event = some (.conn c) →
      op' ∈ todo.filter fun op => op.event.isSome := fun op' hop' hev' =>
    List.mem_filter.mpr ⟨hop', by simp [hev']⟩
  have hnodup := hsub.nodup (by simp)
  rcases hop with rfl | rfl
  · refine ⟨fun hc => ?_, fun _ => hangsUp_of_mem (hr.subset List.mem_cons_self)⟩
    exact (List.nodup_cons.mp hnodup).1 (hin _ hc rfl)
  · -- behind the read callback there is at most the write callback
    have hlast : (todo.filter fun op => op.event.isSome).Sublist [.handleWrite c] := by
      simpa [List.cons_sublist_cons'] using hsub
    have hwrite := hlast.subset
    refine ⟨fun hc => ?_, fun hc => ?_⟩
    · exact absurd (hwrite (hin _ hc rfl)) (by simp)
    · exact absurd (hwrite (hin _ hc rfl)) (by simp)

/-- Outside the handlers no event is left. -/
lemma Dispatching.calm (h : s.Dispatching) (hpc : s.loop.pc ≠ .handling) :
    s.active = [] ∧ s.events = [] := by
  have hphase := h.phase
  rw [Phase] at hphase
  cases hs : s.loop.pc with
  | handling => exact absurd hs hpc
  | running functors =>
      rw [hs] at hphase
      exact hphase
  | outside | testing | polling | draining =>
      rw [hs] at hphase
      exact ⟨hphase.1, by simp [events, hphase.2]⟩

/-- `connectDestroyed` is run as a functor. -/
lemma Dispatching.running_of_removeChannel (h : s.Dispatching) (hc : .removeChannel c ∈ s.todo) :
    ∃ functors, s.loop.pc = .running functors := by
  have hphase := h.phase
  rw [Phase] at hphase
  cases hs : s.loop.pc with
  | handling =>
      rw [hs] at hphase
      exact absurd hc (hphase c)
  | running functors => exact ⟨functors, rfl⟩
  | outside | testing | polling | draining =>
      rw [hs] at hphase
      simp [hphase.2] at hc

/-- Work in the functors, which leaves no event behind. -/
lemma dispatching_of_running {functors : List (ServerFunctor T)}
    (hpc : s.loop.pc = .running functors) (hactive : s.active = []) (hevents : s.events = [])
    (hdue : ∀ c, .connectDestroyed c ∈ s.loop.queue → .connectDestroyed c ∈ functors) :
    s.Dispatching := by
  have hnone : ∀ op ∈ s.todo, op.event = none := by
    intro op hop
    simpa using List.filter_eq_nil_iff.mp hevents op hop
  refine ⟨by rw [Phase, hpc]; exact ⟨hactive, hevents⟩, fun c hc => ?_, by simp [hactive],
    fun op hop r hr => ?_, ?_, fun c hc => ?_, ⟨.acceptor, by simp [hevents]⟩, fun c _ => ⟨?_, ?_⟩⟩
  · rw [hpc]
    exact hdue c hc
  · simp [hactive] at hr
  · rintro r (hr | ⟨op, hop, hev⟩)
    · simp [hactive] at hr
    · exact absurd ((hnone op hop).symm.trans hev) (by simp)
  · simp [hactive] at hc
  · exact fun hc => absurd (hnone _ hc) (by simp [Op.event])
  · exact fun hc => absurd (hnone _ hc) (by simp [Op.event])

/-- A functor leaves the loop and the active channels alone. -/
lemma runFunctor_frame {nwrote : Option ℕ} {cb : ServerFunctor T}
    (h : s.runFunctor nwrote cb = some (.ok s')) :
    s'.loop = s.loop ∧ s'.active = s.active ∧
      ∃ ops, s'.todo = ops ++ s.todo ∧ ∀ op ∈ ops, op.event = none := by
  cases cb with
  | sendInLoop t d message =>
      simp only [runFunctor] at h
      split_ifs at h
      obtain ⟨p, ops, hops, -, rfl⟩ := sendInLoop_ok (Option.some.inj h)
      refine ⟨rfl, rfl, ops, rfl, ?_⟩
      rcases hops with rfl | rfl <;> simp [Op.event]
  | shutdownInLoop d =>
      obtain rfl := Except.ok.inj (Option.some.inj h)
      exact ⟨rfl, rfl, [], rfl, by simp⟩
  | connectDestroyed d =>
      obtain ⟨-, p, -, rfl⟩ := connectDestroyed_ok (Option.some.inj h)
      exact ⟨rfl, rfl, [.user, .removeChannel d], rfl, by simp [Op.event]⟩
  | writeComplete d =>
      obtain rfl := Except.ok.inj (Option.some.inj h)
      exact ⟨rfl, rfl, [.user], rfl, by simp [Op.event]⟩

variable [DecidableEq T]

/-- `poll` has returned: nothing was left to do, and nobody is closed. -/
lemma Dispatching.polled {events : List (ChannelRef × Mask)}
    {e : EventLoop (Thread T) (ServerFunctor T)} {p : EPoller ChannelRef} (h : s.Dispatching)
    (hlinks : s.Links) (hledger : s.Ledger) (hrep : s.reportable events = true)
    (hpc : s.loop.pc = .polling) (hpc' : e.pc = .handling)
    (hfill : s.poller.fillActiveChannels events = .ok p) :
    Dispatching { s with loop := e, poller := p, active := events.map Prod.fst } := by
  have hphase := h.phase
  rw [Phase, hpc] at hphase
  have htodo : s.todo = [] := hphase.2
  have hreports := EPoller.fillActiveChannels_ok hfill
  refine ⟨?_, fun c hc => ?_, ?_, fun op hop => ?_, fun r hr => ?_, fun c hc hclosed => ?_, ?_,
    fun c hc => ?_⟩
  · simp [Phase, hpc', htodo]
  · simp only [hpc']
    trivial
  · simp only [reportable, decide_eq_true_eq] at hrep
    refine List.Nodup.of_map (fun r => (s.poller.chan r).fd) ?_
    simpa [Function.comp_def] using hrep.2.1
  · simp [htodo] at hop
  · simp only [htodo, List.not_mem_nil, false_and, exists_false, or_false] at hr
    rw [(hreports.chan r).2.1, index_of_reportable hlinks.valid hrep hr]
    simp
  · -- a closed connection has its `connectDestroyed` in the queue, which is empty of them
    have hcount := hledger.destroy c
    rw [if_pos hclosed] at hcount
    have hmem := h.due c (List.count_pos_iff.mp (by omega))
    rw [hpc] at hmem
    exact hmem
  · exact ⟨.acceptor, by simp [TcpServer.events, htodo]⟩
  · simp [htodo]

/-- A connection is closed, in the handlers of its own event. -/
lemma Dispatching.closed {op : Op} {todo : List Op} (h : s.Dispatching) (hlinks : s.Links)
    (htodo : s.todo = op :: todo) (hop : op = .handleClose c ∨ op = .handleRead c)
    (hok : s.pop.handleClose c = .ok s') : s'.Dispatching := by
  obtain ⟨-, -, p, hp, rfl⟩ := handleClose_ok hok
  have hchan := fun r => EPoller.changeEvents_chan (d := r) hlinks.valid hp
  have hev : op.event = some (.conn c) := by rcases hop with rfl | rfl <;> rfl
  have hmem : op ∈ s.todo := htodo ▸ List.mem_cons_self
  have hpc := h.handling_of_event hmem (by simp [hev])
  have hrest := h.rest htodo hop
  have htail : ∀ op' ∈ s.todo.tail, op' ∈ s.todo := fun _ => List.mem_of_mem_tail
  have hpop : Follows s.todo s.todo.tail := by
    simpa using Follows.pop [] (by simp [htodo]) (by simp)
  have hreg : ∀ r, r ∈ s.active ∨ (∃ op ∈ s.todo.tail, op.event = some r) →
      (s.poller.chan r).index ≠ .kNew := by
    rintro r (hr | ⟨op', hop', hev'⟩)
    · exact h.registered r (Or.inl hr)
    · exact h.registered r (Or.inr ⟨op', htail op' hop', hev'⟩)
  have hself := h.registered (.conn c) (Or.inr ⟨op, hmem, hev⟩)
  refine ⟨?_, fun d _ => ?_, h.nodup, fun op' hop' => h.handled op' (htail op' hop'),
    fun r hr => (hchan r (hreg r hr)).1, fun d hd => ?_,
    h.current_of_suffix hpop.events fun r hr => (hchan r hr).2, fun d hd => ?_⟩
  · have hphase : s.pop.Phase := h.phase.follows rfl rfl hpop
    simp only [Phase, pop, hpc] at hphase
    simpa only [Phase, queueInLoop, EventLoop.push, pop, hpc] using hphase
  · simp only [queueInLoop, EventLoop.push, pop, hpc]
    trivial
  · -- the channel that is handled is no longer active
    have hdc : d ≠ c := by
      rintro rfl
      exact h.handled op hmem _ hd hev
    simpa [pop, hdc] using h.unclosed d hd
  · by_cases hdc : d = c
    · subst hdc
      rw [hangsUp, chan, (hchan _ hself).2]
      simpa [pop, htodo, hangsUp, chan] using hrest
    · obtain ⟨hclose, hread⟩ := h.once d (by simpa [pop, hdc] using hd)
      refine ⟨fun hc => hclose (htail _ hc), fun hc => ?_⟩
      rw [hangsUp, chan, (hchan _ (hreg _ (Or.inr ⟨_, hc, rfl⟩))).2]
      exact hread (htail _ hc)

/-- A functor of the batch is run. -/
lemma Dispatching.ran {nwrote : Option ℕ} {cb : ServerFunctor T}
    {functors : List (ServerFunctor T)} {e : EventLoop (Thread T) (ServerFunctor T)}
    (h : s.Dispatching) (hledger : s.Ledger) (htodo : s.todo = [])
    (hqueue : s.loop.queue = cb :: e.queue) (hpc : s.loop.pc = .running (cb :: functors))
    (hpc' : e.pc = .running functors)
    (hok : runFunctor { s with loop := e } nwrote cb = some (.ok s')) : s'.Dispatching := by
  obtain ⟨hloop, hactive, ops, htodo', hops⟩ := runFunctor_frame hok
  have hcalm := h.calm (by simp [hpc])
  change s'.loop = e at hloop
  refine dispatching_of_running (hloop ▸ hpc') (hactive.trans hcalm.1) ?_ fun c hc => ?_
  · rw [events, htodo', List.filter_append, List.filter_eq_nil_iff.mpr]
    · simp [htodo]
    · intro op hop
      simp [hops op hop]
  · rw [hloop] at hc
    have hdue := h.due c (hqueue ▸ List.mem_cons_of_mem _ hc)
    rw [hpc] at hdue
    refine (List.mem_cons.mp hdue).resolve_left ?_
    -- there is one `connectDestroyed` of `c` at most
    rintro rfl
    have hcount := hledger.destroy c
    rw [hqueue, List.count_cons_self] at hcount
    have hpos := List.count_pos_iff.mpr hc
    split_ifs at hcount
    omega

/-- **Every step keeps the dispatch in order.** -/
theorem Dispatching.move {l : Label T} (h : s.Dispatching) (hlinks : s.Links) (hledger : s.Ledger)
    (hm : Move s l s') : s'.Dispatching := by
  have hsame : ∀ r, (s.poller.chan r).index ≠ .kNew → (s.poller.chan r).index ≠ .kNew ∧
      (s.poller.chan r).revents = (s.poller.chan r).revents := fun r hr => ⟨hr, rfl⟩
  cases hm with
  | refused => exact h
  | accepted =>
      exact h.keep rfl rfl .same (fun _ hc => hc) hsame
        fun c hc => (stage_accept s _ _ _ c).symm.trans hc
  | checked => exact h.keep rfl rfl .same (fun _ hc => hc) hsame fun _ hc => hc
  | @pushed t cb e hcall hqueue hpc hid =>
      refine h.keep hpc rfl .same (fun c hc => ?_) hsame fun _ hc => hc
      change _ ∈ e.queue at hc
      rw [hqueue] at hc
      rcases hcall with ⟨d, message, -, rfl⟩ | ⟨d, -, rfl⟩
      · simpa using hc
      · simpa using hc
  | @disconnecting t d =>
      exact h.keep rfl rfl .same (fun _ hc => hc) hsame
        fun c hc => (stage_setDisconnecting s d c).symm.trans hc
  | looped hqueue hid hpc => exact h.goesOn hqueue hpc
  | polled hrep hpc hpc' hqueue hid hfill =>
      exact h.polled hlinks hledger hrep hpc hpc' hfill
  | dispatched hactive htodo => exact h.dispatched hactive
  | dropped htodo =>
      exact h.keep rfl rfl (.pop [] (by simp [htodo]) (by simp)) (fun _ hc => hc) hsame
        fun _ hc => hc
  | @connected r todo sockfd s' htodo hfd hok =>
      obtain ⟨-, p, hp, rfl⟩ := newConnection_ok hok
      have hfresh := (hlinks.linked _).new ((hledger.ids _).mpr (Or.inr le_rfl))
      have hvalid := hlinks.valid.newChannel hfresh sockfd
      refine h.keep rfl rfl (.pop [.user] (by simp [htodo]) (by simp [Op.minor]))
        (fun _ hc => hc) (fun r hr => ?_) fun c hc => ?_
      · -- a registered channel is not the new one
        have hne : r ≠ .conn s.nextConnId := by
          rintro rfl
          exact hr hfresh
        have hold : (s.poller.newChannel (.conn s.nextConnId) sockfd).chan r = s.poller.chan r := by
          simp [EPoller.newChannel, hne]
        rw [← hold] at hr ⊢
        exact EPoller.changeEvents_chan hvalid hp hr
      · by_cases hd : c = s.nextConnId
        · subst hd
          simp [pop] at hc
        · simpa [pop, hd] using hc
  | closed htodo hop hok => exact h.closed hlinks htodo (by tauto) hok
  | read htodo =>
      exact h.keep rfl rfl (.pop [.user] (by simp [htodo]) (by simp [Op.minor]))
        (fun _ hc => hc) hsame fun _ hc => hc
  | @wrote r todo d s' htodo hw hok =>
      rcases handleWrite_ok (s := s.pop) hw hok with ⟨-, rfl⟩ | ⟨-, p, ops, hops, hp, rfl⟩
      · exact h.keep rfl rfl (.pop [] (by simp [htodo]) (by simp)) (fun _ hc => hc) hsame
          fun _ hc => hc
      · refine h.keep rfl rfl (.pop (ops ++ [.shutdownIfDisconnecting d]) (by simp [htodo])
          ?_) (fun _ hc => hc) (fun r => EPoller.changeEvents_chan hlinks.valid hp) fun _ hc => hc
        rcases hops with rfl | rfl <;> simp [Op.minor]
  | shutDrained htodo =>
      exact h.keep rfl rfl (.pop [] (by simp [htodo]) (by simp)) (fun _ hc => hc) hsame
        fun _ hc => hc
  | completed htodo =>
      refine h.keep rfl rfl (.pop [] (by simp [htodo]) (by simp)) (fun c hc => ?_) hsame
        fun _ hc => hc
      rw [queue_queueInLoop] at hc
      simpa [pop] using hc
  | @shutDirect r todo d htodo =>
      exact h.keep rfl rfl (.pop [] (by simp [htodo]) (by simp)) (fun _ hc => hc) hsame
        fun c hc => (stage_setDisconnecting s.pop d c).symm.trans hc
  | @removed r todo d s' htodo hok =>
      obtain ⟨p, -, rfl⟩ := removeChannel_ok hok
      obtain ⟨functors, hpc⟩ := h.running_of_removeChannel (htodo ▸ List.mem_cons_self)
      obtain ⟨hactive, hevents⟩ := h.calm (by simp [hpc])
      refine dispatching_of_running hpc hactive ?_ fun c hc => ?_
      · rw [events, htodo, List.filter_cons_of_neg (by simp [Op.event])] at hevents
        simpa [events, pop, htodo] using hevents
      · have hdue := h.due c hc
        rwa [hpc] at hdue
  | @userSent d message nwrote todo s' htodo husable hstate hok =>
      have hstage := stage_sendInLoop hok
      obtain ⟨p, ops, hops, hp, rfl⟩ := sendInLoop_ok hok
      refine h.keep rfl rfl (.front ops (by simp [htodo]) ?_) (fun _ hc => hc) ?_
        fun c hc => ?_
      · rcases hops with rfl | rfl <;> simp [Op.minor]
      · rcases hp with ⟨-, hp⟩ | ⟨-, rfl⟩
        · exact fun r => EPoller.changeEvents_chan hlinks.valid hp
        · exact hsame
      · rw [hstage, stage_accept] at hc
        exact hc
  | @userShut d todo htodo =>
      exact h.keep rfl rfl (.front [.setDisconnecting d] (by simp [htodo])
        (by simp [Op.minor])) (fun _ hc => hc) hsame fun _ hc => hc
  | userRead => exact h.keep rfl rfl .same (fun _ hc => hc) hsame fun _ hc => hc
  | ran htodo hqueue hpc hpc' hid hok => exact h.ran hledger htodo hqueue hpc hpc' hok
  | @released d hstage =>
      refine h.keep rfl rfl .same (fun _ hc => hc) hsame fun c hc => ?_
      by_cases hd : c = d
      · subst hd
        simp [setStage, setHist] at hc
      · simpa [setStage, setHist, hd] using hc

/-! ### Every reachable state -/

/-- What holds in every reachable state of a server, whatever the other threads, the
kernel and the user do. -/
structure Sane (s : TcpServer T) : Prop where
  ledger : s.Ledger
  links : s.Links
  known : s.Known
  dispatching : s.Dispatching

/-- While an event is handled no connection is inside `connectDestroyed`. -/
lemma Sane.stage_of_event (h : s.Sane) {op : Op} (hop : op ∈ s.todo)
    (hev : op.event = some (.conn c)) :
    (s.hist c).stage ≠ .fresh ∧ (s.hist c).stage ≠ .destroying := by
  refine ⟨h.known c (.todo hop (Op.conn_of_event hev)), fun hd => ?_⟩
  have hcount := h.ledger.remove c
  rw [if_pos hd] at hcount
  have hmem : .removeChannel c ∈ s.todo := List.count_pos_iff.mp (by omega)
  obtain ⟨functors, hpc⟩ := h.dispatching.running_of_removeChannel hmem
  exact absurd ((h.dispatching.handling_of_event hop (by simp [hev])).symm.trans hpc) (by simp)

/-- **Every step that succeeds keeps a server sane.** -/
theorem Sane.next {l : Label T} (h : s.Sane) (hnext : s.next l = some s') : s'.Sane := by
  have hm := move_of_next h.ledger.threadId hnext
  refine ⟨h.ledger.move ?_ hm, h.links.move h.ledger ?_ ?_ hm, h.known.move h.links hm,
    h.dispatching.move h.links h.ledger hm⟩
  · intro op todo c htodo hop
    refine (h.stage_of_event (htodo ▸ List.mem_cons_self) ?_).1
    rcases hop with rfl | rfl <;> rfl
  · intro op todo c htodo hop
    refine h.stage_of_event (htodo ▸ List.mem_cons_self) ?_
    rcases hop with rfl | rfl | rfl <;> rfl
  · exact fun t c message hcb => h.known c (.queue hcb rfl)

lemma start_sane (name : String) (acceptFd : ℕ) (wc : Bool) :
    (start name acceptFd wc : TcpServer T).Sane :=
  ⟨start_ledger name acceptFd wc, start_links name acceptFd wc, start_known name acceptFd wc,
    start_dispatching name acceptFd wc⟩

theorem sane_of_reaches {ok : TcpServer T → Label T → Prop} {name : String} {acceptFd : ℕ}
    {wc : Bool} (h : Reaches ok (start name acceptFd wc) s) : s.Sane :=
  h.invariant (fun _ _ _ hs _ hnext => hs.next hnext) (start_sane name acceptFd wc)

end TcpServer

end Tractor
