import Tractor.Net.Steps

/-!
Who holds a connection.

A connection that was established is held by `connections_` until it is closed, then by
its queued `connectDestroyed`, then by the functor while it runs.  `Ledger` says so for
each stage of a connection's life, with the number of calls of `closeCallback_`.

* `connName_injective`: connections have distinct names.
* `Ledger.move`: every step that succeeds keeps the ledger.
-/

namespace Tractor

open Library

namespace TcpServer

variable {T : Type} {s s' : TcpServer T} {c d : ℕ}

lemma connName_injective (s : TcpServer T) : Function.Injective s.connName := by
  intro c d h
  have hcd : toString c = toString d := String.append_right_inj _ |>.mp h
  exact Nat.repr_inj.mp hcd

/-- A change at one place that keeps `g` there keeps it everywhere. -/
lemma apply_update_keep {α β γ : Type} [DecidableEq α] (f : α → β) {a : α} {b : β} (g : β → γ)
    (hg : g b = g (f a)) (x : α) : g (Function.update f a b x) = g (f x) := by
  by_cases hx : x = a
  · subst hx
    rw [Function.update_self, hg]
  · rw [Function.update_of_ne hx]

/-- What the new value at one place does not have was there before. -/
lemma of_update_ne {α β γ : Type} [DecidableEq α] (f : α → β) {a : α} {b : β} (g : β → γ) {v : γ}
    (hb : g b ≠ v) {x : α} (h : g (Function.update f a b x) = v) : g (f x) = v := by
  by_cases hx : x = a
  · subst hx
    exact absurd (by simpa using h) hb
  · simpa [hx] using h

lemma stage_sendInLoop {th : Thread T} {message : List Byte} {nwrote : Option ℕ}
    (hok : s.sendInLoop th c message nwrote = .ok s') (d : ℕ) :
    (s'.hist d).stage = (s.hist d).stage := by
  obtain ⟨p, ops, -, -, rfl⟩ := sendInLoop_ok hok
  exact apply_update_keep s.hist History.stage (by rfl) d

@[simp] lemma stage_setDisconnecting (s : TcpServer T) (c d : ℕ) :
    ((s.setDisconnecting c).hist d).stage = (s.hist d).stage :=
  apply_update_keep s.hist History.stage (by rfl) d

@[simp] lemma stage_accept [DecidableEq T] (s : TcpServer T) (th : Thread T) (c : ℕ)
    (message : List Byte) (d : ℕ) : ((s.accept th c message).hist d).stage = (s.hist d).stage :=
  apply_update_keep s.hist History.stage (by rfl) d

/-- Where each connection is held, and how often it was closed. -/
structure Ledger [DecidableEq T] (s : TcpServer T) : Prop where
  threadId : s.loop.threadId = .loop
  pos : 1 ≤ s.nextConnId
  ids : ∀ c, (s.hist c).stage = .fresh ↔ c = 0 ∨ s.nextConnId ≤ c
  named : ∀ c, (s.hist c).stage ≠ .fresh → (s.conns c).name = s.connName c
  connections : ∀ nm c, s.connections nm = some c ↔
    (s.hist c).stage = .established ∧ nm = s.connName c
  closeCalls : ∀ c, (s.hist c).closeCalls =
    if (s.hist c).stage = .fresh ∨ (s.hist c).stage = .established then 0 else 1
  destroy : ∀ c, s.loop.queue.count (.connectDestroyed c) =
    if (s.hist c).stage = .closed then 1 else 0
  remove : ∀ c, s.todo.count (.removeChannel c) =
    if (s.hist c).stage = .destroying then 1 else 0

variable [DecidableEq T]

lemma start_ledger (name : String) (acceptFd : ℕ) (wc : Bool) :
    (start name acceptFd wc : TcpServer T).Ledger where
  threadId := rfl
  pos := le_refl 1
  ids c := by
    simp only [start, History.new, true_iff]
    omega
  named c h := absurd rfl h
  connections nm c := by simp [start, History.new]
  closeCalls c := by simp [start, History.new]
  destroy c := by simp [start, History.new, EventLoop.queue, EventLoop.new, LoopPc.functors]
  remove c := by simp [start, History.new]

/-- What the ledger does not look at may change. -/
lemma Ledger.of_eq (h : s.Ledger) (hid : s'.loop.threadId = s.loop.threadId)
    (hnext : s'.nextConnId = s.nextConnId) (hname : s'.name = s.name)
    (hconns : s'.connections = s.connections)
    (hnames : ∀ c, (s'.conns c).name = (s.conns c).name)
    (hstage : ∀ c, (s'.hist c).stage = (s.hist c).stage)
    (hclose : ∀ c, (s'.hist c).closeCalls = (s.hist c).closeCalls)
    (hqueue : ∀ c, s'.loop.queue.count (.connectDestroyed c) =
      s.loop.queue.count (.connectDestroyed c))
    (htodo : ∀ c, s'.todo.count (.removeChannel c) = s.todo.count (.removeChannel c)) :
    s'.Ledger where
  threadId := hid.trans h.threadId
  pos := hnext ▸ h.pos
  ids c := by rw [hstage, hnext]; exact h.ids c
  named c hc := by
    rw [hstage] at hc
    rw [hnames, h.named c hc, connName, connName, hname]
  connections nm c := by
    rw [hconns, hstage, h.connections, connName, connName, hname]
  closeCalls c := by rw [hclose, hstage]; exact h.closeCalls c
  destroy c := by rw [hqueue, hstage]; exact h.destroy c
  remove c := by rw [htodo, hstage]; exact h.remove c

omit [DecidableEq T] in
lemma count_removeChannel_pop {op : Op} {todo : List Op} (htodo : s.todo = op :: todo)
    (hop : ∀ c, op ≠ .removeChannel c) (c : ℕ) :
    s.pop.todo.count (.removeChannel c) = s.todo.count (.removeChannel c) := by
  rw [pop, htodo, List.tail_cons, List.count_cons_of_ne (hop c)]

lemma queue_queueInLoop (s : TcpServer T) (cb : ServerFunctor T) :
    (s.queueInLoop cb).loop.queue = s.loop.queue ++ [cb] := by
  simp [queueInLoop, EventLoop.queue, EventLoop.push]

/-! ### The functions that move a connection on -/

lemma Ledger.newConnection {sockfd : ℕ} (h : s.Ledger)
    (hok : s.newConnection sockfd = .ok s') : s'.Ledger := by
  obtain ⟨-, p, -, rfl⟩ := newConnection_ok hok
  have hpos := h.pos
  have hfresh : (s.hist s.nextConnId).stage = .fresh := (h.ids _).mpr (Or.inr le_rfl)
  refine ⟨h.threadId, Nat.le_succ_of_le hpos, fun d => ?_, fun d hd => ?_, fun nm d => ?_,
    fun d => ?_, fun d => ?_, fun d => ?_⟩
  · by_cases hd : d = s.nextConnId
    · subst hd
      simp only [Function.update_self, reduceCtorEq, false_iff]
      omega
    · simp only [Function.update_of_ne hd, h.ids d]
      omega
  · by_cases hd' : d = s.nextConnId
    · subst hd'
      simp [TcpConnection.setState, TcpConnection.new, connName]
    · simp only [Function.update_of_ne hd'] at hd ⊢
      exact h.named d hd
  · change Function.update s.connections (s.connName s.nextConnId) (some s.nextConnId) nm = some d ↔
      (Function.update s.hist s.nextConnId _ d).stage = .established ∧ nm = s.connName d
    by_cases hnm : nm = s.connName s.nextConnId
    · -- the new name belongs to the new connection only
      subst hnm
      rw [Function.update_self]
      constructor
      · intro hd
        obtain rfl := Option.some.inj hd
        exact ⟨by simp, rfl⟩
      · rintro ⟨-, heq⟩
        rw [connName_injective s heq]
    · rw [Function.update_of_ne hnm, h.connections]
      by_cases hd : d = s.nextConnId
      · subst hd
        exact ⟨fun hd => absurd hd.2 hnm, fun hd => absurd hd.2 hnm⟩
      · rw [Function.update_of_ne hd]
  · by_cases hd : d = s.nextConnId
    · subst hd
      simpa [hfresh] using h.closeCalls s.nextConnId
    · simpa only [Function.update_of_ne hd] using h.closeCalls d
  · by_cases hd : d = s.nextConnId
    · subst hd
      simpa [hfresh] using h.destroy s.nextConnId
    · simpa only [Function.update_of_ne hd] using h.destroy d
  · change (Op.user :: s.todo).count (.removeChannel d) = _
    rw [List.count_cons_of_ne (by simp)]
    by_cases hd : d = s.nextConnId
    · subst hd
      simpa [hfresh] using h.remove s.nextConnId
    · simpa only [Function.update_of_ne hd] using h.remove d

/-- A connection that passes the assertion of `removeConnectionInLoop` was established. -/
lemma Ledger.established_of_connections (h : s.Ledger) (hc : (s.hist c).stage ≠ .fresh)
    (hname : s.connections (s.conns c).name ≠ none) : (s.hist c).stage = .established := by
  obtain ⟨d, hd⟩ := Option.ne_none_iff_exists'.mp hname
  obtain ⟨hstage, heq⟩ := (h.connections _ _).mp hd
  rw [h.named c hc] at heq
  rw [connName_injective s heq]
  exact hstage

lemma Ledger.handleClose (h : s.Ledger) (hc : (s.hist c).stage ≠ .fresh)
    (hok : s.handleClose c = .ok s') : s'.Ledger := by
  obtain ⟨-, hname, p, -, rfl⟩ := handleClose_ok hok
  have hstage := h.established_of_connections hc hname
  have hcname := h.named c hc
  refine ⟨h.threadId, h.pos, fun d => ?_, fun d hd => ?_, fun nm d => ?_, fun d => ?_,
    fun d => ?_, fun d => ?_⟩
  · by_cases hd : d = c
    · subst hd
      have := (h.ids d).not.mp hc
      simpa using this
    · simpa only [Function.update_of_ne hd] using h.ids d
  · by_cases hd' : d = c
    · subst hd'
      exact hcname
    · exact h.named d (by simpa only [Function.update_of_ne hd'] using hd)
  · change Function.update s.connections (s.conns c).name none nm = some d ↔
      (Function.update s.hist c _ d).stage = .established ∧ nm = s.connName d
    by_cases hnm : nm = (s.conns c).name
    · subst hnm
      rw [Function.update_self]
      refine ⟨fun hd => absurd hd (by simp), fun ⟨hd, heq⟩ => ?_⟩
      -- only `c` itself had this name
      rw [hcname] at heq
      obtain rfl := connName_injective s heq
      simp at hd
    · rw [Function.update_of_ne hnm, h.connections]
      by_cases hd : d = c
      · subst hd
        rw [← hcname]
        exact ⟨fun hd => absurd hd.2 hnm, fun hd => absurd hd.2 hnm⟩
      · rw [Function.update_of_ne hd]
  · by_cases hd : d = c
    · subst hd
      have := h.closeCalls d
      simp_all
    · simpa only [Function.update_of_ne hd] using h.closeCalls d
  · change (s.queueInLoop (.connectDestroyed c)).loop.queue.count (.connectDestroyed d) = _
    rw [queue_queueInLoop, List.count_append]
    by_cases hd : d = c
    · subst hd
      have := h.destroy d
      simp_all
    · have hne : ServerFunctor.connectDestroyed (T := T) c ≠ .connectDestroyed d := by
        simpa using Ne.symm hd
      simpa [Function.update_of_ne hd, List.count_singleton, hne] using h.destroy d
  · by_cases hd : d = c
    · subst hd
      have := h.remove d
      simp_all
    · simpa only [Function.update_of_ne hd] using h.remove d

/-- A connection that is no longer in `connections_` moves on to another such stage. -/
lemma Ledger.advance (h : s.Ledger) (c : ℕ) (st : Stage)
    (hc : (s.hist c).stage ≠ .fresh ∧ (s.hist c).stage ≠ .established)
    (hst : st ≠ .fresh ∧ st ≠ .established) (hid : s'.loop.threadId = s.loop.threadId)
    (hnext : s'.nextConnId = s.nextConnId) (hname : s'.name = s.name)
    (hconns : s'.connections = s.connections)
    (hnames : ∀ d, (s'.conns d).name = (s.conns d).name)
    (hhist : s'.hist = Function.update s.hist c { s.hist c with stage := st })
    (hqueue : ∀ d, s'.loop.queue.count (.connectDestroyed d) =
      if (s'.hist d).stage = .closed then 1 else 0)
    (htodo : ∀ d, s'.todo.count (.removeChannel d) =
      if (s'.hist d).stage = .destroying then 1 else 0) : s'.Ledger := by
  have hself : (s'.hist c).stage = st := by rw [hhist, Function.update_self]
  have hother : ∀ d, d ≠ c → s'.hist d = s.hist d := fun d hd => by
    rw [hhist, Function.update_of_ne hd]
  refine ⟨hid.trans h.threadId, hnext ▸ h.pos, fun d => ?_, fun d hd => ?_, fun nm d => ?_,
    fun d => ?_, hqueue, htodo⟩
  · rw [hnext, ← h.ids]
    by_cases hd : d = c
    · subst hd
      rw [hself]
      exact ⟨fun hf => absurd hf hst.1, fun hf => absurd hf hc.1⟩
    · rw [hother d hd]
  · rw [hnames, connName, hname]
    by_cases hd' : d = c
    · subst hd'
      exact h.named d hc.1
    · exact h.named d (by rwa [hother d hd'] at hd)
  · rw [hconns, h.connections, connName, connName, hname]
    by_cases hd : d = c
    · subst hd
      rw [hself]
      exact ⟨fun hd => absurd hd.1 hc.2, fun hd => absurd hd.1 hst.2⟩
    · rw [hother d hd]
  · by_cases hd : d = c
    · subst hd
      have := h.closeCalls d
      rw [hhist, Function.update_self]
      simp_all
    · rw [hother d hd]
      exact h.closeCalls d

/-- A `connectDestroyed` that waits belongs to a closed connection. -/
lemma Ledger.stage_of_queue (h : s.Ledger) (hmem : .connectDestroyed c ∈ s.loop.queue) :
    (s.hist c).stage = .closed := by
  by_contra hne
  have hcount := h.destroy c
  rw [if_neg hne] at hcount
  exact List.count_eq_zero.mp hcount hmem

/-- A removal that waits belongs to a connection inside `connectDestroyed`. -/
lemma Ledger.stage_of_todo (h : s.Ledger) (hmem : .removeChannel c ∈ s.todo) :
    (s.hist c).stage = .destroying := by
  by_contra hne
  have hcount := h.remove c
  rw [if_neg hne] at hcount
  exact List.count_eq_zero.mp hcount hmem

/-- A connection that was not closed is established. -/
lemma Ledger.established_of_closeCalls (h : s.Ledger) (hzero : (s.hist c).closeCalls = 0)
    (hfresh : (s.hist c).stage ≠ .fresh) : (s.hist c).stage = .established := by
  by_contra hne
  have hcalls := h.closeCalls c
  rw [if_neg (by tauto)] at hcalls
  omega

/-- `connectDestroyed` starts: its functor has left the queue and is being run. -/
lemma Ledger.connectDestroyed {e : EventLoop (Thread T) (ServerFunctor T)} (h : s.Ledger)
    (hid : e.threadId = s.loop.threadId) (hqueue : s.loop.queue = .connectDestroyed c :: e.queue)
    (hok : connectDestroyed { s with loop := e } c = .ok s') : s'.Ledger := by
  obtain ⟨-, p, -, rfl⟩ := connectDestroyed_ok hok
  have hstage := h.stage_of_queue (hqueue ▸ List.mem_cons_self)
  refine h.advance c .destroying ⟨by simp [hstage], by simp [hstage]⟩ (by simp)
    hid rfl rfl rfl (apply_update_keep s.conns TcpConnection.name rfl) rfl (fun d => ?_)
    fun d => ?_
  · have hcount := h.destroy d
    rw [hqueue] at hcount
    by_cases hd : d = c
    · subst hd
      simpa [hstage] using hcount
    · have hne : ServerFunctor.connectDestroyed (T := T) c ≠ .connectDestroyed d := by
        simpa using Ne.symm hd
      rw [List.count_cons_of_ne hne] at hcount
      simpa only [Function.update_of_ne hd] using hcount
  · have hcount := h.remove d
    change (Op.user :: .removeChannel c :: s.todo).count _ = _
    rw [List.count_cons_of_ne (by simp)]
    by_cases hd : d = c
    · subst hd
      simp_all
    · have hne : Op.removeChannel c ≠ .removeChannel d := by simpa using Ne.symm hd
      rw [List.count_cons_of_ne hne]
      simpa only [Function.update_of_ne hd] using hcount

/-- `connectDestroyed` ends. -/
lemma Ledger.removeChannel {todo : List Op} (h : s.Ledger)
    (htodo : s.todo = .removeChannel c :: todo) (hok : s.pop.removeChannel c = .ok s') :
    s'.Ledger := by
  obtain ⟨p, -, rfl⟩ := removeChannel_ok hok
  have hstage := h.stage_of_todo (htodo ▸ List.mem_cons_self)
  refine h.advance c .destroyed ⟨by simp [hstage], by simp [hstage]⟩ (by simp)
    rfl rfl rfl rfl (fun _ => rfl) rfl (fun d => ?_) fun d => ?_
  · have hcount := h.destroy d
    by_cases hd : d = c
    · subst hd
      simpa [pop, hstage] using hcount
    · simpa only [pop, Function.update_of_ne hd] using hcount
  · have hcount := h.remove d
    change s.todo.tail.count (.removeChannel d) = _
    rw [htodo] at hcount ⊢
    rw [List.tail_cons]
    by_cases hd : d = c
    · subst hd
      simpa [pop, hstage] using hcount
    · have hne : Op.removeChannel c ≠ .removeChannel d := by simpa using Ne.symm hd
      rw [List.count_cons_of_ne hne] at hcount
      simpa only [pop, Function.update_of_ne hd] using hcount

/-- A destroyed connection is released. -/
lemma Ledger.release (h : s.Ledger) (hstage : (s.hist c).stage = .destroyed)
    (p : EPoller ChannelRef) (openFds : ℕ → Bool) :
    (setStage { s with poller := p, openFds := openFds } c .released).Ledger := by
  refine h.advance c .released ⟨by simp [hstage], by simp [hstage]⟩ (by simp)
    rfl rfl rfl rfl (fun _ => rfl) rfl (fun d => ?_) fun d => ?_
  · have hcount := h.destroy d
    by_cases hd : d = c
    · subst hd
      simpa [setStage, setHist, hstage] using hcount
    · simpa only [setStage, setHist, Function.update_of_ne hd] using hcount
  · have hcount := h.remove d
    by_cases hd : d = c
    · subst hd
      simpa [setStage, setHist, hstage] using hcount
    · simpa only [setStage, setHist, Function.update_of_ne hd] using hcount

/-! ### Everything else leaves the ledger alone -/

lemma Ledger.pop {op : Op} {todo : List Op} (h : s.Ledger) (htodo : s.todo = op :: todo)
    (hop : ∀ c, op ≠ .removeChannel c) : s.pop.Ledger :=
  h.of_eq rfl rfl rfl rfl (fun _ => rfl) (fun _ => rfl) (fun _ => rfl) (fun _ => rfl)
    (count_removeChannel_pop htodo hop)

lemma Ledger.setConn (h : s.Ledger) {conn : TcpConnection} (hname : conn.name = (s.conns c).name) :
    (s.setConn c conn).Ledger :=
  h.of_eq rfl rfl rfl rfl (apply_update_keep _ _ hname) (fun _ => rfl) (fun _ => rfl)
    (fun _ => rfl) (fun _ => rfl)

lemma Ledger.doFirst {ops : List Op} (h : s.Ledger) (hops : ∀ c, .removeChannel c ∉ ops) :
    (s.doFirst ops).Ledger := by
  refine h.of_eq rfl rfl rfl rfl (fun _ => rfl) (fun _ => rfl) (fun _ => rfl) (fun _ => rfl)
    fun c => ?_
  rw [TcpServer.doFirst, List.count_append, List.count_eq_zero_of_not_mem (hops c), Nat.zero_add]

lemma Ledger.sendInLoop {th : Thread T} {message : List Byte} {nwrote : Option ℕ} (h : s.Ledger)
    (hok : s.sendInLoop th c message nwrote = .ok s') : s'.Ledger := by
  obtain ⟨p, ops, hops, -, rfl⟩ := sendInLoop_ok hok
  refine h.of_eq rfl rfl rfl rfl (apply_update_keep _ _ (by simp))
    (apply_update_keep s.hist History.stage rfl) (apply_update_keep s.hist History.closeCalls rfl)
    (fun _ => rfl) fun d => ?_
  rcases hops with rfl | rfl
  · rfl
  · exact List.count_cons_of_ne (by simp)

lemma Ledger.handleWrite {nwrote : Option ℕ} (h : s.Ledger) (hw : s.isWriting c = true)
    (hok : s.handleWrite c nwrote = .ok s') : s'.Ledger := by
  rcases handleWrite_ok hw hok with ⟨-, rfl⟩ | ⟨-, p, ops, hops, -, rfl⟩
  · exact h.setConn (by simp)
  · refine h.of_eq rfl rfl rfl rfl (apply_update_keep _ _ (by simp)) (fun _ => rfl)
      (fun _ => rfl) (fun _ => rfl) fun d => ?_
    rcases hops with rfl | rfl
    · exact List.count_cons_of_ne (by simp)
    · simp

lemma Ledger.setDisconnecting (h : s.Ledger) (c : ℕ) : (s.setDisconnecting c).Ledger :=
  h.of_eq rfl rfl rfl rfl (apply_update_keep s.conns TcpConnection.name rfl)
    (apply_update_keep s.hist History.stage rfl) (apply_update_keep s.hist History.closeCalls rfl)
    (fun _ => rfl) (fun _ => rfl)

lemma Ledger.shutdownInLoop (h : s.Ledger) (c : ℕ) : (s.shutdownInLoop c).Ledger :=
  h.setConn (by simp)

lemma Ledger.setCall (h : s.Ledger) (t : T) (call : Option Call) : (s.setCall t call).Ledger :=
  h.of_eq rfl rfl rfl rfl (fun _ => rfl) (fun _ => rfl) (fun _ => rfl) (fun _ => rfl)
    (fun _ => rfl)

lemma Ledger.accept (h : s.Ledger) (th : Thread T) (c : ℕ) (message : List Byte) :
    (s.accept th c message).Ledger :=
  h.of_eq rfl rfl rfl rfl (fun _ => rfl) (apply_update_keep s.hist History.stage rfl)
    (apply_update_keep s.hist History.closeCalls rfl) (fun _ => rfl) (fun _ => rfl)

/-- The loop moves on, and loses no `connectDestroyed`. -/
lemma Ledger.withLoop {e : EventLoop (Thread T) (ServerFunctor T)} (h : s.Ledger)
    (hid : e.threadId = s.loop.threadId)
    (hqueue : ∀ c, e.queue.count (.connectDestroyed c) =
      s.loop.queue.count (.connectDestroyed c)) : Ledger { s with loop := e } :=
  h.of_eq hid rfl rfl rfl (fun _ => rfl) (fun _ => rfl) (fun _ => rfl) hqueue (fun _ => rfl)

/-- **Every step keeps the ledger.**  Events are handled for connections that exist. -/
theorem Ledger.move {l : Label T} (h : s.Ledger)
    (hevent : ∀ op todo c, s.todo = op :: todo → op = .handleClose c ∨ op = .handleRead c →
      (s.hist c).stage ≠ .fresh) (hm : Move s l s') : s'.Ledger := by
  cases hm with
  | refused => exact h
  | accepted => exact (h.accept _ _ _).setCall _ _
  | checked => exact h.setCall _ _
  | pushed hcall hqueue hpc hid =>
      refine (h.withLoop hid fun d => ?_).setCall _ _
      rw [hqueue, List.count_append]
      rcases hcall with ⟨c, message, -, rfl⟩ | ⟨c, -, rfl⟩ <;> simp
  | disconnecting => exact (h.setDisconnecting _).setCall _ _
  | looped hqueue hid => exact h.withLoop hid fun _ => by rw [hqueue]
  | polled hrep hpc hpc' hqueue hid hfill =>
      exact h.of_eq hid rfl rfl rfl (fun _ => rfl) (fun _ => rfl) (fun _ => rfl)
        (fun _ => by rw [hqueue]) (fun _ => rfl)
  | @dispatched ref active hactive htodo =>
      refine h.of_eq rfl rfl rfl rfl (fun _ => rfl) (fun _ => rfl) (fun _ => rfl) (fun _ => rfl)
        fun c => ?_
      rw [htodo, List.count_nil]
      refine List.count_eq_zero_of_not_mem fun hmem => ?_
      cases ref with
      | acceptor => simp [eventOps, handleEvent] at hmem
      | conn d => simp [eventOps, handleEvent] at hmem
  | dropped htodo hop => exact h.pop htodo hop
  | connected htodo hfd hok => exact (h.pop htodo (by simp)).newConnection hok
  | @closed r op todo c s' htodo hop hok =>
      have hne : ∀ d, op ≠ .removeChannel d := by
        rcases hop with rfl | ⟨rfl, -⟩ <;> simp
      exact (h.pop htodo hne).handleClose (hevent op todo c htodo (by tauto)) hok
  | read htodo =>
      refine Ledger.doFirst ?_ (by simp)
      exact (h.pop htodo (by simp)).setConn rfl
  | wrote htodo hw hok => exact (h.pop htodo (by simp)).handleWrite hw hok
  | shutDrained htodo => exact (h.pop htodo (by simp)).shutdownInLoop _
  | completed htodo =>
      refine (h.pop htodo (by simp)).of_eq rfl rfl rfl rfl (fun _ => rfl) (fun _ => rfl)
        (fun _ => rfl) (fun d => ?_) (fun _ => rfl)
      rw [queue_queueInLoop, List.count_append]
      simp
  | shutDirect htodo => exact ((h.pop htodo (by simp)).setDisconnecting _).shutdownInLoop _
  | removed htodo hok => exact h.removeChannel htodo hok
  | userSent htodo husable hstate hok => exact (h.accept _ _ _).sendInLoop hok
  | userShut => exact h.doFirst (by simp)
  | userRead => exact h.setConn rfl
  | @ran nwrote cb functors e s' htodo hqueue hpc hpc' hid hok =>
      cases cb with
      | sendInLoop t c message =>
          simp only [runFunctor] at hok
          split_ifs at hok
          refine (h.withLoop hid fun d => ?_).sendInLoop (Option.some.inj hok)
          rw [hqueue, List.count_cons_of_ne (by simp)]
      | shutdownInLoop c =>
          obtain rfl := Except.ok.inj (Option.some.inj hok)
          refine (h.withLoop hid fun d => ?_).shutdownInLoop c
          rw [hqueue, List.count_cons_of_ne (by simp)]
      | connectDestroyed c => exact h.connectDestroyed hid hqueue (Option.some.inj hok)
      | writeComplete c =>
          obtain rfl := Except.ok.inj (Option.some.inj hok)
          refine (h.withLoop hid fun d => ?_).doFirst (by simp)
          rw [hqueue, List.count_cons_of_ne (by simp)]
  | released hstage => exact h.release hstage _ _

end TcpServer

end Tractor
