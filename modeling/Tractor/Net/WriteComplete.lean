import Tractor.Net.Shutdown

/-!
The calls that have the write-complete callback queued.

`sendInLoop` and `handleWrite_` decide that the callback is to be queued, and queue it next;
nothing in the loop's thread comes in between.

* `sendInLoop_complete_iff`, `handleWrite_complete_iff`: a call reports completion exactly if
  nothing is buffered behind it.
* `completions`: the write-complete functors that are queued or queued next.
* `Queues`: what a step does to them, and `Completing`: the functor that is queued next is
  the next thing to do, and nothing is buffered.
* `completions_sendsInLoop`, `completions_writesOut`: **a call has one functor queued exactly if
  it leaves every byte accepted by the socket.**
-/

namespace Tractor

open Library

namespace TcpConnection

variable {conn : TcpConnection} {isWriting : Bool} {message : List Byte} {nwrote : Option ℕ}

/-- A message is complete only if nothing is buffered, before it and behind it. -/
lemma sendInLoop_complete (h : (conn.sendInLoop isWriting message nwrote).2.1 = true) :
    (conn.sendInLoop isWriting message nwrote).1.outputBuffer = [] := by
  have hdirect : (!isWriting && conn.outputBuffer.isEmpty) = true := by
    by_contra hnot
    rw [Bool.not_eq_true] at hnot
    simp only [sendInLoop, hnot, Bool.false_eq_true, if_false, Bool.false_and] at h
    split_ifs at h
  have hempty : conn.outputBuffer = [] := by simp_all
  simp only [sendInLoop, hdirect, if_true, Bool.true_and] at h ⊢
  split_ifs at h ⊢ with hlt
  · simp [hlt] at h
  · exact hempty

/-- **A message is complete** if it leaves nothing buffered, unless it is empty. -/
lemma sendInLoop_complete_iff (h : isWriting = true ↔ conn.outputBuffer ≠ [])
    (hne : message ≠ []) :
    (conn.sendInLoop isWriting message nwrote).2.1 = true ↔
      (conn.sendInLoop isWriting message nwrote).1.outputBuffer = [] := by
  refine ⟨sendInLoop_complete, fun hnil => ?_⟩
  have hlen : 0 < message.length := List.length_pos_iff.mpr hne
  cases isWriting with
  | true =>
      -- the message goes behind what is buffered
      simp [sendInLoop, hlen, hne] at hnil
  | false =>
      have hempty : conn.outputBuffer = [] := by
        by_contra hbuffer
        exact absurd (h.mpr hbuffer) (by simp)
      simp only [sendInLoop, hempty, Bool.not_false, List.isEmpty_nil, Bool.and_self, if_true]
        at hnil ⊢
      cases nwrote with
      | none => simp [hlen, hne] at hnil
      | some n =>
          simp only [Option.getD_some] at hnil ⊢
          split_ifs at hnil ⊢ with hlt
          · simp at hnil
            omega
          · simp [hlt]

/-- A write event is complete exactly if it leaves nothing buffered. -/
lemma handleWrite_complete_iff (h : conn.outputBuffer ≠ []) :
    (conn.handleWrite nwrote).2 = true ↔ (conn.handleWrite nwrote).1.outputBuffer = [] := by
  rw [← not_iff_not, Bool.not_eq_true, handleWrite_drained conn nwrote h]

lemma handleWrite_complete (h : (conn.handleWrite nwrote).2 = true) :
    (conn.handleWrite nwrote).1.outputBuffer = [] := by
  match nwrote with
  | none => simp [handleWrite] at h
  | some 0 => simp [handleWrite] at h
  | some (n + 1) => simpa [handleWrite] using h

end TcpConnection

namespace TcpServer

variable {T : Type} {s s' : TcpServer T} {c d : ℕ}

/-- What a call of `sendInLoop` puts first. -/
lemma sendInLoop_todo {th : Thread T} {message : List Byte} {nwrote : Option ℕ}
    (h : s.sendInLoop th c message nwrote = .ok s') :
    s'.todo = (if ((s.conns c).sendInLoop (s.isWriting c) message nwrote).2.1 then
        s.writeCompleteOps c else []) ++ s.todo ∧
      s'.conns c = ((s.conns c).sendInLoop (s.isWriting c) message nwrote).1 ∧
      s'.loop = s.loop := by
  simp only [sendInLoop] at h
  by_cases henable : ((s.conns c).sendInLoop (s.isWriting c) message nwrote).2.2 = true
  · rw [if_pos henable] at h
    obtain ⟨p, -, rfl⟩ := withPoller_ok h
    exact ⟨rfl, Function.update_self _ _ _, rfl⟩
  · rw [if_neg henable] at h
    obtain rfl := Except.ok.inj h
    exact ⟨rfl, Function.update_self _ _ _, rfl⟩

/-- What `handleWrite_` puts first on a channel that is writing. -/
lemma handleWrite_todo {nwrote : Option ℕ} (hw : s.isWriting c = true)
    (h : s.handleWrite c nwrote = .ok s') :
    (∃ rest, (rest = s.todo ∨ rest = .shutdownIfDisconnecting c :: s.todo) ∧
        s'.todo = (if ((s.conns c).handleWrite nwrote).2 then s.writeCompleteOps c else []) ++
          rest) ∧
      s'.conns c = ((s.conns c).handleWrite nwrote).1 ∧ s'.loop = s.loop := by
  simp only [handleWrite, hw, if_true] at h
  split_ifs at h with hdrained
  · obtain ⟨p, -, rfl⟩ := withPoller_ok h
    rw [if_pos hdrained]
    exact ⟨⟨_, Or.inr rfl, List.append_assoc _ _ _⟩, Function.update_self _ _ _, rfl⟩
  · obtain rfl := Except.ok.inj h
    rw [if_neg hdrained]
    exact ⟨⟨_, Or.inl rfl, rfl⟩, Function.update_self _ _ _, rfl⟩

/-- A functor that is to be queued is queued next, and nothing is buffered. -/
structure Completing (s : TcpServer T) : Prop where
  next : ∀ c, .queueWriteComplete c ∉ s.todo.tail
  empty : ∀ c, s.todo.head? = some (.queueWriteComplete c) → (s.conns c).outputBuffer = []

lemma completing_of_not_mem (h : ∀ c, .queueWriteComplete c ∉ s.todo) : s.Completing where
  next c hc := h c (List.mem_of_mem_tail hc)
  empty c hc := absurd (List.mem_of_mem_head? hc) (h c)

lemma Completing.not_mem_of_head (h : s.Completing) {op : Op} (hop : op ≠ .queueWriteComplete c)
    (hhead : s.todo = [] ∨ s.todo.head? = some op) : .queueWriteComplete c ∉ s.todo := by
  rcases hhead with hnil | hhead
  · simp [hnil]
  · obtain ⟨todo, htodo⟩ := List.head?_eq_some_iff.mp hhead
    have hnext := h.next c
    simp only [htodo, List.tail_cons] at hnext
    simpa [htodo, Ne.symm hop] using hnext

lemma start_completing (name : String) (acceptFd : ℕ) (wc : Bool) :
    (start name acceptFd wc : TcpServer T).Completing :=
  completing_of_not_mem (by simp [start])

variable [DecidableEq T]

/-- The write-complete functors of the connection that are in the queue, or the next thing
to be put there. -/
def completions (s : TcpServer T) (c : ℕ) : ℕ :=
  s.loop.queue.count (.writeComplete c) + s.todo.count (.queueWriteComplete c)

/-- Every byte that `sendInLoop` was given so far the socket has accepted. -/
def AllAccepted (s : TcpServer T) (c : ℕ) : Prop :=
  (s.conns c).socket.accepted = bytesOf (s.hist c).handled

instance : Decidable (s.AllAccepted c) := inferInstanceAs (Decidable (_ = _))

/-- Everything is accepted exactly if nothing is buffered. -/
lemma Streamed.allAccepted_iff (h : s.Streamed c) :
    s.AllAccepted c ↔ (s.conns c).outputBuffer = [] := by
  rw [AllAccepted, ← h.bytes, eq_comm, List.append_right_eq_self]

/-- The connection and the message the step calls `sendInLoop` for. -/
def sendsInLoop (s : TcpServer T) : Label T → Option (ℕ × List Byte)
  | .userSend c message _ => if (s.conns c).state = .kConnected then some (c, message) else none
  | .run _ =>
      match s.loop.pc.functors with
      | .sendInLoop _ c message :: _ => some (c, message)
      | _ => none
  | _ => none

/-- The connection whose `handleWrite_` the step enters. -/
def writesOut (s : TcpServer T) : Label T → Option ℕ
  | .exec _ =>
      match s.todo with
      | .handleWrite c :: _ => some c
      | _ => none
  | _ => none

/-- What a step does to the functors that are queued and to those that are to be. -/
inductive Queues (s : TcpServer T) (l : Label T) (s' : TcpServer T) : Prop
  /-- Nothing is added to what there is to do. -/
  | kept (hqueue : ∀ c, s'.loop.queue.count (.writeComplete c) ≤
        s.loop.queue.count (.writeComplete c)) (htodo : s'.todo = s.todo)
      (hbuffer : ∀ c, (s'.conns c).outputBuffer = (s.conns c).outputBuffer)
  /-- There is no functor that is to be queued. -/
  | cleared (hqueue : ∀ c, s'.loop.queue.count (.writeComplete c) ≤
        s.loop.queue.count (.writeComplete c)) (htodo : ∀ c, .queueWriteComplete c ∉ s'.todo)
  /-- The functor is queued. -/
  | queued {d : ℕ} {todo : List Op} (htodo : s.todo = .queueWriteComplete d :: todo)
      (hs : s' = s.pop.queueInLoop (.writeComplete d))
  /-- A call may have it queued next. -/
  | called {d : ℕ} {complete : Bool} {rest : List Op}
      (hl : (s.sendsInLoop l).map Prod.fst = some d ∨ s.writesOut l = some d)
      (hqueue : ∀ c, s'.loop.queue.count (.writeComplete c) =
        s.loop.queue.count (.writeComplete c))
      (htodo : s'.todo = (if complete then s.writeCompleteOps d else []) ++ rest)
      (hrest : ∀ c, .queueWriteComplete c ∉ rest)
      (hempty : complete = true → (s'.conns d).outputBuffer = [])

/-- **Every step is one of these.** -/
theorem Completing.queues {l : Label T} (h : s.Completing) (hm : Move s l s') :
    Queues s l s' := by
  have hnext : ∀ c, .queueWriteComplete c ∉ s.pop.todo := h.next
  -- a step that only drops what it does
  have hpop : ∀ {s₁ : TcpServer T}, s₁.todo = s.todo.tail →
      (∀ c, s₁.loop.queue.count (.writeComplete c) ≤ s.loop.queue.count (.writeComplete c)) →
      Queues s l s₁ := fun htodo hqueue =>
    .cleared hqueue fun c hc => h.next c (htodo ▸ hc)
  cases hm with
  | refused | accepted | checked | released => exact .kept (fun _ => le_rfl) rfl fun _ => rfl
  | pushed hcall hqueue =>
      refine .kept (fun c => ?_) rfl fun _ => rfl
      rcases hcall with ⟨d, message, -, rfl⟩ | ⟨d, -, rfl⟩ <;> simp [setCall, hqueue]
  | @disconnecting t d =>
      exact .kept (fun _ => le_rfl) rfl
        (apply_update_keep s.conns TcpConnection.outputBuffer (by rfl))
  | looped hqueue => exact .kept (fun c => by simp [hqueue]) rfl fun _ => rfl
  | polled hrep hpc hpc' hqueue => exact .kept (fun c => by simp [hqueue]) rfl fun _ => rfl
  | @dispatched ref =>
      refine .cleared (fun _ => le_rfl) fun c => ?_
      cases ref <;> simp only [eventOps, handleEvent] <;> split_ifs <;> simp
  | dropped => exact hpop rfl fun _ => le_rfl
  | connected htodo hfd hok =>
      obtain ⟨-, p, -, rfl⟩ := newConnection_ok hok
      exact .cleared (fun _ => le_rfl) fun c => by simpa using hnext c
  | @closed r op todo d s' htodo hop hok =>
      obtain ⟨-, -, p, -, rfl⟩ := handleClose_ok hok
      refine hpop rfl fun c => ?_
      change List.count _ (s.pop.queueInLoop (.connectDestroyed d)).loop.queue ≤ _
      simp [queue_queueInLoop, TcpServer.pop]
  | read => exact .cleared (fun _ => le_rfl) fun c => by simpa [doFirst, setConn] using hnext c
  | @wrote r todo d s' htodo hw hok =>
      obtain ⟨⟨rest, hrest, htodo'⟩, hconn, hloop⟩ := handleWrite_todo (s := s.pop) hw hok
      refine .called (Or.inr (by simp [writesOut, htodo])) (fun c => by rw [hloop]; rfl) htodo'
        (fun c => ?_) fun hcomplete => ?_
      · rcases hrest with rfl | rfl <;> simpa using hnext c
      · rw [hconn]
        exact TcpConnection.handleWrite_complete hcomplete
  | shutDrained | shutDirect => exact hpop rfl fun _ => le_rfl
  | completed htodo => exact .queued htodo rfl
  | removed htodo hok =>
      obtain ⟨p, -, rfl⟩ := removeChannel_ok hok
      exact hpop rfl fun _ => le_rfl
  | @userSent d message nwrote todo s' htodo husable hstate hok =>
      obtain ⟨htodo', hconn, hloop⟩ := sendInLoop_todo hok
      refine .called (Or.inl (by simp [sendsInLoop, hstate])) (fun c => by rw [hloop]; rfl)
        htodo' (fun c => ?_) fun hcomplete => ?_
      · simpa [accept, setHist, htodo, TcpServer.pop] using hnext c
      · rw [hconn]
        exact TcpConnection.sendInLoop_complete hcomplete
  | userShut htodo =>
      exact .cleared (fun _ => le_rfl) fun c => by
        simpa [doFirst, htodo, TcpServer.pop] using hnext c
  | @userRead d n =>
      exact .kept (fun _ => le_rfl) rfl
        (apply_update_keep s.conns TcpConnection.outputBuffer (by rfl))
  | @ran nwrote cb functors e s' htodo hqueue hpc hpc' hid hok =>
      have hcount : ∀ c, e.queue.count (.writeComplete c) ≤
          s.loop.queue.count (.writeComplete c) := fun c => by
        rw [hqueue]
        exact List.count_le_count_cons
      cases cb with
      | sendInLoop t d message =>
          simp only [runFunctor] at hok
          split_ifs at hok
          obtain ⟨htodo', hconn, hloop⟩ := sendInLoop_todo (Option.some.inj hok)
          refine .called (Or.inl (by simp [sendsInLoop, hpc, LoopPc.functors]))
            (fun c => by simp [hloop, hqueue]) htodo' (fun c => by simp [htodo])
            fun hcomplete => ?_
          rw [hconn]
          exact TcpConnection.sendInLoop_complete hcomplete
      | shutdownInLoop d =>
          obtain rfl := Except.ok.inj (Option.some.inj hok)
          exact .cleared hcount fun c => by simp [shutdownInLoop, setConn, htodo]
      | connectDestroyed d =>
          obtain ⟨-, p, -, rfl⟩ := connectDestroyed_ok (Option.some.inj hok)
          exact .cleared hcount fun c => by simp [htodo]
      | writeComplete d =>
          obtain rfl := Except.ok.inj (Option.some.inj hok)
          exact .cleared hcount fun c => by simp [doFirst, htodo]

lemma Completing.of_queues {l : Label T} (h : s.Completing) (hq : Queues s l s') :
    s'.Completing := by
  cases hq with
  | kept _ htodo hbuffer =>
      exact ⟨by rw [htodo]; exact h.next, fun c hc => (hbuffer c).trans (h.empty c (htodo ▸ hc))⟩
  | cleared _ htodo => exact completing_of_not_mem htodo
  | queued htodo hs =>
      subst hs
      exact completing_of_not_mem h.next
  | @called d complete rest hl _ htodo hrest hempty =>
      rw [writeCompleteOps] at htodo
      split_ifs at htodo with hcomplete
      · -- the functor is to be queued next
        refine ⟨by simpa [htodo] using hrest, fun c hc => ?_⟩
        obtain rfl : d = c := by simpa [htodo] using hc
        exact hempty hcomplete
      · exact completing_of_not_mem (by simpa [htodo] using hrest)
      · exact completing_of_not_mem (by simpa [htodo] using hrest)

/-- A functor that comes into the queue was the next thing to do. -/
lemma Queues.head_of_lt {l : Label T} (hq : Queues s l s')
    (hlt : s.loop.queue.count (.writeComplete c) < s'.loop.queue.count (.writeComplete c)) :
    s.todo.head? = some (.queueWriteComplete c) ∧ s'.conns = s.conns := by
  cases hq with
  | kept hqueue | cleared hqueue => exact absurd (hqueue c) (not_le.mpr hlt)
  | @queued d todo htodo hs =>
      subst hs
      refine ⟨?_, rfl⟩
      by_contra hd
      have hd' : d ≠ c := fun hdc => hd (by rw [htodo, hdc]; rfl)
      rw [queue_queueInLoop] at hlt
      simp [TcpServer.pop, hd'] at hlt
  | called _ hqueue => exact absurd (hqueue c) hlt.ne'

lemma completing_of_reaches {ok : TcpServer T → Label T → Prop} {name : String} {acceptFd : ℕ}
    {wc : Bool} (h : Reaches ok (start name acceptFd wc) s) : s.Graceful ∧ s.Completing := by
  have hstart : Reaches ok (start name acceptFd wc) (start name acceptFd wc) := Reach.refl _
  refine Reach.invariant (I := fun s => s.Graceful ∧ s.Completing) ?_ h
    ⟨graceful_of_reaches hstart, start_completing name acceptFd wc⟩
  rintro s l s' ⟨hs, hcompleting⟩ - hnext
  have hm := move_of_next hs.sane.ledger.threadId hnext
  exact ⟨hs.next hnext, hcompleting.of_queues (hcompleting.queues hm)⟩

/-! ### Calls of the loop's thread -/

/-- The call of `sendInLoop` that a step makes. -/
lemma sendsInLoop_ok {l : Label T} {message : List Byte} (hl : s.sendsInLoop l = some (c, message))
    (h : s.next l = some s') :
    ∃ s₁ th nwrote, sendInLoop s₁ th c message nwrote = .ok s' ∧ s₁.conns = s.conns ∧
      s₁.poller = s.poller ∧ s₁.hasWriteComplete = s.hasWriteComplete ∧ s₁.todo = s.todo ∧
      (∀ d, s₁.loop.queue.count (.writeComplete d) = s.loop.queue.count (.writeComplete d)) ∧
      (s.todo = [] ∨ s.todo.head? = some .user) := by
  rw [next_eq_some] at h
  cases l with
  | userSend d m nwrote =>
      simp only [sendsInLoop] at hl
      split_ifs at hl with hstate
      obtain ⟨rfl, rfl⟩ := Prod.mk.inj (Option.some.inj hl)
      simp only [step] at h
      split_ifs at h with hguard
      exact ⟨_, _, _, Option.some.inj h, rfl, rfl, rfl, rfl, fun _ => rfl, Or.inr hguard.2.1⟩
  | run nwrote =>
      simp only [sendsInLoop] at hl
      split at hl
      · rename_i t d m functors hcb
        obtain ⟨rfl, rfl⟩ := Prod.mk.inj (Option.some.inj hl)
        simp only [step, hcb] at h
        split_ifs at h with htodo
        obtain ⟨s₁, hs₁, h⟩ := Option.bind_eq_some_iff.mp h
        obtain ⟨e, he, rfl⟩ := Option.map_eq_some_iff.mp hs₁
        simp only [runFunctor] at h
        split_ifs at h
        refine ⟨_, _, _, Option.some.inj h, rfl, rfl, rfl, rfl, fun d' => ?_, Or.inl htodo⟩
        simp [(EventLoop.step_run hcb he).1]
      · exact absurd hl (by simp)
  | _ => simp [sendsInLoop] at hl

/-- The call of `handleWrite_` that a step makes. -/
lemma writesOut_ok {l : Label T} (hl : s.writesOut l = some c) (h : s.next l = some s') :
    ∃ nwrote, s.pop.handleWrite c nwrote = .ok s' ∧ ∃ todo, s.todo = .handleWrite c :: todo := by
  rw [next_eq_some] at h
  cases l with
  | exec r =>
      simp only [writesOut] at hl
      split at hl
      · rename_i d todo htodo
        obtain rfl := Option.some.inj hl
        have hpop : ({ s with todo := todo } : TcpServer T) = s.pop := by simp [pop, htodo]
        simp only [step, htodo, hpop, execOp] at h
        split_ifs at h
        exact ⟨_, Option.some.inj h, todo, htodo⟩
      · exact absurd hl (by simp)
  | _ => simp [writesOut] at hl

/-- A complete call has one functor queued, if the callback is set. -/
lemma completions_called {s₁ : TcpServer T} {complete : Bool} {rest : List Op}
    (hqueue : s'.loop.queue.count (.writeComplete c) = s.loop.queue.count (.writeComplete c))
    (hs : s.todo.count (.queueWriteComplete c) = 0) (hrest : .queueWriteComplete c ∉ rest)
    (hwc : s₁.hasWriteComplete = s.hasWriteComplete)
    (htodo : s'.todo = (if complete then s₁.writeCompleteOps c else []) ++ rest) :
    s'.completions c = s.completions c +
      if s.hasWriteComplete = true ∧ complete = true then 1 else 0 := by
  have hops : (if complete then s₁.writeCompleteOps c else []).count (.queueWriteComplete c) =
      if s.hasWriteComplete = true ∧ complete = true then 1 else 0 := by
    rw [writeCompleteOps, hwc]
    cases complete <;> cases s.hasWriteComplete <;> simp
  rw [completions, completions, hqueue, hs, htodo, List.count_append, hops,
    List.count_eq_zero.mpr hrest, Nat.add_zero, Nat.add_zero]

/-- What a call of `sendInLoop` queues. -/
lemma completions_sendsInLoop {l : Label T} {message : List Byte} (h : s.Graceful)
    (hc : s.Completing) (hstage : (s.hist c).stage = .established)
    (hl : s.sendsInLoop l = some (c, message)) (hnext : s.next l = some s') :
    ∃ complete : Bool, s'.completions c = s.completions c +
        (if s.hasWriteComplete = true ∧ complete = true then 1 else 0) ∧
      (complete = true → (s'.conns c).outputBuffer = []) ∧
      (message ≠ [] → (s'.conns c).outputBuffer = [] → complete = true) := by
  obtain ⟨s₁, th, nwrote, hok, hconns, hpoller, hwc, htodo, hqueue, hhead⟩ :=
    sendsInLoop_ok hl hnext
  obtain ⟨htodo', hconn, hloop⟩ := sendInLoop_todo hok
  have hnot := hc.not_mem_of_head (c := c) (by simp) hhead
  have hwriting : s₁.isWriting c = true ↔ (s₁.conns c).outputBuffer ≠ [] := by
    have hdrained := h.drained c hstage
    rw [isWriting, hpoller, hconns]
    exact hdrained
  rw [htodo] at htodo'
  refine ⟨_, completions_called (by rw [hloop, hqueue]) (List.count_eq_zero.mpr hnot) hnot hwc
    htodo', fun hcomplete => ?_, fun hne hnil => ?_⟩
  · rw [hconn]
    exact TcpConnection.sendInLoop_complete hcomplete
  · exact (TcpConnection.sendInLoop_complete_iff hwriting hne).mpr (hconn ▸ hnil)

/-- What a call of `handleWrite_` queues. -/
lemma completions_writesOut {l : Label T} (h : s.Graceful) (hc : s.Completing)
    (hstage : (s.hist c).stage = .established) (hl : s.writesOut l = some c)
    (hne : (s.conns c).outputBuffer ≠ []) (hnext : s.next l = some s') :
    ∃ complete : Bool, s'.completions c = s.completions c +
        (if s.hasWriteComplete = true ∧ complete = true then 1 else 0) ∧
      (complete = true ↔ (s'.conns c).outputBuffer = []) := by
  obtain ⟨nwrote, hok, todo, htodo⟩ := writesOut_ok hl hnext
  have hw : s.pop.isWriting c = true := (h.drained c hstage).mpr hne
  obtain ⟨⟨rest, hrest, htodo'⟩, hconn, hloop⟩ := handleWrite_todo hw hok
  have hhead : s.todo.head? = some (.handleWrite c) := by simp [htodo]
  have hnot := hc.not_mem_of_head (c := c) (by simp) (Or.inr hhead)
  refine ⟨_, completions_called (by rw [hloop]; rfl) (List.count_eq_zero.mpr hnot) ?_ (by rfl)
    htodo', ?_⟩
  · have hpop : .queueWriteComplete c ∉ s.pop.todo := hc.next c
    rcases hrest with rfl | rfl <;> simpa using hpop
  · rw [hconn]
    exact TcpConnection.handleWrite_complete_iff hne

end TcpServer

end Tractor
