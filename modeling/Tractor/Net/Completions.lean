import Tractor.Net.Callbacks
import Tractor.Net.Effects
import Tractor.Net.WriteComplete

/-!
The write-complete callbacks that are to come, counted.

* `completes`, `callsComplete`: the connection whose callback a step queues, or calls.
* `completions_of_next`: **one more for each step that queues it, one less for each that calls
  it.**
* `enters_user_iff`: a step enters the code of the user exactly if it calls a callback.
* `queues_of_head`: a callback that is to be queued next is queued, by the next thing that is
  done.
* `write_complete_discipline`: **the channel is writing exactly while bytes are buffered, and
  a call queues one functor exactly if it leaves every byte accepted by the socket.**
-/

namespace Tractor

open Library

namespace TcpServer

variable {T : Type} [DecidableEq T] {s s' : TcpServer T} {c : ℕ}

omit [DecidableEq T] in
/-- The connection whose write-complete callback a step has queued. -/
def completes (s : TcpServer T) (l : Label T) : Option ℕ :=
  match s.connOp l with
  | some (c, op) =>
      if s.hasWriteComplete = true ∧ (op.run (s.conns c)).2.1 = true then some c else none
  | none => none

omit [DecidableEq T] in
/-- The connection whose write-complete callback a step calls. -/
def callsComplete (s : TcpServer T) : Label T → Option ℕ
  | .run _ =>
      match s.loop.pc.functors with
      | .writeComplete c :: _ => some c
      | _ => none
  | _ => none

omit [DecidableEq T] in
lemma completes_iff {l : Label T} {d : ℕ} {op : ConnOp} (h : s.connOp l = some (d, op)) :
    s.completes l = some c ↔
      s.hasWriteComplete = true ∧ (op.run (s.conns d)).2.1 = true ∧ d = c := by
  rw [completes, h]
  simp [and_assoc]

omit [DecidableEq T] in
lemma count_writeCompleteOps (s : TcpServer T) (c d : ℕ) :
    (s.writeCompleteOps d).count (.queueWriteComplete c) =
      if s.hasWriteComplete = true ∧ d = c then 1 else 0 := by
  rw [writeCompleteOps]
  cases s.hasWriteComplete with
  | true => by_cases hd : d = c <;> simp [hd]
  | false => simp

/-- What the next thing to do does to the functors. -/
lemma completions_of_exec {r : Results} {op : Op} {todo : List Op} (htodo : s.todo = op :: todo)
    (c : ℕ) :
    (s.queueAfter (.exec r)).count (.writeComplete c) +
        (s.todoAfter (.exec r)).count (.queueWriteComplete c) =
      s.completions c + if s.completes (.exec r) = some c then 1 else 0 := by
  rw [completions]
  cases op with
  | queueWriteComplete d =>
      simp only [queueAfter, todoAfter, completes, connOp, htodo, List.tail_cons]
      rw [List.count_append, List.count_cons, List.count_cons, List.count_nil]
      by_cases hd : d = c
      · simp [hd, Nat.add_right_comm _ 1, Nat.add_assoc]
      · simp [hd]
  | handleWrite d =>
      simp only [queueAfter, todoAfter, completes, connOp, htodo]
      by_cases hw : s.isWriting d = true
      · by_cases hdrained : ((s.conns d).handleWrite r.write).2 = true
        · rw [if_pos ⟨hw, hdrained⟩, List.count_append, List.count_append,
            count_writeCompleteOps]
          rcases eq_or_ne d c with rfl | hd
          · cases s.hasWriteComplete <;> (simp [hw, hdrained, ConnOp.run]; try omega)
          · simp [hw, hdrained, ConnOp.run, hd]
        · simp [hw, hdrained, ConnOp.run]
      · simp [hw]
  | accept =>
      cases hr : r.accept <;> simp [queueAfter, todoAfter, completes, connOp, htodo, hr, ConnOp.run]
  | handleRead d =>
      cases hr : r.read <;> simp [queueAfter, todoAfter, completes, connOp, htodo, hr, ConnOp.run]
  | shutdownIfDisconnecting d =>
      by_cases hstate : (s.conns d).state = .kDisconnecting <;>
        simp [queueAfter, todoAfter, completes, connOp, htodo, hstate, ConnOp.run]
  | handleClose | handleError | setDisconnecting | user | removeChannel =>
      simp [queueAfter, todoAfter, completes, connOp, htodo, ConnOp.run]

omit [DecidableEq T] in
/-- What a call of `sendInLoop` puts first. -/
lemma count_completeOps (s : TcpServer T) (c d : ℕ) (message : List Byte) (nwrote : Option ℕ) :
    (s.completeOps d message nwrote).count (.queueWriteComplete c) =
      if s.hasWriteComplete = true ∧
          ((s.conns d).sendInLoop (s.isWriting d) message nwrote).2.1 = true ∧ d = c then 1
      else 0 := by
  rw [completeOps]
  by_cases hcomplete : ((s.conns d).sendInLoop (s.isWriting d) message nwrote).2.1 = true
  · rw [if_pos hcomplete, count_writeCompleteOps]
    simp [hcomplete]
  · simp [hcomplete]

/-- **The functors are counted**: one more for each call that completes, one less for each that
is run. -/
theorem completions_of_next {l : Label T} (hid : s.loop.threadId = .loop)
    (h : s.next l = some s') (c : ℕ) :
    s'.completions c + (if s.callsComplete l = some c then 1 else 0) =
      s.completions c + if s.completes l = some c then 1 else 0 := by
  have heffects := effects_of_next hid h
  rw [completions, heffects.queue, heffects.todo]
  rw [next_eq_some] at h
  cases l with
  | exec r =>
      simp only [step] at h
      cases htodo : s.todo with
      | nil => simp [htodo] at h
      | cons op todo =>
          have hexec := completions_of_exec (r := r) htodo c
          simpa [callsComplete] using hexec
  | dispatch =>
      simp only [step] at h
      split at h
      · exact absurd h (by simp)
      · rename_i ref active hactive
        split_ifs at h with hguard
        have hnone : (s.eventOps ref).count (.queueWriteComplete c) = 0 := by
          refine List.count_eq_zero.mpr fun hmem => ?_
          exact absurd (event_of_mem_eventOps hmem) (by simp [Op.event])
        simp [queueAfter, todoAfter, callsComplete, completes, connOp, completions, hactive,
          hguard.2, hnone]
  | resume t =>
      cases hcall : s.calls t with
      | none => simp [queueAfter, todoAfter, callsComplete, completes, connOp, completions, hcall]
      | some call =>
          cases call <;> simp [queueAfter, todoAfter, callsComplete, completes, connOp,
            completions, hcall, ConnOp.run]
  | userSend d message nwrote =>
      by_cases hstate : (s.conns d).state = .kConnected
      · have hconn : s.connOp (.userSend d message nwrote) =
            some (d, .sendInLoop (s.isWriting d) message nwrote) := by simp [connOp, hstate]
        have hiff : s.completes (.userSend d message nwrote) = some c ↔
            s.hasWriteComplete = true ∧
              ((s.conns d).sendInLoop (s.isWriting d) message nwrote).2.1 = true ∧ d = c :=
          completes_iff hconn
        simp only [queueAfter, todoAfter, callsComplete, completions, hstate, if_true, hiff]
        rw [List.count_append, count_completeOps]
        simp only [reduceCtorEq, if_false]
        omega
      · simp [queueAfter, todoAfter, callsComplete, completes, connOp, completions, hstate]
  | userShutdown d =>
      by_cases hstate : (s.conns d).state = .kConnected <;>
        simp [queueAfter, todoAfter, callsComplete, completes, connOp, completions, hstate]
  | userReturn =>
      simp only [step] at h
      split_ifs at h with hguard
      obtain ⟨todo, htodo⟩ := List.head?_eq_some_iff.mp hguard.2
      simp [queueAfter, todoAfter, callsComplete, completes, connOp, completions, htodo]
  | run nwrote =>
      simp only [step] at h
      cases hcb : s.loop.pc.functors with
      | nil => simp [hcb] at h
      | cons cb functors =>
          have hqueue : s.loop.queue = cb :: (functors ++ s.loop.pendingFunctors) := by
            rw [EventLoop.queue, hcb, List.cons_append]
          cases cb with
          | sendInLoop t d message =>
              have hconn : s.connOp (.run nwrote) =
                  some (d, .sendInLoop (s.isWriting d) message nwrote) := by simp [connOp, hcb]
              have hiff : s.completes (.run nwrote) = some c ↔ s.hasWriteComplete = true ∧
                  ((s.conns d).sendInLoop (s.isWriting d) message nwrote).2.1 = true ∧ d = c :=
                completes_iff hconn
              simp only [queueAfter, todoAfter, callsComplete, completions, hcb, hiff]
              rw [List.count_append, count_completeOps, hqueue]
              simp only [List.tail_cons, List.count_cons_of_ne, ne_eq, reduceCtorEq,
                not_false_eq_true, if_false]
              omega
          | shutdownInLoop d =>
              simp [queueAfter, todoAfter, callsComplete, completes, connOp, completions, hcb,
                hqueue, ConnOp.run]
          | connectDestroyed d =>
              simp [queueAfter, todoAfter, callsComplete, completes, connOp, completions, hcb,
                hqueue, ConnOp.run]
          | writeComplete d =>
              by_cases hd : d = c <;>
                simp [queueAfter, todoAfter, callsComplete, completes, connOp, completions, hcb,
                  hqueue, hd, Nat.add_right_comm]
  | _ => simp [queueAfter, todoAfter, callsComplete, completes, connOp, completions, ConnOp.run]

omit [DecidableEq T] in
/-- No callback is put first to have a functor queued. -/
lemma count_user_completeOps (s : TcpServer T) (c : ℕ) (message : List Byte) (nwrote : Option ℕ) :
    (s.completeOps c message nwrote).count .user = 0 := by
  rw [completeOps, writeCompleteOps]
  split_ifs <;> simp

/-- **A step enters the code of the user** exactly if it calls a connection, message or
write-complete callback. -/
theorem enters_user_iff {l : Label T} (hid : s.loop.threadId = .loop) (h : s.next l = some s') :
    s.todo.count .user < s'.todo.count .user ↔
      (s.callback l s').isSome = true ∨ (s.callsComplete l).isSome = true := by
  rw [(effects_of_next hid h).todo]
  rw [next_eq_some] at h
  cases l with
  | exec r =>
      simp only [step] at h
      cases htodo : s.todo with
      | nil => simp [htodo] at h
      | cons op todo =>
          cases op with
          | accept =>
              cases hr : r.accept <;> simp [todoAfter, callback, callsComplete, htodo, hr]
          | handleRead c =>
              cases hr : r.read <;> simp [todoAfter, callback, callsComplete, htodo, hr]
          | handleWrite c =>
              simp only [todoAfter, callback, callsComplete, htodo]
              rw [writeCompleteOps]
              split_ifs <;> simp
          | user => simp [htodo, execOp] at h
          | _ => simp [todoAfter, callback, callsComplete, htodo]
  | dispatch =>
      simp only [step] at h
      split at h
      · exact absurd h (by simp)
      · rename_i ref active hactive
        have hnone : (s.eventOps ref).count .user = 0 := by
          refine List.count_eq_zero.mpr fun hmem => ?_
          exact absurd (event_of_mem_eventOps hmem) (by simp [Op.event])
        simp [todoAfter, callback, callsComplete, hactive, hnone]
  | userSend c message nwrote =>
      simp only [todoAfter, callback, callsComplete]
      split_ifs <;> simp [count_user_completeOps]
  | userShutdown c =>
      simp only [todoAfter, callback, callsComplete]
      split_ifs <;> simp
  | userReturn =>
      simp only [todoAfter, callback, callsComplete]
      simpa using (List.tail_sublist s.todo).count_le _
  | run nwrote =>
      simp only [todoAfter, callback, callsComplete]
      cases hcb : s.loop.pc.functors with
      | nil => simp
      | cons cb functors => cases cb <;> simp [count_user_completeOps]
  | _ => simp [todoAfter, callback, callsComplete]

omit [DecidableEq T] in
lemma sendsInLoop_of_connOp {l : Label T} {isWriting : Bool} {message : List Byte}
    {nwrote : Option ℕ} (h : s.connOp l = some (c, .sendInLoop isWriting message nwrote)) :
    s.sendsInLoop l = some (c, message) := by
  cases l with
  | exec r => grind [connOp, Option.map_eq_some_iff]
  | resume t => grind [connOp]
  | userSend d m n => grind [connOp, sendsInLoop]
  | run n => grind [connOp, sendsInLoop]
  | _ => simp [connOp] at h

omit [DecidableEq T] in
lemma writesOut_of_connOp {l : Label T} {nwrote : Option ℕ}
    (h : s.connOp l = some (c, .handleWrite nwrote)) : s.writesOut l = some c := by
  cases l with
  | exec r => grind [connOp, writesOut, Option.map_eq_some_iff]
  | resume t => grind [connOp]
  | userSend d m n => grind [connOp]
  | run n => grind [connOp]
  | _ => simp [connOp] at h

omit [DecidableEq T] in
/-- Only `sendInLoop` and `handleWrite_` complete. -/
lemma called_of_completes {l : Label T} (h : s.completes l = some c) :
    (∃ message, s.sendsInLoop l = some (c, message)) ∨ s.writesOut l = some c := by
  cases hconn : s.connOp l with
  | none => simp [completes, hconn] at h
  | some p =>
      obtain ⟨d, op⟩ := p
      obtain ⟨-, hcomplete, rfl⟩ := (completes_iff hconn).mp h
      cases op with
      | sendInLoop isWriting message nwrote =>
          exact Or.inl ⟨message, sendsInLoop_of_connOp hconn⟩
      | handleWrite nwrote => exact Or.inr (writesOut_of_connOp hconn)
      | _ => simp [ConnOp.run] at hcomplete

/-- **A callback that is to be queued is queued** by the next thing the loop's thread does. -/
theorem queues_of_head (hhead : s.todo.head? = some (.queueWriteComplete c)) (r : Results) :
    (s.ready = true → ∃ s', s.next (.exec r) = some s') ∧
      ∀ s', s.next (.exec r) = some s' → s'.todo = s.todo.tail ∧ s'.conns = s.conns ∧
        s'.loop.queue = s.loop.queue ++ [.writeComplete c] := by
  obtain ⟨todo, htodo⟩ := List.head?_eq_some_iff.mp hhead
  have hpop : ({ s with todo := todo } : TcpServer T) = s.pop := by simp [pop, htodo]
  have hstep : s.step (.exec r) =
      if s.ready then some (.ok (s.pop.queueInLoop (.writeComplete c))) else none := by
    simp [step, htodo, hpop, execOp]
  refine ⟨fun hready => ⟨_, next_eq_some.mpr (by rw [hstep, if_pos hready])⟩, fun s' hs' => ?_⟩
  rw [next_eq_some, hstep] at hs'
  split_ifs at hs' with hready
  obtain rfl := Except.ok.inj (Option.some.inj hs')
  exact ⟨rfl, rfl, queue_queueInLoop s.pop _⟩

/-- **Write interest and the write-complete callback.**  In every reachable state, for an
established connection: the channel is writing exactly while bytes are buffered; and a step
that calls `sendInLoop` with some bytes, or `handleWrite_` with bytes buffered, queues one
functor if it leaves every byte accepted by the socket and the callback is set, and none
otherwise.  An empty message queues at most one, and only while nothing is buffered.  No other
step queues one, and only running one takes it away.  A functor that is to be queued is the next
thing to do, goes to the end of the queue when that is done, and none comes into the queue while
bytes are buffered. -/
theorem write_complete_discipline {name : String} {acceptFd : ℕ} {wc : Bool}
    (h : Reaches (fun _ _ => True) (start name acceptFd wc) s)
    (hstage : (s.hist c).stage = .established) :
    (s.isWriting c = true ↔ (s.conns c).outputBuffer ≠ []) ∧
    (.queueWriteComplete c ∈ s.todo → s.todo.head? = some (.queueWriteComplete c)) ∧
    (s.todo.head? = some (.queueWriteComplete c) → ∀ r,
      (s.ready = true → ∃ s', s.next (.exec r) = some s') ∧
      ∀ s', s.next (.exec r) = some s' →
        s'.todo = s.todo.tail ∧ s'.loop.queue = s.loop.queue ++ [.writeComplete c] ∧
          (s'.conns c).outputBuffer = []) ∧
    ∀ l s', s.next l = some s' →
      (∀ message, s.sendsInLoop l = some (c, message) → message ≠ [] →
        s'.completions c = s.completions c +
          if s.hasWriteComplete = true ∧ s'.AllAccepted c then 1 else 0) ∧
      (s.sendsInLoop l = some (c, []) → s'.completions c = s.completions c ∨
        s'.completions c = s.completions c + 1 ∧ (s'.conns c).outputBuffer = []) ∧
      (s.writesOut l = some c → (s.conns c).outputBuffer ≠ [] →
        s'.completions c = s.completions c +
          if s.hasWriteComplete = true ∧ s'.AllAccepted c then 1 else 0) ∧
      ((∀ message, s.sendsInLoop l ≠ some (c, message)) → s.writesOut l ≠ some c →
        s'.completions c + (if s.callsComplete l = some c then 1 else 0) = s.completions c) ∧
      (s.loop.queue.count (.writeComplete c) < s'.loop.queue.count (.writeComplete c) →
        s.todo.head? = some (.queueWriteComplete c) ∧ (s'.conns c).outputBuffer = []) := by
  obtain ⟨hs, hc⟩ := completing_of_reaches h
  refine ⟨hs.drained c hstage, fun hmem => ?_, fun hhead r => ?_, fun l s' hnext => ?_⟩
  · cases htodo : s.todo with
    | nil => simp [htodo] at hmem
    | cons op todo =>
        have htail := hc.next c
        simp only [htodo, List.tail_cons, List.mem_cons] at htail hmem
        simp [hmem.resolve_right htail]
  · obtain ⟨hready, hexec⟩ := queues_of_head hhead r
    refine ⟨hready, fun s' hs' => ?_⟩
    obtain ⟨htodo, hconns, hqueue⟩ := hexec s' hs'
    exact ⟨htodo, hqueue, by rw [hconns]; exact hc.empty c hhead⟩
  · have hs' := hs.next hnext
    have hall : s'.AllAccepted c ↔ (s'.conns c).outputBuffer = [] :=
      (hs'.streamed c).allAccepted_iff
    have hq := hc.queues (move_of_next hs.sane.ledger.threadId hnext)
    refine ⟨fun message hl hne => ?_, fun hl => ?_, fun hl hne => ?_, fun hsend hwrite => ?_,
      fun hlt => ?_⟩
    · obtain ⟨complete, hcount, hempty, hcomplete⟩ := completions_sendsInLoop hs hc hstage hl hnext
      simpa only [hall, ← (⟨hempty, hcomplete hne⟩ : complete = true ↔ _)] using hcount
    · obtain ⟨complete, hcount, hempty, -⟩ := completions_sendsInLoop hs hc hstage hl hnext
      split_ifs at hcount with hqueued
      · exact Or.inr ⟨hcount, hempty hqueued.2⟩
      · exact Or.inl hcount
    · obtain ⟨complete, hcount, hiff⟩ := completions_writesOut hs hc hstage hl hne hnext
      simpa only [hall, ← hiff] using hcount
    · have hcount := completions_of_next hs.sane.ledger.threadId hnext c
      have hnone : s.completes l ≠ some c := fun hcompletes =>
        (called_of_completes hcompletes).elim (fun ⟨message, hl⟩ => hsend message hl) hwrite
      simpa [hnone] using hcount
    · obtain ⟨hhead, hconns⟩ := hq.head_of_lt hlt
      exact ⟨hhead, by rw [hconns]; exact hc.empty c hhead⟩

/-- The second byte of a message had to wait; the write event that sends it has one functor
queued, and the next thing that is done puts it into the queue. -/
theorem write_complete_discipline_drained : ∃ s s' s'' : TcpServer Unit,
    (s.isWriting 1 = true ↔ (s.conns 1).outputBuffer ≠ []) ∧
      (s.conns 1).outputBuffer = [2] ∧ s.next (.exec ⟨none, .error, some 1⟩) = some s' ∧
      s'.completions 1 = s.completions 1 + 1 ∧
      s'.next (.exec ⟨none, .error, none⟩) = some s'' ∧
      s''.loop.queue = s'.loop.queue ++ [.writeComplete 1] := by
  have hrun : ((exec next (fun _ _ => True) (start "s" 3 true)
      (acceptOne Unit ++ ([.send () 1 [1, 2], .resume (), .wakeup (.other ()), .poll [], .handled,
        .swap, .run (some 1), .finish, .test, .poll [(.conn 1, POLLOUT)], .dispatch] :
          List (Label Unit)))).bind fun s =>
      (s.next (.exec ⟨none, .error, some 1⟩)).map fun s' =>
        decide ((s.hist 1).stage = .established ∧ (s.conns 1).outputBuffer = [2] ∧
          s.writesOut (.exec ⟨none, .error, some 1⟩) = some 1 ∧ s.hasWriteComplete = true ∧
          s'.AllAccepted 1 ∧ (s'.hist 1).stage = .established ∧
          s'.todo.head? = some (.queueWriteComplete 1) ∧ s'.ready = true)) = some true := by
    decide +kernel
  obtain ⟨s, hs, hrun⟩ := Option.bind_eq_some_iff.mp hrun
  obtain ⟨s', hs', hvals⟩ := Option.map_eq_some_iff.mp hrun
  obtain ⟨hstage, hbuffer, hwrites, hwc, hall, hstage', hhead, hready⟩ := of_decide_eq_true hvals
  have hreach := (Reach.refl _).of_exec hs
  obtain ⟨hiff, -, -, hstep⟩ := write_complete_discipline hreach hstage
  obtain ⟨-, -, hdrained, -⟩ := hstep _ _ hs'
  have hcount := hdrained hwrites (by simp [hbuffer])
  rw [if_pos ⟨hwc, hall⟩] at hcount
  obtain ⟨-, -, hqueues, -⟩ := write_complete_discipline (hreach.tail trivial hs') hstage'
  obtain ⟨hpossible, hqueued⟩ := hqueues hhead ⟨none, .error, none⟩
  obtain ⟨s'', hs''⟩ := hpossible hready
  exact ⟨s, s', s'', hiff, hbuffer, hs', hcount, hs'', (hqueued s'' hs'').2.1⟩

end TcpServer

end Tractor
