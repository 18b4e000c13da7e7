import Tractor.Http.Contexts
import Tractor.Net.Lifetime

/-!
What the callbacks of an `HttpServer` see of a connection: its input, its state and whether it is
built or destroyed.

* `Op.inner`, `TcpServer.InUser`: what stands in front of a callback that is running.
* `TcpServer.endState`: a `shutdown` in the loop's thread counts from its check on.
* `TcpServer.sees_of_next`: **what a step of the loop does to what the callbacks see goes with the
  callback it calls and the bytes it reads.**
* `seen_userRetrieve`, `seen_userSend`, `seen_userShutdown`, `seen_userReturn`: what the calls of
  a callback do to it.
-/

namespace Tractor

open Library

/-! ### What the callbacks look at -/

/-- What the calls of a running callback put in front of it. -/
def Op.inner : Op → Bool
  | shutdownIfDisconnecting _ => true
  | queueWriteComplete _ => true
  | setDisconnecting _ => true
  | _ => false

/-- The connection is built and `connectDestroyed` has not begun. -/
def Stage.lives (st : Stage) : Prop := st ≠ .fresh ∧ st.over = false

namespace TcpConnection

variable (conn : TcpConnection)

@[simp] lemma sendInLoop_inputBuffer (isWriting : Bool) (message : List Byte) (nwrote : Option ℕ) :
    (conn.sendInLoop isWriting message nwrote).1.inputBuffer = conn.inputBuffer := by
  simp only [sendInLoop]
  split_ifs <;> rfl

@[simp] lemma handleWrite_inputBuffer (nwrote : Option ℕ) :
    (conn.handleWrite nwrote).1.inputBuffer = conn.inputBuffer := by
  match nwrote with
  | none => rfl
  | some 0 => rfl
  | some (n + 1) => rfl

@[simp] lemma shutdownInLoop_inputBuffer (isWriting : Bool) :
    (conn.shutdownInLoop isWriting).inputBuffer = conn.inputBuffer := by
  rw [shutdownInLoop]
  split_ifs <;> rfl

end TcpConnection

namespace TcpServer

variable {s s' : TcpServer Empty} {c d : ℕ}

/-- The loop's thread is in a callback of the user. -/
def InUser (s : TcpServer Empty) : Prop := s.todo.find? (fun op => !op.inner) = some .user

/-- `shutdown` in the loop's thread goes on before anything else. -/
def Prompt (s : TcpServer Empty) : Prop := ∀ c, .setDisconnecting c ∉ s.todo.tail

/-- The state of the connection behind a `shutdown` that has passed its check. -/
def endState (s : TcpServer Empty) (c : ℕ) : ConnectState :=
  if .setDisconnecting c ∈ s.todo then .kDisconnecting else (s.conns c).state

/-- The callbacks see the connection as they did. -/
structure SameSeen (s s' : TcpServer Empty) (c : ℕ) : Prop where
  input : (s'.conns c).inputBuffer = (s.conns c).inputBuffer
  state : s'.endState c = s.endState c
  fresh : (s'.hist c).stage = .fresh ↔ (s.hist c).stage = .fresh
  past : (s'.hist c).stage.over = (s.hist c).stage.over

/-- The bytes a step reads, with their connection. -/
def readOf (s : TcpServer Empty) : Label Empty → Option (ℕ × List Byte)
  | .exec r =>
      match s.todo, r.read with
      | .handleRead c :: _, .data bytes => some (c, bytes)
      | _, _ => none
  | _ => none

/-- What a step of the loop does to the connections, by the callback it calls and the bytes it
reads. -/
inductive Sees (s s' : TcpServer Empty) : Option ServerCallback → Option (ℕ × List Byte) → Prop
  | silent (hsame : ∀ d, SameSeen s s' d) (huser : s.InUser → s'.InUser) : Sees s s' none none
  | up {c : ℕ} (hidle : ¬ s.InUser) (hbefore : (s.hist c).stage = .fresh)
      (hafter : (s'.hist c).stage = .established) (hinput : (s'.conns c).inputBuffer = [])
      (hstate : (s'.conns c).state = .kConnected) (hend : s'.endState c = .kConnected)
      (hother : ∀ d, d ≠ c → SameSeen s s' d) : Sees s s' (some (.onConnection c)) none
  | message {c : ℕ} {bytes : List Byte} (hidle : ¬ s.InUser) (hread : .handleRead c ∈ s.todo)
      (huser : s'.InUser)
      (hinput : (s'.conns c).inputBuffer = (s.conns c).inputBuffer ++ bytes)
      (hstate : s'.endState c = s.endState c) (hstage : (s'.hist c).stage = (s.hist c).stage)
      (hother : ∀ d, d ≠ c → SameSeen s s' d) :
      Sees s s' (some (.onMessage c)) (some (c, bytes))
  | down {c : ℕ} (hidle : ¬ s.InUser) (hbefore : (s.hist c).stage = .closed)
      (hafter : (s'.hist c).stage = .destroying)
      (hinput : (s'.conns c).inputBuffer = (s.conns c).inputBuffer)
      (hstate : (s'.conns c).state = .kDisconnected)
      (hother : ∀ d, d ≠ c → SameSeen s s' d) : Sees s s' (some (.onConnection c)) none

lemma not_inUser_of_nil (h : s.todo = []) : ¬ s.InUser := by simp [InUser, h]

lemma inUser_cons {op : Op} {todo : List Op} (htodo : s.todo = op :: todo) :
    s.InUser ↔ if op.inner then todo.find? (fun op => !op.inner) = some .user else op = .user := by
  rw [InUser, htodo, List.find?_cons]
  cases op.inner <;> simp

lemma endState_eq (hstate : (s'.conns d).state = (s.conns d).state)
    (htodo : .setDisconnecting d ∈ s'.todo ↔ .setDisconnecting d ∈ s.todo) :
    s'.endState d = s.endState d := by
  simp only [endState, htodo, hstate]

lemma endState_of_notMem (h : .setDisconnecting d ∉ s.todo) :
    s.endState d = (s.conns d).state := if_neg h

/-- The callbacks look at the state, the input and the stage. -/
lemma sameSeen_of_eq (hinput : (s'.conns d).inputBuffer = (s.conns d).inputBuffer)
    (hstate : (s'.conns d).state = (s.conns d).state)
    (htodo : .setDisconnecting d ∈ s'.todo ↔ .setDisconnecting d ∈ s.todo)
    (hfresh : (s'.hist d).stage = .fresh ↔ (s.hist d).stage = .fresh)
    (hover : (s'.hist d).stage.over = (s.hist d).stage.over) : SameSeen s s' d where
  input := hinput
  state := endState_eq hstate htodo
  fresh := hfresh
  past := hover

/-! ### What stands in front of a callback -/

lemma Prompt.notMem {op : Op} {todo : List Op} (h : s.Prompt) (htodo : s.todo = op :: todo)
    (c : ℕ) : .setDisconnecting c ∉ todo := by
  have htail := h c
  rwa [htodo, List.tail_cons] at htail

/-- The next thing to do is done, and others that are no `setDisconnecting` come first. -/
lemma Prompt.front {op : Op} {todo : List Op} (h : s.Prompt) (htodo : s.todo = op :: todo)
    (ops : List Op) (hops : ∀ c, .setDisconnecting c ∉ ops) (hs' : s'.todo = ops ++ todo) :
    s'.Prompt := by
  intro c hc
  rw [hs'] at hc
  rcases List.mem_append.mp (List.mem_of_mem_tail hc) with hc | hc
  · exact hops c hc
  · exact h.notMem htodo c hc

lemma Prompt.of_eq (h : s.Prompt) (hs' : s'.todo = s.todo) : s'.Prompt := by
  rw [Prompt, hs']
  exact h

/-- **Every step keeps it.** -/
lemma Prompt.move {l : Label Empty} (h : s.Prompt) (hm : Move s l s') : s'.Prompt := by
  -- what a step puts in front of an empty list
  have hnil : ∀ ops : List Op, (∀ c, .setDisconnecting c ∉ ops) → s'.todo = ops →
      s'.Prompt := by
    rintro ops hops rfl c hc
    exact hops c (List.mem_of_mem_tail hc)
  have hcomplete : ∀ {ops : List Op} {d : ℕ}, (ops = [] ∨ ops = [.queueWriteComplete d]) →
      ∀ c, .setDisconnecting c ∉ ops := by
    rintro ops d (rfl | rfl) c <;> simp
  have hpop : ∀ {op : Op} {todo : List Op}, s.todo = op :: todo → s.pop.todo = todo := by
    intro op todo htodo
    simp [pop, htodo]
  cases hm with
  | refused | accepted | checked | pushed | disconnecting | looped | polled | userRead | released =>
      exact h.of_eq rfl
  | @dispatched ref active hactive htodo =>
      refine hnil _ (fun c hc => ?_) rfl
      exact absurd (event_of_mem_eventOps hc) (by simp [Op.event])
  | dropped htodo => exact h.front htodo [] (by simp) (hpop htodo)
  | connected htodo hfd hok =>
      obtain ⟨-, p, -, rfl⟩ := newConnection_ok hok
      exact h.front htodo [.user] (by simp) (congrArg _ (hpop htodo))
  | closed htodo hop hok =>
      obtain ⟨-, -, p, -, rfl⟩ := handleClose_ok hok
      exact h.front htodo [] (by simp) (hpop htodo)
  | read htodo => exact h.front htodo [.user] (by simp) (congrArg _ (hpop htodo))
  | @wrote r todo d s' htodo hw hok =>
      rcases handleWrite_ok (s := s.pop) hw hok with ⟨-, rfl⟩ | ⟨-, p, ops, hops, -, rfl⟩
      · exact h.front htodo [] (by simp) (hpop htodo)
      · refine h.front htodo (ops ++ [.shutdownIfDisconnecting d]) (fun c => ?_)
          (congrArg _ (hpop htodo))
        simpa using hcomplete hops c
  | shutDrained htodo => exact h.front htodo [] (by simp) (hpop htodo)
  | completed htodo => exact h.front htodo [] (by simp) (hpop htodo)
  | shutDirect htodo => exact h.front htodo [] (by simp) (hpop htodo)
  | removed htodo hok =>
      obtain ⟨p, -, rfl⟩ := removeChannel_ok hok
      exact h.front htodo [] (by simp) (hpop htodo)
  | userSent htodo husable hstate hok =>
      obtain ⟨p, ops, hops, -, rfl⟩ := sendInLoop_ok hok
      refine h.front htodo (ops ++ [.user]) (fun c => ?_) ?_
      · simpa using hcomplete hops c
      · change ops ++ s.todo = _
        simp [htodo]
  | @userShut d todo htodo =>
      intro c hc
      have hc' : Op.setDisconnecting c ∈ s.todo := hc
      rw [htodo, List.mem_cons] at hc'
      exact h.notMem htodo c (hc'.resolve_left (by simp))
  | @ran nwrote cb functors e s' htodo hqueue hpc hpc' hid hok =>
      cases cb with
      | sendInLoop t => exact t.elim
      | shutdownInLoop d =>
          obtain rfl := Except.ok.inj (Option.some.inj hok)
          exact h.of_eq rfl
      | connectDestroyed d =>
          obtain ⟨-, p, -, rfl⟩ := connectDestroyed_ok (Option.some.inj hok)
          refine hnil [.user, .removeChannel d] (by simp) ?_
          change _ :: _ :: s.todo = _
          rw [htodo]
      | writeComplete d =>
          obtain rfl := Except.ok.inj (Option.some.inj hok)
          refine hnil [.user] (by simp) ?_
          change _ :: s.todo = _
          rw [htodo]

/-! ### What a step of the loop does -/

/-- The next thing to do is done, and others come first: none of them is a `setDisconnecting`. -/
lemma setDisconnecting_mem_iff {op : Op} {todo ops : List Op} (htodo : s.todo = op :: todo)
    (hs' : s'.todo = ops ++ todo) (hop : ∀ c, op ≠ .setDisconnecting c)
    (hops : ∀ c, .setDisconnecting c ∉ ops) (c : ℕ) :
    .setDisconnecting c ∈ s'.todo ↔ .setDisconnecting c ∈ s.todo := by
  rw [hs', htodo, List.mem_append, List.mem_cons, or_iff_right (hops c),
    or_iff_right (hop c).symm]

/-- A step that leaves the connections and the list of things to do. -/
lemma sees_of_same (hconns : s'.conns = s.conns) (htodo : s'.todo = s.todo)
    (htold : SameTold s s') : Sees s s' none none := by
  refine .silent (fun d => ?_) fun huser => ?_
  · exact sameSeen_of_eq (by rw [hconns]) (by rw [hconns]) (by rw [htodo]) (htold d).1 (htold d).2
  · rw [InUser, htodo]
    exact huser

/-- A step that does the next thing and changes only what the callbacks do not look at. -/
lemma sees_of_exec {op : Op} {todo : List Op} (htodo : s.todo = op :: todo) (ops : List Op)
    (hs' : s'.todo = ops ++ todo) (hop : ∀ c, op ≠ .setDisconnecting c) (hnot : op ≠ .user)
    (hops : ∀ op ∈ ops, op.inner = true ∧ ∀ c, op ≠ .setDisconnecting c)
    (hinput : ∀ d, (s'.conns d).inputBuffer = (s.conns d).inputBuffer)
    (hstate : ∀ d, (s'.conns d).state = (s.conns d).state) (htold : SameTold s s') :
    Sees s s' none none := by
  have hmem := setDisconnecting_mem_iff htodo hs' hop fun c hc => (hops _ hc).2 c rfl
  refine .silent (fun d => ?_) fun huser => ?_
  · exact sameSeen_of_eq (hinput d) (hstate d) (hmem d) (htold d).1 (htold d).2
  · rw [inUser_cons htodo] at huser
    split_ifs at huser with hinner
    · have hnone : ops.find? (fun op => !op.inner) = none := by
        rw [List.find?_eq_none]
        intro op hop
        simp [(hops op hop).1]
      rw [InUser, hs', List.find?_append, hnone, Option.none_or]
      exact huser
    · exact absurd huser hnot

/-- A connection is accepted. -/
lemma sees_of_accept {todo : List Op} {sockfd : ℕ} (hsane : s.Sane) (hprompt : s.Prompt)
    (htodo : s.todo = .accept :: todo) (hok : s.pop.newConnection sockfd = .ok s') :
    Sees s s' (some (.onConnection s.nextConnId)) none := by
  obtain ⟨-, p, -, rfl⟩ := newConnection_ok hok
  have hfresh : (s.hist s.nextConnId).stage = .fresh := (hsane.ledger.ids _).mpr (Or.inr le_rfl)
  have htail := hprompt.notMem htodo
  have hbefore : ∀ c, Op.setDisconnecting c ∉ s.todo := fun c => by
    rw [htodo, List.mem_cons, not_or]
    exact ⟨by simp, htail c⟩
  have hafter : ∀ c, Op.setDisconnecting c ∉ Op.user :: s.pop.todo := fun c => by
    rw [List.mem_cons, not_or]
    exact ⟨by simp, by simpa [pop, htodo] using htail c⟩
  refine .up ?_ hfresh (by simp [pop]) (by simp [pop, TcpConnection.setState, TcpConnection.new])
    (by simp [pop, TcpConnection.setState]) ?_ fun d hd => ?_
  · rw [inUser_cons htodo]
    simp [Op.inner]
  · refine (endState_of_notMem (hafter _)).trans ?_
    simp [pop, TcpConnection.setState]
  · exact sameSeen_of_eq (by simp [pop, hd]) (by simp [pop, hd])
      (iff_of_false (hafter d) (hbefore d)) (by simp [pop, hd]) (by simp [pop, hd])

/-- Bytes are read and passed to the user. -/
lemma sees_of_read {todo : List Op} {bytes : List Byte} (htodo : s.todo = .handleRead c :: todo)
    (hs' : s' = (s.pop.setConn c { s.conns c with
      inputBuffer := (s.conns c).inputBuffer ++ bytes }).doFirst [.user]) :
    Sees s s' (some (.onMessage c)) (some (c, bytes)) := by
  have htodo' : s'.todo = [.user] ++ todo := by
    rw [hs']
    simp [pop, setConn, doFirst, htodo]
  have hmem := setDisconnecting_mem_iff htodo htodo' (by simp) (by simp)
  have hconn : s'.conns c = { s.conns c with
      inputBuffer := (s.conns c).inputBuffer ++ bytes } := by
    rw [hs']
    simp [setConn, doFirst]
  have hother : ∀ d, d ≠ c → s'.conns d = s.conns d := fun d hd => by
    rw [hs']
    simp [setConn, doFirst, pop, hd]
  have hhist : s'.hist = s.hist := by
    rw [hs']
    rfl
  refine .message ?_ (htodo ▸ List.mem_cons_self) ?_ (by rw [hconn]) ?_ (by rw [hhist])
    fun d hd => ?_
  · rw [inUser_cons htodo]
    simp [Op.inner]
  · rw [InUser, htodo']
    rfl
  · exact endState_eq (by rw [hconn]) (hmem c)
  · exact sameSeen_of_eq (by rw [hother d hd]) (by rw [hother d hd]) (hmem d) (by rw [hhist])
      (by rw [hhist])

/-- `shutdown` in the loop's thread goes on: the callbacks saw it when it was called. -/
lemma sees_of_setDisconnecting {todo : List Op} (hprompt : s.Prompt)
    (htodo : s.todo = .setDisconnecting c :: todo)
    (hs' : (s.pop.setDisconnecting c).shutdownInLoop c = s') (htold : SameTold s s') :
    Sees s s' none none := by
  have htodo' : s'.todo = todo := by
    rw [← hs']
    simp [pop, setDisconnecting, shutdownInLoop, setConn, setHist, htodo]
  have hinput : ∀ d, (s'.conns d).inputBuffer = (s.conns d).inputBuffer := fun d => by
    rw [← hs']
    by_cases hd : d = c
    · subst hd
      simp [pop, setDisconnecting, shutdownInLoop, setConn, setHist, TcpConnection.setState]
    · simp [pop, setDisconnecting, shutdownInLoop, setConn, setHist, hd]
  refine .silent (fun d => ⟨hinput d, ?_, (htold d).1, (htold d).2⟩) fun huser => ?_
  · have hafter : Op.setDisconnecting d ∉ s'.todo := htodo' ▸ hprompt.notMem htodo d
    rw [endState_of_notMem hafter, endState, ← hs']
    by_cases hd : d = c
    · subst hd
      simp [htodo, setDisconnecting, shutdownInLoop, setConn, setHist, TcpConnection.setState]
    · have hbefore : Op.setDisconnecting d ∉ s.todo := by
        rw [htodo, List.mem_cons, not_or]
        exact ⟨by simpa using hd, hprompt.notMem htodo d⟩
      rw [if_neg hbefore]
      simp [pop, setDisconnecting, shutdownInLoop, setConn, setHist, hd]
  · rw [inUser_cons htodo] at huser
    rw [InUser, htodo']
    exact huser

/-- **The next thing to do.** -/
lemma sees_of_exec_next {r : Results} (hsane : s.Sane) (hprompt : s.Prompt)
    (hnext : s.next (.exec r) = some s') :
    Sees s s' (HttpServer.callback s (.exec r)) (s.readOf (.exec r)) := by
  have hstep := next_eq_some.mp hnext
  cases htodo : s.todo with
  | nil => simp [step, htodo] at hstep
  | cons op todo =>
      have hpop : ({ s with todo := todo } : TcpServer Empty) = s.pop := by simp [pop, htodo]
      have hpopTodo : s.pop.todo = todo := by simp [pop, htodo]
      have htold : HttpServer.callback s (.exec r) = none → SameTold s s' := fun hnone => by
        have hspeaks := speaks_of_next hsane hnext
        rw [HttpServer.callback_eq s s', Option.map_eq_none_iff] at hnone
        rw [hnone] at hspeaks
        cases hspeaks with
        | silent hsame => exact hsame
      -- a step that calls no callback and reads nothing
      have hquiet : HttpServer.callback s (.exec r) = none → s.readOf (.exec r) = none →
          (SameTold s s' → Sees s s' none none) →
          Sees s s' (HttpServer.callback s (.exec r)) (s.readOf (.exec r)) :=
        fun hcb hread hsees => by
          rw [hcb, hread]
          exact hsees (htold hcb)
      have hclose : ∀ {d : ℕ}, s.pop.handleClose d = .ok s' → (∀ c, op ≠ .setDisconnecting c) →
          op ≠ .user → SameTold s s' → Sees s s' none none := fun hok hop hnot hsame => by
        obtain ⟨-, -, p, -, rfl⟩ := handleClose_ok hok
        exact sees_of_exec htodo [] hpopTodo hop hnot (by simp) (fun _ => rfl)
          (fun _ => rfl) hsame
      have hdrop : s.pop = s' → (∀ c, op ≠ .setDisconnecting c) → op ≠ .user → SameTold s s' →
          Sees s s' none none := fun hs' hop hnot hsame => by
        subst hs'
        exact sees_of_exec htodo [] hpopTodo hop hnot (by simp) (fun _ => rfl)
          (fun _ => rfl) hsame
      simp only [step, htodo, hpop] at hstep
      split_ifs at hstep
      cases op with
      | accept =>
          simp only [execOp] at hstep
          split_ifs at hstep
          cases hr : r.accept with
          | none =>
              rw [hr] at hstep
              refine hquiet (by simp [HttpServer.callback, htodo, hr]) (by simp [readOf, htodo]) ?_
              exact hdrop (by simpa [handleAccept, pure, Except.pure] using hstep) (by simp)
                (by simp)
          | some sockfd =>
              rw [hr] at hstep
              have hcb : HttpServer.callback s (.exec r) = some (.onConnection s.nextConnId) := by
                simp [HttpServer.callback, htodo, hr]
              rw [hcb, show s.readOf (.exec r) = none by simp [readOf, htodo]]
              exact sees_of_accept hsane hprompt htodo (Option.some.inj hstep)
      | handleClose c =>
          refine hquiet (by simp [HttpServer.callback, htodo]) (by simp [readOf, htodo]) ?_
          exact hclose (Option.some.inj hstep) (by simp) (by simp)
      | handleError c =>
          refine hquiet (by simp [HttpServer.callback, htodo]) (by simp [readOf, htodo]) ?_
          exact hdrop (by simpa [execOp] using hstep) (by simp) (by simp)
      | handleRead c =>
          simp only [execOp, Option.some.injEq] at hstep
          cases hr : r.read with
          | data bytes =>
              rw [hr] at hstep
              have hcb : HttpServer.callback s (.exec r) = some (.onMessage c) := by
                simp [HttpServer.callback, htodo, hr]
              rw [hcb, show s.readOf (.exec r) = some (c, bytes) by simp [readOf, htodo, hr]]
              exact sees_of_read htodo (Except.ok.inj hstep).symm
          | eof =>
              rw [hr] at hstep
              refine hquiet (by simp [HttpServer.callback, htodo, hr])
                (by simp [readOf, htodo, hr]) ?_
              exact hclose hstep (by simp) (by simp)
          | error =>
              rw [hr] at hstep
              refine hquiet (by simp [HttpServer.callback, htodo, hr])
                (by simp [readOf, htodo, hr]) ?_
              exact hdrop (Except.ok.inj hstep) (by simp) (by simp)
      | handleWrite c =>
          refine hquiet (by simp [HttpServer.callback, htodo]) (by simp [readOf, htodo]) ?_
          simp only [execOp] at hstep
          split_ifs at hstep
          rw [Option.some.injEq] at hstep
          by_cases hw : s.pop.isWriting c = true
          · intro hsame
            have hinput : ∀ d, (Function.update s.conns c
                ((s.conns c).handleWrite r.write).1 d).inputBuffer = (s.conns d).inputBuffer :=
              apply_update_keep s.conns TcpConnection.inputBuffer (by simp)
            have hstate : ∀ d, (Function.update s.conns c
                ((s.conns c).handleWrite r.write).1 d).state = (s.conns d).state :=
              apply_update_keep s.conns TcpConnection.state (by simp)
            rcases handleWrite_ok hw hstep with ⟨-, rfl⟩ | ⟨-, p, ops, hops, -, rfl⟩
            · exact sees_of_exec htodo [] hpopTodo (by simp) (by simp) (by simp) hinput
                hstate hsame
            · refine sees_of_exec htodo (ops ++ [.shutdownIfDisconnecting c])
                (congrArg _ hpopTodo) (by simp) (by simp) ?_ hinput hstate hsame
              rcases hops with rfl | rfl <;> simp [Op.inner]
          · rw [handleWrite, if_neg hw] at hstep
            exact hdrop (Except.ok.inj hstep) (by simp) (by simp)
      | shutdownIfDisconnecting c =>
          refine hquiet (by simp [HttpServer.callback, htodo]) (by simp [readOf, htodo]) ?_
          simp only [execOp, Option.some.injEq, Except.ok.injEq] at hstep
          split_ifs at hstep
          · subst hstep
            refine sees_of_exec htodo [] hpopTodo (by simp) (by simp) (by simp) ?_ ?_
            · exact apply_update_keep s.conns TcpConnection.inputBuffer (by simp [pop])
            · exact apply_update_keep s.conns TcpConnection.state (by simp [pop])
          · exact hdrop hstep (by simp) (by simp)
      | queueWriteComplete c =>
          refine hquiet (by simp [HttpServer.callback, htodo]) (by simp [readOf, htodo]) ?_
          obtain rfl : s.pop.queueInLoop (.writeComplete c) = s' := by simpa [execOp] using hstep
          exact sees_of_exec htodo [] hpopTodo (by simp) (by simp) (by simp)
            (fun _ => rfl) (fun _ => rfl)
      | setDisconnecting c =>
          refine hquiet (by simp [HttpServer.callback, htodo]) (by simp [readOf, htodo]) ?_
          exact sees_of_setDisconnecting hprompt htodo (by simpa [execOp] using hstep)
      | user => simp [execOp] at hstep
      | removeChannel c =>
          refine hquiet (by simp [HttpServer.callback, htodo]) (by simp [readOf, htodo]) ?_
          obtain ⟨p, -, rfl⟩ := removeChannel_ok (Option.some.inj hstep)
          exact sees_of_exec htodo [] hpopTodo (by simp) (by simp) (by simp)
            (fun _ => rfl) (fun _ => rfl)

/-- A functor of the batch. -/
lemma sees_of_run {nwrote : Option ℕ} (hsane : s.Sane) (hnext : s.next (.run nwrote) = some s') :
    Sees s s' (HttpServer.callback s (.run nwrote)) none := by
  have hspeaks := speaks_of_next hsane hnext
  have hm := move_of_next hsane.ledger.threadId hnext
  have hstep := next_eq_some.mp hnext
  cases hcb : s.loop.pc.functors with
  | nil => simp [step, hcb] at hstep
  | cons cb functors =>
      simp only [step, hcb] at hstep
      split_ifs at hstep with htodo
      obtain ⟨s₁, hs₁, hstep⟩ := Option.bind_eq_some_iff.mp hstep
      obtain ⟨e, he, rfl⟩ := Option.map_eq_some_iff.mp hs₁
      have hidle : ¬ s.InUser := not_inUser_of_nil htodo
      have htold : HttpServer.callback s (.run nwrote) = none → SameTold s s' := fun hnone => by
        rw [HttpServer.callback_eq s s', Option.map_eq_none_iff] at hnone
        rw [hnone] at hspeaks
        cases hspeaks with
        | silent hsame => exact hsame
      cases cb with
      | sendInLoop t => exact t.elim
      | shutdownInLoop c =>
          have hnone : HttpServer.callback s (.run nwrote) = none := by
            simp [HttpServer.callback, hcb]
          obtain rfl := Except.ok.inj (Option.some.inj hstep)
          rw [hnone]
          have hkeep := htold hnone
          refine .silent (fun d => ?_) fun huser => absurd huser hidle
          refine sameSeen_of_eq ?_ ?_ Iff.rfl (hkeep d).1 (hkeep d).2
          · exact apply_update_keep s.conns TcpConnection.inputBuffer (by simp) d
          · exact apply_update_keep s.conns TcpConnection.state (by simp) d
      | writeComplete c =>
          have hnone : HttpServer.callback s (.run nwrote) = none := by
            simp [HttpServer.callback, hcb]
          obtain rfl := Except.ok.inj (Option.some.inj hstep)
          rw [hnone]
          have hkeep := htold hnone
          refine .silent (fun d => ?_) fun huser => absurd huser hidle
          refine sameSeen_of_eq rfl rfl ?_ (hkeep d).1 (hkeep d).2
          simp [doFirst, htodo]
      | connectDestroyed c =>
          have hmem : .connectDestroyed c ∈ s.loop.queue := by
            rw [(EventLoop.step_run hcb he).1]
            exact List.mem_cons_self
          obtain ⟨-, p, -, rfl⟩ := connectDestroyed_ok (Option.some.inj hstep)
          rw [show HttpServer.callback s (.run nwrote) = some (.onConnection c) by
            simp [HttpServer.callback, hcb]]
          refine .down hidle (hsane.ledger.stage_of_queue hmem) (by simp)
            (by simp [TcpConnection.setState]) (by simp [TcpConnection.setState]) fun d hd => ?_
          exact sameSeen_of_eq (by simp [hd]) (by simp [hd]) (by simp [htodo]) (by simp [hd])
            (by simp [hd])

/-- **What a step of the loop does to the connections goes with the callback it calls.** -/
theorem sees_of_next {l : Label Empty} (hsane : s.Sane) (hprompt : s.Prompt)
    (hl : HttpServer.ofUser l = false) (hnext : s.next l = some s') :
    Sees s s' (HttpServer.callback s l) (s.readOf l) := by
  have hstep := next_eq_some.mp hnext
  have hsame : s.callback l s' = none → SameTold s s' := fun hnone => by
    have hspeaks := speaks_of_next hsane hnext
    rw [hnone] at hspeaks
    cases hspeaks with
    | silent hsame => exact hsame
  have hloop : ∀ {el : EventLoop.Label (Thread Empty) (ServerFunctor Empty)},
      s.callback l s' = none →
      (s.loopStep el).map Except.ok = some (Except.ok s' : Except ServerFault _) →
      Sees s s' none none := fun hnone h => by
    obtain ⟨e, -, rfl⟩ := loopStep_map_ok h
    exact sees_of_same rfl rfl (hsame hnone)
  cases l with
  | send t | shutdown t | resume t => exact t.elim
  | userSend | userShutdown | userRetrieve | userReturn => simp [HttpServer.ofUser] at hl
  | exec r => exact sees_of_exec_next hsane hprompt hnext
  | run nwrote => exact sees_of_run hsane hnext
  | wakeup th => exact hloop rfl hstep
  | test => exact hloop rfl hstep
  | swap => exact hloop rfl hstep
  | handled =>
      simp only [step] at hstep
      split_ifs at hstep
      exact hloop rfl hstep
  | finish =>
      simp only [step] at hstep
      split_ifs at hstep
      exact hloop rfl hstep
  | poll events =>
      have hkeep := hsame rfl
      simp only [step] at hstep
      split_ifs at hstep
      simp only [loopStep, Option.map_map, Option.map_eq_some_iff, Function.comp_apply] at hstep
      obtain ⟨e, -, hpoll⟩ := hstep
      obtain ⟨p, -, rfl⟩ := withPoller_ok hpoll
      exact sees_of_same rfl rfl hkeep
  | dispatch =>
      have hkeep := hsame rfl
      simp only [step] at hstep
      split at hstep
      · exact absurd hstep (by simp)
      · rename_i ref active hactive
        split_ifs at hstep with hguard
        obtain rfl := Except.ok.inj (Option.some.inj hstep)
        refine .silent (fun d => ?_) fun huser =>
          absurd huser (not_inUser_of_nil hguard.2)
        refine sameSeen_of_eq rfl rfl (iff_of_false (fun hmem => ?_) (by simp [hguard.2]))
          (hkeep d).1 (hkeep d).2
        exact absurd (event_of_mem_eventOps hmem) (by simp [Op.event])
  | release c =>
      have hkeep := hsame rfl
      simp only [step] at hstep
      split_ifs at hstep
      obtain rfl := Except.ok.inj (Option.some.inj hstep)
      exact sees_of_same rfl rfl hkeep

/-! ### What the calls of a callback do -/

lemma sameTold_of_callback {l : Label Empty} (hsane : s.Sane) (hnext : s.next l = some s')
    (hnone : s.callback l s' = none) : SameTold s s' := by
  have hspeaks := speaks_of_next hsane hnext
  rw [hnone] at hspeaks
  cases hspeaks with
  | silent hsame => exact hsame

lemma inUser_of_user {todo : List Op} (htodo : s.todo = .user :: todo) : s.InUser := by
  rw [inUser_cons htodo]
  simp [Op.inner]

/-- No `setDisconnecting` waits while the callback runs. -/
lemma Prompt.endState_eq {todo : List Op} (h : s.Prompt) (htodo : s.todo = .user :: todo) (c : ℕ) :
    s.endState c = (s.conns c).state := by
  refine endState_of_notMem ?_
  rw [htodo, List.mem_cons, not_or]
  exact ⟨by simp, h.notMem htodo c⟩

/-- `buf->retrieve(n)`. -/
lemma seen_userRetrieve {n : ℕ} (hnext : s.next (.userRetrieve c n) = some s') :
    (∀ d, d ≠ c → SameSeen s s' d) ∧ s'.InUser ∧ s'.hist = s.hist ∧
      (s'.conns c).inputBuffer = (s.conns c).inputBuffer.drop n ∧
      s'.endState c = s.endState c := by
  have hstep := next_eq_some.mp hnext
  simp only [step] at hstep
  split_ifs at hstep with hguard
  obtain rfl := Except.ok.inj (Option.some.inj hstep)
  obtain ⟨todo, htodo⟩ := List.head?_eq_some_iff.mp hguard.2.1
  refine ⟨fun d hd => ?_, inUser_of_user htodo, rfl, by simp [setConn], ?_⟩
  · exact sameSeen_of_eq (by simp [setConn, hd]) (by simp [setConn, hd]) Iff.rfl Iff.rfl rfl
  · exact TcpServer.endState_eq (by simp [setConn]) Iff.rfl

/-- `send` leaves what the callbacks look at. -/
lemma seen_userSend {message : List Byte} {nwrote : Option ℕ} (hsane : s.Sane)
    (hprompt : s.Prompt) (hnext : s.next (.userSend c message nwrote) = some s') :
    (∀ d, SameSeen s s' d) ∧ s'.InUser ∧ s.endState c = (s.conns c).state := by
  have htold := sameTold_of_callback hsane hnext rfl
  have hstep := next_eq_some.mp hnext
  simp only [step] at hstep
  split_ifs at hstep with hguard hstate
  all_goals obtain ⟨todo, htodo⟩ := List.head?_eq_some_iff.mp hguard.2.1
  · obtain ⟨p, ops, hops, -, rfl⟩ := sendInLoop_ok (Option.some.inj hstep)
    refine ⟨fun d => ?_, ?_, hprompt.endState_eq htodo c⟩
    · refine sameSeen_of_eq ?_ ?_ ?_ (htold d).1 (htold d).2
      · exact apply_update_keep s.conns TcpConnection.inputBuffer
          (TcpConnection.sendInLoop_inputBuffer _ _ _ _) d
      · exact apply_update_keep s.conns TcpConnection.state
          (TcpConnection.sendInLoop_state _ _ _ _) d
      · change Op.setDisconnecting d ∈ ops ++ s.todo ↔ _
        rcases hops with rfl | rfl <;> simp
    · change (ops ++ s.todo).find? _ = _
      rcases hops with rfl | rfl
      · exact inUser_of_user htodo
      · simp [htodo, Op.inner]
  · obtain rfl := Except.ok.inj (Option.some.inj hstep)
    exact ⟨fun d => sameSeen_of_eq rfl rfl Iff.rfl Iff.rfl rfl, inUser_of_user htodo,
      hprompt.endState_eq htodo c⟩

/-- `shutdown` passes its check, or does nothing. -/
lemma seen_userShutdown (hprompt : s.Prompt) (hnext : s.next (.userShutdown c) = some s') :
    (∀ d, d ≠ c → SameSeen s s' d) ∧ s'.InUser ∧ s'.hist = s.hist ∧
      (s'.conns c).inputBuffer = (s.conns c).inputBuffer ∧
      s'.endState c = if s.endState c = .kConnected then .kDisconnecting else s.endState c := by
  have hstep := next_eq_some.mp hnext
  simp only [step] at hstep
  split_ifs at hstep with hguard hstate
  all_goals
    obtain ⟨todo, htodo⟩ := List.head?_eq_some_iff.mp hguard.2.1
    obtain rfl := Except.ok.inj (Option.some.inj hstep)
    rw [hprompt.endState_eq htodo c]
  · refine ⟨fun d hd => ?_, ?_, rfl, rfl, ?_⟩
    · exact sameSeen_of_eq rfl rfl (by simp [doFirst, hd]) Iff.rfl rfl
    · simp [InUser, doFirst, htodo, Op.inner]
    · rw [if_pos hstate]
      simp [endState, doFirst]
  · exact ⟨fun d _ => sameSeen_of_eq rfl rfl Iff.rfl Iff.rfl rfl, inUser_of_user htodo, rfl, rfl,
      by rw [if_neg hstate]⟩

/-- The callback returns. -/
lemma seen_userReturn (hnext : s.next .userReturn = some s') : ∀ d, SameSeen s s' d := by
  have hstep := next_eq_some.mp hnext
  simp only [step] at hstep
  split_ifs at hstep with hguard
  obtain rfl := Except.ok.inj (Option.some.inj hstep)
  obtain ⟨todo, htodo⟩ := List.head?_eq_some_iff.mp hguard.2
  exact fun d => sameSeen_of_eq rfl rfl (by simp [htodo]) Iff.rfl rfl

end TcpServer

end Tractor
