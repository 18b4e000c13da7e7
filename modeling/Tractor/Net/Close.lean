import Tractor.Net.Dispatch

/-!
The close path of a connection: `handleClose_`, `closeCallback_`, `removeConnection`.

* `closesAgain`: the two ways into `handleClose_` for a connection that was closed.
* `close_path_runs_once`: in every run without them, `closeCallback_` is called at most
  once for each connection.
-/

namespace Tractor

open Library

namespace TcpServer

variable {T : Type} [DecidableEq T] {s : TcpServer T} {c : ℕ}

/-- `connectDestroyed` has run. -/
def gone (s : TcpServer T) (c : ℕ) : Bool :=
  (s.hist c).stage = .destroyed ∨ (s.hist c).stage = .released

/-! ### The close path -/

/-- The step enters `handleClose_` in the wrong place: for the end of the input, behind the
close callback of the same event; or for a destroyed connection that a late `shutdown` has
set to `kDisconnecting`. -/
def closesAgain (s : TcpServer T) (l : Label T) : Bool :=
  match s.closing l with
  | some c =>
      (s.todo.head? = some (.handleRead c) && s.hangsUp c) ||
        (s.gone c && (s.conns c).state = .kDisconnecting)
  | none => false

omit [DecidableEq T] in
lemma closing_eq_some {l : Label T} (h : s.closing l = some c) :
    ∃ op todo, s.todo = op :: todo ∧ (op = .handleClose c ∨ op = .handleRead c) := by
  cases l with
  | exec r =>
      simp only [closing] at h
      split at h
      · rename_i c' todo htodo
        obtain rfl := Option.some.inj h
        exact ⟨_, todo, htodo, Or.inl rfl⟩
      · rename_i todo htodo _
        obtain rfl := Option.some.inj h
        exact ⟨_, todo, htodo, Or.inr rfl⟩
      · exact absurd h (by simp)
  | _ => simp [closing] at h

/-- A connection whose `handleClose_` is entered is registered, and so it exists and is not
inside `connectDestroyed`. -/
lemma Sane.closing (h : s.Sane) {l : Label T} (hc : s.closing l = some c) :
    (s.chan c).index ≠ .kNew ∧ (s.hist c).stage ≠ .fresh ∧ (s.hist c).stage ≠ .destroying := by
  obtain ⟨op, todo, htodo, hop⟩ := closing_eq_some hc
  have hmem : op ∈ s.todo := htodo ▸ List.mem_cons_self
  have hev : op.event = some (.conn c) := by rcases hop with rfl | rfl <;> rfl
  exact ⟨h.dispatching.registered _ (Or.inr ⟨op, hmem, hev⟩), h.stage_of_event hmem hev⟩

/-- Where the condition holds, the assertion of `removeConnectionInLoop` holds. -/
lemma Sane.removeConnection_ok (h : s.Sane) {l : Label T} (hl : s.closesAgain l = false) :
    s.failure l ≠ some .removeConnectionInLoop := by
  intro hfail
  cases fails_of_failure hfail with
  | polled hrep hfill hf => simp at hf
  | connected htodo hr hfd hok =>
      rcases newConnection_error hok with ⟨-, hf⟩ | ⟨pf, -, hf⟩ <;> simp at hf
  | wrote htodo hok =>
      obtain ⟨pf, -, hf⟩ := handleWrite_error hok
      simp at hf
  | removed htodo hok =>
      obtain ⟨pf, -, hf⟩ := withPoller_error hok
      simp at hf
  | userSent husable hstate hok =>
      obtain ⟨pf, -, hf⟩ := sendInLoop_error hok
      simp at hf
  | @ran nwrote cb e htodo hqueue hok =>
      cases cb with
      | sendInLoop t c message =>
          simp only [runFunctor] at hok
          split_ifs at hok
          obtain ⟨pf, -, hf⟩ := sendInLoop_error (Option.some.inj hok)
          simp at hf
      | connectDestroyed c =>
          rcases connectDestroyed_error (Option.some.inj hok) with ⟨-, hf⟩ | ⟨pf, -, hf⟩ <;>
            simp at hf
      | shutdownInLoop | writeComplete => simp [runFunctor] at hok
  | @closed l c hclosing hok =>
      obtain ⟨-, hfresh, hquiet⟩ := h.closing hclosing
      rcases handleClose_error hok with ⟨-, hf⟩ | ⟨pf, -, hf⟩ | ⟨hclosable, hname, -⟩
      · simp at hf
      · simp at hf
      · simp only [closesAgain, hclosing, Bool.or_eq_false_iff, Bool.and_eq_false_iff,
          decide_eq_false_iff_not] at hl
        obtain ⟨op, todo, htodo, hop⟩ := closing_eq_some hclosing
        have hgone : s.gone c = true → (s.conns c).state ≠ .kConnected := fun hg =>
          (h.links.linked c).down (Or.inr (by simpa [gone] using hg))
        -- the connection is not in `connections_`, so it is closed, or destroyed
        cases hstage : (s.hist c).stage with
        | fresh => exact hfresh hstage
        | destroying => exact hquiet hstage
        | established =>
            have hin := (h.ledger.connections _ c).mpr ⟨hstage, h.ledger.named c hfresh⟩
            exact absurd (hin.symm.trans hname) (by simp)
        | closed =>
            obtain ⟨hclose, hread⟩ := h.dispatching.once c hstage
            rcases hop with rfl | rfl
            · exact hclose (htodo ▸ List.mem_cons_self)
            · have hup := hread (htodo ▸ List.mem_cons_self)
              simp [htodo, hup] at hl
        | destroyed | released =>
            have hg : s.gone c = true := by simp [gone, hstage]
            have hconnected := hgone hg
            simp_all [TcpConnection.closable, pop]

/-- **The close path runs once.**  In every run in which no end of the input is read behind
the close callback of the same event and no destroyed connection is closed,
`closeCallback_` is called at most once for each connection, and `connections_.erase`
always returns 1. -/
theorem close_path_runs_once {name : String} {acceptFd : ℕ} {wc : Bool}
    (h : Reaches (fun s l => s.closesAgain l = false) (start name acceptFd wc) s) :
    (∀ c, (s.hist c).closeCalls ≤ 1) ∧
      ∀ l, s.closesAgain l = false → s.failure l ≠ some .removeConnectionInLoop := by
  have hsane := sane_of_reaches h
  refine ⟨fun c => ?_, fun l hl => hsane.removeConnection_ok hl⟩
  rw [hsane.ledger.closeCalls c]
  split_ifs <;> simp

/-- A run that accepts connection 1 on descriptor 5 and comes back to `poll`. -/
def acceptOne (T : Type) : List (Label T) :=
  [.test, .poll [(.acceptor, POLLIN)], .dispatch, .exec ⟨some 5, .error, none⟩, .userReturn,
    .handled, .swap, .finish, .test]

/-- The client closes its end: the close path has run once. -/
theorem close_path_runs_once_eof : ∃ s : TcpServer Unit, (s.hist 1).closeCalls = 1 ∧
    (∀ c, (s.hist c).closeCalls ≤ 1) ∧
      ∀ l, s.closesAgain l = false → s.failure l ≠ some .removeConnectionInLoop := by
  have hrun : ((exec next (fun s l => s.closesAgain l = false) (start "s" 3 false)
      (acceptOne Unit ++ ([.poll [(.conn 1, POLLIN)], .dispatch,
        .exec ⟨none, .eof, none⟩] : List (Label Unit)))).map fun s => (s.hist 1).closeCalls) =
      some 1 := by decide +kernel
  obtain ⟨s, hs, hcalls⟩ := Option.map_eq_some_iff.mp hrun
  exact ⟨s, hcalls, close_path_runs_once ((Reach.refl _).of_exec hs)⟩

/-- A hang-up comes with urgent data and without input, and then nothing can be read:
`handleClose_` is entered for the second time, and `connections_.erase` returns 0. -/
theorem hang_up_closes_twice : ∃ s : TcpServer Unit,
    Reaches (fun _ _ => True) (start "s" 3 false) s ∧ (s.hist 1).closeCalls = 1 ∧
      s.closing (.exec ⟨none, .eof, none⟩) = some 1 ∧
      s.failure (.exec ⟨none, .eof, none⟩) = some .removeConnectionInLoop := by
  have hrun : ((exec next (fun _ _ => True) (start "s" 3 false)
      (acceptOne Unit ++ ([.poll [(.conn 1, POLLHUP ||| POLLPRI)], .dispatch,
        .exec ⟨none, .error, none⟩, .wakeup .loop] : List (Label Unit)))).map fun s =>
          ((s.hist 1).closeCalls, s.closing (.exec ⟨none, .eof, none⟩),
            s.failure (.exec ⟨none, .eof, none⟩))) =
      some (1, some 1, some .removeConnectionInLoop) := by decide +kernel
  obtain ⟨s, hs, hvals⟩ := Option.map_eq_some_iff.mp hrun
  simp only [Prod.mk.injEq] at hvals
  exact ⟨s, (Reach.refl _).of_exec hs, hvals⟩

end TcpServer

end Tractor
