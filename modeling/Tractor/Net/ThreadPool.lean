import Tractor.Library.Control

/-!
`ThreadPool` of `src/ThreadPool.cpp`, and how `TcpServer` uses it to choose the loop of a
connection.

Event loops are named by the elements of a type; `startLoop` gives the loop that the `i`-th
new thread runs.  `assertInLoopThread` only prints, so it is left out.

* `ThreadPool.start`, `ThreadPool.getNextLoop`: the pool.  `rotates` says that a pool that was
  started with `n` threads gives its loops in turn and never leaves its vector.
* `PooledServer`: the members of `TcpServer` that decide the loop of a connection, with the
  loops that were given to the connections so far.  The numbering of the connections is part
  of the model of `TcpServer`.
* `given_base`: **every connection is given the loop of the acceptor**, in every sequence of
  the public calls, because none of them starts the pool; so `TcpServer` is a server of a
  single loop whatever `setThreadNum` was told.
* `never_spread`: no connection is given to a loop of the pool.
-/

namespace Tractor

open Library

/-- The assertion of `start`, and an index outside `loops_`. -/
inductive PoolFault where
  | start
  | index
  deriving DecidableEq, Repr

/-- `class ThreadPool`. -/
structure ThreadPool (L : Type) where
  baseLoop : L
  started : Bool
  numThreads : ℤ
  next : ℕ
  loops : List L
  deriving DecidableEq

namespace ThreadPool

variable {L : Type}

def new (baseLoop : L) : ThreadPool L := ⟨baseLoop, false, 0, 0, []⟩

def setThreadNum (p : ThreadPool L) (numThreads : ℤ) : ThreadPool L :=
  { p with numThreads := numThreads }

/-- `start()`, where the `i`-th thread that it creates runs the loop `startLoop i`. -/
def start (p : ThreadPool L) (startLoop : ℕ → L) : Except PoolFault (ThreadPool L) := do
  check (p.started = false) .start
  pure { p with
    started := true
    loops := p.loops ++ (List.range p.numThreads.toNat).map startLoop }

/-- `getNextLoop()`: the loop and the pool that is left. -/
def getNextLoop (p : ThreadPool L) : Except PoolFault (L × ThreadPool L) :=
  if p.loops.isEmpty then .ok (p.baseLoop, p)
  else
    match p.loops[p.next]? with
    | none => .error .index
    | some loop =>
        let next := p.next + 1
        .ok (loop, { p with next := if p.loops.length ≤ next then 0 else next })

lemma getNextLoop_nil {p : ThreadPool L} (h : p.loops = []) :
    p.getNextLoop = .ok (p.baseLoop, p) := by
  rw [getNextLoop, h]
  rfl

/-- **The index stays in the vector**: on a pool whose loops are in turn at `k`, the call
gives the `k`-th loop, counted round and round, and moves to the next. -/
lemma getNextLoop_rotates {p : ThreadPool L} {k : ℕ} (hpos : 0 < p.loops.length)
    (hnext : p.next = k % p.loops.length) :
    ∃ loop, p.loops[k % p.loops.length]? = some loop ∧
      p.getNextLoop = .ok (loop, { p with next := (k + 1) % p.loops.length }) := by
  have hlt : k % p.loops.length < p.loops.length := Nat.mod_lt k hpos
  have hne : ¬ p.loops.isEmpty = true := by
    rw [List.isEmpty_iff_length_eq_zero]
    omega
  have hwrap : (if p.loops.length ≤ k % p.loops.length + 1 then 0 else k % p.loops.length + 1) =
      (k + 1) % p.loops.length := by
    rw [← Nat.mod_add_mod]
    split_ifs with hend
    · rw [show k % p.loops.length + 1 = p.loops.length by omega, Nat.mod_self]
    · exact (Nat.mod_eq_of_lt (by omega)).symm
  refine ⟨p.loops.get ⟨k % p.loops.length, hlt⟩, List.getElem?_eq_getElem hlt, ?_⟩
  rw [getNextLoop, if_neg hne, hnext, List.getElem?_eq_getElem hlt]
  simp only [hwrap]
  rfl

end ThreadPool

/-! ### The server -/

/-- What `TcpServer` keeps for the choice of a loop: its own loop, its flags, the pool, and
the loops that the accepted connections were given. -/
structure PooledServer (L : Type) where
  loop : L
  started : Bool
  listening : Bool
  threadPool : ThreadPool L
  ioLoops : List L

/-- The calls on a server: two of its user, and one for each accepted connection. -/
inductive PoolCall where
  | setThreadNum (numThreads : ℤ)
  | start
  | newConnection
  deriving DecidableEq

namespace PooledServer

variable {L : Type} {s s' : PooledServer L} {loop : L}

def new (loop : L) : PooledServer L := ⟨loop, false, false, ThreadPool.new loop, []⟩

def setThreadNum (s : PooledServer L) (numThreads : ℤ) : PooledServer L :=
  { s with threadPool := s.threadPool.setThreadNum numThreads }

/-- `start()`: the flag is set and the acceptor listens. -/
def start (s : PooledServer L) : PooledServer L :=
  let s := if s.started then s else { s with started := true }
  if s.listening then s else { s with listening := true }

/-- `newConnection`: the loop that the connection is built with. -/
def newConnection (s : PooledServer L) : Except PoolFault (PooledServer L) := do
  let (ioLoop, pool) ← s.threadPool.getNextLoop
  pure { s with threadPool := pool, ioLoops := s.ioLoops ++ [ioLoop] }

def call (s : PooledServer L) : PoolCall → Except PoolFault (PooledServer L)
  | .setThreadNum numThreads => pure (s.setThreadNum numThreads)
  | .start => pure s.start
  | .newConnection => s.newConnection

/-- The server behind `k` connections that are accepted one after the other. -/
def accepts (s : PooledServer L) : ℕ → Except PoolFault (PooledServer L)
  | 0 => pure s
  | k + 1 => s.accepts k >>= newConnection

/-- The `k`-th connection is given to the loop `k mod n` of the pool, and no index has left
the vector by then. -/
def Spread (n : ℕ) (s : PooledServer L) (k : ℕ) : Prop :=
  ∃ s' ioLoop, s.accepts (k + 1) = .ok s' ∧ s'.threadPool.loops[k % n]? = some ioLoop ∧
    s'.ioLoops[k]? = some ioLoop

lemma newConnection_eq {ioLoop : L} {pool : ThreadPool L}
    (h : s.threadPool.getNextLoop = .ok (ioLoop, pool)) :
    s.newConnection = .ok { s with threadPool := pool, ioLoops := s.ioLoops ++ [ioLoop] } := by
  rw [newConnection, h]
  rfl

/-! ### A pool that was started -/

/-- The pool has `n` loops and is in turn at the number of connections so far, which were
given its loops round and round. -/
structure Rotating (n : ℕ) (s : PooledServer L) : Prop where
  length : s.threadPool.loops.length = n
  next : s.threadPool.next = s.ioLoops.length % n
  given : ∀ k < s.ioLoops.length, s.ioLoops[k]? = s.threadPool.loops[k % n]?

/-- One connection. -/
lemma Rotating.newConnection {n : ℕ} (hn : 0 < n) (h : Rotating n s) :
    ∃ s', s.newConnection = .ok s' ∧ Rotating n s' ∧
      s'.ioLoops.length = s.ioLoops.length + 1 := by
  obtain ⟨hlen, hnext, hgiven⟩ := h
  subst hlen
  obtain ⟨ioLoop, hget, hcall⟩ := ThreadPool.getNextLoop_rotates hn hnext
  refine ⟨_, newConnection_eq hcall, ⟨rfl, ?_, ?_⟩, by simp⟩
  · rw [List.length_append, List.length_singleton]
  · intro k hk
    simp only [List.length_append, List.length_singleton] at hk
    obtain hlt | rfl := Nat.lt_succ_iff_lt_or_eq.mp hk
    · rw [List.getElem?_append_left hlt]
      exact hgiven k hlt
    · rw [List.getElem?_concat_length]
      exact hget.symm

/-- Any number of connections. -/
lemma Rotating.accepts {n : ℕ} (hn : 0 < n) (h : Rotating n s) (k : ℕ) :
    ∃ s', s.accepts k = .ok s' ∧ Rotating n s' ∧ s'.ioLoops.length = s.ioLoops.length + k := by
  induction k with
  | zero => exact ⟨s, rfl, h, rfl⟩
  | succ k ih =>
      obtain ⟨s₁, hs₁, h₁, hlen₁⟩ := ih
      obtain ⟨s₂, hs₂, h₂, hlen₂⟩ := h₁.newConnection hn
      refine ⟨s₂, ?_, h₂, by omega⟩
      rw [PooledServer.accepts, hs₁]
      exact hs₂

/-- **A started pool spreads the connections**: were `threadPool_->start()` called, the `k`-th
connection would be given to the loop `k mod n`. -/
theorem rotates {n : ℕ} (hn : 0 < n) {p : ThreadPool L} {startLoop : ℕ → L}
    (hpool : ((ThreadPool.new loop).setThreadNum n).start startLoop = .ok p) (k : ℕ) :
    ({ new loop with threadPool := p } : PooledServer L).Spread n k := by
  obtain ⟨-, hp⟩ := check_bind_eq_ok.mp hpool
  obtain rfl := Except.ok.inj hp
  have hstart : Rotating n ({ new loop with threadPool :=
      { (ThreadPool.new loop).setThreadNum n with
        started := true
        loops := [] ++ (List.range (n : ℤ).toNat).map startLoop } } : PooledServer L) := by
    refine ⟨by simp, (Nat.zero_mod n).symm, ?_⟩
    rintro k hk
    exact absurd hk (Nat.not_lt_zero k)
  obtain ⟨s', hs', h', hlen⟩ := hstart.accepts hn (k + 1)
  have hk : k < s'.ioLoops.length := by
    rw [hlen]
    exact Nat.lt_add_left _ (Nat.lt_succ_self k)
  refine ⟨s', s'.ioLoops.get ⟨k, hk⟩, hs', ?_, List.getElem?_eq_getElem hk⟩
  rw [← h'.given k hk]
  exact List.getElem?_eq_getElem hk

/-! ### The pool of a server -/

/-- The pool has no loops, and every connection was given the loop of the server. -/
structure Alone (loop : L) (s : PooledServer L) : Prop where
  base : s.threadPool.baseLoop = loop
  loops : s.threadPool.loops = []
  given : ∀ ioLoop ∈ s.ioLoops, ioLoop = loop

lemma new_alone (loop : L) : Alone loop (new loop) := ⟨rfl, rfl, by simp [new]⟩

lemma Alone.setThreadNum (h : Alone loop s) (numThreads : ℤ) :
    Alone loop (s.setThreadNum numThreads) :=
  ⟨h.base, h.loops, h.given⟩

lemma Alone.start (h : Alone loop s) : Alone loop s.start := by
  obtain ⟨base, started, listening, pool, ioLoops⟩ := s
  cases started <;> cases listening <;> exact ⟨h.base, h.loops, h.given⟩

lemma Alone.newConnection (h : Alone loop s) :
    ∃ s', s.newConnection = .ok s' ∧ Alone loop s' ∧ s'.ioLoops = s.ioLoops ++ [loop] := by
  have hget := ThreadPool.getNextLoop_nil h.loops
  rw [h.base] at hget
  refine ⟨_, newConnection_eq hget, ⟨h.base, h.loops, ?_⟩, rfl⟩
  intro ioLoop hmem
  rcases List.mem_append.mp hmem with hmem | hmem
  · exact h.given ioLoop hmem
  · exact List.mem_singleton.mp hmem

/-- **One call keeps the pool empty.** -/
lemma Alone.call (h : Alone loop s) (a : PoolCall) :
    ∃ s', s.call a = .ok s' ∧ Alone loop s' := by
  cases a with
  | setThreadNum numThreads => exact ⟨_, rfl, h.setThreadNum numThreads⟩
  | start => exact ⟨_, rfl, h.start⟩
  | newConnection =>
      obtain ⟨s', hs', h', -⟩ := h.newConnection
      exact ⟨s', hs', h'⟩

/-- **Every connection is given the loop of the acceptor**, whatever is called. -/
theorem given_base (loop : L) (calls : List PoolCall) :
    ∃ s', calls.foldlM call (new loop) = .ok s' ∧ ∀ ioLoop ∈ s'.ioLoops, ioLoop = loop := by
  suffices hrun : ∀ s : PooledServer L, Alone loop s →
      ∃ s', calls.foldlM PooledServer.call s = .ok s' ∧ Alone loop s' by
    obtain ⟨s', hs', h'⟩ := hrun (new loop) (new_alone loop)
    exact ⟨s', hs', h'.given⟩
  induction calls with
  | nil => exact fun s h => ⟨s, rfl, h⟩
  | cons a calls ih =>
      intro s h
      obtain ⟨s₁, hs₁, h₁⟩ := h.call a
      obtain ⟨s', hs', h'⟩ := ih s₁ h₁
      refine ⟨s', ?_, h'⟩
      rw [List.foldlM_cons, hs₁]
      exact hs'

/-- The connections that are accepted one after the other. -/
lemma Alone.accepts (h : Alone loop s) (hnone : s.ioLoops = []) (k : ℕ) :
    ∃ s', s.accepts k = .ok s' ∧ Alone loop s' ∧ s'.ioLoops = List.replicate k loop := by
  induction k with
  | zero => exact ⟨s, rfl, h, hnone⟩
  | succ k ih =>
      obtain ⟨s₁, hs₁, h₁, hgiven₁⟩ := ih
      obtain ⟨s₂, hs₂, h₂, hgiven₂⟩ := h₁.newConnection
      refine ⟨s₂, ?_, h₂, ?_⟩
      · rw [PooledServer.accepts, hs₁]
        exact hs₂
      · rw [hgiven₂, hgiven₁, List.replicate_succ']

/-- **No connection is given to a loop of the pool**: whatever number of threads the server
was told before `start()`, its `k`-th connection is given the loop of the acceptor, and the
pool has no loops at all. -/
theorem never_spread (loop : L) (n k : ℕ) :
    (∃ s', ((new loop).setThreadNum n).start.accepts (k + 1) = .ok s' ∧
      s'.ioLoops = List.replicate (k + 1) loop ∧ s'.threadPool.loops = []) ∧
      ¬ ((new loop).setThreadNum n).start.Spread n k := by
  have h : Alone loop ((new loop).setThreadNum n).start :=
    ((new_alone loop).setThreadNum n).start
  obtain ⟨s', hs', h', hgiven⟩ := h.accepts rfl (k + 1)
  refine ⟨⟨s', hs', hgiven, h'.loops⟩, ?_⟩
  rintro ⟨s'', ioLoop, hs'', hloop, -⟩
  obtain rfl := Except.ok.inj (hs'.symm.trans hs'')
  rw [h'.loops] at hloop
  exact absurd hloop (by simp)

/-- Two threads are asked for, and the first connection is given to neither. -/
theorem two_threads_not_spread :
    ¬ ∀ n : ℕ, 1 ≤ n → ∀ k, ((new (0 : ℕ)).setThreadNum n).start.Spread n k := by
  intro h
  obtain ⟨s', ioLoop, hs', hloop, -⟩ := h 2 (by decide) 0
  obtain rfl : _ = s' := Except.ok.inj hs'
  have hnone : (none : Option ℕ) = some ioLoop := hloop
  cases hnone

end PooledServer

end Tractor
