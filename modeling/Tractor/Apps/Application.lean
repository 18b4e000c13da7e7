import Tractor.Net.Callbacks
import Tractor.Net.Completions
import Tractor.Net.Shutdown

/-!
An application on a `TcpServer`: the three callbacks it sets, each by what it calls on the
connection it is given.

The callbacks run in the loop's thread, inside the handler or functor that called them, and no
other thread touches the connections.  What a callback calls is fixed when it begins: the state and
the input of its connection change only by its own calls.  Each call, and everything between two
of them, is a step of the server below.

* `Application`: the callbacks.
* `AppServer.next`: one step of the application on its server.
* `AppServer.Move`: every way it can move.
-/

namespace Tractor

open Library

/-- What a callback calls on its connection. -/
inductive AppCall where
  | retrieve (n : ℕ)
  | send (message : List Byte)
  | shutdown
  deriving DecidableEq

/-- The callbacks of an application: what each calls on the connection it is given. -/
structure Application where
  onConnection : TcpConnection → List AppCall
  onMessage : TcpConnection → List AppCall
  onWriteComplete : Option (TcpConnection → List AppCall)

/-- The step is taken in a callback. -/
def TcpServer.Label.ofUser : TcpServer.Label Empty → Bool
  | .userSend _ _ _ => true
  | .userShutdown _ => true
  | .userRetrieve _ _ => true
  | .userReturn => true
  | _ => false

/-- The server below, and what the running callback still has to call. -/
structure AppServer where
  server : TcpServer Empty
  calls : List (ℕ × AppCall)

namespace AppServer

/-- The server behind `start()` and at the top of `loop()`, with the callbacks set. -/
def start (app : Application) (name : String) (acceptFd : ℕ) : AppServer where
  server := TcpServer.start name acceptFd app.onWriteComplete.isSome
  calls := []

/-- What the callback that a step of the server below has called is about to call. -/
def entered (app : Application) (s s' : TcpServer Empty) :
    TcpServer.Label Empty → List (ℕ × AppCall)
  | .exec r =>
      match s.todo, r.read, r.accept with
      | .handleRead c :: _, .data _, _ => (app.onMessage (s'.conns c)).map (c, ·)
      | .accept :: _, _, some _ =>
          (app.onConnection (s'.conns s.nextConnId)).map (s.nextConnId, ·)
      | _, _, _ => []
  | .run _ =>
      match s.loop.pc.functors with
      | .connectDestroyed c :: _ => (app.onConnection (s'.conns c)).map (c, ·)
      | .writeComplete c :: _ => (app.onWriteComplete.elim [] (· (s'.conns c))).map (c, ·)
      | _ => []
  | _ => []

/-- The steps: one of the server below that is not the user's, the next call of the running
callback, and its return. -/
inductive Label where
  | loop (l : TcpServer.Label Empty)
  | call (nwrote : Option ℕ)
  | ret

/-- One step: `none` if it is not possible. -/
def next (app : Application) (a : AppServer) : Label → Option AppServer
  | .loop l =>
      if l.ofUser then none
      else (a.server.next l).map fun server =>
        { server := server, calls := entered app a.server server l ++ a.calls }
  | .call nwrote =>
      match a.calls with
      | [] => none
      | (c, .retrieve n) :: calls =>
          (a.server.next (.userRetrieve c n)).map fun server => ⟨server, calls⟩
      | (c, .send message) :: calls =>
          (a.server.next (.userSend c message nwrote)).map fun server => ⟨server, calls⟩
      | (c, .shutdown) :: calls =>
          (a.server.next (.userShutdown c)).map fun server => ⟨server, calls⟩
  | .ret =>
      if a.calls = [] then
        (a.server.next .userReturn).map fun server => { a with server := server }
      else none

/-- The states an application comes through. -/
def Reaches (app : Application) (a a' : AppServer) : Prop :=
  Reach (next app) (fun _ _ => True) a a'

/-! ### What a step does -/

variable {app : Application} {a a' : AppServer}

/-- The step of the server below that a call is. -/
def callLabel (c : ℕ) (nwrote : Option ℕ) : AppCall → TcpServer.Label Empty
  | .retrieve n => .userRetrieve c n
  | .send message => .userSend c message nwrote
  | .shutdown => .userShutdown c

/-- Every way the application can move. -/
inductive Move (app : Application) (a : AppServer) : AppServer → Prop
  | looped {l : TcpServer.Label Empty} {server : TcpServer Empty} (hl : l.ofUser = false)
      (h : a.server.next l = some server) :
      Move app a ⟨server, entered app a.server server l ++ a.calls⟩
  | called {c : ℕ} {call : AppCall} {calls : List (ℕ × AppCall)} {nwrote : Option ℕ}
      {server : TcpServer Empty} (hcalls : a.calls = (c, call) :: calls)
      (h : a.server.next (callLabel c nwrote call) = some server) : Move app a ⟨server, calls⟩
  | returned {server : TcpServer Empty} (hcalls : a.calls = [])
      (h : a.server.next .userReturn = some server) : Move app a ⟨server, []⟩

theorem move_of_next {l : Label} (h : a.next app l = some a') : Move app a a' := by
  cases l with
  | loop l =>
      simp only [next] at h
      split_ifs at h with hl
      obtain ⟨server, hserver, rfl⟩ := Option.map_eq_some_iff.mp h
      exact .looped (by simpa using hl) hserver
  | call nwrote =>
      simp only [next] at h
      split at h
      · exact absurd h (by simp)
      all_goals
        rename_i hcalls
        obtain ⟨server, hserver, rfl⟩ := Option.map_eq_some_iff.mp h
        exact @Move.called _ _ _ _ _ nwrote _ hcalls hserver
  | ret =>
      simp only [next] at h
      split_ifs at h with hcalls
      obtain ⟨server, hserver, rfl⟩ := Option.map_eq_some_iff.mp h
      rw [hcalls]
      exact .returned hcalls hserver

/-- What holds at the start and is kept by every move holds in every state reached. -/
lemma Reaches.invariant {I : AppServer → Prop} {a₀ : AppServer}
    (hmove : ∀ a a', I a → Move app a a' → I a') (h : Reaches app a₀ a) (hstart : I a₀) : I a :=
  Reach.invariant (fun _ _ _ ha _ hnext => hmove _ _ ha (move_of_next hnext)) h hstart

lemma start_graceful (app : Application) (name : String) (acceptFd : ℕ) :
    (start app name acceptFd).server.Graceful :=
  ⟨TcpServer.start_sane _ _ _, TcpServer.start_streamed _ _ _, TcpServer.start_halting _ _ _,
    TcpServer.start_drained _ _ _⟩

end AppServer

end Tractor
