import Kitex.Container.Slots
import Kitex.Machine.Run

/-! # Short connections of the gRPC pool

In short-connection mode every `Get` dials a transport of its own and opens a stream
on it, and `Put` and `Discard` close the transport gracefully. A transport that is
draining is closed when its stream ends. If the stream cannot be opened, `Get` returns
the error alone, and nobody can close the transport.
-/

namespace Kitex.Nphttp2

open Kitex.Container Kitex.Machine

inductive TransportState where
  | reachable
  | draining
  | closing
  deriving DecidableEq

/-- The transport of a short connection, with whether its stream is active. -/
structure ShortTransport where
  state : TransportState := .reachable
  active : Bool := false
  deriving DecidableEq

namespace ShortTransport

/-- `GracefulClose`, which does nothing the second time. -/
def gracefulClose (tr : ShortTransport) : ShortTransport :=
  if tr.state ≠ .reachable then tr
  else { tr with state := if tr.active then .draining else .closing }

/-- The stream ends, and with it a transport that is draining. -/
def streamDone (tr : ShortTransport) : ShortTransport where
  state := if tr.state = .draining then .closing else tr.state
  active := false

/-- The transport is closed, at the latest when its stream ends. -/
def Closed (tr : ShortTransport) : Prop :=
  tr.state = .closing ∨ tr.state = .draining ∧ tr.active = true

end ShortTransport

/-- Transports are numbered in the order they are created. A connection is named by its
transport; callers hold the connections that were returned to them. -/
structure ShortPool where
  transports : List ShortTransport := []
  held : List Nat := []
  deriving DecidableEq

/-- A call, with the errors that it meets: of the dial, and of the host or the stream in
`newClientConn`. The stream of a connection may also end. -/
inductive ShortCall where
  | get (dialErr streamErr : Option String)
  | put (conn : Nat)
  | discard (conn : Nat)
  | streamDone (conn : Nat)

namespace ShortPool

/-- `newClientConn` on a new transport. -/
def newClientConn (p : ShortPool) : Option String → ShortPool
  | some _ => { p with transports := p.transports ++ [{}] }
  | none =>
    { transports := p.transports ++ [{ active := true }], held := p.transports.length :: p.held }

def createShortConn (p : ShortPool) (dialErr streamErr : Option String) : ShortPool :=
  match dialErr with
  | some _ => p
  | none => p.newClientConn streamErr

/-- `release`, after which the caller has the connection no more. -/
def release (p : ShortPool) (conn : Nat) : ShortPool where
  transports := p.transports.modify conn ShortTransport.gracefulClose
  held := p.held.erase conn

/-- One call. A caller gives a connection back that it holds. -/
def step (p : ShortPool) : ShortCall → Option ShortPool
  | .get dialErr streamErr => some (p.createShortConn dialErr streamErr)
  | .put conn | .discard conn => if conn ∈ p.held then some (p.release conn) else none
  | .streamDone conn =>
    some { p with transports := p.transports.modify conn ShortTransport.streamDone }

/-- A `Get` that dials a transport opens its stream. -/
def opens : ShortCall → Prop
  | .get none (some _) => False
  | _ => True

/-- A transport that is not closed is reachable through a connection that is held. -/
structure Owned (p : ShortPool) : Prop where
  known : ∀ conn ∈ p.held, conn < p.transports.length
  nodup : p.held.Nodup
  owned : ∀ (conn : Nat) tr, p.transports[conn]? = some tr →
    tr.state = .reachable ∧ conn ∈ p.held ∨ tr.Closed

variable {p next : ShortPool}

theorem Owned.newClientConn (howned : p.Owned) : (p.newClientConn none).Owned where
  known := by
    simp only [ShortPool.newClientConn, List.length_append, List.length_singleton]
    refine List.forall_mem_cons.mpr ⟨by omega, fun conn hconn => ?_⟩
    exact Nat.lt_succ_of_lt (howned.known conn hconn)
  nodup := List.nodup_cons.mpr ⟨fun hmem => Nat.lt_irrefl _ (howned.known _ hmem), howned.nodup⟩
  owned := forall_getElem?_concat
    (fun conn tr htr => (howned.owned conn tr htr).imp_left
      fun ⟨hstate, hheld⟩ => ⟨hstate, List.mem_cons_of_mem _ hheld⟩)
    (.inl ⟨rfl, List.mem_cons_self⟩)

theorem Owned.release (howned : p.Owned) (conn : Nat) : (p.release conn).Owned where
  known other hother := by
    simpa [ShortPool.release] using howned.known other (List.mem_of_mem_erase hother)
  nodup := howned.nodup.erase conn
  owned := by
    refine forall_getElem?_modify (fun other tr hne htr => ?_) fun tr htr => .inr ?_
    · exact (howned.owned other tr htr).imp_left fun ⟨hstate, hheld⟩ =>
        ⟨hstate, (List.mem_erase_of_ne hne).mpr hheld⟩
    · obtain ⟨state, active⟩ := tr
      have hstate := howned.owned conn _ htr
      cases state <;> cases active <;>
        simp_all [ShortTransport.Closed, ShortTransport.gracefulClose]

theorem Owned.streamDone (howned : p.Owned) (conn : Nat) :
    Owned { p with transports := p.transports.modify conn ShortTransport.streamDone } where
  known other hother := by simpa using howned.known other hother
  nodup := howned.nodup
  owned := by
    refine forall_getElem?_modify (fun other tr _ htr => howned.owned other tr htr) fun tr htr => ?_
    obtain ⟨state, active⟩ := tr
    have hstate := howned.owned conn _ htr
    cases state <;> simp_all [ShortTransport.Closed, ShortTransport.streamDone]

theorem Owned.step (howned : p.Owned) {call : ShortCall} (hopens : opens call)
    (hstep : p.step call = some next) : next.Owned := by
  cases call with
  | get dialErr streamErr =>
    cases hstep
    cases dialErr with
    | some err => exact howned
    | none =>
      cases streamErr with
      | some err => exact hopens.elim
      | none => exact howned.newClientConn
  | put conn | discard conn =>
    obtain ⟨-, ⟨⟩⟩ := Option.ite_none_right_eq_some.mp hstep
    exact howned.release conn
  | streamDone conn =>
    cases hstep
    exact howned.streamDone conn

/-- Any sequence of calls on a new pool in which no stream creation fails: each transport
is held by exactly one caller, or it is closed. -/
theorem run_owned {calls : List ShortCall} {p : ShortPool} (hopens : ∀ call ∈ calls, opens call)
    (hrun : run step {} calls = some p) (conn : Nat) (tr : ShortTransport)
    (htr : p.transports[conn]? = some tr) : p.held.count conn = 1 ∨ tr.Closed := by
  have howned : (∀ call ∈ calls, opens call) → p.Owned := by
    refine run_invariant (fun past p => (∀ call ∈ past, opens call) → p.Owned) ?_ ?_ hrun
    · intro _
      refine ⟨fun conn hconn => ?_, List.nodup_nil, fun conn tr htr => ?_⟩
      · cases hconn
      · simp at htr
    · intro past p call next _ hpast hstep hcalls
      rw [List.forall_mem_append] at hcalls
      exact (hpast hcalls.1).step (hcalls.2 call List.mem_cons_self) hstep
  obtain ⟨-, hnodup, howned⟩ := howned hopens
  refine (howned conn tr htr).imp_left fun hheld => ?_
  rw [hnodup.count, if_pos hheld.2]

/-- A dial fails, another one succeeds, and its connection is put back. -/
theorem run_owned_put : ∃ p, run step {} [.get (some "refused") none, .get none none, .put 0,
      .streamDone 0] = some p ∧ ∃ tr, p.transports[0]? = some tr ∧
    (p.held.count 0 = 1 ∨ tr.Closed) := by
  obtain ⟨p, hrun⟩ := Option.isSome_iff_exists.mp (show (run step {} [.get (some "refused") none,
    .get none none, .put 0, .streamDone 0]).isSome by decide)
  have hp := hrun
  cases hp
  exact ⟨_, hrun, _, rfl, run_owned (by simp [opens]) hrun 0 _ rfl⟩

/-- The HTTPURL tag cannot be parsed, so that `newClientConn` fails, and the transport stays open
without a holder. -/
theorem failed_stream_leaves_transport :
    run step {} [.get none (some "parse \"%\": invalid URL escape \"%\"")] =
      some { transports := [{ state := .reachable }], held := [] } := by
  rfl

end ShortPool

end Kitex.Nphttp2
