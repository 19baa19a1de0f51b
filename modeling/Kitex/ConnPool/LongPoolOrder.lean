import Kitex.ConnPool.LongPoolLedger

/-! # The order of the idle connections

`Put` dates a connection and appends it, so with a clock that does not go back the
deadlines do not decrease along an idle list, and `Get` and `Evict` only shorten it
at its ends. This is why `Evict` may stop at the first connection that is not
expired. It never goes below the minimum of idle connections.
-/

namespace Kitex.ConnPool

open Kitex.Container Kitex.Machine

/-! ## The walks over the list -/

theorem suffix_getLoop (isActive : Nat → Bool) (stack : List Nat) :
    (getLoop isActive stack).2.kept <:+ stack := by
  induction stack with
  | nil => exact List.suffix_rfl
  | cons conn rest ih =>
    unfold getLoop
    split
    next => exact List.suffix_cons conn rest
    next => exact ih.trans (List.suffix_cons conn rest)

variable {queue : List Nat} {nonIdle : Int}

/-- The connections that are dropped are expired, and the loop ends at the minimum or
at one that is not expired. -/
theorem evictLoop_spec {expired : Nat → Bool} {walk : Walk}
    (hwalk : evictLoop expired nonIdle queue = some walk) :
    (∀ conn ∈ walk.dropped, expired conn = true) ∧
      ((walk.kept.length : Int) ≤ queue.length - nonIdle ∨
        ∀ first ∈ walk.kept.head?, expired first = false) := by
  induction queue generalizing nonIdle walk with
  | nil =>
    unfold evictLoop at hwalk
    split at hwalk
    next => cases hwalk
    next =>
      cases hwalk
      simp
  | cons conn rest ih =>
    unfold evictLoop at hwalk
    split at hwalk
    next hconn =>
      obtain ⟨inner, hinner, rfl⟩ := Option.map_eq_some_iff.mp hwalk
      obtain ⟨hdropped, hkept⟩ := ih hinner
      refine ⟨List.forall_mem_cons.mpr ⟨hconn.2, hdropped⟩, hkept.imp_left fun hle => ?_⟩
      simp only [List.length_cons]
      omega
    next hstop =>
      cases hwalk
      refine ⟨by simp, ?_⟩
      by_cases hpos : 0 < nonIdle
      · exact .inr (by simpa [hpos] using hstop)
      · exact .inl (by simp only; omega)

/-- A minimum that is not negative keeps the loop inside the list. -/
theorem isSome_evictLoop (expired : Nat → Bool) (hnonIdle : nonIdle ≤ queue.length) :
    (evictLoop expired nonIdle queue).isSome := by
  induction queue generalizing nonIdle with
  | nil => simp [evictLoop, show ¬0 < nonIdle by simpa using hnonIdle]
  | cons conn rest ih =>
    unfold evictLoop
    split
    next =>
      rw [Option.isSome_map]
      exact ih (by rw [List.length_cons] at hnonIdle; omega)
    next => rfl

namespace LongPool

/-! ## Deadlines -/

def deadline (pool : LongPool) (conn : Nat) : Int :=
  match pool.conns[conn]? with
  | some record => record.deadline
  | none => 0

theorem deadline_closeConns (pool : LongPool) (dropped : List Nat) :
    (pool.closeConns dropped).deadline = pool.deadline := by
  funext conn
  simp only [deadline, closeConns, getElem?_modifyEach_iterate]
  cases pool.conns[conn]? with
  | none => rfl
  | some record => simp only [Option.map_some, OneOwner.iterate_close]

/-- The idle list of a peer, with deadlines up to the latest that `Put` can have given. -/
structure Ordered (peer : Nat) (pool : LongPool) (clock : Int) : Prop where
  peer_lt : peer < pool.peers.length
  known : ∀ conn ∈ pool.idleList peer, conn < pool.conns.length
  sorted : (pool.idleList peer).Pairwise fun first second =>
    pool.deadline first ≤ pool.deadline second
  dated : ∀ conn ∈ pool.idleList peer,
    pool.deadline conn ≤ clock + pool.idleConfig.maxIdleTimeout

variable {pool next : LongPool} {peer : Nat} {clock : Int} {look : Look} {n : Int}

theorem idleList_setIdleList (hpeer : peer < pool.peers.length) (conns : List Nat) :
    (pool.setIdleList peer conns).idleList peer = conns := by
  simp [idleList, setIdleList, hpeer]

section

variable (hordered : Ordered peer pool clock)
include hordered

theorem Ordered.shrink {kept dropped : List Nat} (hkept : kept.Sublist (pool.idleList peer)) :
    Ordered peer ((pool.setIdleList peer kept).closeConns dropped) clock := by
  have hlist : ((pool.setIdleList peer kept).closeConns dropped).idleList peer = kept :=
    idleList_setIdleList hordered.peer_lt kept
  have hdeadline := (pool.setIdleList peer kept).deadline_closeConns dropped
  constructor
  · simpa [setIdleList, closeConns] using hordered.peer_lt
  · rw [hlist]
    intro conn hconn
    simpa [setIdleList, closeConns, length_modifyEach] using hordered.known conn (hkept.mem hconn)
  · rw [hlist, hdeadline]
    exact hordered.sorted.sublist hkept
  · rw [hlist, hdeadline]
    exact fun conn hconn => hordered.dated conn (hkept.mem hconn)

theorem Ordered.poolGet (look : Look) : Ordered peer (pool.poolGet peer look).1 clock := by
  apply hordered.shrink
  have hsuffix := suffix_getLoop (pool.isActive look) (pool.idleList peer).reverse
  simpa using (List.reverse_prefix.mpr hsuffix).sublist

theorem Ordered.poolEvict (hevict : pool.poolEvict peer look = some (next, n)) :
    Ordered peer next clock := by
  obtain ⟨walk, hwalk, heq⟩ := Option.map_eq_some_iff.mp hevict
  obtain ⟨rfl, -⟩ := Prod.mk.inj heq
  apply hordered.shrink
  rw [← append_of_evictLoop hwalk]
  exact List.sublist_append_right ..

/-- A connection that is not in the list is dated at a later time. -/
theorem Ordered.poolPut {conn : Nat} {now : Int}
    (hconn : conn < pool.conns.length) (hidle : conn ∉ pool.idleList peer) (hnow : clock ≤ now) :
    Ordered peer (pool.poolPut peer conn now).1 now := by
  have hlater (c : Nat) (hc : c ∈ pool.idleList peer) :
      pool.deadline c ≤ now + pool.idleConfig.maxIdleTimeout :=
    Int.le_trans (hordered.dated c hc) (by omega)
  unfold LongPool.poolPut
  split
  next =>
    generalize hd : now + pool.idleConfig.maxIdleTimeout = d at hlater ⊢
    have hlist := idleList_setIdleList
      (show peer < (pool.setDeadline conn d).peers.length from hordered.peer_lt)
      (pool.idleList peer ++ [conn])
    have hnew : (pool.setDeadline conn d).deadline conn = d := by
      simp [deadline, setDeadline, List.getElem?_eq_getElem hconn]
    have hold (c : Nat) (hc : c ∈ pool.idleList peer) :
        (pool.setDeadline conn d).deadline c = pool.deadline c := by
      simp only [deadline, setDeadline, getElem?_modify_ne (ne_of_mem_of_not_mem hc hidle)]
    constructor
    · simpa [setIdleList, setDeadline] using hordered.peer_lt
    · rw [hlist]
      intro c hc
      have hlt : c < pool.conns.length :=
        (List.mem_append.mp hc).elim (hordered.known c) fun h => List.mem_singleton.mp h ▸ hconn
      simpa [setIdleList, setDeadline] using hlt
    · rw [hlist]
      refine List.pairwise_append.mpr ⟨hordered.sorted.imp_of_mem fun ha hb hab => ?_,
        List.pairwise_singleton .., fun c hc last hlast => ?_⟩
      · exact (hold _ ha).symm ▸ (hold _ hb).symm ▸ hab
      · cases List.mem_singleton.mp hlast
        exact (hold c hc).symm ▸ hnew.symm ▸ hlater c hc
    · rw [hlist]
      intro c hc
      rcases List.mem_append.mp hc with hc | hc
      · exact (hold c hc).symm ▸ hd.symm ▸ hlater c hc
      · cases List.mem_singleton.mp hc
        exact hnew.symm ▸ hd.symm ▸ Int.le_refl d
  next => exact ⟨hordered.peer_lt, hordered.known, hordered.sorted, hlater⟩

end

/-! ## Calls on one peer -/

/-- The calls, with the connections that are dialled when `Get` finds none. -/
inductive PeerCall where
  | dial (address : String) (dialed : Dialed)
  | get (look : Look)
  | put (conn : Nat) (now : Int)
  | evict (look : Look)

/-- One call with the clock of the last `Put`, which does not go back. A caller puts a
connection that it has, so it is not idle. An `Evict` that panics does not return. -/
def peerStep (peer : Nat) : LongPool × Int → PeerCall → Option (LongPool × Int)
  | (pool, clock), .dial address dialed => some (pool.addConn address dialed, clock)
  | (pool, clock), .get look => some ((pool.poolGet peer look).1, clock)
  | (pool, clock), .put conn now =>
    if clock ≤ now ∧ conn < pool.conns.length ∧ conn ∉ pool.idleList peer then
      some ((pool.poolPut peer conn now).1, now)
    else none
  | (pool, clock), .evict look => (pool.poolEvict peer look).map fun (pool, _) => (pool, clock)

theorem Ordered.step (hordered : Ordered peer pool clock) {call : PeerCall} {later : Int}
    (hstep : peerStep peer (pool, clock) call = some (next, later)) : Ordered peer next later := by
  cases call with
  | dial address dialed =>
    cases hstep
    have hdeadline (c : Nat) (hc : c ∈ pool.idleList peer) :
        (pool.addConn address dialed).deadline c = pool.deadline c := by
      simp only [deadline, addConn, List.getElem?_append_left (hordered.known c hc)]
    refine ⟨hordered.peer_lt, fun c hc => ?_, ?_, fun c hc => ?_⟩
    · simpa [addConn] using Nat.lt_succ_of_lt (hordered.known c hc)
    · exact hordered.sorted.imp_of_mem fun ha hb hab =>
        (hdeadline _ ha).symm ▸ (hdeadline _ hb).symm ▸ hab
    · exact (hdeadline c hc).symm ▸ hordered.dated c hc
  | get look =>
    cases hstep
    exact hordered.poolGet look
  | put conn now =>
    obtain ⟨⟨hnow, hconn, hidle⟩, heq⟩ := Option.ite_none_right_eq_some.mp hstep
    cases heq
    exact hordered.poolPut hconn hidle hnow
  | evict look =>
    obtain ⟨⟨evicted, n⟩, hevict, heq⟩ := Option.map_eq_some_iff.mp hstep
    cases heq
    exact hordered.poolEvict hevict

/-- The counts of `Get`, and what `Evict` does, in any state of a peer. -/
theorem Ordered.evicts (hordered : Ordered peer pool clock)
    (hevict : pool.poolEvict peer look = some (next, n)) :
    n = (pool.idleList peer).length - (next.idleList peer).length ∧
      (∃ evicted, pool.idleList peer = evicted ++ next.idleList peer ∧
        ∀ conn ∈ evicted, pool.expired look conn = true) ∧
      (((next.idleList peer).length : Int) ≤ pool.idleConfig.minIdlePerAddress ∨
        ∀ first ∈ (next.idleList peer).head?, ∀ conn ∈ next.idleList peer,
          look.now first ≤ next.deadline conn) := by
  have hnext := hordered.poolEvict hevict
  obtain ⟨walk, hwalk, heq⟩ := Option.map_eq_some_iff.mp hevict
  cases heq
  have hlist : ((pool.setIdleList peer walk.kept).closeConns walk.dropped).idleList peer =
      walk.kept := idleList_setIdleList hordered.peer_lt walk.kept
  have hsplit := append_of_evictLoop hwalk
  obtain ⟨hexpired, hkept⟩ := evictLoop_spec hwalk
  have hsorted := hnext.sorted
  rw [hlist] at hsorted ⊢
  refine ⟨?_, ⟨walk.dropped, hsplit.symm, hexpired⟩, hkept.imp (fun hle => ?_) fun hfirst => ?_⟩
  · rw [← hsplit, List.length_append]
    push_cast
    omega
  · omega
  · -- the first connection is not expired, and the others have later deadlines
    intro first hhead conn hconn
    have hlook : look.now first ≤ pool.deadline first := by
      have hnot := hfirst first hhead
      have hmem : first ∈ pool.idleList peer :=
        hsplit ▸ List.mem_append_right _ (List.mem_of_mem_head? hhead)
      simpa [expired, LongConn.expired, deadline,
        List.getElem?_eq_getElem (hordered.known first hmem)] using hnot
    obtain ⟨rest, hrest⟩ := List.head?_eq_some_iff.mp hhead
    rw [deadline_closeConns] at hsorted ⊢
    rw [hrest] at hsorted hconn
    rcases List.mem_cons.mp hconn with rfl | hconn
    · exact hlook
    · exact Int.le_trans hlook (List.rel_of_pairwise_cons hsorted hconn)

/-- Calls on a peer of a new pool. In every state the deadlines do not decrease along the
list, `Get` and `Evict` return by how much they shorten it, and `Evict` drops expired
connections only and leaves no more than the minimum, or none that is expired at its last
look at the clock. -/
theorem run_ordered (config : IdleConfig) (addr : NetAddr) (clock : Int) {calls : List PeerCall}
    {pool : LongPool} {now : Int}
    (hrun : run (peerStep 0) ((newLongPool config).storePeer addr, clock) calls =
      some (pool, now)) : ((pool.idleList 0).map pool.deadline).Pairwise (· ≤ ·) ∧
      (∀ look, (pool.poolGet 0 look).2.2 =
        (pool.idleList 0).length - ((pool.poolGet 0 look).1.idleList 0).length) ∧
      (0 ≤ pool.idleConfig.minIdlePerAddress → ∀ look, (pool.poolEvict 0 look).isSome = true) ∧
      ∀ look next n, pool.poolEvict 0 look = some (next, n) →
        n = (pool.idleList 0).length - (next.idleList 0).length ∧
        (∃ evicted, pool.idleList 0 = evicted ++ next.idleList 0 ∧
          ∀ conn ∈ evicted, pool.expired look conn = true) ∧
        (((next.idleList 0).length : Int) ≤ pool.idleConfig.minIdlePerAddress ∨
          ∀ first ∈ (next.idleList 0).head?, ∀ conn ∈ next.idleList 0,
            look.now first ≤ next.deadline conn) := by
  have hordered : Ordered 0 pool now := by
    refine run_invariant (fun _ s => Ordered 0 s.1 s.2) ?_ ?_ hrun
    · refine ⟨Nat.zero_lt_one, fun conn hconn => ?_, List.Pairwise.nil, fun conn hconn => ?_⟩ <;>
        cases hconn
    · exact fun _ _ _ _ _ hstate hstep => hstate.step hstep
  refine ⟨List.pairwise_map.mpr hordered.sorted, fun look => ?_, fun hmin look => ?_,
    fun look next n hevict => hordered.evicts hevict⟩
  · obtain ⟨kept, dropped, found, hperm, hget⟩ := pool.poolGet_spec 0 look
    have hlist : ((pool.setIdleList 0 kept).closeConns dropped).idleList 0 = kept :=
      idleList_setIdleList hordered.peer_lt kept
    have hlength := hperm.length_eq
    rw [List.length_append] at hlength
    rw [hget]
    simp only [hlist]
    omega
  · rw [poolEvict, Option.isSome_map]
    exact isSome_evictLoop _ (by omega)

/-- Two connections are put back at different times, and one of them is evicted. -/
theorem run_ordered_two : let config : IdleConfig :=
      { minIdlePerAddress := 1, maxIdlePerAddress := 2, maxIdleGlobal := 2, maxIdleTimeout := 10 }
    let dial : PeerCall := .dial "a" { network := "tcp", isActiver := true }
    ∃ pool now, run (peerStep 0)
        ((newLongPool config).storePeer { network := "tcp", address := "a" }, 0)
        [dial, dial, .put 1 5, .put 0 7, .evict { alive := fun _ => true, now := fun _ => 30 }] =
      some (pool, now) ∧ ((pool.idleList 0).map pool.deadline).Pairwise (· ≤ ·) := by
  intro config dial
  obtain ⟨⟨pool, now⟩, hrun⟩ := Option.isSome_iff_exists.mp (show (run (peerStep 0)
    ((newLongPool config).storePeer { network := "tcp", address := "a" }, 0)
    [dial, dial, .put 1 5, .put 0 7,
      .evict { alive := fun _ => true, now := fun _ => 30 }]).isSome = true by decide)
  exact ⟨pool, now, hrun, (run_ordered config _ 0 hrun).1⟩

end LongPool

end Kitex.ConnPool
