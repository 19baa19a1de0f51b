import Kitex.ConnPool.LongPoolCalls
import Kitex.ConnPool.LongPoolLedger

/-! # Idle connections stay within reach of eviction

`Put` looks up its peer and appends to it in separate steps, `Clean` and
`Close` take a peer out of the map and drain it in separate steps, and `Get`
stores a new peer without a look at whether the pool is closed. As long as
these steps do not fall between one another, a peer that has idle connections
is in the map of an open pool, or about to be drained.
-/

namespace Kitex.ConnPool

open Kitex.Container Kitex.Machine LongPool

namespace Call

/-- The peer to which a `Put` is about to append. -/
def putPeer : Call → Option Nat
  | putFound _ peer | putCounted _ peer => some peer
  | _ => none

/-- The call is about to drain the peer. -/
def Drains (peer : Nat) : Call → Prop
  | draining found _ => found = peer
  | _ => False

/-- The walk of `Close` has yet to take the address out of the map. -/
def WillVisit (addr : NetAddr) : Call → Prop
  | closing rest => addr ∈ rest
  | closeFound found _ rest => addr = found ∨ addr ∈ rest
  | draining _ (some rest) | drained _ (some rest) => addr ∈ rest
  | _ => False

end Call

namespace LongPool

/-- A peer keeps its address, and gets no idle connection that it had not. -/
structure Thins (before after : Peer) : Prop where
  addr : after.addr = before.addr
  idleList : after.idleList ≠ [] → before.idleList ≠ []

/-- A step that leaves the map and fills no idle list. -/
structure Quiet (pool next : LongPool) : Prop where
  peerMap : next.peerMap = pool.peerMap
  closed : next.closed = pool.closed
  peers : List.Forall₂ Thins pool.peers next.peers

variable {pool next : LongPool} {peer : Nat}

theorem Thins.refl (record : Peer) : Thins record record where
  addr := rfl
  idleList := id

theorem Quiet.of_eq (hpeerMap : next.peerMap = pool.peerMap) (hclosed : next.closed = pool.closed)
    (hpeers : next.peers = pool.peers) : Quiet pool next where
  peerMap := hpeerMap
  closed := hclosed
  peers := hpeers ▸ List.forall₂_same.mpr fun record _ => Thins.refl record

theorem Quiet.refl (pool : LongPool) : Quiet pool pool := .of_eq rfl rfl rfl

theorem Quiet.setGlobalIdle (counter : MaxCounter) : Quiet pool (pool.setGlobalIdle counter) :=
  .of_eq rfl rfl rfl

theorem Quiet.setHeld (conn : Nat) (held : Bool) : Quiet pool (pool.setHeld conn held) :=
  .of_eq rfl rfl rfl

/-- Connections leave the idle list of a peer. -/
theorem Quiet.shrink {kept out dropped : List Nat}
    (hperm : (pool.idleList peer).Perm (kept ++ out)) :
    Quiet pool ((pool.setIdleList peer kept).closeConns dropped) where
  peerMap := rfl
  closed := rfl
  peers := by
    apply forall₂_modify Thins.refl
    intro record hrecord
    refine { addr := rfl, idleList := ?_ }
    rintro hkept hnil
    rw [idleList_of_getElem? hrecord, hnil] at hperm
    exact hkept (List.append_eq_nil_iff.mp hperm.nil_eq.symm).1

theorem Quiet.handOut (found : Option Nat) (address : String) (dialed : Option Dialed) :
    Quiet pool (pool.handOut found address dialed) := by
  cases found <;> cases dialed <;> exact .of_eq rfl rfl rfl

end LongPool

namespace PoolCalls

variable {s : PoolCalls} {pool : LongPool} {k : Nat} {old call : Call} {addr : NetAddr} {peer : Nat}

/-- What holds between any two steps. -/
structure Reach (s : PoolCalls) : Prop where
  stored : Stored s.pool.peerMap s.pool.peers
  /-- A `Put` appends to a peer of the map. -/
  puts : ∀ (k : Nat) call, s.calls[k]? = some call → ∀ peer, call.putPeer = some peer →
    ∃ addr, s.pool.peerMap.lookup addr = some peer
  idle : ∀ (peer : Nat) record, s.pool.peers[peer]? = some record → record.idleList ≠ [] →
    s.pool.peerMap.lookup record.addr = some peer ∨ ∃ call ∈ s.calls, call.Drains peer
  walk : s.pool.closed = true → ∀ addr peer, s.pool.peerMap.lookup addr = some peer →
    ∃ call ∈ s.calls, call.WillVisit addr

/-- The address is still mapped to the peer that the call has loaded, if to any,
and no `Put` is about to append to this peer. -/
def removesAlone (s : PoolCalls) (addr : NetAddr) (peer : Nat) : Bool :=
  (s.pool.peerMap.lookup addr).all (· == peer) && s.calls.all (·.putPeer != some peer)

theorem eq_of_removesAlone {peer found : Nat} (halone : s.removesAlone addr peer)
    (hfound : s.pool.peerMap.lookup addr = some found) : found = peer := by
  have hmapped := (Bool.and_eq_true_iff.mp halone).1
  rw [hfound] at hmapped
  exact beq_iff_eq.mp hmapped

theorem putPeer_ne_of_removesAlone (halone : s.removesAlone addr peer) (hmem : call ∈ s.calls) :
    call.putPeer ≠ some peer :=
  bne_iff_ne.mp (List.all_eq_true.mp (Bool.and_eq_true_iff.mp halone).2 call hmem)

/-- The condition on a step: `Clean` and `Close` remove a peer alone, and no
peer is stored in a closed pool. -/
def orderly (s : PoolCalls) : CallEvent → Bool
  | .advance k _ =>
    match s.calls[k]? with
    | some (.cleanFound addr peer) | some (.closeFound addr peer _) => s.removesAlone addr peer
    | some (.getMissed addr) => !s.pool.closed || (s.pool.peerMap.lookup addr).isSome
    | _ => true
  | _ => true

namespace Reach

/-- A quiet step keeps all of it, as long as the calls stay where they are. -/
theorem of_quiet (hreach : Reach s) (hquiet : s.pool.Quiet pool) : Reach { s with pool } where
  stored := by
    rw [hquiet.peerMap]
    exact hreach.stored.of_forall₂ (fun _ _ hthins => hthins.addr) hquiet.peers
  puts := by
    rw [hquiet.peerMap]
    exact hreach.puts
  idle peer record hrecord hne := by
    obtain ⟨before, hbefore, hthins⟩ := forall₂_getElem?_right hquiet.peers hrecord
    rw [hquiet.peerMap, hthins.addr]
    exact hreach.idle peer before hbefore (hthins.idleList hne)
  walk := by
    rw [hquiet.closed, hquiet.peerMap]
    exact hreach.walk

/-- A call moves on, and forgets no peer it has to drain and no address it has
to visit. -/
theorem setCall (hreach : Reach s) (hcall : s.calls[k]? = some old)
    (hputs : ∀ peer, call.putPeer = some peer → old.putPeer = some peer)
    (hdrains : ∀ peer, old.Drains peer →
      call.Drains peer ∨ ∀ record, s.pool.peers[peer]? = some record → record.idleList = [])
    (hwalk : ∀ addr peer, s.pool.peerMap.lookup addr = some peer → old.WillVisit addr →
      call.WillVisit addr) : Reach (s.setCall k s.pool call) where
  stored := hreach.stored
  puts := by
    apply forall_getElem?_modify
    · exact fun j found _ hfound => hreach.puts j found hfound
    · exact fun _ _ peer hpeer => hreach.puts k old hcall peer (hputs peer hpeer)
  idle peer record hrecord hne := by
    apply (hreach.idle peer record hrecord hne).imp_right
    apply exists_mem_modify hcall
    intro hold
    exact (hdrains peer hold).resolve_right fun hempty => hne (hempty record hrecord)
  walk hclosed addr peer hpeer :=
    exists_mem_modify hcall (hwalk addr peer hpeer) (hreach.walk hclosed addr peer hpeer)

variable {addr : NetAddr} {rest : List NetAddr} {next : Option NetAddr}

section

variable (hreach : Reach s)
include hreach

/-- A `Get` stores a new peer while the pool is open. -/
theorem store (hcall : s.calls[k]? = some (.getMissed addr))
    (hnone : s.pool.peerMap.lookup addr = none) (hopen : s.pool.closed = false) (peer : Nat) :
    Reach (s.setCall k (s.pool.storePeer addr) (.getFound addr peer)) where
  stored := hreach.stored.insert addr
  puts := by
    apply forall_getElem?_modify
    · intro j found _ hfound peer hpeer
      obtain ⟨other, hother⟩ := hreach.puts j found hfound peer hpeer
      exact ⟨other, lookup_insert_of_none hnone hother⟩
    · exact fun _ _ peer hpeer => nomatch hpeer
  idle := by
    apply forall_getElem?_concat
    · intro peer record hrecord hne
      rcases hreach.idle peer record hrecord hne with hfound | hdrain
      · exact .inl (lookup_insert_of_none hnone hfound)
      · exact .inr (exists_mem_modify hcall (fun hold => hold.elim) hdrain)
    · exact fun hne => absurd rfl hne
  walk hclosed := by
    change s.pool.closed = true at hclosed
    rw [hopen] at hclosed
    nomatch hclosed

/-- A `Put` appends to its peer. -/
theorem append {conn peer : Nat}
    (hcall : s.calls[k]? = some (.putCounted conn peer)) (deadline : Int) (idle : List Nat) :
    Reach (s.setCall k ((s.pool.setDeadline conn deadline).setIdleList peer idle) .done) where
  stored := hreach.stored.setIdleList peer idle
  puts := by
    apply forall_getElem?_modify
    · exact fun j found _ hfound => hreach.puts j found hfound
    · exact fun _ _ peer hpeer => nomatch hpeer
  idle := by
    apply forall_getElem?_modify
    · intro other record _ hrecord hne
      rcases hreach.idle other record hrecord hne with hfound | hdrain
      · exact .inl hfound
      · exact .inr (exists_mem_modify hcall (fun hold => hold.elim) hdrain)
    · intro record hrecord _
      obtain ⟨addr, hpeer⟩ := hreach.puts k _ hcall peer rfl
      obtain ⟨record', hrecord', rfl⟩ := hreach.stored addr peer hpeer
      cases hrecord.symm.trans hrecord'
      exact .inl hpeer
  walk hclosed addr peer hpeer :=
    exists_mem_modify hcall (fun hold => hold.elim) (hreach.walk hclosed addr peer hpeer)

/-- A peer is taken out of the map by a call that goes on to drain it. No
`Put` is about to append to it, and no other peer has taken its place. -/
theorem delete {walk : Option (List NetAddr)} (hcall : s.calls[k]? = some old)
    (halone : s.removesAlone addr peer)
    (hdrains : ∀ peer, ¬ old.Drains peer) (hwalk : ∀ other, other ≠ addr → old.WillVisit other →
      (Call.draining peer walk).WillVisit other) :
    Reach (s.setCall k (s.pool.deletePeer addr) (.draining peer walk)) where
  stored := hreach.stored.erase addr
  puts := by
    apply forall_getElem?_modify
    · intro j found _ hfound other hother
      obtain ⟨addr', haddr'⟩ := hreach.puts j found hfound other hother
      have hne : addr' ≠ addr := by
        rintro rfl
        obtain rfl := eq_of_removesAlone halone haddr'
        exact putPeer_ne_of_removesAlone halone (List.mem_of_getElem? hfound) hother
      exact ⟨addr', (AList.lookup_erase_ne hne).trans haddr'⟩
    · exact fun _ _ peer hpeer => nomatch hpeer
  idle other record hrecord hne := by
    rcases hreach.idle other record hrecord hne with hfound | hdrain
    · by_cases haddr : record.addr = addr
      · rw [haddr] at hfound
        obtain rfl := eq_of_removesAlone halone hfound
        exact .inr ⟨_, List.mem_of_getElem? (getElem?_modify_self hcall _), rfl⟩
      · exact .inl ((AList.lookup_erase_ne haddr).trans hfound)
    · exact .inr (exists_mem_modify hcall (fun hold => (hdrains other hold).elim) hdrain)
  walk hclosed other found hfound := by
    obtain ⟨hne, hold⟩ := lookup_erase_cases hfound
    exact exists_mem_modify hcall (hwalk other hne) (hreach.walk hclosed other found hold)

/-- A method is called. -/
theorem started (hputs : ∀ peer, call.putPeer = some peer →
      ∃ addr, s.pool.peerMap.lookup addr = some peer) : Reach (s.started s.pool call) where
  stored := hreach.stored
  puts := forall_getElem?_concat hreach.puts hputs
  idle peer record hrecord hne := by
    apply (hreach.idle peer record hrecord hne).imp_right
    exact exists_mem_concat
  walk hclosed addr peer hpeer := exists_mem_concat (hreach.walk hclosed addr peer hpeer)

/-- `Close` has every address of the map ahead of it. -/
theorem close : Reach (s.started { s.pool with closed := true } (.closing s.pool.addrs)) where
  stored := hreach.stored
  puts := forall_getElem?_concat hreach.puts fun _ hpeer => nomatch hpeer
  idle peer record hrecord hne := by
    apply (hreach.idle peer record hrecord hne).imp_right
    exact exists_mem_concat
  walk _ addr peer hpeer := by
    refine ⟨.closing s.pool.addrs, List.mem_append_right _ List.mem_cons_self, ?_⟩
    exact List.mem_map_of_mem (f := (·.1)) (AList.mem_lookup_iff.mp hpeer)

end

theorem new (config : IdleConfig) : Reach { pool := newLongPool config } where
  stored := by simp [newLongPool, Stored]
  puts := by simp
  idle := by simp [newLongPool]
  walk := by simp [newLongPool]

/-- A step between stages of which nothing has to be remembered. -/
theorem plain (hreach : Reach s) (hcall : s.calls[k]? = some old) (hquiet : s.pool.Quiet pool)
    (hputs : call.putPeer = none) (hdrains : ∀ peer, ¬ old.Drains peer)
    (hwalk : ∀ addr, ¬ old.WillVisit addr) : Reach (s.setCall k pool call) := by
  apply (hreach.of_quiet hquiet).setCall hcall
  · intro peer hpeer
    rw [hputs] at hpeer
    nomatch hpeer
  · exact fun peer hold => (hdrains peer hold).elim
  · exact fun addr _ _ hold => (hwalk addr hold).elim

theorem loadOrStore (hreach : Reach s) (hcall : s.calls[k]? = some (.getMissed addr))
    (horderly : (!s.pool.closed || (s.pool.peerMap.lookup addr).isSome) = true)
    (hstore : s.pool.loadOrStore addr = some (pool, call)) : Reach (s.setCall k pool call) := by
  obtain ⟨_, heq⟩ := Option.ite_none_left_eq_some.mp hstore
  split at heq
  next peer hpeer =>
    cases heq
    exact hreach.plain hcall (.refl _) rfl (fun _ => id) fun _ => id
  next hnone =>
    cases heq
    rw [hnone] at horderly
    exact hreach.store hcall hnone (by simpa using horderly) _

theorem putPeer_walkEvict (hwalk : pool.walkEvict rest next = some call) : call.putPeer = none := by
  unfold walkEvict at hwalk
  split at hwalk
  next =>
    obtain ⟨_, heq⟩ := Option.ite_none_right_eq_some.mp hwalk
    cases heq
    rfl
  next =>
    split at hwalk
    all_goals
      cases hwalk
      rfl

/-- The walk of `Close` comes to a key, or finds that none is left. -/
theorem walkClose (hreach : Reach s) (hcall : s.calls[k]? = some (.closing rest))
    (hwalk : s.pool.walkClose rest next = some call) : Reach (s.setCall k s.pool call) := by
  unfold LongPool.walkClose at hwalk
  split at hwalk
  next =>
    obtain ⟨rfl, heq⟩ := Option.ite_none_right_eq_some.mp hwalk
    cases heq
    exact hreach.plain hcall (.refl _) rfl (fun _ => id) fun _ => List.not_mem_nil
  next addr =>
    split at hwalk
    next peer hpeer =>
      cases hwalk
      apply hreach.setCall hcall
      · exact fun _ hpeer => nomatch hpeer
      · exact fun _ hold => hold.elim
      · intro other _ _ hold
        by_cases heq : other = addr
        · exact .inl heq
        · exact .inr ((List.mem_erase_of_ne heq).mpr hold)
    next hnone =>
      cases hwalk
      apply hreach.setCall hcall
      · exact fun _ hpeer => nomatch hpeer
      · exact fun _ hold => hold.elim
      · intro other peer hpeer hold
        have hne : other ≠ addr := by
          rintro rfl
          nomatch hnone.symm.trans hpeer
        exact (List.mem_erase_of_ne hne).mpr hold

theorem advance {env : CallEnv} (hreach : Reach s) (hcall : s.calls[k]? = some old)
    (horderly : s.orderly (.advance k env))
    (hadvance : s.pool.advance env old = some (pool, call)) : Reach (s.setCall k pool call) := by
  simp only [orderly, hcall] at horderly
  cases old with
  | getMissed addr => exact hreach.loadOrStore hcall horderly hadvance
  | getFound addr peer =>
    obtain ⟨kept, dropped, found, hperm, hget⟩ := poolGet_spec s.pool peer env.look
    simp only [advance, hget] at hadvance
    cases hadvance
    exact hreach.plain hcall (.shrink hperm) rfl (fun _ => id) fun _ => id
  | getTaken addr found decNum | putOver conn | putFull conn | evicted n rest =>
    cases hadvance
    exact hreach.plain hcall (.setGlobalIdle _) rfl (fun _ => id) fun _ => id
  | getCounted addr found =>
    cases hadvance
    exact hreach.plain hcall (.handOut ..) rfl (fun _ => id) fun _ => id
  | putFound conn peer =>
    cases hadvance
    apply (hreach.of_quiet (.setGlobalIdle (s.pool.globalIdle.add 1))).setCall hcall
    · intro found hfound
      split at hfound
      next => nomatch hfound
      next => exact hfound
    · exact fun _ hold => hold.elim
    · exact fun _ _ _ hold => hold.elim
  | putCounted conn peer =>
    rcases poolPut_spec s.pool peer conn env.now with ⟨_, deadline, hput⟩ | hput
    all_goals
      simp only [advance, recycle, hput] at hadvance
      cases hadvance
    · exact hreach.append hcall deadline _
    · exact hreach.plain hcall (.refl _) rfl (fun _ => id) fun _ => id
  | dropping conn =>
    cases hadvance
    exact hreach.plain hcall (.of_eq rfl rfl rfl) rfl (fun _ => id) fun _ => id
  | cleanFound addr peer =>
    cases hadvance
    exact hreach.delete hcall horderly (fun _ => id) fun _ _ => id
  | evicting rest =>
    obtain ⟨found, hfound, heq⟩ := Option.map_eq_some_iff.mp hadvance
    obtain ⟨rfl, rfl⟩ := Prod.mk.inj heq
    exact hreach.plain hcall (.refl _) (putPeer_walkEvict hfound) (fun _ => id) fun _ => id
  | evictFound peer rest =>
    obtain ⟨⟨evicted, n⟩, hevict, heq⟩ := Option.map_eq_some_iff.mp hadvance
    obtain ⟨rfl, rfl⟩ := Prod.mk.inj heq
    obtain ⟨kept, dropped, hperm, rfl, rfl⟩ := poolEvict_spec hevict
    exact hreach.plain hcall (.shrink hperm) rfl (fun _ => id) fun _ => id
  | closing rest =>
    obtain ⟨found, hfound, heq⟩ := Option.map_eq_some_iff.mp hadvance
    obtain ⟨rfl, rfl⟩ := Prod.mk.inj heq
    exact hreach.walkClose hcall hfound
  | closeFound addr peer rest =>
    cases hadvance
    exact hreach.delete hcall horderly (fun _ => id)
      fun other hne hold => hold.resolve_left hne
  | draining peer walk =>
    cases hadvance
    have hperm : (s.pool.idleList peer).Perm ([] ++ s.pool.idleList peer) := .refl _
    apply (hreach.of_quiet (.shrink hperm)).setCall hcall
    · exact fun _ hpeer => nomatch hpeer
    · rintro _ rfl
      refine .inr fun record hrecord => ?_
      change (s.pool.peers.modify peer _)[peer]? = some record at hrecord
      rw [List.getElem?_modify_eq] at hrecord
      obtain ⟨before, _, rfl⟩ := Option.map_eq_some_iff.mp hrecord
      rfl
    · intro addr _ _ hold
      cases walk with
      | none => exact hold
      | some rest => exact hold
  | drained n walk =>
    cases walk with
    | none =>
      cases hadvance
      exact hreach.plain hcall (.setGlobalIdle _) rfl (fun _ => id) fun _ => id
    | some rest =>
      cases hadvance
      apply (hreach.of_quiet (.setGlobalIdle (s.pool.globalIdle.decN n))).setCall hcall
      · exact fun _ hpeer => nomatch hpeer
      · exact fun _ hold => hold.elim
      · exact fun _ _ _ hold => hold
  | done => nomatch hadvance

theorem step {event : CallEvent} {next : PoolCalls} (hreach : Reach s)
    (horderly : s.orderly event) (hstep : s.step event = some next) : Reach next := by
  cases event with
  | get addr =>
    cases hstep
    apply hreach.started
    intro peer hpeer
    unfold startGet at hpeer
    split at hpeer <;> nomatch hpeer
  | put conn =>
    obtain ⟨_, heq⟩ := Option.ite_none_right_eq_some.mp hstep
    cases heq
    apply (hreach.of_quiet (.setHeld conn false)).started
    intro peer hpeer
    unfold startPut at hpeer
    split at hpeer
    next found hfound =>
      cases hpeer
      exact ⟨_, hfound⟩
    next => nomatch hpeer
  | discard conn =>
    obtain ⟨_, heq⟩ := Option.ite_none_right_eq_some.mp hstep
    cases heq
    exact (hreach.of_quiet (.setHeld conn false)).started fun _ hpeer => nomatch hpeer
  | clean addr =>
    cases hstep
    apply hreach.started
    intro peer hpeer
    unfold startClean at hpeer
    split at hpeer <;> nomatch hpeer
  | evict =>
    cases hstep
    apply hreach.started
    intro peer hpeer
    unfold startEvict at hpeer
    split at hpeer <;> nomatch hpeer
  | close =>
    cases hstep
    unfold startClose
    split
    next => exact hreach.started fun _ hpeer => nomatch hpeer
    next => exact hreach.close
  | advance k env =>
    simp only [PoolCalls.step] at hstep
    split at hstep
    next => nomatch hstep
    next call hcall =>
      obtain ⟨⟨pool, after⟩, hadvance, rfl⟩ := Option.map_eq_some_iff.mp hstep
      exact hreach.advance hcall horderly hadvance

end Reach

/-- In every orderly run, a peer with idle connections is in the map of an open
pool, or of one whose `Close` has yet to come to it, or it has left the map and
is about to be drained. -/
theorem run_reach (config : IdleConfig) {events : List CallEvent}
    (hmeets : Meets step (fun s event => s.orderly event = true) { pool := newLongPool config }
      events)
    (hrun : run step { pool := newLongPool config } events = some s) {peer : Nat} {record : Peer}
    (hrecord : s.pool.peers[peer]? = some record) (hidle : record.idleList ≠ []) :
    (s.pool.peerMap.lookup record.addr = some peer ∧
      (s.pool.closed = true → ∃ call ∈ s.calls, call.WillVisit record.addr)) ∨
    ∃ call ∈ s.calls, call.Drains peer := by
  have hreach : Reach s :=
    run_invariant_of_meets (fun _ => Reach) (fun s event => s.orderly event = true)
      (Reach.new config) (fun _ _ _ _ _ hreach horderly hstep => hreach.step horderly hstep)
      hmeets hrun
  rcases hreach.idle peer record hrecord hidle with hfound | hdrain
  · exact .inl ⟨hfound, fun hclosed => hreach.walk hclosed record.addr peer hfound⟩
  · exact .inr hdrain

/-! ## Runs of one caller -/

def localAddr : NetAddr := { network := "tcp", address := "a" }

/-- A configuration with room for two idle connections. -/
def twoIdle : IdleConfig where
  minIdlePerAddress := 0
  maxIdlePerAddress := 2
  maxIdleGlobal := 2
  maxIdleTimeout := 10

/-- The next step of a call, on a live connection. -/
def go (call : Nat) : CallEvent :=
  .advance call
    { look := { alive := fun _ => true, now := fun _ => 0 }, now := 0,
      dialed := some { network := "tcp", isActiver := true }, next := none }

/-- `Get` dials a connection. -/
def getEvents : List CallEvent := [.get localAddr, go 0, go 0, go 0, go 0]

/-- `Put` runs to its end. -/
theorem run_reach_put : ∃ s, run step { pool := newLongPool twoIdle }
      (getEvents ++ [CallEvent.put 0, go 1, go 1]) = some s ∧
    s.pool.peers = [{ addr := localAddr, idleList := [0] }] ∧
    s.pool.peerMap.lookup localAddr = some 0 := by
  obtain ⟨s, hrun, hpeers, hdone, hopen⟩ : ∃ s, run step { pool := newLongPool twoIdle }
      (getEvents ++ [CallEvent.put 0, go 1, go 1]) = some s ∧
    s.pool.peers = [{ addr := localAddr, idleList := [0] }] ∧
    s.calls = [.done, .done] ∧ s.pool.closed = false := ⟨_, rfl, rfl, rfl, rfl⟩
  have hrecord : s.pool.peers[0]? = some { addr := localAddr, idleList := [0] } := by
    rw [hpeers]
    rfl
  refine ⟨s, hrun, hpeers, ?_⟩
  rcases run_reach twoIdle (by decide) hrun hrecord (List.cons_ne_nil 0 []) with
    ⟨hfound, _⟩ | ⟨call, hmem, hdrains⟩
  · exact hfound
  · rw [hdone] at hmem
    simp only [List.mem_cons, List.not_mem_nil, or_false, or_self] at hmem
    subst hmem
    exact hdrains.elim

/-- `Put` has loaded the peer when `Clean` removes and drains it, and appends
to it afterwards: the connection stays open in a peer that no walk over the map
will come to. -/
theorem put_into_removed_peer : ∃ s, run step { pool := newLongPool twoIdle }
      (getEvents ++ [CallEvent.put 0, .clean localAddr, go 2, go 2, go 2, go 1, go 1]) = some s ∧
    s.calls = [.done, .done, .done] ∧ s.pool.closed = false ∧
    s.pool.peers = [{ addr := localAddr, idleList := [0] }] ∧
    s.pool.peerMap.lookup localAddr = none ∧ s.pool.conns.map (·.closes) = [0] :=
  ⟨_, rfl, rfl, rfl, rfl, rfl, rfl⟩

end PoolCalls

end Kitex.ConnPool
