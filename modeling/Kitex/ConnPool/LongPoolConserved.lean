import Kitex.ConnPool.LongPoolLedger

/-! # Operations of the long pool keep its books

Run to completion, each operation leaves the books of the pool settled and
every peer that has idle connections in the peer map.
-/

namespace Kitex.ConnPool

open Kitex.Container Kitex.Machine

/-! ## Peers that have idle connections -/

/-- A peer of the map is filed under its own address, and a peer that has
idle connections is in the map. -/
structure Filed (peerMap : AList fun _ : NetAddr => Nat) (peers : List Peer) : Prop where
  stored : Stored peerMap peers
  found : ∀ (peer : Nat) record, peers[peer]? = some record → record.idleList ≠ [] →
    peerMap.lookup record.addr = some peer

namespace Filed

variable {peerMap : AList fun _ : NetAddr => Nat} {peers : List Peer} {peer : Nat} {addr : NetAddr}

variable (hfiled : Filed peerMap peers)
include hfiled

/-- The idle list of a peer is replaced by one that is empty unless the peer
is in the map. -/
theorem setIdleList {idle : List Nat} (hidle : ∀ record, peers[peer]? = some record → idle ≠ [] →
      peerMap.lookup record.addr = some peer) :
    Filed peerMap (peers.modify peer fun record => { record with idleList := idle }) where
  stored := hfiled.stored.setIdleList peer idle
  found := by
    apply forall_getElem?_modify
    · exact fun other record _ hrecord => hfiled.found other record hrecord
    · exact fun record hrecord hne => hidle record hrecord hne

theorem store (hnone : peerMap.lookup addr = none) :
    Filed (peerMap.insert addr peers.length) (peers ++ [{ addr := addr }]) where
  stored := hfiled.stored.insert addr
  found := by
    apply forall_getElem?_concat
    · intro peer record hrecord hne
      exact lookup_insert_of_none hnone (hfiled.found peer record hrecord hne)
    · exact fun hne => absurd rfl hne

/-- A peer is taken out of the map and emptied. -/
theorem remove (hpeer : peerMap.lookup addr = some peer) : Filed (peerMap.erase addr)
      (peers.modify peer fun record => { record with idleList := [] }) where
  stored := (hfiled.stored.setIdleList peer []).erase addr
  found := by
    apply forall_getElem?_modify
    · intro other record hne hrecord hidle
      have hold := hfiled.found other record hrecord hidle
      have haddr : record.addr ≠ addr := by
        rintro rfl
        exact hne (Option.some.inj (hold.symm.trans hpeer))
      rwa [AList.lookup_erase_ne haddr]
    · exact fun record _ hne => absurd rfl hne

end Filed

namespace LongPool

variable {config : IdleConfig} {pool next : LongPool} {peer conn : Nat} {addr : NetAddr}
  {look : Look}

@[simp] theorem handOut_peers (found : Option Nat) (address : String) (dialed : Option Dialed) :
    (pool.handOut found address dialed).peers = pool.peers := by
  cases found <;> cases dialed <;> rfl

@[simp] theorem handOut_peerMap (found : Option Nat) (address : String) (dialed : Option Dialed) :
    (pool.handOut found address dialed).peerMap = pool.peerMap := by
  cases found <;> cases dialed <;> rfl

/-- The state between two operations. -/
structure Settled (config : IdleConfig) (pool : LongPool) : Prop where
  books : Books config [] 0 pool
  filed : Filed pool.peerMap pool.peers

theorem settled_newLongPool (config : IdleConfig) : Settled config (newLongPool config) where
  books :=
    { idleConfig_eq := rfl
      max_eq := rfl
      counter := rfl
      limit := Int.le_max_right ..
      peerLimit := by simp [newLongPool]
      owners := { once := by simp [newLongPool], known := by simp [newLongPool, idle] } }
  filed := { stored := by simp [newLongPool, Stored], found := by simp [newLongPool] }

namespace Settled

section

variable (hsettled : Settled config pool)
include hsettled

/-- An idle list that shrinks leaves the peers filed. -/
theorem filed_shrink {kept out : List Nat} (hperm : (pool.idleList peer).Perm (kept ++ out)) :
    Filed pool.peerMap (pool.setIdleList peer kept).peers := by
  apply hsettled.filed.setIdleList
  intro record hrecord hne
  apply hsettled.filed.found peer record hrecord
  rintro hnil
  rw [idleList_of_getElem? hrecord, hnil] at hperm
  exact hne (List.append_eq_nil_iff.mp hperm.nil_eq.symm).1

theorem storePeer (hnone : pool.peerMap.lookup addr = none) (hmax : 0 ≤ config.maxIdlePerAddress) :
    Settled config (pool.storePeer addr) where
  books := hsettled.books.storePeer addr hmax
  filed := hsettled.filed.store hnone

theorem getPeer (hpeer : pool.getPeer addr = some (next, peer)) : Settled config next := by
  unfold LongPool.getPeer at hpeer
  split at hpeer
  next =>
    obtain ⟨rfl, _⟩ := Prod.mk.inj (Option.some.inj hpeer)
    exact hsettled
  next hnone =>
    rw [hsettled.books.idleConfig_eq] at hpeer
    obtain ⟨hmax, heq⟩ := Option.ite_none_left_eq_some.mp hpeer
    obtain ⟨rfl, _⟩ := Prod.mk.inj (Option.some.inj heq)
    exact hsettled.storePeer hnone (Int.not_lt.mp hmax)

theorem peerGet (address : String) (look : Look)
    (dialed : Option Dialed) : Settled config (pool.peerGet peer address look dialed) where
  books := hsettled.books.peerGet address look dialed
  filed := by
    obtain ⟨kept, dropped, found, hperm, hget⟩ := poolGet_spec pool peer look
    simp only [LongPool.peerGet, hget, handOut_peers, handOut_peerMap]
    exact hsettled.filed_shrink hperm

end

theorem filed_peerPut (hfiled : Filed pool.peerMap pool.peers) {record : Peer}
    (hrecord : pool.peers[peer]? = some record)
    (hpeer : pool.peerMap.lookup record.addr = some peer) (now : Int) :
    Filed (pool.peerPut peer conn now).peerMap (pool.peerPut peer conn now).peers := by
  have hput : Filed pool.peerMap (pool.setIdleList peer (pool.idleList peer ++ [conn])).peers := by
    apply hfiled.setIdleList
    intro record' hrecord' _
    cases hrecord.symm.trans hrecord'
    exact hpeer
  unfold LongPool.peerPut
  generalize pool.globalIdle.inc = result
  obtain ⟨counter, counted⟩ := result
  cases counted with
  | false => exact hfiled
  | true =>
    rcases poolPut_spec (pool.setGlobalIdle counter) peer conn now with
      ⟨_, deadline, heq⟩ | heq
    · simp only [heq, if_true]
      exact hput
    · simp only [heq]
      exact hfiled

section

variable (hsettled : Settled config pool)
include hsettled

/-- A caller gives back its connection by `Put`. -/
theorem put (hheld : pool.isHeld conn) (now : Int) :
    Settled config ((pool.setHeld conn false).put conn now) := by
  have hbooks := hsettled.books.setHeld_false hheld
  unfold LongPool.put
  split
  next peer hpeer =>
    obtain ⟨record, hrecord, haddr⟩ := hsettled.filed.stored _ peer hpeer
    refine { books := hbooks.peerPut hrecord now, filed := ?_ }
    rw [← haddr] at hpeer
    have hreleased : Filed (pool.setHeld conn false).peerMap (pool.setHeld conn false).peers :=
      hsettled.filed
    exact filed_peerPut hreleased hrecord hpeer now
  next => exact { books := hbooks.closeConns, filed := hsettled.filed }

theorem discard (hheld : pool.isHeld conn) :
    Settled config ((pool.setHeld conn false).discard conn) where
  books := (hsettled.books.setHeld_false hheld).closeConns
  filed := hsettled.filed

theorem peerEvict (hevict : pool.peerEvict look peer = some next) : Settled config next where
  books := hsettled.books.peerEvict hevict
  filed := by
    obtain ⟨⟨evicted, n⟩, hpool, rfl⟩ := Option.map_eq_some_iff.mp hevict
    obtain ⟨kept, dropped, hperm, rfl, rfl⟩ := poolEvict_spec hpool
    exact hsettled.filed_shrink hperm

theorem evict (hevict : pool.evict look = some next) : Settled config next := by
  unfold LongPool.evict at hevict
  split at hevict
  next =>
    cases hevict
    exact hsettled
  next =>
    -- the walk over the map is a run whose steps are the evictions of its peers
    change run (LongPool.peerEvict look) pool _ = some next at hevict
    exact run_invariant (fun _ => Settled config) hsettled
      (fun _ _ _ _ _ hpool hstep => hpool.peerEvict hstep) hevict

/-- A peer leaves the map and is closed, as by `Clean` and `Close`. -/
theorem closeVisit (hpeer : pool.peerMap.lookup addr = some peer) :
    Settled config (pool.closeVisit ⟨addr, peer⟩) where
  books := (hsettled.books.deletePeer addr).peerClose peer
  filed := hsettled.filed.remove hpeer

theorem clean (addr : NetAddr) : Settled config (pool.clean addr) := by
  unfold LongPool.clean
  split
  next peer hpeer => exact hsettled.closeVisit hpeer
  next => exact hsettled

end

/-- The walk of `Close`: an entry not yet visited is still in the map. -/
theorem foldl_closeVisit (entries : List (Sigma fun _ : NetAddr => Nat))
    (hnodup : entries.NodupKeys) (hsettled : Settled config pool)
    (hentries : ∀ entry ∈ entries, pool.peerMap.lookup entry.1 = some entry.2) :
    Settled config (entries.foldl LongPool.closeVisit pool) := by
  induction entries generalizing pool with
  | nil => exact hsettled
  | cons entry rest ih =>
    obtain ⟨hfirst, hrest⟩ := List.nodupKeys_cons.mp hnodup
    apply ih hrest (hsettled.closeVisit (hentries entry List.mem_cons_self))
    intro other hother
    have hne : other.1 ≠ entry.1 := fun heq => hfirst (heq ▸ List.mem_keys_of_mem hother)
    exact (AList.lookup_erase_ne hne).trans (hentries other (List.mem_cons_of_mem entry hother))

theorem close (hsettled : Settled config pool) : Settled config pool.close := by
  unfold LongPool.close
  split
  next => exact hsettled
  next =>
    apply foldl_closeVisit _ pool.peerMap.nodupKeys
    · exact { books := { hsettled.books with }, filed := hsettled.filed }
    · exact fun entry hentry => AList.mem_lookup_iff.mpr hentry

theorem step (hsettled : Settled config pool) {op : Op} (hstep : pool.step op = some next) :
    Settled config next := by
  cases op with
  | get addr look dialed =>
    obtain ⟨⟨found, peer⟩, hpeer, rfl⟩ := Option.map_eq_some_iff.mp hstep
    exact (hsettled.getPeer hpeer).peerGet addr.address look dialed
  | put conn now =>
    obtain ⟨hheld, heq⟩ := Option.ite_none_right_eq_some.mp hstep
    cases heq
    exact hsettled.put hheld now
  | discard conn =>
    obtain ⟨hheld, heq⟩ := Option.ite_none_right_eq_some.mp hstep
    cases heq
    exact hsettled.discard hheld
  | evict look => exact hsettled.evict hstep
  | clean addr =>
    cases hstep
    exact hsettled.clean addr
  | close =>
    cases hstep
    exact hsettled.close

end Settled

/-- Any sequence of operations from a new pool, whatever becomes of its
connections and whatever its configuration. A negative limit on all peers
together stands for zero. -/
theorem run_conserved (config : IdleConfig) {ops : List Op}
    (hrun : run step (newLongPool config) ops = some pool) :
    pool.globalIdle.now = pool.idle.length ∧ pool.globalIdle.now ≤ max config.maxIdleGlobal 0 ∧
    (∀ (peer : Nat) record, pool.peers[peer]? = some record →
      (record.idleList.length : Int) ≤ config.maxIdlePerAddress ∧
      (record.idleList ≠ [] → pool.peerMap.lookup record.addr = some peer)) ∧ pool.idle.Nodup ∧
    ∀ (conn : Nat) record, pool.conns[conn]? = some record →
      (conn ∈ pool.idle → record.held = false) ∧
      record.closes = if conn ∈ pool.idle ∨ record.held = true then 0 else 1 := by
  have hsettled : Settled config pool :=
    run_invariant (fun _ => Settled config) (settled_newLongPool config)
      (fun _ _ _ _ _ hpool hstep => hpool.step hstep) hrun
  obtain ⟨hbooks, hfiled⟩ := hsettled
  refine ⟨by simpa using hbooks.counter, hbooks.limit, ?_, ?_, ?_⟩
  · exact fun peer record hrecord =>
      ⟨hbooks.peerLimit peer record hrecord, hfiled.found peer record hrecord⟩
  · exact hbooks.owners.nodup
  · exact fun conn record hrecord => hbooks.owners.closes_eq hrecord

/-- A configuration with room for one idle connection in all. -/
def oneIdle : IdleConfig where
  minIdlePerAddress := 0
  maxIdlePerAddress := 2
  maxIdleGlobal := 1
  maxIdleTimeout := 10

/-- Two addresses: the second connection put back is closed, the first is found
dead, and the last one is closed with the pool. -/
def twoAddresses : List Op :=
  let first : NetAddr := { network := "tcp", address := "a" }
  let second : NetAddr := { network := "tcp", address := "b" }
  let look (alive : Bool) : Look := { alive := fun _ => alive, now := fun _ => 5 }
  let dialed : Dialed := { network := "tcp", isActiver := true }
  [.get first (look true) (some dialed), .get second (look true) (some dialed), .put 0 1,
    .put 1 2, .get first (look false) (some dialed), .put 2 3, .evict (look true),
    .get second (look true) none, .close]

theorem run_conserved_twoAddresses :
    ∃ pool, run step (newLongPool oneIdle) twoAddresses = some pool ∧
      pool.conns.map (·.closes) = [1, 1, 1] ∧ pool.globalIdle.now = pool.idle.length := by
  obtain ⟨pool, hrun, hcloses⟩ : ∃ pool,
      run step (newLongPool oneIdle) twoAddresses = some pool ∧
        pool.conns.map (·.closes) = [1, 1, 1] := ⟨_, rfl, rfl⟩
  exact ⟨pool, hrun, hcloses, (run_conserved oneIdle hrun).1⟩

end LongPool

end Kitex.ConnPool
