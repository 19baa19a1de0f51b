import Kitex.ConnPool.LongPool
import Kitex.Container.Lookup
import Kitex.Machine.Run

/-! # Every connection of the long pool is accounted for

A connection is idle, in the hands of a caller, or closed once: the number of
its places in the idle lists, of its holders and of its closings adds up to one
for as long as the pool lives. While an operation is at work, the connections
it has taken out of the idle lists or received from a caller, and the idle
connections the counter has not yet been told of, are kept as a balance, which
is settled when the operation is complete.
-/

namespace Kitex.ConnPool

open Kitex.Container

namespace MaxCounter

variable {counter : MaxCounter}

theorem inc_of_lt (hlt : counter.now < counter.max) : counter.inc = (counter.add 1, true) := by
  have hle : ¬ (counter.add 1).now > (counter.add 1).max := by
    simp only [add]
    omega
  simp only [inc, if_neg hle]

/-- A full counter is left as it was. -/
theorem inc_of_le (hle : counter.max ≤ counter.now) : counter.inc = (counter, false) := by
  have hgt : (counter.add 1).now > (counter.add 1).max := by
    simp only [add]
    omega
  have hback : (counter.add 1).add (-1) = counter := by
    simp only [add]
    rw [Int.add_neg_cancel_right]
  simp only [inc, if_pos hgt, hback]

end MaxCounter

/-! ## Owners of a connection -/

/-- Each connection is in the pool's hands, in a caller's, or closed, once. -/
structure OneOwner (pooled : List Nat) (conns : List LongConn) : Prop where
  once : ∀ conn record, conns[conn]? = some record →
    pooled.count conn + record.held.toNat + record.closes = 1
  known : ∀ conn ∈ pooled, conn < conns.length

namespace OneOwner

variable {pooled other dropped : List Nat} {conns : List LongConn} {conn : Nat}

theorem perm (howner : OneOwner pooled conns) (hperm : pooled.Perm other) :
    OneOwner other conns where
  once conn record hrecord := by
    rw [← hperm.count_eq]
    exact howner.once conn record hrecord
  known conn hmem := howner.known conn (hperm.mem_iff.mpr hmem)

/-- A change of one connection that moves it between the lists. -/
theorem modify {change : LongConn → LongConn} (howner : OneOwner pooled conns)
    (hother : ∀ found, found ≠ conn → other.count found = pooled.count found)
    (hself : ∀ record, conns[conn]? = some record →
      pooled.count conn + record.held.toNat + record.closes = 1 →
      other.count conn + (change record).held.toNat + (change record).closes = 1)
    (hknown : ∀ found ∈ other, found < conns.length) :
    OneOwner other (conns.modify conn change) where
  once := by
    apply forall_getElem?_modify
    · intro found record hne hrecord
      rw [hother found hne]
      exact howner.once found record hrecord
    · intro record hrecord
      exact hself record hrecord (howner.once conn record hrecord)
  known found hmem := by
    rw [List.length_modify]
    exact hknown found hmem

/-- A caller takes a connection from the pool. -/
theorem hold (howner : OneOwner (conn :: pooled) conns) :
    OneOwner pooled (conns.modify conn fun record => { record with held := true }) := by
  apply howner.modify
  · intro found hne
    rw [List.count_cons_of_ne (Ne.symm hne)]
  · intro record _ honce
    rw [List.count_cons_self] at honce
    simp only [Bool.toNat_true]
    omega
  · exact fun found hmem => howner.known found (List.mem_cons_of_mem conn hmem)

variable {record : LongConn}

/-- A caller gives its connection to the pool. -/
theorem release (howner : OneOwner pooled conns) (hrecord : conns[conn]? = some record)
    (hheld : record.held) : OneOwner (conn :: pooled)
      (conns.modify conn fun record => { record with held := false }) := by
  apply howner.modify
  · intro found hne
    rw [List.count_cons_of_ne (Ne.symm hne)]
  · intro record' hrecord' honce
    cases hrecord.symm.trans hrecord'
    rw [List.count_cons_self]
    simp only [hheld, Bool.toNat_true, Bool.toNat_false] at honce ⊢
    omega
  · intro found hmem
    rcases List.mem_cons.mp hmem with rfl | hmem
    · exact (List.getElem?_eq_some_iff.mp hrecord).1
    · exact howner.known found hmem

theorem setDeadline (howner : OneOwner pooled conns) (deadline : Int) :
    OneOwner pooled (conns.modify conn fun record => { record with deadline }) :=
  howner.modify (fun _ _ => rfl) (fun _ _ honce => honce) howner.known

theorem iterate_close (record : LongConn) (n : Nat) :
    (LongConn.close^[n] record) = { record with closes := record.closes + n } := by
  induction n with
  | zero => rfl
  | succ n ih => rw [Function.iterate_succ_apply', ih]; rfl

/-- The pool closes connections it has. -/
theorem close (howner : OneOwner (dropped ++ pooled) conns) :
    OneOwner pooled (modifyEach LongConn.close dropped conns) where
  once conn record hrecord := by
    rw [getElem?_modifyEach_iterate] at hrecord
    obtain ⟨before, hbefore, rfl⟩ := Option.map_eq_some_iff.mp hrecord
    have honce := howner.once conn before hbefore
    rw [List.count_append] at honce
    simp only [iterate_close]
    omega
  known conn hmem := by
    rw [length_modifyEach]
    exact howner.known conn (List.mem_append_right dropped hmem)

variable (howner : OneOwner pooled conns)
include howner

/-- A new connection is its caller's. -/
theorem dial (hheld : record.held)
    (hopen : record.closes = 0) : OneOwner pooled (conns ++ [record]) where
  once := by
    apply forall_getElem?_concat howner.once
    have hnew : conns.length ∉ pooled :=
      fun hmem => Nat.lt_irrefl _ (howner.known conns.length hmem)
    simp [List.count_eq_zero.mpr hnew, hheld, hopen]
  known conn hmem := by
    rw [List.length_append]
    exact Nat.lt_add_right _ (howner.known conn hmem)

theorem nodup : pooled.Nodup := by
  rw [List.nodup_iff_count_le_one]
  intro conn
  by_cases hmem : conn ∈ pooled
  · have hrecord := List.getElem?_eq_getElem (howner.known conn hmem)
    have honce := howner.once conn _ hrecord
    omega
  · rw [List.count_eq_zero.mpr hmem]
    exact Nat.zero_le 1

/-- A connection that is not open with the pool or a caller is closed once. -/
theorem closes_eq (hrecord : conns[conn]? = some record) : (conn ∈ pooled → record.held = false) ∧
      record.closes = if conn ∈ pooled ∨ record.held = true then 0 else 1 := by
  have honce := howner.once conn record hrecord
  by_cases hmem : conn ∈ pooled
  · have hcount : 0 < pooled.count conn := List.count_pos_iff.mpr hmem
    cases hheld : record.held with
    | false => simp [hmem]; omega
    | true =>
      rw [hheld, Bool.toNat_true] at honce
      omega
  · rw [List.count_eq_zero.mpr hmem] at honce
    cases hheld : record.held with
    | false | true => simpa [hmem, hheld] using honce

end OneOwner

/-! ## Peers and the peer map -/

/-- A peer of the map is stored under its own address. -/
def Stored (peerMap : AList fun _ : NetAddr => Nat) (peers : List Peer) : Prop :=
  ∀ addr peer, peerMap.lookup addr = some peer →
    ∃ record, peers[peer]? = some record ∧ record.addr = addr

namespace Stored

variable {peerMap : AList fun _ : NetAddr => Nat} {peers after : List Peer}

variable (hstored : Stored peerMap peers)
include hstored

theorem of_forall₂ {r : Peer → Peer → Prop}
    (haddr : ∀ a b, r a b → b.addr = a.addr) (hrel : List.Forall₂ r peers after) :
    Stored peerMap after := by
  intro addr peer hpeer
  obtain ⟨record, hrecord, rfl⟩ := hstored addr peer hpeer
  obtain ⟨found, hfound, hab⟩ := forall₂_getElem?_left hrel hrecord
  exact ⟨found, hfound, haddr record found hab⟩

theorem setIdleList (peer : Nat) (idle : List Nat) :
    Stored peerMap (peers.modify peer fun record => { record with idleList := idle }) := by
  have hrel : List.Forall₂ (fun a b => b.addr = a.addr) peers
      (peers.modify peer fun record => { record with idleList := idle }) := by
    apply forall₂_modify
    · exact fun _ => rfl
    · exact fun _ _ => rfl
  exact hstored.of_forall₂ (fun _ _ haddr => haddr) hrel

theorem insert (addr : NetAddr) :
    Stored (peerMap.insert addr peers.length) (peers ++ [{ addr := addr }]) := by
  intro other peer hpeer
  rcases lookup_insert_cases hpeer with ⟨rfl, rfl⟩ | ⟨_, hold⟩
  · exact ⟨_, List.getElem?_concat_length, rfl⟩
  · obtain ⟨record, hrecord, haddr⟩ := hstored other peer hold
    have hlt := (List.getElem?_eq_some_iff.mp hrecord).1
    exact ⟨record, by rwa [List.getElem?_append_left hlt], haddr⟩

theorem erase (addr : NetAddr) : Stored (peerMap.erase addr) peers :=
  fun other peer hpeer => hstored other peer (lookup_erase_cases hpeer).2

end Stored

/-! ## The walks over an idle list -/

/-- The loop of `Get` splits the list into what is kept, dropped and found. -/
theorem perm_getLoop (isActive : Nat → Bool) (stack : List Nat) :
    stack.Perm ((getLoop isActive stack).2.kept ++
      ((getLoop isActive stack).2.dropped ++ (getLoop isActive stack).1.toList)) := by
  induction stack with
  | nil => exact .nil
  | cons conn rest ih =>
    unfold getLoop
    split
    next => exact (List.perm_append_singleton conn rest).symm
    next => exact (ih.cons conn).trans List.perm_middle.symm

theorem append_of_evictLoop {expired : Nat → Bool} {nonIdle : Int} {queue : List Nat} {walk : Walk}
    (hwalk : evictLoop expired nonIdle queue = some walk) : walk.dropped ++ walk.kept = queue := by
  induction queue generalizing nonIdle walk with
  | nil =>
    unfold evictLoop at hwalk
    split at hwalk
    next => simp at hwalk
    next => obtain rfl := Option.some.inj hwalk; rfl
  | cons conn rest ih =>
    unfold evictLoop at hwalk
    split at hwalk
    next =>
      obtain ⟨inner, hinner, rfl⟩ := Option.map_eq_some_iff.mp hwalk
      exact congrArg (conn :: ·) (ih hinner)
    next => obtain rfl := Option.some.inj hwalk; rfl

namespace LongPool

variable {config : IdleConfig} {pool next : LongPool} {loose : List Nat} {owed : Int} {peer : Nat}
  {record : Peer} {look : Look}

theorem idleList_of_getElem? (hrecord : pool.peers[peer]? = some record) :
    pool.idleList peer = record.idleList := by
  simp [idleList, hrecord]

/-- What leaves the idle list of one peer leaves the idle connections. -/
theorem perm_idle_setIdleList {kept out : List Nat}
    (hperm : (pool.idleList peer).Perm (kept ++ out)) :
    pool.idle.Perm ((pool.setIdleList peer kept).idle ++ out) := by
  unfold idleList at hperm
  split at hperm
  next record hrecord =>
    have hlist : (record.idleList ++ []).Perm (kept ++ out) := by rwa [List.append_nil]
    have hidle := perm_flatMap_modify hrecord Peer.idleList
      (fun record => { record with idleList := kept }) hlist
    rwa [List.append_nil] at hidle
  next hnone =>
    obtain ⟨rfl, rfl⟩ := List.append_eq_nil_iff.mp hperm.nil_eq.symm
    have hlen : pool.peers.length ≤ peer := List.getElem?_eq_none_iff.mp hnone
    rw [List.append_nil, setIdleList, List.modify_eq_self hlen]

theorem perm_idle_append {conn : Nat} (hrecord : pool.peers[peer]? = some record) :
    (pool.setIdleList peer (pool.idleList peer ++ [conn])).idle.Perm (conn :: pool.idle) := by
  have hlist : (record.idleList ++ [conn]).Perm ((pool.idleList peer ++ [conn]) ++ []) := by
    rw [idleList_of_getElem? hrecord, List.append_nil]
  have hidle := perm_flatMap_modify hrecord Peer.idleList
    (fun record => { record with idleList := pool.idleList peer ++ [conn] }) hlist
  rw [List.append_nil] at hidle
  exact hidle.symm.trans (List.perm_append_singleton conn pool.idle)

/-- `pool.Get` takes out the connection it finds and those it closes. -/
theorem poolGet_spec (pool : LongPool) (peer : Nat) (look : Look) : ∃ kept dropped found,
      (pool.idleList peer).Perm (kept ++ (dropped ++ Option.toList found)) ∧
      pool.poolGet peer look = ((pool.setIdleList peer kept).closeConns dropped, found,
        ((dropped ++ Option.toList found).length : Int)) := by
  have hloop := perm_getLoop (pool.isActive look) (pool.idleList peer).reverse
  simp only [poolGet]
  generalize getLoop (pool.isActive look) (pool.idleList peer).reverse = result at hloop ⊢
  obtain ⟨found, walk⟩ := result
  have hperm : (pool.idleList peer).Perm
      (walk.kept.reverse ++ (walk.dropped ++ found.toList)) :=
    (List.reverse_perm _).symm.trans (hloop.trans ((List.reverse_perm _).symm.append_right _))
  have htaken : ((pool.idleList peer).length - walk.kept.length : Int) =
      (walk.dropped ++ found.toList).length := by
    have hlength := hperm.length_eq
    rw [List.length_append, List.length_reverse] at hlength
    omega
  exact ⟨walk.kept.reverse, walk.dropped, found, hperm, by rw [htaken]⟩

/-- `pool.Put` appends the connection, or leaves a full pool as it is. -/
theorem poolPut_spec (pool : LongPool) (peer conn : Nat) (now : Int) :
    (((pool.idleList peer).length : Int) < pool.idleConfig.maxIdlePerAddress ∧
      ∃ deadline, pool.poolPut peer conn now =
        ((pool.setDeadline conn deadline).setIdleList peer (pool.idleList peer ++ [conn]), true)) ∨
    pool.poolPut peer conn now = (pool, false) := by
  unfold poolPut
  split
  next hroom => exact .inl ⟨hroom, _, rfl⟩
  next => exact .inr rfl

theorem poolEvict_spec {n : Int} (hevict : pool.poolEvict peer look = some (next, n)) :
    ∃ kept dropped, (pool.idleList peer).Perm (kept ++ dropped) ∧
      next = (pool.setIdleList peer kept).closeConns dropped ∧ n = dropped.length := by
  obtain ⟨walk, hwalk, heq⟩ := Option.map_eq_some_iff.mp hevict
  obtain ⟨rfl, rfl⟩ := Prod.mk.inj heq
  refine ⟨walk.kept, walk.dropped, ?_, rfl, rfl⟩
  rw [← append_of_evictLoop hwalk]
  exact List.perm_append_comm

/-! ## The books of the pool -/

/-- The counter and the idle lists, with the connections `loose` that an
operation has in hand and the number `owed` by which the counter is ahead. -/
structure Books (config : IdleConfig) (loose : List Nat) (owed : Int) (pool : LongPool) :
    Prop where
  idleConfig_eq : pool.idleConfig = config
  max_eq : pool.globalIdle.max = config.maxIdleGlobal
  counter : pool.globalIdle.now = pool.idle.length + owed
  limit : pool.globalIdle.now ≤ max config.maxIdleGlobal 0
  peerLimit : ∀ (peer : Nat) record, pool.peers[peer]? = some record →
    (record.idleList.length : Int) ≤ config.maxIdlePerAddress
  owners : OneOwner (loose ++ pool.idle) pool.conns

namespace Books

variable {kept dropped : List Nat} {conn : Nat}

/-- Connections taken out of an idle list are loose, and owed to the counter. -/
theorem takeOut {out : List Nat} (hbooks : Books config loose owed pool)
    (hperm : (pool.idleList peer).Perm (kept ++ out)) :
    Books config (out ++ loose) (owed + out.length) (pool.setIdleList peer kept) := by
  have hidle := perm_idle_setIdleList hperm
  refine { hbooks with counter := ?_, peerLimit := ?_, owners := ?_ }
  · have hlength := hidle.length_eq
    rw [List.length_append] at hlength
    have hcounter := hbooks.counter
    change pool.globalIdle.now = _
    omega
  · apply forall_getElem?_modify
    · exact fun other record _ hrecord => hbooks.peerLimit other record hrecord
    · intro record hrecord
      have hlimit := hbooks.peerLimit peer record hrecord
      have hlength := hperm.length_eq
      rw [idleList_of_getElem? hrecord, List.length_append] at hlength
      change (kept.length : Int) ≤ _
      omega
  · apply hbooks.owners.perm
    apply (hidle.append_left loose).trans
    rw [← List.append_assoc, List.append_assoc out]
    exact List.perm_append_comm

theorem closeConns (hbooks : Books config (dropped ++ loose) owed pool) :
    Books config loose owed (pool.closeConns dropped) :=
  have howners : OneOwner (dropped ++ (loose ++ pool.idle)) pool.conns := by
    rw [← List.append_assoc]
    exact hbooks.owners
  { hbooks with owners := howners.close }

theorem setHeld_true (hbooks : Books config (conn :: loose) owed pool) :
    Books config loose owed (pool.setHeld conn true) :=
  { hbooks with owners := hbooks.owners.hold }

theorem setHeld_false (hbooks : Books config loose owed pool) (hheld : pool.isHeld conn) :
    Books config (conn :: loose) owed (pool.setHeld conn false) := by
  unfold isHeld at hheld
  split at hheld
  next record hrecord => exact { hbooks with owners := hbooks.owners.release hrecord hheld }
  next => simp at hheld

/-- The counter is told of connections that are no longer idle. -/
theorem decN {n : Nat} (hbooks : Books config loose (owed + n) pool) :
    Books config loose owed (pool.decN n) := by
  have hcounter := hbooks.counter
  have hlimit := hbooks.limit
  refine { hbooks with counter := ?_, limit := ?_ }
  · change pool.globalIdle.now + -(n : Int) = (pool.idle.length : Int) + owed
    omega
  · change pool.globalIdle.now + -(n : Int) ≤ _
    omega

/-- A connection in hand goes to the idle list of a peer that has room, which
settles what the counter is ahead by. -/
theorem putIn (hbooks : Books config (conn :: loose) (owed + 1) pool)
    (hrecord : pool.peers[peer]? = some record)
    (hroom : ((pool.idleList peer).length : Int) < config.maxIdlePerAddress) :
    Books config loose owed (pool.setIdleList peer (pool.idleList peer ++ [conn])) := by
  have hidle : (pool.setIdleList peer (pool.idleList peer ++ [conn])).idle.Perm
    (conn :: pool.idle) := perm_idle_append hrecord
  refine { hbooks with counter := ?_, peerLimit := ?_, owners := ?_ }
  · have hcounter := hbooks.counter
    rw [hidle.length_eq, List.length_cons]
    change pool.globalIdle.now = _
    omega
  · apply forall_getElem?_modify
    · exact fun other record _ hrecord => hbooks.peerLimit other record hrecord
    · intro record _
      rw [List.length_append, List.length_singleton]
      omega
  · apply hbooks.owners.perm
    exact List.perm_middle.symm.trans (hidle.symm.append_left loose)

section

variable (hbooks : Books config loose owed pool)
include hbooks

theorem setDeadline (deadline : Int) : Books config loose owed (pool.setDeadline conn deadline) :=
  { hbooks with owners := hbooks.owners.setDeadline deadline }

theorem add_one (hlt : pool.globalIdle.now < pool.globalIdle.max) :
    Books config loose (owed + 1) (pool.setGlobalIdle (pool.globalIdle.add 1)) := by
  have hcounter := hbooks.counter
  have hmax := hbooks.max_eq
  refine { hbooks with counter := ?_, limit := ?_ }
  · change pool.globalIdle.now + 1 = (pool.idle.length : Int) + _
    omega
  · change pool.globalIdle.now + 1 ≤ _
    omega

theorem addConn (address : String) (dialed : Dialed) :
    Books config loose owed (pool.addConn address dialed) :=
  { hbooks with owners := hbooks.owners.dial rfl rfl }

theorem storePeer (addr : NetAddr)
    (hmax : 0 ≤ config.maxIdlePerAddress) : Books config loose owed (pool.storePeer addr) := by
  have hidle : (pool.storePeer addr).idle = pool.idle := by simp [idle, LongPool.storePeer]
  refine { hbooks with counter := ?_, peerLimit := ?_, owners := ?_ }
  · rw [hidle]
    exact hbooks.counter
  · exact forall_getElem?_concat hbooks.peerLimit hmax
  · rw [hidle]
    exact hbooks.owners

theorem deletePeer (addr : NetAddr) : Books config loose owed (pool.deletePeer addr) :=
  { hbooks with }

end

/-! ### Methods of a peer -/

/-- Connections leave an idle list and are closed, as in `Evict` and `Close`. -/
theorem drop (hbooks : Books config [] 0 pool)
    (hperm : (pool.idleList peer).Perm (kept ++ dropped)) : Books config [] 0
      (((pool.setIdleList peer kept).closeConns dropped).decN dropped.length) :=
  (hbooks.takeOut hperm).closeConns.decN

theorem handOut {found : Option Nat} (hbooks : Books config (found.toList ++ loose) owed pool)
    (address : String) (dialed : Option Dialed) :
    Books config loose owed (pool.handOut found address dialed) := by
  cases found with
  | some conn => exact hbooks.setHeld_true
  | none =>
    cases dialed with
    | some dialed => exact hbooks.addConn address dialed
    | none => exact hbooks

theorem peerGet (hbooks : Books config [] 0 pool) (address : String) (look : Look)
    (dialed : Option Dialed) : Books config [] 0 (pool.peerGet peer address look dialed) := by
  obtain ⟨kept, dropped, found, hperm, hget⟩ := poolGet_spec pool peer look
  have htaken := hbooks.takeOut hperm
  rw [List.append_assoc] at htaken
  simp only [LongPool.peerGet, hget]
  exact htaken.closeConns.decN.handOut address dialed

theorem peerPut (hbooks : Books config [conn] 0 pool) (hrecord : pool.peers[peer]? = some record)
    (now : Int) : Books config [] 0 (pool.peerPut peer conn now) := by
  unfold LongPool.peerPut
  rcases Int.lt_or_le pool.globalIdle.now pool.globalIdle.max with hlt | hle
  · rw [MaxCounter.inc_of_lt hlt]
    have hcounted := hbooks.add_one hlt
    rcases poolPut_spec (pool.setGlobalIdle (pool.globalIdle.add 1)) peer conn now with
      ⟨hroom, deadline, hput⟩ | hfull
    · simp only [hput, if_true]
      exact (hcounted.setDeadline deadline).putIn hrecord (hbooks.idleConfig_eq ▸ hroom)
    · simp only [hfull, if_true]
      -- the place in the counter is given back with the connection
      exact hcounted.decN.closeConns
  · rw [MaxCounter.inc_of_le hle]
    exact hbooks.closeConns

theorem peerEvict (hbooks : Books config [] 0 pool)
    (hevict : pool.peerEvict look peer = some next) : Books config [] 0 next := by
  obtain ⟨⟨evicted, n⟩, hpool, rfl⟩ := Option.map_eq_some_iff.mp hevict
  obtain ⟨kept, dropped, hperm, rfl, rfl⟩ := poolEvict_spec hpool
  exact hbooks.drop hperm

theorem peerClose (hbooks : Books config [] 0 pool) (peer : Nat) :
    Books config [] 0 (pool.peerClose peer) :=
  hbooks.drop (List.Perm.refl (pool.idleList peer))

end Books

end LongPool

end Kitex.ConnPool
