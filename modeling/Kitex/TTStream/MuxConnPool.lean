import Kitex.TTStream.MuxConnList
import Mathlib.Data.List.AList

/-! # The multiplexed pool and its cleaner

The pool keeps a list of transports for each address. A background cleaner takes
the list of an address that was idle for too long out of the pool's map. It closes
nothing, and a call of `Get` that has looked up the list before goes on to use it.
-/

namespace Kitex.TTStream

open Kitex.Container MuxConnTransList

/-! ## Transports and slots of one list -/

def GetCall.isReturned : GetCall → Bool
  | .returned _ => true
  | _ => false

/-- The slot that a call works on. -/
def GetCall.idx : GetCall → Option Nat
  | .indexed idx => some idx
  | .reading idx => some idx
  | .examining idx _ => some idx
  | .closing idx _ => some idx
  | .slow idx => some idx
  | .locked idx => some idx
  | .dialing idx => some idx
  | _ => none

namespace MuxConnTransList

/-- The list has a transport that is not closed and whose connection is up. -/
def hasOpen (l : MuxConnTransList) : Bool := l.created.any PooledTransport.isActive

/-- A call of `Get` on the list is under way. -/
def inUse (l : MuxConnTransList) : Bool := l.calls.any fun call => !call.isReturned

variable {l : MuxConnTransList}

theorem isActive_iff {ref : Nat} :
    l.isActive ref = true ↔ ∃ record, l.created[ref]? = some record ∧ record.isActive = true :=
  Option.any_eq_true _ _

theorem hasOpen_iff : l.hasOpen = true ↔ ∃ ref, l.isActive ref = true := by
  simp only [hasOpen, List.any_eq_true, isActive_iff, List.mem_iff_getElem?]
  exact ⟨fun ⟨record, ⟨ref, href⟩, hactive⟩ => ⟨ref, record, href, hactive⟩,
    fun ⟨ref, record, href, hactive⟩ => ⟨record, ⟨ref, href⟩, hactive⟩⟩

section Slots

variable {l next : MuxConnTransList} {event : ListEvent}

variable {gone ref idx call : Nat}

theorem isActive_of_closeTransport (hactive : (l.closeTransport gone).isActive ref) :
    l.isActive ref := by
  obtain ⟨record, hrecord, hopen⟩ := isActive_iff.mp hactive
  rcases getElem?_modify_cases hrecord with ⟨_, hold⟩ | ⟨old, rfl, _, rfl⟩
  · exact isActive_iff.mpr ⟨record, hold, hopen⟩
  · cases hopen

theorem isActive_of_connDown (hactive : (l.connDown gone).isActive ref) :
    l.isActive ref := by
  obtain ⟨record, hrecord, hopen⟩ := isActive_iff.mp hactive
  rcases getElem?_modify_cases hrecord with ⟨_, hold⟩ | ⟨old, rfl, _, rfl⟩
  · exact isActive_iff.mpr ⟨record, hold, hopen⟩
  · simp [PooledTransport.isActive] at hopen

theorem isActive_of_store (l : MuxConnTransList) (idx : Nat) (remoteAddr : String)
    (hactive : (l.store idx remoteAddr).isActive ref) :
    l.isActive ref = true ∨ ref = l.created.length := by
  obtain ⟨record, hrecord, hopen⟩ := isActive_iff.mp hactive
  revert hopen
  refine forall_getElem?_concat
    (p := fun ref record => record.isActive = true → l.isActive ref = true ∨ ref = l.created.length)
    (fun ref record hold hopen => .inl (isActive_iff.mpr ⟨record, hold, hopen⟩))
    (fun _ => .inr rfl) ref record hrecord

/-- Open transports are in the slots, and a call that dials has found its slot
without one. -/
structure SlotSound (l : MuxConnTransList) : Prop where
  inRange : ∀ (call : Nat) progress, l.calls[call]? = some progress →
    ∀ idx, progress.idx = some idx → idx < l.size
  dialing : ∀ (call : Nat) progress, l.calls[call]? = some progress →
    ∀ idx, progress = .dialing idx → l.activeAt idx = none
  slots : ∀ ref, l.isActive ref = true → some ref ∈ l.transports

theorem activeAt_eq_none_iff : l.activeAt idx = none ↔
      ∀ ref, l.transports[idx]? = some (some ref) → l.isActive ref = false := by
  unfold activeAt
  cases hslot : l.transports[idx]? with
  | none => simp
  | some slot =>
    cases slot with
    | none | some ref => simp

theorem SlotSound.of_calls (hsound : l.SlotSound) (htransports : next.transports = l.transports)
    (hactive : ∀ ref, next.isActive ref = true → l.isActive ref = true)
    (hcalls : ∀ (call : Nat) progress, next.calls[call]? = some progress →
      l.calls[call]? = some progress ∨ (∀ idx, progress.idx = some idx → idx < l.size) ∧
        ∀ idx, progress = .dialing idx → l.activeAt idx = none) : next.SlotSound := by
  have hnone : ∀ idx, l.activeAt idx = none → next.activeAt idx = none := by
    intro idx hold
    rw [activeAt_eq_none_iff] at hold ⊢
    intro ref hslot
    rw [htransports] at hslot
    have hinactive := hold ref hslot
    cases hnew : next.isActive ref with
    | false => rfl
    | true => exact absurd (hactive ref hnew) (by simp [hinactive])
  constructor
  · intro call progress hcall
    rw [size, htransports]
    rcases hcalls call progress hcall with hold | ⟨hidx, _⟩
    · exact hsound.inRange call progress hold
    · exact hidx
  · intro call progress hcall idx heq
    rcases hcalls call progress hcall with hold | ⟨_, hdialing⟩
    · exact hnone idx (hsound.dialing call progress hold idx heq)
    · exact hnone idx (hdialing idx heq)
  · rw [htransports]
    exact fun ref hnew => hsound.slots ref (hactive ref hnew)

/-- One call moves on, and stays with its slot. -/
theorem SlotSound.moved (hsound : l.SlotSound) {old progress : GetCall}
    (hcall : l.calls[call]? = some old)
    (hcalls : next.calls = l.calls.modify call fun _ => progress)
    (htransports : next.transports = l.transports)
    (hactive : ∀ ref, next.isActive ref = true → l.isActive ref = true)
    (hidx : ∀ idx, progress.idx = some idx → old.idx = some idx)
    (hdialing : ∀ idx, progress = .dialing idx → l.activeAt idx = none) : next.SlotSound := by
  apply hsound.of_calls htransports hactive
  rw [hcalls]
  refine forall_getElem?_modify (fun _ _ _ hold => .inl hold) fun _ _ => .inr ⟨?_, hdialing⟩
  exact fun idx hnew => hsound.inRange call old hcall idx (hidx idx hnew)

theorem idx_lt_size (l : MuxConnTransList) (hsize : UInt32.ofNat l.size ≠ 0) :
    ((l.cursor + 1) % UInt32.ofNat l.size).toNat < l.size := by
  have hne : (UInt32.ofNat l.size).toNat ≠ 0 := fun hzero => hsize (UInt32.toNat_inj.mp hzero)
  have hmod := Nat.mod_lt (l.cursor + 1).toNat (Nat.pos_of_ne_zero hne)
  have hle : (UInt32.ofNat l.size).toNat ≤ l.size := by
    exact Nat.mod_le _ _
  rw [UInt32.toNat_mod]
  omega

theorem SlotSound.dialed (hsound : l.SlotSound) (past : List ListEvent) (hlock : LockSound past l)
    (remoteAddr : String) (hcall : l.calls[call]? = some (.dialing idx)) :
    ((l.store idx remoteAddr).setCall call (.stored l.created.length)).SlotSound := by
  have hlt := hsound.inRange call _ hcall idx rfl
  have hholds := hlock.holds call _ hcall rfl
  have hfree := activeAt_eq_none_iff.mp (hsound.dialing call _ hcall idx rfl)
  constructor
  · have hsize : ((l.store idx remoteAddr).setCall call (.stored l.created.length)).size =
        l.size := List.length_set
    rw [hsize]
    exact forall_getElem?_modify (fun other found _ => hsound.inRange other found) nofun
  · -- nobody else dials, since this call has the lock
    refine forall_getElem?_modify (fun other found hne hfound other' heq => ?_) nofun
    subst heq
    have hother := hlock.holds other _ hfound rfl
    exact absurd (Option.some.inj (hother.symm.trans hholds)) hne
  · intro ref hactive
    rcases isActive_of_store l idx remoteAddr hactive with hold | rfl
    · obtain ⟨slot, hslot⟩ := List.mem_iff_getElem?.mp (hsound.slots ref hold)
      have hne : idx ≠ slot := by
        rintro rfl
        exact absurd hold (by simp [hfree ref hslot])
      exact List.mem_of_getElem? ((List.getElem?_set_ne hne).trans hslot)
    · exact List.mem_of_getElem? (List.getElem?_set_self hlt)

theorem slotSound_of_step (past : List ListEvent) (hsound : l.SlotSound) (hlock : LockSound past l)
    (hstep : Stepped l event next) : next.SlotSound := by
  cases hstep with
  | entered =>
    exact hsound.of_calls rfl (fun _ => id)
      (forall_getElem?_concat (fun _ _ => .inl) (.inr ⟨nofun, nofun⟩))
  | indexed _ hsize =>
    refine hsound.of_calls rfl (fun _ => id) ?_
    refine forall_getElem?_modify (fun _ _ _ hold => .inl hold) fun _ _ => .inr ⟨?_, nofun⟩
    rintro _ ⟨⟩
    exact idx_lt_size l hsize
  | rLocked hcall _ | read hcall | dead hcall | empty hcall | locked hcall _ _ =>
    exact hsound.moved hcall rfl rfl (fun _ => id) (fun _ => id) nofun
  | hit hcall _ | found hcall _ | dialFailed hcall =>
    exact hsound.moved hcall rfl rfl (fun _ => id) nofun nofun
  | closedInactive hcall =>
    exact hsound.moved hcall rfl rfl (fun _ => isActive_of_closeTransport) (fun _ => id) nofun
  | redial hcall hactive =>
    refine hsound.moved hcall rfl rfl (fun _ => id) (fun _ => id) ?_
    rintro _ ⟨⟩
    exact hactive
  | dialed remoteAddr hcall => exact hsound.dialed past hlock remoteAddr hcall
  | unlocked hcall =>
    rcases hcall with hcall | hcall
    · exact hsound.moved hcall rfl rfl (fun _ => id) nofun nofun
    · exact hsound.moved hcall rfl rfl (fun _ => id) nofun nofun
  | closed _ => exact hsound.of_calls rfl (fun _ => isActive_of_closeTransport) fun _ _ => .inl
  | wentDown _ => exact hsound.of_calls rfl (fun _ => isActive_of_connDown) fun _ _ => .inl

theorem run_slotSound {size : Int} {gomaxprocs : Nat} {events : List ListEvent}
    {l : MuxConnTransList} (hrun : run size gomaxprocs events = some l) : l.SlotSound := by
  refine Machine.run_invariant (fun _ l => l.SlotSound) ?_ ?_ hrun
  · exact ⟨by simp [newMuxConnTransList], by simp [newMuxConnTransList],
      by simp [isActive, newMuxConnTransList]⟩
  · intro past l event next hpast hsound hnext
    exact slotSound_of_step past hsound (run_lockSound hpast).1 (stepped_of_step hnext)

/-- A list that has nothing open and is not in use stays so. -/
theorem dead_of_step (hclosed : l.hasOpen = false) (hidle : l.inUse = false)
    (hevent : event ≠ .get) (hstep : Stepped l event next) :
    next.hasOpen = false ∧ next.inUse = false := by
  have hreturned : ∀ (call : Nat) progress, l.calls[call]? = some progress →
      progress.isReturned = true := by
    intro call progress hcall
    have hall := List.any_eq_false.mp hidle progress (List.mem_of_getElem? hcall)
    simpa using hall
  have hshrinks : (∀ ref, next.isActive ref = true → l.isActive ref = true) →
      next.hasOpen = false := by
    intro hactive
    rw [← Bool.not_eq_true, hasOpen_iff] at hclosed ⊢
    exact fun ⟨ref, href⟩ => hclosed ⟨ref, hactive ref href⟩
  cases hstep with
  | entered => exact absurd rfl hevent
  | closed _ => exact ⟨hshrinks fun _ => isActive_of_closeTransport, hidle⟩
  | wentDown _ => exact ⟨hshrinks fun _ => isActive_of_connDown, hidle⟩
  | unlocked hcall =>
    rcases hcall with hcall | hcall
    · cases hreturned _ _ hcall
    · cases hreturned _ _ hcall
  | indexed hcall _ | rLocked hcall _ | read hcall | hit hcall _ | dead hcall | empty hcall
  | closedInactive hcall | locked hcall _ _ | found hcall _ | redial hcall _ | dialed _ hcall
  | dialFailed hcall => cases hreturned _ _ hcall

end Slots

end MuxConnTransList

/-! ## The pool -/

structure MuxConnConfig where
  poolSize : Int
  maxIdleTimeout : Int
  gomaxprocs : Nat

/-- Where the cleaner is in its loop over the recorded activity. -/
inductive Cleaner where
  /-- not started -/
  | off
  | idle
  /-- the address was idle for too long, and has a list -/
  | visiting (addr : String)
  /-- the list is out of the map, and the activity is not -/
  | deleted (addr : String)
  deriving DecidableEq, Repr

structure MuxConnTransPool where
  /-- all lists that the pool has created -/
  lists : List MuxConnTransList
  pool : AList fun _ : String => Nat
  activity : AList fun _ : String => Int
  cleaner : Cleaner

inductive PoolEvent where
  /-- a call of `Get` looks up the list of the address, or stores a new one -/
  | get (addr : String)
  /-- a step of a call on its list, or of somebody who closes a transport -/
  | list (ref : Nat) (event : ListEvent)
  /-- a transport is handed back at some time -/
  | put (ref handed : Nat) (now : Int)
  /-- the cleaner, in the pass that began at some time, comes to an address -/
  | visit (addr : String) (now : Int)
  | deleteList
  | deleteActivity
  deriving DecidableEq, Repr

namespace MuxConnTransPool

variable (config : MuxConnConfig)

def newMuxConnTransPool : MuxConnTransPool where
  lists := []
  pool := ∅
  activity := ∅
  cleaner := .off

def newList : MuxConnTransList :=
  .newMuxConnTransList config.poolSize config.gomaxprocs

def get (p : MuxConnTransPool) (addr : String) : Option MuxConnTransPool :=
  match p.pool.lookup addr with
  | some ref => p.lists[ref]?.bind fun l =>
    (l.step .get).map fun l => { p with lists := p.lists.modify ref fun _ => l }
  | none =>
    ((newList config).step .get).map fun l => { p with
      lists := p.lists ++ [l]
      pool := p.pool.insert addr p.lists.length }

/-- The cleaner is started once, unless the timeout is zero. -/
def put (p : MuxConnTransPool) (remoteAddr : String) (now : Int) : MuxConnTransPool :=
  { p with
    activity := p.activity.insert remoteAddr now
    cleaner := if config.maxIdleTimeout = 0 then p.cleaner
      else if p.cleaner = .off then .idle else p.cleaner }

/-- The address was last active too recently to be cleaned. The zero time counts
as recent. -/
def isRecent (lastActive now : Int) : Bool :=
  decide (lastActive = 0 ∨ now - lastActive < 0 ∨ now - lastActive < config.maxIdleTimeout)

def step (p : MuxConnTransPool) : PoolEvent → Option MuxConnTransPool
  | .get addr => p.get config addr
  | .list ref event => p.lists[ref]?.bind fun l =>
    if event = .get then none
    else (l.step event).map fun l => { p with lists := p.lists.modify ref fun _ => l }
  | .put ref handed now => p.lists[ref]?.bind fun l => l.created[handed]?.map fun record =>
    p.put config record.remoteAddr now
  | .visit addr now =>
    -- an address without a list is passed over, and its activity stays
    match p.cleaner, p.activity.lookup addr with
    | .idle, some lastActive =>
      if isRecent config lastActive now ∨ p.pool.lookup addr = none then some p
      else some { p with cleaner := .visiting addr }
    | _, _ => none
  | .deleteList =>
    match p.cleaner with
    -- the list is dropped without a call of its `Close`
    | .visiting addr => some { p with pool := p.pool.erase addr, cleaner := .deleted addr }
    | _ => none
  | .deleteActivity =>
    match p.cleaner with
    | .deleted addr => some { p with activity := p.activity.erase addr, cleaner := .idle }
    | _ => none

def run (events : List PoolEvent) : Option MuxConnTransPool :=
  Machine.run (step config) newMuxConnTransPool events

/-! ## Open transports -/

/-- The transport can be reached from the pool's map: it is in a slot of a list in
the map. -/
def Reachable (p : MuxConnTransPool) (ref trans : Nat) : Prop :=
  (∃ addr, p.pool.lookup addr = some ref) ∧
    ∃ l, p.lists[ref]? = some l ∧ some trans ∈ l.transports

/-- No transport is open and out of reach. -/
def NoLeak (p : MuxConnTransPool) : Prop :=
  ∀ (ref : Nat) l trans, p.lists[ref]? = some l → l.isActive trans = true →
    p.Reachable ref trans

/-- When the cleaner takes a list out of the map, all transports of the list are
closed or disconnected and no call of `Get` is using it. -/
def cleansUnused (p : MuxConnTransPool) : PoolEvent → Bool
  | .deleteList =>
    match p.cleaner with
    | .visiting addr => ((p.pool.lookup addr).bind (p.lists[·]?)).all
        fun l => !l.hasOpen && !l.inUse
    | _ => true
  | _ => true

/-- Every list is one that `Get` calls have made by themselves, and a list that is
not in the map has nothing open and is not in use. -/
structure PoolSound (p : MuxConnTransPool) : Prop where
  lists : ∀ (ref : Nat) l, p.lists[ref]? = some l →
    ∃ events, MuxConnTransList.run config.poolSize config.gomaxprocs events = some l
  unmapped : ∀ (ref : Nat) l, p.lists[ref]? = some l → (∀ addr, p.pool.lookup addr ≠ some ref) →
    l.hasOpen = false ∧ l.inUse = false

section Step

variable {config} {p next : MuxConnTransPool}

variable {l after : MuxConnTransList} {event : ListEvent} {addr : String}

theorem exists_run_step
    (hlist : ∃ events, MuxConnTransList.run config.poolSize config.gomaxprocs events = some l)
    (hnext : l.step event = some after) :
    ∃ events, MuxConnTransList.run config.poolSize config.gomaxprocs events = some after := by
  obtain ⟨events, hrun⟩ := hlist
  exact ⟨events ++ [event], Machine.run_append_singleton_eq_some.mpr ⟨l, hrun, hnext⟩⟩

variable (hsound : p.PoolSound config)
include hsound

theorem PoolSound.get (hnext : p.get config addr = some next) : next.PoolSound config := by
  unfold MuxConnTransPool.get at hnext
  split at hnext
  next ref hlookup =>
    obtain ⟨l, hlist, hnext⟩ := Option.bind_eq_some_iff.mp hnext
    obtain ⟨after, hafter, rfl⟩ := Option.map_eq_some_iff.mp hnext
    constructor
    · exact forall_getElem?_modify (fun other l _ => hsound.lists other l)
        fun _ _ => exists_run_step (hsound.lists ref l hlist) hafter
    · -- the list of the address is in the map
      exact forall_getElem?_modify (fun other l _ => hsound.unmapped other l)
        fun _ _ hunmapped => absurd hlookup (hunmapped addr)
  next hlookup =>
    obtain ⟨after, hafter, rfl⟩ := Option.map_eq_some_iff.mp hnext
    constructor
    · exact forall_getElem?_concat hsound.lists (exists_run_step ⟨[], rfl⟩ hafter)
    · refine forall_getElem?_concat (fun ref l hlist hunmapped => ?_) fun hunmapped => ?_
      · apply hsound.unmapped ref l hlist
        intro other hother
        have hne : other ≠ addr := by
          rintro rfl
          exact nomatch hlookup.symm.trans hother
        exact hunmapped other ((AList.lookup_insert_ne hne).trans hother)
      · exact absurd (AList.lookup_insert p.pool) (hunmapped addr)

theorem PoolSound.list {ref : Nat} (hlist : p.lists[ref]? = some l) (hevent : event ≠ .get)
    (hafter : l.step event = some after) :
    PoolSound config { p with lists := p.lists.modify ref fun _ => after } := by
  constructor
  · exact forall_getElem?_modify (fun other l _ => hsound.lists other l)
      fun _ _ => exists_run_step (hsound.lists ref l hlist) hafter
  · refine forall_getElem?_modify (fun other l _ => hsound.unmapped other l) ?_
    intro _ _ hunmapped
    obtain ⟨hclosed, hidle⟩ := hsound.unmapped ref l hlist hunmapped
    exact dead_of_step hclosed hidle hevent
      (stepped_of_step hafter)

theorem PoolSound.deleteList (hcleaner : p.cleaner = .visiting addr)
    (hunused : p.cleansUnused .deleteList) :
    PoolSound config { p with pool := p.pool.erase addr, cleaner := .deleted addr } := by
  refine ⟨hsound.lists, fun ref l hlist hunmapped => ?_⟩
  by_cases hmapped : p.pool.lookup addr = some ref
  · simpa [cleansUnused, hcleaner, hmapped, hlist] using hunused
  · apply hsound.unmapped ref l hlist
    intro other hother
    have hne : other ≠ addr := by
      rintro rfl
      exact hmapped hother
    exact hunmapped other ((AList.lookup_erase_ne hne).trans hother)

theorem poolSound_of_step {event : PoolEvent}
    (hunused : p.cleansUnused event) (hnext : p.step config event = some next) :
    next.PoolSound config := by
  cases event with
  | get addr => exact hsound.get hnext
  | list ref event =>
    obtain ⟨l, hlist, hnext⟩ := Option.bind_eq_some_iff.mp hnext
    obtain ⟨hevent, hnext⟩ := Option.ite_none_left_eq_some.mp hnext
    obtain ⟨after, hafter, rfl⟩ := Option.map_eq_some_iff.mp hnext
    exact hsound.list hlist hevent hafter
  | put ref handed now =>
    obtain ⟨l, _, hnext⟩ := Option.bind_eq_some_iff.mp hnext
    obtain ⟨record, _, rfl⟩ := Option.map_eq_some_iff.mp hnext
    exact ⟨hsound.lists, hsound.unmapped⟩
  | visit addr now =>
    simp only [step] at hnext
    split at hnext
    next =>
      split at hnext
      next =>
        cases hnext
        exact hsound
      next =>
        cases hnext
        exact ⟨hsound.lists, hsound.unmapped⟩
    next => cases hnext
  | deleteList =>
    simp only [step] at hnext
    split at hnext
    next hcleaner =>
      cases hnext
      exact hsound.deleteList hcleaner hunused
    next => cases hnext
  | deleteActivity =>
    simp only [step] at hnext
    split at hnext
    next =>
      cases hnext
      exact ⟨hsound.lists, hsound.unmapped⟩
    next => cases hnext

theorem PoolSound.noLeak : p.NoLeak := by
  intro ref l trans hlist hactive
  have hopen := hasOpen_iff.mpr ⟨trans, hactive⟩
  constructor
  · by_contra hunmapped
    have hdead := hsound.unmapped ref l hlist fun addr hlookup => hunmapped ⟨addr, hlookup⟩
    exact absurd hopen (by simp [hdead.1])
  · obtain ⟨events, hrun⟩ := hsound.lists ref l hlist
    exact ⟨l, hlist, (run_slotSound hrun).slots trans hactive⟩

end Step

/-- If the cleaner removes unused lists only, no open transport is ever out of the
pool's reach. -/
theorem run_noLeak {events : List PoolEvent} {p : MuxConnTransPool}
    (hmeets : Machine.Meets (step config) (fun p event => p.cleansUnused event = true)
      newMuxConnTransPool events) (hrun : run config events = some p) : p.NoLeak := by
  have hsound : p.PoolSound config := by
    refine Machine.run_invariant_of_meets (fun _ p => p.PoolSound config) _ ?_ ?_ hmeets hrun
    · exact ⟨by simp [newMuxConnTransPool], by simp [newMuxConnTransPool]⟩
    · intro _ p event next _ hsound hunused hnext
      exact poolSound_of_step hsound hunused hnext
  exact hsound.noLeak

/-- A call of `Get` connects to an address, and the transport is handed back. -/
def getAndPut : List PoolEvent :=
  let steps := MuxConnTransList.firstGet.tail ++
    [ListEvent.dial 0 (some "10.0.0.1:80"), ListEvent.unlock 0]
  .get "10.0.0.1:80" :: steps.map (.list 0) ++ [PoolEvent.put 0 0 1]

/-- An hour later the cleaner comes to the address, and removes its list. -/
def thenClean : List PoolEvent := [.visit "10.0.0.1:80" 3600, .deleteList, .deleteActivity]

theorem run_noLeak_closed :
    ∃ p, run ⟨1, 60, 1⟩ (getAndPut ++ [PoolEvent.list 0 (.close 0)] ++ thenClean) = some p ∧
      p.NoLeak := by
  have hview : (run ⟨1, 60, 1⟩
      (getAndPut ++ [PoolEvent.list 0 (.close 0)] ++ thenClean)).isSome = true := by
    decide
  obtain ⟨p, hrun⟩ := Option.isSome_iff_exists.mp hview
  exact ⟨p, hrun, run_noLeak ⟨1, 60, 1⟩ (by decide) hrun⟩

/-- The transport is out of the pool's reach and still open. -/
theorem cleaner_leaks_transport :
    ∃ p l, run ⟨1, 60, 1⟩ (getAndPut ++ thenClean) = some p ∧ p.lists[0]? = some l ∧
      l.isActive 0 = true ∧ ¬p.Reachable 0 0 := by
  have hview : (run ⟨1, 60, 1⟩ (getAndPut ++ thenClean)).any (fun p =>
      decide (p.pool.entries = []) && p.lists[0]?.any fun l => l.isActive 0) = true := by
    decide
  simp only [Option.any_eq_true, Bool.and_eq_true, decide_eq_true_eq] at hview
  obtain ⟨p, hrun, hempty, l, hlist, hactive⟩ := hview
  refine ⟨p, l, hrun, hlist, hactive, ?_⟩
  rintro ⟨⟨addr, hlookup⟩, _⟩
  have hmem := AList.mem_lookup_iff.mp hlookup
  simp [hempty] at hmem

end MuxConnTransPool

end Kitex.TTStream
