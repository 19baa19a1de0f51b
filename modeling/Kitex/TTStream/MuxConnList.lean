import Kitex.Container.Slots
import Kitex.Machine.Run

/-! # The transports of one address in the multiplexed pool

A list has a fixed number of slots for transports, and a read-write lock over
them. `Get` picks a slot by a cursor. A slot whose transport is not active is
filled anew under the lock, unless another call has filled it in the meantime.
An event is one step of a call, or of somebody else who closes a transport.
-/

namespace Kitex.TTStream

open Kitex.Container

/-- What the pools see of a client transport. -/
structure PooledTransport where
  /-- the transport's state is `connStateClosed` -/
  closed : Bool
  /-- `conn.IsActive()` -/
  connActive : Bool
  remoteAddr : String
  deriving DecidableEq, Repr

def PooledTransport.isActive (record : PooledTransport) : Bool :=
  !record.closed && record.connActive

/-- Where a call of `muxConnTransList.Get` is. Transports are named by the order
in which the list has created them. -/
inductive GetCall where
  | start
  | indexed (idx : Nat)
  /-- holding the read lock -/
  | reading (idx : Nat)
  /-- with the transport that was read, if the slot was not empty -/
  | examining (idx : Nat) (ref : Option Nat)
  /-- about to close a transport that is not active -/
  | closing (idx ref : Nat)
  /-- about to take the lock -/
  | slow (idx : Nat)
  /-- holding the lock -/
  | locked (idx : Nat)
  /-- holding the lock, with a transport that another call has created -/
  | found (ref : Nat)
  /-- holding the lock, in `DialConnection` -/
  | dialing (idx : Nat)
  /-- holding the lock, with a new transport in the slot -/
  | stored (ref : Nat)
  /-- `none` stands for the dialer's error -/
  | returned (ref : Option Nat)
  deriving DecidableEq, Repr

/-- The call has taken the lock, and its code is going to release it. -/
def GetCall.holdsLock : GetCall → Bool
  | .locked _ => true
  | .found _ => true
  | .dialing _ => true
  | .stored _ => true
  | _ => false

def GetCall.isReading : GetCall → Bool
  | .reading _ => true
  | _ => false

structure MuxConnTransList where
  cursor : UInt32
  transports : List (Option Nat)
  /-- all transports that the list has created -/
  created : List PooledTransport
  calls : List GetCall
  /-- how many calls hold the read lock -/
  readers : Nat
  /-- the call that has locked `L` and not unlocked it -/
  writer : Option Nat
  deriving DecidableEq, Repr

inductive ListEvent where
  /-- somebody calls `Get` -/
  | get
  | advanceCursor (call : Nat)
  | rLock (call : Nat)
  /-- the slot is read and the read lock released -/
  | readSlot (call : Nat)
  | examine (call : Nat)
  | closeInactive (call : Nat)
  | lock (call : Nat)
  /-- the slot is read again under the lock -/
  | recheck (call : Nat)
  /-- the dialer fails, or connects to a remote address -/
  | dial (call : Nat) (remoteAddr : Option String)
  | unlock (call : Nat)
  /-- somebody else closes a transport -/
  | close (ref : Nat)
  /-- the connection of a transport goes down -/
  | connDown (ref : Nat)
  deriving DecidableEq, Repr

namespace MuxConnTransList

def size (l : MuxConnTransList) : Nat := l.transports.length

/-- `newMuxConnTransList`, where `gomaxprocs` replaces a size that is not positive. -/
def newMuxConnTransList (size : Int) (gomaxprocs : Nat) : MuxConnTransList where
  cursor := 0
  transports := List.replicate (if size ≤ 0 then gomaxprocs else size.toNat) none
  created := []
  calls := []
  readers := 0
  writer := none

def setCall (l : MuxConnTransList) (call : Nat) (progress : GetCall) : MuxConnTransList :=
  { l with calls := l.calls.modify call fun _ => progress }

def isActive (l : MuxConnTransList) (ref : Nat) : Bool :=
  l.created[ref]?.any PooledTransport.isActive

/-- The active transport in a slot. -/
def activeAt (l : MuxConnTransList) (idx : Nat) : Option Nat :=
  l.transports[idx]?.join.filter l.isActive

def closeTransport (l : MuxConnTransList) (ref : Nat) : MuxConnTransList :=
  { l with created := l.created.modify ref fun record => { record with closed := true } }

def connDown (l : MuxConnTransList) (ref : Nat) : MuxConnTransList :=
  { l with created := l.created.modify ref fun record => { record with connActive := false } }

/-- `newClientTransport` on a fresh connection, stored in the slot. -/
def store (l : MuxConnTransList) (idx : Nat) (remoteAddr : String) : MuxConnTransList :=
  { l with
    created := l.created ++ [⟨false, true, remoteAddr⟩]
    transports := l.transports.set idx (some l.created.length) }

def step (l : MuxConnTransList) : ListEvent → Option MuxConnTransList
  | .get => some { l with calls := l.calls ++ [GetCall.start] }
  | .advanceCursor call => l.calls[call]?.bind fun progress =>
    match progress with
    | .start =>
      -- a size that is zero in 32 bits makes the division panic
      if UInt32.ofNat l.size = 0 then none
      else some ({ l with cursor := l.cursor + 1 }.setCall call
        (.indexed ((l.cursor + 1) % UInt32.ofNat l.size).toNat))
    | _ => none
  | .rLock call => l.calls[call]?.bind fun progress =>
    match progress with
    | .indexed idx =>
      if l.writer = none then
        some ({ l with readers := l.readers + 1 }.setCall call (.reading idx))
      else none
    | _ => none
  | .readSlot call => l.calls[call]?.bind fun progress =>
    match progress with
    | .reading idx =>
      some ({ l with readers := l.readers - 1 }.setCall call
        (.examining idx l.transports[idx]?.join))
    | _ => none
  | .examine call => l.calls[call]?.bind fun progress =>
    match progress with
    | .examining idx (some ref) =>
      if l.isActive ref then some (l.setCall call (.returned (some ref)))
      else some (l.setCall call (.closing idx ref))
    | .examining idx none => some (l.setCall call (.slow idx))
    | _ => none
  | .closeInactive call => l.calls[call]?.bind fun progress =>
    match progress with
    | .closing idx ref => some ((l.closeTransport ref).setCall call (.slow idx))
    | _ => none
  | .lock call => l.calls[call]?.bind fun progress =>
    match progress with
    | .slow idx =>
      if l.writer = none ∧ l.readers = 0 then
        some ({ l with writer := some call }.setCall call (.locked idx))
      else none
    | _ => none
  | .recheck call => l.calls[call]?.bind fun progress =>
    match progress with
    | .locked idx =>
      match l.activeAt idx with
      | some ref => some (l.setCall call (.found ref))
      | none => some (l.setCall call (.dialing idx))
    | _ => none
  | .dial call remoteAddr => l.calls[call]?.bind fun progress =>
    match progress, remoteAddr with
    | .dialing idx, some remoteAddr =>
      some ((l.store idx remoteAddr).setCall call (.stored l.created.length))
    -- the error is returned with the lock held
    | .dialing _, none => some (l.setCall call (.returned none))
    | _, _ => none
  | .unlock call => l.calls[call]?.bind fun progress =>
    match progress with
    | .found ref => some ({ l with writer := none }.setCall call (.returned (some ref)))
    | .stored ref => some ({ l with writer := none }.setCall call (.returned (some ref)))
    | _ => none
  | .close ref => some (l.closeTransport ref)
  | .connDown ref => some (l.connDown ref)

def run (size : Int) (gomaxprocs : Nat) (events : List ListEvent) : Option MuxConnTransList :=
  Machine.run step (newMuxConnTransList size gomaxprocs) events

/-! ## Outcomes -/

/-- What a step does, one constructor for each branch of the source. -/
inductive Stepped (l : MuxConnTransList) : ListEvent → MuxConnTransList → Prop
  | entered : Stepped l .get { l with calls := l.calls ++ [GetCall.start] }
  | indexed {call : Nat} (hcall : l.calls[call]? = some .start) (hsize : UInt32.ofNat l.size ≠ 0) :
      Stepped l (.advanceCursor call) ({ l with cursor := l.cursor + 1 }.setCall call
        (.indexed ((l.cursor + 1) % UInt32.ofNat l.size).toNat))
  | rLocked {call idx : Nat} (hcall : l.calls[call]? = some (.indexed idx))
      (hwriter : l.writer = none) :
      Stepped l (.rLock call) ({ l with readers := l.readers + 1 }.setCall call (.reading idx))
  | read {call idx : Nat} (hcall : l.calls[call]? = some (.reading idx)) :
      Stepped l (.readSlot call) ({ l with readers := l.readers - 1 }.setCall call
        (.examining idx l.transports[idx]?.join))
  | hit {call idx ref : Nat} (hcall : l.calls[call]? = some (.examining idx (some ref)))
      (hactive : l.isActive ref = true) :
      Stepped l (.examine call) (l.setCall call (.returned (some ref)))
  | dead {call idx ref : Nat} (hcall : l.calls[call]? = some (.examining idx (some ref))) :
      Stepped l (.examine call) (l.setCall call (.closing idx ref))
  | empty {call idx : Nat} (hcall : l.calls[call]? = some (.examining idx none)) :
      Stepped l (.examine call) (l.setCall call (.slow idx))
  | closedInactive {call idx ref : Nat} (hcall : l.calls[call]? = some (.closing idx ref)) :
      Stepped l (.closeInactive call) ((l.closeTransport ref).setCall call (.slow idx))
  | locked {call idx : Nat} (hcall : l.calls[call]? = some (.slow idx))
      (hwriter : l.writer = none) (hreaders : l.readers = 0) :
      Stepped l (.lock call) ({ l with writer := some call }.setCall call (.locked idx))
  | found {call idx ref : Nat} (hcall : l.calls[call]? = some (.locked idx))
      (hactive : l.activeAt idx = some ref) :
      Stepped l (.recheck call) (l.setCall call (.found ref))
  | redial {call idx : Nat} (hcall : l.calls[call]? = some (.locked idx))
      (hactive : l.activeAt idx = none) :
      Stepped l (.recheck call) (l.setCall call (.dialing idx))
  | dialed {call idx : Nat} (remoteAddr : String) (hcall : l.calls[call]? = some (.dialing idx)) :
      Stepped l (.dial call (some remoteAddr))
        ((l.store idx remoteAddr).setCall call (.stored l.created.length))
  | dialFailed {call idx : Nat} (hcall : l.calls[call]? = some (.dialing idx)) :
      Stepped l (.dial call none) (l.setCall call (.returned none))
  | unlocked {call ref : Nat}
      (hcall : l.calls[call]? = some (.found ref) ∨ l.calls[call]? = some (.stored ref)) :
      Stepped l (.unlock call) ({ l with writer := none }.setCall call (.returned (some ref)))
  | closed (ref : Nat) : Stepped l (.close ref) (l.closeTransport ref)
  | wentDown (ref : Nat) : Stepped l (.connDown ref) (l.connDown ref)

variable {l next : MuxConnTransList} {event : ListEvent} {past : List ListEvent}

theorem stepped_of_step (hnext : l.step event = some next) : Stepped l event next := by
  cases event
  case get =>
    cases hnext
    exact .entered
  case close ref =>
    cases hnext
    exact .closed ref
  case connDown ref =>
    cases hnext
    exact .wentDown ref
  -- all other events are steps of a call
  all_goals obtain ⟨progress, hcall, hnext⟩ := Option.bind_eq_some_iff.mp hnext
  case advanceCursor =>
    split at hnext
    next =>
      obtain ⟨hsize, ⟨⟩⟩ := Option.ite_none_left_eq_some.mp hnext
      exact .indexed hcall hsize
    next => cases hnext
  case rLock =>
    split at hnext
    next =>
      obtain ⟨hwriter, ⟨⟩⟩ := Option.ite_none_right_eq_some.mp hnext
      exact .rLocked hcall hwriter
    next => cases hnext
  case readSlot =>
    split at hnext
    next =>
      cases hnext
      exact .read hcall
    next => cases hnext
  case examine =>
    split at hnext
    next =>
      split at hnext
      next hactive =>
        cases hnext
        exact .hit hcall hactive
      next =>
        cases hnext
        exact .dead hcall
    next =>
      cases hnext
      exact .empty hcall
    next => cases hnext
  case closeInactive =>
    split at hnext
    next =>
      cases hnext
      exact .closedInactive hcall
    next => cases hnext
  case lock =>
    split at hnext
    next =>
      obtain ⟨⟨hwriter, hreaders⟩, ⟨⟩⟩ := Option.ite_none_right_eq_some.mp hnext
      exact .locked hcall hwriter hreaders
    next => cases hnext
  case recheck =>
    split at hnext
    next =>
      split at hnext
      next hactive =>
        cases hnext
        exact .found hcall hactive
      next hactive =>
        cases hnext
        exact .redial hcall hactive
    next => cases hnext
  case dial =>
    split at hnext
    next =>
      cases hnext
      exact .dialed _ hcall
    next =>
      cases hnext
      exact .dialFailed hcall
    next => cases hnext
  case unlock =>
    split at hnext
    next =>
      cases hnext
      exact .unlocked (.inl hcall)
    next =>
      cases hnext
      exact .unlocked (.inr hcall)
    next => cases hnext

/-! ## The lock -/

/-- A call with the lock in its code has it; the lock is with such a call, or with
one that has returned the dialer's error. -/
structure LockSound (past : List ListEvent) (l : MuxConnTransList) : Prop where
  holds : ∀ (call : Nat) progress, l.calls[call]? = some progress →
    progress.holdsLock = true → l.writer = some call
  writer : ∀ call, l.writer = some call → ∃ progress, l.calls[call]? = some progress ∧
    (progress.holdsLock = true ∨ .dial call none ∈ past)
  leaked : ∀ call, .dial call none ∈ past →
    l.calls[call]? = some (.returned none) ∧ l.writer = some call

/-- Only a failed dial is remembered. -/
theorem LockSound.concat (hevent : ∀ call, event ≠ .dial call none) (hsound : LockSound past next) :
    LockSound (past ++ [event]) next := by
  have hpast : ∀ call, .dial call none ∈ past ++ [event] ↔ .dial call none ∈ past := fun call => by
    simp [(hevent call).symm]
  refine ⟨hsound.holds, fun call => ?_, fun call => ?_⟩
  · rw [hpast]
    exact hsound.writer call
  · rw [hpast]
    exact hsound.leaked call

theorem LockSound.entered (hsound : LockSound past l)
    (hcalls : next.calls = l.calls ++ [GetCall.start]) (hwriter : next.writer = l.writer) :
    LockSound past next := by
  have hold : ∀ {call : Nat} {progress : GetCall}, l.calls[call]? = some progress →
      next.calls[call]? = some progress := by
    intro call progress hcall
    have hlt : call < l.calls.length := (List.getElem?_eq_some_iff.mp hcall).1
    rw [hcalls, List.getElem?_append_left hlt, hcall]
  constructor
  · rw [hcalls, hwriter]
    exact forall_getElem?_concat hsound.holds nofun
  · intro call hhas
    obtain ⟨progress, hcall, hcase⟩ := hsound.writer call (hwriter ▸ hhas)
    exact ⟨progress, hold hcall, hcase⟩
  · intro call hdial
    obtain ⟨hleaked, hhas⟩ := hsound.leaked call hdial
    exact ⟨hold hleaked, hwriter.trans hhas⟩

section Moves

variable {slot : Nat} {old progress : GetCall} (hsound : LockSound past l)
  (hcall : l.calls[slot]? = some old)
  (hcalls : next.calls = l.calls.modify slot fun _ => progress)
include hsound hcall hcalls

/-- A call goes on, with the lock or without it. -/
theorem LockSound.moved (hreturned : ∀ result, old ≠ .returned result)
    (hholds : progress.holdsLock = old.holdsLock) (hwriter : next.writer = l.writer) :
    LockSound past next := by
  constructor
  · rw [hcalls, hwriter]
    refine forall_getElem?_modify (fun call found _ => hsound.holds call found) ?_
    intro _ _ hnew
    exact hsound.holds slot old hcall (hholds ▸ hnew)
  · intro call hhas
    obtain ⟨found, hfound, hcase⟩ := hsound.writer call (hwriter ▸ hhas)
    rw [hcalls]
    by_cases heq : call = slot
    · subst heq
      cases hcall.symm.trans hfound
      exact ⟨progress, getElem?_modify_self hcall _, hcase.imp_left (hholds.trans ·)⟩
    · exact ⟨found, by rw [getElem?_modify_ne heq, hfound], hcase⟩
  · intro call hdial
    obtain ⟨hleaked, hhas⟩ := hsound.leaked call hdial
    have hne : call ≠ slot := by
      rintro rfl
      exact hreturned none (Option.some.inj (hcall.symm.trans hleaked))
    exact ⟨by rw [hcalls, getElem?_modify_ne hne, hleaked], hwriter.trans hhas⟩

/-- The lock was free, so nobody had it. -/
theorem LockSound.locked (hholds : progress.holdsLock = true) (hfree : l.writer = none)
    (hwriter : next.writer = some slot) : LockSound past next := by
  constructor
  · rw [hcalls, hwriter]
    refine forall_getElem?_modify (fun call found _ hfound hnew => ?_) fun _ _ _ => rfl
    exact nomatch hfree.symm.trans (hsound.holds call found hfound hnew)
  · intro call hhas
    cases hwriter.symm.trans hhas
    exact ⟨progress, by rw [hcalls, getElem?_modify_self hcall], .inl hholds⟩
  · intro call hdial
    exact nomatch hfree.symm.trans (hsound.leaked call hdial).2

theorem LockSound.unlocked (hholds : old.holdsLock = true) (hnew : progress.holdsLock = false)
    (hwriter : next.writer = none) : LockSound past next := by
  have hhas := hsound.holds slot old hcall hholds
  constructor
  · rw [hcalls]
    refine forall_getElem?_modify (fun call found hne hfound hlock => ?_) fun _ _ hlock => ?_
    · exact absurd (Option.some.inj (hhas.symm.trans (hsound.holds call found hfound hlock)))
        (Ne.symm hne)
    · cases hnew.symm.trans hlock
  · intro call hnone
    exact nomatch hwriter.symm.trans hnone
  · intro call hdial
    obtain ⟨hleaked, hother⟩ := hsound.leaked call hdial
    cases hhas.symm.trans hother
    cases hcall.symm.trans hleaked
    cases hholds

end Moves

/-- The dialer's error is returned, and the lock stays with the call. -/
theorem LockSound.leak (hsound : LockSound past l) {slot : Nat} {old : GetCall}
    (hcall : l.calls[slot]? = some old) (hholds : old.holdsLock = true) :
    LockSound (past ++ [.dial slot none]) (l.setCall slot (.returned none)) := by
  have hhas := hsound.holds slot old hcall hholds
  have hself : (l.setCall slot (.returned none)).calls[slot]? = some (.returned none) :=
    getElem?_modify_self hcall _
  constructor
  · exact forall_getElem?_modify (fun call found _ => hsound.holds call found) nofun
  · intro call hother
    cases hhas.symm.trans hother
    exact ⟨_, hself, .inr (by simp)⟩
  · intro call hdial
    rcases List.mem_append.mp hdial with hpast | hlast
    · -- somebody else would have the lock
      cases hhas.symm.trans (hsound.leaked call hpast).2
      exact ⟨hself, hhas⟩
    · cases List.mem_singleton.mp hlast
      exact ⟨hself, hhas⟩

theorem lockSound_of_step (hsound : LockSound past l) (hstep : Stepped l event next) :
    LockSound (past ++ [event]) next := by
  cases hstep with
  | entered => exact .concat nofun (hsound.entered rfl rfl)
  | indexed hcall _ | rLocked hcall _ | read hcall | hit hcall _ | dead hcall | empty hcall
  | closedInactive hcall | found hcall _ | redial hcall _ | dialed _ hcall =>
    exact .concat nofun (hsound.moved hcall rfl nofun rfl rfl)
  | locked hcall hwriter _ => exact .concat nofun (hsound.locked hcall rfl rfl hwriter rfl)
  | dialFailed hcall => exact hsound.leak hcall rfl
  | unlocked hcall =>
    rcases hcall with hcall | hcall
    · exact .concat nofun (hsound.unlocked hcall rfl rfl rfl rfl)
    · exact .concat nofun (hsound.unlocked hcall rfl rfl rfl rfl)
  | closed _ | wentDown _ =>
    exact .concat nofun ⟨hsound.holds, hsound.writer, hsound.leaked⟩

/-- The read lock is counted for the calls that are reading. -/
def ReadersCounted (l : MuxConnTransList) : Prop :=
  l.readers = l.calls.countP GetCall.isReading

theorem ReadersCounted.modify (hcounted : l.ReadersCounted) {call : Nat} {old progress : GetCall}
    (hcall : l.calls[call]? = some old)
    (hcalls : next.calls = l.calls.modify call fun _ => progress)
    (hreaders : next.readers + (if old.isReading then 1 else 0) =
      l.readers + (if progress.isReading then 1 else 0)) : next.ReadersCounted := by
  have hcount := countP_modify hcall GetCall.isReading fun _ => progress
  unfold ReadersCounted at hcounted ⊢
  rw [hcalls]
  omega

theorem readersCounted_of_step (hcounted : l.ReadersCounted) (hstep : Stepped l event next) :
    next.ReadersCounted := by
  cases hstep with
  | entered => simpa [ReadersCounted, GetCall.isReading] using hcounted
  | indexed hcall _ | rLocked hcall _ | hit hcall _ | dead hcall | empty hcall
  | closedInactive hcall | locked hcall _ _ | found hcall _ | redial hcall _ | dialed _ hcall
  | dialFailed hcall => exact hcounted.modify hcall rfl rfl
  | read hcall =>
    have hpos : 0 < l.readers := by
      rw [hcounted, List.countP_pos_iff]
      exact ⟨_, List.mem_of_getElem? hcall, rfl⟩
    exact hcounted.modify hcall rfl (Nat.sub_add_cancel hpos)
  | unlocked hcall =>
    rcases hcall with hcall | hcall
    · exact hcounted.modify hcall rfl rfl
    · exact hcounted.modify hcall rfl rfl
  | closed _ | wentDown _ => exact hcounted

theorem run_lockSound {size : Int} {gomaxprocs : Nat} {events : List ListEvent}
    (hrun : run size gomaxprocs events = some l) : LockSound events l ∧ l.ReadersCounted := by
  refine Machine.run_invariant (fun past l => LockSound past l ∧ l.ReadersCounted) ?_ ?_ hrun
  · exact ⟨⟨by simp [newMuxConnTransList], nofun, by simp⟩, rfl⟩
  · rintro past l event next _ ⟨hsound, hcounted⟩ hnext
    have hstep := stepped_of_step hnext
    exact ⟨lockSound_of_step hsound hstep,
      readersCounted_of_step hcounted hstep⟩

/-! ## Returning with the lock released -/

/-- Every call that has returned has released the lock. A call that has the lock
can release it by its own steps, and the read lock is only with calls that are
reading, so that no lock is left behind for later calls to wait on. -/
structure LockReleased (l : MuxConnTransList) : Prop where
  returned : ∀ (call : Nat) result, l.calls[call]? = some (.returned result) →
    l.writer ≠ some call
  holder : ∀ call, l.writer = some call → ∃ later next,
    later ⊆ [.recheck call, .dial call (some ""), .unlock call] ∧
      Machine.run step l later = some next ∧ next.writer = none
  readers : l.readers = l.calls.countP GetCall.isReading

section Release

theorem step_unlock (l : MuxConnTransList) {call ref : Nat}
    (hcall : l.calls[call]? = some (.found ref) ∨ l.calls[call]? = some (.stored ref)) :
    ∃ next, l.step (.unlock call) = some next ∧ next.writer = none := by
  refine ⟨{ l with writer := none }.setCall call (.returned (some ref)), ?_, rfl⟩
  rcases hcall with hcall | hcall <;> simp [step, hcall]

theorem run_dial_unlock (l : MuxConnTransList) {call idx : Nat}
    (hcall : l.calls[call]? = some (.dialing idx)) :
    ∃ next, Machine.run step l [.dial call (some ""), .unlock call] = some next ∧
      next.writer = none := by
  have hdial : l.step (.dial call (some "")) =
      some ((l.store idx "").setCall call (.stored l.created.length)) := by
    simp [step, hcall]
  obtain ⟨next, hnext, hfree⟩ :=
    step_unlock ((l.store idx "").setCall call (.stored l.created.length))
      (.inr (getElem?_modify_self hcall _))
  exact ⟨next, by simp [Machine.run_cons, hdial, hnext], hfree⟩

variable {l : MuxConnTransList} {call : Nat}

/-- Whatever a call with the lock is about to do, it gets to the release. -/
theorem releases_of_holdsLock {progress : GetCall} (hcall : l.calls[call]? = some progress)
    (hholds : progress.holdsLock) :
    ∃ later next, later ⊆ [.recheck call, .dial call (some ""), .unlock call] ∧
      Machine.run step l later = some next ∧ next.writer = none := by
  cases progress with
  | found ref =>
    obtain ⟨next, hnext, hfree⟩ := step_unlock l (.inl hcall)
    exact ⟨[.unlock call], next, by simp, by simp [Machine.run_cons, hnext], hfree⟩
  | stored ref =>
    obtain ⟨next, hnext, hfree⟩ := step_unlock l (.inr hcall)
    exact ⟨[.unlock call], next, by simp, by simp [Machine.run_cons, hnext], hfree⟩
  | dialing idx =>
    obtain ⟨next, hnext, hfree⟩ := run_dial_unlock l hcall
    exact ⟨_, next, by simp, hnext, hfree⟩
  | locked idx =>
    cases hactive : l.activeAt idx with
    | some ref =>
      have hcheck : l.step (.recheck call) = some (l.setCall call (.found ref)) := by
        simp [step, hcall, hactive]
      obtain ⟨next, hnext, hfree⟩ := step_unlock (l.setCall call (.found ref))
        (.inl (getElem?_modify_self hcall _))
      exact ⟨[.recheck call, .unlock call], next, by simp,
        by simp [Machine.run_cons, hcheck, hnext], hfree⟩
    | none =>
      have hcheck : l.step (.recheck call) = some (l.setCall call (.dialing idx)) := by
        simp [step, hcall, hactive]
      obtain ⟨next, hnext, hfree⟩ := run_dial_unlock (l.setCall call (.dialing idx))
        (getElem?_modify_self hcall _)
      exact ⟨_, next, List.Subset.refl _, by
        rw [Machine.run_cons, hcheck]
        exact hnext, hfree⟩
  | _ => cases hholds

end Release

/-- The lock is released in a run exactly if no dial of the run has failed. -/
theorem run_lockReleased {size : Int} {gomaxprocs : Nat} {events : List ListEvent}
    {l : MuxConnTransList} (hrun : run size gomaxprocs events = some l) :
    l.LockReleased ↔ ∀ call, .dial call none ∉ events := by
  obtain ⟨hsound, hcounted⟩ := run_lockSound hrun
  constructor
  · intro hreleased call hdial
    obtain ⟨hleaked, hhas⟩ := hsound.leaked call hdial
    exact hreleased.returned call none hleaked hhas
  · intro hdials
    refine ⟨?_, ?_, hcounted⟩
    · intro call result hcall hhas
      obtain ⟨progress, hprogress, hholds | hdial⟩ := hsound.writer call hhas
      · cases hcall.symm.trans hprogress
        cases hholds
      · exact hdials call hdial
    · intro call hhas
      obtain ⟨progress, hprogress, hholds | hdial⟩ := hsound.writer call hhas
      · exact releases_of_holdsLock hprogress hholds
      · exact absurd hdial (hdials call)

/-- The first call of `Get` on a new list, up to the dialer. -/
def firstGet : List ListEvent :=
  [.get, .advanceCursor 0, .rLock 0, .readSlot 0, .examine 0, .lock 0, .recheck 0]

theorem run_lockReleased_firstGet :
    ∃ l, run 1 4 (firstGet ++ [ListEvent.dial 0 (some "10.0.0.1:80"), .unlock 0]) = some l ∧
      l.LockReleased := by
  obtain ⟨l, hrun⟩ : ∃ l, run 1 4 (firstGet ++ [ListEvent.dial 0 (some "10.0.0.1:80"), .unlock 0]) =
      some l := ⟨_, rfl⟩
  exact ⟨l, hrun, (run_lockReleased hrun).mpr (by simp [firstGet])⟩

/-- When the first dial fails, the call returns with the lock, and no later step of
anybody releases it. -/
theorem failed_dial_keeps_lock : ∃ l, run 1 4 (firstGet ++ [ListEvent.dial 0 none]) = some l ∧
      l.calls[0]? = some (.returned none) ∧ l.writer = some 0 ∧
      ∀ later next, Machine.run step l later = some next → next.writer = some 0 := by
  obtain ⟨l, hrun, hcall, hwriter⟩ : ∃ l, run 1 4 (firstGet ++ [ListEvent.dial 0 none]) = some l ∧
      l.calls[0]? = some (.returned none) ∧ l.writer = some 0 := ⟨_, rfl, rfl, rfl⟩
  refine ⟨l, hrun, hcall, hwriter, fun later next hlater => ?_⟩
  have hwhole : run 1 4 (firstGet ++ [ListEvent.dial 0 none] ++ later) = some next := by
    rw [run, Machine.run_append, Option.bind_eq_some_iff]
    exact ⟨l, hrun, hlater⟩
  exact ((run_lockSound hwhole).1.leaked 0 (by simp)).2

end MuxConnTransList

end Kitex.TTStream
