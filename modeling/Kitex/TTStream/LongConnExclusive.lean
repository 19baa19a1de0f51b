import Kitex.TTStream.LongConnPool

/-! # Transports of the pool are used by one stream at a time

Whoever may use a transport next is counted: the items of its stack, the calls that
have popped it, and the streams that have not handed it back. There is at most one
of them, and each step passes the transport on.
-/

namespace Kitex.TTStream

open Kitex.Container NewStreamCall ClientTransport Stack

/-! ## Streams that have not handed back their transport -/

namespace ClientStream

variable {codec : PayloadCodec} {s s' : ClientStream} {event : StreamEvent}

def keeps (s : ClientStream) : Bool := s.handBacks == 0

theorem handBacks_step (hstep : s.step codec event = some s') :
    s'.handBacks = s.handBacks + if s.puts event then 1 else 0 := by
  cases stepped_of_step hstep with
  | closer hcloser hmove =>
    simp only [puts, hcloser, Option.any_some]
    cases hmove <;> simp_all [advance, ClientStream.sendTrailer]
  | _ => rfl

variable (hreached : s.Reached codec fun _ => True)
include hreached

theorem Reached.handBacks_le_one : s.handBacks ≤ 1 := by
  obtain ⟨events, hrun, -⟩ := hreached
  rw [(run_countersSound hrun).handBacks]
  exact passed_le_one (run_closersSound hrun) (by decide)

/-- The winner hands the transport back long after it has closed the stream. -/
theorem Reached.inactive (hkeeps : s.keeps = false) : s.state = .inactive := by
  obtain ⟨events, hrun, -⟩ := hreached
  have hsound := run_closersSound hrun
  have hput : passed .put s.closers ≠ 0 := by
    rw [← (run_countersSound hrun).handBacks]
    simpa [keeps] using hkeeps
  have hswap : passed .put s.closers ≤ passed .swap s.closers := passed_le_swap .put (by decide)
  by_contra hstate
  have hwinner := hsound.winner
  simp only [if_neg hstate] at hwinner
  omega

theorem countP_keeps_modify {streams : List ClientStream} {stream : Nat}
    (hstream : streams[stream]? = some s) (hstep : s.step codec event = some s') :
    (streams.modify stream fun _ => s').countP keeps + (if s.puts event then 1 else 0) =
      streams.countP keeps := by
  have hcount := countP_modify hstream keeps fun _ => s'
  have hle := (hreached.step hstep trivial).handBacks_le_one
  rw [handBacks_step hstep] at hle
  simp only [keeps, handBacks_step hstep, beq_iff_eq] at hcount ⊢
  split at hle
  next hputs =>
    rw [if_pos hputs] at hcount ⊢
    rw [if_pos (by omega), if_neg (by omega)] at hcount
    exact hcount
  next hputs =>
    rw [if_neg hputs] at hcount ⊢
    exact Nat.add_right_cancel hcount

end ClientStream

namespace ClientTransport

variable {codec : PayloadCodec} {t next : ClientTransport} {event : TransportEvent}

theorem reached_step (hreached : t.StreamsReached codec fun _ => True)
    (hstep : t.step codec event = some next) : next.StreamsReached codec fun _ => True :=
  hreached.step (fun _ _ => trivial) (fun _ _ _ => trivial) trivial (fun _ _ => trivial)
    (stepped_of_step hstep)

theorem puts_eq_false_of_event {frame : Frame} {event : StreamEvent} {s : ClientStream}
    (hevent : frame.event = some event) : s.puts event = false := by
  cases frame <;> cases hevent <;> rfl

/-- One stream fewer keeps the transport when it is handed back. -/
theorem countP_keeps_step (hreached : t.StreamsReached codec fun _ => True)
    (hstore : event ≠ .storeStream) (hstep : t.step codec event = some next) :
    next.streams.countP ClientStream.keeps + (if t.puts event then 1 else 0) =
      t.streams.countP ClientStream.keeps := by
  have hmove : ∀ {stream : Nat} {s s' : ClientStream} {move : StreamEvent},
      t.streams[stream]? = some s → s.step codec move = some s' →
      (t.streams.modify stream fun _ => s').countP ClientStream.keeps +
        (if s.puts move then 1 else 0) = t.streams.countP ClientStream.keeps :=
    fun hstream hs' => ClientStream.countP_keeps_modify (hreached _ _ hstream) hstream hs'
  cases stepped_of_step hstep with
  | storeStream => exact absurd rfl hstore
  | writeHeader | close exception | readerClose => simp [puts]
  | streamWrite hstream _ hs' | streamStep hstream _ hs' =>
    simpa [puts, hstream, setStream] using hmove hstream hs'
  | sweep _ hstream hs' | handled _ hstream hs' => exact hmove hstream hs'
  | decodeErr | load | handleMeta => rfl
  | handle _ hstream hevent hs' =>
    simpa [puts, setStream, puts_eq_false_of_event hevent] using hmove hstream hs'

end ClientTransport

/-! ## Who may use a transport next -/

/-- The call has the transport and has not stored a stream on it. -/
def NewStreamCall.holds (ref : Nat) : NewStreamCall → Bool
  | .checking _ held | .got held => held == ref
  | _ => false

namespace NewStreamCall

variable (ref held stream : Nat) (addr : String)

@[simp] theorem holds_popping : (popping addr).holds ref = false := rfl

@[simp] theorem holds_checking : (checking addr held).holds ref = (held == ref) := rfl

@[simp] theorem holds_dialing : (dialing addr).holds ref = false := rfl

@[simp] theorem holds_got : (got held).holds ref = (held == ref) := rfl

@[simp] theorem holds_stored : (stored held stream).holds ref = false := rfl

@[simp] theorem holds_failed : failed.holds ref = false := rfl

theorem countP_holds_modify {calls : List NewStreamCall} {call : Nat} {old : NewStreamCall}
    (hcall : calls[call]? = some old) (new : NewStreamCall) :
    (calls.modify call fun _ => new).countP (·.holds ref) + (old.holds ref).toNat =
      calls.countP (·.holds ref) + (new.holds ref).toNat := by
  have hcount := countP_modify hcall (·.holds ref) fun _ => new
  cases hold : old.holds ref <;> cases hnew : new.holds ref <;> simpa [hold, hnew] using hcount

end NewStreamCall

namespace LongConnTransPool

variable {codec : PayloadCodec} {p next : LongConnTransPool} {change : LongConn → LongConn}
  {ref : Nat}

@[simp] theorem stack_setStack_self (addr : String) (items : List ObjectItem) :
    (p.setStack addr items).stack addr = items := by
  simp [stack, setStack]

theorem stack_setStack_ne {addr other : String} (hne : other ≠ addr) (items : List ObjectItem) :
    (p.setStack addr items).stack other = p.stack other := by
  simp [stack, setStack, AList.lookup_insert_ne hne]

/-- The items of a transport's own stack, the calls that have it, and the streams that
have not handed it back. -/
def users (p : LongConnTransPool) (ref : Nat) (c : LongConn) : Nat :=
  (p.stack c.remoteAddr).countP (·.object == ref) + p.calls.countP (·.holds ref) +
    c.transport.streams.countP ClientStream.keeps

structure UsersSound (codec : PayloadCodec) (p : LongConnTransPool) : Prop where
  home : ∀ addr, ∀ item ∈ p.stack addr,
    p.transports[item.object]?.map (·.remoteAddr) = some addr
  held : ∀ call ∈ p.calls, ∀ ref, call.holds ref = true → ref < p.transports.length
  users : ∀ (ref : Nat) c, p.transports[ref]? = some c → p.users ref c ≤ 1
  reached : ∀ (ref : Nat) c, p.transports[ref]? = some c →
    c.transport.StreamsReached codec fun _ => True

/-- What is true of a transport's number stays true while its address is kept. -/
theorem home_modify {transports : List LongConn} (haddr : ∀ c, (change c).remoteAddr = c.remoteAddr)
    (object : Nat) : (transports.modify ref change)[object]?.map (·.remoteAddr) =
      transports[object]?.map (·.remoteAddr) := by
  rw [List.getElem?_modify]
  cases transports[object]? with
  | none => rfl
  | some c => by_cases heq : ref = object <;> simp [heq, haddr]

namespace UsersSound

theorem get (hsound : UsersSound codec p) (addr : String) :
    UsersSound codec { p with calls := p.calls ++ [popping addr] } :=
  { hsound with
    held := by
      intro call hcall ref hholds
      rcases List.mem_append.mp hcall with hold | hnew
      · exact hsound.held call hold ref hholds
      · rw [List.mem_singleton.mp hnew] at hholds
        nomatch hholds
    users := by
      intro ref c hc
      simpa [LongConnTransPool.users, stack] using hsound.users ref c hc }

variable {call ref : Nat} {c : LongConn} {t : ClientTransport} {addr : String}

variable (hsound : UsersSound codec p)
include hsound

/-- A call goes on, and keeps the transport that it has or gives it up. -/
theorem setCall {old new : NewStreamCall} (hcall : p.calls[call]? = some old)
    (hkeep : ∀ ref, new.holds ref = true → old.holds ref = true) :
    UsersSound codec (p.setCall call new) where
  home := hsound.home
  held := by
    intro progress hmem ref hholds
    rcases mem_modify_cases hmem with hold | ⟨_, -, rfl⟩
    · exact hsound.held progress hold ref hholds
    · exact hsound.held old (List.mem_of_getElem? hcall) ref (hkeep ref hholds)
  users := by
    intro ref c hc
    have hle : p.users ref c ≤ 1 := hsound.users ref c hc
    have hcount := countP_holds_modify ref hcall new
    have hholds : (new.holds ref).toNat ≤ (old.holds ref).toNat := by
      cases hnew : new.holds ref with
      | false => exact Nat.zero_le _
      | true => simp [hkeep ref hnew]
    simp only [LongConnTransPool.users, LongConnTransPool.setCall, stack] at hle ⊢
    omega
  reached := hsound.reached

/-- The item on the top of a stack is passed on to the call that pops it. -/
theorem pop {item : ObjectItem} {rest : List ObjectItem}
    (hcall : p.calls[call]? = some (.popping addr))
    (hpop : pop (p.stack addr) = some (item, rest)) :
    UsersSound codec ((p.setStack addr rest).setCall call (.checking addr item.object)) := by
  have hstack := eq_push_of_pop hpop
  have hitem : item ∈ p.stack addr := by simp [hstack, push]
  have hhome := hsound.home addr item hitem
  refine ⟨?_, ?_, ?_, hsound.reached⟩
  · intro other found hfound
    change found ∈ (p.setStack addr rest).stack other at hfound
    by_cases heq : other = addr
    · subst heq
      rw [stack_setStack_self] at hfound
      exact hsound.home other found (by simp [hstack, push, hfound])
    · rw [stack_setStack_ne heq] at hfound
      exact hsound.home other found hfound
  · intro progress hmem ref hholds
    rcases mem_modify_cases hmem with hold | ⟨_, -, rfl⟩
    · exact hsound.held progress hold ref hholds
    · obtain rfl : item.object = ref := by simpa using hholds
      obtain ⟨c, hc, -⟩ := Option.map_eq_some_iff.mp hhome
      exact (List.getElem?_eq_some_iff.mp hc).1
  · intro ref c (hc : p.transports[ref]? = some c)
    have hle : p.users ref c ≤ 1 := hsound.users ref c hc
    have hcount := countP_holds_modify ref hcall (.checking addr item.object)
    have hstacks : ((p.setStack addr rest).stack c.remoteAddr).countP (·.object == ref) +
        (item.object == ref).toNat = (p.stack c.remoteAddr).countP (·.object == ref) := by
      by_cases heq : c.remoteAddr = addr
      · rw [heq, stack_setStack_self, hstack, countP_push]
      · rw [stack_setStack_ne heq]
        -- the item is at home in another stack
        have hne : item.object ≠ ref := by
          rintro rfl
          rw [hc] at hhome
          exact heq (Option.some.inj hhome)
        simp [hne]
    change ((p.setStack addr rest).stack c.remoteAddr).countP (·.object == ref) +
      (p.calls.modify call fun _ => .checking addr item.object).countP (·.holds ref) +
      c.transport.streams.countP ClientStream.keeps ≤ 1
    rw [holds_popping, holds_checking] at hcount
    unfold LongConnTransPool.users at hle
    omega

theorem dial (hcall : p.calls[call]? = some (.dialing addr)) (remoteAddr : String) :
    UsersSound codec { p.setCall call (.got p.transports.length) with
      transports := p.transports ++ [⟨.newClientTransport, remoteAddr, true⟩] } := by
  refine ⟨?_, ?_, ?_, ?_⟩
  · intro other item hitem
    have hhome := hsound.home other item hitem
    obtain ⟨c, hc, haddr⟩ := Option.map_eq_some_iff.mp hhome
    rw [List.getElem?_append_left (List.getElem?_eq_some_iff.mp hc).1, hhome]
  · intro progress hmem ref hholds
    rw [List.length_append]
    rcases mem_modify_cases hmem with hold | ⟨_, -, rfl⟩
    · exact Nat.lt_add_right _ (hsound.held progress hold ref hholds)
    · obtain rfl : p.transports.length = ref := by simpa using hholds
      simp
  · have hcount := fun ref =>
      countP_holds_modify ref hcall (.got p.transports.length)
    refine forall_getElem?_concat (fun ref c hc => ?_) ?_
    · have hle : p.users ref c ≤ 1 := hsound.users ref c hc
      have hlt := (List.getElem?_eq_some_iff.mp hc).1
      have hsame := hcount ref
      rw [holds_got, beq_false_of_ne (Nat.ne_of_gt hlt), Bool.toNat_false] at hsame
      simp only [LongConnTransPool.users, LongConnTransPool.setCall, stack] at hle ⊢
      omega
    · -- nothing can name a transport that was just dialed
      have hstack : (p.stack remoteAddr).countP (·.object == p.transports.length) = 0 := by
        apply List.countP_eq_zero.mpr
        intro item hitem heq
        obtain ⟨c, hc, -⟩ := Option.map_eq_some_iff.mp (hsound.home remoteAddr item hitem)
        have hlt := (List.getElem?_eq_some_iff.mp hc).1
        simp only [beq_iff_eq] at heq
        omega
      have hcalls : p.calls.countP (·.holds p.transports.length) = 0 := by
        apply List.countP_eq_zero.mpr
        intro progress hmem hholds
        exact Nat.lt_irrefl _ (hsound.held progress hmem _ hholds)
      have hself := hcount p.transports.length
      rw [holds_got, beq_self_eq_true, Bool.toNat_true] at hself
      change (p.stack remoteAddr).countP _ + (p.calls.modify call _).countP _ + 0 ≤ 1
      omega
  · refine forall_getElem?_concat hsound.reached ?_
    intro stream s hs
    simp [newClientTransport] at hs

/-- A transport changes, and no further stream of it has yet to hand it back. -/
theorem setTransport (hc : p.transports[ref]? = some c)
    (haddr : ∀ c, (change c).remoteAddr = c.remoteAddr)
    (hreached : (change c).transport.StreamsReached codec fun _ => True)
    (hcount : (change c).transport.streams.countP ClientStream.keeps ≤
      c.transport.streams.countP ClientStream.keeps) :
    UsersSound codec { p with transports := p.transports.modify ref change } where
  home := by
    intro addr item hitem
    rw [home_modify haddr]
    exact hsound.home addr item hitem
  held := by
    intro call hcall held hholds
    rw [List.length_modify]
    exact hsound.held call hcall held hholds
  users := by
    refine forall_getElem?_modify (fun other c' _ => hsound.users other c') fun c' hc' => ?_
    cases hc.symm.trans hc'
    have hle : p.users ref c ≤ 1 := hsound.users ref c hc
    change (p.stack (change c).remoteAddr).countP _ + p.calls.countP _ + _ ≤ 1
    rw [haddr]
    exact Nat.le_trans (Nat.add_le_add_left hcount _) hle
  reached := by
    refine forall_getElem?_modify (fun other c' _ => hsound.reached other c') fun c' hc' => ?_
    cases hc.symm.trans hc'
    exact hreached

/-- The stream that is stored takes the place of its call. -/
theorem writeStream (hcall : p.calls[call]? = some (.got ref))
    (hc : p.transports[ref]? = some c) (ht : c.transport.step codec .storeStream = some t)
    (stream : Nat) :
    UsersSound codec ((p.setTransport ref t).setCall call (.stored ref stream)) := by
  have hcalls := fun other =>
    countP_holds_modify other hcall (.stored ref stream)
  have hlater : UsersSound codec (p.setCall call (.stored ref stream)) :=
    hsound.setCall hcall nofun
  refine ⟨?_, ?_, ?_, ?_⟩
  · intro addr item hitem
    refine (home_modify ?_ item.object).trans (hsound.home addr item hitem)
    exact fun _ => rfl
  · intro progress hmem other hholds
    change other < (p.transports.modify ref _).length
    rw [List.length_modify]
    exact hlater.held progress hmem other hholds
  · refine forall_getElem?_modify (fun other c' _ => hlater.users other c') fun c' hc' => ?_
    cases hc.symm.trans hc'
    have hle : p.users ref c ≤ 1 := hsound.users ref c hc
    have hself := hcalls ref
    rw [holds_got, beq_self_eq_true, Bool.toNat_true, holds_stored,
      Bool.toNat_false] at hself
    cases ht
    change (p.stack c.remoteAddr).countP _ + (p.calls.modify call _).countP _ +
      (c.transport.streams ++ [ClientStream.newClientStream]).countP ClientStream.keeps ≤ 1
    have hnew : (c.transport.streams ++ [ClientStream.newClientStream]).countP
        ClientStream.keeps = c.transport.streams.countP ClientStream.keeps + 1 := by
      simp [ClientStream.keeps, ClientStream.newClientStream]
    unfold LongConnTransPool.users at hle
    omega
  · refine forall_getElem?_modify (fun other c' _ => hsound.reached other c') fun c' hc' => ?_
    cases hc.symm.trans hc'
    exact reached_step (hsound.reached ref c hc) ht

/-- The transport that is handed back takes the place of its stream. -/
theorem put (hc : p.transports[ref]? = some c) (hreached : t.StreamsReached codec fun _ => True)
    (hcount : t.streams.countP ClientStream.keeps + 1 =
      c.transport.streams.countP ClientStream.keeps) (now : Int) :
    UsersSound codec ((p.setTransport ref t).put c.remoteAddr ref now) := by
  have hmoved : UsersSound codec (p.setTransport ref t) :=
    hsound.setTransport hc (fun _ => rfl) hreached (Nat.le.intro hcount)
  have hself : (p.setTransport ref t).transports[ref]? = some { c with transport := t } :=
    getElem?_modify_self hc _
  refine ⟨?_, hmoved.held, ?_, hmoved.reached⟩
  · intro addr item hitem
    by_cases heq : addr = c.remoteAddr
    · subst heq
      unfold LongConnTransPool.put at hitem
      rw [stack_setStack_self, push, List.mem_append, List.mem_singleton] at hitem
      rcases hitem with hold | rfl
      · exact hmoved.home _ item hold
      · change (p.setTransport ref t).transports[ref]?.map _ = _
        rw [hself]
        rfl
    · unfold LongConnTransPool.put at hitem
      rw [stack_setStack_ne heq] at hitem
      exact hmoved.home addr item hitem
  · intro other c' hc'
    change (((p.setTransport ref t).put c.remoteAddr ref now).stack c'.remoteAddr).countP _ +
      p.calls.countP _ + c'.transport.streams.countP ClientStream.keeps ≤ 1
    have hle : (p.stack c'.remoteAddr).countP (·.object == other) +
        p.calls.countP (·.holds other) + c'.transport.streams.countP ClientStream.keeps ≤ 1 :=
      hmoved.users other c' hc'
    unfold LongConnTransPool.put
    by_cases heq : other = ref
    · subst heq
      cases hself.symm.trans hc'
      have hold : p.users other c ≤ 1 := hsound.users other c hc
      unfold LongConnTransPool.users at hold
      rw [stack_setStack_self, countP_push, beq_self_eq_true, Bool.toNat_true]
      change (p.stack c.remoteAddr).countP _ + 1 + _ + t.streams.countP _ ≤ 1
      omega
    · by_cases haddr : c'.remoteAddr = c.remoteAddr
      · rw [haddr, stack_setStack_self, countP_push,
          beq_false_of_ne (Ne.symm heq), Bool.toNat_false, Nat.add_zero, ← haddr]
        exact hle
      · rw [stack_setStack_ne haddr]
        exact hle

theorem transport {event : TransportEvent}
    (hc : p.transports[ref]? = some c) (hstore : event ≠ .storeStream)
    (ht : c.transport.step codec event = some t) (now : Int) :
    UsersSound codec (if c.transport.puts event then
      (p.setTransport ref t).put c.remoteAddr ref now else p.setTransport ref t) := by
  have hreached := hsound.reached ref c hc
  have hcount := countP_keeps_step hreached hstore ht
  have hnext := reached_step hreached ht
  split
  next hputs =>
    rw [if_pos hputs] at hcount
    exact hsound.put hc hnext hcount now
  next => exact hsound.setTransport hc (fun _ => rfl) hnext (Nat.le.intro hcount)

/-- A stack is cut and its transports are closed. -/
theorem clean (addr : String) (now : Int) : UsersSound codec (p.clean addr now) := by
  have hidem : ∀ c : LongConn,
      ({ c with transport := (c.transport.close none).close none } : LongConn) =
        { c with transport := c.transport.close none } := by
    intro c
    congr 1
    unfold close
    cases hclosed : c.transport.closed <;> simp [hclosed]
  -- a transport of the pool keeps its address and its streams
  have hrel : List.Forall₂ (fun c c' : LongConn => c'.remoteAddr = c.remoteAddr ∧
      c'.transport.streams = c.transport.streams) p.transports (p.clean addr now).transports :=
    forall₂_modifyEach (fun _ => ⟨rfl, rfl⟩) hidem
      fun _ _ c _ => ⟨rfl, c.transport.streams_close none⟩
  have hkept : ∀ other, ∀ item ∈ (p.clean addr now).stack other, item ∈ p.stack other := by
    intro other item hitem
    change item ∈ (p.setStack addr _).stack other at hitem
    by_cases heq : other = addr
    · subst heq
      rw [stack_setStack_self] at hitem
      exact mem_of_mem_rangeDelete hitem
    · rwa [stack_setStack_ne heq] at hitem
  have hcount : ∀ other ref, ((p.clean addr now).stack other).countP (·.object == ref) ≤
      (p.stack other).countP (·.object == ref) := by
    intro other ref
    change ((p.setStack addr _).stack other).countP _ ≤ _
    by_cases heq : other = addr
    · subst heq
      rw [stack_setStack_self]
      exact countP_rangeDelete_le ..
    · rw [stack_setStack_ne heq]
  refine ⟨?_, ?_, ?_, ?_⟩
  · intro other item hitem
    obtain ⟨c, hc, haddr⟩ := Option.map_eq_some_iff.mp
      (hsound.home other item (hkept other item hitem))
    obtain ⟨c', hc', hsame, -⟩ := forall₂_getElem?_left hrel hc
    rw [hc', Option.map_some, hsame, haddr]
  · intro call hcall ref hholds
    rw [← hrel.length_eq]
    exact hsound.held call hcall ref hholds
  · intro ref c' hc'
    obtain ⟨c, hc, haddr, hstreams⟩ := forall₂_getElem?_right hrel hc'
    have hle : p.users ref c ≤ 1 := hsound.users ref c hc
    have hcut := hcount c.remoteAddr ref
    change ((p.clean addr now).stack c'.remoteAddr).countP _ + p.calls.countP _ + _ ≤ 1
    rw [haddr, hstreams]
    unfold LongConnTransPool.users at hle
    omega
  · intro ref c' hc'
    obtain ⟨c, hc, -, hstreams⟩ := forall₂_getElem?_right hrel hc'
    exact (hsound.reached ref c hc).of_streams_eq hstreams

theorem step {event : LongConnEvent}
    (hnext : p.step codec event = some next) : UsersSound codec next := by
  cases event with
  | get addr => cases hnext; exact hsound.get addr
  | pop call =>
    simp only [LongConnTransPool.step] at hnext
    split at hnext
    next addr hcall =>
      split at hnext
      next => cases hnext; exact hsound.setCall hcall nofun
      next item rest hpop => cases hnext; exact hsound.pop hcall hpop
    next => nomatch hnext
  | check call =>
    simp only [LongConnTransPool.step] at hnext
    split at hnext
    next addr ref hcall =>
      obtain ⟨c, -, rfl⟩ := Option.map_eq_some_iff.mp hnext
      apply hsound.setCall hcall
      intro held hholds
      split at hholds
      next => exact hholds
      next => nomatch hholds
    next => nomatch hnext
  | dial call remoteAddr =>
    simp only [LongConnTransPool.step] at hnext
    split at hnext
    next addr hcall => cases hnext; exact hsound.setCall hcall nofun
    next addr remoteAddr hcall => cases hnext; exact hsound.dial hcall remoteAddr
    next => nomatch hnext
  | writeStream call =>
    simp only [LongConnTransPool.step] at hnext
    split at hnext
    next ref hcall =>
      obtain ⟨c, hc, hnext⟩ := Option.bind_eq_some_iff.mp hnext
      obtain ⟨t, ht, rfl⟩ := Option.map_eq_some_iff.mp hnext
      exact hsound.writeStream hcall hc ht _
    next => nomatch hnext
  | transport ref event now =>
    obtain ⟨c, hc, hnext⟩ := Option.bind_eq_some_iff.mp hnext
    obtain ⟨hstore, hnext⟩ := Option.ite_none_left_eq_some.mp hnext
    obtain ⟨t, ht, rfl⟩ := Option.map_eq_some_iff.mp hnext
    exact hsound.transport hc hstore ht now
  | connDown ref =>
    cases hnext
    cases hc : p.transports[ref]? with
    | none =>
      have hsame : p.transports.modify ref
          (fun c => { c with connActive := false }) = p.transports :=
        List.modify_eq_self (List.getElem?_eq_none_iff.mp hc)
      rw [hsame]
      exact hsound
    | some c =>
      exact hsound.setTransport hc (fun _ => rfl) (hsound.reached ref c hc) (Nat.le_refl _)
  | clean addr now => cases hnext; exact hsound.clean addr now

end UsersSound

/-! ## Whole runs -/

/-- A transport is in the pool once and without an active stream, and it is handed to
one call at a time, after all streams that it had are closed. -/
structure Exclusive (p : LongConnTransPool) : Prop where
  pooledOnce : ∀ (addr other : String) (i j : Nat) item item', (p.stack addr)[i]? = some item →
    (p.stack other)[j]? = some item' → item.object = item'.object → addr = other ∧ i = j
  pooledIdle : ∀ addr, ∀ item ∈ p.stack addr, ∃ c, p.transports[item.object]? = some c ∧
    ∀ s ∈ c.transport.streams, s.state = .inactive
  handed : ∀ (call ref : Nat), p.calls[call]? = some (.got ref) →
    ∃ c, p.transports[ref]? = some c ∧ (∀ s ∈ c.transport.streams, s.state = .inactive) ∧
      (∀ addr, ∀ item ∈ p.stack addr, item.object ≠ ref) ∧
      ∀ other : Nat, p.calls[other]? = some (.got ref) → other = call

namespace UsersSound

/-- All streams of a transport that has another user are closed. -/
theorem inactive (hsound : UsersSound codec p) {c : LongConn} (hc : p.transports[ref]? = some c)
    (hused : 0 < (p.stack c.remoteAddr).countP (·.object == ref) +
      p.calls.countP (·.holds ref)) : ∀ s ∈ c.transport.streams, s.state = .inactive := by
  intro s hs
  have hle : p.users ref c ≤ 1 := hsound.users ref c hc
  unfold LongConnTransPool.users at hle
  have hnone : c.transport.streams.countP ClientStream.keeps = 0 := by omega
  obtain ⟨stream, hstream⟩ := List.mem_iff_getElem?.mp hs
  apply (hsound.reached ref c hc stream s hstream).inactive
  simpa using List.countP_eq_zero.mp hnone s hs

theorem exclusive (hsound : UsersSound codec p) : p.Exclusive := by
  -- an item is counted among the users of its transport
  have hpooled : ∀ addr, ∀ item ∈ p.stack addr, ∃ c, p.transports[item.object]? = some c ∧
      c.remoteAddr = addr ∧ 0 < (p.stack addr).countP (·.object == item.object) := by
    intro addr item hitem
    obtain ⟨c, hc, haddr⟩ := Option.map_eq_some_iff.mp (hsound.home addr item hitem)
    exact ⟨c, hc, haddr, List.countP_pos_iff.mpr ⟨item, hitem, beq_self_eq_true _⟩⟩
  refine ⟨?_, ?_, ?_⟩
  · intro addr other i j item item' hi hj heq
    have hhome := hsound.home addr item (List.mem_of_getElem? hi)
    have hhome' := hsound.home other item' (List.mem_of_getElem? hj)
    rw [← heq] at hhome'
    obtain rfl : addr = other := Option.some.inj (hhome.symm.trans hhome')
    obtain ⟨c, hc, haddr⟩ := Option.map_eq_some_iff.mp hhome
    have hle : p.users item.object c ≤ 1 := hsound.users item.object c hc
    rw [LongConnTransPool.users, haddr] at hle
    have hstack : (p.stack addr).countP (·.object == item.object) ≤ 1 := by omega
    exact ⟨rfl, slot_eq_of_countP_le_one hstack hi hj (beq_self_eq_true _)
      (beq_iff_eq.mpr heq.symm)⟩
  · intro addr item hitem
    obtain ⟨c, hc, haddr, hpos⟩ := hpooled addr item hitem
    exact ⟨c, hc, hsound.inactive hc (by rw [haddr]; omega)⟩
  · intro call ref hcall
    have hholds : (NewStreamCall.got ref).holds ref = true := beq_self_eq_true ref
    have hmem := List.mem_of_getElem? hcall
    have hcalls : 0 < p.calls.countP (·.holds ref) :=
      List.countP_pos_iff.mpr ⟨_, hmem, hholds⟩
    have hlt := hsound.held _ hmem ref hholds
    have hc : p.transports[ref]? = some p.transports[ref] := List.getElem?_eq_getElem hlt
    have hle : p.users ref p.transports[ref] ≤ 1 := hsound.users ref _ hc
    unfold LongConnTransPool.users at hle
    refine ⟨_, hc, hsound.inactive hc (by omega), ?_, ?_⟩
    · rintro addr item hitem rfl
      obtain ⟨c, hc', haddr, hpos⟩ := hpooled addr item hitem
      cases hc.symm.trans hc'
      rw [haddr] at hle
      omega
    · intro other hother
      have hone : p.calls.countP (·.holds ref) ≤ 1 := by omega
      exact slot_eq_of_countP_le_one hone hother hcall hholds hholds

end UsersSound

theorem run_exclusive {maxIdleTimeout : Int} {events : List LongConnEvent}
    (hrun : run codec maxIdleTimeout events = some p) : p.Exclusive := by
  have hsound : UsersSound codec p := by
    apply Machine.run_invariant (fun _ p => UsersSound codec p) _ _ hrun
    · constructor <;> simp [newLongConnTransPool, stack]
    · intro past p event next _ hsound hnext
      exact hsound.step hnext
  exact hsound.exclusive

/-- A stream is opened on a new connection and cancelled, and the next call pops the
transport. -/
def reuse : List LongConnEvent :=
  [LongConnEvent.get "a", .pop 0, .dial 0 (some "a"), .writeStream 0,
    .transport 0 (.writeHeader 0 none) 0,
    .transport 0 (.stream 0 (.close (some errBizCancel) true) none) 1] ++
    List.replicate 11 (.transport 0 (.stream 0 (.closerStep 0 true) none) 2) ++
    [LongConnEvent.get "a", .clean "a" 3, .pop 1, .check 1]

theorem run_exclusive_reuse :
    ∃ p, run .accepting 0 reuse = some p ∧ p.calls = [.stored 0 0, .got 0] ∧
      p.transports.map (·.transport.streams.length) = [1] ∧ p.Exclusive := by
  obtain ⟨p, hrun, hcalls, hstreams⟩ : ∃ p, run .accepting 0 reuse = some p ∧
      p.calls = [.stored 0 0, .got 0] ∧
      p.transports.map (·.transport.streams.length) = [1] := ⟨_, rfl, rfl, rfl⟩
  exact ⟨p, hrun, hcalls, hstreams, run_exclusive hrun⟩

end LongConnTransPool

end Kitex.TTStream
