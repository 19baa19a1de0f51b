import Kitex.Http2.ServerSteps

/-! # The server's limit on streams

The server advertises the configured limit on concurrent streams, and tests a
field of the transport that holds another one. What bounds the streams of a
connection is the number of identifiers that a client can use: the odd ones of
31 bits, each greater than the last.
-/

namespace Kitex.Http2

namespace Http2Server

/-- The HEADERS frame is answered with REFUSED_STREAM and creates no stream. -/
def Refuses (t : Http2Server) (frame : MetaHeadersFrame) : Prop :=
  (t.operateHeaders frame).activeStreams = t.activeStreams ∧
    (t.operateHeaders frame).items = t.items ++
      [.cleanupStream ⟨frame.streamID, true, ErrCode.refusedStream, .noop, none⟩]

/-! ## What bounds the streams -/

/-- Every stream has used up two identifiers. -/
structure Bounded (t : Http2Server) : Prop where
  odd : t.maxStreamID.toNat = 0 ∨ t.maxStreamID.toNat % 2 = 1
  masked : t.maxStreamID.toNat < 2 ^ 31
  streams : 2 * t.numStreams ≤ t.maxStreamID.toNat + 1

section Step

variable {t next : Http2Server} {event : ServerEvent}

theorem Bounded.of_le (hbounded : t.Bounded) (hid : next.maxStreamID = t.maxStreamID)
    (hstreams : next.numStreams ≤ t.numStreams) : next.Bounded := by
  obtain ⟨hodd, hmasked, hle⟩ := hbounded
  rw [← hid] at hodd hmasked hle
  exact ⟨hodd, hmasked, by omega⟩

theorem numStreams_insert_le (streams : Option (AList fun _ : UInt32 => Bool)) (streamID : UInt32) :
    (streams.map (AList.insert streamID false)).elim 0 (fun streams => streams.keys.length) ≤
      streams.elim 0 (fun streams => streams.keys.length) + 1 := by
  cases streams with
  | none => exact Nat.zero_le _
  | some streams =>
    simp only [Option.map_some, Option.elim_some, AList.keys_insert, List.length_cons]
    exact Nat.succ_le_succ List.length_erase_le

theorem bounded_of_step (hbounded : t.Bounded) (hstep : Stepped t event next) : next.Bounded := by
  cases hstep with
  | @registered frame rest _ hodd hgreater =>
    have hcount := numStreams_insert_le t.activeStreams frame.streamID
    have hlt := UInt32.lt_iff_toNat_lt.mp hgreater
    obtain ⟨hold, _, hstreams⟩ := hbounded
    refine ⟨.inr hodd, frame.masked, ?_⟩
    change 2 * _ ≤ frame.streamID.toNat + 1
    refine Nat.le_trans (Nat.mul_le_mul_left 2 hcount) ?_
    unfold numStreams at hstreams
    omega
  | @finished _ streamID streams rest _ _ hstreams hmem =>
    -- the stream stays in the map until its trailers are written
    apply hbounded.of_le (by rfl)
    have hpos := List.length_pos_of_mem hmem
    simp only [numStreams, hstreams, Option.elim_some, AList.keys_insert, List.length_cons,
      List.length_erase_of_mem hmem]
    omega
  | deleted rest streamID _ _ =>
    apply hbounded.of_le (by rfl)
    unfold numStreams
    cases t.activeStreams with
    | none => exact Nat.le_refl 0
    | some streams =>
      simp only [Option.map_some, Option.elim_some, AList.keys_erase]
      exact List.length_erase_le
  | closed rest _ _ => exact hbounded.of_le rfl (Nat.zero_le _)
  | acked _ _ =>
    unfold closeDrainChan
    split <;> exact hbounded.of_le rfl (Nat.le_refl _)
  | _ => exact hbounded.of_le rfl (Nat.le_refl _)

end Step

variable {config : ServerConfig} {t : Http2Server} {count : Nat}

theorem newHTTP2Server_bounded : (newHTTP2Server config).Bounded :=
  ⟨.inl rfl, Nat.two_pow_pos 31, Nat.zero_le _⟩

/-- No run has more streams than there are odd identifiers of 31 bits. -/
theorem run_numStreams_le {events : List ServerEvent} (hrun : run config events = some t) :
    t.numStreams ≤ 2 ^ 30 := by
  have hbounded : t.Bounded := by
    refine Machine.run_invariant (fun _ t => t.Bounded) newHTTP2Server_bounded ?_ hrun
    intro _ t event next _ hbounded hnext
    exact bounded_of_step hbounded (stepped_of_step hnext).2
  have hmasked := hbounded.masked
  have hstreams := hbounded.streams
  omega

/-! ## Clients that use up the identifiers -/

/-- `operateHeaders` on a transport that is reachable. -/
theorem operateHeaders_reachable {frame : MetaHeadersFrame} (hdecoded : frame.decoded = .ok ())
    (hstate : t.state = .reachable) (hroom : ¬UInt32.ofNat t.numStreams ≥ t.maxStreams) :
    t.operateHeaders frame =
      if frame.streamID % 2 ≠ 1 ∨ frame.streamID ≤ t.maxStreamID then t.closeWithErr
      else { t with
        maxStreamID := frame.streamID
        activeStreams := t.activeStreams.map (AList.insert frame.streamID false) }.put
          (.registerStream frame.streamID) := by
  unfold operateHeaders
  rw [hdecoded]
  rw [if_neg (not_not.mpr hstate), if_neg hroom]

/-- The HEADERS frame with the odd identifier of an index. -/
def oddFrame (index : Nat) : MetaHeadersFrame where
  streamID := UInt32.ofNat ((2 * index + 1) % 2 ^ 31)
  decoded := .ok ()
  masked := by
    rw [UInt32.toNat_ofNat']
    omega

def openStreams (count : Nat) : List ServerEvent :=
  (List.range count).map fun index => .operateHeaders (oddFrame index)

/-- The transport after a client has opened some streams, and closed none. -/
structure Opened (t : Http2Server) (count : Nat) : Prop where
  streams : ∃ streams, t.activeStreams = some streams ∧ streams.keys.length = count ∧
    ∀ streamID ∈ streams.keys, streamID ≤ t.maxStreamID
  maxStreamID : t.maxStreamID.toNat = 2 * count - 1
  maxStreams : t.maxStreams = 4294967295
  state : t.state = .reachable
  panicked : t.panicked = none

theorem oddFrame_streamID {index : Nat} (hindex : index < 2 ^ 30) :
    (oddFrame index).streamID.toNat = 2 * index + 1 := by
  rw [oddFrame, UInt32.toNat_ofNat']
  omega

/-- The test of the limit never fires: it compares with the greatest number of
32 bits. -/
theorem Opened.not_refused (hopened : t.Opened count) (hcount : count ≤ 2 ^ 30) :
    ¬UInt32.ofNat t.numStreams ≥ t.maxStreams := by
  obtain ⟨streams, hstreams, hlength, _⟩ := hopened.streams
  have hnum : t.numStreams = count := by simp [numStreams, hstreams, hlength]
  rw [hnum, hopened.maxStreams, ge_iff_le, UInt32.le_iff_toNat_le, UInt32.toNat_ofNat']
  change ¬4294967295 ≤ count % 2 ^ 32
  omega

theorem Opened.next (hopened : t.Opened count) (hcount : count < 2 ^ 30) :
    t.step (.operateHeaders (oddFrame count)) = some (t.operateHeaders (oddFrame count)) ∧
      (t.operateHeaders (oddFrame count)).Opened (count + 1) := by
  have hid := oddFrame_streamID hcount
  have hlast := hopened.maxStreamID
  have hlegal : ¬((oddFrame count).streamID % 2 ≠ 1 ∨
      (oddFrame count).streamID ≤ t.maxStreamID) := by
    rw [not_or, not_not, UInt32.le_iff_toNat_le, ← UInt32.toNat_inj, UInt32.toNat_mod, hid, hlast]
    change (2 * count + 1) % 2 = 1 ∧ _
    omega
  refine ⟨by simp [step, hopened.panicked], ?_⟩
  obtain ⟨streams, hstreams, hlength, hle⟩ := hopened.streams
  have hfresh : (oddFrame count).streamID ∉ streams.keys := by
    intro hmem
    exact hlegal (.inr (hle _ hmem))
  have hnext : t.operateHeaders (oddFrame count) = { t with
      maxStreamID := (oddFrame count).streamID
      activeStreams := some (streams.insert (oddFrame count).streamID false) }.put
        (.registerStream (oddFrame count).streamID) := by
    rw [operateHeaders_reachable rfl hopened.state (hopened.not_refused (Nat.le_of_lt hcount)),
      if_neg hlegal, hstreams]
    rfl
  rw [hnext]
  refine ⟨⟨_, rfl, ?_, ?_⟩, ?_, hopened.maxStreams, hopened.state, hopened.panicked⟩
  · rw [AList.keys_insert, List.erase_of_not_mem hfresh, List.length_cons, hlength]
  · intro streamID hmem
    rw [AList.keys_insert, List.erase_of_not_mem hfresh] at hmem
    rcases List.mem_cons.mp hmem with rfl | hold
    · exact UInt32.le_refl _
    · have hgreater := UInt32.not_le.mp fun hless => hlegal (.inr hless)
      exact UInt32.le_trans (hle streamID hold) (UInt32.le_of_lt hgreater)
  · change (oddFrame count).streamID.toNat = _
    omega

/-- A client can open streams until it has no identifiers left. -/
theorem run_openStreams (config : ServerConfig) (hcount : count ≤ 2 ^ 30) :
    ∃ t, run config (openStreams count) = some t ∧ t.Opened count := by
  induction count with
  | zero =>
    exact ⟨newHTTP2Server config, rfl, ⟨_, rfl, rfl, nofun⟩, rfl, rfl, rfl, rfl⟩
  | succ count ih =>
    obtain ⟨t, hrun, hopened⟩ := ih (by omega)
    obtain ⟨hstep, hnext⟩ := hopened.next (by omega)
    refine ⟨_, ?_, hnext⟩
    rw [openStreams, List.range_succ, List.map_append, List.map_singleton]
    exact Machine.run_append_singleton_eq_some.mpr ⟨t, hrun, hstep⟩

end Http2Server

/-! ## The advertised limit -/

/-- In every state of every run the streams are within the advertised limit, and
a HEADERS frame beyond it is refused. -/
def ServerConfig.EnforcesMaxStreams (config : ServerConfig) : Prop :=
  ∀ limit, ⟨Setting.maxConcurrentStreams, limit⟩ ∈ config.isettings →
    ∀ events t, Http2Server.run config events = some t →
      t.numStreams ≤ limit.toNat ∧ ∀ frame : MetaHeadersFrame, t.state = .reachable →
        frame.decoded = .ok () → limit.toNat ≤ t.numStreams → t.Refuses frame

theorem ServerConfig.mem_isettings {config : ServerConfig} (hpos : 0 < config.maxStreams)
    {limit : UInt32} :
    ⟨Setting.maxConcurrentStreams, limit⟩ ∈ config.isettings ↔ limit = config.maxStreams := by
  have hne : config.maxStreams ≠ 0 := by
    rintro hzero
    simp [hzero] at hpos
  unfold isettings
  simp only [hne, if_false, List.mem_append, List.mem_singleton, Setting.mk.injEq]
  constructor
  · rintro (((⟨hid, _⟩ | ⟨_, hlimit⟩) | hwindow) | hheader)
    · cases hid
    · exact hlimit
    · split at hwindow
      · cases List.mem_singleton.mp hwindow
      · cases hwindow
    · cases hmax : config.maxHeaderListSize with
      | none => simp [hmax] at hheader
      | some max =>
        simp only [hmax, Option.map_some, Option.toList_some, List.mem_singleton] at hheader
        cases hheader
  · intro hlimit
    exact .inl (.inl (.inr ⟨trivial, hlimit⟩))

open Http2Server

/-- The limit holds for a configuration exactly if no client has identifiers
enough to exceed it. -/
theorem enforcesMaxStreams_iff (config : ServerConfig) (hpos : 0 < config.maxStreams) :
    config.EnforcesMaxStreams ↔ 2 ^ 30 < config.maxStreams.toNat := by
  constructor
  · intro henforces
    have hlimit := henforces config.maxStreams ((ServerConfig.mem_isettings hpos).mpr rfl)
    by_contra hsmall
    rcases Nat.lt_or_eq_of_le (Nat.le_of_not_lt hsmall) with hless | hequal
    · -- one stream more than the limit
      obtain ⟨t, hrun, hopened⟩ :=
        run_openStreams config (Nat.succ_le_of_lt hless)
      obtain ⟨streams, hstreams, hlength, _⟩ := hopened.streams
      have hnum : t.numStreams = config.maxStreams.toNat + 1 := by
        simp [numStreams, hstreams, hlength]
      have hwithin := (hlimit _ t hrun).1
      omega
    · -- the limit is reached with the last identifier, and the next frame closes the connection
      obtain ⟨t, hrun, hopened⟩ := run_openStreams config (Nat.le_of_eq hequal)
      obtain ⟨streams, hstreams, hlength, _⟩ := hopened.streams
      have hnum : t.numStreams = config.maxStreams.toNat := by
        simp [numStreams, hstreams, hlength]
      have hrefuses := (hlimit _ t hrun).2 (oddFrame 0) hopened.state rfl
        (Nat.le_of_eq hnum.symm)
      have hused : (oddFrame 0).streamID ≤ t.maxStreamID := by
        rw [UInt32.le_iff_toNat_le, hopened.maxStreamID, hequal]
        decide
      have hclosed : t.operateHeaders (oddFrame 0) = t.closeWithErr := by
        rw [operateHeaders_reachable rfl hopened.state
          (hopened.not_refused (Nat.le_of_eq hequal)), if_pos (.inr hused)]
      have hitems := hrefuses.2
      rw [hclosed, closeWithErr, if_neg (by simp [hopened.state])] at hitems
      simp at hitems
  · intro hlarge limit hlimit events t hrun
    obtain rfl := (ServerConfig.mem_isettings hpos).mp hlimit
    have hle := run_numStreams_le hrun
    refine ⟨by omega, fun frame _ _ hreached => ?_⟩
    omega

/-- A configuration with default values apart from the limit on streams. -/
def ServerConfig.withMaxStreams (maxStreams : UInt32) : ServerConfig :=
  ⟨maxStreams, 0, none, ⟨0, false⟩⟩

/-- With a limit of one advertised, a second stream is created beside the first. -/
theorem secondStream_exceeds_limit :
    ⟨Setting.maxConcurrentStreams, 1⟩ ∈ (ServerConfig.withMaxStreams 1).isettings ∧
    ∃ t, Http2Server.run (.withMaxStreams 1)
      [.operateHeaders (Http2Server.oddFrame 0), .operateHeaders (Http2Server.oddFrame 1)] =
        some t ∧ t.numStreams = 2 := by
  refine ⟨by decide, ?_⟩
  have hview : (run (.withMaxStreams 1) [.operateHeaders (oddFrame 0),
      .operateHeaders (oddFrame 1)]).any (fun t => decide (t.numStreams = 2)) =
        true := by decide
  simpa only [Option.any_eq_true, decide_eq_true_eq] using hview

theorem not_enforcesMaxStreams_hundred : 0 < (ServerConfig.withMaxStreams 100).maxStreams ∧
      ¬(ServerConfig.withMaxStreams 100).EnforcesMaxStreams :=
  ⟨by decide, fun henforces =>
    absurd ((enforcesMaxStreams_iff (.withMaxStreams 100) (by decide)).mp henforces) (by decide)⟩

end Kitex.Http2
