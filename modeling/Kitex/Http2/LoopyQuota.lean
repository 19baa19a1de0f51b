import Mathlib.Algebra.BigOperators.Group.List.Basic
import Kitex.Http2.LoopyCalls

/-! # Outbound flow control

Whatever the framer does, the DATA bytes that a writer has handed to it stay
within the connection window that the peer has granted, and a frame with a
payload stays within the window of its stream. Only `processData` writes DATA
frames; every other call is `Calm`.
-/

namespace Kitex.Http2

open Kitex.Container

variable {hpack : Hpack} {effect : Effect}

/-- The DATA payload bytes of an effect. -/
def Effect.dataBytes : Effect → Nat
  | .wrote (.data _ _ payload) => payload.length
  | _ => 0

/-- The DATA payload bytes of a sequence of effects. -/
def dataBytes (effects : List Effect) : Nat :=
  (effects.map Effect.dataBytes).sum

def LoopyEvent.connIncrement : LoopyEvent → UInt32
  | .handle _ item => item.connIncrement
  | .processData => 0

/-- The connection-level increments received in a run. -/
def connIncrements (events : List LoopyEvent) : Nat :=
  (events.map fun event => event.connIncrement.toNat).sum

namespace Effect

theorem dataBytes_of_not_isData (hnot : ¬effect.IsData) : effect.dataBytes = 0 := by
  unfold dataBytes
  split
  · exact absurd trivial hnot
  · rfl

theorem IsNeutral.not_isData (hneutral : effect.IsNeutral) : ¬effect.IsData := by
  unfold IsData
  split
  · exact fun _ => hneutral
  · exact id

end Effect

theorem dataBytes_append (first second : List Effect) :
    dataBytes (first ++ second) = dataBytes first + dataBytes second := by
  simp [dataBytes]

theorem dataBytes_eq_zero {effects : List Effect} (hnone : ∀ effect ∈ effects, ¬effect.IsData) :
    dataBytes effects = 0 := by
  refine List.sum_eq_zero fun bytes hbytes => ?_
  obtain ⟨effect, heffect, rfl⟩ := List.mem_map.mp hbytes
  exact Effect.dataBytes_of_not_isData (hnone effect heffect)

namespace LoopyWriter

variable {l middle next : LoopyWriter hpack} {streamID : UInt32}

/-! ## Turns of `processData` -/

/-- The DATA frames among the effects fit into one frame and, unless they are
empty, into the window that their stream has in `l`. -/
def WithinWindows (l : LoopyWriter hpack) (added : List Effect) : Prop :=
  ∀ streamID endStream payload, .wrote (.data streamID endStream payload) ∈ added →
    payload.length ≤ http2MaxFrameLen ∧ (payload ≠ [] →
      ∃ str, l.estdStreams.lookup streamID = some str ∧ (payload.length : Int) ≤ l.strQuota str)

theorem WithinWindows.of_none (l : LoopyWriter hpack) {added : List Effect}
    (hnone : ∀ effect ∈ added, ¬effect.IsData) : l.WithinWindows added :=
  fun _ _ _ hmem => absurd trivial (hnone _ hmem)

/-- The DATA bytes written from `l` to `next` are taken from the connection
window, exactly. -/
structure Spends (l next : LoopyWriter hpack) : Prop where
  oiws : next.oiws = l.oiws
  effects : ∃ added, next.effects = l.effects ++ added ∧ l.WithinWindows added ∧
    next.sendQuota.toNat + dataBytes added = l.sendQuota.toNat
  owned : next.Owned

theorem Calm.spends (hcalm : l.Calm next) (howned : l.Owned) : l.Spends next := by
  obtain ⟨added, heffects, hnone⟩ := hcalm.effects
  refine ⟨hcalm.oiws, ⟨added, heffects, .of_none l hnone, ?_⟩, hcalm.owned howned⟩
  rw [hcalm.sendQuota, dataBytes_eq_zero hnone, Nat.add_zero]

theorem Spends.calm (hspends : l.Spends middle) (hcalm : middle.Calm next) : l.Spends next := by
  obtain ⟨first, hfirst, hwithin, hquota⟩ := hspends.effects
  obtain ⟨second, hsecond, hnone⟩ := hcalm.effects
  refine ⟨hcalm.oiws.trans hspends.oiws, ⟨first ++ second, ?_, ?_, ?_⟩,
    hcalm.owned hspends.owned⟩
  · rw [hsecond, hfirst, List.append_assoc]
  · intro streamID endStream payload hmem
    rcases List.mem_append.mp hmem with hmem | hmem
    · exact hwithin streamID endStream payload hmem
    · exact absurd trivial (hnone _ hmem)
  · rw [hcalm.sendQuota, dataBytes_append, dataBytes_eq_zero hnone, Nat.add_zero, hquota]

theorem calm_settle (l : LoopyWriter hpack) {str : OutStream}
    (hitems : ∀ item ∈ str.itl, item.OwnedBy str.id) : l.Calm (l.settle str).1 := by
  have hset : ∀ state, l.Still (l.setStream { str with state }) :=
    fun _ => l.still_setStream fun _ => hitems
  unfold settle
  split
  next hitl => exact (hset _).toCalm
  next t rest hitl =>
    exact (((hset _).then (acts_writeTrailers _ t)).andThen fun middle _ => .refl middle).calm
  next df rest hitl =>
    split
    · exact (hset _).toCalm
    · exact ((hset _).trans (still_activate _ _)).toCalm

/-- The first active stream is taken from the list. -/
theorem calm_popped (l : LoopyWriter hpack) (active : Links UInt32) :
    l.Calm { l with activeStreams := active } :=
  Still.toCalm (still_of_same rfl rfl rfl rfl rfl)

/-- A DATA frame that is written, or on which the framer fails. -/
theorem spends_of_writeFrame {ready : LoopyWriter hpack} (hready : l.Calm ready) (howned : l.Owned)
    {endStream : Bool} {payload : Bytes}
    (hwithin : l.WithinWindows [.wrote (.data streamID endStream payload)])
    (hconn : payload.length ≤ l.sendQuota.toNat) :
    (∃ failed e, ready.writeFrame (.data streamID endStream payload) = (failed, .error e) ∧
        l.Spends failed) ∨
      ∃ written, ready.writeFrame (.data streamID endStream payload) = (written, .ok ()) ∧
        l.Spends { written with
          sendQuota := written.sendQuota - UInt32.ofNat payload.length } := by
  obtain ⟨added, hadded, hnone⟩ := hready.effects
  obtain ⟨hsend, hoiws, hstreams, hcases⟩ :=
    ready.writeFrame_cases (.data streamID endStream payload)
  have hkept := (hready.owned howned).congr hstreams
  generalize ready.writeFrame (.data streamID endStream payload) =
    outcome at hsend hoiws hcases hkept
  obtain ⟨next, result⟩ := outcome
  rcases hcases with ⟨heffects, rfl⟩ | ⟨heffects, rfl⟩
  · refine .inr ⟨next, rfl, hoiws.trans hready.oiws,
      ⟨added ++ [.wrote (.data streamID endStream payload)], ?_, ?_, ?_⟩, hkept⟩
    · rw [heffects, hadded, List.append_assoc]
    · intro other endOther bytes hmem
      rcases List.mem_append.mp hmem with hmem | hmem
      · exact absurd trivial (hnone _ hmem)
      · exact hwithin other endOther bytes hmem
    · have hlt : payload.length < 2 ^ 32 := hconn.trans_lt (UInt32.toNat_lt _)
      have hsize : (UInt32.ofNat payload.length).toNat = payload.length :=
        UInt32.toNat_ofNat_of_lt' hlt
      have hbytes : dataBytes [.wrote (.data streamID endStream payload)] = payload.length := by
        simp [dataBytes, Effect.dataBytes]
      have hle : UInt32.ofNat payload.length ≤ l.sendQuota := by
        rw [UInt32.le_iff_toNat_le, hsize]
        exact hconn
      rw [hsend, hready.sendQuota, UInt32.toNat_sub_of_le _ _ hle, hsize, dataBytes_append,
        dataBytes_eq_zero hnone, hbytes]
      omega
  · refine .inl ⟨next, .framer, rfl, Calm.spends ?_ howned⟩
    exact ⟨hsend.trans hready.sendQuota, hoiws.trans hready.oiws,
      ⟨added, heffects.trans hadded, hnone⟩, fun _ => hkept⟩

section Payload

variable {l : LoopyWriter hpack} {active : Links UInt32} {streamID : UInt32} {str : OutStream}
  {df : DataFrame} {rest : List StreamItem}

/-- An empty DATA frame costs nothing, so no window is asked. -/
theorem processEmpty_spends (howned : l.Owned) (hitems : ∀ item ∈ rest, item.OwnedBy str.id) :
    l.Spends (({ l with activeStreams := active } : LoopyWriter hpack).processEmpty
      str df rest).1 := by
  have hwithin : l.WithinWindows [.wrote (.data df.streamID df.endStream [])] := by
    intro streamID endStream payload hmem
    simp only [List.mem_singleton, Effect.wrote.injEq, Frame.data.injEq] at hmem
    simp [hmem]
  unfold processEmpty
  rcases spends_of_writeFrame (l.calm_popped active) howned hwithin (Nat.zero_le _) with
    ⟨failed, e, hwrite, hspends⟩ | ⟨middle, hwrite, hspends⟩
  · rw [hwrite]
    exact hspends
  · have hspends : l.Spends middle := by simpa using hspends
    have hset : middle.Still (middle.setStream { str with itl := rest }) :=
      middle.still_setStream fun _ => hitems
    rw [hwrite]
    refine hspends.calm ?_
    simp only [Outcome.andThen_ok]
    split
    next => exact (middle.still_setStream (by simp)).toCalm
    next t more =>
      refine hset.toCalm.trans ?_
      refine (acts_writeHeader _ _ _ _ _).calm.andThen fun written _ => ?_
      have hclean := (written.acts_cleanupTrailers t.cleanup).calm
      split
      next heq => rwa [heq] at hclean
      next heq => rwa [heq] at hclean
    next => exact (hset.trans (still_activate _ _)).toCalm

theorem processPayload_spends (howned : l.Owned) (hsend : l.sendQuota ≠ 0)
    (hlookup : l.estdStreams.lookup streamID = some str) (hitl : str.itl = .data df :: rest) :
    l.Spends (({ l with activeStreams := active } : LoopyWriter hpack).processPayload
      str df rest).1 := by
  obtain ⟨hid, hitems⟩ := howned _ _ hlookup
  let popped : LoopyWriter hpack := { l with activeStreams := active }
  by_cases hquota : l.strQuota str ≤ 0
  · have hparked : popped.processPayload str df rest =
        (popped.setStream { str with state := .waitingOnStreamQuota }, .ok false) := by
      exact if_pos hquota
    rw [hparked]
    refine Calm.spends ((l.calm_popped active).trans (still_setStream _ ?_).toCalm) howned
    exact fun _ => hid ▸ hitems
  · rw [hitl] at hitems
    obtain ⟨cut, hcut⟩ : ∃ cut, cut = payloadCut l str df hsend (by omega) := ⟨_, rfl⟩
    have hsize : cut.piece.content.length = cut.size := cut.piece_content_length
    have hready : l.Calm (popped.counted str df cut.size) := by
      obtain ⟨before, hsame, heffects, hbefore⟩ := popped.counted_cases str df cut.size
      refine ⟨hsame.sendQuota, hsame.oiws, ⟨before, heffects, ?_⟩,
        fun howned => howned.congr hsame.estdStreams⟩
      exact fun effect heffect => (hbefore effect heffect).not_isData
    have hwithin : l.WithinWindows [.wrote (.data df.streamID cut.piece.last
        cut.piece.content)] := by
      intro other endStream payload hmem
      simp only [List.mem_singleton, Effect.wrote.injEq, Frame.data.injEq] at hmem
      obtain ⟨rfl, -, rfl⟩ := hmem
      refine ⟨hsize ▸ cut.frame_le, fun hne => ⟨str, ?_, ?_⟩⟩
      · exact (hitems _ List.mem_cons_self : df.streamID = streamID) ▸ hlookup
      · have hpos := List.length_pos_of_ne_nil hne
        rw [hsize] at hpos ⊢
        exact cut.stream_le hpos
    rw [processPayload_eq l active str df rest hsend (by omega) hcut]
    rcases spends_of_writeFrame hready howned hwithin (hsize ▸ cut.conn_le) with
      ⟨failed, e, hwrite, hspends⟩ | ⟨written, hwrite, hspends⟩
    · rw [hwrite]
      exact hspends
    · rw [hwrite, Outcome.andThen_ok]
      rw [hsize] at hspends
      refine hspends.calm (calm_settle _ ?_)
      rw [← hid] at hitems
      exact stream_owned cut hitems

end Payload

theorem processData_spends (howned : l.Owned) : l.Spends l.processData.1 := by
  unfold processData
  split
  next => exact (Still.refl l).toCalm.spends howned
  next hsend =>
    split
    next => exact (Still.refl l).toCalm.spends howned
    next streamID active _ =>
      simp only
      split
      next => exact (l.calm_popped active).spends howned
      next str hlookup =>
        split
        next df rest hitl =>
          split
          next =>
            obtain ⟨hid, hitems⟩ := howned _ _ hlookup
            refine processEmpty_spends howned fun item hitem => ?_
            rw [hid]
            exact hitems item (hitl ▸ List.mem_cons_of_mem _ hitem)
          next => exact processPayload_spends howned hsend hlookup hitl
        next => exact (l.calm_popped active).spends howned

/-! ## Every run -/

/-- What a step may write. A turn of `processData` takes the bytes it writes
from the connection window without passing below zero; handling an item writes
no DATA and adds its increment to the window, modulo `2 ^ 32`. -/
def Obeys (l next : LoopyWriter hpack) (event : LoopyEvent) : Prop :=
  ∃ added, next.effects = l.effects ++ added ∧ l.WithinWindows added ∧
    match event with
    | .processData => next.sendQuota.toNat + dataBytes added = l.sendQuota.toNat
    | .handle _ item => dataBytes added = 0 ∧ next.sendQuota = l.sendQuota + item.connIncrement

end LoopyWriter

open LoopyWriter

theorem loopyStep_obeys {state next : LoopyState hpack} {event : LoopyEvent}
    (howned : state.writer.Owned) (hstep : loopyStep state event = some next) :
    state.writer.Obeys next.writer event ∧ next.writer.Owned := by
  unfold loopyStep at hstep
  split at hstep
  next => cases hstep
  next =>
    cases event with
    | handle env item =>
      cases hstep
      rw [Outcome.toState_writer]
      have hcalm := (state.writer.acts_handle env item).calm
      obtain ⟨hquota, hsame, -, hkept⟩ := state.writer.announced_frame env item
      obtain ⟨added, heffects, hnone⟩ := hcalm.effects
      exact ⟨⟨added, heffects.trans (by rw [hsame]), .of_none _ hnone, dataBytes_eq_zero hnone,
        hcalm.sendQuota.trans hquota⟩, hcalm.owned (hkept howned)⟩
    | processData =>
      cases hstep
      rw [Outcome.toState_writer]
      have hspends := processData_spends howned
      obtain ⟨added, heffects, hwithin, hquota⟩ := hspends.effects
      exact ⟨⟨added, heffects, hwithin, hquota⟩, hspends.owned⟩

theorem connIncrements_append (past : List LoopyEvent) (event : LoopyEvent) :
    connIncrements (past ++ [event]) = connIncrements past + event.connIncrement.toNat := by
  simp [connIncrements]

/-- What the writer may still send and what it has sent stay within the initial
window and the increments. -/
theorem loopyRunOn_window {side : Side} {framer : Framer} {events : List LoopyEvent}
    {final : LoopyState hpack} (hrun : loopyRunOn hpack side framer events = some final) :
    final.writer.Owned ∧ dataBytes final.writer.effects + final.writer.sendQuota.toNat ≤
      65535 + connIncrements events := by
  refine Machine.run_invariant (fun past state => state.writer.Owned ∧
    dataBytes state.writer.effects + state.writer.sendQuota.toNat ≤
      65535 + connIncrements past) ?_ ?_ hrun
  · exact ⟨by simp [Owned, newLoopyWriter],
      by simp [newLoopyWriter, dataBytes, connIncrements, defaultWindowSize]⟩
  · intro past state event next _ hwindow hnext
    obtain ⟨howned, hbound⟩ := hwindow
    obtain ⟨⟨added, heffects, -, hquota⟩, hkept⟩ := loopyStep_obeys howned hnext
    refine ⟨hkept, ?_⟩
    rw [heffects, dataBytes_append, connIncrements_append]
    cases event with
    | processData =>
      omega
    | handle env item =>
      obtain ⟨hnone, hsend⟩ := hquota
      -- the sum may wrap, which only makes the window smaller
      have hwrap : next.writer.sendQuota.toNat ≤
          state.writer.sendQuota.toNat + item.connIncrement.toNat := by
        rw [hsend, UInt32.toNat_add]
        exact Nat.mod_le _ _
      simp only [LoopyEvent.connIncrement]
      omega

/-- In every run, on any framer, the DATA bytes written are covered by the
initial window and the connection-level increments received, and every further
step takes its bytes from the connection window without underflow, in frames of
at most 16384 bytes, each of which has no payload or fits into the window that
its stream has when it is written. -/
theorem loopyRunOn_flowControl {side : Side} {framer : Framer} {events : List LoopyEvent}
    {final : LoopyState hpack} (hrun : loopyRunOn hpack side framer events = some final) :
    dataBytes final.writer.effects ≤ 65535 + connIncrements events ∧
      ∀ event next, loopyStep final event = some next →
        final.writer.Obeys next.writer event := by
  obtain ⟨howned, hbound⟩ := loopyRunOn_window hrun
  refine ⟨by omega, fun event next hnext => (loopyStep_obeys howned hnext).1⟩

/-- A client sends ten bytes, the peer then sets the initial window to zero, and
the client closes the stream with an empty message. -/
def shrunkWindow : List LoopyEvent :=
  [.handle Surroundings.quiet (.headerFrame (.opening 1 [])),
    .handle Surroundings.quiet (.dataFrame ⟨1, false, [0, 0, 0, 0, 5], [1, 2, 3, 4, 5], false⟩),
    .processData,
    .handle Surroundings.quiet (.incomingSettings [⟨Setting.initialWindowSize, 0⟩]),
    .handle Surroundings.quiet (.dataFrame ⟨1, true, [], [], false⟩)]

theorem loopyRunOn_flowControl_shrunkWindow : ∃ final,
    loopyRunOn Hpack.verbatim .clientSide Framer.reliable shrunkWindow = some final ∧
      dataBytes final.writer.effects ≤ 65535 + connIncrements shrunkWindow ∧
      ∀ event next, loopyStep final event = some next →
        final.writer.Obeys next.writer event := by
  have hsome : (loopyRunOn Hpack.verbatim .clientSide Framer.reliable shrunkWindow).isSome =
    true := rfl
  obtain ⟨final, hrun⟩ := Option.isSome_iff_exists.mp hsome
  exact ⟨final, hrun, loopyRunOn_flowControl hrun⟩

/-- The empty frame that ends the stream is written while the stream's window
is negative, so it is not covered by that window. -/
theorem emptyFrame_exceeds_window : ∃ final next str,
    loopyRunOn Hpack.verbatim .clientSide Framer.reliable shrunkWindow = some final ∧
      loopyStep final .processData = some next ∧
      next.writer.effects = final.writer.effects ++ [.wrote (.data 1 true [])] ∧
      final.writer.estdStreams.lookup 1 = some str ∧
      ¬((([] : Bytes).length : Int) ≤ final.writer.strQuota str) :=
  ⟨_, _, _, rfl, rfl, rfl, rfl, by decide⟩

end Kitex.Http2
