import Kitex.NetpollMux.ShardMap
import Kitex.Thrift.Binary

/-! # Frames on a multiplexed client connection

`parseHeader` and `muxCliConn.OnRequest`. A frame begins with its length, the magic number of the
TTHeader protocol and the sequence id of the call that it answers. Every frame goes to the callback
of its call, and nothing but a header that cannot be read or a shard that cannot be found stops it.
-/

namespace Kitex.NetpollMux

open Kitex.Thrift Kitex.Thrift.Binary

/-- What has arrived on a connection, and the error of a read past it. -/
structure Reader where
  bytes : Bytes
  err : String
  deriving DecidableEq, Repr

namespace Reader

variable (r : Reader)

def peek (n : Nat) : Except String Bytes :=
  if n ≤ r.bytes.length then .ok (r.bytes.take n) else .error r.err

/-- `Slice`: the next bytes, as a reader of their own. -/
def slice (n : Nat) : Except String Bytes :=
  if n ≤ r.bytes.length then .ok (r.bytes.take n) else .error r.err

end Reader

/-- `binary.BigEndian.Uint32`. -/
def uint32 (buf : Bytes) : UInt32 := UInt32.ofNat (fromBigEndian (buf.take 4))

/-- `codec.IsTTHeader`: the word after the first is the magic number, under the mask. -/
def isTTHeader (flagBuf : Bytes) : Bool := uint32 (flagBuf.drop 4) &&& 0xffff0000 == 0x10000000

def parseHeader (reader : Reader) : Except String (Nat × Int32) := do
  let buf ← reader.peek (3 * 4)
  let length := (uint32 buf).toNat + 4
  if length ≤ 4 then throw s!"mux read head length[{length - 4}] invalid"
  if !isTTHeader (buf.take (2 * 4)) then
    throw "mux read check protocol failed, just support TTHeader"
  return (length, (uint32 (buf.drop (2 * 4))).toInt32)

structure MuxCliConn (α : Type) where
  closing : Bool
  seqIDMap : ShardMap α

/-- What became of a frame. -/
inductive Received (α : Type) where
  /-- `onError`: the connection is closed -/
  | onError (err : String)
  /-- a control frame that could not be decoded -/
  | decodeErr (err : String)
  | control (reset : Bool)
  /-- nobody waits for the frame -/
  | dropped
  /-- the callback of the call receives the frame -/
  | recv (callback : α) (frame : Bytes)
  deriving DecidableEq, Repr

namespace MuxCliConn

variable {α : Type} (decode : Bytes → Except String String) (addr : String)

/-- `OnRequest`. The codec gives the value that a control frame has under
`HeaderConnectionReadyToReset`, which is empty if there is none. -/
def onRequest (c : MuxCliConn α) (reader : Reader) :
    Except Panic (Received α × MuxCliConn α) :=
  match parseHeader reader with
  | .error err => .ok (.onError s!"{err}: addr({addr})", c)
  | .ok (length, seqID) =>
    match reader.slice length with
    | .error err => .ok (.onError s!"mux read package slice failed: addr({addr}), {err}", c)
    | .ok frame =>
      if seqID = 0 then
        match decode frame with
        | .error err => .ok (.decodeErr err, c)
        | .ok crrst =>
          if 0 < crrst.length then .ok (.control true, { c with closing := true })
          else .ok (.control false, c)
      else do
        match ← c.seqIDMap.load seqID with
        | none => return (.dropped, c)
        | some callback => return (.recv callback frame, c)

/-- A whole frame of the sequence id has arrived. -/
def HasFrame (reader : Reader) (seqID : Int32) (frame : Bytes) : Prop :=
  ∃ length, parseHeader reader = .ok (length, seqID) ∧ reader.slice length = .ok frame

/-- Where a frame goes, by the entry of its sequence id. -/
def deliver (entry : Option α) (frame : Bytes) : Received α :=
  match entry with
  | none => .dropped
  | some callback => .recv callback frame

variable {decode addr} {c : MuxCliConn α} {reader : Reader} {frame : Bytes} {size : Nat}
  {seqID : Int32} {calls : AList fun _ : Int32 => α}

theorem onRequest_of_hasFrame (hframe : HasFrame reader seqID frame) (hne : seqID ≠ 0) :
    onRequest decode addr c reader =
      (c.seqIDMap.load seqID).map fun entry => (deliver entry frame, c) := by
  obtain ⟨length, hheader, hslice⟩ := hframe
  simp only [onRequest, hheader, hslice, if_neg hne]
  cases c.seqIDMap.load seqID with
  | error panic => rfl
  | ok entry => cases entry <;> rfl

/-- Without a frame that answers a call the map is not read. -/
theorem onRequest_of_no_frame (hframe : ∀ seqID frame, HasFrame reader seqID frame → seqID = 0) :
    ∃ received c', onRequest decode addr c reader = .ok (received, c') := by
  unfold onRequest
  split
  · exact ⟨_, _, rfl⟩
  · rename_i length seqID hheader
    split
    · exact ⟨_, _, rfl⟩
    · rename_i frame hslice
      rw [if_pos (hframe seqID frame ⟨length, hheader, hslice⟩)]
      split
      · exact ⟨_, _, rfl⟩
      · split <;> exact ⟨_, _, rfl⟩

theorem HasFrame.unique {seqID' : Int32} {frame' : Bytes} (h : HasFrame reader seqID frame)
    (h' : HasFrame reader seqID' frame') : seqID' = seqID ∧ frame' = frame := by
  obtain ⟨length, hheader, hslice⟩ := h
  obtain ⟨length', hheader', hslice'⟩ := h'
  obtain ⟨rfl, rfl⟩ := Prod.mk.inj (Except.ok.inj (hheader.symm.trans hheader'))
  exact ⟨rfl, Except.ok.inj (hslice'.symm.trans hslice)⟩

/-- A frame is delivered as its sequence id says, if the shard of the id can be found. -/
theorem onRequest_iff (h : ShardMap.Represents size c.seqIDMap calls) :
    (∃ received c', onRequest decode addr c reader = .ok (received, c') ∧
      ∀ seqID frame, seqID ≠ 0 → HasFrame reader seqID frame →
        received = deliver (calls.lookup seqID) frame) ↔
      ∀ seqID frame, seqID ≠ 0 → HasFrame reader seqID frame → InRange size seqID := by
  constructor
  · rintro ⟨received, c', hreq, -⟩ seqID frame hne hframe
    by_contra hrange
    obtain ⟨panic, hget⟩ := ShardMap.getShard_of_not_inRange h.size_eq hrange
    have hload : c.seqIDMap.load seqID = .error panic := by
      simp only [ShardMap.load, if_neg hne, hget]
      rfl
    rw [onRequest_of_hasFrame hframe hne, hload] at hreq
    cases hreq
  · intro hrange
    by_cases hsome : ∃ seqID frame, HasFrame reader seqID frame ∧ seqID ≠ 0
    · obtain ⟨seqID, frame, hframe, hne⟩ := hsome
      refine ⟨deliver (calls.lookup seqID) frame, c, ?_, ?_⟩
      · rw [onRequest_of_hasFrame hframe hne, h.load hne (hrange seqID frame hne hframe)]
        rfl
      · intro seqID' frame' _ hframe'
        obtain ⟨rfl, rfl⟩ := hframe.unique hframe'
        rfl
    · have hzero : ∀ seqID frame, HasFrame reader seqID frame → seqID = 0 :=
        fun seqID frame hframe => by_contra fun hne => hsome ⟨seqID, frame, hframe, hne⟩
      obtain ⟨received, c', hreq⟩ := onRequest_of_no_frame hzero
      exact ⟨received, c', hreq, fun seqID frame hne hframe =>
        absurd (hzero seqID frame hframe) hne⟩

/-- Operations on the sharded map give what they give on one map, and a frame that arrives
afterwards is delivered by that map, exactly as long as a shard can be found for every sequence id
that is used. -/
theorem exec_onRequest (size : Nat) (ops : List (MapOp α)) (hne : ∀ op ∈ ops, op.seqID? ≠ some 0) :
    ((∃ results m, (ShardMap.newShardMap size).exec ops = .ok (results, m) ∧
        Behaves ∅ ops results) ↔
      ∀ op ∈ ops, ∀ seqID, op.seqID? = some seqID → InRange size seqID) ∧
    ∀ results m, (ShardMap.newShardMap size).exec ops = .ok (results, m) →
      ∀ (decode : Bytes → Except String String) addr closing reader,
        (∃ received c', onRequest decode addr ⟨closing, m⟩ reader = .ok (received, c') ∧
          ∀ seqID frame, seqID ≠ 0 → HasFrame reader seqID frame →
            received = deliver ((ops.foldl MapOp.apply ∅).lookup seqID) frame) ↔
          ∀ seqID frame, seqID ≠ 0 → HasFrame reader seqID frame → InRange size seqID := by
  have hnew := ShardMap.represents_newShardMap (α := α) size
  have hrange_of_ok : ∀ {results m}, (ShardMap.newShardMap size).exec ops = .ok (results, m) →
      ∀ op ∈ ops, ∀ seqID, op.seqID? = some seqID → InRange size seqID := by
    intro results m hexec op hop seqID hseqID
    by_contra hrange
    obtain ⟨panic, hpanic⟩ := hnew.exec_panics hne hop hseqID hrange
    rw [hexec] at hpanic
    cases hpanic
  have hexec : (∀ op ∈ ops, ∀ seqID, op.seqID? = some seqID → InRange size seqID) →
      ∃ results m, (ShardMap.newShardMap size).exec ops = .ok (results, m) ∧
        Behaves ∅ ops results ∧ ShardMap.Represents size m (ops.foldl MapOp.apply ∅) :=
    fun hrange => hnew.exec fun op hop seqID hseqID =>
      ⟨fun hzero => hne op hop (hzero ▸ hseqID), hrange op hop seqID hseqID⟩
  refine ⟨⟨?_, ?_⟩, ?_⟩
  · rintro ⟨results, m, hok, -⟩
    exact hrange_of_ok hok
  · intro hrange
    obtain ⟨results, m, hok, hbehaves, -⟩ := hexec hrange
    exact ⟨results, m, hok, hbehaves⟩
  · intro results m hok decode addr closing reader
    obtain ⟨results', m', hok', -, hm'⟩ := hexec (hrange_of_ok hok)
    obtain ⟨-, rfl⟩ := Prod.mk.inj (Except.ok.inj (hok.symm.trans hok'))
    exact onRequest_iff hm'

/-- Sixteen shards, and a call with the least sequence id. -/
theorem exec_onRequest_sixteen : ∃ results m, (ShardMap.newShardMap 16).exec
        [.store Int32.minValue "callback", .load Int32.minValue] = .ok (results, m) ∧
      Behaves ∅ [.store Int32.minValue "callback", .load Int32.minValue] results := by
  refine (exec_onRequest 16 [.store Int32.minValue "callback", .load Int32.minValue] ?_).1.mpr ?_
  · simp [MapOp.seqID?]
  · have hrange : InRange 16 Int32.minValue := by decide
    simp [MapOp.seqID?, hrange]

/-- With three shards a frame with the least sequence id indexes the shards below zero, even
before any call was made. -/
theorem exists_frame_panics :
    HasFrame ⟨[0, 0, 0, 8, 0x10, 0, 0, 0, 0x80, 0, 0, 0], "EOF"⟩ Int32.minValue
        [0, 0, 0, 8, 0x10, 0, 0, 0, 0x80, 0, 0, 0] ∧
      onRequest (fun _ => .ok "") "addr"
          (⟨false, ShardMap.newShardMap 3⟩ : MuxCliConn String)
          ⟨[0, 0, 0, 8, 0x10, 0, 0, 0, 0x80, 0, 0, 0], "EOF"⟩ =
        .error (.index (-2) 3) := by
  refine ⟨⟨12, rfl, rfl⟩, rfl⟩

end MuxCliConn

end Kitex.NetpollMux
