import Kitex.Codec.ByteBuffer
import Kitex.TTStream.ClientStream

/-! # Frames on the wire

`EncodeFrame` lets the TTHeader library write the header, writes the payload behind it and then
fills in the length field in front, from what the writer says it has written. The length field has
32 bits.
-/

namespace Kitex.TTStream.Framing

open Kitex.Codec Kitex.Thrift Kitex.Thrift.Binary

/-- Package `ttheader`. -/
structure TTHeader where
  headerFlagsStreaming : UInt16
  protocolIDThriftStruct : UInt8
  /-- The keys `FrameType` and `ToMethod` of the integer infos. -/
  frameType : UInt16
  toMethod : UInt16
  /-- The names of the frame types. -/
  typeName : FrameType → Bytes
  /-- What `Encode` writes after the length field, which is filled in later. -/
  encode : EncodeParam → Except String Bytes
  /-- `Decode`, and the bytes that it leaves. -/
  decode : Bytes → Except String DecodeParam × Bytes

/-- `Frame`. -/
structure Frame where
  typ : FrameType
  sid : Int32
  method : Bytes
  meta' : AList fun _ : UInt16 => Bytes := ∅
  header : AList fun _ : Bytes => Bytes := ∅
  trailer : AList fun _ : Bytes => Bytes := ∅
  payload : Bytes := []

inductive FrameErr where
  | eof
  | illegalFrame (cause : String)
  | transport (cause : String)
  deriving DecidableEq, Repr

/-- What was flushed to the connection, what was written since, and the count of it. -/
structure WriterBuffer where
  flushed : Bytes := []
  pending : Bytes := []
  writeSize : Nat := 0
  deriving DecidableEq, Repr

namespace WriterBuffer

/-- `Malloc` with what is filled in, `WriteBinary` and `WriteDirect`. -/
def write (w : WriterBuffer) (bytes : Bytes) : WriterBuffer :=
  { w with pending := w.pending ++ bytes, writeSize := w.writeSize + bytes.length }

def flush (w : WriterBuffer) : WriterBuffer :=
  { flushed := w.flushed ++ w.pending, pending := [], writeSize := 0 }

/-- Fills in a field of the pending bytes. -/
def fill (w : WriterBuffer) (place : Nat) (field : Bytes) : WriterBuffer :=
  { w with pending := w.pending.take place ++ field ++ w.pending.drop (place + field.length) }

def bytes (w : WriterBuffer) : Bytes := w.flushed ++ w.pending

end WriterBuffer

variable (lib : TTHeader)

def encodeParam (fr : Frame) : EncodeParam where
  flags := lib.headerFlagsStreaming
  seqID := fr.sid
  protocolID := lib.protocolIDThriftStruct
  intInfo := (fr.meta'.insert lib.frameType (lib.typeName fr.typ)).insert lib.toMethod fr.method
  strInfo :=
    match fr.typ with
    | .headerFrame | .metaFrame | .rstFrame => fr.header
    | .trailerFrame => fr.trailer
    | .dataFrame => ∅

def encodeFrame (w : WriterBuffer) (fr : Frame) : Except FrameErr WriterBuffer :=
  let written := w.writeSize
  let totalLenField := w.pending.length
  match lib.encode (encodeParam lib fr) with
  | .error err => .error (.illegalFrame err)
  | .ok header =>
    let w := w.write ([0, 0, 0, 0] ++ header)
    let w := if 0 < fr.payload.length then w.write fr.payload else w
    let written := w.writeSize - written
    .ok (w.fill totalLenField (bigEndian 4 (written - 4)))

/-- Frames one after another, each with or without a flush. -/
def encodeFrames (w : WriterBuffer) : List (Frame × Bool) → Except FrameErr WriterBuffer
  | [] => .ok w
  | (fr, flush) :: frames =>
    match encodeFrame lib w fr with
    | .error err => .error err
    | .ok w => encodeFrames (if flush then w.flush else w) frames

/-- The frame of what was decoded. -/
def newFrame (typ : FrameType) (dp : DecodeParam) (payload : Bytes) : Frame where
  typ
  sid := dp.seqID
  method := (dp.intInfo.lookup lib.toMethod).getD []
  meta' := dp.intInfo
  header :=
    match typ with
    | .headerFrame | .metaFrame | .rstFrame => dp.strInfo
    | .trailerFrame | .dataFrame => ∅
  trailer :=
    match typ with
    | .trailerFrame => dp.strInfo
    | .headerFrame | .metaFrame | .rstFrame | .dataFrame => ∅
  payload

def decodeFrame (input : Bytes) : Except FrameErr Frame × Bytes :=
  match lib.decode input with
  | (.error err, rest) => (.error (if err = "EOF" then .eof else .illegalFrame err), rest)
  | (.ok dp, rest) =>
    if dp.flags &&& lib.headerFlagsStreaming = 0 then
      (.error (.illegalFrame ("unexpected header flags: " ++ toString dp.flags)), rest)
    else
      match [FrameType.metaFrame, .headerFrame, .dataFrame, .trailerFrame, .rstFrame].find?
        fun typ => lib.typeName typ == (dp.intInfo.lookup lib.frameType).getD [] with
      | none => (.error (.illegalFrame "unexpected frame type"), rest)
      | some typ =>
        if 0 < dp.payloadLen then
          let n := dp.payloadLen.toNat
          if n ≤ rest.length then (.ok (newFrame lib typ dp (rest.take n)), rest.drop n)
          else (.error (.transport "EOF"), rest)
        else (.ok (newFrame lib typ dp []), rest)

def decodeFrames : Nat → Bytes → Except FrameErr (List Frame) × Bytes
  | 0, input => (.ok [], input)
  | n + 1, input =>
    match decodeFrame lib input with
    | (.error err, rest) => (.error err, rest)
    | (.ok fr, rest) =>
      match decodeFrames n rest with
      | (.error err, rest) => (.error err, rest)
      | (.ok frames, rest) => (.ok (fr :: frames), rest)

/-! ## What is written -/

variable {lib} {w w' : WriterBuffer} {fr : Frame} {header : Bytes}

/-- The bytes of a frame with the header that the library has made. -/
def frameBytes (header payload : Bytes) : Bytes :=
  bigEndian 4 (header.length + payload.length) ++ header ++ payload

open WriterBuffer

theorem fill_write (w : WriterBuffer) (field rest : Bytes) (hfield : field.length = 4) :
    (w.write ([0, 0, 0, 0] ++ rest)).fill w.pending.length field = w.write (field ++ rest) := by
  simp [write, fill, hfield, List.drop_append]
  omega

theorem encodeFrame_eq_ok : encodeFrame lib w fr = .ok w' ↔
    ∃ header, lib.encode (encodeParam lib fr) = .ok header ∧
      w' = w.write (frameBytes header fr.payload) := by
  unfold encodeFrame
  cases lib.encode (encodeParam lib fr) with
  | error err => simp
  | ok header =>
    have hwrite : (if 0 < fr.payload.length then
        (w.write ([0, 0, 0, 0] ++ header)).write fr.payload
        else w.write ([0, 0, 0, 0] ++ header)) =
          w.write ([0, 0, 0, 0] ++ (header ++ fr.payload)) := by
      split_ifs with hpayload
      · simp [write]
        omega
      · obtain hnil : fr.payload = [] := by simpa using hpayload
        rw [hnil, List.append_nil]
    have hlength : (w.write ([0, 0, 0, 0] ++ (header ++ fr.payload))).writeSize - w.writeSize - 4 =
        header.length + fr.payload.length := by
      simp [write]
    simp only [hwrite]
    rw [hlength, fill_write w _ _ (length_bigEndian 4 _)]
    simp [frameBytes, eq_comm]

/-! ## What is read -/

/-- What the library promises. Its length arithmetic is that of 32 bits. -/
structure TTHeader.Inverts (lib : TTHeader) : Prop where
  streaming_ne : lib.headerFlagsStreaming ≠ 0
  keys_ne : lib.frameType ≠ lib.toMethod
  typeName_injective : Function.Injective lib.typeName
  decode_encode : ∀ param header, lib.encode param = .ok header → ∀ total tail,
    ∃ dp, lib.decode (bigEndian 4 total ++ header ++ tail) = (.ok dp, tail) ∧
      dp.flags = param.flags ∧ dp.seqID = param.seqID ∧
      (∀ key, dp.intInfo.lookup key = param.intInfo.lookup key) ∧
      (∀ key, dp.strInfo.lookup key = param.strInfo.lookup key) ∧
      dp.payloadLen = ((total : Int) - header.length) % 4294967296

/-- Equal but for `meta`. Maps are equal if they have the same entries. -/
structure Same (fr got : Frame) : Prop where
  typ : got.typ = fr.typ
  sid : got.sid = fr.sid
  method : got.method = fr.method
  header : ∀ key, got.header.lookup key = fr.header.lookup key
  trailer : ∀ key, got.trailer.lookup key = fr.trailer.lookup key
  payload : got.payload = fr.payload

/-- The frame has only what its type sends, and its payload is shorter than four gigabytes. -/
structure Sendable (fr : Frame) : Prop where
  header : fr.typ = .dataFrame ∨ fr.typ = .trailerFrame → fr.header = ∅
  trailer : fr.typ ≠ .trailerFrame → fr.trailer = ∅
  payload : fr.payload.length < 4294967296

theorem find?_typeName (hlib : lib.Inverts) (typ : FrameType) :
    ([FrameType.metaFrame, .headerFrame, .dataFrame, .trailerFrame, .rstFrame].find? fun other =>
      lib.typeName other == lib.typeName typ) = some typ := by
  have hname : ∀ other, (lib.typeName other == lib.typeName typ) = (other == typ) := fun other => by
    rw [Bool.eq_iff_iff, beq_iff_eq, beq_iff_eq, hlib.typeName_injective.eq_iff]
  simp only [hname]
  cases typ <;> rfl

theorem forall_none_eq_lookup_iff {infos : AList fun _ : Bytes => Bytes} :
    (∀ key, none = infos.lookup key) ↔ infos = ∅ := by
  refine ⟨fun hnone => ?_, fun h _ => h ▸ rfl⟩
  refine AList.ext (List.eq_nil_iff_forall_not_mem.mpr fun entry hentry => ?_)
  nomatch (hnone entry.1).trans (AList.mem_lookup_iff.mpr hentry)

/-- The infos are those of the frame if the type sends all that the frame has. -/
theorem newFrame_infos_iff {dp : DecodeParam} (payload : Bytes)
    (hstr : ∀ key, dp.strInfo.lookup key = (encodeParam lib fr).strInfo.lookup key) :
    ((∀ key, (newFrame lib fr.typ dp payload).header.lookup key = fr.header.lookup key) ∧
        ∀ key, (newFrame lib fr.typ dp payload).trailer.lookup key = fr.trailer.lookup key) ↔
      (fr.typ = .dataFrame ∨ fr.typ = .trailerFrame → fr.header = ∅) ∧
        (fr.typ ≠ .trailerFrame → fr.trailer = ∅) := by
  obtain ⟨typ, sid, method, meta', header, trailer, body⟩ := fr
  cases typ with
  | metaFrame | headerFrame | rstFrame =>
    have hheader (key : Bytes) : dp.strInfo.lookup key = header.lookup key := hstr key
    simp [newFrame, hheader, forall_none_eq_lookup_iff]
  | dataFrame => simp [newFrame, forall_none_eq_lookup_iff]
  | trailerFrame =>
    have htrailer (key : Bytes) : dp.strInfo.lookup key = trailer.lookup key := hstr key
    simp [newFrame, htrailer, forall_none_eq_lookup_iff]

/-- As many bytes are read for the payload as the length field has of its length. -/
theorem decodeFrame_frameBytes (hlib : lib.Inverts)
    (hencode : lib.encode (encodeParam lib fr) = .ok header) (tail : Bytes) :
    ∃ dp, decodeFrame lib (frameBytes header fr.payload ++ tail) =
        (.ok (newFrame lib fr.typ dp ((fr.payload ++ tail).take (fr.payload.length % 4294967296))),
          (fr.payload ++ tail).drop (fr.payload.length % 4294967296)) ∧
      dp.seqID = fr.sid ∧ dp.intInfo.lookup lib.toMethod = some fr.method ∧
      ∀ key, dp.strInfo.lookup key = (encodeParam lib fr).strInfo.lookup key := by
  obtain ⟨dp, hdecode, hflags, hseqID, hint, hstr, hlen⟩ := hlib.decode_encode _ header hencode
    (header.length + fr.payload.length) (fr.payload ++ tail)
  have hinput : frameBytes header fr.payload ++ tail =
      bigEndian 4 (header.length + fr.payload.length) ++ header ++ (fr.payload ++ tail) := by
    simp [frameBytes]
  have hstreaming : ¬ dp.flags &&& lib.headerFlagsStreaming = 0 := by
    rw [hflags]
    simpa [encodeParam] using hlib.streaming_ne
  have hname : dp.intInfo.lookup lib.frameType = some (lib.typeName fr.typ) := by
    rw [hint]
    simp [encodeParam, AList.lookup_insert_ne hlib.keys_ne]
  have hpayload : dp.payloadLen = ((fr.payload.length % 4294967296 : Nat) : Int) := by
    omega
  refine ⟨dp, ?_, hseqID, ?_, hstr⟩
  · rw [hinput, decodeFrame, hdecode]
    simp only [if_neg hstreaming, hname, Option.getD_some, find?_typeName hlib, hpayload,
      Int.toNat_natCast]
    have hle : fr.payload.length % 4294967296 ≤ (fr.payload ++ tail).length := by
      rw [List.length_append]
      exact Nat.le_add_right_of_le (Nat.mod_le _ _)
    split_ifs with hpos
    · rfl
    · rw [show fr.payload.length % 4294967296 = 0 by omega]
      rfl
  · rw [hint]
    simp [encodeParam]

/-- A frame is read back if and only if it can be sent, and then nothing is taken from what follows
it. -/
theorem decodeFrame_same_iff (hlib : lib.Inverts)
    (hencode : lib.encode (encodeParam lib fr) = .ok header) (tail : Bytes) :
    ∃ got rest, decodeFrame lib (frameBytes header fr.payload ++ tail) = (.ok got, rest) ∧
      (Same fr got ↔ Sendable fr) ∧ (Sendable fr → rest = tail) := by
  obtain ⟨dp, hdecode, hseqID, hmethod, hstr⟩ := decodeFrame_frameBytes hlib hencode tail
  have hmethod' : (dp.intInfo.lookup lib.toMethod).getD [] = fr.method := by
    rw [hmethod, Option.getD_some]
  refine ⟨_, _, hdecode, ⟨fun hsame => ?_, fun hfr => ?_⟩, fun hfr => ?_⟩
  · obtain ⟨hheader, htrailer⟩ :=
      (newFrame_infos_iff _ hstr).mp ⟨hsame.header, hsame.trailer⟩
    have hlength : ((fr.payload ++ tail).take (fr.payload.length % 4294967296)).length =
        fr.payload.length := congrArg List.length hsame.payload
    rw [List.length_take] at hlength
    exact ⟨hheader, htrailer, by omega⟩
  · obtain ⟨hheader, htrailer⟩ :=
      (newFrame_infos_iff fr.payload hstr).mpr ⟨hfr.header, hfr.trailer⟩
    rw [Nat.mod_eq_of_lt hfr.payload, List.take_left]
    exact ⟨rfl, hseqID, hmethod', hheader, htrailer, rfl⟩
  · rw [Nat.mod_eq_of_lt hfr.payload, List.drop_left]

theorem decodeFrames_of_encodeFrames (hlib : lib.Inverts) {frames : List (Frame × Bool)}
    (hencode : encodeFrames lib w frames = .ok w') : ∃ sent, w'.bytes = w.bytes ++ sent ∧
      ∀ tail, (∃ got, decodeFrames lib frames.length (sent ++ tail) = (.ok got, tail) ∧
          List.Forall₂ Same (frames.map Prod.fst) got) ↔
        ∀ fr ∈ frames.map Prod.fst, Sendable fr := by
  induction frames generalizing w with
  | nil =>
    cases hencode
    exact ⟨[], by simp, fun tail => iff_of_true ⟨[], rfl, .nil⟩ (by simp)⟩
  | cons first frames ih =>
    obtain ⟨fr, flush⟩ := first
    rw [encodeFrames] at hencode
    cases hfirst : encodeFrame lib w fr with
    | error err => simp [hfirst] at hencode
    | ok next =>
      rw [hfirst] at hencode
      obtain ⟨header, hheader, rfl⟩ := encodeFrame_eq_ok.mp hfirst
      obtain ⟨sent, hsent, hdecode⟩ := ih hencode
      refine ⟨frameBytes header fr.payload ++ sent, ?_, fun tail => ?_⟩
      · rw [hsent]
        cases flush <;> simp [bytes, write, flush]
      · obtain ⟨got, rest, hgot, hsame, hrest⟩ := decodeFrame_same_iff hlib hheader (sent ++ tail)
        rw [List.map_cons, List.forall_mem_cons, ← hdecode tail, ← hsame]
        rw [List.length_cons, decodeFrames, List.append_assoc, hgot]
        constructor
        · rintro ⟨all, hall, hforall⟩
          rcases hothers : decodeFrames lib frames.length rest with ⟨⟨err⟩ | others, left⟩
          · simp [hothers] at hall
          · simp only [hothers, Prod.mk.injEq, Except.ok.injEq] at hall
            obtain ⟨rfl, rfl⟩ := hall
            obtain ⟨hfirst, hforall⟩ := List.forall₂_cons.mp hforall
            rw [hrest (hsame.mp hfirst)] at hothers
            exact ⟨hfirst, others, hothers, hforall⟩
        · rintro ⟨hfirst, others, hothers, hforall⟩
          refine ⟨got :: others, ?_, .cons hfirst hforall⟩
          rw [hrest (hsame.mp hfirst)]
          simp only [hothers]

/-- Frames that are written one after another, with or without flushes, are read back in order, and
nothing else is taken from what follows them, if and only if each of them can be sent. -/
theorem decodeFrames_encodeFrames (hlib : lib.Inverts) {frames : List (Frame × Bool)}
    (hencode : encodeFrames lib {} frames = .ok w) (tail : Bytes) :
    (∃ got, decodeFrames lib frames.length (w.bytes ++ tail) = (.ok got, tail) ∧
        List.Forall₂ Same (frames.map Prod.fst) got) ↔
      ∀ fr ∈ frames.map Prod.fst, Sendable fr := by
  obtain ⟨sent, hsent, hdecode⟩ := decodeFrames_of_encodeFrames hlib hencode
  rw [hsent]
  exact hdecode tail

/-! ## A library and its frames -/

def sampleInfo : AList fun _ : UInt16 => Bytes :=
  ⟨[⟨9, []⟩, ⟨28, [51]⟩], by simp [List.NodupKeys, List.keys]⟩

/-- The header of a data frame of stream 1: the magic number, the flags, the sequence id, the size
of the rest in words, the protocol id, no transforms, the integer infos, and padding. -/
def sampleHeader : Bytes :=
  [0x10, 0x00, 0, 2] ++ [0, 0, 0, 1] ++ [0, 4] ++ [16, 0] ++
    [0x10, 0, 2] ++ [0, 9, 0, 0] ++ [0, 28, 0, 1, 51] ++ [0, 0]

/-- A library that knows the headers of one stream's data frames. -/
def sampleLib : TTHeader where
  headerFlagsStreaming := 2
  protocolIDThriftStruct := 16
  frameType := 28
  toMethod := 9
  typeName
    | .metaFrame => [49]
    | .headerFrame => [50]
    | .dataFrame => [51]
    | .trailerFrame => [52]
    | .rstFrame => [53]
  encode param :=
    if param.flags = 2 ∧ param.seqID = 1 ∧ param.protocolID = 16 ∧ param.strInfo = ∅ ∧
        param.intInfo = sampleInfo then .ok sampleHeader
    else .error "unknown"
  decode input :=
    if (input.drop 4).take 26 = sampleHeader then
      (.ok ⟨2, 1, 16, sampleInfo, ∅, (fromBigEndian (input.take 4) - 26 : Int) % 4294967296⟩,
        input.drop 30)
    else (.error "unknown", input.drop 4)

theorem sampleLib_inverts : sampleLib.Inverts where
  streaming_ne := by decide
  keys_ne := by decide
  typeName_injective := by
    intro a b hab
    cases a <;> cases b <;> first | rfl | simp [sampleLib] at hab
  decode_encode := by
    intro param header hencode total tail
    simp only [sampleLib] at hencode
    split_ifs at hencode with hparam
    obtain ⟨hflags, hseqID, -, hstr, hint⟩ := hparam
    cases hencode
    have hheader : sampleHeader.length = 26 := rfl
    have hdrop (n : Nat) : (bigEndian 4 total ++ sampleHeader ++ tail).drop (4 + n) =
        (sampleHeader ++ tail).drop n := by
      rw [← List.drop_drop, List.append_assoc, List.drop_left' (length_bigEndian 4 total)]
    have htake : (bigEndian 4 total ++ sampleHeader ++ tail).take 4 = bigEndian 4 total := by
      rw [List.append_assoc, List.take_left' (length_bigEndian 4 total)]
    simp only [sampleLib, hdrop 0, hdrop 26, htake, List.drop_zero, List.take_left' hheader,
      List.drop_left' hheader, if_true, fromBigEndian_bigEndian_mod]
    refine ⟨_, rfl, hflags.symm, hseqID.symm, fun key => ?_, fun key => ?_, ?_⟩
    · rw [hint]
    · rw [hstr]
    · simp only [hheader]
      omega

/-- A data frame of the stream that the library knows. -/
def sampleFrame (payload : Bytes) : Frame where
  typ := .dataFrame
  sid := 1
  method := []
  payload

theorem encode_sampleFrame (payload : Bytes) :
    sampleLib.encode (encodeParam sampleLib (sampleFrame payload)) = .ok sampleHeader :=
  if_pos ⟨rfl, rfl, rfl, rfl, AList.ext rfl⟩

theorem encodeFrame_sampleFrame (w : WriterBuffer) (payload : Bytes) :
    encodeFrame sampleLib w (sampleFrame payload) =
      .ok (w.write (frameBytes sampleHeader payload)) :=
  encodeFrame_eq_ok.mpr ⟨_, encode_sampleFrame payload, rfl⟩

theorem decodeFrames_encodeFrames_flushed :
    ∃ got, decodeFrames sampleLib 2
        ([0, 0, 0, 27] ++ sampleHeader ++ [7] ++ [0, 0, 0, 28] ++ sampleHeader ++ [8, 9] ++ [5]) =
          (.ok got, [5]) ∧
      List.Forall₂ Same [sampleFrame [7], sampleFrame [8, 9]] got := by
  have hencode : encodeFrames sampleLib {} [(sampleFrame [7], true), (sampleFrame [8, 9], false)] =
      .ok ⟨[0, 0, 0, 27] ++ sampleHeader ++ [7], [0, 0, 0, 28] ++ sampleHeader ++ [8, 9], 32⟩ := by
    simp only [encodeFrames, encodeFrame_sampleFrame]
    decide
  refine (decodeFrames_encodeFrames sampleLib_inverts hencode [5]).mpr fun fr hfr => ?_
  obtain rfl | rfl : fr = sampleFrame [7] ∨ fr = sampleFrame [8, 9] := by simpa using hfr
  · exact ⟨fun _ => rfl, fun _ => rfl, by decide⟩
  · exact ⟨fun _ => rfl, fun _ => rfl, by decide⟩

theorem decodeFrame_sampleFrame_cut {payload : Bytes} (hlength : payload.length % 4294967296 = 0) :
    ∃ w got, encodeFrame sampleLib {} (sampleFrame payload) = .ok w ∧
      decodeFrame sampleLib w.bytes = (.ok got, payload) ∧ got.payload = [] := by
  obtain ⟨dp, hdecode, -⟩ :=
    decodeFrame_frameBytes sampleLib_inverts (encode_sampleFrame payload) []
  rw [List.append_nil, List.append_nil, sampleFrame, hlength] at hdecode
  exact ⟨_, newFrame sampleLib .dataFrame dp [], encodeFrame_sampleFrame {} payload, hdecode, rfl⟩

/-- The length of a payload of four gigabytes does not fit into the field: it is read as none. -/
theorem long_payload_cut : ∃ w got,
    encodeFrame sampleLib {} (sampleFrame (List.replicate 4294967296 0)) = .ok w ∧
      decodeFrame sampleLib w.bytes = (.ok got, List.replicate 4294967296 0) ∧
      got.payload = [] :=
  decodeFrame_sampleFrame_cut (by rw [List.length_replicate])

end Kitex.TTStream.Framing
