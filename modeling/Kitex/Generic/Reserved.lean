import Kitex.Generic.Reads

/-! # Slots that the readers reserve

Room for a list or map is made as soon as its count is read. A header takes at least five bytes and
its count has 32 bits, so the bytes of the input pay for the slots.
-/

namespace Kitex.Generic

open Thrift (Bytes)

/-- The largest count of a header. -/
def maxCount : Nat := Thrift.countLimit - 1

/-- Five times the slots that were reserved, and what the rest of the input may still pay for. -/
def Input.potential (input : Input) : Nat := 5 * input.slots + maxCount * input.bytes.length

/-- The reader raises the potential by no more than the allowance, whether it returns a value or
fails. -/
def Spends {α : Type} (allowance : Nat) (m : In α) : Prop :=
  ∀ input, (runIn m input).2.potential ≤ input.potential + allowance

section Steps

variable {α β : Type} {c : Codec}

variable {a b size : Nat} {f : α → In β} {read : Thrift.Read α} {m : In α}

theorem Spends.mono (hm : Spends a m) (hle : a ≤ b) : Spends b m :=
  fun input => Nat.le_trans (hm input) (Nat.add_le_add_left hle _)

theorem Spends.bind (hm : Spends a m) (hf : ∀ x, Spends b (f x)) : Spends (a + b) (m >>= f) := by
  intro input
  have hfirst := hm input
  rw [runIn_bind]
  split
  case h_1 x mid heq =>
    have hsecond := hf x mid
    rw [heq] at hfirst
    simp only at hfirst
    omega
  case h_2 e mid heq =>
    rw [heq] at hfirst
    omega

theorem spends_pure (x : α) : Spends 0 (pure x : In α) := fun _ => Nat.le_refl _

theorem spends_throw (e : Fail) : Spends 0 (throw e : In α) := fun _ => Nat.le_refl _

theorem spends_ofExcept (result : Except CodecError α) : Spends 0 (ofExcept result) := by
  cases result with
  | ok x => exact spends_pure x
  | error e => exact spends_throw _

theorem spends_nextReader (tt : UInt8) (t : TypeDescriptor) : Spends 0 (nextReader tt t) :=
  spends_ofExcept _

theorem spends_reserve (count : Nat) : Spends (5 * count) (reserve count) := by
  intro input
  show 5 * (input.slots + count) + maxCount * input.bytes.length ≤ input.potential + 5 * count
  simp only [Input.potential]
  omega

/-- What is read for an allowance is paid for by the bytes of the read. -/
theorem spends_take_bind (htakes : Thrift.Takes read size) {a : α → Nat}
    (hpaid : ∀ {input x rest}, read input = some (x, rest) → a x ≤ maxCount * size)
    (hf : ∀ x, Spends (a x) (f x)) : Spends 0 (take read >>= f) := by
  intro input
  rw [runIn_bind, runIn_take]
  cases hread : read input.bytes with
  | none => exact Nat.le_refl _
  | some found =>
    obtain ⟨x, rest⟩ := found
    have hrest := hf x { input with bytes := rest }
    have hlength := Nat.mul_le_mul_left maxCount (htakes hread)
    have hallowance := hpaid hread
    simp only [Input.potential, Nat.mul_add] at hlength hrest ⊢
    omega

theorem spends_take (htakes : Thrift.Takes read size) : Spends 0 (take read) := by
  have hbind := spends_take_bind (a := fun _ => 0) htakes (fun _ => Nat.zero_le _) spends_pure
  rwa [bind_pure] at hbind

/-- What follows spends nothing. -/
theorem Spends.seq (hm : Spends a m) (hf : ∀ x, Spends 0 (f x)) : Spends a (m >>= f) :=
  hm.bind hf

theorem spends_foldlM {f : β → α → In β} (hf : ∀ b x, Spends 0 (f b x)) (items : List α) (b : β) :
    Spends 0 (items.foldlM f b) := by
  induction items generalizing b with
  | nil => exact spends_pure b
  | cons item items ih =>
    exact (hf b item).seq ih

theorem spends_setEmptyField (opt : ReaderOption) (st : GoValue) (field : FieldDescriptor) :
    Spends 0 (setEmptyField c opt st field) := by
  unfold setEmptyField
  split
  · exact spends_pure st
  · split
    · exact spends_ofExcept _
    · exact spends_throw _

theorem spends_setDefault (opt : ReaderOption) (st : GoValue) (field : FieldDescriptor) :
    Spends 0 (setDefault c opt st field) := by
  unfold setDefault
  split
  · exact spends_pure st
  · exact (spends_ofExcept _).seq fun _ => spends_ofExcept _

theorem spends_initStruct (opt : ReaderOption) (t : TypeDescriptor) :
    Spends 0 (initStruct c opt t) := by
  unfold initStruct
  split
  · exact spends_pure _
  · split
    · exact (spends_foldlM (spends_setEmptyField opt) _ _).seq fun st =>
        spends_foldlM (spends_setDefault opt) _ st
    · exact (spends_pure _).seq fun st => spends_foldlM (spends_setDefault opt) _ st

end Steps

section Readers

variable {c : Codec} {read : ReaderOption → TypeDescriptor → In GoValue}

theorem spends_readTimes {α : Type} {reader : In α} (hreader : Spends 0 reader) (count : Nat) :
    Spends 0 (readTimes reader count) := by
  induction count with
  | zero => exact spends_pure []
  | succ count ih => exact hreader.seq fun _ => ih.seq fun _ => spends_pure _

section

variable (hread : ∀ opt t, Spends 0 (read opt t))
include hread

theorem spends_readList (opt : ReaderOption)
    (elem : TypeDescriptor) : Spends 0 (readList c read opt elem) := by
  refine spends_take_bind (a := fun header => 5 * header.2) c.wire.takes_listBegin ?_ ?_
  · intro input header rest hheader
    have hcount := c.wire.listBegin_count hheader
    unfold maxCount
    omega
  · rintro ⟨elemType, length⟩
    have hrest : Spends (5 * length) (do
        reserve length
        let elems ← readTimes (read opt elem) length
        pure (GoValue.list elems)) :=
      (spends_reserve length).seq fun _ =>
        (spends_readTimes (hread opt elem) length).seq fun _ => spends_pure _
    exact ((spends_nextReader elemType elem).bind fun _ => hrest).mono (by simp)

theorem spends_readEntries (opt : ReaderOption)
    (key elem : TypeDescriptor) (count : Nat) (m : List (GoValue × GoValue)) :
    Spends 0 (readEntries c read opt key elem count m) := by
  induction count generalizing m with
  | zero => exact spends_pure m
  | succ count ih =>
    refine (hread _ key).seq fun k => (hread _ elem).seq fun v => ?_
    split
    · exact ih _
    · exact spends_throw _

theorem spends_readStringEntries (opt : ReaderOption)
    (key elem : TypeDescriptor) (count : Nat) (m : List (Bytes × GoValue)) :
    Spends 0 (readStringEntries c read opt key elem count m) := by
  induction count generalizing m with
  | zero => exact spends_pure m
  | succ count ih => exact (hread opt key).seq fun k => (hread opt elem).seq fun v => ih _

end

/-- A map after its header, which has paid for the slots. -/
theorem spends_afterMapBegin {entries : In GoValue} {empty : GoValue} (hentries : Spends 0 entries)
    (keyType elemType : UInt8) (key elem : TypeDescriptor) (length : Nat) : Spends (5 * length) (do
      reserve length
      if length = 0 then pure empty
      else
        nextReader keyType key
        nextReader elemType elem
        entries) := by
  refine (spends_reserve length).seq fun _ => ?_
  split
  · exact spends_pure _
  · exact (spends_nextReader keyType key).seq fun _ =>
      (spends_nextReader elemType elem).seq fun _ => hentries

section

variable (hread : ∀ opt t, Spends 0 (read opt t))
include hread

theorem spends_readMap (opt : ReaderOption)
    (key elem : TypeDescriptor) : Spends 0 (readMap c read opt key elem) := by
  have hpaid : ∀ {input} {header : UInt8 × UInt8 × Nat} {rest},
      c.wire.readMapBegin input = some (header, rest) → 5 * header.2.2 ≤ maxCount * 6 := by
    rintro input ⟨keyType, elemType, length⟩ rest hheader
    have hcount := c.wire.mapBegin_count hheader
    dsimp only [maxCount]
    omega
  unfold readMap
  split
  · refine spends_take_bind c.wire.takes_mapBegin hpaid fun ⟨keyType, elemType, length⟩ => ?_
    exact spends_afterMapBegin ((spends_readStringEntries hread opt key elem length []).seq
      fun _ => spends_pure _) keyType elemType key elem length
  · refine spends_take_bind c.wire.takes_mapBegin hpaid fun ⟨keyType, elemType, length⟩ => ?_
    exact spends_afterMapBegin ((spends_readEntries hread opt key elem length []).seq
      fun _ => spends_pure _) keyType elemType key elem length

theorem spends_readFields {σ : Type} (opt : ReaderOption)
    (t : TypeDescriptor) (set : σ → FieldDescriptor → GoValue → Except CodecError σ) (n : Nat)
    (st : σ) (ids : List Int16) : Spends 0 (readFields c read opt t set n st ids) := by
  induction n generalizing st ids with
  | zero => exact spends_throw _
  | succ n ih =>
    refine (spends_take c.wire.takes_fieldBegin).seq fun ⟨fieldType, fieldID⟩ => ?_
    dsimp only
    split
    · split
      · exact spends_pure st
      · exact (spends_ofExcept _).seq fun _ => spends_pure st
    · split
      · exact spends_throw _
      · split
        · exact (spends_take (c.wire.takes_skip _)).seq fun _ => ih _ _
        · exact (spends_nextReader _ _).seq fun _ => (hread _ _).seq fun _ =>
            (spends_ofExcept _).seq fun _ => (spends_ofExcept _).seq fun _ => ih _ _

theorem spends_readStruct (n : Nat) (opt : ReaderOption)
    (t : TypeDescriptor) : Spends 0 (readStruct c read n opt t) :=
  (spends_initStruct opt t).seq fun st => spends_readFields hread opt t (setField c opt) n st []

theorem spends_readHTTPResponse (n : Nat)
    (opt : ReaderOption) (t : TypeDescriptor) : Spends 0 (readHTTPResponse c read n opt t) := by
  unfold readHTTPResponse
  split
  · exact spends_throw _
  · refine Spends.seq (spends_foldlM (fun resp field => ?_) _ _) fun resp =>
      spends_readFields hread opt t (respond c opt) n resp []
    split
    · exact spends_pure resp
    · exact (spends_ofExcept _).seq fun _ => spends_ofExcept _

end

theorem spends_readValue (fuel : Nat) (opt : ReaderOption) (t : TypeDescriptor) :
    Spends 0 (readValue c fuel opt t) := by
  induction fuel generalizing opt t with
  | zero => exact spends_throw _
  | succ n ih =>
    cases t with
    | void => exact (spends_readStruct ih (n + 1) opt .void).seq fun _ => spends_pure _
    | bool => exact (spends_take c.wire.takes_bool).seq fun _ => spends_pure _
    | byte | i8 =>
      refine (spends_take c.wire.takes_byte).seq fun _ => ?_
      split <;> exact spends_pure _
    | i16 =>
      refine (spends_take c.wire.takes_i16).seq fun _ => ?_
      split <;> exact spends_pure _
    | i32 => exact (spends_take c.wire.takes_i32).seq fun _ => spends_pure _
    | i64 => exact (spends_take c.wire.takes_i64).seq fun _ => spends_pure _
    | double => exact (spends_take c.wire.takes_double).seq fun _ => spends_pure _
    | string => exact (spends_take c.wire.takes_string).seq fun _ => spends_pure _
    | binary =>
      refine (spends_take c.wire.takes_string).seq fun _ => ?_
      split
      · exact spends_pure _
      · split <;> exact spends_pure _
    | list elem | set elem => exact spends_readList ih opt elem
    | map key elem => exact spends_readMap ih opt key elem
    | struct => exact spends_readStruct ih (n + 1) opt _

theorem spends_skipFields (fuel : Nat) (opt : ReaderOption) (t : TypeDescriptor) (n : Nat)
    (v : Reply) : Spends 0 (skipFields c fuel opt t n v) := by
  induction n generalizing v with
  | zero => exact spends_throw _
  | succ n ih =>
    refine (spends_take c.wire.takes_fieldBegin).seq fun ⟨fieldType, fieldID⟩ => ?_
    dsimp only
    split
    · exact spends_pure v
    · split
      · exact spends_throw _
      · split
        · exact (spends_take (c.wire.takes_skip _)).seq fun _ => ih _
        · refine (spends_nextReader _ _).seq fun _ => ?_
          split
          · exact (spends_readValue fuel opt _).seq fun _ => spends_throw _
          · split
            · exact (spends_readHTTPResponse (spends_readValue fuel) fuel opt _).seq fun _ => ih _
            · exact (spends_readValue fuel opt _).seq fun _ => ih _

theorem spends_readMessage (fuel : Nat) (opt : ReaderOption) (isWithoutWrapping : Bool)
    (t : TypeDescriptor) : Spends 0 (readMessage c fuel opt isWithoutWrapping t) := by
  unfold readMessage
  split
  · exact (spends_readStruct (spends_readValue fuel) fuel opt t).seq fun _ => spends_pure _
  · exact spends_skipFields fuel opt t fuel _

/-- Five bytes of the input stand for at most `maxCount` slots. -/
theorem five_mul_slots_le (fuel : Nat) (opt : ReaderOption) (isWithoutWrapping : Bool)
    (t : TypeDescriptor) (bytes : Bytes) :
    5 * (runIn (readMessage c fuel opt isWithoutWrapping t) ⟨bytes, 0⟩).2.slots
      ≤ maxCount * bytes.length := by
  have hspends := spends_readMessage (c := c) fuel opt isWithoutWrapping t ⟨bytes, 0⟩
  simp only [Input.potential] at hspends
  omega

/-- For every descriptor, the slots that are reserved for a message are at most a constant times
its length. -/
theorem exists_slots_le_mul_length :
    ∃ bound, ∀ (c : Codec) (fuel : Nat) (opt : ReaderOption) (isWithoutWrapping : Bool)
      (t : TypeDescriptor) (bytes : Bytes),
      (runIn (readMessage c fuel opt isWithoutWrapping t) ⟨bytes, 0⟩).2.slots
        ≤ bound * bytes.length := by
  refine ⟨maxCount, fun c fuel opt isWithoutWrapping t bytes => ?_⟩
  have hslots := five_mul_slots_le (c := c) fuel opt isWithoutWrapping t bytes
  omega

-- The constant is large: a header alone makes the reader reserve all the slots it declares.
example :
    (runIn (readValue (binaryCodec fun _ => .empty) 6 {} (.list .byte))
      ⟨[3, 255, 255, 255, 255], 0⟩).2.slots = maxCount :=
  rfl

end Readers

end Kitex.Generic
