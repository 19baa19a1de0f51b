import Kitex.Text.Utf8

/-! # Status messages in header fields

`encodeGrpcMessage` and `decodeGrpcMessage` of `http_util.go`. The encoder goes through the runes of
a message and writes every byte that is not printable ASCII, or is a percent sign, as an escape. The
decoder goes through bytes and looks two bytes ahead of a percent sign. Both return messages without
anything to do as they are.
-/

namespace Kitex.Http2

open Kitex.Text

/-- Bytes between the space and the tilde that are not the percent sign. -/
def isPlainByte (c : UInt8) : Bool := 32 ≤ c && c ≤ 126 && c != 37

def hexDigit (n : Nat) : UInt8 := UInt8.ofNat (if n < 10 then 48 + n else 55 + n)

/-- `fmt.Sprintf("%%%02X", b)` -/
def escape (b : UInt8) : List UInt8 := [37, hexDigit (b.toNat / 16), hexDigit (b.toNat % 16)]

/-- A byte of a rune of this size. -/
def encodeByte (size : Nat) (b : UInt8) : List UInt8 :=
  if size > 1 then escape b
  else if isPlainByte b then [b]
  else escape b

def encodeGrpcMessageUnchecked (msg : List UInt8) : List UInt8 :=
  (runes msg).flatMap fun (r, chunk) => (encodeRune r).flatMap (encodeByte chunk.length)

def encodeGrpcMessage (msg : List UInt8) : List UInt8 :=
  if msg = [] then []
  else if msg.all isPlainByte then msg
  else encodeGrpcMessageUnchecked msg

/-- A digit of `strconv.ParseUint` in base 16. -/
def hexValue (c : UInt8) : Option Nat :=
  let n := c.toNat
  if 48 ≤ n ∧ n ≤ 57 then some (n - 48)
  else if 97 ≤ n ∧ n ≤ 102 then some (n - 87)
  else if 65 ≤ n ∧ n ≤ 70 then some (n - 55)
  else none

/-- `strconv.ParseUint` of two bytes in base 16 with 8 bits. -/
def parseHex (a b : UInt8) : Option UInt8 :=
  match hexValue a, hexValue b with
  | some high, some low => some (UInt8.ofNat (high * 16 + low))
  | _, _ => none

def decodeGrpcMessageUnchecked : List UInt8 → List UInt8
  | c :: a :: b :: rest =>
    if c = 37 then
      match parseHex a b with
      | none => c :: decodeGrpcMessageUnchecked (a :: b :: rest)
      | some parsed => parsed :: decodeGrpcMessageUnchecked rest
    else c :: decodeGrpcMessageUnchecked (a :: b :: rest)
  -- there is no room for an escape
  | c :: rest => c :: decodeGrpcMessageUnchecked rest
  | [] => []

/-- There is a percent sign with two bytes behind it. -/
def hasPercent : List UInt8 → Bool
  | [] => false
  | c :: rest => (c = 37 && 2 ≤ rest.length) || hasPercent rest

def decodeGrpcMessage (msg : List UInt8) : List UInt8 :=
  if msg = [] then []
  else if hasPercent msg then decodeGrpcMessageUnchecked msg
  else msg

/-! ## Escapes -/

variable {c : UInt8} {rest : List UInt8} {msg : List UInt8}

theorem hexValue_hexDigit : ∀ n < 16, hexValue (hexDigit n) = some n := by
  decide

theorem printable_hexDigit : ∀ n < 16, 32 ≤ (hexDigit n).toNat ∧ (hexDigit n).toNat ≤ 126 := by
  decide

theorem parseHex_hexDigit (b : UInt8) :
    parseHex (hexDigit (b.toNat / 16)) (hexDigit (b.toNat % 16)) = some b := by
  have hlt := b.toNat_lt
  rw [parseHex, hexValue_hexDigit _ (by omega), hexValue_hexDigit _ (by omega)]
  simp only [Nat.div_add_mod', UInt8.ofNat_toNat]

theorem decodeGrpcMessageUnchecked_escape (b : UInt8) :
    decodeGrpcMessageUnchecked (escape b ++ rest) = b :: decodeGrpcMessageUnchecked rest := by
  change decodeGrpcMessageUnchecked (37 :: _ :: _ :: rest) = _
  rw [decodeGrpcMessageUnchecked, if_pos rfl, parseHex_hexDigit]

theorem decodeGrpcMessageUnchecked_cons (hc : c ≠ 37) :
    decodeGrpcMessageUnchecked (c :: rest) = c :: decodeGrpcMessageUnchecked rest := by
  match rest with
  | [] | [_] => rfl
  | _ :: _ :: _ => rw [decodeGrpcMessageUnchecked, if_neg hc]

theorem isPlainByte_iff : isPlainByte c = true ↔ 32 ≤ c.toNat ∧ c.toNat ≤ 126 ∧ c ≠ 37 := by
  simp [isPlainByte, UInt8.le_iff_toNat_le, and_assoc]

/-! ## Encoding and decoding again -/

theorem decodeGrpcMessageUnchecked_encodeByte (size : Nat) (b : UInt8) :
    decodeGrpcMessageUnchecked (encodeByte size b ++ rest) =
      b :: decodeGrpcMessageUnchecked rest := by
  unfold encodeByte
  split
  next => exact decodeGrpcMessageUnchecked_escape b
  next =>
    split
    next hplain => exact decodeGrpcMessageUnchecked_cons (isPlainByte_iff.mp hplain).2.2
    next => exact decodeGrpcMessageUnchecked_escape b

/-- The bytes of one rune. -/
theorem decodeGrpcMessageUnchecked_flatMap_encodeByte (size : Nat) (bytes : List UInt8) :
    decodeGrpcMessageUnchecked (bytes.flatMap (encodeByte size) ++ rest) =
      bytes ++ decodeGrpcMessageUnchecked rest := by
  induction bytes with
  | nil => rfl
  | cons b bytes ih =>
    rw [List.flatMap_cons, List.append_assoc, decodeGrpcMessageUnchecked_encodeByte, ih,
      List.cons_append]

theorem decodeGrpcMessageUnchecked_encodeGrpcMessageUnchecked (msg : List UInt8) :
    decodeGrpcMessageUnchecked (encodeGrpcMessageUnchecked msg) = replaceInvalid msg := by
  rw [← flatMap_encodeRune_runes, encodeGrpcMessageUnchecked]
  induction runes msg with
  | nil => rfl
  | cons rune more ih =>
    rw [List.flatMap_cons, decodeGrpcMessageUnchecked_flatMap_encodeByte, ih, List.flatMap_cons]

/-! ## The fast paths -/

/-- A percent sign and two hexadecimal digits. -/
def HasEscape (msg : List UInt8) : Prop :=
  ∃ before a b rest, msg = before ++ 37 :: a :: b :: rest ∧ (parseHex a b).isSome = true

theorem HasEscape.cons (h : HasEscape rest) (c : UInt8) : HasEscape (c :: rest) := by
  obtain ⟨before, a, b, rest, rfl, hparse⟩ := h
  exact ⟨c :: before, a, b, rest, rfl, hparse⟩

theorem decodeGrpcMessageUnchecked_of_not_hasEscape (h : ¬ HasEscape msg) :
    decodeGrpcMessageUnchecked msg = msg := by
  induction msg with
  | nil => rfl
  | cons c msg ih =>
    have hrest := ih fun hescape => h (hescape.cons c)
    by_cases hc : c = 37
    · subst hc
      match msg with
      | [] | [_] => rfl
      | a :: b :: more =>
        have hparse : parseHex a b = none := by
          by_contra hsome
          exact h ⟨[], a, b, more, rfl, Option.isSome_iff_ne_none.mpr hsome⟩
        rw [decodeGrpcMessageUnchecked, if_pos rfl, hparse, hrest]
    · rw [decodeGrpcMessageUnchecked_cons hc, hrest]

theorem hasPercent_of_hasEscape (h : HasEscape msg) : hasPercent msg := by
  obtain ⟨before, a, b, rest, rfl, -⟩ := h
  induction before with
  | nil => simp [hasPercent]
  | cons c before ih => simp [hasPercent, ih]

theorem decodeGrpcMessage_eq (msg : List UInt8) :
    decodeGrpcMessage msg = decodeGrpcMessageUnchecked msg := by
  unfold decodeGrpcMessage
  split
  next hnil => rw [hnil, decodeGrpcMessageUnchecked]
  next =>
    split
    next => rfl
    next hpercent =>
      rw [decodeGrpcMessageUnchecked_of_not_hasEscape fun h => hpercent (hasPercent_of_hasEscape h)]

theorem encodeGrpcMessageUnchecked_of_plain (hplain : ∀ c ∈ msg, isPlainByte c = true) :
    encodeGrpcMessageUnchecked msg = msg := by
  have hascii : ∀ c ∈ msg, c.toNat < 0x80 := by
    intro c hc
    have hle := (isPlainByte_iff.mp (hplain c hc)).2.1
    omega
  rw [encodeGrpcMessageUnchecked, runes_ascii hascii, List.flatMap_map]
  calc (msg.flatMap fun c => (encodeRune c.toNat).flatMap (encodeByte 1))
      = msg.flatMap fun c => [c] := by
        refine List.flatMap_congr fun c hc => ?_
        rw [encodeRune_ascii (hascii c hc), List.flatMap_singleton, encodeByte, if_neg (by simp),
          if_pos (hplain c hc)]
    _ = msg := List.flatMap_singleton' msg

theorem encodeGrpcMessage_eq (msg : List UInt8) :
    encodeGrpcMessage msg = encodeGrpcMessageUnchecked msg := by
  unfold encodeGrpcMessage
  split
  next hnil =>
    rw [hnil]
    rfl
  next =>
    split
    next hplain => rw [encodeGrpcMessageUnchecked_of_plain (List.all_eq_true.mp hplain)]
    next => rfl

theorem printable_escape (b : UInt8) : ∀ c ∈ escape b, 32 ≤ c.toNat ∧ c.toNat ≤ 126 := by
  have hlt := b.toNat_lt
  simp only [escape, List.forall_mem_cons]
  exact ⟨by decide, printable_hexDigit _ (by omega), printable_hexDigit _ (by omega), by simp⟩

theorem printable_encodeByte (size : Nat) (b : UInt8) :
    ∀ c ∈ encodeByte size b, 32 ≤ c.toNat ∧ c.toNat ≤ 126 := by
  unfold encodeByte
  split
  next => exact printable_escape b
  next =>
    split
    next hplain =>
      obtain ⟨hlow, hhigh, -⟩ := isPlainByte_iff.mp hplain
      simpa using ⟨hlow, hhigh⟩
    next => exact printable_escape b

theorem printable_encodeGrpcMessageUnchecked (msg : List UInt8) :
    ∀ c ∈ encodeGrpcMessageUnchecked msg, 32 ≤ c.toNat ∧ c.toNat ≤ 126 := by
  intro c hc
  obtain ⟨rune, -, hc⟩ := List.mem_flatMap.mp hc
  obtain ⟨b, -, hc⟩ := List.mem_flatMap.mp hc
  exact printable_encodeByte _ b c hc

/-- An encoded message is printable and is decoded with its invalid bytes replaced, the fast paths
make no difference, and messages without an escape are decoded as they are. -/
theorem grpcMessage_roundTrip (msg : List UInt8) :
    (∀ c ∈ encodeGrpcMessage msg, 32 ≤ c.toNat ∧ c.toNat ≤ 126) ∧
      decodeGrpcMessage (encodeGrpcMessage msg) = replaceInvalid msg ∧
      encodeGrpcMessage msg = encodeGrpcMessageUnchecked msg ∧
      decodeGrpcMessage msg = decodeGrpcMessageUnchecked msg ∧
      (¬ HasEscape msg → decodeGrpcMessage msg = msg) := by
  rw [encodeGrpcMessage_eq, decodeGrpcMessage_eq, decodeGrpcMessage_eq]
  exact ⟨printable_encodeGrpcMessageUnchecked msg,
    decodeGrpcMessageUnchecked_encodeGrpcMessageUnchecked msg, rfl, rfl,
    decodeGrpcMessageUnchecked_of_not_hasEscape⟩

/-- A percent sign, a rune of two bytes, a byte that is no rune, and an escape that is cut off. -/
example : encodeGrpcMessage [37, 0xC3, 0xA9, 0xC3, 52] =
      [37, 50, 53, 37, 67, 51, 37, 65, 57, 37, 69, 70, 37, 66, 70, 37, 66, 68, 52] ∧
    decodeGrpcMessage [97, 37, 52, 49, 37, 52] = [97, 65, 37, 52] := by
  decide

end Kitex.Http2
