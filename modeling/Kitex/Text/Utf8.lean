import Mathlib.Data.List.Basic

/-! # Runes of a text

A text is a list of bytes, and its runes are read from the front. A byte that no valid encoding
starts with is read as the error rune with the size one, and reading goes on behind it.
-/

namespace Kitex.Text

def runeError : Nat := 0xFFFD

/-- The size of the encodings with a first byte, and the range of their second byte. -/
def leading (c : Nat) : Option (Nat × Nat × Nat) :=
  if c < 0xC2 then none
  else if c ≤ 0xDF then some (2, 0x80, 0xBF)
  else if c = 0xE0 then some (3, 0xA0, 0xBF)
  else if c = 0xED then some (3, 0x80, 0x9F)
  else if c ≤ 0xEF then some (3, 0x80, 0xBF)
  else if c = 0xF0 then some (4, 0x90, 0xBF)
  else if c ≤ 0xF3 then some (4, 0x80, 0xBF)
  else if c = 0xF4 then some (4, 0x80, 0x8F)
  else none

def within (lo hi : Nat) (c : UInt8) : Bool := lo ≤ c.toNat && c.toNat ≤ hi

/-- The first rune of a text and its size. -/
def decodeRune : List UInt8 → Nat × Nat
  | [] => (runeError, 0)
  | c :: rest =>
    if c.toNat < 0x80 then (c.toNat, 1)
    else match leading c.toNat, rest with
      | some (2, lo, hi), c1 :: _ =>
        if within lo hi c1 then (c.toNat % 32 * 64 + c1.toNat % 64, 2) else (runeError, 1)
      | some (3, lo, hi), c1 :: c2 :: _ =>
        if within lo hi c1 && within 0x80 0xBF c2 then
          (c.toNat % 16 * 4096 + c1.toNat % 64 * 64 + c2.toNat % 64, 3)
        else (runeError, 1)
      | some (4, lo, hi), c1 :: c2 :: c3 :: _ =>
        if within lo hi c1 && within 0x80 0xBF c2 && within 0x80 0xBF c3 then
          (c.toNat % 8 * 262144 + c1.toNat % 64 * 4096 + c2.toNat % 64 * 64 + c3.toNat % 64, 4)
        else (runeError, 1)
      | _, _ => (runeError, 1)

/-- The encoding of a rune; what is not a rune is encoded as the error rune. -/
def encodeRune (r : Nat) : List UInt8 :=
  if r < 0x80 then [UInt8.ofNat r]
  else if r < 0x800 then [UInt8.ofNat (0xC0 + r / 64), UInt8.ofNat (0x80 + r % 64)]
  else if 0x10FFFF < r ∨ 0xD800 ≤ r ∧ r ≤ 0xDFFF then [0xEF, 0xBF, 0xBD]
  else if r < 0x10000 then
    [UInt8.ofNat (0xE0 + r / 4096), UInt8.ofNat (0x80 + r / 64 % 64), UInt8.ofNat (0x80 + r % 64)]
  else
    [UInt8.ofNat (0xF0 + r / 262144), UInt8.ofNat (0x80 + r / 4096 % 64),
      UInt8.ofNat (0x80 + r / 64 % 64), UInt8.ofNat (0x80 + r % 64)]

/-- The runes of a text with the bytes that each of them was read from. -/
def runesLoop : (fuel : Nat) → List UInt8 → List (Nat × List UInt8)
  | 0, _ => []
  | fuel + 1, s =>
    if s = [] then []
    else
      let (r, size) := decodeRune s
      (r, s.take size) :: runesLoop fuel (s.drop size)

/-- No rune is empty, so the length of the text is fuel enough. -/
def runes (s : List UInt8) : List (Nat × List UInt8) := runesLoop s.length s

/-- The text with the error rune in the place of each byte that was read as such. -/
def replaceInvalid (s : List UInt8) : List UInt8 :=
  (runes s).flatMap fun (r, chunk) =>
    if r = runeError ∧ chunk.length = 1 then [0xEF, 0xBF, 0xBD] else chunk

/-! ## Reading a rune -/

/-- What a rune is read from. -/
inductive RuneChunk : Nat → List UInt8 → Prop where
  | ascii {c : UInt8} (hc : c.toNat < 0x80) : RuneChunk c.toNat [c]
  | invalid {c : UInt8} (hc : 0x80 ≤ c.toNat) : RuneChunk runeError [c]
  | valid {r : Nat} {chunk : List UInt8} (hlength : 2 ≤ chunk.length)
      (hencode : encodeRune r = chunk) : RuneChunk r chunk

variable {c c1 c2 c3 : UInt8} {lo hi : Nat} {s : List UInt8}

theorem ofNat_eq_of_toNat {n : Nat} (h : n = c.toNat) : UInt8.ofNat n = c := by
  rw [h, UInt8.ofNat_toNat]

theorem within_iff : within lo hi c = true ↔ lo ≤ c.toNat ∧ c.toNat ≤ hi := by
  simp [within]

/-- The second byte after some first bytes has a smaller range: no rune has two encodings, none is a
surrogate, and none is too large. -/
theorem leading_eq_some {c n lo hi : Nat} (h : leading c = some (n, lo, hi)) :
    (n = 2 ∧ 0xC2 ≤ c ∧ c ≤ 0xDF ∧ lo = 0x80 ∧ hi = 0xBF) ∨
      (n = 3 ∧ 0xE0 ≤ c ∧ c ≤ 0xEF ∧ 0x80 ≤ lo ∧ hi ≤ 0xBF ∧ (c = 0xE0 → lo = 0xA0) ∧
        (c = 0xED → hi = 0x9F)) ∨
      n = 4 ∧ 0xF0 ≤ c ∧ c ≤ 0xF4 ∧ 0x80 ≤ lo ∧ hi ≤ 0xBF ∧ (c = 0xF0 → lo = 0x90) ∧
        (c = 0xF4 → hi = 0x8F) := by
  simp only [leading, Option.ite_none_left_eq_some] at h
  obtain ⟨hge, h⟩ := h
  split_ifs at h <;> cases h <;> omega

theorem encodeRune_two (hlead : leading c.toNat = some (2, lo, hi)) (hc1 : within lo hi c1) :
    encodeRune (c.toNat % 32 * 64 + c1.toNat % 64) = [c, c1] := by
  have hlead := leading_eq_some hlead
  rw [within_iff] at hc1
  rw [encodeRune, if_neg (by omega), if_pos (by omega), ofNat_eq_of_toNat (c := c) (by omega),
    ofNat_eq_of_toNat (c := c1) (by omega)]

theorem encodeRune_three (hlead : leading c.toNat = some (3, lo, hi))
    (hc1 : within lo hi c1) (hc2 : within 0x80 0xBF c2) :
    encodeRune (c.toNat % 16 * 4096 + c1.toNat % 64 * 64 + c2.toNat % 64) = [c, c1, c2] := by
  have hlead := leading_eq_some hlead
  rw [within_iff] at hc1 hc2
  rw [encodeRune, if_neg (by omega), if_neg (by omega), if_neg (by omega), if_pos (by omega),
    ofNat_eq_of_toNat (c := c) (by omega), ofNat_eq_of_toNat (c := c1) (by omega),
    ofNat_eq_of_toNat (c := c2) (by omega)]

theorem encodeRune_four (hlead : leading c.toNat = some (4, lo, hi))
    (hc1 : within lo hi c1) (hc2 : within 0x80 0xBF c2)
    (hc3 : within 0x80 0xBF c3) :
    encodeRune (c.toNat % 8 * 262144 + c1.toNat % 64 * 4096 + c2.toNat % 64 * 64 +
      c3.toNat % 64) = [c, c1, c2, c3] := by
  have hlead := leading_eq_some hlead
  rw [within_iff] at hc1 hc2 hc3
  rw [encodeRune, if_neg (by omega), if_neg (by omega), if_neg (by omega), if_neg (by omega),
    ofNat_eq_of_toNat (c := c) (by omega), ofNat_eq_of_toNat (c := c1) (by omega),
    ofNat_eq_of_toNat (c := c2) (by omega), ofNat_eq_of_toNat (c := c3) (by omega)]

/-- The first rune is read from a part of the text that is not empty. -/
theorem exists_chunk (hs : s ≠ []) :
    ∃ r chunk rest, s = chunk ++ rest ∧ decodeRune s = (r, chunk.length) ∧
      RuneChunk r chunk := by
  obtain ⟨c, rest, rfl⟩ := List.exists_cons_of_ne_nil hs
  simp only [decodeRune]
  split
  next hascii => exact ⟨_, [c], rest, rfl, rfl, .ascii hascii⟩
  next hascii =>
    have hinvalid := RuneChunk.invalid (Nat.not_lt.mp hascii)
    split
    next lo hi c1 rest hlead =>
      split
      next hc1 => exact ⟨_, [c, c1], rest, rfl, rfl, .valid (by simp) (encodeRune_two hlead hc1)⟩
      next => exact ⟨_, [c], _, rfl, rfl, hinvalid⟩
    next lo hi c1 c2 rest hlead =>
      split
      next hc =>
        obtain ⟨hc1, hc2⟩ := Bool.and_eq_true_iff.mp hc
        exact ⟨_, [c, c1, c2], rest, rfl, rfl, .valid (by simp) (encodeRune_three hlead hc1 hc2)⟩
      next => exact ⟨_, [c], _, rfl, rfl, hinvalid⟩
    next lo hi c1 c2 c3 rest hlead =>
      split
      next hc =>
        obtain ⟨hc12, hc3⟩ := Bool.and_eq_true_iff.mp hc
        obtain ⟨hc1, hc2⟩ := Bool.and_eq_true_iff.mp hc12
        exact ⟨_, [c, c1, c2, c3], rest, rfl, rfl,
          .valid (by simp) (encodeRune_four hlead hc1 hc2 hc3)⟩
      next => exact ⟨_, [c], _, rfl, rfl, hinvalid⟩
    next => exact ⟨_, [c], _, rfl, rfl, hinvalid⟩

/-! ## Reading a text -/

theorem runeChunk_of_mem_runesLoop {fuel : Nat} :
    ∀ rune ∈ runesLoop fuel s, RuneChunk rune.1 rune.2 := by
  induction fuel generalizing s with
  | zero => simp [runesLoop]
  | succ fuel ih =>
    rw [runesLoop]
    split
    next => simp
    next hs =>
      obtain ⟨r, chunk, rest, rfl, hdecode, hchunk⟩ := exists_chunk hs
      simp only [hdecode, List.take_left, List.forall_mem_cons]
      exact ⟨hchunk, ih⟩

theorem runes_ascii (hs : ∀ c ∈ s, c.toNat < 0x80) : runes s = s.map fun c => (c.toNat, [c]) := by
  unfold runes
  induction s with
  | nil => rfl
  | cons c s ih =>
    obtain ⟨hc, hrest⟩ := List.forall_mem_cons.mp hs
    rw [List.length_cons, runesLoop, if_neg (List.cons_ne_nil c s)]
    simp only [decodeRune, hc, if_true, List.take_succ_cons, List.take_zero,
      List.drop_succ_cons, List.drop_zero, ih hrest, List.map_cons]

theorem encodeRune_ascii (hc : c.toNat < 0x80) : encodeRune c.toNat = [c] := by
  rw [encodeRune, if_pos hc, UInt8.ofNat_toNat]

theorem RuneChunk.encodeRune_eq {r : Nat} {chunk : List UInt8} (h : RuneChunk r chunk) :
    encodeRune r =
      if r = runeError ∧ chunk.length = 1 then [0xEF, 0xBF, 0xBD] else chunk := by
  induction h with
  | @ascii c hc =>
    have hne : c.toNat ≠ runeError := by
      unfold runeError
      omega
    rw [encodeRune_ascii hc, if_neg fun h => hne h.1]
  | invalid =>
    rfl
  | valid hlength hencode => rw [hencode, if_neg fun h => by omega]

/-- To encode the runes again replaces the invalid bytes. -/
theorem flatMap_encodeRune_runes (s : List UInt8) :
    ((runes s).flatMap fun rune => encodeRune rune.1) = replaceInvalid s :=
  List.flatMap_congr fun _ hrune => (runeChunk_of_mem_runesLoop _ hrune).encodeRune_eq

end Kitex.Text
