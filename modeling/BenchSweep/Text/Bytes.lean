/-! # Bytes as Text

    Files hold bytes.  `decode` reads them as UTF-8; where they are not, each
    longest piece that could have begun a character stands as one replacement
    character. -/

namespace BenchSweep.Text

/-- Stands for bytes that are not UTF-8. -/
def replacement : Char := '\uFFFD'

/-- How many bytes follow a leading byte, and the values the first of them may
    have.  `none` for a byte that begins no character. -/
def leadShape (b : UInt8) : Option (Nat × UInt8 × UInt8) :=
  if b < 0x80 then some (0, 0x80, 0xbf)
  else if 0xc2 ≤ b && b ≤ 0xdf then some (1, 0x80, 0xbf)
  else if b = 0xe0 then some (2, 0xa0, 0xbf)
  else if b = 0xed then some (2, 0x80, 0x9f)
  else if 0xe1 ≤ b && b ≤ 0xef then some (2, 0x80, 0xbf)
  else if b = 0xf0 then some (3, 0x90, 0xbf)
  else if 0xf1 ≤ b && b ≤ 0xf3 then some (3, 0x80, 0xbf)
  else if b = 0xf4 then some (3, 0x80, 0x8f)
  else none

/-- The payload bits of a leading byte with `n` bytes to follow. -/
def leadBits (n : Nat) (b : UInt8) : Nat :=
  match n with
  | 0 => b.toNat
  | 1 => b.toNat % 32
  | 2 => b.toNat % 16
  | _ => b.toNat % 8

/-- Reads `n` continuation bytes, the first between `low` and `high`.  The
    answer is the code point if they are all there, and the bytes behind
    whatever was used. -/
def takeContinuation : Nat → UInt8 → UInt8 → Nat → List UInt8 → Option Nat × List UInt8
  | 0, _, _, value, rest => (some value, rest)
  | _ + 1, _, _, _, [] => (none, [])
  | n + 1, low, high, value, b :: rest =>
    if low ≤ b && b ≤ high then takeContinuation n 0x80 0xbf (64 * value + b.toNat % 64) rest
    else (none, b :: rest)

theorem takeContinuation_length (n : Nat) (low high : UInt8) (value : Nat) (bs : List UInt8) :
    (takeContinuation n low high value bs).2.length ≤ bs.length := by
  induction bs generalizing n low high value with
  | nil => cases n <;> simp [takeContinuation]
  | cons b bs ih =>
    cases n with
    | zero => simp [takeContinuation]
    | succ n =>
      rw [takeContinuation]
      split
      · exact Nat.le_succ_of_le (ih ..)
      · exact Nat.le_refl _

/-- Reads bytes as UTF-8 with replacement. -/
def decodeList : List UInt8 → List Char
  | [] => []
  | b :: rest =>
    match leadShape b with
    | none => replacement :: decodeList rest
    | some (n, low, high) =>
      let tail := takeContinuation n low high (leadBits n b) rest
      (tail.1.map Char.ofNat).getD replacement :: decodeList tail.2
termination_by bs => bs.length
decreasing_by
  · simp
  · have := takeContinuation_length n low high (leadBits n b) rest
    simp only [List.length_cons]
    omega

/-- The text of a byte sequence. -/
def decode (bytes : ByteArray) : String :=
  match String.fromUTF8? bytes with
  | some s => s
  | none => String.ofList (decodeList bytes.toList)

@[simp] theorem decode_toUTF8 (s : String) : decode s.toUTF8 = s := by
  have h : String.fromUTF8? s.toUTF8 = some s := by
    simp only [String.fromUTF8?, String.toUTF8_eq_toByteArray, dif_pos s.isValidUTF8]
    rfl
  simp only [decode, h]

end BenchSweep.Text
