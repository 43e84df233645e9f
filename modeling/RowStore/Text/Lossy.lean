/-
# Bytes as text

Byte strings are shown as text by reading them as UTF-8. What is not UTF-8 is replaced: the
longest start of a character that the next byte rules out, or a byte that starts no character,
becomes one replacement character, and reading goes on with the byte that ruled it out.

The reader is a machine over bytes. Between characters it owes nothing; within one it knows how
many bytes are owed and the range of the next, which is narrower than `80..BF` after `E0`, `ED`,
`F0` and `F4`.

Key definitions: `Text.Lossy.step`, `Text.Lossy.read`, `Text.ofBytes`.
Key theorems: `Text.ofBytes_ofText`.
-/
import RowStore.Data.Bytes

namespace RowStore.Text

namespace Lossy

/-- A character begun: its bits so far, the bytes owed, and the range of the next one. -/
structure Owed where
  bits : Nat
  count : Nat
  low : UInt8
  high : UInt8
  deriving DecidableEq, Repr

/-- What stands for bytes that are not UTF-8. -/
def replacement : Char := '\uFFFD'

/-- A byte met between characters: what it makes, and what is owed after it. -/
def start (b : UInt8) : List Char × Option Owed :=
  let bits := b.toNat
  if b ≤ 0x7F then ([Char.ofNat bits], none)
  else if 0xC2 ≤ b ∧ b ≤ 0xDF then ([], some ⟨bits % 0x20, 1, 0x80, 0xBF⟩)
  else if b = 0xE0 then ([], some ⟨bits % 0x10, 2, 0xA0, 0xBF⟩)
  else if b = 0xED then ([], some ⟨bits % 0x10, 2, 0x80, 0x9F⟩)
  else if 0xE1 ≤ b ∧ b ≤ 0xEF then ([], some ⟨bits % 0x10, 2, 0x80, 0xBF⟩)
  else if b = 0xF0 then ([], some ⟨bits % 0x08, 3, 0x90, 0xBF⟩)
  else if 0xF1 ≤ b ∧ b ≤ 0xF3 then ([], some ⟨bits % 0x08, 3, 0x80, 0xBF⟩)
  else if b = 0xF4 then ([], some ⟨bits % 0x08, 3, 0x80, 0x8F⟩)
  else ([replacement], none)

/-- One byte. A byte out of range ends the character begun and is met anew. -/
def step (owed : Option Owed) (b : UInt8) : List Char × Option Owed :=
  match owed with
  | none => start b
  | some o =>
    if o.low ≤ b ∧ b ≤ o.high then
      let bits := o.bits * 0x40 + b.toNat % 0x40
      if o.count ≤ 1 then ([Char.ofNat bits], none)
      else ([], some ⟨bits, o.count - 1, 0x80, 0xBF⟩)
    else (replacement :: (start b).1, (start b).2)

/-- Reads the bytes to their end, where a character begun is one replacement. -/
def read : Option Owed → Bytes → List Char
  | none, [] => []
  | some _, [] => [replacement]
  | owed, b :: rest => (step owed b).1 ++ read (step owed b).2 rest

/-! ### Text reads back -/

/-- What a byte met between characters makes, by its number. -/
theorem start_ofNat {n : Nat} (h : n < 256) :
    start (UInt8.ofNat n) =
      if n ≤ 0x7F then ([Char.ofNat n], none)
      else if 0xC2 ≤ n ∧ n ≤ 0xDF then ([], some ⟨n % 0x20, 1, 0x80, 0xBF⟩)
      else if n = 0xE0 then ([], some ⟨n % 0x10, 2, 0xA0, 0xBF⟩)
      else if n = 0xED then ([], some ⟨n % 0x10, 2, 0x80, 0x9F⟩)
      else if 0xE1 ≤ n ∧ n ≤ 0xEF then ([], some ⟨n % 0x10, 2, 0x80, 0xBF⟩)
      else if n = 0xF0 then ([], some ⟨n % 0x08, 3, 0x90, 0xBF⟩)
      else if 0xF1 ≤ n ∧ n ≤ 0xF3 then ([], some ⟨n % 0x08, 3, 0x80, 0xBF⟩)
      else if n = 0xF4 then ([], some ⟨n % 0x08, 3, 0x80, 0x8F⟩)
      else ([replacement], none) := by
  have hn : (UInt8.ofNat n).toNat = n := UInt8.toNat_ofNat_of_lt' h
  simp only [start, UInt8.le_iff_toNat_le, ← UInt8.toNat_inj, hn]
  rfl

/-- A byte met between characters. -/
theorem read_none (b : UInt8) (rest : Bytes) :
    read none (b :: rest) = (start b).1 ++ read (start b).2 rest := rfl

/-- A byte in the range of the one owed, by its number. -/
theorem read_owed {bits low high n : Nat} (count : Nat) (rest : Bytes) (hn : n < 256)
    (hl : low < 256) (hh : high < 256) (hlo : low ≤ n) (hhi : n ≤ high) :
    read (some ⟨bits, count, UInt8.ofNat low, UInt8.ofNat high⟩) (UInt8.ofNat n :: rest) =
      if count ≤ 1 then Char.ofNat (bits * 0x40 + n % 0x40) :: read none rest
      else
        read (some ⟨bits * 0x40 + n % 0x40, count - 1, UInt8.ofNat 0x80, UInt8.ofNat 0xBF⟩)
          rest := by
  have toNat {m : Nat} (hm : m < 256) : (UInt8.ofNat m).toNat = m := UInt8.toNat_ofNat_of_lt' hm
  have within : UInt8.ofNat low ≤ UInt8.ofNat n ∧ UInt8.ofNat n ≤ UInt8.ofNat high := by
    simp only [UInt8.le_iff_toNat_le, toNat, hn, hl, hh, hlo, hhi, and_self]
  simp only [read, step, within, and_self, if_true, toNat hn]
  split <;> simp

/-- The first byte of two. -/
theorem start_two {n : Nat} (h : 0xC2 ≤ n) (h' : n ≤ 0xDF) :
    start (UInt8.ofNat n) = ([], some ⟨n % 0x20, 1, UInt8.ofNat 0x80, UInt8.ofNat 0xBF⟩) := by
  rw [start_ofNat (by omega), if_neg (by omega), if_pos ⟨h, h'⟩]; rfl

/-- The first byte of three. -/
theorem start_three {n : Nat} (h : 0xE0 ≤ n) (h' : n ≤ 0xEF) :
    start (UInt8.ofNat n) = ([], some ⟨n % 0x10, 2,
      UInt8.ofNat (if n = 0xE0 then 0xA0 else 0x80),
      UInt8.ofNat (if n = 0xED then 0x9F else 0xBF)⟩) := by
  rw [start_ofNat (by omega), if_neg (by omega), if_neg (by omega)]
  split
  · next h => subst h; rfl
  split
  · next h => subst h; rfl
  · rw [if_pos (by omega)]; rfl

/-- The first byte of four. -/
theorem start_four {n : Nat} (h : 0xF0 ≤ n) (h' : n ≤ 0xF4) :
    start (UInt8.ofNat n) = ([], some ⟨n % 0x08, 3,
      UInt8.ofNat (if n = 0xF0 then 0x90 else 0x80),
      UInt8.ofNat (if n = 0xF4 then 0x8F else 0xBF)⟩) := by
  obtain rfl | rfl | rfl | rfl | rfl : n = 0xF0 ∨ n = 0xF1 ∨ n = 0xF2 ∨ n = 0xF3 ∨ n = 0xF4 := by
    omega
  all_goals rfl

/-- The bytes of a character read as the character. -/
theorem read_encode (c : Char) (rest : Bytes) :
    read none (String.utf8EncodeChar c ++ rest) = c :: read none rest := by
  obtain ⟨v, hval⟩ : ∃ v, c.val.toNat = v := ⟨_, rfl⟩
  have hv : v < 0xD800 ∨ (0xDFFF < v ∧ v < 0x110000) := hval ▸ c.valid
  have hc : Char.ofNat v = c := hval ▸ Char.ofNat_toNat c
  simp only [String.utf8EncodeChar, hval]
  split
  · next h =>
    simp only [List.cons_append, List.nil_append]
    rw [read_none, start_ofNat (by omega), if_pos h, hc]
    rfl
  split
  · next h =>
    simp only [List.cons_append, List.nil_append]
    rw [read_none, start_two (by omega) (by omega), List.nil_append,
      read_owed _ _ (by omega) (by omega) (by omega) (by omega) (by omega), if_pos (by omega)]
    congr 1
    rw [← hc]
    congr 1
    omega
  split
  · next h =>
    simp only [List.cons_append, List.nil_append]
    rw [read_none, start_three (by omega) (by omega), List.nil_append,
      read_owed _ _ (by omega) (by split <;> omega) (by split <;> omega) (by split <;> omega)
        (by split <;> omega), if_neg (by omega),
      read_owed _ _ (by omega) (by omega) (by omega) (by omega) (by omega), if_pos (by omega)]
    congr 1
    rw [← hc]
    congr 1
    omega
  · simp only [List.cons_append, List.nil_append]
    rw [read_none, start_four (by omega) (by omega), List.nil_append,
      read_owed _ _ (by omega) (by split <;> omega) (by split <;> omega) (by split <;> omega)
        (by split <;> omega), if_neg (by omega),
      read_owed _ _ (by omega) (by omega) (by omega) (by omega) (by omega), if_neg (by omega),
      read_owed _ _ (by omega) (by omega) (by omega) (by omega) (by omega), if_pos (by omega)]
    congr 1
    rw [← hc]
    congr 1
    omega

/-- The bytes of characters read as the characters. -/
theorem read_flatMap_encode (cs : List Char) :
    read none (cs.flatMap String.utf8EncodeChar) = cs := by
  induction cs with
  | nil => rfl
  | cons c cs ih => rw [List.flatMap_cons, read_encode, ih]

end Lossy

/-- The text of a byte string, what is not UTF-8 replaced. -/
def ofBytes (bytes : Bytes) : String :=
  String.ofList (Lossy.read none bytes)

/-- Nothing is replaced in the bytes of a text. -/
theorem ofBytes_ofText (text : String) : ofBytes (Bytes.ofText text) = text := by
  have h : Bytes.ofText text = text.toList.flatMap String.utf8EncodeChar := by
    rw [Bytes.ofText, String.toUTF8, ← String.utf8Encode_toList, List.utf8Encode,
      List.data_toByteArray]
  rw [ofBytes, h, Lossy.read_flatMap_encode, String.ofList_toList]

end RowStore.Text
