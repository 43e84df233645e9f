/-
# Byte strings

Field images, string fields and keys are byte strings, compared byte by byte from the front. A
64-bit word has a little-endian image of any width up to eight bytes, and every byte string of at
most eight bytes reads back as a word, the missing high bytes being zero. The successor of a byte
string is the least string above everything that starts with it.

Key definitions: `Bytes.word?`, `Bytes.ofWord`, `Bytes.successor?`.
Key theorems: `Bytes.length_ofWord`, `Bytes.successor?_eq_none_iff`.
-/

namespace RowStore

/-- A byte string. Its order is that of its first differing byte. -/
abbrev Bytes := List UInt8

namespace Bytes

/-- The UTF-8 image of a text. -/
def ofText (text : String) : Bytes := text.toUTF8.data.toList

/-- The word whose little-endian image starts with these bytes, the rest of it zero. Bytes past
the eighth do not count. -/
def word : Bytes → UInt64
  | [] => 0
  | b :: rest => b.toUInt64 + 256 * word rest

/-- The word a field image of at most eight bytes stands for. -/
def word? (bytes : Bytes) : Option UInt64 :=
  if bytes.length ≤ 8 then some bytes.word else none

/-- The `width` low bytes of a word, least significant first. -/
def ofWord : Nat → UInt64 → Bytes
  | 0, _ => []
  | width + 1, w => w.toUInt8 :: ofWord width (w / 256)

/-- The least byte string above every extension of `bytes`: the last byte that is not `0xFF` goes
up by one and what follows it is dropped. Nothing bounds the extensions of a string without such
a byte. -/
def successor? : Bytes → Option Bytes
  | [] => none
  | b :: rest =>
    match successor? rest with
    | some next => some (b :: next)
    | none => if b = 0xFF then none else some [b + 1]

@[simp] theorem length_ofWord (width : Nat) (w : UInt64) : (ofWord width w).length = width := by
  induction width generalizing w with
  | zero => rfl
  | succ width ih => simp [ofWord, ih]

/-- Only the empty string and runs of `0xFF` have no successor. -/
theorem successor?_eq_none_iff (bytes : Bytes) :
    successor? bytes = none ↔ ∀ b ∈ bytes, b = 0xFF := by
  induction bytes with
  | nil => simp [successor?]
  | cons b rest ih =>
    cases h : successor? rest with
    | none =>
      simp only [successor?, h, List.mem_cons, forall_eq_or_imp, ite_eq_left_iff, reduceCtorEq,
        imp_false, Decidable.not_not]
      exact ⟨fun hb => ⟨hb, ih.1 h⟩, And.left⟩
    | some next =>
      simp only [successor?, h, List.mem_cons, forall_eq_or_imp, reduceCtorEq, false_iff, not_and]
      exact fun _ hall => by simp [ih.2 hall] at h

end Bytes
end RowStore
