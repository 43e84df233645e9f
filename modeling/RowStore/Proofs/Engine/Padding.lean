/-
# Padded seeds and partial comparison

A scan upwards starts from its seed, padded to a whole key with the lowest parts of the remaining
fields; a scan downwards, and one that leaves its seed out, compares each key with the seed on the
parts that the seed has. Both draw the same line: a whole key is at or above the padded seed exactly
if it does not lie before the seed, and at or above the start of a scan by prefix exactly if its
leading bytes do not lie below the prefix either. The parts of reversed fields sort from high to low,
so that their lowest part is that of the greatest word.

Key theorems: `KeyPart.compare_ofCell?_word`, `KeyPart.compare_ofCell?_bytes`,
`Seek.padded_iff_partial`.
-/
import RowStore.Proofs.Data.Successor
import RowStore.Proofs.Data.Words
import RowStore.Proofs.Engine.Visits

namespace RowStore

namespace KeyPart

/-- Every word makes a part in an integer field. The parts compare as numbers, from high to low in
a reversed field. -/
theorem compare_ofCell?_word (width : Width) (reversed : Bool) (v w : UInt64) :
    ∃ p q, ofCell? (.int width reversed) (.word v) = some p ∧
      ofCell? (.int width reversed) (.word w) = some q ∧
      compare p q = if reversed then compare w.toNat v.toNat else compare v.toNat w.toNat := by
  cases reversed with
  | false => exact ⟨.up v, .up w, rfl, rfl, compare_uint64_toNat v w⟩
  | true => exact ⟨.down v, .down w, rfl, rfl, compare_uint64_toNat w v⟩

/-- Every byte string makes a part in a string field. The parts compare byte by byte. -/
theorem compare_ofCell?_bytes (b c : Bytes) :
    ∃ p q, ofCell? .string (.bytes b) = some p ∧ ofCell? .string (.bytes c) = some q ∧
      (compare p q = .lt ↔ b < c) ∧ (compare p q = .eq ↔ b = c) ∧ (compare p q = .gt ↔ c < b) := by
  refine ⟨.bytes b, .bytes c, rfl, rfl, ?_⟩
  rw [compare_bytes]
  refine ⟨Bytes.compare_eq_lt_iff, Std.compare_eq_iff_eq, ?_⟩
  rw [Std.OrientedOrd.eq_swap, Ordering.swap_eq_gt]
  exact Bytes.compare_eq_lt_iff

end KeyPart

/-- A whole key is at or above a padded seed exactly if it does not lie before the seed. -/
theorem Key.compare_pad_ne_lt {types : List FieldType} {seed key : Key}
    (hkey : Key.OfKinds types key) (hseed : seed.length ≤ types.length) :
    compare key (Key.pad types seed) ≠ .lt ↔ key.compareOn seed ≠ .lt :=
  compare_ne_lt_iff.trans (not_congr (Key.compare_pad hkey hseed))

/-- **Padding and partial comparison agree.** For a whole key and a seed of no more parts than there
are fields, in particular every typed beginning of a key: the key is at or above the seed padded with
lowest parts exactly if the partial comparison with the seed does not put it below. It is at or above
the start of an upward scan with that seed exactly if, moreover, its leading bytes are not below the
bytes that the scan asks for, where it asks for some of a leading string. The parts that both orders
compare are in numeric order, in reversed numeric order for reversed fields, and in byte order for
strings. -/
theorem Seek.padded_iff_partial {types : List FieldType} {key seed : Key}
    (hkey : Key.OfKinds types key) (hseed : seed.length ≤ types.length) :
    (compare key (Key.pad types seed) ≠ .lt ↔ key.compareOn seed ≠ .lt) ∧
    (∀ seek : Seek, seek.keyTypes = types → seek.seed = seed →
      (seek.startsWith?.isSome = true → types.head? = some .string) →
      (compare key seek.lowerBound ≠ .lt ↔ key.compareOn seed ≠ .lt ∧
        ∀ bytes, seek.startsWith? = some bytes → compare key.leadingBytes bytes ≠ .lt)) ∧
    (∀ (width : Width) (reversed : Bool) (v w : UInt64), ∃ p q,
      KeyPart.ofCell? (.int width reversed) (.word v) = some p ∧
      KeyPart.ofCell? (.int width reversed) (.word w) = some q ∧
      compare p q = if reversed then compare w.toNat v.toNat else compare v.toNat w.toNat) ∧
    (∀ b c : Bytes, ∃ p q,
      KeyPart.ofCell? .string (.bytes b) = some p ∧ KeyPart.ofCell? .string (.bytes c) = some q ∧
      (compare p q = .lt ↔ b < c) ∧ (compare p q = .eq ↔ b = c) ∧
      (compare p q = .gt ↔ c < b)) := by
  refine ⟨Key.compare_pad_ne_lt hkey hseed, ?_, KeyPart.compare_ofCell?_word,
    KeyPart.compare_ofCell?_bytes⟩
  rintro seek rfl rfl hleading
  exact compare_ne_lt_iff.trans (lowerBound_iff ⟨hseed, hleading⟩ hkey)

/-- A seed of a string and a reversed word, and a scan for the strings that start with the byte 2.
The key with a lower reversed word lies above the seed, whatever the word in its last field. -/
theorem Seek.padded_iff_partial_reversed :
    let types : List FieldType := [.string, .int .two true, .int .four false]
    let key : Key := [.bytes [2, 5], .down 7, .up 0]
    let seed : Key := [.bytes [2, 5], .down 9]
    let seek : Seek := ⟨1, .gte, types, seed, some [2], none⟩
    Key.OfKinds types key ∧ seed.length ≤ types.length ∧
      compare key (Key.pad types seed) ≠ .lt ∧ compare key seek.lowerBound ≠ .lt := by
  intro types key seed seek
  have hkey : Key.OfKinds types key := .cons rfl (.cons ⟨rfl, rfl⟩ (.cons ⟨rfl, rfl⟩ .nil))
  have hseed : seed.length ≤ types.length := by decide
  have hagree := padded_iff_partial hkey hseed
  refine ⟨hkey, hseed, hagree.1.2 (by decide), ?_⟩
  refine (hagree.2.1 seek rfl rfl (fun _ => rfl)).2 ⟨by decide, ?_⟩
  rintro bytes ⟨⟩
  decide

end RowStore
