/-
# An image and what it stands for

A field image is written and read in three ways: a cell is encoded at the width of its field, an
image is decoded and cut to the width, and a merge function reads an image as a little-endian
integer of whatever width it has. The three agree. Writing and then reading gives the word cut to
the width, for both readers; reading and then writing gives the image cut or filled with zeros to
the width, and is refused only for the images that no word has. Strings are their own images.

Key theorems: `Bytes.ofWord_word`, `Cell.decode?_eq_none_iff`, `Cell.decode?_encode_word`,
`Cell.images_round_trip`.
-/
import RowStore.Proofs.Data.Words
import RowStore.Merge.Images

namespace RowStore

/-- The words of up to eight bytes are below the size of their width. -/
theorem Bytes.toNat_word_lt : ∀ {bytes : Bytes}, bytes.length ≤ 8 →
    bytes.word.toNat < 256 ^ bytes.length
  | [], _ => Nat.one_pos
  | b :: rest, h => by
    have hlen : rest.length ≤ 7 := Nat.le_of_succ_le_succ h
    have ih := toNat_word_lt (Nat.le_of_succ_le h)
    have hpow : 256 ^ rest.length ≤ 256 ^ 7 := Nat.pow_le_pow_right (by decide) hlen
    have hb : b.toUInt64.toNat < 256 := b.toNat_lt
    rw [word, List.length_cons, pow_succ', UInt64.toNat_add, UInt64.toNat_mul,
      show (256 : UInt64).toNat = 256 from rfl]
    omega

/-- The first byte of an image is the low byte of its word, and the others are the word above. -/
theorem Bytes.word_cons_div {b : UInt8} {rest : Bytes} (h : rest.length ≤ 7) :
    word (b :: rest) / 256 = rest.word := by
  have hrest := toNat_word_lt (Nat.le_succ_of_le h)
  have hpow : 256 ^ rest.length ≤ 256 ^ 7 := Nat.pow_le_pow_right (by decide) h
  have hb : b.toUInt64.toNat < 256 := b.toNat_lt
  apply UInt64.toNat_inj.1
  rw [word, UInt64.toNat_div, UInt64.toNat_add, UInt64.toNat_mul,
    show (256 : UInt64).toNat = 256 from rfl]
  omega

theorem Bytes.toUInt8_word_cons (b : UInt8) (rest : Bytes) : (word (b :: rest)).toUInt8 = b := by
  apply UInt8.toNat_inj.1
  have hb : b.toNat < 256 := b.toNat_lt
  rw [word, UInt64.toNat_toUInt8, UInt64.toNat_add, UInt64.toNat_mul, UInt8.toNat_toUInt64,
    show (256 : UInt64).toNat = 256 from rfl]
  omega

theorem Bytes.ofWord_zero : ∀ width : Nat, ofWord width 0 = List.replicate width 0
  | 0 => rfl
  | width + 1 => congrArg (0 :: ·) (ofWord_zero width)

/-- An image that is read and written at another width loses its last bytes or gets zeros there. -/
theorem Bytes.ofWord_word : ∀ (width : Nat) {bytes : Bytes}, bytes.length ≤ 8 →
    ofWord width bytes.word = bytes.take width ++ List.replicate (width - bytes.length) 0
  | 0, bytes, _ => by simp [ofWord]
  | width + 1, [], _ => ofWord_zero (width + 1)
  | width + 1, b :: rest, h => by
    have hlen : rest.length ≤ 7 := Nat.le_of_succ_le_succ h
    rw [ofWord, toUInt8_word_cons, word_cons_div hlen, ofWord_word width (Nat.le_succ_of_le hlen),
      List.take_succ_cons, List.length_cons, Nat.add_sub_add_right, List.cons_append]

namespace Cell

/-- Only integer fields refuse images, and only those longer than a word. -/
theorem decode?_eq_none_iff (type : FieldType) (image : Bytes) :
    decode? type image = none ↔ type.isString = false ∧ 8 < image.length := by
  rcases type with ⟨width, reversed⟩ | _
  · simp [decode?, Bytes.word?, FieldType.isString]
  · simp [decode?, FieldType.isString]

/-- A word comes back from its image cut to the width of the field. -/
theorem decode?_encode_word (width : Width) (reversed : Bool) (w : UInt64) :
    decode? (.int width reversed) (encode (.int width reversed) (.word w)) =
      some (.word ((FieldType.int width reversed).truncate w)) := by
  show (Bytes.ofWord width.bytes w).word?.map _ = _
  rw [Bytes.word?_ofWord width reversed, Option.map_some, FieldType.truncate_truncate]

/-- An image comes back from an integer field cut or filled to the width. -/
theorem map_encode_decode? (width : Width) (reversed : Bool) (image : Bytes) :
    (decode? (.int width reversed) image).map (encode (.int width reversed)) =
      if image.length ≤ 8 then
        some (image.take width.bytes ++ List.replicate (width.bytes - image.length) 0)
      else none := by
  show (image.word?.map _).map _ = _
  by_cases h : image.length ≤ 8
  · rw [Bytes.word?, if_pos h, if_pos h, Option.map_some, Option.map_some, encode_truncate]
    exact congrArg some (Bytes.ofWord_word width.bytes h)
  · rw [Bytes.word?, if_neg h, if_neg h]
    rfl

end Cell

/-- A merge function reads in the image of a word the word cut to the width of the field. -/
theorem Images.uint?_encode (width : Width) (reversed : Bool) (w : UInt64)
    (before after : Images) :
    Images.uint? (before ++ Cell.encode (.int width reversed) (.word w) :: after) before.length =
      some ((FieldType.int width reversed).truncate w) := by
  rw [uint?, bytes?, List.getElem?_append_right (Nat.le_refl _), Nat.sub_self]
  exact Bytes.word?_ofWord width reversed w

/-- **Images round-trip.** Decoding fails exactly for images of more than eight bytes in integer
fields. An image that an integer field takes is written back cut, or filled with zeros at the end,
to the declared width. A word that is written is read back modulo the size of its width, both by
the store and, at whatever place of a row, by a merge function. Strings are their own images. -/
theorem Cell.images_round_trip :
    (∀ (type : FieldType) (image : Bytes),
      decode? type image = none ↔ type.isString = false ∧ 8 < image.length) ∧
    (∀ (width : Width) (reversed : Bool) (image : Bytes),
      (decode? (.int width reversed) image).map (encode (.int width reversed)) =
        if image.length ≤ 8 then
          some (image.take width.bytes ++ List.replicate (width.bytes - image.length) 0)
        else none) ∧
    (∀ (width : Width) (reversed : Bool) (w : UInt64), ∃ cut : UInt64,
      cut.toNat = w.toNat % 2 ^ (8 * width.bytes) ∧
      cut = (FieldType.int width reversed).truncate w ∧
      decode? (.int width reversed) (encode (.int width reversed) (.word w)) = some (.word cut) ∧
      ∀ before after : Images,
        Images.uint? (before ++ encode (.int width reversed) (.word w) :: after) before.length =
          some cut) ∧
    (∀ b : Bytes, encode .string (.bytes b) = b ∧ decode? .string b = some (.bytes b)) :=
  ⟨decode?_eq_none_iff, map_encode_decode?,
    fun width reversed w => ⟨_, FieldType.toNat_truncate width reversed w, rfl,
      decode?_encode_word width reversed w, Images.uint?_encode width reversed w⟩,
    fun _ => ⟨rfl, rfl⟩⟩

end RowStore
