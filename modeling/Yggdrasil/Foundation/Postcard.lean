import Yggdrasil.Foundation.Codec

/-!
# The postcard serialisation rules

Unsigned words wider than a byte are varints of their width, a byte is itself,
and a vector or a string is its length followed by its elements.  `fromBytes` decodes a
prefix and ignores the rest, as the deserialiser's entry point does.
-/

namespace Yggdrasil.Foundation.Postcard

open Foundation

def fromBytes {α : Type} (reader : Reader α) (bytes : Bytes) : Option α :=
  (reader bytes).map Prod.fst

def encodeU16 (word : UInt16) : Bytes := encodeVarint 3 word.toNat

def decodeU16 : Reader UInt16 := fun bytes => do
  let (word, rest) ← decodeVarint 3 3 bytes
  some (UInt16.ofNat word, rest)

def encodeU32 (word : UInt32) : Bytes := encodeVarint 5 word.toNat

def decodeU32 : Reader UInt32 := fun bytes => do
  let (word, rest) ← decodeVarint 15 5 bytes
  some (UInt32.ofNat word, rest)

def encodeU64 (word : UInt64) : Bytes := encodeVarint 10 word.toNat

def decodeU64 : Reader UInt64 := fun bytes => do
  let (word, rest) ← decodeVarint 1 10 bytes
  some (UInt64.ofNat word, rest)

/-- Lengths are `usize`, sixty-four bits wide on the supported targets. -/
def encodeLen (len : Nat) : Bytes := encodeVarint 10 len

def decodeLen : Reader Nat := decodeVarint 1 10

@[simp] theorem decodeU16_suffix (word : UInt16) (rest : Bytes) :
    decodeU16 (encodeU16 word ++ rest) = some (word, rest) := by
  have hword : word.toNat < 128 ^ 2 * (3 + 1) := by
    have := word.toNat_lt
    omega
  simp [decodeU16, encodeU16, decodeVarint_suffix (by omega) hword]

@[simp] theorem decodeU32_suffix (word : UInt32) (rest : Bytes) :
    decodeU32 (encodeU32 word ++ rest) = some (word, rest) := by
  have hword : word.toNat < 128 ^ 4 * (15 + 1) := by
    have := word.toNat_lt
    omega
  simp [decodeU32, encodeU32, decodeVarint_suffix (by omega) hword]

@[simp] theorem decodeU64_suffix (word : UInt64) (rest : Bytes) :
    decodeU64 (encodeU64 word ++ rest) = some (word, rest) := by
  have hword : word.toNat < 128 ^ 9 * (1 + 1) := by
    have := word.toNat_lt
    omega
  simp [decodeU64, encodeU64, decodeVarint_suffix (by omega) hword]

theorem decodeLen_suffix {len : Nat} (h : len < 2 ^ 64) (rest : Bytes) :
    decodeLen (encodeLen len ++ rest) = some (len, rest) :=
  decodeVarint_suffix (by omega) (by omega) rest

theorem encodeU32_ne_nil (word : UInt32) : encodeU32 word ≠ [] :=
  encodeVarint_ne_nil 4 word.toNat

theorem encodeU16_eq_encodeLen (word : UInt16) : encodeU16 word = encodeLen word.toNat := by
  have hword : word.toNat < 128 ^ (2 + 1) := by
    have := word.toNat_lt
    omega
  exact (encodeVarint_add hword 7).symm

def encodeVec (bytes : Bytes) : Bytes := encodeLen bytes.length ++ bytes

def decodeVec : Reader Bytes := fun bytes => do
  let (len, rest) ← decodeLen bytes
  readBlock len rest

variable {bytes : Bytes} {α : Type}

theorem decodeVec_suffix (h : bytes.length < 2 ^ 64) (rest : Bytes) :
    decodeVec (encodeVec bytes ++ rest) = some (bytes, rest) := by
  rw [decodeVec, encodeVec, List.append_assoc, decodeLen_suffix h]
  simp

theorem length_encodeU32_of_decode {rest : Bytes} {word : UInt32}
    (h : decodeU32 bytes = some (word, rest)) :
    (encodeU32 word).length + rest.length ≤ bytes.length := by
  simp only [decodeU32, Option.bind_eq_bind, Option.bind_eq_some_iff, Option.some.injEq,
    Prod.mk.injEq] at h
  obtain ⟨⟨value, rest'⟩, hread, rfl, rfl⟩ := h
  have hlt : value < 2 ^ 32 := lt_of_decodeVarint hread
  have hvalue : (UInt32.ofNat value).toNat = value := by
    rw [UInt32.toNat_ofNat', Nat.mod_eq_of_lt hlt]
  rw [encodeU32, hvalue]
  exact length_encodeVarint_of_decode hread

theorem length_encodeVec_of_decode {rest block : Bytes} (h : decodeVec bytes = some (block, rest)) :
    (encodeVec block).length + rest.length ≤ bytes.length := by
  simp only [decodeVec, Option.bind_eq_bind, Option.bind_eq_some_iff] at h
  obtain ⟨⟨len, tail⟩, hlen, hblock⟩ := h
  obtain ⟨rfl, rfl⟩ := readBlock_consumed hblock
  have hread : (encodeLen block.length).length + (block ++ rest).length ≤ bytes.length :=
    length_encodeVarint_of_decode hlen
  rw [List.length_append] at hread
  rw [encodeVec, List.length_append]
  omega

def encodeBool (value : Bool) : Bytes := [if value then 1 else 0]

def decodeBool : Reader Bool := fun bytes => do
  let (byte, rest) ← readByte bytes
  match byte with
  | 0 => some (false, rest)
  | 1 => some (true, rest)
  | _ => none

def encodeOption {α : Type} (encode : α → Bytes) : Option α → Bytes
  | none => [0]
  | some value => 1 :: encode value

def decodeOption {α : Type} (reader : Reader α) : Reader (Option α) := fun bytes => do
  let (present, rest) ← decodeBool bytes
  if present then do
    let (value, rest) ← reader rest
    some (some value, rest)
  else some (none, rest)

def strBytes (text : String) : Bytes := text.toUTF8.data.toList

theorem strBytes_injective : Function.Injective strBytes := by
  intro first second h
  exact String.toByteArray_inj.1 (ByteArray.ext (Array.toList_inj.1 h))

def encodeStr (text : String) : Bytes := encodeVec (strBytes text)

def decodeStr : Reader String := fun bytes => do
  let (block, rest) ← decodeVec bytes
  let text ← String.fromUTF8? ⟨block.toArray⟩
  some (text, rest)

def readMany {α : Type} (reader : Reader α) : Nat → Reader (List α)
  | 0, bytes => some ([], bytes)
  | count + 1, bytes => do
      let (item, bytes) ← reader bytes
      let (items, rest) ← readMany reader count bytes
      some (item :: items, rest)

def encodeSeq {α : Type} (encode : α → Bytes) (items : List α) : Bytes :=
  encodeLen items.length ++ items.flatMap encode

def decodeSeq {α : Type} (reader : Reader α) : Reader (List α) := fun bytes => do
  let (len, bytes) ← decodeLen bytes
  readMany reader len bytes

@[simp] theorem decodeBool_suffix (value : Bool) (rest : Bytes) :
    decodeBool (encodeBool value ++ rest) = some (value, rest) := by
  cases value <;> rfl

theorem decodeOption_suffix {encode : α → Bytes} {reader : Reader α}
    (h : ∀ value rest, reader (encode value ++ rest) = some (value, rest)) (value : Option α)
    (rest : Bytes) :
    decodeOption reader (encodeOption encode value ++ rest) = some (value, rest) := by
  cases value with
  | none => rfl
  | some value =>
      rw [encodeOption, List.cons_append, decodeOption,
        show decodeBool (1 :: (encode value ++ rest)) = some (true, encode value ++ rest) from rfl]
      simp [h]

theorem decodeStr_suffix {text : String} (h : (strBytes text).length < 2 ^ 64) (rest : Bytes) :
    decodeStr (encodeStr text ++ rest) = some (text, rest) := by
  have htext : String.fromUTF8? ⟨(strBytes text).toArray⟩ = some text :=
    dif_pos text.isValidUTF8
  simp [decodeStr, encodeStr, decodeVec_suffix h, htext]

theorem readMany_suffix {encode : α → Bytes} {reader : Reader α} {items : List α}
    (h : ∀ item ∈ items, ∀ rest, reader (encode item ++ rest) = some (item, rest)) (rest : Bytes) :
    readMany reader items.length (items.flatMap encode ++ rest) = some (items, rest) := by
  induction items with
  | nil => rfl
  | cons item items ih =>
      rw [List.forall_mem_cons] at h
      rw [List.flatMap_cons, List.append_assoc, List.length_cons, readMany, h.1]
      simp [ih h.2]

theorem decodeSeq_suffix {encode : α → Bytes} {reader : Reader α} {items : List α}
    (hlength : items.length < 2 ^ 64)
    (h : ∀ item ∈ items, ∀ rest, reader (encode item ++ rest) = some (item, rest)) (rest : Bytes) :
    decodeSeq reader (encodeSeq encode items ++ rest) = some (items, rest) := by
  rw [decodeSeq, encodeSeq, List.append_assoc, decodeLen_suffix hlength]
  exact readMany_suffix h rest

end Yggdrasil.Foundation.Postcard
