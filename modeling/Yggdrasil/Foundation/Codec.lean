import Mathlib.Tactic

/-!
# Byte strings, big-endian words and LEB128 varints

A `Reader` consumes a prefix of a byte string and returns the unread rest, so
trailing bytes are visible to the caller and never rejected here.  The varint
codec is bounded: `groups` is the largest number of seven-bit groups a word of
the given width may occupy, and `lastMax` bounds the last of them.
-/

namespace Yggdrasil.Foundation

abbrev Bytes := List UInt8

abbrev Reader (α : Type) := Bytes → Option (α × Bytes)

def beBytes : Nat → Nat → Bytes
  | 0, _ => []
  | width + 1, n => UInt8.ofNat (n / 256 ^ width) :: beBytes width n

def beNat (bytes : Bytes) : Nat :=
  bytes.foldl (fun acc byte => acc * 256 + byte.toNat) 0

@[simp] theorem length_beBytes (width n : Nat) :
    (beBytes width n).length = width := by
  induction width with
  | zero => rfl
  | succ width ih => simp [beBytes, ih]

private theorem foldl_beBytes (width n acc : Nat) :
    (beBytes width n).foldl (fun acc byte => acc * 256 + byte.toNat) acc =
      acc * 256 ^ width + n % 256 ^ width := by
  induction width generalizing acc with
  | zero => simp [beBytes, Nat.mod_one]
  | succ width ih =>
      simp only [beBytes, List.foldl_cons, UInt8.toNat_ofNat', ih]
      have hsplit : n % 256 ^ (width + 1) =
          n % 256 ^ width + 256 ^ width * (n / 256 ^ width % 256) := by
        rw [pow_succ, Nat.mod_mul]
      rw [hsplit]
      norm_num
      ring

variable {n groups lastMax : Nat} {bytes rest : Bytes}

theorem beNat_beBytes {width : Nat} (h : n < 256 ^ width) : beNat (beBytes width n) = n := by
  rw [beNat, foldl_beBytes, Nat.mod_eq_of_lt h]
  simp

private theorem foldl_beNat (bytes : Bytes) (acc : Nat) :
    bytes.foldl (fun acc byte => acc * 256 + byte.toNat) acc =
      acc * 256 ^ bytes.length + beNat bytes := by
  unfold beNat
  induction bytes generalizing acc with
  | nil => simp
  | cons byte bytes ih =>
      rw [List.foldl_cons, List.foldl_cons, ih, ih (0 * 256 + byte.toNat), List.length_cons]
      ring

theorem beNat_cons (byte : UInt8) (bytes : Bytes) :
    beNat (byte :: bytes) = byte.toNat * 256 ^ bytes.length + beNat bytes := by
  rw [beNat, List.foldl_cons, Nat.zero_mul, Nat.zero_add, foldl_beNat]

theorem beNat_lt (bytes : Bytes) : beNat bytes < 256 ^ bytes.length := by
  induction bytes with
  | nil => simp [beNat]
  | cons byte bytes ih =>
      have hbyte : byte.toNat + 1 ≤ 256 := byte.toNat_lt
      calc beNat (byte :: bytes) < (byte.toNat + 1) * 256 ^ bytes.length := by
            rw [beNat_cons, Nat.add_mul, Nat.one_mul]
            exact Nat.add_lt_add_left ih _
        _ ≤ 256 * 256 ^ bytes.length := Nat.mul_le_mul_right _ hbyte
        _ = 256 ^ (byte :: bytes).length := by rw [List.length_cons, pow_succ, Nat.mul_comm]

theorem beBytes_mul_add (width high n : Nat) :
    beBytes width (high * 256 ^ width + n) = beBytes width n := by
  induction width generalizing high with
  | zero => rfl
  | succ width ih =>
      have hsplit : high * 256 ^ (width + 1) = high * 256 * 256 ^ width := by ring
      have hhead : (high * 256 * 256 ^ width + n) / 256 ^ width =
          high * 256 + n / 256 ^ width := by
        rw [Nat.add_comm, Nat.add_mul_div_right _ _ (by positivity), Nat.add_comm]
      rw [beBytes, hsplit, hhead, ih, beBytes]
      congr 1
      apply UInt8.toNat_inj.1
      simp [UInt8.toNat_ofNat']

theorem beBytes_beNat (bytes : Bytes) : beBytes bytes.length (beNat bytes) = bytes := by
  induction bytes with
  | nil => rfl
  | cons byte bytes ih =>
      have hhead : (byte.toNat * 256 ^ bytes.length + beNat bytes) / 256 ^ bytes.length =
          byte.toNat := by
        rw [Nat.add_comm, Nat.add_mul_div_right _ _ (by positivity),
          Nat.div_eq_of_lt (beNat_lt bytes), Nat.zero_add]
      rw [beNat_cons, List.length_cons, beBytes, hhead, beBytes_mul_add, ih, UInt8.ofNat_toNat]

def u64ToBe (word : UInt64) : Bytes := beBytes 8 word.toNat

def u64OfBe (bytes : Bytes) : UInt64 := UInt64.ofNat (beNat bytes)

@[simp] theorem length_u64ToBe (word : UInt64) : (u64ToBe word).length = 8 := by
  simp [u64ToBe]

@[simp] theorem u64OfBe_u64ToBe (word : UInt64) : u64OfBe (u64ToBe word) = word := by
  rw [u64OfBe, u64ToBe, beNat_beBytes (by simpa using word.toNat_lt)]
  exact UInt64.ofNat_toNat

theorem u64ToBe_u64OfBe (hlength : bytes.length = 8) : u64ToBe (u64OfBe bytes) = bytes := by
  have hlt : beNat bytes < 2 ^ 64 := by
    have hbytes := beNat_lt bytes
    rwa [hlength] at hbytes
  rw [u64ToBe, u64OfBe, UInt64.toNat_ofNat', Nat.mod_eq_of_lt hlt, ← hlength, beBytes_beNat]

theorem u64ToBe_injective : Function.Injective u64ToBe := by
  intro first second h
  rw [← u64OfBe_u64ToBe first, ← u64OfBe_u64ToBe second, h]

def encodeVarint : Nat → Nat → Bytes
  | 0, _ => []
  | groups + 1, n =>
      if n < 128 then [UInt8.ofNat n]
      else UInt8.ofNat (n % 128 + 128) :: encodeVarint groups (n / 128)

/--
Non-minimal encodings are accepted; an encoding that still continues after the
last group, or whose last group exceeds `lastMax`, is refused.
-/
def decodeVarint (lastMax : Nat) : Nat → Reader Nat
  | 0, _ => none
  | _ + 1, [] => none
  | groups + 1, byte :: rest =>
      if byte.toNat < 128 then
        if groups = 0 ∧ lastMax < byte.toNat then none
        else some (byte.toNat, rest)
      else do
        let (high, rest) ← decodeVarint lastMax groups rest
        some (byte.toNat - 128 + 128 * high, rest)

theorem length_encodeVarint_le (groups n : Nat) : (encodeVarint groups n).length ≤ groups := by
  induction groups generalizing n with
  | zero => simp [encodeVarint]
  | succ groups ih =>
      rw [encodeVarint]
      split
      · simp
      · simpa using ih (n / 128)

theorem encodeVarint_add (h : n < 128 ^ (groups + 1)) (extra : Nat) :
    encodeVarint (groups + 1 + extra) n = encodeVarint (groups + 1) n := by
  induction groups generalizing n with
  | zero =>
      have hn : n < 128 := by omega
      rw [show 0 + 1 + extra = extra + 1 by omega, encodeVarint, encodeVarint, if_pos hn,
        if_pos hn]
  | succ groups ih =>
      have hhigh : n / 128 < 128 ^ (groups + 1) := by
        rw [Nat.div_lt_iff_lt_mul (by decide), ← pow_succ]
        exact h
      rw [show groups + 1 + 1 + extra = groups + 1 + extra + 1 by omega, encodeVarint,
        encodeVarint, ih hhigh]

theorem encodeVarint_ne_nil (groups n : Nat) : encodeVarint (groups + 1) n ≠ [] := by
  rw [encodeVarint]
  split <;> simp

theorem decodeVarint_suffix (hlast : lastMax < 128) (h : n < 128 ^ groups * (lastMax + 1))
    (rest : Bytes) :
    decodeVarint lastMax (groups + 1) (encodeVarint (groups + 1) n ++ rest) =
      some (n, rest) := by
  induction groups generalizing n with
  | zero =>
      have hn : n < 128 := by omega
      have hbyte : (UInt8.ofNat n).toNat = n := by
        rw [UInt8.toNat_ofNat', Nat.mod_eq_of_lt (by omega)]
      simp only [encodeVarint, if_pos hn, List.cons_append, List.nil_append,
        decodeVarint, hbyte]
      rw [if_neg (by omega)]
  | succ groups ih =>
      by_cases hn : n < 128
      · have hbyte : (UInt8.ofNat n).toNat = n := by
          rw [UInt8.toNat_ofNat', Nat.mod_eq_of_lt (by omega)]
        simp [encodeVarint, hn, decodeVarint, hbyte]
      · have hbyte : (UInt8.ofNat (n % 128 + 128)).toNat = n % 128 + 128 := by
          rw [UInt8.toNat_ofNat', Nat.mod_eq_of_lt (by omega)]
        have hhigh : n / 128 < 128 ^ groups * (lastMax + 1) := by
          rw [Nat.div_lt_iff_lt_mul (by decide)]
          calc n < 128 ^ (groups + 1) * (lastMax + 1) := h
            _ = 128 ^ groups * (lastMax + 1) * 128 := by ring
        have htail := ih hhigh
        rw [encodeVarint, if_neg hn, List.cons_append, decodeVarint, hbyte,
          if_neg (by omega), htail]
        simp only [Option.bind_eq_bind, Option.bind_some, Option.some.injEq,
          Prod.mk.injEq, and_true]
        omega

theorem decodeVarint_succ (h : decodeVarint lastMax (groups + 1) bytes = some (n, rest)) :
    ∃ byte tail, bytes = byte :: tail ∧
      ((byte.toNat < 128 ∧ ¬ (groups = 0 ∧ lastMax < n) ∧ n = byte.toNat ∧ rest = tail) ∨
        ∃ high, 128 ≤ byte.toNat ∧ n = byte.toNat - 128 + 128 * high ∧
          decodeVarint lastMax groups tail = some (high, rest)) := by
  cases bytes with
  | nil => simp [decodeVarint] at h
  | cons byte tail =>
      refine ⟨byte, tail, rfl, ?_⟩
      rw [decodeVarint] at h
      split_ifs at h with hlow hlast
      · cases h
        exact .inl ⟨hlow, hlast, rfl, rfl⟩
      · obtain ⟨⟨high, tail'⟩, hhigh, hvalue⟩ := Option.bind_eq_some_iff.1 h
        cases hvalue
        exact .inr ⟨high, Nat.le_of_not_lt hlow, rfl, hhigh⟩

theorem decodeVarint_consumed (h : decodeVarint lastMax groups bytes = some (n, rest)) :
    ∃ init last, bytes = init ++ last :: rest ∧ last.toNat < 128 ∧ last.toNat ≤ n := by
  induction groups generalizing bytes n rest with
  | zero => simp [decodeVarint] at h
  | succ groups ih =>
      obtain ⟨byte, tail, rfl, ⟨hlow, -, rfl, rfl⟩ | ⟨high, -, hvalue, hhigh⟩⟩ :=
        decodeVarint_succ h
      · exact ⟨[], byte, rfl, hlow, le_rfl⟩
      · obtain ⟨init, last, rfl, hlt, hle⟩ := ih hhigh
        exact ⟨byte :: init, last, rfl, hlt, by omega⟩

theorem length_encodeVarint_of_decode (h : decodeVarint lastMax groups bytes = some (n, rest)) :
    (encodeVarint groups n).length + rest.length ≤ bytes.length := by
  induction groups generalizing bytes n rest with
  | zero => simp [decodeVarint] at h
  | succ groups ih =>
      obtain ⟨byte, tail, rfl, ⟨hlow, -, rfl, rfl⟩ | ⟨high, -, hvalue, hhigh⟩⟩ :=
        decodeVarint_succ h
      · rw [encodeVarint, if_pos hlow]
        simp
        omega
      · have hle := ih hhigh
        have hbyte : byte.toNat < 256 := byte.toNat_lt
        have hdiv : n / 128 = high := by omega
        rw [encodeVarint]
        split
        · simp only [List.length_nil, List.length_cons]
          omega
        · rw [hdiv, List.length_cons, List.length_cons]
          omega

theorem lt_of_decodeVarint (h : decodeVarint lastMax (groups + 1) bytes = some (n, rest)) :
    n < 128 ^ groups * (lastMax + 1) := by
  induction groups generalizing bytes n rest with
  | zero =>
      obtain ⟨byte, tail, -, ⟨-, hlast, -⟩ | ⟨high, -, -, hhigh⟩⟩ := decodeVarint_succ h
      · omega
      · simp [decodeVarint] at hhigh
  | succ groups ih =>
      have hpos : 0 < 128 ^ groups * (lastMax + 1) := by positivity
      rw [pow_succ]
      obtain ⟨byte, tail, -, ⟨hlow, -, rfl, -⟩ | ⟨high, -, hvalue, hhigh⟩⟩ := decodeVarint_succ h
      · calc byte.toNat < 128 := hlow
          _ ≤ 128 * (128 ^ groups * (lastMax + 1)) := Nat.le_mul_of_pos_right _ hpos
          _ = 128 ^ groups * 128 * (lastMax + 1) := by ring
      · have hbyte := byte.toNat_lt
        have hbound := ih hhigh
        calc n < 128 * (high + 1) := by omega
          _ ≤ 128 * (128 ^ groups * (lastMax + 1)) := Nat.mul_le_mul_left _ hbound
          _ = 128 ^ groups * 128 * (lastMax + 1) := by ring

def readByte : Reader UInt8
  | [] => none
  | byte :: rest => some (byte, rest)

def readBlock (count : Nat) : Reader Bytes := fun bytes =>
  if count ≤ bytes.length then some (bytes.take count, bytes.drop count) else none

@[simp] theorem readByte_cons (byte : UInt8) (rest : Bytes) :
    readByte (byte :: rest) = some (byte, rest) := rfl

theorem readBlock_consumed {count : Nat} {block : Bytes}
    (h : readBlock count bytes = some (block, rest)) :
    bytes = block ++ rest ∧ block.length = count := by
  unfold readBlock at h
  split_ifs at h with hlength
  simp only [Option.some.injEq, Prod.mk.injEq] at h
  rw [← h.1, ← h.2]
  exact ⟨(List.take_append_drop count bytes).symm, by simpa using hlength⟩

@[simp] theorem readBlock_suffix (block rest : Bytes) :
    readBlock block.length (block ++ rest) = some (block, rest) := by
  simp [readBlock]

end Yggdrasil.Foundation
