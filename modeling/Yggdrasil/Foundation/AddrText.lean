import Mathlib.Tactic
import Yggdrasil.Foundation.Codec
import Yggdrasil.Foundation.Net
import Yggdrasil.Foundation.Text

/-!
# Addresses as text

A notation for IP addresses is a formatter and a parser for each family with
the parser inverse to the formatter.  Most results need nothing more, so they
hold of every notation; `StdAddr` gives the one of the standard library.
-/

namespace Yggdrasil.Foundation

structure AddrText where
  formatV4 : UInt32 → Text
  formatV6 : BitVec 128 → Text
  parseV4 : Text → Option UInt32
  parseV6 : Text → Option (BitVec 128)
  parse_formatV4 : ∀ bits, parseV4 (formatV4 bits) = some bits
  parse_formatV6 : ∀ bits, parseV6 (formatV6 bits) = some bits
  formatV4_chars : ∀ bits, ∀ c ∈ formatV4 bits, Text.isAsciiDigit c ∨ c = '.'
  formatV6_chars : ∀ bits, ∀ c ∈ formatV6 bits, Text.isAsciiHexdigit c ∨ c = '.' ∨ c = ':'
  /-- The colon tells the two families apart. -/
  colon_mem_formatV6 : ∀ bits, ':' ∈ formatV6 bits

namespace AddrText

variable (text : AddrText)

def format : IpAddr → Text
  | .v4 bits => text.formatV4 bits
  | .v6 bits => text.formatV6 bits

theorem formatV4_ne_formatV6 (bits : UInt32) (bits' : BitVec 128) :
    text.formatV4 bits ≠ text.formatV6 bits' := by
  intro h
  have hcolon := text.colon_mem_formatV6 bits'
  rw [← h] at hcolon
  have hchar := text.formatV4_chars bits ':' hcolon
  revert hchar
  decide

theorem format_injective : Function.Injective text.format := by
  intro first second h
  cases first with
  | v4 bits =>
      cases second with
      | v4 bits' =>
          have hparse := text.parse_formatV4 bits
          rw [show text.formatV4 bits = text.formatV4 bits' from h, text.parse_formatV4] at hparse
          rw [Option.some.inj hparse]
      | v6 bits' => exact absurd h (text.formatV4_ne_formatV6 bits bits')
  | v6 bits =>
      cases second with
      | v4 bits' => exact absurd h.symm (text.formatV4_ne_formatV6 bits' bits)
      | v6 bits' =>
          have hparse := text.parse_formatV6 bits
          rw [show text.formatV6 bits = text.formatV6 bits' from h, text.parse_formatV6] at hparse
          rw [Option.some.inj hparse]

theorem format_printable (ip : IpAddr) : ∀ c ∈ text.format ip, 32 < c.toNat ∧ c.toNat < 127 := by
  have range : ∀ {low high c : Char}, low ≤ c ∧ c ≤ high → 32 < low.toNat → high.toNat < 127 →
      32 < c.toNat ∧ c.toNat < 127 := by
    intro low high c hc hlow hhigh
    rw [Char.le_def, Char.le_def, UInt32.le_iff_toNat_le, UInt32.le_iff_toNat_le] at hc
    exact ⟨hlow.trans_le hc.1, hc.2.trans_lt hhigh⟩
  intro c hc
  cases ip with
  | v4 bits =>
      rcases text.formatV4_chars bits c hc with hdigit | rfl
      · simp only [Text.isAsciiDigit, Bool.and_eq_true, decide_eq_true_eq] at hdigit
        exact range hdigit (by decide) (by decide)
      · decide
  | v6 bits =>
      rcases text.formatV6_chars bits c hc with hdigit | rfl | rfl
      · simp only [Text.isAsciiHexdigit, Bool.or_eq_true, Bool.and_eq_true,
          decide_eq_true_eq] at hdigit
        rcases hdigit with (hdigit | hdigit) | hdigit
        all_goals exact range hdigit (by decide) (by decide)
      · decide
      · decide

def hexValue (c : Char) : Nat :=
  if Text.isAsciiDigit c then c.toNat - '0'.toNat else c.toNat - 'a'.toNat + 10

def hexDecode : Text → Bytes
  | high :: low :: rest => UInt8.ofNat (16 * hexValue high + hexValue low) :: hexDecode rest
  | _ => []

theorem hexValue_hexDigit {n : Nat} (h : n < 16) : hexValue (Text.hexDigit n) = n := by
  revert h
  revert n
  decide

theorem hexDecode_hexEncode (bytes : Bytes) : hexDecode (Text.hexEncode bytes) = bytes := by
  induction bytes with
  | nil => rfl
  | cons byte rest ih =>
      have hbyte : byte.toNat < 256 := byte.toNat_lt
      have hhigh : byte.toNat / 16 < 16 := by omega
      have hlow : byte.toNat % 16 < 16 := by omega
      change UInt8.ofNat (16 * hexValue (Text.hexDigit (byte.toNat / 16)) +
        hexValue (Text.hexDigit (byte.toNat % 16))) :: hexDecode (Text.hexEncode rest) = _
      rw [ih, hexValue_hexDigit hhigh, hexValue_hexDigit hlow, Nat.div_add_mod, UInt8.ofNat_toNat]

variable {c : Char}

theorem isAsciiHexdigit_of_mem_hexEncode {bytes : Bytes}
    (h : c ∈ Text.hexEncode bytes) : Text.isAsciiHexdigit c := by
  have hdigit : ∀ n, n < 16 → Text.isAsciiHexdigit (Text.hexDigit n) := by decide
  obtain ⟨byte, -, hc⟩ := List.mem_flatMap.1 h
  have hbyte : byte.toNat < 256 := byte.toNat_lt
  rcases List.mem_pair.1 hc with rfl | rfl
  · exact hdigit _ (by omega)
  · exact hdigit _ (by omega)

theorem isAsciiDigit_of_mem_toDigits {n : Nat} (h : c ∈ Nat.toDigits 10 n) :
    Text.isAsciiDigit c := by
  have hdigit := Nat.isDigit_of_mem_toDigits (by decide) (by decide) h
  simpa [Char.isDigit, Text.isAsciiDigit, Char.le_def] using hdigit

theorem digitsValue_toDigits (n : Nat) : Text.digitsValue (Nat.toDigits 10 n) = n := by
  have hdigits : Nat.ofDigitChars 10 (Nat.toDigits 10 n) 0 = n :=
    Nat.ofDigitChars_toDigits (by decide) (by decide)
  simpa only [Nat.ofDigitChars, Text.digitsValue, Nat.mul_comm] using hdigits

theorem parseU16_toDigits (n : UInt16) : Text.parseU16 (Nat.toDigits 10 n.toNat) = some n := by
  have hdigit : ∀ c ∈ Nat.toDigits 10 n.toNat, Text.isAsciiDigit c := fun c hc =>
    isAsciiDigit_of_mem_toDigits hc
  have hvalue := digitsValue_toDigits n.toNat
  have hsign : ¬ (Nat.toDigits 10 n.toNat).head? = some '+' := fun h =>
    absurd (hdigit '+' (List.mem_of_mem_head? h)) (by decide)
  have hsmall : Text.digitsValue (Nat.toDigits 10 n.toNat) < 2 ^ 16 := by
    rw [hvalue]
    exact n.toNat_lt
  rw [Text.parseU16, if_neg hsign,
    if_pos ⟨Nat.toDigits_ne_nil, List.all_eq_true.2 hdigit, hsmall⟩, hvalue, UInt16.ofNat_toNat]

theorem mem_intercalate {separator : Char} {groups : List Text}
    (h : c ∈ [separator].intercalate groups) : c = separator ∨ ∃ group ∈ groups, c ∈ group := by
  induction groups with
  | nil => simp [List.intercalate] at h
  | cons first rest ih =>
      cases rest with
      | nil => exact .inr ⟨first, List.mem_cons_self, by simpa [List.intercalate] using h⟩
      | cons second rest =>
          rw [List.intercalate_cons_cons, List.append_assoc, List.mem_append, List.mem_append,
            List.mem_singleton] at h
          rcases h with hfirst | hsep | hrest
          · exact .inr ⟨first, List.mem_cons_self, hfirst⟩
          · exact .inl hsep
          · exact (ih hrest).imp_right fun ⟨group, hgroup, hc⟩ =>
              ⟨group, List.mem_cons_of_mem _ hgroup, hc⟩

end AddrText

end Yggdrasil.Foundation
