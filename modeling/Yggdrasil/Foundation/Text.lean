import Mathlib.Data.List.DropRight
import Mathlib.Tactic

/-!
# Text

Strings as lists of Unicode scalar values, with the few operations of the
standard library that the daemon's parsers use.
-/

namespace Yggdrasil.Foundation

abbrev Text := List Char

namespace Text

def isWhitespace (c : Char) : Bool :=
  let n := c.toNat
  (0x09 ≤ n && n ≤ 0x0d) || n == 0x20 || n == 0x85 || n == 0xa0 || n == 0x1680 ||
    (0x2000 ≤ n && n ≤ 0x200a) || n == 0x2028 || n == 0x2029 || n == 0x202f ||
    n == 0x205f || n == 0x3000

def isControl (c : Char) : Bool :=
  let n := c.toNat
  n ≤ 0x1f || (0x7f ≤ n && n ≤ 0x9f)

def trim (text : Text) : Text :=
  (text.dropWhile isWhitespace).rdropWhile isWhitespace

def asciiLower (c : Char) : Char :=
  if 'A' ≤ c ∧ c ≤ 'Z' then Char.ofNat (c.toNat + 32) else c

def toAsciiLowercase (text : Text) : Text := text.map asciiLower

def splitOnce (separator : Char) (text : Text) : Option (Text × Text) :=
  match text.span (fun c => c != separator) with
  | (_, []) => none
  | (before, _ :: after) => some (before, after)

def rsplitOnce (separator : Char) (text : Text) : Option (Text × Text) :=
  (splitOnce separator text.reverse).map (fun parts => (parts.2.reverse, parts.1.reverse))

def isAsciiDigit (c : Char) : Bool := '0' ≤ c && c ≤ '9'

def isAsciiAlphanumeric (c : Char) : Bool :=
  isAsciiDigit c || ('a' ≤ c && c ≤ 'z') || ('A' ≤ c && c ≤ 'Z')

def digitsValue (text : Text) : Nat :=
  text.foldl (fun acc c => acc * 10 + (c.toNat - '0'.toNat)) 0

def parseU16 (text : Text) : Option UInt16 :=
  let digits := if text.head? = some '+' then text.tail else text
  if digits ≠ [] ∧ digits.all isAsciiDigit ∧ digitsValue digits < 2 ^ 16 then
    some (UInt16.ofNat (digitsValue digits))
  else none

def utf8Len (text : Text) : Nat := (text.map Char.utf8Size).sum

def isAsciiHexdigit (c : Char) : Bool :=
  ('0' ≤ c && c ≤ '9') || ('a' ≤ c && c ≤ 'f') || ('A' ≤ c && c ≤ 'F')

def hexDigit (n : Nat) : Char :=
  if n < 10 then Char.ofNat ('0'.toNat + n) else Char.ofNat ('a'.toNat + (n - 10))

def hexEncode (bytes : List UInt8) : Text :=
  bytes.flatMap (fun byte => [hexDigit (byte.toNat / 16), hexDigit (byte.toNat % 16)])

variable {text before after : Text} {c separator : Char}

theorem utf8_of_ascii (h : ∀ c ∈ text, c.toNat < 128) :
    text.flatMap String.utf8EncodeChar = text.map (fun c => UInt8.ofNat c.toNat) := by
  induction text with
  | nil => rfl
  | cons c rest ih =>
      rw [List.forall_mem_cons] at h
      have hc : String.utf8EncodeChar c = [UInt8.ofNat c.toNat] := by
        simp only [String.utf8EncodeChar]
        rw [if_pos (by have := h.1; simp only [Char.toNat] at this; omega)]
        rfl
      rw [List.flatMap_cons, hc, ih h.2]
      rfl

theorem utf8Len_of_ascii (h : ∀ c ∈ text, c.toNat < 128) : utf8Len text = text.length := by
  induction text with
  | nil => rfl
  | cons c rest ih =>
      rw [List.forall_mem_cons] at h
      have hc : c.utf8Size = 1 := by
        rw [Char.utf8Size_eq_one_iff, UInt32.le_iff_toNat_le]
        exact Nat.le_of_lt_succ h.1
      rw [utf8Len, List.map_cons, List.sum_cons, hc, List.length_cons, Nat.add_comm]
      exact congrArg (· + 1) (ih h.2)

theorem toNat_lt_of_isAsciiHexdigit (h : isAsciiHexdigit c = true) : c.toNat < 128 := by
  simp only [isAsciiHexdigit, Bool.or_eq_true, Bool.and_eq_true, decide_eq_true_eq, Char.le_def,
    UInt32.le_iff_toNat_le] at h
  have hbound : c.toNat ≤ 'f'.toNat := by
    rcases h with (h | h) | h
    · exact h.2.trans (by decide)
    · exact h.2
    · exact h.2.trans (by decide)
  exact hbound.trans_lt (by decide)

theorem utf8Encode_eq (text : Text) :
    (⟨(text.flatMap String.utf8EncodeChar).toArray⟩ : ByteArray) = text.utf8Encode := by
  rw [List.utf8Encode]
  ext1
  simp

theorem fromUTF8?_utf8 (text : Text) :
    String.fromUTF8? ⟨(text.flatMap String.utf8EncodeChar).toArray⟩ =
      some (String.ofList text) := by
  rw [utf8Encode_eq, String.fromUTF8?, dif_pos ⟨text, rfl⟩]
  rfl

theorem fromUTF8?_eq_some_iff {bytes : List UInt8} {body : String} :
    String.fromUTF8? ⟨bytes.toArray⟩ = some body ↔
      bytes = body.toList.flatMap String.utf8EncodeChar := by
  constructor
  · intro h
    have hvalid : ByteArray.IsValidUTF8 ⟨bytes.toArray⟩ := by
      by_contra hinvalid
      rw [String.fromUTF8?, dif_neg hinvalid] at h
      cases h
    obtain ⟨text, htext⟩ := hvalid
    rw [← utf8Encode_eq, ByteArray.mk.injEq] at htext
    have hbytes : bytes = text.flatMap String.utf8EncodeChar := List.toArray_inj htext
    rw [hbytes, fromUTF8?_utf8] at h
    rw [hbytes, ← Option.some.inj h, String.toList_ofList]
  · rintro rfl
    rw [fromUTF8?_utf8, String.ofList_toList]

theorem splitOnce_append (h : separator ∉ before) :
    splitOnce separator (before ++ separator :: after) = some (before, after) := by
  have hall : ∀ c ∈ before, (c != separator) = true := by
    intro c hc
    simpa using fun heq : c = separator => h (heq ▸ hc)
  have htake : (before ++ separator :: after).takeWhile (fun c => c != separator) = before := by
    rw [List.takeWhile_append_of_pos hall, List.takeWhile_cons_of_neg (by simp), List.append_nil]
  have hdrop : (before ++ separator :: after).dropWhile (fun c => c != separator) =
      separator :: after := by
    rw [List.dropWhile_append_of_pos hall, List.dropWhile_cons_of_neg (by simp)]
  rw [splitOnce, List.span_eq_takeWhile_dropWhile, htake, hdrop]

theorem splitOnce_of_notMem (h : separator ∉ text) : splitOnce separator text = none := by
  have hdrop : text.dropWhile (fun c => c != separator) = [] := by
    rw [List.dropWhile_eq_nil_iff]
    intro c hc
    simpa using fun heq : c = separator => h (heq ▸ hc)
  rw [splitOnce, List.span_eq_takeWhile_dropWhile, hdrop]

theorem rsplitOnce_append (h : separator ∉ after) :
    rsplitOnce separator (before ++ separator :: after) = some (before, after) := by
  have hreverse : (before ++ separator :: after).reverse =
      after.reverse ++ separator :: before.reverse := by simp
  rw [rsplitOnce, hreverse, splitOnce_append (by simpa using h), Option.map_some,
    List.reverse_reverse, List.reverse_reverse]

theorem rsplitOnce_of_notMem (h : separator ∉ text) : rsplitOnce separator text = none := by
  rw [rsplitOnce, splitOnce_of_notMem (by simpa using h), Option.map_none]

theorem eq_of_splitOnce (h : splitOnce separator text = some (before, after)) :
    text = before ++ separator :: after ∧ separator ∉ before := by
  rw [splitOnce, List.span_eq_takeWhile_dropWhile] at h
  split at h
  · cases h
  · rename_i found first rest hspan
    cases h
    obtain ⟨htake, hdrop⟩ := Prod.mk.inj hspan
    have hfirst : first = separator := by
      have hstop := List.head?_dropWhile_not (fun c => c != separator) text
      rw [hdrop] at hstop
      simpa using hstop
    refine ⟨?_, ?_⟩
    · rw [← hfirst, ← htake, ← hdrop, List.takeWhile_append_dropWhile]
    · intro hmem
      rw [← htake] at hmem
      simpa using List.mem_takeWhile_imp hmem

theorem eq_of_rsplitOnce (h : rsplitOnce separator text = some (before, after)) :
    text = before ++ separator :: after ∧ separator ∉ after := by
  obtain ⟨⟨last, first⟩, hsplit, hparts⟩ := Option.map_eq_some_iff.1 h
  cases hparts
  obtain ⟨htext, hmem⟩ := eq_of_splitOnce hsplit
  refine ⟨?_, by simpa using hmem⟩
  rw [← List.reverse_reverse text, htext]
  simp

theorem exists_mem_splitOn (hc : c ∈ text)
    (hne : c ≠ separator) : ∃ piece ∈ text.splitOn separator, c ∈ piece := by
  induction text with
  | nil => cases hc
  | cons first rest ih =>
      rw [List.splitOn_cons_eq_if_modifyHead]
      obtain ⟨head, pieces, hpieces⟩ :=
        List.exists_cons_of_ne_nil (List.splitOn_ne_nil separator rest)
      rcases List.mem_cons.1 hc with rfl | hrest
      · rw [if_neg (by simpa using hne), hpieces, List.modifyHead_cons]
        exact ⟨_, List.mem_cons_self, List.mem_cons_self⟩
      · obtain ⟨piece, hpiece, hmem⟩ := ih hrest
        split
        · exact ⟨piece, List.mem_cons_of_mem _ hpiece, hmem⟩
        · rw [hpieces] at hpiece ⊢
          rw [List.modifyHead_cons]
          rcases List.mem_cons.1 hpiece with rfl | hlater
          · exact ⟨_, List.mem_cons_self, List.mem_cons_of_mem _ hmem⟩
          · exact ⟨piece, List.mem_cons_of_mem _ hlater, hmem⟩

theorem dropWhile_congr {p q : Char → Bool} (h : ∀ c ∈ text, p c = q c) :
    text.dropWhile p = text.dropWhile q := by
  induction text with
  | nil => rfl
  | cons c rest ih =>
      rw [List.forall_mem_cons] at h
      rw [List.dropWhile_cons, List.dropWhile_cons, h.1, ih h.2]

theorem mem_of_mem_splitOnP {p : Char → Bool} {piece : Text} (hpiece : piece ∈ text.splitOnP p)
    (hc : c ∈ piece) : c ∈ text := by
  induction text generalizing piece with
  | nil =>
      rw [List.splitOnP_nil, List.mem_singleton] at hpiece
      rwa [hpiece] at hc
  | cons first rest ih =>
      rw [List.splitOnP_cons_eq_if_modifyHead] at hpiece
      obtain ⟨head, pieces, hpieces⟩ := List.exists_cons_of_ne_nil (List.splitOnP_ne_nil p rest)
      split at hpiece
      · rcases List.mem_cons.1 hpiece with rfl | hlater
        · cases hc
        · exact List.mem_cons_of_mem _ (ih hlater hc)
      · rw [hpieces, List.modifyHead_cons] at hpiece
        rcases List.mem_cons.1 hpiece with rfl | hlater
        · rcases List.mem_cons.1 hc with rfl | hrest
          · exact List.mem_cons_self
          · exact List.mem_cons_of_mem _ (ih (hpieces ▸ List.mem_cons_self) hrest)
        · exact List.mem_cons_of_mem _ (ih (hpieces ▸ List.mem_cons_of_mem _ hlater) hc)

theorem mem_of_mem_splitOn {piece : Text} (hpiece : piece ∈ text.splitOn separator)
    (hc : c ∈ piece) : c ∈ text := by
  rw [List.splitOn_eq_splitOnP] at hpiece
  exact mem_of_mem_splitOnP hpiece hc

end Text

end Yggdrasil.Foundation
