import Yggdrasil.Foundation.AddrText

/-!
# The standard library's notation for addresses

IPv4 addresses are four decimal octets.  IPv6 addresses are eight hexadecimal
groups; the longest run of at least two zero groups, the first of several, is
written `::`, and an address that maps an IPv4 address ends in its octets.  The
parser takes back what the formatter writes, and longer forms besides.

A reader that fails leaves the text as it was, so a failed attempt at embedded
octets is followed by an attempt at a group.
-/

namespace Yggdrasil.Foundation

abbrev TextReader (α : Type) := Text → Option (α × Text)

namespace StdAddr

def places (base : Nat) : Nat → Nat → List Nat
  | 0, _ => []
  | width + 1, n => n / base ^ width % base :: places base width n

def value (base : Nat) (digits : List Nat) : Nat :=
  digits.foldl (fun acc digit => acc * base + digit) 0

@[simp] theorem length_places (base width n : Nat) : (places base width n).length = width := by
  induction width with
  | zero => rfl
  | succ width ih => simp [places, ih]

variable {n index : Nat} {rest : Text} {c : Char} {groups : List Nat}

theorem lt_of_mem_places {base width digit : Nat} (hbase : 0 < base)
    (h : digit ∈ places base width n) : digit < base := by
  induction width with
  | zero => cases h
  | succ width ih =>
      rcases List.mem_cons.1 h with rfl | hrest
      · exact Nat.mod_lt _ hbase
      · exact ih hrest

theorem value_places {base width : Nat} (h : n < base ^ width) :
    value base (places base width n) = n := by
  have hfold : ∀ acc, (places base width n).foldl (fun acc digit => acc * base + digit) acc =
      acc * base ^ width + n % base ^ width := by
    clear h
    induction width with
    | zero => intro acc; simp [places, Nat.mod_one]
    | succ width ih =>
        intro acc
        rw [places, List.foldl_cons, ih, pow_succ, Nat.mod_mul]
        ring
  rw [value, hfold, Nat.mod_eq_of_lt h, Nat.zero_mul, Nat.zero_add]

def digitOf (radix : Nat) (c : Char) : Option Nat :=
  let digit :=
    if '0' ≤ c && c ≤ '9' then c.toNat - '0'.toNat
    else if 'a' ≤ c && c ≤ 'z' then c.toNat - 'a'.toNat + 10
    else if 'A' ≤ c && c ≤ 'Z' then c.toNat - 'A'.toNat + 10
    else radix
  if digit < radix then some digit else none

def readDigits (radix maxDigits : Nat) : Nat → Nat → Text → Option (Nat × Nat × Text)
  | acc, count, [] => some (acc, count, [])
  | acc, count, c :: rest =>
      match digitOf radix c with
      | none => some (acc, count, c :: rest)
      | some digit =>
          if maxDigits < count + 1 then none
          else readDigits radix maxDigits (acc * radix + digit) (count + 1) rest

def readNumber (radix maxDigits : Nat) (allowZeroPrefix : Bool) (bound : Nat) : TextReader Nat :=
  fun text =>
    match readDigits radix maxDigits 0 0 text with
    | none => none
    | some (number, count, rest) =>
        if count = 0 then none
        else if !allowZeroPrefix && text.head? == some '0' && 1 < count then none
        else if number < bound then some (number, rest) else none

def readSeparator {α : Type} (separator : Char) (index : Nat) (inner : TextReader α) :
    TextReader α := fun text =>
  if index = 0 then inner text
  else
    match text with
    | [] => none
    | c :: rest => if c = separator then inner rest else none

def joined (separator : Char) (word : Nat → Text) : Nat → List Nat → Text
  | _, [] => []
  | index, item :: items =>
      (if index = 0 then word item else separator :: word item) ++
        joined separator word (index + 1) items

def octets (n : Nat) : List Nat := places 256 4 n

def formatOctets (octets : List Nat) : Text := joined '.' (Nat.toDigits 10) 0 octets

def formatV4 (bits : UInt32) : Text := formatOctets (octets bits.toNat)

def readOctets : Nat → Nat → TextReader (List Nat)
  | _, 0, text => some ([], text)
  | index, remaining + 1, text => do
      let (octet, text) ← readSeparator '.' index (readNumber 10 3 false 256) text
      let (octets, text) ← readOctets (index + 1) remaining text
      some (octet :: octets, text)

def readV4 : TextReader (List Nat) := readOctets 0 4

def parseV4 (text : Text) : Option UInt32 :=
  if 15 < Text.utf8Len text then none
  else
    match readV4 text with
    | some (octets, []) => some (.ofNat (value 256 octets))
    | _ => none

def segments (n : Nat) : List Nat := places 65536 8 n

structure Span where
  start : Nat
  len : Nat
  deriving DecidableEq, Repr

def longestZeros : Nat → Span → Span → List Nat → Span
  | _, longest, _, [] => longest
  | index, longest, current, segment :: rest =>
      if segment = 0 then
        let current : Span := ⟨if current.len = 0 then index else current.start, current.len + 1⟩
        longestZeros (index + 1) (if longest.len < current.len then current else longest) current
          rest
      else longestZeros (index + 1) longest ⟨0, 0⟩ rest

def formatSegments (segments : List Nat) : Text := joined ':' (Nat.toDigits 16) 0 segments

def mappedHead : List Nat := [0, 0, 0, 0, 0, 0xffff]

def splitSegment (segment : Nat) : List Nat := [segment / 256, segment % 256]

def formatV6 (bits : BitVec 128) : Text :=
  let segments := segments bits.toNat
  if segments.take 6 = mappedHead then
    "::ffff:".toList ++ formatOctets ((segments.drop 6).flatMap splitSegment)
  else
    let zeroes := longestZeros 0 ⟨0, 0⟩ ⟨0, 0⟩ segments
    if 1 < zeroes.len then
      formatSegments (segments.take zeroes.start) ++
        ':' :: ':' :: formatSegments (segments.drop (zeroes.start + zeroes.len))
    else formatSegments segments

def joinOctets : List Nat → List Nat
  | first :: second :: rest => (first * 256 + second) :: joinOctets rest
  | _ => []

def readGroups : Nat → Nat → Text → List Nat × Bool × Text
  | _, 0, text => ([], false, text)
  | index, remaining + 1, text =>
      -- embedded octets fill two groups
      match if 0 < remaining then readSeparator ':' index readV4 text else none with
      | some (octets, rest) => (joinOctets octets, true, rest)
      | none =>
          match readSeparator ':' index (readNumber 16 4 true 65536) text with
          | some (group, rest) =>
              let (groups, embedded, rest) := readGroups (index + 1) remaining rest
              (group :: groups, embedded, rest)
          | none => ([], false, text)

def readV6 : TextReader (List Nat) := fun text =>
  let (head, embedded, rest) := readGroups 0 8 text
  if head.length = 8 then some (head, rest)
  else if embedded then none
  else
    match rest with
    | ':' :: ':' :: rest =>
        let (tail, _, rest) := readGroups 0 (8 - (head.length + 1)) rest
        some (head ++ List.replicate (8 - head.length - tail.length) 0 ++ tail, rest)
    | _ => none

def parseV6 (text : Text) : Option (BitVec 128) :=
  match readV6 text with
  | some (segments, []) => some (.ofNat 128 (value 65536 segments))
  | _ => none

section

variable {radix : Nat}

theorem digitOf_digitChar (hradix : radix ≤ 16) {digit : Nat} (h : digit < radix) :
    digitOf radix (Nat.digitChar digit) = some digit := by
  have hall : ∀ radix ≤ 16, ∀ digit < radix, digitOf radix (Nat.digitChar digit) = some digit := by
    decide
  exact hall radix hradix digit h

variable {n maxDigits : Nat} {rest : Text}

theorem exists_digit_of_mem_toDigits (hbase : 1 < radix) {c : Char}
    (h : c ∈ Nat.toDigits radix n) : ∃ digit < radix, c = Nat.digitChar digit := by
  induction n using Nat.strong_induction_on with
  | _ n ih =>
      by_cases hlt : n < radix
      · rw [Nat.toDigits_of_lt_base hlt, List.mem_singleton] at h
        exact ⟨n, hlt, h⟩
      · rw [Nat.toDigits_of_base_le hbase (Nat.not_lt.1 hlt), List.mem_append,
          List.mem_singleton] at h
        rcases h with hhigh | hlow
        · exact ih (n / radix) (Nat.div_lt_self (by omega) hbase) hhigh
        · exact ⟨n % radix, Nat.mod_lt _ (by omega), hlow⟩

theorem isSome_digitOf_of_mem_toDigits (hbase : 1 < radix) (hradix : radix ≤ 16) {c : Char}
    (h : c ∈ Nat.toDigits radix n) : (digitOf radix c).isSome := by
  obtain ⟨digit, hdigit, rfl⟩ := exists_digit_of_mem_toDigits hbase h
  rw [digitOf_digitChar hradix hdigit]
  rfl

theorem foldl_toDigits (hbase : 1 < radix) (hradix : radix ≤ 16) (n : Nat) :
    (Nat.toDigits radix n).foldl (fun acc c => acc * radix + (digitOf radix c).getD 0) 0 = n := by
  induction n using Nat.strong_induction_on with
  | _ n ih =>
      by_cases hlt : n < radix
      · rw [Nat.toDigits_of_lt_base hlt]
        simp [digitOf_digitChar hradix hlt]
      · rw [Nat.toDigits_of_base_le hbase (Nat.not_lt.1 hlt), List.foldl_append,
          ih (n / radix) (Nat.div_lt_self (by omega) hbase), List.foldl_cons, List.foldl_nil,
          digitOf_digitChar hradix (Nat.mod_lt _ (by omega)), Option.getD_some]
        exact Nat.div_add_mod' n radix

theorem head?_toDigits_ne_zero (hbase : 1 < radix) (hradix : radix ≤ 16) (hn : n ≠ 0) :
    (Nat.toDigits radix n).head? ≠ some '0' := by
  have hdigit : ∀ d < 16, d ≠ 0 → Nat.digitChar d ≠ '0' := by decide
  induction n using Nat.strong_induction_on with
  | _ n ih =>
      by_cases hlt : n < radix
      · rw [Nat.toDigits_of_lt_base hlt]
        exact fun h => hdigit n (by omega) hn (Option.some.inj h)
      · rw [Nat.toDigits_of_base_le hbase (Nat.not_lt.1 hlt),
          List.head?_append_of_ne_nil _ Nat.toDigits_ne_nil]
        refine ih (n / radix) (Nat.div_lt_self (by omega) hbase) ?_
        have hpos := Nat.div_pos (Nat.not_lt.1 hlt) (by omega)
        omega

def Stops (radix : Nat) (rest : Text) : Prop := ∀ c ∈ rest.head?, digitOf radix c = none

theorem stops_nil : Stops radix [] := fun c hc => by cases hc

theorem readDigits_of_stops (h : Stops radix rest)
    (acc count : Nat) : readDigits radix maxDigits acc count rest = some (acc, count, rest) := by
  cases rest with
  | nil => rfl
  | cons c rest =>
      have hstop : digitOf radix c = none := h c rfl
      simp [readDigits, hstop]

theorem readDigits_append {word : Text} (hword : ∀ c ∈ word, (digitOf radix c).isSome)
    (hrest : Stops radix rest) (acc count : Nat) (hcount : count + word.length ≤ maxDigits) :
    readDigits radix maxDigits acc count (word ++ rest) =
      some (word.foldl (fun acc c => acc * radix + (digitOf radix c).getD 0) acc,
        count + word.length, rest) := by
  induction word generalizing acc count with
  | nil => exact readDigits_of_stops hrest acc count
  | cons c word ih =>
      rw [List.forall_mem_cons] at hword
      rw [List.length_cons] at hcount
      obtain ⟨digit, hdigit⟩ := Option.isSome_iff_exists.1 hword.1
      rw [List.cons_append, readDigits, hdigit]
      simp only
      rw [if_neg (by omega), ih hword.2 _ _ (by omega), List.foldl_cons, hdigit, List.length_cons]
      simp only [Option.getD_some]
      congr 3
      omega

theorem readDigits_rest {acc count k : Nat} {word after : Text} (hrest : Stops radix rest)
    (h : readDigits radix maxDigits acc count (word ++ rest) = some (n, k, after)) :
    ∃ kept, List.Sublist kept word ∧ after = kept ++ rest := by
  induction word generalizing acc count with
  | nil =>
      rw [List.nil_append, readDigits_of_stops hrest] at h
      cases h
      exact ⟨[], .refl _, rfl⟩
  | cons c word ih =>
      rw [List.cons_append, readDigits] at h
      split at h
      · cases h
        exact ⟨c :: word, .refl _, rfl⟩
      · split at h
        · cases h
        · obtain ⟨kept, hsub, hafter⟩ := ih h
          exact ⟨kept, hsub.cons c, hafter⟩

theorem readNumber_toDigits (hbase : 1 < radix) (hradix : radix ≤ 16) {bound : Nat}
    (hmax : 0 < maxDigits) (hdigits : n < radix ^ maxDigits) (hbound : n < bound)
    (allowZeroPrefix : Bool) (hrest : Stops radix rest) :
    readNumber radix maxDigits allowZeroPrefix bound (Nat.toDigits radix n ++ rest) =
      some (n, rest) := by
  have hlength : (Nat.toDigits radix n).length ≤ maxDigits :=
    (Nat.length_toDigits_le_iff hbase hmax).2 hdigits
  have hread := readDigits_append
    (fun c hc => isSome_digitOf_of_mem_toDigits hbase hradix hc) hrest 0 0
    ((Nat.zero_add _).le.trans hlength)
  rw [foldl_toDigits hbase hradix, Nat.zero_add] at hread
  have hne : (Nat.toDigits radix n).length ≠ 0 := fun h =>
    Nat.toDigits_ne_nil (List.length_eq_zero_iff.1 h)
  have hzero : ¬ (!allowZeroPrefix && (Nat.toDigits radix n ++ rest).head? == some '0' &&
      decide (1 < (Nat.toDigits radix n).length)) := by
    intro h
    simp only [Bool.and_eq_true, beq_iff_eq, decide_eq_true_eq] at h
    by_cases hn : n = 0
    · subst hn
      rw [Nat.toDigits_of_lt_base (by omega)] at h
      exact absurd h.2 (by decide)
    · rw [List.head?_append_of_ne_nil _ Nat.toDigits_ne_nil] at h
      exact head?_toDigits_ne_zero hbase hradix hn h.1.2
  rw [readNumber, hread]
  simp only
  rw [if_neg hne, if_neg hzero, if_pos hbound]

end

/-! ## Reading sequences back -/

section

variable {separator : Char} {word : Nat → Text}

@[simp] theorem readSeparator_zero {α : Type} (inner : TextReader α) :
    readSeparator separator 0 inner = inner := rfl

theorem readSeparator_piece {α : Type} (index : Nat) (inner : TextReader α) (piece rest : Text) :
    readSeparator separator index inner
        ((if index = 0 then piece else separator :: piece) ++ rest) = inner (piece ++ rest) := by
  unfold readSeparator
  split
  · rfl
  · simp

variable {items : List Nat}

theorem stops_joined {radix index : Nat} {rest : Text} (hindex : index ≠ 0)
    (hseparator : digitOf radix separator = none) (hrest : Stops radix rest) :
    Stops radix (joined separator word index items ++ rest) := by
  cases items with
  | nil => exact hrest
  | cons item items =>
      intro c hc
      rw [joined, if_neg hindex] at hc
      obtain rfl : separator = c := by simpa using hc
      exact hseparator

theorem mem_joined {index : Nat} {c : Char} (h : c ∈ joined separator word index items) :
    c = separator ∨ ∃ item ∈ items, c ∈ word item := by
  induction items generalizing index with
  | nil => cases h
  | cons item items ih =>
      rw [joined, List.mem_append] at h
      rcases h with hitem | hrest
      · split at hitem
        · exact .inr ⟨item, List.mem_cons_self, hitem⟩
        · rcases List.mem_cons.1 hitem with hsep | hword
          · exact .inl hsep
          · exact .inr ⟨item, List.mem_cons_self, hword⟩
      · exact (ih hrest).imp_right fun ⟨item', hitem', hword⟩ =>
          ⟨item', List.mem_cons_of_mem _ hitem', hword⟩

variable (separator) in
theorem length_joined_le {width : Nat} (hword : ∀ item ∈ items, (word item).length ≤ width)
    (index : Nat) : (joined separator word index items).length ≤ items.length * (width + 1) := by
  induction items generalizing index with
  | nil => simp [joined]
  | cons item items ih =>
      rw [List.forall_mem_cons] at hword
      have hrest := ih hword.2 (index + 1)
      have hitem := hword.1
      rw [joined, List.length_append, List.length_cons, Nat.succ_mul]
      split
      · omega
      · rw [List.length_cons]
        omega

variable (separator) in
theorem length_joined_lt {width : Nat} (hne : items ≠ [])
    (hword : ∀ item ∈ items, (word item).length ≤ width) :
    (joined separator word 0 items).length < items.length * (width + 1) := by
  cases items with
  | nil => exact absurd rfl hne
  | cons item items =>
      rw [List.forall_mem_cons] at hword
      have hrest := length_joined_le separator hword.2 (0 + 1)
      have hitem := hword.1
      rw [joined, if_pos rfl, List.length_append, List.length_cons, Nat.succ_mul]
      omega

end

theorem readOctets_joined {octets : List Nat} (hoctets : ∀ octet ∈ octets, octet < 256)
    (hrest : Stops 10 rest) :
    readOctets index octets.length (joined '.' (Nat.toDigits 10) index octets ++ rest) =
      some (octets, rest) := by
  induction octets generalizing index with
  | nil => rfl
  | cons octet octets ih =>
      rw [List.forall_mem_cons] at hoctets
      have hstops : Stops 10 (joined '.' (Nat.toDigits 10) (index + 1) octets ++ rest) :=
        stops_joined (Nat.succ_ne_zero index) (by decide) hrest
      have hread : readNumber 10 3 false 256
          (Nat.toDigits 10 octet ++ (joined '.' (Nat.toDigits 10) (index + 1) octets ++ rest)) =
          some (octet, joined '.' (Nat.toDigits 10) (index + 1) octets ++ rest) :=
        readNumber_toDigits (by decide) (by decide) (by decide) (by omega) hoctets.1 false hstops
      rw [joined, List.append_assoc, List.length_cons, readOctets, readSeparator_piece, hread]
      simp [ih hoctets.2]

theorem readV4_formatOctets {octets : List Nat} (hlength : octets.length = 4)
    (hoctets : ∀ octet ∈ octets, octet < 256) (hrest : Stops 10 rest) :
    readV4 (formatOctets octets ++ rest) = some (octets, rest) := by
  rw [readV4, ← hlength]
  exact readOctets_joined hoctets hrest

theorem formatOctets_chars {octets : List Nat} (h : c ∈ formatOctets octets) :
    Text.isAsciiDigit c ∨ c = '.' := by
  rcases mem_joined h with rfl | ⟨octet, -, hc⟩
  · exact .inr rfl
  · exact .inl (AddrText.isAsciiDigit_of_mem_toDigits hc)

theorem length_formatOctets_le {octets : List Nat} (hlength : octets.length = 4)
    (hoctets : ∀ octet ∈ octets, octet < 256) : (formatOctets octets).length ≤ 15 := by
  have hword : ∀ octet ∈ octets, (Nat.toDigits 10 octet).length ≤ 3 := fun octet hoctet =>
    (Nat.length_toDigits_le_iff (by decide) (by decide)).2
      ((hoctets octet hoctet).trans (by decide))
  have hne : octets ≠ [] := by
    rintro rfl
    cases hlength
  have hlt := length_joined_lt '.' hne hword
  rw [hlength] at hlt
  exact Nat.le_of_lt_succ hlt

theorem lt_of_mem_octets {octet : Nat} (h : octet ∈ octets n) : octet < 256 :=
  lt_of_mem_places (by decide) h

theorem utf8Len_eq_length {text : Text} (h : ∀ c ∈ text, Text.isAsciiDigit c ∨ c = '.') :
    Text.utf8Len text = text.length := by
  refine Text.utf8Len_of_ascii fun c hc => ?_
  rcases h c hc with hdigit | rfl
  · simp only [Text.isAsciiDigit, Bool.and_eq_true, decide_eq_true_eq] at hdigit
    exact Nat.lt_of_le_of_lt hdigit.2 (by decide)
  · decide

theorem length_formatV4_le (bits : UInt32) : (formatV4 bits).length ≤ 15 :=
  length_formatOctets_le (length_places _ _ _) (fun _ => lt_of_mem_octets)

theorem readV4_formatV4 (bits : UInt32) :
    readV4 (formatV4 bits) = some (octets bits.toNat, []) := by
  have hread := readV4_formatOctets (length_places 256 4 bits.toNat)
    (fun _ => lt_of_mem_octets) stops_nil
  rwa [List.append_nil] at hread

theorem parseV4_formatV4 (bits : UInt32) : parseV4 (formatV4 bits) = some bits := by
  have hlen : ¬ 15 < Text.utf8Len (formatV4 bits) := by
    rw [utf8Len_eq_length (fun c (hc : c ∈ formatV4 bits) => formatOctets_chars hc)]
    exact Nat.not_lt.2 (length_formatV4_le bits)
  rw [parseV4, if_neg hlen, readV4_formatV4]
  simp only
  rw [octets, value_places (by simpa using bits.toNat_lt), UInt32.ofNat_toNat]

def Zeros (segments : List Nat) (span : Span) : Prop :=
  ∀ index, span.start ≤ index → index < span.start + span.len → segments[index]? = some 0

theorem zeros_empty (segments : List Nat) : Zeros segments ⟨0, 0⟩ :=
  fun index _ hlt => absurd hlt (by simp)

theorem Zeros.grow {segments : List Nat} {current : Span} (h : Zeros segments current)
    (hends : current.len = 0 ∨ current.start + current.len = index)
    (hhere : segments[index]? = some 0) :
    Zeros segments ⟨if current.len = 0 then index else current.start, current.len + 1⟩ ∧
      (if current.len = 0 then index else current.start) + (current.len + 1) = index + 1 := by
  by_cases hempty : current.len = 0
  · rw [if_pos hempty, hempty]
    refine ⟨fun i hlow hhigh => ?_, rfl⟩
    obtain rfl : index = i := Nat.le_antisymm hlow (Nat.le_of_lt_succ hhigh)
    exact hhere
  · have hend := hends.resolve_left hempty
    rw [if_neg hempty]
    refine ⟨fun i hlow hhigh => ?_, by omega⟩
    by_cases hi : i = index
    · rw [hi, hhere]
    · simp only at hlow hhigh
      exact h i hlow (by omega)

theorem zeros_longestZeros {all : List Nat} {longest current : Span} {rest : List Nat}
    (hrest : all.drop index = rest) (hlongest : Zeros all longest) (hcurrent : Zeros all current)
    (hends : current.len = 0 ∨ current.start + current.len = index) :
    Zeros all (longestZeros index longest current rest) := by
  induction rest generalizing index longest current with
  | nil => exact hlongest
  | cons segment rest ih =>
      have hhere : all[index]? = some segment := by
        rw [← List.head?_drop, hrest, List.head?_cons]
      have hnext : all.drop (index + 1) = rest := by
        rw [← List.drop_drop, hrest]
        rfl
      rw [longestZeros]
      by_cases hzero : segment = 0
      · rw [hzero] at hhere
        obtain ⟨hgrown, hend⟩ := hcurrent.grow hends hhere
        rw [if_pos hzero]
        refine ih hnext ?_ hgrown (.inr hend)
        by_cases hlonger : longest.len < current.len + 1
        · rw [if_pos hlonger]
          exact hgrown
        · rw [if_neg hlonger]
          exact hlongest
      · rw [if_neg hzero]
        exact ih hnext hlongest (zeros_empty all) (.inl rfl)

theorem take_zeros_drop {segments : List Nat} {span : Span} (h : Zeros segments span)
    (hlen : 0 < span.len) :
    segments.take span.start ++
        (List.replicate span.len 0 ++ segments.drop (span.start + span.len)) = segments ∧
      span.start + span.len ≤ segments.length := by
  have hlast := h (span.start + span.len - 1) (by omega) (by omega)
  obtain ⟨hbound, -⟩ := List.getElem?_eq_some_iff.1 hlast
  have hrun : (segments.drop span.start).take span.len = List.replicate span.len 0 := by
    refine List.ext_getElem? fun i => ?_
    rw [List.getElem?_take, List.getElem?_drop, List.getElem?_replicate]
    split
    next hi => rw [h (span.start + i) (by omega) (by omega)]
    next => rfl
  refine ⟨?_, by omega⟩
  rw [← hrun, ← List.drop_drop, List.take_append_drop, List.take_append_drop]

theorem isAsciiHexdigit_of_mem_toDigits (h : c ∈ Nat.toDigits 16 n) : Text.isAsciiHexdigit c := by
  have hhex : ∀ digit < 16, Text.isAsciiHexdigit (Nat.digitChar digit) := by decide
  obtain ⟨digit, hdigit, rfl⟩ := exists_digit_of_mem_toDigits (by decide) h
  exact hhex digit hdigit

theorem readV4_group {group : Nat} (hstops : Stops 10 rest)
    (hstop : rest.head? ≠ some '.') : readV4 (Nat.toDigits 16 group ++ rest) = none := by
  have hdot : ∀ kept after, List.Sublist kept (Nat.toDigits 16 group) → after = kept ++ rest →
      readSeparator '.' 1 (readNumber 10 3 false 256) after = none := by
    rintro kept after hsub rfl
    cases kept with
    | nil =>
        cases rest with
        | nil => rfl
        | cons c rest =>
            have hc : c ≠ '.' := fun h => hstop (by rw [h, List.head?_cons])
            simp [readSeparator, hc]
    | cons c kept =>
        have hc : c ≠ '.' := by
          rintro rfl
          exact absurd (isAsciiHexdigit_of_mem_toDigits (hsub.subset List.mem_cons_self)) (by decide)
        simp [readSeparator, hc]
  have hfirst : ∀ octet after,
      readNumber 10 3 false 256 (Nat.toDigits 16 group ++ rest) = some (octet, after) →
      readSeparator '.' 1 (readNumber 10 3 false 256) after = none := by
    intro octet after h
    rw [readNumber] at h
    split at h
    · cases h
    next n k left hread =>
      obtain ⟨kept, hsub, hleft⟩ := readDigits_rest hstops hread
      split at h
      · cases h
      · split at h
        · cases h
        · split at h
          · cases h
            exact hdot kept _ hsub hleft
          · cases h
  rw [readV4, readOctets, readSeparator_zero]
  cases hread : readNumber 10 3 false 256 (Nat.toDigits 16 group ++ rest) with
  | none => rfl
  | some found =>
      obtain ⟨octet, after⟩ := found
      have hnone := hfirst octet after hread
      simp [readOctets, hnone]

def Ends (rest : Text) : Prop := rest = [] ∨ ∃ tail, rest = ':' :: ':' :: tail

theorem Ends.stops {radix : Nat} (hcolon : digitOf radix ':' = none) (h : Ends rest) :
    Stops radix rest := by
  rcases h with rfl | ⟨tail, rfl⟩
  · exact stops_nil
  · intro c hc
    obtain rfl : ':' = c := Option.some.inj hc
    exact hcolon

theorem readNumber_of_stops {radix maxDigits bound : Nat} {allowZeroPrefix : Bool}
    (h : Stops radix rest) : readNumber radix maxDigits allowZeroPrefix bound rest = none := by
  rw [readNumber, readDigits_of_stops h]
  rfl

theorem readV4_of_stops (h : Stops 10 rest) : readV4 rest = none := by
  rw [readV4, readOctets, readSeparator_zero, readNumber_of_stops h]
  rfl

theorem readSeparator_of_ends {α : Type} {inner : TextReader α}
    (hinner : ∀ rest : Text, (∀ c ∈ rest.head?, c = ':') → inner rest = none) (h : Ends rest) :
    readSeparator ':' index inner rest = none := by
  rcases h with rfl | ⟨tail, rfl⟩
  · unfold readSeparator
    split
    · exact hinner [] (by simp)
    · rfl
  · unfold readSeparator
    split
    · exact hinner _ (by simp)
    · exact hinner _ (by simp)

theorem readGroups_of_ends (h : Ends rest) (index remaining : Nat) :
    readGroups index remaining rest = ([], false, rest) := by
  have hstops : ∀ {radix : Nat} {rest : Text}, digitOf radix ':' = none →
      (∀ c ∈ rest.head?, c = ':') → Stops radix rest := by
    intro radix rest hcolon hhead c hc
    rw [hhead c hc]
    exact hcolon
  cases remaining with
  | zero => rfl
  | succ remaining =>
      rw [readGroups,
        readSeparator_of_ends (fun _ hhead => readV4_of_stops (hstops (by decide) hhead)) h,
        readSeparator_of_ends (fun _ hhead => readNumber_of_stops (hstops (by decide) hhead)) h,
        ite_self]

theorem readGroups_group (index remaining : Nat) {group : Nat} (hgroup : group < 65536)
    (hstops : Stops 10 rest) (hstops' : Stops 16 rest) (hstop : rest.head? ≠ some '.') :
    readGroups index (remaining + 1)
        ((if index = 0 then Nat.toDigits 16 group else ':' :: Nat.toDigits 16 group) ++ rest) =
      (group :: (readGroups (index + 1) remaining rest).1,
        (readGroups (index + 1) remaining rest).2) := by
  have hread : readNumber 16 4 true 65536 (Nat.toDigits 16 group ++ rest) = some (group, rest) :=
    readNumber_toDigits (by decide) (by decide) (by decide) (by omega) hgroup true hstops'
  rw [readGroups, readSeparator_piece, readSeparator_piece, readV4_group hstops hstop, hread,
    ite_self]

theorem head?_joined_ne_stop (hindex : index ≠ 0) (hrest : Ends rest) :
    (joined ':' (Nat.toDigits 16) index groups ++ rest).head? ≠ some '.' := by
  cases groups with
  | nil =>
      rcases hrest with rfl | ⟨tail, rfl⟩
      · simp [joined]
      · simp [joined]
  | cons group groups =>
      rw [joined, if_neg hindex]
      simp

theorem readGroups_joined (index remaining : Nat) (hgroups : ∀ group ∈ groups, group < 65536)
    (hlength : groups.length ≤ remaining) (hrest : Ends rest) :
    readGroups index remaining (joined ':' (Nat.toDigits 16) index groups ++ rest) =
      (groups, false, rest) := by
  induction groups generalizing index remaining with
  | nil => exact readGroups_of_ends hrest index remaining
  | cons group groups ih =>
      cases remaining with
      | zero => cases hlength
      | succ remaining =>
          rw [List.forall_mem_cons] at hgroups
          rw [joined, List.append_assoc,
            readGroups_group index remaining hgroups.1
              (stops_joined (Nat.succ_ne_zero index) (by decide) (hrest.stops (by decide)))
              (stops_joined (Nat.succ_ne_zero index) (by decide) (hrest.stops (by decide)))
              (head?_joined_ne_stop (Nat.succ_ne_zero index) hrest),
            ih (index + 1) remaining hgroups.2 (Nat.le_of_succ_le_succ hlength)]

theorem readV6_compressed {before after : List Nat} {len : Nat} (hlen : 0 < len)
    (hlength : before.length + len + after.length = 8)
    (hbefore : ∀ group ∈ before, group < 65536) (hafter : ∀ group ∈ after, group < 65536) :
    readV6 (formatSegments before ++ ':' :: ':' :: formatSegments after) =
      some (before ++ List.replicate len 0 ++ after, []) := by
  have hhead : readGroups 0 8 (formatSegments before ++ ':' :: ':' :: formatSegments after) =
      (before, false, ':' :: ':' :: formatSegments after) :=
    readGroups_joined 0 8 hbefore (by omega) (.inr ⟨_, rfl⟩)
  have htail : readGroups 0 (8 - (before.length + 1)) (formatSegments after) =
      (after, false, []) := by
    have htail := readGroups_joined 0 (8 - (before.length + 1)) hafter (by omega) (.inl rfl)
    rwa [List.append_nil] at htail
  rw [readV6, hhead]
  simp only
  rw [if_neg (by omega), if_neg (by decide), htail]
  simp only
  rw [show 8 - before.length - after.length = len by omega]

theorem joinOctets_flatMap_splitSegment (groups : List Nat) :
    joinOctets (groups.flatMap splitSegment) = groups := by
  induction groups with
  | nil => rfl
  | cons group groups ih =>
      rw [List.flatMap_cons, splitSegment, List.cons_append, List.cons_append, List.nil_append,
        joinOctets, ih, Nat.div_add_mod']

theorem lt_of_mem_flatMap_splitSegment {octet : Nat} (hgroups : ∀ group ∈ groups, group < 65536)
    (h : octet ∈ groups.flatMap splitSegment) : octet < 256 := by
  obtain ⟨group, hgroup, hoctet⟩ := List.mem_flatMap.1 h
  have hlt := hgroups group hgroup
  rcases List.mem_pair.1 hoctet with rfl | rfl
  · omega
  · omega

theorem readV6_mapped {low : List Nat} (hlength : low.length = 2)
    (hlow : ∀ group ∈ low, group < 65536) :
    readV6 ("::ffff:".toList ++ formatOctets (low.flatMap splitSegment)) =
      some (mappedHead ++ low, []) := by
  have hoctets : readV4 (formatOctets (low.flatMap splitSegment)) =
      some (low.flatMap splitSegment, []) := by
    have hread := readV4_formatOctets (by simp [splitSegment, hlength])
      (fun _ => lt_of_mem_flatMap_splitSegment hlow) stops_nil
    rwa [List.append_nil] at hread
  have hlast : readGroups 1 6 (':' :: formatOctets (low.flatMap splitSegment)) =
      (low, true, []) := by
    have hread : readSeparator ':' 1 readV4 (':' :: formatOctets (low.flatMap splitSegment)) =
        some (low.flatMap splitSegment, []) := hoctets
    rw [readGroups, if_pos (by decide), hread]
    simp only
    rw [joinOctets_flatMap_splitSegment]
  have htail : readGroups 0 7
      ("ffff".toList ++ ':' :: formatOctets (low.flatMap splitSegment)) =
      (0xffff :: low, true, []) := by
    have hcolon : ∀ {radix : Nat}, digitOf radix ':' = none →
        Stops radix (':' :: formatOctets (low.flatMap splitSegment)) := by
      intro radix hcolon c hc
      obtain rfl : ':' = c := Option.some.inj hc
      exact hcolon
    have hgroup := readGroups_group 0 6 (by decide : 0xffff < 65536) (hcolon (by decide))
      (hcolon (by decide)) (by simp)
    rwa [hlast] at hgroup
  have htext : "::ffff:".toList ++ formatOctets (low.flatMap splitSegment) =
      ':' :: ':' :: ("ffff".toList ++ ':' :: formatOctets (low.flatMap splitSegment)) := rfl
  rw [htext, readV6, readGroups_of_ends (.inr ⟨_, rfl⟩) 0 8]
  simp only [List.length_nil, Nat.reduceAdd, Nat.reduceSub]
  rw [if_neg (by decide), if_neg (by decide), htail]
  simp [hlength, mappedHead]

theorem lt_of_mem_segments {segment : Nat} (h : segment ∈ segments n) : segment < 65536 :=
  lt_of_mem_places (by decide) h

theorem formatV6_cases (bits : BitVec 128) :
    (∃ low, segments bits.toNat = mappedHead ++ low ∧ low.length = 2 ∧
      formatV6 bits = "::ffff:".toList ++ formatOctets (low.flatMap splitSegment)) ∨
    (∃ before len after, segments bits.toNat = before ++ List.replicate len 0 ++ after ∧ 1 < len ∧
      formatV6 bits = formatSegments before ++ ':' :: ':' :: formatSegments after) ∨
    formatV6 bits = formatSegments (segments bits.toNat) := by
  have hlength : (segments bits.toNat).length = 8 := length_places _ _ _
  unfold formatV6
  dsimp only
  by_cases hmapped : (segments bits.toNat).take 6 = mappedHead
  · rw [if_pos hmapped]
    refine .inl ⟨(segments bits.toNat).drop 6, ?_, by rw [List.length_drop, hlength], rfl⟩
    rw [← hmapped, List.take_append_drop]
  · rw [if_neg hmapped]
    by_cases hzeros : 1 < (longestZeros 0 ⟨0, 0⟩ ⟨0, 0⟩ (segments bits.toNat)).len
    · rw [if_pos hzeros]
      have hspan := zeros_longestZeros List.drop_zero (zeros_empty (segments bits.toNat))
        (zeros_empty _) (.inl rfl)
      refine .inr (.inl ⟨_, _, _, ?_, hzeros, rfl⟩)
      rw [List.append_assoc, (take_zeros_drop hspan (by omega)).1]
    · rw [if_neg hzeros]
      exact .inr (.inr rfl)

theorem readV6_formatV6 (bits : BitVec 128) :
    readV6 (formatV6 bits) = some (segments bits.toNat, []) := by
  have hlength : (segments bits.toNat).length = 8 := length_places _ _ _
  have hsmall : ∀ segment ∈ segments bits.toNat, segment < 65536 := fun _ => lt_of_mem_segments
  rcases formatV6_cases bits with ⟨low, hsegments, htwo, hformat⟩ |
    ⟨before, len, after, hsegments, hlen, hformat⟩ | hformat
  · rw [hformat, hsegments]
    rw [hsegments] at hsmall
    exact readV6_mapped htwo fun group hgroup => hsmall group (List.mem_append_right _ hgroup)
  · rw [hformat, hsegments]
    rw [hsegments] at hsmall hlength
    simp only [List.length_append, List.length_replicate] at hlength
    refine readV6_compressed (by omega) hlength (fun group hgroup => ?_) (fun group hgroup => ?_)
    · exact hsmall group (List.mem_append_left _ (List.mem_append_left _ hgroup))
    · exact hsmall group (List.mem_append_right _ hgroup)
  · have hread := readGroups_joined 0 8 hsmall hlength.le (.inl rfl)
    rw [List.append_nil] at hread
    rw [hformat, readV6, formatSegments, hread]
    simp only
    rw [if_pos hlength]

theorem parseV6_formatV6 (bits : BitVec 128) : parseV6 (formatV6 bits) = some bits := by
  rw [parseV6, readV6_formatV6]
  simp only
  rw [segments, value_places (by simpa using bits.isLt)]
  simp

-- the first of two equally long runs is the one that is compressed
example : formatV6 (.ofNat 128 (value 65536 [0x2001, 0xdb8, 0, 0, 1, 0, 0, 1])) =
    "2001:db8::1:0:0:1".toList := by decide +kernel

theorem formatV6_chars (bits : BitVec 128) (h : c ∈ formatV6 bits) :
    Text.isAsciiHexdigit c ∨ c = '.' ∨ c = ':' := by
  have hsegments : ∀ segments, c ∈ formatSegments segments →
      Text.isAsciiHexdigit c ∨ c = '.' ∨ c = ':' := by
    intro segments hc
    rcases mem_joined hc with rfl | ⟨segment, -, hdigit⟩
    · exact .inr (.inr rfl)
    · exact .inl (isAsciiHexdigit_of_mem_toDigits hdigit)
  rcases formatV6_cases bits with ⟨low, -, -, hformat⟩ | ⟨before, len, after, -, -, hformat⟩ | hformat
  · rw [hformat, List.mem_append] at h
    rcases h with hhead | hoctets
    · have hmarks : "::ffff:".toList.all (fun c =>
          Text.isAsciiHexdigit c || c == '.' || c == ':') := by decide
      simpa [or_assoc] using List.all_eq_true.1 hmarks c hhead
    · rcases formatOctets_chars hoctets with hdigit | hstop
      · refine .inl ?_
        rw [Text.isAsciiHexdigit, ← Text.isAsciiDigit, hdigit]
        rfl
      · exact .inr (.inl hstop)
  · rw [hformat, List.mem_append, List.mem_cons, List.mem_cons] at h
    rcases h with hbefore | hcolon | hcolon | hafter
    · exact hsegments before hbefore
    · exact .inr (.inr hcolon)
    · exact .inr (.inr hcolon)
    · exact hsegments after hafter
  · rw [hformat] at h
    exact hsegments _ h

theorem colon_mem_formatV6 (bits : BitVec 128) : ':' ∈ formatV6 bits := by
  rcases formatV6_cases bits with ⟨low, -, -, hformat⟩ | ⟨before, len, after, -, -, hformat⟩ | hformat
  · rw [hformat]
    exact List.mem_append_left _ (by decide)
  · rw [hformat]
    exact List.mem_append_right _ List.mem_cons_self
  · rw [hformat, segments, places, places]
    simp [formatSegments, joined]

theorem length_formatV6_le (bits : BitVec 128) : (formatV6 bits).length ≤ 39 := by
  have hlength : (segments bits.toNat).length = 8 := length_places _ _ _
  have hsmall : ∀ segment ∈ segments bits.toNat, segment < 65536 := fun _ => lt_of_mem_segments
  have hword : ∀ segment ∈ segments bits.toNat, (Nat.toDigits 16 segment).length ≤ 4 :=
    fun segment hsegment =>
      (Nat.length_toDigits_le_iff (by decide) (by decide)).2 (hsmall segment hsegment)
  rcases formatV6_cases bits with ⟨low, hsegments, htwo, hformat⟩ |
    ⟨before, len, after, hsegments, hlen, hformat⟩ | hformat
  · rw [hsegments] at hsmall
    have hoctets : (formatOctets (low.flatMap splitSegment)).length ≤ 15 :=
      length_formatOctets_le (by simp [splitSegment, htwo]) (fun _ =>
        lt_of_mem_flatMap_splitSegment
          (fun group hgroup => hsmall group (List.mem_append_right _ hgroup)))
    rw [hformat, List.length_append, show "::ffff:".toList.length = 7 from rfl]
    omega
  · rw [hsegments] at hlength hword
    have hbefore := length_joined_le ':' (fun group hgroup =>
      hword group (List.mem_append_left _ (List.mem_append_left _ hgroup))) 0
    have hafter := length_joined_le ':' (fun group hgroup =>
      hword group (List.mem_append_right _ hgroup)) 0
    simp only [List.length_append, List.length_replicate] at hlength
    rw [hformat, List.length_append, List.length_cons, List.length_cons, formatSegments,
      formatSegments]
    omega
  · have hne : segments bits.toNat ≠ [] := fun h => by simp [h] at hlength
    have hlt := length_joined_lt ':' hne hword
    rw [hlength] at hlt
    rw [hformat]
    exact Nat.le_of_lt_succ hlt

end StdAddr

def AddrText.std : AddrText where
  formatV4 := StdAddr.formatV4
  formatV6 := StdAddr.formatV6
  parseV4 := StdAddr.parseV4
  parseV6 := StdAddr.parseV6
  parse_formatV4 := StdAddr.parseV4_formatV4
  parse_formatV6 := StdAddr.parseV6_formatV6
  formatV4_chars _ _ := StdAddr.formatOctets_chars
  formatV6_chars bits _ := StdAddr.formatV6_chars bits
  colon_mem_formatV6 := StdAddr.colon_mem_formatV6

theorem AddrText.length_std_format_le (ip : IpAddr) : (AddrText.std.format ip).length ≤ 39 := by
  cases ip with
  | v4 bits => exact (StdAddr.length_formatV4_le bits).trans (by decide)
  | v6 bits => exact StdAddr.length_formatV6_le bits

end Yggdrasil.Foundation
