import Yggdrasil.Foundation.StdAddr

/-!
# The standard library's notation for socket addresses

An IPv4 address, a colon and a port; or an IPv6 address in brackets, with its
scope where it has one, and the port behind the brackets.  Ports and scopes may
have any number of leading zeros and no sign.

The readers go from left to right, so what stands behind an address does not
change how it is read, unless it could go on with it.
-/

namespace Yggdrasil.Foundation

/-- What the text of a socket address tells; the flow label has no notation. -/
inductive ScopedAddr where
  | v4 (bits : UInt32) (port : UInt16)
  | v6 (bits : BitVec 128) (port : UInt16) (scopeId : UInt32)
  deriving DecidableEq, Repr

def ScopedAddr.port : ScopedAddr → UInt16
  | v4 _ port => port
  | v6 _ port _ => port

namespace StdAddr

def readChecked (bound : Nat) : Nat → Nat → Text → Option (Nat × Nat × Text)
  | acc, count, [] => some (acc, count, [])
  | acc, count, c :: rest =>
      match digitOf 10 c with
      | none => some (acc, count, c :: rest)
      | some digit =>
          if acc * 10 + digit < bound then
            readChecked bound (acc * 10 + digit) (count + 1) rest
          else none

def readUnlimited (bound : Nat) : TextReader Nat := fun text =>
  match readChecked bound 0 0 text with
  | none => none
  | some (number, count, rest) => if count = 0 then none else some (number, rest)

def readGivenChar (given : Char) : TextReader Unit
  | [] => none
  | c :: rest => if c = given then some ((), rest) else none

def readPort : TextReader Nat := fun text =>
  (readGivenChar ':' text).bind fun (_, text) => readUnlimited 65536 text

def readScopeId : TextReader Nat := fun text =>
  (readGivenChar '%' text).bind fun (_, text) => readUnlimited (2 ^ 32) text

def readSocketAddrV4 : TextReader ScopedAddr := fun text =>
  (readV4 text).bind fun (octets, text) =>
    (readPort text).map fun (port, text) =>
      (.v4 (.ofNat (value 256 octets)) (.ofNat port), text)

def readSocketAddrV6 : TextReader ScopedAddr := fun text =>
  (readGivenChar '[' text).bind fun (_, text) =>
    (readV6 text).bind fun (segments, text) =>
      let (scopeId, text) := (readScopeId text).getD (0, text)
      (readGivenChar ']' text).bind fun (_, text) =>
        (readPort text).map fun (port, text) =>
          (.v6 (.ofNat 128 (value 65536 segments)) (.ofNat port) (.ofNat scopeId), text)

def readSocketAddr : TextReader ScopedAddr := fun text =>
  (readSocketAddrV4 text).or (readSocketAddrV6 text)

def readIpAddr : TextReader IpAddr := fun text =>
  ((readV4 text).map fun (octets, text) => (.v4 (.ofNat (value 256 octets)), text)).or
    ((readV6 text).map fun (segments, text) => (.v6 (.ofNat 128 (value 65536 segments)), text))

def parseWith {α : Type} (reader : TextReader α) (text : Text) : Option α :=
  (reader text).bind fun (found, rest) => if rest = [] then some found else none

def parseSocketAddr : Text → Option ScopedAddr := parseWith readSocketAddr

def parseIpAddr : Text → Option IpAddr := parseWith readIpAddr

def formatSocketAddr : ScopedAddr → Text
  | .v4 bits port => formatV4 bits ++ ':' :: Nat.toDigits 10 port.toNat
  | .v6 bits port scopeId =>
      let scope := if scopeId = 0 then [] else '%' :: Nat.toDigits 10 scopeId.toNat
      '[' :: (formatV6 bits ++ (scope ++ ']' :: ':' :: Nat.toDigits 10 port.toNat))

section

variable {α : Type} {rest : Text}

def Detached (reader : TextReader α) (rest : Text) : Prop :=
  ∀ text, reader (text ++ rest) = (reader text).map (Prod.map id (· ++ rest))

theorem readDigits_append_rest {radix : Nat} (hrest : Stops radix rest) (maxDigits : Nat)
    (text : Text) (acc count : Nat) :
    readDigits radix maxDigits acc count (text ++ rest) =
      (readDigits radix maxDigits acc count text).map (Prod.map id (Prod.map id (· ++ rest))) := by
  induction text generalizing acc count with
  | nil => exact readDigits_of_stops hrest acc count
  | cons c text ih =>
      rw [List.cons_append, readDigits, readDigits]
      cases digitOf radix c with
      | none => rfl
      | some digit =>
          dsimp only
          split_ifs with hmany
          · rfl
          · exact ih _ _

theorem detached_readNumber {radix : Nat} (hrest : Stops radix rest) (maxDigits bound : Nat)
    (allowZeroPrefix : Bool) :
    Detached (readNumber radix maxDigits allowZeroPrefix bound) rest := by
  intro text
  cases text with
  | nil =>
      rw [List.nil_append, readNumber_of_stops hrest, readNumber_of_stops stops_nil]
      rfl
  | cons c text =>
      rw [readNumber, readNumber, readDigits_append_rest hrest]
      cases readDigits radix maxDigits 0 0 (c :: text) with
      | none => rfl
      | some found =>
          obtain ⟨number, count, left⟩ := found
          have hhead : (c :: text ++ rest).head? = (c :: text).head? := rfl
          simp only [Option.map_some, Prod.map_apply, id_eq, hhead]
          generalize (!allowZeroPrefix && (c :: text).head? == some '0' && decide (1 < count)) =
            zeroPrefix
          split_ifs <;> rfl

theorem detached_readSeparator {inner : TextReader α} {separator : Char}
    (hinner : Detached inner rest) (hhead : rest.head? ≠ some separator) (index : Nat) :
    Detached (readSeparator separator index inner) rest := by
  intro text
  unfold readSeparator
  split_ifs with hfirst
  · exact hinner text
  · cases text with
    | nil =>
        cases rest with
        | nil => rfl
        | cons c rest =>
            have hc : c ≠ separator := fun h => hhead (congrArg some h)
            exact if_neg hc
    | cons c text =>
        dsimp only [List.cons_append]
        split_ifs
        · exact hinner text
        · rfl

theorem detached_readOctets (hrest : Stops 10 rest) (hhead : rest.head? ≠ some '.')
    (index remaining : Nat) : Detached (readOctets index remaining) rest := by
  induction remaining generalizing index with
  | zero => exact fun text => rfl
  | succ remaining ih =>
      intro text
      have hoctet := detached_readSeparator (detached_readNumber hrest 3 256 false) hhead index text
      rw [readOctets, readOctets, hoctet]
      cases readSeparator '.' index (readNumber 10 3 false 256) text with
      | none => rfl
      | some found =>
          obtain ⟨octet, left⟩ := found
          simp only [Option.map_some, Prod.map_apply, id_eq, Option.bind_eq_bind, Option.bind_some,
            ih (index + 1) left]
          cases readOctets (index + 1) remaining left with
          | none => rfl
          | some found => rfl

theorem detached_readV4 (hrest : Stops 10 rest) (hhead : rest.head? ≠ some '.') :
    Detached readV4 rest :=
  detached_readOctets hrest hhead 0 4

structure Foreign (rest : Text) : Prop where
  digit : Stops 10 rest
  hexdigit : Stops 16 rest
  stop : rest.head? ≠ some '.'
  colon : rest.head? ≠ some ':'

theorem readGroups_append_rest (hrest : Foreign rest) (index remaining : Nat) (text : Text) :
    readGroups index remaining (text ++ rest) =
      ((readGroups index remaining text).1, (readGroups index remaining text).2.1,
        (readGroups index remaining text).2.2 ++ rest) := by
  induction remaining generalizing index text with
  | zero => rfl
  | succ remaining ih =>
      have hoctets := detached_readSeparator (detached_readV4 hrest.digit hrest.stop) hrest.colon
        index text
      have hgroup := detached_readSeparator (detached_readNumber hrest.hexdigit 4 65536 true)
        hrest.colon index text
      have hembedded : (if 0 < remaining then readSeparator ':' index readV4 (text ++ rest)
          else none) =
          (if 0 < remaining then readSeparator ':' index readV4 text else none).map
            (Prod.map id (· ++ rest)) := by
        split_ifs
        · exact hoctets
        · rfl
      rw [readGroups, readGroups, hembedded, hgroup]
      cases if 0 < remaining then readSeparator ':' index readV4 text else none with
      | some found => rfl
      | none =>
          cases readSeparator ':' index (readNumber 16 4 true 65536) text with
          | none => rfl
          | some found =>
              obtain ⟨group, left⟩ := found
              simp only [Option.map_some, Option.map_none, Prod.map_apply, id_eq,
                ih (index + 1) left]

theorem exists_of_append_eq_compressed (hrest : Foreign rest) {left tail : Text}
    (h : left ++ rest = ':' :: ':' :: tail) :
    ∃ inner, left = ':' :: ':' :: inner ∧ tail = inner ++ rest := by
  cases left with
  | nil =>
      rw [List.nil_append] at h
      exact absurd (congrArg List.head? h) hrest.colon
  | cons first left =>
      rw [List.cons_append, List.cons.injEq] at h
      obtain ⟨rfl, h⟩ := h
      cases left with
      | nil =>
          rw [List.nil_append] at h
          exact absurd (congrArg List.head? h) hrest.colon
      | cons second left =>
          rw [List.cons_append, List.cons.injEq] at h
          obtain ⟨rfl, rfl⟩ := h
          exact ⟨left, rfl, rfl⟩

theorem detached_readV6 (hrest : Foreign rest) : Detached readV6 rest := by
  intro text
  rw [readV6, readV6, readGroups_append_rest hrest]
  generalize readGroups 0 8 text = found
  obtain ⟨head, embedded, left⟩ := found
  dsimp only
  split_ifs with hfull hembedded
  · rfl
  · rfl
  · split
    · rename_i tail htail
      obtain ⟨inner, rfl, rfl⟩ := exists_of_append_eq_compressed hrest htail
      rw [readGroups_append_rest hrest]
      rfl
    · rename_i hother
      split
      · rename_i inner
        exact absurd rfl (hother (inner ++ rest))
      · rfl

end

/-! ## Reading numbers of any length -/

variable {c : Char} {rest : Text}

theorem digitOf_of_isAsciiDigit (h : Text.isAsciiDigit c) :
    digitOf 10 c = some (c.toNat - '0'.toNat) := by
  have hrange : '0' ≤ c ∧ c ≤ '9' := by
    simpa only [Text.isAsciiDigit, Bool.and_eq_true, decide_eq_true_eq] using h
  have hhigh : c.toNat ≤ '9'.toNat := hrange.2
  have hsmall : c.toNat - '0'.toNat < 10 := by
    have hnine : '9'.toNat = 57 := rfl
    have hzero : '0'.toNat = 48 := rfl
    omega
  rw [Text.isAsciiDigit] at h
  rw [digitOf, if_pos h]
  exact if_pos hsmall

theorem le_foldl_digits (digits : Text) (acc : Nat) :
    acc ≤ digits.foldl (fun acc c => acc * 10 + (c.toNat - '0'.toNat)) acc := by
  induction digits generalizing acc with
  | nil => exact Nat.le_refl acc
  | cons c digits ih =>
      have hnext := ih (acc * 10 + (c.toNat - '0'.toNat))
      rw [List.foldl_cons]
      omega

theorem readChecked_digits {bound : Nat} {digits : Text}
    (hdigits : ∀ c ∈ digits, Text.isAsciiDigit c) (hrest : Stops 10 rest) (acc count : Nat)
    (hbound : digits.foldl (fun acc c => acc * 10 + (c.toNat - '0'.toNat)) acc < bound) :
    readChecked bound acc count (digits ++ rest) =
      some (digits.foldl (fun acc c => acc * 10 + (c.toNat - '0'.toNat)) acc,
        count + digits.length, rest) := by
  induction digits generalizing acc count with
  | nil =>
      cases rest with
      | nil => rfl
      | cons c rest =>
          have hstop : digitOf 10 c = none := hrest c rfl
          simp [readChecked, hstop]
  | cons c digits ih =>
      rw [List.forall_mem_cons] at hdigits
      rw [List.foldl_cons] at hbound
      have hhere := le_foldl_digits digits (acc * 10 + (c.toNat - '0'.toNat))
      rw [List.cons_append, readChecked, digitOf_of_isAsciiDigit hdigits.1]
      dsimp only
      rw [if_pos (hhere.trans_lt hbound), ih hdigits.2 _ _ hbound, List.foldl_cons,
        List.length_cons, Nat.add_right_comm, Nat.add_assoc]

theorem readUnlimited_digits (bound : Nat) {digits : Text} (hne : digits ≠ [])
    (hdigits : ∀ c ∈ digits, Text.isAsciiDigit c) (hrest : Stops 10 rest)
    (hbound : Text.digitsValue digits < bound) :
    readUnlimited bound (digits ++ rest) = some (Text.digitsValue digits, rest) := by
  have hread := readChecked_digits hdigits hrest 0 0 hbound
  have hlength : ¬0 + digits.length = 0 := by
    rw [Nat.zero_add]
    exact fun h => hne (List.length_eq_zero_iff.1 h)
  rw [readUnlimited, hread]
  exact if_neg hlength

theorem readUnlimited_of_stops {bound : Nat} (hrest : Stops 10 rest) :
    readUnlimited bound rest = none := by
  cases rest with
  | nil => rfl
  | cons c rest =>
      have hstop : digitOf 10 c = none := hrest c rfl
      simp [readUnlimited, readChecked, hstop]

theorem readUnlimited_toDigits (bound : Nat) {n : Nat} (hbound : n < bound)
    (hrest : Stops 10 rest) : readUnlimited bound (Nat.toDigits 10 n ++ rest) = some (n, rest) := by
  have hvalue : Text.digitsValue (Nat.toDigits 10 n) = n := AddrText.digitsValue_toDigits n
  have hread := readUnlimited_digits bound Nat.toDigits_ne_nil
    (fun c hc => AddrText.isAsciiDigit_of_mem_toDigits hc) hrest (by rwa [hvalue])
  rwa [hvalue] at hread

theorem stops_of_head {radix : Nat} (h : digitOf radix c = none) (rest : Text) :
    Stops radix (c :: rest) := by
  intro d hd
  obtain rfl : c = d := Option.some.inj hd
  exact h

theorem foreign_of_head (hdigit : digitOf 16 c = none) (hdigit' : digitOf 10 c = none)
    (hstop : c ≠ '.') (hcolon : c ≠ ':') (rest : Text) : Foreign (c :: rest) where
  digit := stops_of_head hdigit' rest
  hexdigit := stops_of_head hdigit rest
  stop h := hstop (Option.some.inj h)
  colon h := hcolon (Option.some.inj h)

theorem readPort_toDigits (port : UInt16) :
    readPort (':' :: Nat.toDigits 10 port.toNat) = some (port.toNat, []) := by
  have hread := readUnlimited_toDigits 65536 port.toNat_lt stops_nil
  rw [List.append_nil] at hread
  exact hread

theorem readSocketAddrV4_format (bits : UInt32) (port : UInt16) :
    readSocketAddrV4 (formatV4 bits ++ ':' :: Nat.toDigits 10 port.toNat) =
      some (.v4 bits port, []) := by
  have hread : readV4 (formatV4 bits ++ ':' :: Nat.toDigits 10 port.toNat) =
      some (octets bits.toNat, ':' :: Nat.toDigits 10 port.toNat) :=
    readV4_formatOctets (length_places _ _ _) (fun _ => lt_of_mem_octets)
      (stops_of_head (by decide) _)
  have hbits : UInt32.ofNat (value 256 (octets bits.toNat)) = bits := by
    rw [octets, value_places (by simpa using bits.toNat_lt), UInt32.ofNat_toNat]
  rw [readSocketAddrV4, hread, Option.bind_some]
  dsimp only
  rw [readPort_toDigits, Option.map_some, hbits, UInt16.ofNat_toNat]

theorem readScopeId_format (scopeId : UInt32) (rest : Text) :
    (readScopeId ((if scopeId = 0 then [] else '%' :: Nat.toDigits 10 scopeId.toNat) ++
        ']' :: rest)).getD (0, (if scopeId = 0 then [] else
          '%' :: Nat.toDigits 10 scopeId.toNat) ++ ']' :: rest) =
      (scopeId.toNat, ']' :: rest) := by
  by_cases hscope : scopeId = 0
  · rw [if_pos hscope, hscope]
    rfl
  · have hread := readUnlimited_toDigits (2 ^ 32) scopeId.toNat_lt
      (stops_of_head (by decide) rest : Stops 10 (']' :: rest))
    have hscoped : readScopeId ('%' :: (Nat.toDigits 10 scopeId.toNat ++ ']' :: rest)) =
        some (scopeId.toNat, ']' :: rest) := hread
    rw [if_neg hscope, List.cons_append, hscoped]
    rfl

theorem readSocketAddrV6_format (bits : BitVec 128) (port : UInt16) (scopeId : UInt32) :
    readSocketAddrV6 (formatSocketAddr (.v6 bits port scopeId)) =
      some (.v6 bits port scopeId, []) := by
  have hforeign : Foreign ((if scopeId = 0 then [] else '%' :: Nat.toDigits 10 scopeId.toNat) ++
      ']' :: ':' :: Nat.toDigits 10 port.toNat) := by
    split_ifs
    · exact foreign_of_head (by decide) (by decide) (by decide) (by decide) _
    · exact foreign_of_head (by decide) (by decide) (by decide) (by decide) _
  have hread := detached_readV6 hforeign (formatV6 bits)
  rw [readV6_formatV6] at hread
  have hbits : BitVec.ofNat 128 (value 65536 (segments bits.toNat)) = bits := by
    rw [segments, value_places (by simpa using bits.isLt), BitVec.ofNat_toNat, BitVec.setWidth_eq]
  have hbracket : ∀ text, readGivenChar '[' ('[' :: text) = some ((), text) := fun _ => rfl
  have hclose : ∀ text, readGivenChar ']' (']' :: text) = some ((), text) := fun _ => rfl
  rw [formatSocketAddr, readSocketAddrV6, hbracket, Option.bind_some]
  dsimp only
  rw [hread, Option.map_some, Option.bind_some]
  dsimp only [Prod.map, id_eq, List.nil_append]
  rw [readScopeId_format, hclose, Option.bind_some]
  dsimp only
  rw [readPort_toDigits, Option.map_some, hbits, UInt16.ofNat_toNat, UInt32.ofNat_toNat]

theorem parseSocketAddr_format (addr : ScopedAddr) :
    parseSocketAddr (formatSocketAddr addr) = some addr := by
  have hread : readSocketAddr (formatSocketAddr addr) = some (addr, []) := by
    cases addr with
    | v4 bits port =>
        rw [formatSocketAddr, readSocketAddr, readSocketAddrV4_format]
        rfl
    | v6 bits port scopeId =>
        have hbracket : readV4 (formatSocketAddr (.v6 bits port scopeId)) = none :=
          readV4_of_stops (stops_of_head (by decide) _)
        rw [readSocketAddr, readSocketAddrV6_format, readSocketAddrV4, hbracket]
        rfl
  rw [parseSocketAddr, parseWith, hread]
  rfl

/-! ## Hosts with a port -/

section

variable {α : Type} {text left : Text}

theorem suffix_readDigits {radix maxDigits acc count number found : Nat}
    (h : readDigits radix maxDigits acc count text = some (number, found, left)) :
    left <:+ text := by
  induction text generalizing acc count with
  | nil =>
      rw [readDigits, Option.some.injEq, Prod.mk.injEq, Prod.mk.injEq] at h
      exact h.2.2 ▸ List.suffix_refl _
  | cons c text ih =>
      rw [readDigits] at h
      split at h
      · rw [Option.some.injEq, Prod.mk.injEq, Prod.mk.injEq] at h
        exact h.2.2 ▸ List.suffix_refl _
      · split_ifs at h
        exact (ih h).trans (List.suffix_cons c text)

theorem suffix_readNumber {radix maxDigits bound number : Nat} {allowZeroPrefix : Bool}
    (h : readNumber radix maxDigits allowZeroPrefix bound text = some (number, left)) :
    left <:+ text := by
  rw [readNumber] at h
  split at h
  · cases h
  · rename_i hread
    split_ifs at h
    cases h
    exact suffix_readDigits hread

theorem suffix_readSeparator {inner : TextReader α} {separator : Char} {index : Nat} {found : α}
    (hinner : ∀ {text found left}, inner text = some (found, left) → left <:+ text)
    (h : readSeparator separator index inner text = some (found, left)) : left <:+ text := by
  unfold readSeparator at h
  split_ifs at h
  · exact hinner h
  · cases text with
    | nil => cases h
    | cons c text =>
        dsimp only at h
        split_ifs at h
        exact (hinner h).trans (List.suffix_cons c text)

theorem suffix_readOctets {index remaining : Nat} {octets : List Nat}
    (h : readOctets index remaining text = some (octets, left)) :
    left <:+ text ∧ octets.length = remaining := by
  induction remaining generalizing index text octets with
  | zero =>
      cases h
      exact ⟨List.suffix_refl _, rfl⟩
  | succ remaining ih =>
      rw [readOctets] at h
      obtain ⟨⟨octet, after⟩, hoctet, h⟩ := Option.bind_eq_some_iff.1 h
      obtain ⟨⟨others, last⟩, hothers, h⟩ := Option.bind_eq_some_iff.1 h
      cases h
      obtain ⟨hsuffix, hlength⟩ := ih hothers
      refine ⟨hsuffix.trans (suffix_readSeparator suffix_readNumber hoctet), ?_⟩
      rw [List.length_cons, hlength]

theorem readV4_of_notMem (hdot : '.' ∉ text) : readV4 text = none := by
  rw [readV4, readOctets]
  cases hfirst : readSeparator '.' 0 (readNumber 10 3 false 256) text with
  | none => rfl
  | some found =>
      obtain ⟨octet, left⟩ := found
      have hleft := suffix_readSeparator suffix_readNumber hfirst
      have hnext : readSeparator '.' 1 (readNumber 10 3 false 256) left = none := by
        cases left with
        | nil => rfl
        | cons c left =>
            have hc : c ≠ '.' := fun h => hdot (hleft.subset (h ▸ List.mem_cons_self))
            rw [readSeparator, if_neg (by decide)]
            exact if_neg hc
      simp [readOctets, hnext]

theorem readV4_formatV6 (bits : BitVec 128) : readV4 (formatV6 bits) = none := by
  obtain ⟨before, after, hformat, hbefore⟩ := List.eq_append_cons_of_mem (colon_mem_formatV6 bits)
  have hplain : '.' ∉ before := by
    intro hdot
    have hgroups : ∀ groups, '.' ∉ formatSegments groups := by
      intro groups hdot
      rcases mem_joined hdot with hcolon | ⟨group, -, hdigit⟩
      · cases hcolon
      · exact absurd (isAsciiHexdigit_of_mem_toDigits hdigit) (by decide)
    rcases formatV6_cases bits with ⟨low, -, -, hcase⟩ | ⟨first, len, last, -, -, hcase⟩ | hcase
    · rw [hformat] at hcase
      cases before with
      | nil => cases hdot
      | cons c before => exact hbefore ((List.cons.inj hcase).1 ▸ List.mem_cons_self)
    · have hmem : '.' ∈ formatV6 bits := hformat ▸ List.mem_append_left _ hdot
      rw [hcase] at hmem
      simp [hgroups] at hmem
    · exact hgroups _ (hcase ▸ hformat ▸ List.mem_append_left _ hdot)
  have hcolon : Stops 10 (':' :: after) := stops_of_head (by decide) after
  rw [hformat, detached_readV4 hcolon (by simp), readV4_of_notMem hplain]
  rfl

theorem readGroups_succ_of_notMem (hcolon : ':' ∉ text) (index remaining : Nat) :
    readGroups (index + 1) remaining text = ([], false, text) := by
  have hnone : ∀ {β : Type} (inner : TextReader β),
      readSeparator ':' (index + 1) inner text = none := by
    intro β inner
    cases text with
    | nil => rfl
    | cons c text =>
        have hc : c ≠ ':' := fun h => hcolon (h ▸ List.mem_cons_self)
        exact if_neg hc
  cases remaining with
  | zero => rfl
  | succ remaining =>
      rw [readGroups, hnone, hnone, ite_self]

theorem readGroups_of_notMem (hcolon : ':' ∉ text) :
    (readGroups 0 8 text).1.length < 8 ∧ (readGroups 0 8 text).2.2 <:+ text := by
  rw [readGroups, if_pos (by decide), readSeparator_zero, readSeparator_zero]
  cases hoctets : readV4 text with
  | some found =>
      obtain ⟨octets, left⟩ := found
      obtain ⟨hsuffix, hlength⟩ := suffix_readOctets hoctets
      obtain ⟨a, b, c, d, rfl⟩ : ∃ a b c d, octets = [a, b, c, d] := List.length_eq_four.1 hlength
      exact ⟨(by decide : 2 < 8), hsuffix⟩
  | none =>
      cases hgroup : readNumber 16 4 true 65536 text with
      | none => exact ⟨(by decide : 0 < 8), List.suffix_refl text⟩
      | some found =>
          obtain ⟨group, left⟩ := found
          have hleft := suffix_readNumber hgroup
          have hnext := readGroups_succ_of_notMem (fun h => hcolon (hleft.subset h)) 0 7
          simp only [hnext]
          exact ⟨(by decide : 1 < 8), hleft⟩

theorem readV6_of_notMem (hcolon : ':' ∉ text) : readV6 text = none := by
  obtain ⟨hlength, hsuffix⟩ := readGroups_of_notMem hcolon
  unfold readV6
  generalize readGroups 0 8 text = found at hlength hsuffix
  obtain ⟨head, embedded, left⟩ := found
  dsimp only at hlength hsuffix ⊢
  rw [if_neg (by omega)]
  split_ifs
  · rfl
  · split
    · exact absurd (hsuffix.subset List.mem_cons_self) hcolon
    · rfl

variable {host port : Text}

theorem parseIpAddr_v4_iff {bits : UInt32} :
    parseIpAddr host = some (.v4 bits) ↔
      ∃ octets, readV4 host = some (octets, []) ∧ bits = .ofNat (value 256 octets) := by
  rw [parseIpAddr, parseWith, readIpAddr]
  cases readV4 host with
  | some found =>
      obtain ⟨octets, left⟩ := found
      simp only [Option.map_some, Option.some_or, Option.bind_some, Option.ite_none_right_eq_some,
        Option.some.injEq, IpAddr.v4.injEq, Prod.mk.injEq]
      constructor
      · rintro ⟨rfl, rfl⟩
        exact ⟨octets, ⟨rfl, rfl⟩, rfl⟩
      · rintro ⟨_, ⟨rfl, rfl⟩, rfl⟩
        exact ⟨rfl, rfl⟩
  | none =>
      cases readV6 host with
      | none => simp
      | some found => simp

theorem parseIpAddr_format (ip : IpAddr) : parseIpAddr (AddrText.std.format ip) = some ip := by
  cases ip with
  | v4 bits =>
      refine parseIpAddr_v4_iff.2 ⟨_, readV4_formatV4 bits, ?_⟩
      rw [octets, value_places (by simpa using bits.toNat_lt), UInt32.ofNat_toNat]
  | v6 bits =>
      have hvalue : value 65536 (segments bits.toNat) = bits.toNat :=
        value_places (by simpa using bits.isLt)
      change parseWith readIpAddr (formatV6 bits) = some (.v6 bits)
      rw [parseWith, readIpAddr, readV4_formatV6, readV6_formatV6]
      simp [hvalue]

theorem parseIpAddr_of_notMem (hcolon : ':' ∉ host) {ip : IpAddr} (h : parseIpAddr host = some ip) :
    ∃ bits, ip = .v4 bits := by
  rw [parseIpAddr, parseWith, readIpAddr, readV6_of_notMem hcolon] at h
  cases hread : readV4 host with
  | none =>
      rw [hread] at h
      cases h
  | some found =>
      rw [hread] at h
      simp only [Option.map_some, Option.some_or, Option.bind_some,
        Option.ite_none_right_eq_some, Option.some.injEq] at h
      exact ⟨_, h.2.symm⟩

theorem readSocketAddrV6_of_head (h : text.head? ≠ some '[') : readSocketAddrV6 text = none := by
  have hgiven : readGivenChar '[' text = none := by
    cases text with
    | nil => rfl
    | cons c text =>
        have hc : c ≠ '[' := fun heq => h (congrArg some heq)
        exact if_neg hc
  rw [readSocketAddrV6, hgiven]
  rfl

theorem parseSocketAddr_of_literal {bits : UInt32} (h : parseIpAddr host = some (.v4 bits)) :
    parseSocketAddr (host ++ ':' :: port) =
      (parseWith (readUnlimited 65536) port).map (fun number => .v4 bits (.ofNat number)) := by
  obtain ⟨octets, hread, rfl⟩ := parseIpAddr_v4_iff.1 h
  have hrest : Stops 10 (':' :: port) := stops_of_head (by decide) port
  have hboth := detached_readV4 hrest (by simp) host
  rw [hread] at hboth
  have hbracket : (host ++ ':' :: port).head? ≠ some '[' := by
    intro hhead
    have hstops : Stops 10 (host ++ ':' :: port) := by
      intro c hc
      obtain rfl : '[' = c := Option.some.inj (hhead.symm.trans hc)
      decide
    rw [readV4_of_stops hstops] at hboth
    cases hboth
  have hport : readPort (':' :: port) = readUnlimited 65536 port := rfl
  rw [parseSocketAddr, parseWith, readSocketAddr, readSocketAddrV6_of_head hbracket,
    readSocketAddrV4, hboth, Option.or_none]
  simp only [Option.map_some, Prod.map_apply, id_eq, List.nil_append, Option.bind_some, hport]
  rw [parseWith]
  cases readUnlimited 65536 port with
  | none => rfl
  | some found =>
      obtain ⟨number, left⟩ := found
      simp only [Option.map_some, Option.bind_some]
      split_ifs <;> rfl

theorem parseSocketAddr_of_name (hname : parseIpAddr host = none) (hcolon : ':' ∉ host)
    (hbracket : host.head? ≠ some '[') :
    parseSocketAddr (host ++ ':' :: port) = none := by
  have hrest : Stops 10 (':' :: port) := stops_of_head (by decide) port
  have hboth := detached_readV4 hrest (by simp) host
  have hbracket' : (host ++ ':' :: port).head? ≠ some '[' := by
    cases host with
    | nil => simp
    | cons c host => exact hbracket
  have hnone : readSocketAddrV4 (host ++ ':' :: port) = none := by
    rw [readSocketAddrV4, hboth]
    cases hread : readV4 host with
    | none => rfl
    | some found =>
        obtain ⟨octets, left⟩ := found
        have hleft := (suffix_readOctets hread).1
        cases left with
        | nil =>
            have hliteral := parseIpAddr_v4_iff.2 ⟨octets, hread, rfl⟩
            cases hname.symm.trans hliteral
        | cons c left =>
            have hc : c ≠ ':' := fun heq => hcolon (hleft.subset (heq ▸ List.mem_cons_self))
            have hgiven : readPort (c :: (left ++ ':' :: port)) = none := by
              rw [readPort, readGivenChar, if_neg hc]
              rfl
            simp only [Option.map_some, Prod.map_apply, id_eq, List.cons_append, Option.bind_some,
              hgiven, Option.map_none]
  rw [parseSocketAddr, parseWith, readSocketAddr, hnone, readSocketAddrV6_of_head hbracket']
  rfl

end

end StdAddr

end Yggdrasil.Foundation
