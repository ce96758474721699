import Yggdrasil.Ratatoskr.Validation

/-!
# Targets as text

A target is read as a socket address first and as a name with a port after
that.  The two readings disagree on the port: the integer parser of the second
takes a plus sign that the address parser refuses.  So an IPv4 address with a
signed port is taken for a name, and writing the target out drops the sign.
-/

namespace Yggdrasil.Ratatoskr

open Foundation

namespace Target

def port : Target → UInt16
  | static addr => addr.port
  | dns _ port => port

def display : Target → String
  | static addr => String.ofList (StdAddr.formatSocketAddr addr)
  | dns host port => String.ofList (host.toList ++ ':' :: Nat.toDigits 10 port.toNat)

section

variable {lib : Library} {s : String} {t : Target}

theorem parseDns_ok_iff :
    parseDns lib s = .ok t ↔
      ∃ host portStr port, Text.rsplitOnce ':' s.toList = some (host, portStr) ∧ host ≠ [] ∧
        Text.parseU16 portStr = some port ∧ port ≠ 0 ∧
        isValidDnsHostname (String.ofList host) = true ∧ t = .dns (String.ofList host) port := by
  rw [parseDns]
  cases hsplit : Text.rsplitOnce ':' s.toList with
  | none => simp
  | some parts =>
      obtain ⟨host, portStr⟩ := parts
      dsimp only
      rw [require_bind_ok_iff, String.toList_ofList]
      cases hport : Text.parseU16 portStr with
      | none =>
          constructor
          · rintro ⟨-, h⟩
            cases h
          · rintro ⟨_, _, port, ⟨⟩, -, hfound, -⟩
            rw [hport] at hfound
            cases hfound
      | some port =>
          rw [require_bind_ok_iff, require_bind_ok_iff, Except.ok.injEq]
          constructor
          · rintro ⟨hhost, hzero, hvalid, rfl⟩
            refine ⟨host, portStr, port, rfl, ?_, hport, hzero, hvalid, rfl⟩
            rintro rfl
            exact hhost rfl
          · rintro ⟨_, _, found, ⟨⟩, hhost, hfound, hzero, hvalid, rfl⟩
            cases hport.symm.trans hfound
            refine ⟨?_, hzero, hvalid, rfl⟩
            intro hempty
            exact hhost (by simpa using congrArg String.toList hempty)

theorem parse_ok_iff :
    parse lib s = .ok t ↔
      (∃ addr, StdAddr.parseSocketAddr s.toList = some addr ∧ addr.port ≠ 0 ∧ t = .static addr) ∨
      StdAddr.parseSocketAddr s.toList = none ∧ parseDns lib s = .ok t := by
  rw [parse]
  cases StdAddr.parseSocketAddr s.toList with
  | none => simp
  | some addr =>
      dsimp only
      rw [require_bind_ok_iff, Except.ok.injEq]
      constructor
      · rintro ⟨hzero, rfl⟩
        exact .inl ⟨addr, rfl, hzero, rfl⟩
      · rintro (⟨_, ⟨⟩, hzero, rfl⟩ | ⟨⟨⟩, -⟩)
        exact ⟨hzero, rfl⟩

theorem parse_display_static {addr : ScopedAddr} (hport : addr.port ≠ 0) :
    parse lib (static addr).display = .ok (static addr) := by
  refine parse_ok_iff.2 (.inl ⟨addr, ?_, hport, rfl⟩)
  rw [display, String.toList_ofList]
  exact StdAddr.parseSocketAddr_format addr

variable {host : Text} {port : UInt16}

theorem notMem_of_validHost {c : Char} (hvalid : isValidDnsHostname (String.ofList host) = true)
    (hc : ¬(Text.isAsciiAlphanumeric c = true ∨ c = '-' ∨ c = '.')) : c ∉ host := by
  intro hmem
  exact hc (isValidDnsHostname_chars hvalid (by rwa [String.toList_ofList]))

theorem parse_display_dns_iff (hhost : host ≠ []) (hport : port ≠ 0)
    (hvalid : isValidDnsHostname (String.ofList host) = true) :
    parse lib (dns (String.ofList host) port).display = .ok (dns (String.ofList host) port) ↔
      StdAddr.parseIpAddr host = none := by
  have hcolon : ':' ∉ host := notMem_of_validHost hvalid (by decide)
  have hbracket : host.head? ≠ some '[' := fun h =>
    notMem_of_validHost hvalid (by decide) (List.mem_of_mem_head? h)
  have htext : (dns (String.ofList host) port).display.toList =
      host ++ ':' :: Nat.toDigits 10 port.toNat := by
    rw [display, String.toList_ofList, String.toList_ofList]
  rw [parse_ok_iff, parseDns_ok_iff, htext]
  constructor
  · rintro (⟨addr, -, -, hsame⟩ | ⟨hnone, -⟩)
    · cases hsame
    · cases hliteral : StdAddr.parseIpAddr host with
      | none => rfl
      | some ip =>
          obtain ⟨bits, rfl⟩ := StdAddr.parseIpAddr_of_notMem hcolon hliteral
          have hread := StdAddr.readUnlimited_toDigits 65536 port.toNat_lt StdAddr.stops_nil
          rw [List.append_nil] at hread
          rw [StdAddr.parseSocketAddr_of_literal hliteral, StdAddr.parseWith, hread] at hnone
          cases hnone
  · intro hname
    have hdigits : ':' ∉ Nat.toDigits 10 port.toNat := fun h =>
      absurd (AddrText.isAsciiDigit_of_mem_toDigits h) (by decide)
    refine .inr ⟨StdAddr.parseSocketAddr_of_name hname hcolon hbracket, host, _, port, ?_, hhost,
      AddrText.parseU16_toDigits port, hport, hvalid, rfl⟩
    exact Text.rsplitOnce_append hdigits

theorem parseWith_readUnlimited {portStr : Text} (hport : Text.parseU16 portStr = some port)
    (hsign : portStr.head? ≠ some '+') :
    (StdAddr.parseWith (StdAddr.readUnlimited 65536) portStr).isSome := by
  rw [Text.parseU16, if_neg hsign, Option.ite_none_right_eq_some, List.all_eq_true] at hport
  obtain ⟨⟨hne, hdigits, hsmall⟩, -⟩ := hport
  have hread := StdAddr.readUnlimited_digits 65536 hne hdigits StdAddr.stops_nil hsmall
  rw [List.append_nil] at hread
  rw [StdAddr.parseWith, hread]
  rfl

theorem parseWith_readUnlimited_signed (digits : Text) :
    StdAddr.parseWith (StdAddr.readUnlimited 65536) ('+' :: digits) = none := by
  have hread : StdAddr.readUnlimited 65536 ('+' :: digits) = none :=
    StdAddr.readUnlimited_of_stops (StdAddr.stops_of_head (by decide) digits)
  rw [StdAddr.parseWith, hread]
  rfl

end

def SignedLiteral (s : String) : Prop :=
  ∃ host bits digits, s.toList = host ++ ':' :: '+' :: digits ∧
    StdAddr.parseIpAddr host = some (.v4 bits)

section

variable {lib : Library} {s : String} {t : Target}

theorem SignedLiteral.parseSocketAddr (h : SignedLiteral s) :
    StdAddr.parseSocketAddr s.toList = none := by
  obtain ⟨host, bits, digits, hs, hliteral⟩ := h
  rw [hs, StdAddr.parseSocketAddr_of_literal hliteral, parseWith_readUnlimited_signed]
  rfl

theorem signedLiteral_iff {host portStr : Text} {port : UInt16}
    (hnone : StdAddr.parseSocketAddr s.toList = none)
    (hsplit : Text.rsplitOnce ':' s.toList = some (host, portStr))
    (hport : Text.parseU16 portStr = some port) (hcolon : ':' ∉ host) :
    SignedLiteral s ↔ StdAddr.parseIpAddr host ≠ none := by
  obtain ⟨hs, hlast⟩ := Text.eq_of_rsplitOnce hsplit
  constructor
  · rintro ⟨host', bits, digits, hs', hliteral⟩
    -- the text has one colon, so both splits are at the same place
    have hcolon' : ':' ∉ host' := by
      have hcount := congrArg (List.count ':') (hs'.symm.trans hs)
      rw [List.count_append, List.count_append, List.count_cons_self, List.count_cons_self,
        List.count_eq_zero.2 hcolon, List.count_eq_zero.2 hlast] at hcount
      exact List.count_eq_zero.1 (by omega)
    have hfirst : Text.splitOnce ':' s.toList = some (host, portStr) := by
      rw [hs]
      exact Text.splitOnce_append hcolon
    have hfirst' : Text.splitOnce ':' s.toList = some (host', '+' :: digits) := by
      rw [hs']
      exact Text.splitOnce_append hcolon'
    obtain ⟨rfl, -⟩ := Prod.mk.inj (Option.some.inj (hfirst.symm.trans hfirst'))
    rw [hliteral]
    exact Option.some_ne_none _
  · intro hliteral
    obtain ⟨ip, hip⟩ := Option.ne_none_iff_exists'.1 hliteral
    obtain ⟨bits, rfl⟩ := StdAddr.parseIpAddr_of_notMem hcolon hip
    rw [hs, StdAddr.parseSocketAddr_of_literal hip, Option.map_eq_none_iff] at hnone
    have hsign : portStr.head? = some '+' := by
      by_contra hsign
      have hsome := parseWith_readUnlimited hport hsign
      rw [hnone] at hsome
      cases hsome
    obtain ⟨digits, rfl⟩ := List.head?_eq_some_iff.1 hsign
    exact ⟨host, bits, digits, hs, hip⟩

/-- The text of a target is read as the same target, and no name is an address, unless an IPv4
address came with a signed port. -/
theorem target_text_stable_iff (h : parse lib s = .ok t) :
    (parse lib t.display = .ok t ∧
      ∀ host port, t = .dns host port → StdAddr.parseIpAddr host.toList = none) ↔
      ¬SignedLiteral s := by
  rcases parse_ok_iff.1 h with ⟨addr, haddr, hport, rfl⟩ | ⟨hnone, hdns⟩
  · have hunsigned : ¬SignedLiteral s := by
      intro hsigned
      rw [hsigned.parseSocketAddr] at haddr
      cases haddr
    exact iff_of_true ⟨parse_display_static hport, nofun⟩ hunsigned
  · obtain ⟨host, portStr, port, hsplit, hhost, hport, hzero, hvalid, rfl⟩ := parseDns_ok_iff.1 hdns
    have hcolon : ':' ∉ host := notMem_of_validHost hvalid (by decide)
    rw [parse_display_dns_iff hhost hzero hvalid, signedLiteral_iff hnone hsplit hport hcolon,
      not_not]
    constructor
    · exact And.left
    · intro hname
      refine ⟨hname, ?_⟩
      intro host' port' hsame
      obtain ⟨rfl, -⟩ := dns.inj hsame
      rwa [String.toList_ofList]

end

theorem target_text_stable_name :
    parse Library.plain "printer.lan:9100" = .ok (.dns "printer.lan" 9100) ∧
      parse Library.plain (dns "printer.lan" 9100).display = .ok (.dns "printer.lan" 9100) ∧
      StdAddr.parseIpAddr "printer.lan".toList = none := by
  have hparse : parse Library.plain "printer.lan:9100" = .ok (.dns "printer.lan" 9100) := rfl
  have hunsigned : ¬SignedLiteral "printer.lan:9100" := by
    rintro ⟨host, bits, digits, hs, -⟩
    have hsign : '+' ∈ "printer.lan:9100".toList := by
      rw [hs]
      simp
    exact absurd hsign (by decide)
  obtain ⟨hagain, hname⟩ := (target_text_stable_iff hparse).2 hunsigned
  exact ⟨hparse, hagain, hname _ _ rfl⟩

/-- The address becomes a name, and the name an address again. -/
theorem signed_port_changes_target :
    parse Library.plain "1.2.3.4:+80" = .ok (.dns "1.2.3.4" 80) ∧
      (dns "1.2.3.4" 80).display = "1.2.3.4:80" ∧
      parse Library.plain "1.2.3.4:80" = .ok (.static (.v4 0x01020304 80)) ∧
      StdAddr.parseIpAddr "1.2.3.4".toList = some (.v4 0x01020304) := by
  refine ⟨?_, ?_, ?_, ?_⟩
  · rfl
  · rfl
  · rfl
  · rfl

end Target

end Yggdrasil.Ratatoskr
