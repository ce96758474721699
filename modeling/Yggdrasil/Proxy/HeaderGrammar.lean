import Yggdrasil.Foundation.StdAddr
import Yggdrasil.Proxy.HeaderDetection
import Yggdrasil.Proxy.ProxyHeader

/-!
# The lines of version 1 that are accepted

The specification of the header describes one line: its words, its addresses and
ports, and its greatest length.  The decoder reads up to the first line break
and looks at the words in order.  What it accepts beyond the specification is a
line one byte too long, more text right after `UNKNOWN`, more words than there
are fields, and a plus sign before a port.
-/

namespace Yggdrasil.Proxy

open Foundation Ratatoskr

def FirstLine (stream line rest : Bytes) : Prop :=
  stream = line ++ 13 :: 10 :: rest ∧ ¬ [13, 10] <:+: line

def OfFamily (text : AddrText) (family addr : Text) : Prop :=
  (family = "TCP4".toList ∧ (text.parseV4 addr).isSome = true) ∨
    (family = "TCP6".toList ∧ (text.parseV6 addr).isSome = true)

def DecimalPort (port : Text) : Prop :=
  port ≠ [] ∧ (∀ c ∈ port, Text.isAsciiDigit c = true) ∧ Text.digitsValue port ≤ 65535

def WellFormed (text : AddrText) (line : Text) : Prop :=
  (∃ family client server clientPort serverPort,
    line.splitOn ' ' = ["PROXY".toList, family, client, server, clientPort, serverPort] ∧
      OfFamily text family client ∧ OfFamily text family server ∧
      DecimalPort clientPort ∧ DecimalPort serverPort) ∨
    line = "PROXY UNKNOWN".toList ∨ "PROXY UNKNOWN ".toList <+: line

def utf8Bytes (line : Text) : Bytes := line.flatMap String.utf8EncodeChar

def Conforms (text : AddrText) (stream : Bytes) : Prop :=
  ∃ line rest, FirstLine stream (utf8Bytes line) rest ∧
    (utf8Bytes line).length + 2 ≤ v1MaxLine ∧ WellFormed text line

variable {rest line : Bytes} {port : Text} {parse : Text → Option IpAddr}

theorem line_break_cases {between rest' : Bytes}
    (h : 13 :: 10 :: rest = between ++ 13 :: 10 :: rest') :
    (between = [] ∧ rest = rest') ∨ [13, 10] <+: between := by
  match between with
  | [] => exact .inl ⟨rfl, (List.cons.inj (List.cons.inj h).2).2⟩
  | [first] => cases (List.cons.inj (List.cons.inj h).2).1
  | first :: second :: between =>
      obtain ⟨hfirst, htail⟩ := List.cons.inj h
      obtain ⟨hsecond, -⟩ := List.cons.inj htail
      rw [← hfirst, ← hsecond]
      exact .inr ⟨between, rfl⟩

theorem FirstLine.unique {stream line' rest' : Bytes} (h : FirstLine stream line rest)
    (h' : FirstLine stream line' rest') : line = line' ∧ rest = rest' := by
  have hwithin : ∀ {first between : Bytes}, [13, 10] <+: between → [13, 10] <:+: first ++ between :=
    fun hstart => hstart.isInfix.trans (List.suffix_append _ _).isInfix
  rcases List.append_eq_append_iff.1 (h.1.symm.trans h'.1) with
    ⟨between, rfl, hrest⟩ | ⟨between, rfl, hrest⟩
  · rcases line_break_cases hrest with ⟨rfl, hsame⟩ | hstart
    · exact ⟨(List.append_nil _).symm, hsame⟩
    · exact absurd (hwithin hstart) h'.2
  · rcases line_break_cases hrest with ⟨rfl, hsame⟩ | hstart
    · exact ⟨List.append_nil _, hsame.symm⟩
    · exact absurd (hwithin hstart) h.2

theorem no_break_concat {byte : UInt8} (hline : ¬ [13, 10] <:+: line)
    (hbyte : ¬ (byte.toNat = 10 ∧ line.getLast? = some 13)) : ¬ [13, 10] <:+: line ++ [byte] := by
  rw [List.infix_concat_iff, not_or]
  refine ⟨?_, hline⟩
  rintro ⟨before, hbefore⟩
  have hsplit : (before ++ [13]) ++ [10] = line ++ [byte] := by simpa using hbefore
  obtain ⟨rfl, hlast⟩ := List.append_inj' hsplit rfl
  obtain rfl := List.singleton_inj.1 hlast
  exact hbyte ⟨rfl, List.getLast?_concat⟩

theorem readLine_ok_iff {more read : Bytes} (hline : ¬ [13, 10] <:+: line)
    (hlength : line.length ≤ v1MaxLine) :
    readLine line (line.getLast? = some 13) more = .ok (read, rest) ↔
      ∃ first, FirstLine (line ++ more) first rest ∧ read = first ++ [13, 10] ∧
        first.length + 1 ≤ v1MaxLine := by
  induction more generalizing line with
  | nil =>
      constructor
      · intro h
        cases h
      · rintro ⟨first, ⟨hstream, -⟩, -⟩
        rw [List.append_nil] at hstream
        exact absurd ⟨first, rest, by simp [hstream]⟩ hline
  | cons byte more ih =>
      rw [readLine]
      simp only [decide_eq_true_eq]
      by_cases hend : byte.toNat = 10 ∧ line.getLast? = some 13
      · obtain ⟨before, rfl⟩ := List.getLast?_eq_some_iff.1 hend.2
        obtain rfl : byte = 10 := UInt8.toNat_inj.1 hend.1
        have hfirst : FirstLine (before ++ [13] ++ 10 :: more) before more :=
          ⟨by simp, fun hbreak => hline (hbreak.trans (List.prefix_append _ _).isInfix)⟩
        rw [if_pos hend]
        constructor
        · intro h
          cases h
          exact ⟨before, hfirst, by simp, by simpa using hlength⟩
        · rintro ⟨first, hother, rfl, -⟩
          obtain ⟨rfl, rfl⟩ := hfirst.unique hother
          simp
      · have hnext := no_break_concat hline hend
        rw [if_neg hend]
        by_cases hlong : v1MaxLine < (line ++ [byte]).length
        · rw [if_pos hlong]
          constructor
          · intro h
            cases h
          · rintro ⟨first, ⟨hstream, -⟩, -, hshort⟩
            -- A break that is short enough would lie within what has been read.
            have hbreak : first ++ [13, 10] <+: line ++ byte :: more := ⟨rest, by simp [hstream]⟩
            have hread : line ++ [byte] <+: line ++ byte :: more := ⟨more, by simp⟩
            have hle : (first ++ [13, 10]).length ≤ (line ++ [byte]).length := by
              rw [List.length_append, List.length_cons, List.length_singleton]
              omega
            have hwithin := List.prefix_of_prefix_length_le hbreak hread hle
            exact absurd ((List.suffix_append _ _).isInfix.trans hwithin.isInfix) hnext
        · have hflag : decide (byte.toNat = 13) = decide ((line ++ [byte]).getLast? = some 13) := by
            rw [List.getLast?_concat, decide_eq_decide, Option.some.injEq, ← UInt8.toNat_inj]
            rfl
          rw [if_neg hlong, hflag, ih hnext (Nat.le_of_not_lt hlong), List.append_assoc,
            List.singleton_append]

/-- What the decoder takes for a port: a sign may stand before the digits. -/
def ReadablePort (port : Text) : Prop :=
  DecimalPort port ∨ ∃ digits, port = '+' :: digits ∧ DecimalPort digits

theorem decimalPort_iff :
    DecimalPort port ↔
      port ≠ [] ∧ port.all Text.isAsciiDigit = true ∧ Text.digitsValue port < 2 ^ 16 := by
  rw [DecimalPort, List.all_eq_true, show 2 ^ 16 = 65535 + 1 from rfl, Nat.lt_succ_iff]

theorem DecimalPort.head?_ne (h : DecimalPort port) : port.head? ≠ some '+' := by
  intro hhead
  exact absurd (h.2.1 '+' (List.mem_of_mem_head? hhead)) (by decide)

theorem exists_parseU16_iff : (∃ value, Text.parseU16 port = some value) ↔ ReadablePort port := by
  have hread : (∃ value, Text.parseU16 port = some value) ↔
      DecimalPort (if port.head? = some '+' then port.tail else port) := by
    rw [decimalPort_iff, Text.parseU16]
    generalize (if port.head? = some '+' then port.tail else port) = digits
    split
    · rename_i hdigits
      exact iff_of_true ⟨_, rfl⟩ hdigits
    · rename_i hdigits
      exact iff_of_false (by simp) hdigits
  rw [hread, ReadablePort]
  by_cases hsign : port.head? = some '+'
  · obtain ⟨digits, rfl⟩ := List.head?_eq_some_iff.1 hsign
    rw [if_pos hsign, List.tail_cons]
    constructor
    · exact fun h => .inr ⟨digits, rfl, h⟩
    · rintro (h | ⟨other, hother, h⟩)
      · exact absurd hsign h.head?_ne
      · exact (List.cons.inj hother).2 ▸ h
  · rw [if_neg hsign]
    constructor
    · exact .inl
    · rintro (h | ⟨digits, rfl, h⟩)
      · exact h
      · exact absurd rfl hsign

theorem exists_parseAddr_iff (error : String) {addr : Text} :
    (∃ socket, parseAddr parse error addr port = .ok socket) ↔
      (parse addr).isSome = true ∧ ReadablePort port := by
  rw [← exists_parseU16_iff, parseAddr]
  cases parse addr with
  | none => simp
  | some ip =>
      cases hport : Text.parseU16 port with
      | none => simp [parsePort, hport, Except.map]
      | some value => simp [parsePort, hport, Except.map]

theorem exists_parseEndpoints_iff (error : String) {cli srv cp sp : Text} :
    (∃ endpoints, parseEndpoints parse error cli srv cp sp = .ok endpoints) ↔
      ((parse cli).isSome = true ∧ ReadablePort cp) ∧
        (parse srv).isSome = true ∧ ReadablePort sp := by
  rw [← exists_parseAddr_iff error, ← exists_parseAddr_iff error]
  constructor
  · rintro ⟨endpoints, h⟩
    obtain ⟨client, hclient, h⟩ := bind_ok_iff.1 h
    obtain ⟨server, hserver, -⟩ := bind_ok_iff.1 h
    exact ⟨⟨client, hclient⟩, server, hserver⟩
  · rintro ⟨⟨client, hclient⟩, server, hserver⟩
    exact ⟨_, bind_ok_iff.2 ⟨client, hclient, bind_ok_iff.2 ⟨server, hserver, rfl⟩⟩⟩

section

variable (text : AddrText)

def Worded (words : List Text) : Prop :=
  ∃ family client server clientPort serverPort extra,
    words = family :: client :: server :: clientPort :: serverPort :: extra ∧
      OfFamily text family client ∧ OfFamily text family server ∧
      ReadablePort clientPort ∧ ReadablePort serverPort

variable {addr line : Text}

theorem ofFamily_v4 : OfFamily text "TCP4".toList addr ↔ (text.parseV4 addr).isSome = true := by
  have hne : "TCP4".toList ≠ "TCP6".toList := by decide
  simp only [OfFamily, hne, true_and, false_and, or_false]

theorem ofFamily_v6 : OfFamily text "TCP6".toList addr ↔ (text.parseV6 addr).isSome = true := by
  have hne : "TCP6".toList ≠ "TCP4".toList := by decide
  simp only [OfFamily, hne, true_and, false_and, false_or]

theorem not_ofFamily {family : Text} (h4 : family ≠ "TCP4".toList)
    (h6 : family ≠ "TCP6".toList) : ¬ OfFamily text family addr := by
  rintro (⟨h, -⟩ | ⟨h, -⟩)
  · exact h4 h
  · exact h6 h

theorem worded_cons_iff {family client server clientPort serverPort : Text} {extra : List Text} :
    Worded text (family :: client :: server :: clientPort :: serverPort :: extra) ↔
      (OfFamily text family client ∧ ReadablePort clientPort) ∧
        OfFamily text family server ∧ ReadablePort serverPort := by
  constructor
  · rintro ⟨_, _, _, _, _, _, hwords, hclient, hserver, hcp, hsp⟩
    simp only [List.cons.injEq] at hwords
    obtain ⟨rfl, rfl, rfl, rfl, rfl, -⟩ := hwords
    exact ⟨⟨hclient, hcp⟩, hserver, hsp⟩
  · rintro ⟨⟨hclient, hcp⟩, hserver, hsp⟩
    exact ⟨_, _, _, _, _, _, rfl, hclient, hserver, hcp, hsp⟩

theorem exists_v1Endpoints_iff {rest : Text} :
    (∃ endpoints, v1Endpoints text rest = .ok endpoints) ↔
      "UNKNOWN".toList <+: rest ∨ Worded text (rest.splitOn ' ') := by
  unfold v1Endpoints
  by_cases hunknown : "UNKNOWN".toList <+: rest
  · rw [if_pos hunknown]
    exact iff_of_true ⟨_, rfl⟩ (.inl hunknown)
  · rw [if_neg hunknown, or_iff_right hunknown]
    generalize rest.splitOn ' ' = words
    match words with
    | fam :: cli :: srv :: cp :: sp :: extra =>
        dsimp only
        rw [worded_cons_iff]
        by_cases h4 : fam = "TCP4".toList
        · subst h4
          rw [if_pos rfl, exists_parseEndpoints_iff, ofFamily_v4, ofFamily_v4]
          simp only [Option.isSome_map]
        · rw [if_neg h4]
          by_cases h6 : fam = "TCP6".toList
          · subst h6
            rw [if_pos rfl, exists_parseEndpoints_iff, ofFamily_v6, ofFamily_v6]
            simp only [Option.isSome_map]
          · rw [if_neg h6]
            refine iff_of_false (fun ⟨_, h⟩ => by cases h) ?_
            exact fun h => not_ofFamily text h4 h6 h.1.1
    | [_, _, _, _] | [_, _, _] | [_, _] | [_] | [] =>
        refine iff_of_false (fun ⟨_, h⟩ => by cases h) ?_
        rintro ⟨_, _, _, _, _, _, h, -⟩
        simp at h

/-! ## Whole lines -/

/-- The decoder's own reading of a line. -/
def Accepted (line : Text) : Prop :=
  "PROXY UNKNOWN".toList <+: line ∨
    ∃ words, line.splitOn ' ' = "PROXY".toList :: words ∧ Worded text words

omit text in
theorem proxy_eq : "PROXY ".toList = "PROXY".toList ++ [' '] := by decide

omit text in
theorem unknown_eq : "PROXY UNKNOWN".toList = "PROXY ".toList ++ "UNKNOWN".toList := by decide

omit text in
theorem unknown_space_eq : "PROXY UNKNOWN ".toList = "PROXY UNKNOWN".toList ++ [' '] := by decide

omit text in
theorem splitOn_proxy (rest : Text) :
    ("PROXY ".toList ++ rest).splitOn ' ' = "PROXY".toList :: rest.splitOn ' ' := by
  have hplain : ∀ c ∈ "PROXY".toList, (c == ' ') = false := by simp
  rw [proxy_eq, List.append_assoc, List.singleton_append]
  exact List.splitOnP_append_cons_of_forall_mem hplain ' ' rfl rest

omit text in
theorem eq_of_splitOn_proxy {first : Text} {others : List Text}
    (h : line.splitOn ' ' = "PROXY".toList :: first :: others) :
    ∃ rest, line = "PROXY ".toList ++ rest ∧ rest.splitOn ' ' = first :: others := by
  have hline : [' '].intercalate (line.splitOn ' ') = line := List.intercalate_splitOn ' '
  have hjoined : line = "PROXY ".toList ++ [' '].intercalate (first :: others) := by
    rw [proxy_eq, List.append_assoc, ← hline, h]
    rfl
  refine ⟨_, hjoined, ?_⟩
  rw [hjoined, splitOn_proxy] at h
  exact (List.cons.inj h).2

theorem accepted_iff :
    Accepted text line ↔ ∃ rest, line = "PROXY ".toList ++ rest ∧
      ∃ endpoints, v1Endpoints text rest = .ok endpoints := by
  simp only [exists_v1Endpoints_iff]
  constructor
  · rintro (⟨after, rfl⟩ | ⟨words, hwords, hworded⟩)
    · refine ⟨"UNKNOWN".toList ++ after, ?_, .inl (List.prefix_append _ _)⟩
      rw [unknown_eq, List.append_assoc]
    · obtain ⟨family, client, server, clientPort, serverPort, extra, rfl, -⟩ := id hworded
      obtain ⟨rest, hline, hrest⟩ := eq_of_splitOn_proxy hwords
      exact ⟨rest, hline, .inr (hrest ▸ hworded)⟩
  · rintro ⟨rest, rfl, hunknown | hworded⟩
    · obtain ⟨after, rfl⟩ := hunknown
      refine .inl ⟨after, ?_⟩
      rw [unknown_eq, List.append_assoc]
    · exact .inr ⟨_, splitOn_proxy rest, hworded⟩

theorem v1Body_ok_iff {line : Bytes} {endpoints : Option ProxyEndpoints} :
    v1Body text (line ++ [13, 10]) = .ok endpoints ↔
      ∃ rest, line = utf8Bytes ("PROXY ".toList ++ rest) ∧
        v1Endpoints text rest = .ok endpoints := by
  constructor
  · intro h
    have htake : (line ++ [13, 10]).take ((line ++ [13, 10]).length - 2) = line :=
      List.take_left' (by rw [List.length_append, List.length_cons, List.length_singleton]; omega)
    rw [v1Body, htake] at h
    split at h
    · cases h
    · rename_i body hbody
      split at h
      · rename_i hprefix
        obtain ⟨rest, hrest⟩ := hprefix
        rw [← hrest] at h
        refine ⟨rest, ?_, h⟩
        rw [hrest]
        exact Text.fromUTF8?_eq_some_iff.1 hbody
      · cases h
  · rintro ⟨rest, rfl, h⟩
    exact (v1Body_line text rest).trans h

theorem exists_decodeV1_iff {more : Bytes} :
    (∃ decoded, decodeV1 text 0x50 (asciiBytes "ROXY " ++ more) = .ok decoded) ↔
      ∃ line rest, FirstLine (v1Sig ++ more) (utf8Bytes line) rest ∧
        (utf8Bytes line).length + 2 ≤ v1MaxLine + 1 ∧ Accepted text line := by
  have hread : readExact 5 (asciiBytes "ROXY " ++ more) = .ok (asciiBytes "ROXY ", more) :=
    readExact_left rfl
  have hline : ∀ line rest, readLine (asciiBytes "PROXY ") false more = .ok (line, rest) ↔
      ∃ first, FirstLine (v1Sig ++ more) first rest ∧ line = first ++ [13, 10] ∧
        first.length + 1 ≤ v1MaxLine := by
    have hplain : ¬ [13, 10] <:+: asciiBytes "PROXY " := by decide
    have hshort : (asciiBytes "PROXY ").length ≤ v1MaxLine := by decide
    exact fun line rest => readLine_ok_iff hplain hshort
  simp only [accepted_iff]
  constructor
  · rintro ⟨decoded, h⟩
    obtain ⟨_, hexact, h⟩ := bind_ok_iff.1 h
    cases hread.symm.trans hexact
    dsimp only at h
    rw [if_neg (not_not.2 rfl)] at h
    obtain ⟨⟨line, rest⟩, hfound, h⟩ := bind_ok_iff.1 h
    obtain ⟨endpoints, hbody, -⟩ := bind_ok_iff.1 h
    obtain ⟨first, hfirst, rfl, hlength⟩ := (hline line rest).1 hfound
    obtain ⟨words, rfl, hwords⟩ := (v1Body_ok_iff text).1 hbody
    exact ⟨_, rest, hfirst, Nat.succ_le_succ hlength, words, rfl, endpoints, hwords⟩
  · rintro ⟨line, rest, hfirst, hlength, words, rfl, endpoints, hwords⟩
    have hbody := (v1Body_ok_iff text).2 ⟨words, rfl, hwords⟩
    refine ⟨(⟨endpoints, []⟩, rest), bind_ok_iff.2 ⟨_, hread, ?_⟩⟩
    dsimp only
    rw [if_neg (not_not.2 rfl)]
    refine bind_ok_iff.2 ⟨_, (hline _ rest).2 ⟨_, hfirst, rfl, Nat.le_of_succ_le_succ hlength⟩, ?_⟩
    exact bind_ok_iff.2 ⟨_, hbody, rfl⟩

def Glued (line : Text) : Prop :=
  ∃ c after, c ≠ ' ' ∧ line = "PROXY UNKNOWN".toList ++ c :: after

/-- The number of words is not six, or there is a sign before a port. -/
def Overfull (line : Text) : Prop :=
  ¬ "PROXY UNKNOWN".toList <+: line ∧
    ((line.splitOn ' ').length ≠ 6 ∨
      ∃ port ∈ (line.splitOn ' ').drop 4, port.head? = some '+')

theorem accepted_of_wellFormed (h : WellFormed text line) : Accepted text line := by
  rcases h with
    ⟨family, client, server, clientPort, serverPort, hwords, hclient, hserver, hcp, hsp⟩ | rfl |
      hunknown
  · exact .inr ⟨_, hwords, _, _, _, _, _, [], rfl, hclient, hserver, .inl hcp, .inl hsp⟩
  · exact .inl (List.prefix_refl _)
  · rw [unknown_space_eq] at hunknown
    exact .inl ((List.prefix_append _ _).trans hunknown)

theorem not_wellFormed_of_glued (h : Glued line) : ¬ WellFormed text line := by
  obtain ⟨c, after, hc, rfl⟩ := h
  rintro (⟨family, client, server, clientPort, serverPort, hwords, hclient, -⟩ | hline | hspace)
  · obtain ⟨rest, hline, hrest⟩ := eq_of_splitOn_proxy hwords
    rw [unknown_eq, List.append_assoc] at hline
    have hstart : rest = "UNKNOWN".toList ++ c :: after := (List.append_cancel_left hline).symm
    have hjoined : [' '].intercalate (rest.splitOn ' ') = rest := List.intercalate_splitOn ' '
    rw [hrest, hstart] at hjoined
    rcases hclient with ⟨rfl, -⟩ | ⟨rfl, -⟩
    · cases (List.cons.inj hjoined).1
    · cases (List.cons.inj hjoined).1
  · simp at hline
  · obtain ⟨rest, hrest⟩ := hspace
    rw [unknown_space_eq, List.append_assoc, List.singleton_append] at hrest
    exact hc (List.cons.inj (List.append_cancel_left hrest)).1.symm

theorem not_wellFormed_of_overfull (h : Overfull line) : ¬ WellFormed text line := by
  obtain ⟨hunknown, hwords⟩ := h
  intro hwell
  rcases hwell with ⟨family, client, server, clientPort, serverPort, hsplit, -, -, hcp, hsp⟩ |
    rfl | hspace
  · rw [hsplit] at hwords
    rcases hwords with hcount | ⟨port, hport, hsign⟩
    · exact hcount rfl
    · rcases List.mem_pair.1 hport with rfl | rfl
      · exact hcp.head?_ne hsign
      · exact hsp.head?_ne hsign
  · exact hunknown (List.prefix_refl _)
  · rw [unknown_space_eq] at hspace
    exact hunknown ((List.prefix_append _ _).trans hspace)

omit text in
theorem ReadablePort.decimal {port : Text} (h : ReadablePort port)
    (hsign : port.head? ≠ some '+') : DecimalPort port := by
  rcases h with h | ⟨digits, rfl, -⟩
  · exact h
  · exact absurd rfl hsign

theorem not_wellFormed_iff (h : Accepted text line) :
    ¬ WellFormed text line ↔ Glued line ∨ Overfull line := by
  constructor
  · intro hnot
    by_cases hunknown : "PROXY UNKNOWN".toList <+: line
    · obtain ⟨after, rfl⟩ := hunknown
      cases after with
      | nil => exact absurd (.inr (.inl (List.append_nil _))) hnot
      | cons c after =>
          refine .inl ⟨c, after, ?_, rfl⟩
          rintro rfl
          refine hnot (.inr (.inr ⟨after, ?_⟩))
          rw [unknown_space_eq, List.append_assoc, List.singleton_append]
    · refine .inr ⟨hunknown, ?_⟩
      rcases h with hprefix | ⟨words, hsplit, hworded⟩
      · exact absurd hprefix hunknown
      · obtain ⟨family, client, server, clientPort, serverPort, extra, rfl, hclient, hserver, hcp,
          hsp⟩ := hworded
        by_contra hnone
        rw [not_or, hsplit] at hnone
        obtain ⟨hcount, hsign⟩ := hnone
        have hextra : extra = [] := by simpa using hcount
        subst hextra
        have hunsigned : ∀ port ∈ [clientPort, serverPort], port.head? ≠ some '+' :=
          fun port hport hplus => hsign ⟨port, hport, hplus⟩
        exact hnot (.inl ⟨family, client, server, clientPort, serverPort, hsplit, hclient, hserver,
          hcp.decimal (hunsigned clientPort (by simp)),
          hsp.decimal (hunsigned serverPort (by simp))⟩)
  · rintro (hglued | hoverfull)
    · exact not_wellFormed_of_glued text hglued
    · exact not_wellFormed_of_overfull text hoverfull

omit text in
theorem utf8Bytes_inj {line' : Text} (h : utf8Bytes line = utf8Bytes line') : line = line' := by
  have hread := Text.fromUTF8?_utf8 line
  rw [show line.flatMap String.utf8EncodeChar = line'.flatMap String.utf8EncodeChar from h,
    Text.fromUTF8?_utf8] at hread
  exact (String.ofList_injective (Option.some.inj hread)).symm

end

/--
The decoder accepts exactly the conforming streams, but for lines that it reads
although they are one byte too long, glued to `UNKNOWN`, too full or signed.
-/
theorem v1_acceptance_iff (text : AddrText) (more : Bytes) :
    ((∃ decoded, decodeV1 text 0x50 (asciiBytes "ROXY " ++ more) = .ok decoded) ↔
      Conforms text (v1Sig ++ more)) ↔
    ¬ ∃ line rest, FirstLine (v1Sig ++ more) (utf8Bytes line) rest ∧
      (utf8Bytes line).length + 2 ≤ v1MaxLine + 1 ∧ Accepted text line ∧
      ((utf8Bytes line).length + 2 = v1MaxLine + 1 ∨ Glued line ∨ Overfull line) := by
  rw [exists_decodeV1_iff]
  constructor
  · rintro hsame ⟨line, rest, hfirst, hlength, haccepted, hdeparts⟩
    obtain ⟨line', rest', hfirst', hlength', hwell⟩ :=
      hsame.1 ⟨line, rest, hfirst, hlength, haccepted⟩
    obtain rfl := utf8Bytes_inj (hfirst.unique hfirst').1
    rcases hdeparts with hlong | hdeparts
    · omega
    · exact (not_wellFormed_iff text haccepted).2 hdeparts hwell
  · intro hnone
    constructor
    · rintro ⟨line, rest, hfirst, hlength, haccepted⟩
      by_contra hnot
      refine hnone ⟨line, rest, hfirst, hlength, haccepted, ?_⟩
      by_cases hlong : (utf8Bytes line).length + 2 = v1MaxLine + 1
      · exact .inl hlong
      · refine .inr ((not_wellFormed_iff text haccepted).1 fun hwell => hnot ?_)
        exact ⟨line, rest, hfirst, by omega, hwell⟩
    · rintro ⟨line, rest, hfirst, hlength, hwell⟩
      exact ⟨line, rest, hfirst, hlength.trans (Nat.le_succ _), accepted_of_wellFormed text hwell⟩

theorem no_break_of_notMem (h : 13 ∉ line) : ¬ [13, 10] <:+: line :=
  fun hbreak => h (hbreak.subset List.mem_cons_self)

def longLine : Text := "PROXY UNKNOWN".toList ++ ' ' :: List.replicate 92 'x'

def signedLine : Text := "PROXY TCP4 192.0.2.1 192.0.2.2 +80 443 more".toList

/-- A line of 108 bytes, and one with a signed port and a seventh word. -/
theorem lax_lines_accepted :
    (∃ more decoded, v1Sig ++ more = utf8Bytes longLine ++ [13, 10] ∧
      (v1Sig ++ more).length = 108 ∧
      decodeV1 AddrText.std 0x50 (asciiBytes "ROXY " ++ more) = .ok decoded ∧
      ¬ Conforms AddrText.std (v1Sig ++ more)) ∧
    ∃ more decoded, v1Sig ++ more = utf8Bytes signedLine ++ [13, 10] ∧
      decodeV1 AddrText.std 0x50 (asciiBytes "ROXY " ++ more) = .ok decoded ∧
      ¬ Conforms AddrText.std (v1Sig ++ more) := by
  constructor
  · have hfirst : FirstLine (v1Sig ++ (asciiBytes "UNKNOWN " ++ List.replicate 92 120 ++ [13, 10]))
        (utf8Bytes longLine) [] := ⟨by decide, no_break_of_notMem (by decide)⟩
    have hlength : (utf8Bytes longLine).length + 2 = 108 := by decide
    have haccepted : Accepted AddrText.std longLine := .inl (List.prefix_append _ _)
    obtain ⟨decoded, hdecoded⟩ := (exists_decodeV1_iff AddrText.std).2
      ⟨longLine, [], hfirst, hlength.le, haccepted⟩
    refine ⟨_, decoded, hfirst.1, ?_, hdecoded, ?_⟩
    · rw [hfirst.1, List.length_append]
      exact hlength
    · rintro ⟨line, rest, hline, hshort, -⟩
      rw [(hline.unique hfirst).1, hlength] at hshort
      exact absurd hshort (by decide)
  · have hfirst : FirstLine
        (v1Sig ++ (asciiBytes "TCP4 192.0.2.1 192.0.2.2 +80 443 more" ++ [13, 10]))
        (utf8Bytes signedLine) [] := ⟨by decide, no_break_of_notMem (by decide)⟩
    have hport : DecimalPort "80".toList ∧ DecimalPort "443".toList :=
      ⟨decimalPort_iff.2 (by decide), decimalPort_iff.2 (by decide)⟩
    have haccepted : Accepted AddrText.std signedLine :=
      .inr ⟨_, rfl, _, _, _, _, _, _, rfl, .inl ⟨rfl, by decide⟩, .inl ⟨rfl, by decide⟩,
        .inr ⟨_, rfl, hport.1⟩, .inl hport.2⟩
    have hoverfull : Overfull signedLine := ⟨by decide, .inl (by decide)⟩
    obtain ⟨decoded, hdecoded⟩ := (exists_decodeV1_iff AddrText.std).2
      ⟨signedLine, [], hfirst, by decide, haccepted⟩
    refine ⟨_, decoded, hfirst.1, hdecoded, ?_⟩
    rintro ⟨line, rest, hline, -, hwell⟩
    obtain rfl := utf8Bytes_inj (hline.unique hfirst).1
    exact not_wellFormed_of_overfull AddrText.std hoverfull hwell

end Yggdrasil.Proxy
