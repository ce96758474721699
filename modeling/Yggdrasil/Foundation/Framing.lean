import Yggdrasil.Foundation.Codec

/-!
# Two framings of one byte string

A byte string cut into blocks, a gap without tiny bytes followed by a short
core, may be read by another format as records, each of which holds two tiny
bytes in a row and ends in a tiny byte.  Tiny bytes fall into cores, and one
core has too few low bytes to hold the tags of two records, so the string has
no more records than blocks.
-/

namespace Yggdrasil.Foundation

def isLow (byte : UInt8) : Bool := byte.toNat < 128

def isTiny (byte : UInt8) : Bool := byte.toNat ≤ 2

variable {byte : UInt8} {lead rest : Bytes}

theorem isLow_of_isTiny (h : isTiny byte = true) : isLow byte = true := by
  simp only [isTiny, isLow, decide_eq_true_eq] at *
  omega

def lowCount (bytes : Bytes) : Nat := bytes.countP isLow

@[simp] theorem lowCount_nil : lowCount [] = 0 := rfl

@[simp] theorem lowCount_append (first second : Bytes) :
    lowCount (first ++ second) = lowCount first + lowCount second :=
  List.countP_append

theorem lowCount_cons_of_isLow (h : isLow byte = true) (rest : Bytes) :
    lowCount (byte :: rest) = lowCount rest + 1 := by
  simp [lowCount, h]

theorem lowCount_cons_of_isTiny (h : isTiny byte = true) (rest : Bytes) :
    lowCount (byte :: rest) = lowCount rest + 1 :=
  lowCount_cons_of_isLow (isLow_of_isTiny h) rest

theorem lowCount_encodeVarint_le (groups n : Nat) : lowCount (encodeVarint groups n) ≤ 1 := by
  induction groups generalizing n with
  | zero => simp [encodeVarint]
  | succ groups ih =>
      rw [encodeVarint]
      split
      · exact List.countP_le_length
      · have hhigh : isLow (UInt8.ofNat (n % 128 + 128)) = false := by
          simp only [isLow, UInt8.toNat_ofNat', decide_eq_false_iff_not]
          omega
        rw [lowCount, List.countP_cons_of_neg (by rw [hhigh]; exact Bool.false_ne_true)]
        exact ih (n / 128)

structure Block where
  gap : Bytes
  core : Bytes
  gap_solid : ∀ byte ∈ gap, isTiny byte = false
  core_short : lowCount core ≤ 5

def joinBlocks (blocks : List Block) : Bytes :=
  blocks.flatMap (fun block => block.gap ++ block.core)

@[simp] theorem joinBlocks_cons (block : Block) (blocks : List Block) :
    joinBlocks (block :: blocks) = block.gap ++ (block.core ++ joinBlocks blocks) := by
  simp [joinBlocks]

theorem append_eq_append_cons {α : Type} {left right before after : List α} {item : α}
    (h : left ++ right = before ++ item :: after) :
    (∃ rest, left = before ++ item :: rest ∧ after = rest ++ right) ∨
      ∃ rest, before = left ++ rest ∧ right = rest ++ item :: after := by
  rcases List.append_eq_append_iff.1 h with ⟨rest, hbefore, hright⟩ | ⟨rest, hleft, hafter⟩
  · exact .inr ⟨rest, hbefore, hright⟩
  · cases rest with
    | nil =>
        refine .inr ⟨[], ?_, ?_⟩
        · simpa using hleft.symm
        · simpa using hafter.symm
    | cons first rest =>
        obtain ⟨hitem, hrest⟩ := List.cons_eq_cons.1 hafter
        exact .inl ⟨rest, by rw [hitem, hleft], hrest⟩

variable {blocks : List Block}

theorem tiny_position {before after : Bytes} (htiny : isTiny byte = true)
    (h : lead ++ joinBlocks blocks = before ++ byte :: after) :
    (∃ rest, lead = before ++ byte :: rest ∧ after = rest ++ joinBlocks blocks) ∨
      ∃ passed block next first second, blocks = passed ++ block :: next ∧
        block.core = first ++ byte :: second ∧ after = second ++ joinBlocks next ∧
        before = lead ++ (joinBlocks passed ++ (block.gap ++ first)) := by
  induction blocks generalizing lead before with
  | nil =>
      refine .inl ⟨after, ?_, ?_⟩
      · simpa [joinBlocks] using h
      · simp [joinBlocks]
  | cons block blocks ih =>
      rcases append_eq_append_cons h with hlead | ⟨inner, hbefore, hinner⟩
      · exact .inl hlead
      · right
        rw [joinBlocks_cons] at hinner
        rcases append_eq_append_cons hinner with ⟨rest, hgap, -⟩ | ⟨inCore, hsplit, hcore⟩
        · have hsolid := block.gap_solid byte (by simp [hgap])
          cases htiny.symm.trans hsolid
        · rcases ih hcore with ⟨rest, hhere, hafter⟩ | ⟨passed, found, next, first, second, hblocks,
            hfound, hafter, hpassed⟩
          · exact ⟨[], block, blocks, inCore, rest, rfl, hhere, hafter, by
              simp [joinBlocks, hbefore, hsplit]⟩
          · exact ⟨block :: passed, found, next, first, second, by rw [hblocks]; rfl, hfound,
              hafter, by simp [hbefore, hsplit, hpassed]⟩

/-- The places of a record that can only hold tiny bytes. -/
structure Record where
  head : Bytes
  tag : UInt8
  mark : UInt8
  middle : Bytes
  last : UInt8
  head_low : 2 ≤ lowCount head
  tag_tiny : isTiny tag = true
  mark_tiny : isTiny mark = true
  last_tiny : isTiny last = true

def Record.bytes (record : Record) : Bytes :=
  record.head ++ record.tag :: record.mark :: record.middle ++ [record.last]

def bonus (lead : Bytes) : Nat := if 3 ≤ lowCount lead then 1 else 0

theorem bonus_le_one (lead : Bytes) : bonus lead ≤ 1 := by
  unfold bonus
  split <;> omega

theorem Record.advance (record : Record) (h : lead ++ joinBlocks blocks = record.bytes ++ rest) :
    (∃ left, lead = record.bytes ++ left ∧ rest = left ++ joinBlocks blocks) ∨
      ∃ lead' blocks', rest = lead' ++ joinBlocks blocks' ∧ lowCount lead' ≤ 5 ∧
        (blocks'.length + bonus lead' < blocks.length ∨
          blocks'.length + bonus lead' ≤ blocks.length ∧ record.head ++ [record.tag] <+: lead) := by
  have hlast : lead ++ joinBlocks blocks =
      (record.head ++ record.tag :: record.mark :: record.middle) ++ record.last :: rest := by
    rw [h, Record.bytes]
    simp
  rcases tiny_position record.last_tiny hlast with ⟨left, hlead, hrest⟩ |
    ⟨passed, block, next, first, second, hblocks, hcore, hrest, hbefore⟩
  · exact .inl ⟨left, by rw [hlead, Record.bytes]; simp, hrest⟩
  · right
    have hlow := block.core_short
    rw [hcore, lowCount_append, lowCount_cons_of_isTiny record.last_tiny] at hlow
    refine ⟨second, next, hrest, by omega, ?_⟩
    have hcount : blocks.length = passed.length + 1 + next.length := by
      rw [hblocks]
      simp
      omega
    have hbonus := bonus_le_one second
    cases passed with
    | cons other passed =>
        left
        simp only [List.length_cons] at hcount
        omega
    | nil =>
        by_cases hsecond : 3 ≤ lowCount second
        · -- too little of the core is left of the last byte to hold the tag and the mark
          right
          refine ⟨by simp at hcount; omega, ?_⟩
          rcases append_eq_append_cons hbefore.symm with ⟨tail, hlead, -⟩ | ⟨inner, -, hinner⟩
          · exact ⟨tail, by rw [hlead]; simp⟩
          · simp only [joinBlocks, List.flatMap_nil, List.nil_append] at hinner
            rcases append_eq_append_cons hinner with ⟨tail, hgap, -⟩ | ⟨inCore, -, hfirst⟩
            · have hsolid := block.gap_solid record.tag (by simp [hgap])
              rw [record.tag_tiny] at hsolid
              cases hsolid
            · rw [hfirst, lowCount_append, lowCount_cons_of_isTiny record.tag_tiny,
                lowCount_cons_of_isTiny record.mark_tiny] at hlow
              omega
        · left
          have hnone : bonus second = 0 := if_neg hsecond
          simp at hcount
          omega

theorem Record.lowCount_bytes (record : Record) : 5 ≤ lowCount record.bytes := by
  have hhead := record.head_low
  rw [Record.bytes, lowCount_append, lowCount_append,
    lowCount_cons_of_isTiny record.tag_tiny, lowCount_cons_of_isTiny record.mark_tiny,
    lowCount_cons_of_isTiny record.last_tiny]
  omega

theorem records_le (records : List Record) (hlead : lowCount lead ≤ 5)
    (h : lead ++ joinBlocks blocks = records.flatMap Record.bytes ++ rest) :
    records.length ≤ blocks.length + bonus lead := by
  induction records generalizing lead blocks with
  | nil => simp
  | cons record records ih =>
      rw [List.flatMap_cons, List.append_assoc] at h
      have hbytes := record.lowCount_bytes
      rw [List.length_cons]
      rcases record.advance h with ⟨left, hhere, hrest⟩ |
        ⟨lead', blocks', hrest, hlow, hless | ⟨hle, hprefix⟩⟩
      · rw [hhere, lowCount_append] at hlead
        have hmore := ih (by omega) hrest.symm
        have hnone : bonus left = 0 := if_neg (by omega)
        have hone : bonus lead = 1 := if_pos (by rw [hhere, lowCount_append]; omega)
        omega
      · have hmore := ih hlow hrest.symm
        omega
      · have hmore := ih hlow hrest.symm
        obtain ⟨tail, htail⟩ := hprefix
        have hhead := record.head_low
        have hone : bonus lead = 1 := by
          refine if_pos ?_
          rw [← htail, lowCount_append, lowCount_append,
            lowCount_cons_of_isTiny record.tag_tiny]
          omega
        omega

theorem records_lt_of_long_head (record : Record) (records : List Record)
    (hlong : lead.length ≤ record.head.length)
    (h : lead ++ joinBlocks blocks = record.bytes ++ (records.flatMap Record.bytes ++ rest)) :
    records.length < blocks.length := by
  rcases record.advance h with ⟨left, hhere, -⟩ |
    ⟨lead', blocks', hrest, hlow, hless | ⟨-, hprefix⟩⟩
  · have hlength := congrArg List.length hhere
    simp [Record.bytes] at hlength
    omega
  · have hmore := records_le records hlow hrest.symm
    omega
  · have hlength := hprefix.length_le
    simp at hlength
    omega

end Yggdrasil.Foundation
