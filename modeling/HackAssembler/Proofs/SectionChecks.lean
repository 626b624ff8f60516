import HackAssembler.Dialect.Sections
import HackAssembler.Proofs.BinaryNumerals
import Mathlib.Data.List.Nodup

/-! # Checks of written sections

Written sections describe a dialect exactly if their patterns have the right form, are not reserved
and differ within a section. Otherwise the fault is that of the first entry with which this fails
(`Dialect.ofSections_checks`). A codebook that was read from entries gives them back when its
patterns are written out (`Codebook.Records`), which is all that the check of an entry knows of the
entries before it.
-/

namespace HackAssembler

/-! ### Sound sections -/

/-- A text is a pattern of a field if it has one binary digit for every bit of the field. -/
def Field.IsPattern (field : Field) (text : String) : Prop :=
  Text.IsBinary field.width text.toList

/-- The pattern of the absence of a field is reserved, and a computation cannot be absent. -/
def Field.IsReserved (field : Field) (text : String) : Prop :=
  field ≠ .comp ∧ text = "000"

/-- The entries of a section are those of a codebook. -/
structure Field.Admits (field : Field) (written : List (String × String)) : Prop where
  patterns : ∀ entry ∈ written, field.IsPattern entry.2
  unreserved : ∀ entry ∈ written, ¬ field.IsReserved entry.2
  distinct : (written.map Prod.snd).Nodup

/-- The section with the mnemonics of a field, if it is present. -/
def Sections.mnemonics (sections : Sections) : Field → Option (OrderedMap String)
  | .comp => sections.comp
  | .dest => sections.dest
  | .jump => sections.jump

/-- All sections that are present can be read. -/
def Sections.IsSound (sections : Sections) : Prop :=
  ∀ field written, sections.mnemonics field = some written → field.Admits written.toList

/-! ### What sections describe -/

variable {field : Field}

/-- A codebook has exactly the mnemonics of a section, each with the number that its pattern
spells. -/
def Codebook.Lists (book : Codebook field) (written : OrderedMap String) : Prop :=
  ∀ mnemonic pattern, book.pattern? mnemonic = some pattern ↔
    ∃ text, written.get? mnemonic = some text ∧ Text.binaryValue? text.toList = some pattern

/-- A dialect has the contents of the present sections, and is the built-in one otherwise. -/
structure Dialect.IsDescribedBy (dialect : Dialect) (sections : Sections) : Prop where
  symbols : dialect.symbols = sections.symbols.getD hack.symbols
  absent : ∀ field, sections.mnemonics field = none → dialect.codebook field = hack.codebook field
  present : ∀ field written, sections.mnemonics field = some written →
    (dialect.codebook field).Lists written

/-! ### The first fault -/

/-- What is wrong with an entry that follows others. -/
inductive Field.Objects (field : Field) (earlier : List (String × String)) :
    String × String → TableFault → Prop
  | bad {mnemonic text : String} (malformed : ¬ field.IsPattern text) :
      Objects field earlier (mnemonic, text) (.badPattern field mnemonic text)
  | reserved {mnemonic text : String} (reserved : field.IsReserved text) :
      Objects field earlier (mnemonic, text) (.reservedPattern field mnemonic)
  /-- The text is that of exactly one earlier entry. -/
  | duplicate {mnemonic text first : String} (pattern : field.IsPattern text)
      (unreserved : ¬ field.IsReserved text)
      (known : ∀ other, (other, text) ∈ earlier ↔ other = first) :
      Objects field earlier (mnemonic, text) (.duplicatePattern field text first mnemonic)

/-- The place of a section among those that are checked. -/
def Field.rank : Field → Nat
  | comp => 0
  | dest => 1
  | jump => 2

/-- A fault is that of the first entry with a fault, by sections and then in written order. -/
inductive Sections.FirstFault (sections : Sections) : TableFault → Prop
  | intro {field : Field} {written : OrderedMap String} {earlier later : List (String × String)}
      {entry : String × String} {fault : TableFault}
      (present : sections.mnemonics field = some written)
      (split : written.toList = earlier ++ entry :: later)
      (before : ∀ other contents, other.rank < field.rank →
        sections.mnemonics other = some contents → other.Admits contents.toList)
      (admits : field.Admits earlier) (objects : field.Objects earlier entry fault) :
      FirstFault sections fault

/-! ### Patterns and their texts -/

/-- The text of a pattern that was read is that of its digits. -/
theorem Field.readPattern?_eq_some_iff {text : String} {pattern : Nat} :
    field.readPattern? text = some pattern ↔
      text = Text.binary field.width pattern ∧ pattern < 2 ^ field.width := by
  unfold readPattern? Text.binary
  rw [Option.ite_none_right_eq_some, Text.binaryValue?_eq_some_iff, ← String.toList_inj,
    String.toList_ofList]
  constructor
  · rintro ⟨length, spelled⟩
    rwa [length] at spelled
  · rintro ⟨spelled, fits⟩
    have length : text.toList.length = field.width := by rw [spelled, Text.length_binaryDigits]
    rw [length]
    exact ⟨rfl, spelled, fits⟩

theorem Field.exists_readPattern?_iff {text : String} :
    (∃ pattern, field.readPattern? text = some pattern) ↔ field.IsPattern text := by
  unfold readPattern? IsPattern
  simp only [Option.ite_none_right_eq_some, exists_and_left, Text.exists_binaryValue?_iff]
  exact ⟨fun read => ⟨read.1, read.2⟩, fun pattern => ⟨pattern.length_eq, pattern.binary⟩⟩

theorem Field.reserves_iff_isReserved {text : String} {pattern : Nat}
    (read : field.readPattern? text = some pattern) :
    field.reserves pattern = true ↔ field.IsReserved text := by
  unfold reserves IsReserved
  rw [Bool.and_eq_true, bne_iff_ne, beq_iff_eq]
  refine and_congr_right fun optional => ?_
  have width : field.width = 3 := by
    cases field with
    | comp => exact absurd rfl optional
    | dest => rfl
    | jump => rfl
  have zeros : field.readPattern? "000" = some noOp := by
    rw [readPattern?_eq_some_iff, width]
    decide
  constructor
  · rintro rfl
    rw [readPattern?_eq_some_iff] at read zeros
    rw [read.1, zeros.1]
  · rintro rfl
    rw [read] at zeros
    exact Option.some.inj zeros

/-! ### Codebooks of entries -/

/-- A codebook gives back the entries that it was read from when its patterns are written out. -/
def Codebook.Records (book : Codebook field) (written : List (String × String)) : Prop :=
  book.entries.map (fun entry => (entry.1, Text.binary field.width entry.2)) = written

namespace Codebook

theorem readPattern?_of_mem {book : Codebook field} {mnemonic : String} {pattern : Nat}
    (member : (mnemonic, pattern) ∈ book.entries) :
    field.readPattern? (Text.binary field.width pattern) = some pattern := by
  have fits := book.patterns_fit _ member
  rw [Field.capacity, Nat.one_shiftLeft] at fits
  exact Field.readPattern?_eq_some_iff.mpr ⟨rfl, fits⟩

namespace Records

variable {book : Codebook field} {written : List (String × String)}

theorem exists_of_mem (records : book.Records written) {entry : String × String}
    (member : entry ∈ written) :
    ∃ pattern, field.readPattern? entry.2 = some pattern ∧ (entry.1, pattern) ∈ book.entries := by
  rw [← records] at member
  obtain ⟨⟨mnemonic, pattern⟩, inside, rfl⟩ := List.mem_map.mp member
  exact ⟨pattern, readPattern?_of_mem inside, inside⟩

theorem mem_iff (records : book.Records written) {mnemonic text : String} {pattern : Nat}
    (read : field.readPattern? text = some pattern) :
    (mnemonic, text) ∈ written ↔ (mnemonic, pattern) ∈ book.entries := by
  constructor
  · intro member
    obtain ⟨other, otherRead, inside⟩ := records.exists_of_mem member
    rw [read] at otherRead
    cases otherRead
    exact inside
  · intro inside
    rw [← records, (Field.readPattern?_eq_some_iff.mp read).1]
    exact List.mem_map_of_mem inside

/-- The entries of a codebook meet the conditions on sections. -/
theorem admits (records : book.Records written) : field.Admits written where
  patterns := by
    intro entry member
    obtain ⟨pattern, read, _⟩ := records.exists_of_mem member
    exact Field.exists_readPattern?_iff.mp ⟨pattern, read⟩
  unreserved := by
    intro entry member reserved
    obtain ⟨pattern, read, inside⟩ := records.exists_of_mem member
    have known := book.patterns_unreserved _ inside
    rw [(Field.reserves_iff_isReserved read).mpr reserved] at known
    cases known
  distinct := by
    have texts : written.map Prod.snd =
        (book.entries.map Prod.snd).map (Text.binary field.width) := by
      rw [← records, List.map_map, List.map_map]
      rfl
    rw [texts]
    refine List.Nodup.map_on ?_ book.patterns_nodup
    intro first inFirst second inSecond same
    obtain ⟨firstEntry, firstInside, rfl⟩ := List.mem_map.mp inFirst
    obtain ⟨secondEntry, secondInside, rfl⟩ := List.mem_map.mp inSecond
    have read := readPattern?_of_mem firstInside
    rw [same, readPattern?_of_mem secondInside] at read
    exact (Option.some.inj read).symm

/-- The mnemonic of a pattern that is in use is that of the only entry with its text. -/
theorem known_iff (records : book.Records written) {text first : String} {pattern : Nat}
    (read : field.readPattern? text = some pattern) (used : book.mnemonic? pattern = some first)
    (other : String) : (other, text) ∈ written ↔ other = first := by
  rw [records.mem_iff read, ← mnemonic?_eq_some_iff, used, Option.some.injEq, eq_comm]

theorem add (records : book.Records written) {mnemonic text : String} {pattern : Nat}
    (newMnemonic : mnemonic ∉ book.entries.map Prod.fst)
    (newPattern : book.mnemonic? pattern = none)
    (fits : pattern < field.capacity) (unreserved : field.reserves pattern = false)
    (read : field.readPattern? text = some pattern) :
    (book.add mnemonic pattern newMnemonic newPattern fits unreserved).Records
      (written ++ [(mnemonic, text)]) := by
  unfold Records Codebook.add
  rw [List.map_append, records, (Field.readPattern?_eq_some_iff.mp read).1]
  rfl

theorem lists {written : OrderedMap String} (records : book.Records written.toList) :
    book.Lists written := by
  intro mnemonic pattern
  simp only [pattern?_eq_some_iff, OrderedMap.get?_eq_some_iff]
  constructor
  · intro inside
    have read := readPattern?_of_mem inside
    refine ⟨_, (records.mem_iff read).mpr inside, ?_⟩
    simp only [Field.readPattern?, Option.ite_none_right_eq_some] at read
    exact read.2
  · intro spelled
    obtain ⟨text, member, value⟩ := spelled
    have length := (records.admits.patterns _ member).length_eq
    have read : field.readPattern? text = some pattern := by
      rw [Field.readPattern?, if_pos length, value]
    exact (records.mem_iff read).mp member

end Records

/-- What comes of reading entries: a codebook of all of them, or the fault of the first faulty
entry. -/
inductive Checks (field : Field) (written : List (String × String)) :
    Except TableFault (Codebook field) → Prop
  | accepted {book : Codebook field} (records : book.Records written) :
      Checks field written (.ok book)
  | rejected {earlier later : List (String × String)} {entry : String × String} {fault : TableFault}
      (split : written = earlier ++ entry :: later) (admits : field.Admits earlier)
      (objects : field.Objects earlier entry fault) : Checks field written (.error fault)

/-- Reading further entries meets the first fault among them. -/
theorem extend_checks {book : Codebook field} {earlier : List (String × String)}
    (records : book.Records earlier) (written : List (String × String))
    (names : (book.entries.map Prod.fst ++ written.map Prod.fst).Nodup) :
    Checks field (earlier ++ written) (book.extend written names) := by
  -- Each step moves one entry to those that the codebook records, so that the fault of an entry is
  -- said of exactly the entries before it.
  induction written generalizing book earlier with
  | nil =>
      rw [List.append_nil]
      exact .accepted records
  | cons entry rest ih =>
      obtain ⟨mnemonic, text⟩ := entry
      unfold extend
      split
      · next unread =>
          refine .rejected rfl records.admits (.bad fun pattern => ?_)
          obtain ⟨value, read⟩ := Field.exists_readPattern?_iff.mpr pattern
          rw [unread] at read
          cases read
      · next pattern read =>
          split
          · next reserves =>
              exact .rejected rfl records.admits
                (.reserved ((Field.reserves_iff_isReserved read).mp reserves))
          · next unreserved =>
              split
              · next first used =>
                  have spelled := (Field.readPattern?_eq_some_iff.mp read).1
                  rw [← spelled]
                  refine .rejected rfl records.admits (.duplicate ?_ ?_ ?_)
                  · exact Field.exists_readPattern?_iff.mp ⟨pattern, read⟩
                  · intro reserved
                    rw [(Field.reserves_iff_isReserved read).mpr reserved] at unreserved
                    cases unreserved
                  · exact records.known_iff read used
              · next unused =>
                  rw [← List.singleton_append, ← List.append_assoc]
                  refine ih (records.add _ _ _ _ read) _

theorem ofSection_checks (field : Field) (written : OrderedMap String) :
    Checks field written.toList (ofSection field written) := by
  have start : (empty field).Records [] := rfl
  exact extend_checks start written.toList _

end Codebook

/-! ### First faults -/

namespace Field

variable {earlier written : List (String × String)} {entry : String × String} {fault : TableFault}

theorem Admits.of_append {later : List (String × String)}
    (admits : field.Admits (earlier ++ later)) : field.Admits earlier where
  patterns := fun entry member => admits.patterns entry (List.mem_append_left _ member)
  unreserved := fun entry member => admits.unreserved entry (List.mem_append_left _ member)
  distinct := by
    have distinct := admits.distinct
    rw [List.map_append] at distinct
    exact (List.nodup_append.mp distinct).1

/-- No sound section has an entry with a fault. -/
theorem Objects.not_admits (objects : field.Objects earlier entry fault) :
    ¬ field.Admits (earlier ++ [entry]) := by
  intro admits
  cases objects with
  | bad malformed => exact malformed (admits.patterns _ List.mem_concat_self)
  | reserved reserved => exact admits.unreserved _ List.mem_concat_self reserved
  | @duplicate mnemonic text first pattern unreserved known =>
      have distinct := admits.distinct
      rw [List.map_append] at distinct
      have member : (first, text) ∈ earlier := (known first).mpr rfl
      exact (List.nodup_append.mp distinct).2.2 _ (List.mem_map_of_mem member) text (by simp) rfl

theorem IsReserved.isPattern {text : String} (reserved : field.IsReserved text) :
    field.IsPattern text := by
  obtain ⟨optional, rfl⟩ := reserved
  have zeros : Text.IsBinary 3 "000".toList := Text.isBinary_binaryDigits 3 0
  cases field with
  | comp => exact absurd rfl optional
  | dest => exact zeros
  | jump => exact zeros

/-- Of one entry there is one fault. -/
theorem Objects.unique {other : TableFault} (objects : field.Objects earlier entry fault)
    (otherObjects : field.Objects earlier entry other) : fault = other := by
  cases objects with
  | bad malformed =>
      cases otherObjects with
      | bad _ => rfl
      | reserved reserved => exact absurd reserved.isPattern malformed
      | duplicate pattern _ _ => exact absurd pattern malformed
  | reserved reserved =>
      cases otherObjects with
      | bad malformed => exact absurd reserved.isPattern malformed
      | reserved _ => rfl
      | duplicate _ unreserved _ => exact absurd reserved unreserved
  | duplicate pattern unreserved known =>
      cases otherObjects with
      | bad malformed => exact absurd pattern malformed
      | reserved reserved => exact absurd reserved unreserved
      | duplicate _ _ otherKnown => rw [(otherKnown _).mp ((known _).mpr rfl)]

theorem Objects.eq_of_append {middle later otherLater : List (String × String)}
    {otherEntry : String × String} {other : TableFault}
    (objects : field.Objects earlier entry fault) (admits : field.Admits (earlier ++ middle))
    (otherObjects : field.Objects (earlier ++ middle) otherEntry other)
    (same : entry :: later = middle ++ otherEntry :: otherLater) : fault = other := by
  cases middle with
  | nil =>
      cases same
      rw [List.append_nil] at otherObjects
      exact objects.unique otherObjects
  | cons first rest =>
      cases same
      rw [← List.singleton_append, ← List.append_assoc] at admits
      exact absurd admits.of_append objects.not_admits

/-- A section has one first fault. -/
theorem Objects.eq_of_split {otherEarlier later otherLater : List (String × String)}
    {otherEntry : String × String} {other : TableFault}
    (objects : field.Objects earlier entry fault) (admits : field.Admits earlier)
    (otherObjects : field.Objects otherEarlier otherEntry other)
    (otherAdmits : field.Admits otherEarlier)
    (same : earlier ++ entry :: later = otherEarlier ++ otherEntry :: otherLater) :
    fault = other := by
  rcases List.append_eq_append_iff.mp same with ⟨middle, rfl, tail⟩ | ⟨middle, rfl, tail⟩
  · exact objects.eq_of_append otherAdmits otherObjects tail
  · exact (otherObjects.eq_of_append admits objects tail).symm

theorem Objects.not_admits_of_split {later : List (String × String)}
    (objects : field.Objects earlier entry fault) (split : written = earlier ++ entry :: later) :
    ¬ field.Admits written := by
  intro admits
  rw [split, ← List.singleton_append, ← List.append_assoc] at admits
  exact objects.not_admits admits.of_append

theorem eq_of_rank {other : Field} (same : field.rank = other.rank) : field = other := by
  cases field <;> cases other <;> simp_all [rank]

end Field

namespace Sections

variable {sections : Sections} {fault other : TableFault}

theorem FirstFault.not_isSound (first : sections.FirstFault fault) : ¬ sections.IsSound := by
  intro sound
  obtain ⟨present, split, before, admits, objects⟩ := first
  exact objects.not_admits_of_split split (sound _ _ present)

theorem FirstFault.unique (first : sections.FirstFault fault)
    (otherFirst : sections.FirstFault other) : fault = other := by
  obtain ⟨present, split, before, admits, objects⟩ := first
  obtain ⟨otherPresent, otherSplit, otherBefore, otherAdmits, otherObjects⟩ := otherFirst
  rcases Nat.lt_trichotomy _ _ with earlier | same | later
  · exact absurd (otherBefore _ _ earlier present) (objects.not_admits_of_split split)
  · obtain rfl := Field.eq_of_rank same
    rw [present] at otherPresent
    cases otherPresent
    exact objects.eq_of_split admits otherObjects otherAdmits (split.symm.trans otherSplit)
  · exact absurd (before _ _ later otherPresent) (otherObjects.not_admits_of_split otherSplit)

end Sections

/-! ### The check of all sections -/

namespace Dialect

variable {sections : Sections} {fault : TableFault}

theorem codebookOf_ok {builtIn book : Codebook field} {contents : Option (OrderedMap String)}
    (read : codebookOf builtIn contents = .ok book) :
    (contents = none → book = builtIn) ∧
      ∀ written, contents = some written → book.Records written.toList := by
  cases contents with
  | none =>
      cases read
      exact ⟨fun _ => rfl, fun _ present => nomatch present⟩
  | some written =>
      have checks := Codebook.ofSection_checks field written
      rw [show Codebook.ofSection field written = .ok book from read] at checks
      cases checks with
      | accepted records =>
          refine ⟨(nomatch ·), ?_⟩
          rintro _ ⟨⟩
          exact records

theorem firstFault_of_codebookOf (field : Field)
    (faulty : codebookOf (hack.codebook field) (sections.mnemonics field) = .error fault)
    (before : ∀ other : Field, other.rank < field.rank →
      ∃ book, codebookOf (hack.codebook other) (sections.mnemonics other) = .ok book) :
    sections.FirstFault fault := by
  cases present : sections.mnemonics field with
  | none =>
      rw [present] at faulty
      cases faulty
  | some written =>
      have checks := Codebook.ofSection_checks field written
      rw [present] at faulty
      rw [show Codebook.ofSection field written = .error fault from faulty] at checks
      cases checks with
      | rejected split admits objects =>
          refine .intro present split ?_ admits objects
          intro other contents earlier otherPresent
          obtain ⟨book, read⟩ := before other earlier
          exact ((codebookOf_ok read).2 contents otherPresent).admits

theorem isDescribedBy_of_codebookOf {dialect : Dialect}
    (symbols : dialect.symbols = sections.symbols.getD hack.symbols)
    (books : ∀ field, codebookOf (hack.codebook field) (sections.mnemonics field) =
      .ok (dialect.codebook field)) : dialect.IsDescribedBy sections where
  symbols := symbols
  absent := fun field => (codebookOf_ok (books field)).1
  present := fun field written present => ((codebookOf_ok (books field)).2 written present).lists

/-- What comes of sections: the dialect that they describe, or their first fault. -/
inductive Judges (sections : Sections) : Except TableFault Dialect → Prop
  | accepted {dialect : Dialect} (sound : sections.IsSound)
      (described : dialect.IsDescribedBy sections) : Judges sections (.ok dialect)
  | rejected {fault : TableFault} (first : sections.FirstFault fault) :
      Judges sections (.error fault)

theorem judges_ofSections (sections : Sections) : Judges sections (ofSections sections) := by
  unfold ofSections
  cases comp : codebookOf hack.comp sections.comp with
  | error fault =>
      refine .rejected (firstFault_of_codebookOf .comp comp ?_)
      intro other earlier
      cases earlier
  | ok compBook =>
  cases dest : codebookOf hack.dest sections.dest with
  | error fault =>
      refine .rejected (firstFault_of_codebookOf .dest dest ?_)
      intro other earlier
      cases other with
      | comp => exact ⟨compBook, comp⟩
      | dest => exact absurd earlier (by decide)
      | jump => exact absurd earlier (by decide)
  | ok destBook =>
  cases jump : codebookOf hack.jump sections.jump with
  | error fault =>
      refine .rejected (firstFault_of_codebookOf .jump jump ?_)
      intro other earlier
      cases other with
      | comp => exact ⟨compBook, comp⟩
      | dest => exact ⟨destBook, dest⟩
      | jump => exact absurd earlier (by decide)
  | ok jumpBook =>
      let dialect : Dialect :=
        ⟨sections.symbols.getD hack.symbols, compBook, destBook, jumpBook⟩
      have books : ∀ field, codebookOf (hack.codebook field) (sections.mnemonics field) =
          .ok (dialect.codebook field) := by
        intro field
        cases field with
        | comp => exact comp
        | dest => exact dest
        | jump => exact jump
      refine .accepted ?_ (isDescribedBy_of_codebookOf rfl books)
      intro field written present
      exact ((codebookOf_ok (books field)).2 written present).admits

/-- **The check of sections is exact.** Sections are accepted exactly if all of them are sound, and
then the dialect is the one that they describe; a fault is reported exactly if it is the first. -/
theorem ofSections_checks (sections : Sections) :
    ((∃ dialect, ofSections sections = .ok dialect) ↔ sections.IsSound) ∧
      (∀ dialect, ofSections sections = .ok dialect → dialect.IsDescribedBy sections) ∧
      ∀ fault, ofSections sections = .error fault ↔ sections.FirstFault fault := by
  have judged := judges_ofSections sections
  cases result : ofSections sections with
  | ok dialect =>
      rw [result] at judged
      cases judged with
      | accepted sound described =>
          refine ⟨⟨fun _ => sound, fun _ => ⟨dialect, rfl⟩⟩, ?_, ?_⟩
          · rintro _ ⟨⟩
            exact described
          · intro fault
            exact ⟨(nomatch ·), fun first => absurd sound first.not_isSound⟩
  | error fault =>
      rw [result] at judged
      cases judged with
      | rejected first =>
          refine ⟨⟨?_, fun sound => absurd sound first.not_isSound⟩, ?_, ?_⟩
          · rintro ⟨dialect, accepted⟩
            cases accepted
          · intro dialect accepted
            cases accepted
          · intro other
            refine ⟨?_, fun otherFirst => congrArg _ (first.unique otherFirst)⟩
            rintro ⟨⟩
            exact first

end Dialect

end HackAssembler
