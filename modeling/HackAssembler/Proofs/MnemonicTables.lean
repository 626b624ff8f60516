import HackAssembler.Dialect.Datum
import HackAssembler.Dialect.Document
import HackAssembler.Proofs.Outcomes
import HackAssembler.Proofs.Reassembly
import HackAssembler.Proofs.SectionChecks

/-! # Mnemonics and patterns both ways

Every dialect comes from the sections of a table document, the built-in one from none
(`Dialect.IsAvailable.exists_sections`). Its mnemonics and patterns determine each other, and none
has given way to another (`Codebook.foldl_overwrite_entries`). What a computation is encoded to
therefore shows as that computation (`Dialect.IsAvailable.translates_both_ways`).
-/

namespace HackAssembler

/-- The dialects that there are: the built-in one and those that are read from table documents. -/
inductive Dialect.IsAvailable : Dialect → Prop
  | builtIn : IsAvailable hack
  | datum {datum : Datum} {dialect : Dialect} (read : ofDatum datum = .ok dialect) :
      IsAvailable dialect
  | document {bytes : ByteArray} {dialect : Dialect} (read : ofDocument bytes = .ok dialect) :
      IsAvailable dialect

/-- The mnemonics of a computation, in the order in which they are written. -/
def Computation.mnemonics (computation : Computation) : List String :=
  computation.dest.toList ++ computation.comp :: computation.jump.toList

/-- Enters a mnemonic with its pattern in a two-way table. Entries with the same mnemonic and those
with the same pattern give way. -/
def Codebook.overwrite (entries : List (String × Nat)) (entry : String × Nat) :
    List (String × Nat) :=
  entries.filter (fun other => other.1 ≠ entry.1 ∧ other.2 ≠ entry.2) ++ [entry]

/-! ### Dialects and their sections -/

namespace Dialect

variable {dialect : Dialect}

theorem exists_sections_of_ofDatum {datum : Datum} (read : ofDatum datum = .ok dialect) :
    ∃ sections, ofSections sections = .ok dialect := by
  obtain ⟨sections, _, checked⟩ := bind_eq_ok_iff.mp read
  exact ⟨sections, mapError_eq_ok_iff.mp checked⟩

theorem exists_sections_of_ofDocument {bytes : ByteArray} (read : ofDocument bytes = .ok dialect) :
    ∃ sections, ofSections sections = .ok dialect := by
  unfold ofDocument at read
  split at read
  · split at read
    · split at read
      · next sections _ =>
          obtain ⟨checked, accepted, ended⟩ := bind_eq_ok_iff.mp read
          split at ended
          · cases ended
            exact ⟨sections, mapError_eq_ok_iff.mp accepted⟩
          · cases ended
      · cases read
    · cases read
  · cases read

/-- The built-in dialect is that of a document without sections. -/
theorem IsAvailable.exists_sections (available : dialect.IsAvailable) :
    ∃ sections, ofSections sections = .ok dialect := by
  cases available with
  | builtIn => exact ⟨{}, rfl⟩
  | datum read => exact exists_sections_of_ofDatum read
  | document read => exact exists_sections_of_ofDocument read

theorem IsAvailable.exists_isDescribedBy (available : dialect.IsAvailable) :
    ∃ sections : Sections, sections.IsSound ∧ dialect.IsDescribedBy sections := by
  obtain ⟨sections, read⟩ := available.exists_sections
  have judged := judges_ofSections sections
  rw [read] at judged
  cases judged with
  | accepted sound described => exact ⟨sections, sound, described⟩

theorem exists_ofSections_of_isSound {sections : Sections} (sound : sections.IsSound) :
    ∃ dialect, ofSections sections = .ok dialect ∧ dialect.IsDescribedBy sections := by
  have judged := judges_ofSections sections
  cases result : ofSections sections with
  | ok dialect =>
      rw [result] at judged
      cases judged with
      | accepted _ described => exact ⟨dialect, rfl, described⟩
  | error fault =>
      rw [result] at judged
      cases judged with
      | rejected first => exact absurd sound first.not_isSound

end Dialect

/-! ### The two ways -/

namespace Codebook

variable {field : Field}

/-- Entries that share neither mnemonics nor patterns do not give way to each other. -/
theorem foldl_overwrite {earlier entries : List (String × Nat)}
    (mnemonics : ((earlier ++ entries).map Prod.fst).Nodup)
    (patterns : ((earlier ++ entries).map Prod.snd).Nodup) :
    entries.foldl overwrite earlier = earlier ++ entries := by
  induction entries generalizing earlier with
  | nil => rw [List.append_nil, List.foldl_nil]
  | cons entry rest ih =>
      have kept : overwrite earlier entry = earlier ++ [entry] := by
        rw [overwrite, List.filter_eq_self.mpr]
        intro other member
        rw [List.map_append, List.nodup_append] at mnemonics patterns
        have otherMnemonic := mnemonics.2.2 _ (List.mem_map_of_mem member) entry.1 (by simp)
        have otherPattern := patterns.2.2 _ (List.mem_map_of_mem member) entry.2 (by simp)
        exact decide_eq_true ⟨otherMnemonic, otherPattern⟩
      rw [List.append_cons] at mnemonics patterns ⊢
      rw [List.foldl_cons, kept, ih mnemonics patterns]

theorem foldl_overwrite_entries (book : Codebook field) :
    book.entries.foldl overwrite [] = book.entries :=
  foldl_overwrite book.mnemonics_nodup book.patterns_nodup

theorem pattern?_eq_some_iff_mnemonic? (book : Codebook field) (mnemonic : String)
    (pattern : Nat) :
    book.pattern? mnemonic = some pattern ↔ book.mnemonic? pattern = some mnemonic :=
  pattern?_eq_some_iff.trans mnemonic?_eq_some_iff.symm

theorem le_mask_of_pattern? {book : Codebook field} {mnemonic : String} {pattern : Nat}
    (known : book.pattern? mnemonic = some pattern) : pattern ≤ field.mask :=
  Nat.le_sub_one_of_lt (book.patterns_fit _ (mem_entries_of_pattern? known))

theorem mnemonic?_noOp (book : Codebook field) (optional : field ≠ .comp) :
    book.mnemonic? Field.noOp = none := by
  rw [Option.eq_none_iff_forall_ne_some]
  intro mnemonic named
  have unreserved := book.patterns_unreserved _ (mnemonic?_eq_some_iff.mp named)
  simp [Field.reserves, optional] at unreserved

end Codebook

/-! ### Computations -/

namespace Computation

/-- Apart from the separators, code consists of mnemonics. -/
theorem count_code {computation : Computation} {c : Char} (notEquals : c ≠ '=')
    (notSemicolon : c ≠ ';') :
    computation.code.toList.count c = (computation.mnemonics.flatMap String.toList).count c := by
  obtain ⟨dest, comp, jump⟩ := computation
  simp only [code, mnemonics, String.toList_append, List.count_append, List.flatMap_append,
    List.flatMap_cons, Nat.add_assoc]
  congr 1
  · cases dest with
    | none => rfl
    | some dest => simp [notEquals.symm]
  · cases jump with
    | none => rfl
    | some jump => simp [notSemicolon.symm]

end Computation

section Encoding

variable {dialect : Dialect} {symbols : SymbolTable} {line : Nat} {computation : Computation}

theorem encode_compute_ok_iff :
    (∃ word, encode symbols dialect ⟨line, .compute computation⟩ = .ok word) ↔
      ∀ field mnemonic, computation.mnemonic? field = some mnemonic →
        ∃ pattern, dialect.pattern? field mnemonic = some pattern :=
  (computation.encode_verdict dialect symbols.toList line).exists_ok_iff.trans
    encodingFlaws_compute_eq_nil_iff

theorem disassemble_of_encode {word : Word}
    (encoded : encode symbols dialect ⟨line, .compute computation⟩ = .ok word) :
    word.disassemble dialect = .compute computation := by
  have verdict := computation.encode_verdict dialect symbols.toList line
  rw [show computation.encode dialect line = .ok word from encoded] at verdict
  exact verdict.of_ok.2.disassemble_compute

end Encoding

/-- **A dialect translates both ways.** Each dialect that is built in or read from a document has
the mnemonics of sound sections. A mnemonic has a pattern exactly if the pattern has that mnemonic,
no entry has given way to another, all patterns fit their fields, and none is that of an absent
field. A computation is encoded if its mnemonics have patterns; then, whatever its texts are, the
word shows as it is written, and each `?` that shows is one of a mnemonic. -/
theorem Dialect.IsAvailable.translates_both_ways {dialect : Dialect}
    (available : dialect.IsAvailable) :
    (∃ sections : Sections, sections.IsSound ∧ dialect.IsDescribedBy sections) ∧
      (∀ field mnemonic pattern, dialect.pattern? field mnemonic = some pattern ↔
        dialect.mnemonic? field pattern = some mnemonic) ∧
      (∀ field, (dialect.codebook field).entries.foldl Codebook.overwrite [] =
        (dialect.codebook field).entries) ∧
      (∀ field mnemonic pattern, dialect.pattern? field mnemonic = some pattern →
        pattern ≤ field.mask) ∧
      (∀ field, field ≠ .comp → dialect.mnemonic? field Field.noOp = none) ∧
      ∀ symbols line computation,
        ((∃ word, encode symbols dialect ⟨line, .compute computation⟩ = .ok word) ↔
          ∀ field mnemonic, computation.mnemonic? field = some mnemonic →
            ∃ pattern, dialect.pattern? field mnemonic = some pattern) ∧
        ∀ word, encode symbols dialect ⟨line, .compute computation⟩ = .ok word →
          word.disassemble dialect = .compute computation ∧
            word.code dialect = computation.code ∧
            (word.code dialect).toList.count '?' =
              (computation.mnemonics.flatMap String.toList).count '?' := by
  refine ⟨available.exists_isDescribedBy, ?_, ?_, ?_, ?_, ?_⟩
  · exact fun field => (dialect.codebook field).pattern?_eq_some_iff_mnemonic?
  · exact fun field => (dialect.codebook field).foldl_overwrite_entries
  · exact fun field mnemonic pattern => Codebook.le_mask_of_pattern?
  · exact fun field => (dialect.codebook field).mnemonic?_noOp
  · intro symbols line computation
    refine ⟨encode_compute_ok_iff, fun word encoded => ?_⟩
    have shown := disassemble_of_encode encoded
    have code : word.code dialect = computation.code := by rw [Word.code, shown, Instruction.code]
    refine ⟨shown, code, ?_⟩
    rw [code]
    exact Computation.count_code (by decide) (by decide)

/-- Mnemonics that no source can spell show as they are. -/
theorem Dialect.IsAvailable.translates_both_ways_separators :
    ∃ dialect word,
      Dialect.ofDatum (.map [("comp", .map [("=?;", .text "0000000")]), ("jump", .null)]) =
        .ok dialect ∧
      encode ∅ dialect ⟨0, .compute ⟨some "AD", "=?;", some "JEQ"⟩⟩ = .ok word ∧
      word = .compute 0 6 2 ∧ word.code dialect = "AD==?;;JEQ" ∧
      dialect.mnemonic? .comp 0 = some "=?;" ∧ dialect.mnemonic? .dest 0 = none := by
  let written : OrderedMap String := .ofList [("=?;", "0000000")]
  have listed : written.toList = [("=?;", "0000000")] := OrderedMap.toList_ofList (by decide)
  have sound : Sections.IsSound { comp := some written } := by
    intro field other present
    cases field with
    | comp =>
        cases present
        rw [listed]
        exact ⟨by simpa using Field.exists_readPattern?_iff.mp ⟨0, by decide⟩,
          by simp [Field.IsReserved], by simp⟩
    | dest => cases present
    | jump => cases present
  obtain ⟨dialect, accepted, described⟩ := Dialect.exists_ofSections_of_isSound sound
  have comp : dialect.pattern? .comp "=?;" = some 0 := by
    refine (described.present .comp written rfl "=?;" 0).mpr ⟨"0000000", ?_, by decide⟩
    rw [OrderedMap.get?_eq_some_iff, listed]
    exact List.mem_singleton_self _
  have dest : dialect.pattern? .dest "AD" = some 6 := by
    rw [Dialect.pattern?, described.absent .dest rfl]
    decide
  have jump : dialect.pattern? .jump "JEQ" = some 2 := by
    rw [Dialect.pattern?, described.absent .jump rfl]
    decide
  have encoded : encode ∅ dialect ⟨0, .compute ⟨some "AD", "=?;", some "JEQ"⟩⟩ =
      .ok (.compute 0 6 2) := by
    simp only [encode, Computation.encode, Dialect.resolveOptional, Dialect.resolve, comp, dest,
      jump]
    rfl
  have read : Dialect.ofDatum (.map [("comp", .map [("=?;", .text "0000000")]),
      ("jump", .null)]) = .ok dialect :=
    mapError_eq_ok_iff.mpr accepted
  obtain ⟨_, both, _, _, reserved, encodes⟩ :=
    Dialect.IsAvailable.translates_both_ways (.datum read)
  obtain ⟨_, shows⟩ := encodes ∅ 0 ⟨some "AD", "=?;", some "JEQ"⟩
  refine ⟨dialect, _, read, encoded, rfl, (shows _ encoded).2.1.trans ?_,
    (both _ _ _).mp comp, reserved .dest (by decide)⟩
  decide

end HackAssembler
