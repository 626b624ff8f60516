import HackAssembler.Proofs.AssembledWords
import HackAssembler.Proofs.BinaryNumerals
import HackAssembler.Proofs.CleanCode
import HackAssembler.Proofs.Reassembly

/-! # The output text

The output of an accepted source has one piece of text for each instruction, and the number that
the piece spells is that of the word (`Program.shows_pieces`). Since words keep apart the values of
loads and the mnemonics of computations, the output says what the instructions say and no more
(`assemble_text_decodes`).
-/

namespace HackAssembler

variable {dialect : Dialect}

/-! ### Words in binary -/

/-- The parts of a word fit into its bits. -/
def Word.Fits : Word → Prop
  | address value => value ≤ addressMax
  | compute comp dest jump =>
      comp < Field.comp.capacity ∧ dest < Field.dest.capacity ∧ jump < Field.jump.capacity

theorem Word.Fits.ofNat_toNat {word : Word} (fits : word.Fits) : ofNat word.toNat = word := by
  cases word with
  | address value => exact ofNat_toNat_address fits
  | compute comp dest jump => exact ofNat_toNat_compute fits.1 fits.2.1 fits.2.2

/-- The digits that the words of loads or of computations start with. -/
def Instruction.opening : Instruction → List Char
  | load _ => ['0']
  | compute _ => ['1', '1', '1']

/-- A piece of text shows the word of an instruction: it has sixteen binary digits, it starts as
the kind of instruction requires, and the number that it spells is the number of the word. -/
structure Shows (body : Instruction) (word : Word) (piece : List Char) : Prop where
  binary : Text.IsBinary 16 piece
  opening : body.opening <+: piece
  decodes : (Text.binaryValue? piece).map Word.ofNat = some word

theorem Encodes.opening_isPrefix {symbols : List (String × Symbol)} {body : Instruction}
    {word : Word} (encodes : Encodes dialect symbols body word) :
    body.opening <+: Text.binaryDigits 16 word.toNat := by
  cases encodes with
  | @load operand value valued =>
      have high : (Word.address value).toNat / 2 ^ 15 = 0 := by
        simp only [Word.toNat]
        omega
      rw [Text.binaryDigits_add 1 15, high]
      exact List.prefix_append _ _
  | @compute computation comp dest jump comp_known dest_known jump_known =>
      have high : (Word.compute comp dest jump).toNat / 2 ^ 13 = 7 := by
        simp only [Word.toNat, Field.capacity_comp, Field.capacity_dest, Field.capacity_jump]
        omega
      rw [Text.binaryDigits_add 3 13, high]
      exact List.prefix_append _ _

theorem Encodes.shows {symbols : List (String × Symbol)} {body : Instruction} {word : Word}
    (encodes : Encodes dialect symbols body word) (fits : word.Fits) :
    Shows body word word.bits.toList := by
  have digits : word.bits.toList = Text.binaryDigits 16 word.toNat := Text.toList_binary _ _
  rw [digits]
  refine ⟨Text.isBinary_binaryDigits _ _, encodes.opening_isPrefix, ?_⟩
  rw [Text.binaryValue?_binaryDigits word.toNat_lt, Option.map_some, fits.ofNat_toNat]

/-! ### Pieces of an output -/

/-- The pieces of a text between its line feeds; an empty text has none. -/
def Text.pieces (text : String) : List (List Char) :=
  if text = "" then [] else text.toList.splitOn '\n'

theorem Word.length_bits (word : Word) : word.bits.toList.length = 16 := by
  rw [bits, Text.toList_binary, Text.length_binaryDigits]

theorem Word.lineFeed_not_mem_bits (word : Word) : '\n' ∉ word.bits.toList := by
  intro member
  rw [bits, Text.toList_binary] at member
  rcases (Text.isBinary_binaryDigits _ _).binary _ member with zero | one
  · exact absurd zero (by decide)
  · exact absurd one (by decide)

/-- The pieces of an output are the words in binary. -/
theorem Program.pieces_text (program : Program) :
    Text.pieces program.text = program.words.map fun word => word.bits.toList := by
  unfold Text.pieces text
  cases program.words with
  | nil => rfl
  | cons word rest =>
      have split : ("\n".intercalate ((word :: rest).map Word.bits)).toList.splitOn '\n' =
          (word :: rest).map fun word => word.bits.toList := by
        rw [Source.splitOn_intercalate ?_ (by simp), List.map_map]
        · rfl
        · intro shown member
          obtain ⟨other, _, rfl⟩ := List.mem_map.mp member
          exact other.lineFeed_not_mem_bits
      rw [split, if_neg]
      intro empty
      rw [empty, List.map_cons] at split
      have digits := word.length_bits
      rw [← (List.cons.inj split).1] at digits
      cases digits

/-! ### Words of an accepted source -/

theorem Encodes.evaluated {symbols : List (String × Symbol)} {body : Instruction} {word : Word}
    (encodes : Encodes dialect symbols body word) :
    Encodes dialect symbols body.evaluated word := by
  cases encodes with
  | load valued => exact .load ((Operand.value?_evaluated _ _).trans valued)
  | compute comp_known dest_known jump_known => exact .compute comp_known dest_known jump_known

theorem Dialect.fieldPattern?_lt {field : Field} {mnemonic : Option String} {pattern : Nat}
    (known : dialect.fieldPattern? field mnemonic = some pattern) : pattern < field.capacity := by
  cases mnemonic with
  | none =>
      cases known
      cases field <;> decide
  | some mnemonic =>
      exact (dialect.codebook field).patterns_fit _ (Codebook.mem_entries_of_pattern? known)

/-- The words of an accepted source stand for its instructions and fit. -/
theorem Program.encodes_and_fits {source : String} {program : Program}
    (assembled : assemble dialect source = .ok program) :
    List.Forall₂ (fun located word =>
      Encodes dialect program.symbols.toList located.item word ∧ word.Fits)
      program.instructions program.words := by
  obtain ⟨_, wellFormed, means⟩ := wellFormed_of_assemble assembled
  rw [means.instructions, evaluateNumerals, List.forall₂_map_left_iff]
  have fits : ∀ located ∈ HackAssembler.instructions (Source.readable source), ∀ word,
      Encodes dialect program.symbols.toList located.item word → word.Fits := by
    intro located member word encodes
    obtain ⟨line, item⟩ := located
    cases encodes with
    | load valued =>
        obtain ⟨value, known, fits⟩ := wellFormed.operands_fit _ member _ rfl
        rw [← means.symbols, valued] at known
        cases known
        exact fits
    | compute comp_known dest_known jump_known =>
        exact ⟨dialect.fieldPattern?_lt comp_known, dialect.fieldPattern?_lt dest_known,
          dialect.fieldPattern?_lt jump_known⟩
  have both := (List.forall₂_and_left _ _).mpr ⟨fits, means.words⟩
  exact both.imp fun located word pair => ⟨pair.2.evaluated, pair.1 word pair.2⟩

theorem forall₂_zip_map {α β γ : Type} {relation : α → β → Prop} {Good : α × β → γ → Prop}
    {f : β → γ} {firsts : List α} {seconds : List β}
    (all : List.Forall₂ relation firsts seconds)
    (sound : ∀ first second, relation first second → Good (first, second) (f second)) :
    List.Forall₂ Good (firsts.zip seconds) (seconds.map f) := by
  induction all with
  | nil => exact .nil
  | cons head _ ih => exact .cons (sound _ _ head) ih

theorem Program.shows_pieces {source : String} {program : Program}
    (assembled : assemble dialect source = .ok program) :
    List.Forall₂ (fun shown piece => Shows shown.1.item shown.2 piece)
      (program.instructions.zip program.words) (Text.pieces program.text) := by
  rw [program.pieces_text]
  exact forall₂_zip_map (Program.encodes_and_fits assembled) fun _ _ word =>
    word.1.shows word.2

/-- The words of an accepted source can be read from its output. -/
theorem Program.decode_pieces {source : String} {program : Program}
    (assembled : assemble dialect source = .ok program) :
    (Text.pieces program.text).map (fun piece => (Text.binaryValue? piece).map Word.ofNat) =
      program.words.map some := by
  rw [program.pieces_text, List.map_map]
  refine List.map_congr_left fun word member => ?_
  obtain ⟨_, _, encodes, fits⟩ :=
    exists_mem_of_forall₂ (Program.encodes_and_fits assembled) member
  simp only [Function.comp_apply, (encodes.shows fits).decodes]

theorem Program.text_eq_text_iff {source otherSource : String} {program other : Program}
    (assembled : assemble dialect source = .ok program)
    (otherAssembled : assemble dialect otherSource = .ok other) :
    program.text = other.text ↔ program.words = other.words := by
  constructor
  · intro same
    apply List.map_injective_iff.mpr (Option.some_injective Word)
    rw [← Program.decode_pieces assembled, ← Program.decode_pieces otherAssembled, same]
  · intro same
    rw [text, text, same]

/-! ### What the output says -/

/-- Two instructions of programs with the given symbols say the same: both load the same value, or
they are the same computation. -/
inductive SaysSame (symbols others : List (String × Symbol)) : Instruction → Instruction → Prop
  | load {operand other : Operand} {value : Nat} (valued : operand.value? symbols = some value)
      (otherValued : other.value? others = some value) :
      SaysSame symbols others (.load operand) (.load other)
  | compute (computation : Computation) :
      SaysSame symbols others (.compute computation) (.compute computation)

/-- Instructions have the same word exactly when they say the same. -/
theorem Encodes.eq_iff_saysSame {symbols others : List (String × Symbol)}
    {first second : Instruction} {word other : Word}
    (encodes : Encodes dialect symbols first word)
    (otherEncodes : Encodes dialect others second other) :
    word = other ↔ SaysSame symbols others first second := by
  constructor
  · rintro rfl
    cases first with
    | load operand =>
        cases encodes with
        | load valued =>
            cases otherEncodes with
            | load otherValued => exact .load valued otherValued
    | compute computation =>
        have shown := encodes.disassemble_compute
        cases encodes with
        | compute comp_known dest_known jump_known =>
            cases second with
            | load operand => cases otherEncodes
            | compute otherComputation =>
                rw [otherEncodes.disassemble_compute] at shown
                cases shown
                exact .compute computation
  · intro same
    cases same with
    | load valued otherValued =>
        rw [encodes.unique (.load valued), otherEncodes.unique (.load otherValued)]
    | compute computation =>
        cases encodes with
        | compute comp_known dest_known jump_known =>
            exact (otherEncodes.unique (.compute comp_known dest_known jump_known)).symm

/-- Two lists are equal exactly when what they come from agrees one by one, if that is so of each
of their entries. -/
theorem eq_iff_forall₂ {α β γ : Type} {relation : α → γ → Prop} {other : β → γ → Prop}
    {agree : α → β → Prop} {firsts : List α} {seconds : List β} {results others : List γ}
    (sound : ∀ first second result otherResult, relation first result →
      other second otherResult → (result = otherResult ↔ agree first second))
    (all : List.Forall₂ relation firsts results) (allOther : List.Forall₂ other seconds others) :
    results = others ↔ List.Forall₂ agree firsts seconds := by
  induction all generalizing seconds others with
  | nil => cases allOther <;> simp
  | cons head _ ih =>
      cases allOther with
      | nil => simp
      | cons otherHead otherTail =>
          rw [List.cons.injEq, List.forall₂_cons, sound _ _ _ _ head otherHead, ih otherTail]

/-- **The output decodes uniquely.** The output of an accepted source has one piece for each
instruction, which shows its word, and two accepted sources have the same output exactly when their
instructions say the same one by one. -/
theorem assemble_text_decodes {source : String} {program : Program}
    (assembled : assemble dialect source = .ok program) :
    program.instructions.length = program.words.length ∧
      List.Forall₂ (fun shown piece => Shows shown.1.item shown.2 piece)
        (program.instructions.zip program.words) (Text.pieces program.text) ∧
      ∀ otherSource other, assemble dialect otherSource = .ok other →
        (program.text = other.text ↔
          List.Forall₂ (fun first second =>
            SaysSame program.symbols.toList other.symbols.toList first.item second.item)
            program.instructions other.instructions) := by
  refine ⟨(Program.encodes_and_fits assembled).length_eq, Program.shows_pieces assembled, ?_⟩
  intro otherSource other otherAssembled
  rw [Program.text_eq_text_iff assembled otherAssembled]
  exact eq_iff_forall₂ (fun _ _ _ _ word otherWord => word.1.eq_iff_saysSame otherWord.1)
    (Program.encodes_and_fits assembled) (Program.encodes_and_fits otherAssembled)

/-- A label has the output of its value, however the sources are laid out. -/
theorem assemble_text_decodes_label :
    ∃ program other, assemble .hack "@END\nD;JGT\n(END)" = .ok program ∧
      assemble .hack "@2 // the end\n\nD;JGT" = .ok other ∧ program.text = other.text ∧
      Text.pieces program.text =
        ["0000000000000010".toList, "1110001100000001".toList] ∧
      List.Forall₂ (fun first second =>
        SaysSame program.symbols.toList other.symbols.toList first.item second.item)
        program.instructions other.instructions := by
  obtain ⟨program, assembled, words⟩ : ∃ program,
      assemble .hack "@END\nD;JGT\n(END)" = .ok program ∧
        program.words = [.address 2, .compute 0b0001100 0 1] := by
    apply exists_words_of_flawless <;>
      simp only [flaws, statementFlaws, symbolEntries, boundNames,
        Dialect.predefinedEntries_hack] <;>
      decide +kernel
  obtain ⟨other, otherAssembled, otherWords⟩ : ∃ program,
      assemble .hack "@2 // the end\n\nD;JGT" = .ok program ∧
        program.words = [.address 2, .compute 0b0001100 0 1] := by
    apply exists_words_of_flawless <;>
      simp only [flaws, statementFlaws, symbolEntries, boundNames,
        Dialect.predefinedEntries_hack] <;>
      decide +kernel
  have same : program.text = other.text := by rw [Program.text, Program.text, words, otherWords]
  refine ⟨program, other, assembled, otherAssembled, same, ?_, ?_⟩
  · rw [program.pieces_text, words]
    decide
  · exact ((assemble_text_decodes assembled).2.2 _ other otherAssembled).mp same

end HackAssembler
