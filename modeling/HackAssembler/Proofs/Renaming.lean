import HackAssembler.Proofs.Agreement
import HackAssembler.Proofs.Meaning
import Mathlib.Data.List.Forall2
import Mathlib.Data.Option.Basic
import Mathlib.Logic.Function.Basic

/-! # Programs that differ in names and lines

The passes over statements carry names and lines along. They compare names with each other and never
look at lines, so a program whose symbols have other names and whose statements stand on other lines
is translated alike: the words are the same, and symbols and faults differ in names and lines only
(`translate_agree`). A name may become another one unless it is a numeral or predefined, and
different names must stay different (`IsRenaming`).
-/

namespace HackAssembler

/-! ### Renamed programs -/

def Operand.rename (rename : String → String) : Operand → Operand
  | written text => written (rename text)
  | literal value => literal value

def Instruction.rename (rename : String → String) : Instruction → Instruction
  | load operand => load (operand.rename rename)
  | compute computation => compute computation

def Statement.rename (rename : String → String) : Statement → Statement
  | label name => label (rename name)
  | instruction body => instruction (body.rename rename)

def Oversized.rename (rename : String → String) : Oversized → Oversized
  | written text => written (rename text)
  | symbol name value => symbol (rename name) value

@[simp] theorem Instruction.rename_id (body : Instruction) : body.rename id = body := by
  cases body with
  | compute computation => rfl
  | load operand => cases operand <;> rfl

@[simp] theorem Statement.rename_id (statement : Statement) : statement.rename id = statement := by
  cases statement with
  | label name => rfl
  | instruction body => exact congrArg instruction body.rename_id

@[simp] theorem Oversized.rename_id (operand : Oversized) : operand.rename id = operand := by
  cases operand <;> rfl

/-- A renaming keeps different names different and leaves numerals and predefined symbols alone. -/
structure IsRenaming (dialect : Dialect) (rename : String → String) : Prop where
  injective : Function.Injective rename
  numeral : ∀ text, Text.isNumeral text = true → rename text = text
  predefined : ∀ name address, dialect.symbol? name = some address → rename name = name

theorem IsRenaming.id (dialect : Dialect) : IsRenaming dialect id where
  injective := Function.injective_id
  numeral := fun _ _ => rfl
  predefined := fun _ _ _ => rfl

/-- Only numerals become numerals, since each of these is already taken by itself. -/
theorem IsRenaming.isNumeral {dialect : Dialect} {rename : String → String}
    (renames : IsRenaming dialect rename) (text : String) :
    Text.isNumeral (rename text) = Text.isNumeral text := by
  cases numeral : Text.isNumeral text with
  | true => rw [renames.numeral text numeral, numeral]
  | false =>
      by_contra changed
      rw [Bool.not_eq_false] at changed
      have fixed := renames.injective (renames.numeral (rename text) changed)
      rw [fixed, numeral] at changed
      cases changed

/-! ### What is alike -/

section

variable (rename : String → String) (SameLine : Nat → Nat → Prop)

structure Located.Alike {α : Type} (change : α → α) (first second : Located α) : Prop where
  line : SameLine first.line second.line
  item : second.item = change first.item

structure Symbol.Alike (first second : Symbol) : Prop where
  kind : second.kind = first.kind
  value : second.value = first.value
  line : Option.Rel SameLine first.line second.line

structure EntryAlike (first second : String × Symbol) : Prop where
  name : second.1 = rename first.1
  symbol : first.2.Alike SameLine second.2

def SymbolTable.Alike (first second : SymbolTable) : Prop :=
  List.Forall₂ (EntryAlike rename SameLine) first.toList second.toList

/-- The causes of two faults are of one kind and say the same but for names and lines. -/
inductive Fault.Cause.Alike : Fault.Cause → Fault.Cause → Prop
  | duplicateLabel (name : String) {earlier other : Option Nat}
      (line : Option.Rel SameLine earlier other) :
      Alike (.duplicateLabel name earlier) (.duplicateLabel (rename name) other)
  | malformed (reason : String) : Alike (.malformed reason) (.malformed reason)
  | unresolvedMnemonic (field : Field) (mnemonic : String) :
      Alike (.unresolvedMnemonic field mnemonic) (.unresolvedMnemonic field mnemonic)
  | addressOverflow (operand : Oversized) :
      Alike (.addressOverflow operand) (.addressOverflow (operand.rename rename))
  | undefinedSymbol (name : String) :
      Alike (.undefinedSymbol name) (.undefinedSymbol (rename name))

structure Fault.Alike (first second : Fault) : Prop where
  cause : first.cause.Alike rename SameLine second.cause
  line : SameLine first.line second.line

structure Program.Alike (first second : Program) : Prop where
  instructions : List.Forall₂ (Located.Alike SameLine (Instruction.rename rename))
    first.instructions second.instructions
  words : first.words = second.words
  symbols : first.symbols.Alike rename SameLine second.symbols

structure LabelState.Alike (first second : LabelState) : Prop where
  symbols : first.symbols.Alike rename SameLine second.symbols
  address : second.address = first.address

structure VariableState.Alike (first second : VariableState) : Prop where
  symbols : first.symbols.Alike rename SameLine second.symbols
  free : second.free = first.free

end

variable {rename : String → String} {SameLine : Nat → Nat → Prop}

/-- Faults that differ in lines only have the same words. -/
theorem Fault.Alike.message {first second : Fault} (alike : first.Alike id SameLine second) :
    second.message = first.message := by
  obtain ⟨cause, line⟩ := first
  obtain ⟨otherCause, otherLine⟩ := second
  have causes : cause.Alike id SameLine otherCause := alike.cause
  unfold Fault.message
  cases causes with
  | duplicateLabel name lines =>
      unfold Fault.Cause.message
      rfl
  | malformed reason => rfl
  | unresolvedMnemonic field mnemonic => rfl
  | addressOverflow operand => rw [Oversized.rename_id]
  | undefinedSymbol name => rfl

/-! ### Symbol tables -/

theorem lookup_alike {first second : List (String × Symbol)}
    (injective : Function.Injective rename)
    (alike : List.Forall₂ (EntryAlike rename SameLine) first second) (name : String) :
    Option.Rel (Symbol.Alike SameLine) (first.lookup name) (second.lookup (rename name)) := by
  induction alike with
  | nil => exact .none
  | @cons entry other entries others entryAlike _ ih =>
      obtain ⟨known, symbol⟩ := entry
      obtain ⟨otherKnown, otherSymbol⟩ := other
      obtain ⟨rfl, symbolAlike⟩ := entryAlike
      rw [List.lookup_cons, List.lookup_cons]
      by_cases same : name = known
      · subst same
        simp only [beq_self_eq_true]
        exact .some symbolAlike
      · have apart : rename name ≠ rename known := fun equal => same (injective equal)
        simp only [beq_false_of_ne same, beq_false_of_ne apart]
        exact ih

namespace SymbolTable.Alike

variable {first second : SymbolTable}

theorem get? (alike : first.Alike rename SameLine second) (injective : Function.Injective rename)
    (name : String) :
    Option.Rel (Symbol.Alike SameLine) (first.get? name) (second.get? (rename name)) := by
  rw [← OrderedMap.lookup_toList, ← OrderedMap.lookup_toList]
  exact lookup_alike injective alike name

theorem value? (alike : first.Alike rename SameLine second)
    (injective : Function.Injective rename) (name : String) :
    second.value? (rename name) = first.value? name := by
  have known := alike.get? injective name
  unfold SymbolTable.value?
  generalize first.get? name = symbol, second.get? (rename name) = other at known
  cases known with
  | none => rfl
  | some symbols => exact congrArg some symbols.value

theorem contains (alike : first.Alike rename SameLine second)
    (injective : Function.Injective rename) (name : String) :
    second.contains (rename name) = first.contains name := by
  have known := alike.get? injective name
  rw [Bool.eq_iff_iff, OrderedMap.contains_iff, OrderedMap.contains_iff]
  simp only [← OrderedMap.get?_eq_some_iff]
  generalize first.get? name = symbol, second.get? (rename name) = other at known
  cases known <;> simp

/-- New entries that are alike go to the ends of both tables. -/
theorem insertIfNew (alike : first.Alike rename SameLine second)
    (injective : Function.Injective rename) {name : String} {symbol other : Symbol}
    (new : first.get? name = none) (symbols : symbol.Alike SameLine other) :
    SymbolTable.Alike rename SameLine (first.insertIfNew name symbol)
      (second.insertIfNew (rename name) other) := by
  have otherNew : second.get? (rename name) = none := by
    have known := alike.get? injective name
    rw [new] at known
    generalize second.get? (rename name) = found at known
    cases known
    rfl
  unfold SymbolTable.Alike
  rw [OrderedMap.toList_insertIfNew_of_new new, OrderedMap.toList_insertIfNew_of_new otherNew]
  exact List.rel_append alike (.cons ⟨rfl, symbols⟩ .nil)

end SymbolTable.Alike

/-! ### The passes -/

theorem LabelState.next_agree (injective : Function.Injective rename)
    (first second : LabelState) (statement other : Located Statement)
    (states : first.Alike rename SameLine second)
    (statements : statement.Alike SameLine (Statement.rename rename) other) :
    Agree (Fault.Alike rename SameLine) (LabelState.Alike rename SameLine)
      (first.next statement) (second.next other) := by
  obtain ⟨symbols, _⟩ := first
  obtain ⟨otherSymbols, address⟩ := second
  obtain ⟨tables, rfl⟩ := states
  obtain ⟨line, item⟩ := statement
  obtain ⟨otherLine, _⟩ := other
  obtain ⟨lines, rfl⟩ := statements
  simp only at tables lines
  cases item with
  | instruction body => exact .accepted ⟨tables, rfl⟩
  | label name =>
      simp only [LabelState.next, Statement.rename, OrderedMap.getThenInsertIfNew?_eq]
      by_cases distant : symbolMax < address
      · simp only [distant, ↓reduceIte]
        exact .rejected ⟨.addressOverflow (.written name), lines⟩
      · have known := tables.get? injective name
        simp only [distant, ↓reduceIte]
        cases earlier : symbols.get? name with
        | none =>
            rw [earlier] at known
            generalize otherSymbols.get? (rename name) = otherEarlier at known
            cases known
            exact .accepted
              ⟨tables.insertIfNew injective earlier ⟨rfl, rfl, .some lines⟩, rfl⟩
        | some symbol =>
            rw [earlier] at known
            generalize otherSymbols.get? (rename name) = otherEarlier at known
            cases known with
            | some alike => exact .rejected ⟨.duplicateLabel name alike.line, lines⟩

theorem instructions_alike {first second : List (Located Statement)}
    (alike : List.Forall₂ (Located.Alike SameLine (Statement.rename rename)) first second) :
    List.Forall₂ (Located.Alike SameLine (Instruction.rename rename)) (instructions first)
      (instructions second) := by
  refine List.rel_filterMap ?_ alike
  intro statement other same
  obtain ⟨line, item⟩ := statement
  obtain ⟨otherLine, _⟩ := other
  obtain ⟨lines, rfl⟩ := same
  cases item with
  | instruction body => exact .some ⟨lines, rfl⟩
  | label name => exact .none

theorem resolveLabels_agree (injective : Function.Injective rename)
    {symbols otherSymbols : SymbolTable} (tables : symbols.Alike rename SameLine otherSymbols)
    {program other : List (Located Statement)}
    (alike : List.Forall₂ (Located.Alike SameLine (Statement.rename rename)) program other) :
    Agree (Fault.Alike rename SameLine)
      (fun first second => first.1.Alike rename SameLine second.1 ∧
        List.Forall₂ (Located.Alike SameLine (Instruction.rename rename)) first.2 second.2)
      (resolveLabels symbols program) (resolveLabels otherSymbols other) := by
  have started : LabelState.Alike rename SameLine ⟨symbols, 0⟩ ⟨otherSymbols, 0⟩ := ⟨tables, rfl⟩
  have passed := Agree.foldlM (LabelState.next_agree injective) alike started
  have bound : Agree _ (SymbolTable.Alike rename SameLine) (symbols.bindLabels program)
      (otherSymbols.bindLabels other) :=
    passed.map LabelState.symbols LabelState.symbols fun _ _ states => states.symbols
  exact bound.map (fun symbols => (symbols, instructions program))
    (fun symbols => (symbols, instructions other)) fun _ _ tables =>
      ⟨tables, instructions_alike alike⟩

section

variable {dialect : Dialect} (renames : IsRenaming dialect rename)

include renames

theorem VariableState.use_agree {first second : VariableState}
    (states : first.Alike rename SameLine second) {line otherLine : Nat}
    (lines : SameLine line otherLine) (text : String) :
    Agree (Fault.Alike rename SameLine) (VariableState.Alike rename SameLine)
      (first.use line text) (second.use otherLine (rename text)) := by
  have contains := states.symbols.contains renames.injective text
  obtain ⟨symbols, _⟩ := first
  obtain ⟨otherSymbols, free⟩ := second
  obtain ⟨tables, rfl⟩ := states
  simp only at tables contains
  simp only [VariableState.use, renames.isNumeral, contains]
  by_cases numeral : Text.isNumeral text = true
  · simp only [numeral, ↓reduceIte, renames.numeral text numeral]
    by_cases fits : Text.numeralValue text ≤ addressMax
    · simp only [fits, ↓reduceIte]
      exact .accepted ⟨tables, rfl⟩
    · simp only [fits, ↓reduceIte]
      have overflow : Fault.Cause.Alike rename SameLine (.addressOverflow (.written text))
          (.addressOverflow (.written (rename text))) := .addressOverflow (.written text)
      rw [renames.numeral text numeral] at overflow
      exact .rejected ⟨overflow, lines⟩
  · by_cases known : symbols.contains text = true
    · simp only [numeral, known, Bool.false_eq_true, ↓reduceIte]
      exact .accepted ⟨tables, rfl⟩
    · by_cases exhausted : symbolMax < free + 1
      · simp only [numeral, known, exhausted, Bool.false_eq_true, ↓reduceIte]
        exact .rejected ⟨.addressOverflow (.written text), lines⟩
      · simp only [numeral, known, exhausted, Bool.false_eq_true, ↓reduceIte]
        have new : symbols.get? text = none := by
          rw [OrderedMap.get?_eq_none_iff, ← OrderedMap.contains_iff_mem_names]
          exact known
        exact .accepted
          ⟨tables.insertIfNew renames.injective new ⟨rfl, rfl, .some lines⟩, rfl⟩

theorem VariableState.next_agree (first second : VariableState)
    (located other : Located Instruction) (states : first.Alike rename SameLine second)
    (instructions : located.Alike SameLine (Instruction.rename rename) other) :
    Agree (Fault.Alike rename SameLine) (VariableState.Alike rename SameLine)
      (first.next located) (second.next other) := by
  obtain ⟨line, item⟩ := located
  obtain ⟨otherLine, _⟩ := other
  obtain ⟨lines, rfl⟩ := instructions
  cases item with
  | compute computation => exact .accepted states
  | load operand =>
      cases operand with
      | literal value => exact .accepted states
      | written text => exact VariableState.use_agree renames states lines text

/-- A numeral has its value under any name, and it keeps its name. -/
theorem Instruction.evaluated_rename (body : Instruction) :
    (body.rename rename).evaluated = body.evaluated.rename rename := by
  cases body with
  | compute computation => rfl
  | load operand =>
      cases operand with
      | literal value => rfl
      | written text =>
          simp only [Instruction.rename, Operand.rename, Instruction.evaluated, Operand.evaluated,
            renames.isNumeral]
          by_cases numeral : Text.isNumeral text = true
          · simp only [numeral, ↓reduceIte, renames.numeral text numeral]
          · simp only [numeral, Bool.false_eq_true, ↓reduceIte]

theorem resolveVariables_agree {symbols otherSymbols : SymbolTable}
    (tables : symbols.Alike rename SameLine otherSymbols)
    {program other : List (Located Instruction)}
    (alike : List.Forall₂ (Located.Alike SameLine (Instruction.rename rename)) program other) :
    Agree (Fault.Alike rename SameLine)
      (fun first second => first.1.Alike rename SameLine second.1 ∧
        List.Forall₂ (Located.Alike SameLine (Instruction.rename rename)) first.2 second.2)
      (resolveVariables symbols program) (resolveVariables otherSymbols other) := by
  have started : VariableState.Alike rename SameLine ⟨symbols, firstVariable⟩
      ⟨otherSymbols, firstVariable⟩ := ⟨tables, rfl⟩
  have passed := Agree.foldlM (VariableState.next_agree renames) alike started
  have bound : Agree _ (SymbolTable.Alike rename SameLine) (symbols.bindVariables program)
      (otherSymbols.bindVariables other) :=
    passed.map VariableState.symbols VariableState.symbols fun _ _ states => states.symbols
  have evaluated : List.Forall₂ (Located.Alike SameLine (Instruction.rename rename))
      (evaluateNumerals program) (evaluateNumerals other) := by
    refine List.rel_map ?_ alike
    intro located otherLocated same
    refine ⟨same.line, ?_⟩
    simp only [same.item, Instruction.evaluated_rename renames]
  exact bound.map (fun symbols => (symbols, evaluateNumerals program))
    (fun symbols => (symbols, evaluateNumerals other)) fun _ _ tables => ⟨tables, evaluated⟩

omit renames in
theorem Word.load_agree (value : Nat) {oversized other : Oversized}
    (same : other = oversized.rename rename) {line otherLine : Nat}
    (lines : SameLine line otherLine) :
    Agree (Fault.Alike rename SameLine) Eq
      (Word.load value oversized line) (Word.load value other otherLine) := by
  subst same
  unfold Word.load
  by_cases fits : value ≤ addressMax
  · simp only [fits, ↓reduceIte]
    exact .accepted rfl
  · simp only [fits, ↓reduceIte]
    exact .rejected ⟨.addressOverflow oversized, lines⟩

theorem Operand.encode_agree {symbols otherSymbols : SymbolTable}
    (tables : symbols.Alike rename SameLine otherSymbols) {line otherLine : Nat}
    (lines : SameLine line otherLine) (operand : Operand) :
    Agree (Fault.Alike rename SameLine) Eq
      (operand.encode symbols line) ((operand.rename rename).encode otherSymbols otherLine) := by
  cases operand with
  | literal value =>
      refine Word.load_agree value ?_ lines
      rw [Oversized.rename, renames.numeral _ (Text.isNumeral_toString value)]
  | written name =>
      simp only [Operand.rename, Operand.encode, tables.value? renames.injective name]
      cases symbols.value? name with
      | none => exact .rejected ⟨.undefinedSymbol name, lines⟩
      | some value => exact Word.load_agree value rfl lines

end

/-- Computations use no names of symbols. -/
theorem Computation.encode_agree (dialect : Dialect) {line otherLine : Nat}
    (lines : SameLine line otherLine) (computation : Computation) :
    Agree (Fault.Alike rename SameLine) Eq
      (computation.encode dialect line) (computation.encode dialect otherLine) := by
  have resolved : ∀ field mnemonic, Agree (Fault.Alike rename SameLine)
      Eq (dialect.resolve line field mnemonic)
      (dialect.resolve otherLine field mnemonic) := by
    intro field mnemonic
    unfold Dialect.resolve
    cases dialect.pattern? field mnemonic with
    | some pattern => exact .accepted rfl
    | none => exact .rejected ⟨.unresolvedMnemonic field mnemonic, lines⟩
  have optional : ∀ field mnemonic, Agree (Fault.Alike rename SameLine)
      Eq (dialect.resolveOptional line field mnemonic)
      (dialect.resolveOptional otherLine field mnemonic) := by
    intro field mnemonic
    cases mnemonic with
    | none => exact .accepted rfl
    | some mnemonic => exact resolved field mnemonic
  unfold Computation.encode
  refine (resolved .comp _).bind fun comp _ sameComp => ?_
  refine (optional .dest _).bind fun dest _ sameDest => ?_
  refine (optional .jump _).bind fun jump _ sameJump => ?_
  subst sameComp sameDest sameJump
  exact .accepted rfl

theorem encode_agree {dialect : Dialect} (renames : IsRenaming dialect rename)
    {symbols otherSymbols : SymbolTable} (tables : symbols.Alike rename SameLine otherSymbols)
    (located other : Located Instruction)
    (same : located.Alike SameLine (Instruction.rename rename) other) :
    Agree (Fault.Alike rename SameLine) Eq (encode symbols dialect located)
      (encode otherSymbols dialect other) := by
  obtain ⟨line, item⟩ := located
  obtain ⟨otherLine, _⟩ := other
  obtain ⟨lines, rfl⟩ := same
  cases item with
  | load operand => exact Operand.encode_agree renames tables lines operand
  | compute computation => exact Computation.encode_agree dialect lines computation

theorem encodeAll_agree {dialect : Dialect} (renames : IsRenaming dialect rename)
    {symbols otherSymbols : SymbolTable} (tables : symbols.Alike rename SameLine otherSymbols)
    {program other : List (Located Instruction)}
    (alike : List.Forall₂ (Located.Alike SameLine (Instruction.rename rename)) program other) :
    Agree (Fault.Alike rename SameLine) Eq (encodeAll symbols dialect program)
      (encodeAll otherSymbols dialect other) := by
  have encoded := Agree.mapM (encode_agree renames tables) alike
  rwa [List.forall₂_eq_eq_eq] at encoded

/-- The predefined symbols keep their names and stand on no line. -/
theorem Dialect.symbolTable_alike {dialect : Dialect} (renames : IsRenaming dialect rename) :
    dialect.symbolTable.Alike rename SameLine dialect.symbolTable := by
  unfold SymbolTable.Alike
  rw [dialect.toList_symbolTable]
  refine List.forall₂_same.mpr fun entry member => ?_
  obtain ⟨⟨name, address⟩, predefined, rfl⟩ := List.mem_map.mp member
  exact ⟨(renames.predefined name address (OrderedMap.get?_eq_some_iff.mpr predefined)).symm,
    rfl, rfl, .none⟩

/-- Statements with other names on other lines are translated alike. -/
theorem translate_agree {dialect : Dialect} (renames : IsRenaming dialect rename)
    {statements others : List (Located Statement)}
    (alike : List.Forall₂ (Located.Alike SameLine (Statement.rename rename)) statements others) :
    Agree (Fault.Alike rename SameLine) (Program.Alike rename SameLine)
      (translate dialect statements) (translate dialect others) := by
  have labelled := resolveLabels_agree renames.injective (dialect.symbolTable_alike renames) alike
  refine labelled.bind ?_
  rintro ⟨labels, written⟩ ⟨otherLabels, otherWritten⟩ ⟨labelTables, writtenAlike⟩
  refine (resolveVariables_agree renames labelTables writtenAlike).bind ?_
  rintro ⟨symbols, evaluated⟩ ⟨otherSymbols, otherEvaluated⟩ ⟨tables, evaluatedAlike⟩
  exact (encodeAll_agree renames tables evaluatedAlike).map _ _ fun words otherWords same =>
    { instructions := evaluatedAlike, words := same, symbols := tables }

end HackAssembler
