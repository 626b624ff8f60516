import HackAssembler.Proofs.Outcomes
import HackAssembler.Proofs.Reading
import Mathlib.Data.List.TakeWhile

/-! # The grammar of statements

A statement is grammatical when its written form can be taken apart again: a load of some operand, a
label whose name has no parentheses, or a computation whose fields are free of the separators
(`Statement.IsGrammatical`). These are the statements that are read, from their written form and
from nothing else (`Statement.read_eq_ok_iff`).
-/

namespace HackAssembler

/-- A text can be written between separators if it is not empty and contains none of them. -/
structure IsField (separators : List Char) (text : String) : Prop where
  nonempty : text ≠ ""
  separate : ∀ c ∈ separators, c ∉ text.toList

/-- The fields of a computation can be told apart when it is written. A jump may contain `=`. -/
structure Computation.IsSeparable (computation : Computation) : Prop where
  dest : ∀ dest ∈ computation.dest, IsField ['=', ';'] dest
  comp : IsField ['=', ';'] computation.comp
  jump : ∀ jump ∈ computation.jump, IsField [';'] jump

/-- Code that is neither a load nor a label can only be a computation. -/
structure OpensComputation (code : List Char) : Prop where
  notLoad : code.head? ≠ some '@'
  notLabel : code.head? ≠ some '('

/-- The statements that code can say. -/
inductive Statement.IsGrammatical : Statement → Prop
  | load {operand : String} (nonempty : operand ≠ "") :
      IsGrammatical (.instruction (.load (.written operand)))
  | label {name : String} (field : IsField ['(', ')'] name) : IsGrammatical (.label name)
  | compute {computation : Computation} (separable : computation.IsSeparable)
      (opens : OpensComputation computation.code.toList) :
      IsGrammatical (.instruction (.compute computation))

/-! ### Splitting at a separator -/

section Split

variable {separator : Char} {code before : List Char}

theorem forall_ne_of_not_mem (apart : separator ∉ before) :
    ∀ c ∈ before, decide (c ≠ separator) = true :=
  fun _ member => decide_eq_true fun same => apart (same ▸ member)

theorem takeWhile_of_not_mem (apart : separator ∉ code) : code.takeWhile (· ≠ separator) = code :=
  List.takeWhile_eq_self_iff.mpr (forall_ne_of_not_mem apart)

theorem takeWhile_append_separator (apart : separator ∉ before) (after : List Char) :
    (before ++ separator :: after).takeWhile (· ≠ separator) = before := by
  rw [List.takeWhile_append_of_pos (forall_ne_of_not_mem apart),
    List.takeWhile_cons_of_neg (by simp), List.append_nil]

theorem splitFirst?_of_not_mem (apart : separator ∉ code) : splitFirst? separator code = none := by
  have none : code.dropWhile (· ≠ separator) = [] :=
    List.dropWhile_eq_nil_iff.mpr (forall_ne_of_not_mem apart)
  simp only [splitFirst?, none]

theorem splitFirst?_append (apart : separator ∉ before) (after : List Char) :
    splitFirst? separator (before ++ separator :: after) = some (before, after) := by
  have rest : (before ++ separator :: after).dropWhile (· ≠ separator) = separator :: after := by
    rw [List.dropWhile_append_of_pos (forall_ne_of_not_mem apart),
      List.dropWhile_cons_of_neg (by simp)]
  simp only [splitFirst?, rest, takeWhile_append_separator apart]

/-- Code has no separator, or there is a first one. -/
theorem not_mem_or_exists_append (separator : Char) (code : List Char) :
    separator ∉ code ∨
      ∃ before after, code = before ++ separator :: after ∧ separator ∉ before := by
  by_cases member : separator ∈ code
  · exact Or.inr (List.eq_append_cons_of_mem member)
  · exact Or.inl member

end Split

namespace Computation

theorem splitJump_of_not_mem {code : List Char} (apart : ';' ∉ code) :
    splitJump code = .ok (code, none) := by
  simp only [splitJump, splitFirst?_of_not_mem apart]

theorem splitJump_append {before : List Char} (apart : ';' ∉ before) (jump : List Char) :
    splitJump (before ++ ';' :: jump) =
      if ';' ∈ jump then .error .severalJumps
      else if jump = [] then .error .emptyJump
      else .ok (before, some jump) := by
  simp only [splitJump, splitFirst?_append apart]

theorem splitDest_of_not_mem {code : List Char} (apart : '=' ∉ code) :
    splitDest code = .ok (none, code) := by
  simp only [splitDest, splitFirst?_of_not_mem apart]

theorem splitDest_append {dest : List Char} (apart : '=' ∉ dest) (comp : List Char) :
    splitDest (dest ++ '=' :: comp) =
      if '=' ∈ comp then .error .severalDestinations
      else if dest = [] then .error .emptyDestination
      else .ok (some dest, comp) := by
  simp only [splitDest, splitFirst?_append apart]

theorem splitJump_eq_ok_iff {code before : List Char} {jump : Option (List Char)} :
    splitJump code = .ok (before, jump) ↔
      code = before ++ jump.elim [] (';' :: ·) ∧ ';' ∉ before ∧
        ∀ text ∈ jump, text ≠ [] ∧ ';' ∉ text := by
  constructor
  · intro split
    refine ⟨eq_of_splitJump split, ?_⟩
    rcases not_mem_or_exists_append ';' code with apart | ⟨front, back, rfl, apart⟩
    · rw [splitJump_of_not_mem apart] at split
      cases split
      exact ⟨apart, nofun⟩
    · rw [splitJump_append apart] at split
      split_ifs at split with several empty
      cases split
      exact ⟨apart, by simpa using ⟨empty, several⟩⟩
  · intro parts
    obtain ⟨rfl, apart, fields⟩ := parts
    cases jump with
    | none => rw [Option.elim_none, List.append_nil, splitJump_of_not_mem apart]
    | some text =>
        obtain ⟨present, single⟩ := fields text rfl
        rw [Option.elim_some, splitJump_append apart, if_neg single, if_neg present]

theorem splitDest_eq_ok_iff {code comp : List Char} {dest : Option (List Char)} :
    splitDest code = .ok (dest, comp) ↔
      code = dest.elim [] (· ++ ['=']) ++ comp ∧ '=' ∉ comp ∧
        ∀ text ∈ dest, text ≠ [] ∧ '=' ∉ text := by
  constructor
  · intro split
    refine ⟨eq_of_splitDest split, ?_⟩
    rcases not_mem_or_exists_append '=' code with apart | ⟨front, back, rfl, apart⟩
    · rw [splitDest_of_not_mem apart] at split
      cases split
      exact ⟨apart, nofun⟩
    · rw [splitDest_append apart] at split
      split_ifs at split with several empty
      cases split
      exact ⟨several, by simpa using ⟨empty, apart⟩⟩
  · intro parts
    obtain ⟨rfl, single, fields⟩ := parts
    cases dest with
    | none => rw [Option.elim_none, List.nil_append, splitDest_of_not_mem single]
    | some text =>
        obtain ⟨present, apart⟩ := fields text rfl
        rw [Option.elim_some, List.append_assoc, List.singleton_append, splitDest_append apart,
          if_neg single, if_neg present]

/-- Reading splits off the jump and then the destination, and what remains is computed. -/
theorem read_eq_of_splits (code : List Char) :
    Computation.read code =
      match splitJump code with
      | .error malformation => .error malformation
      | .ok (before, jump) =>
        match splitDest before with
        | .error malformation => .error malformation
        | .ok (dest, comp) =>
          if comp = [] then .error .missingComputation
          else .ok ⟨dest.map String.ofList, String.ofList comp, jump.map String.ofList⟩ := by
  unfold Computation.read
  cases splitJump code with
  | error malformation => rfl
  | ok jumpParts =>
      obtain ⟨before, jump⟩ := jumpParts
      cases destSplit : splitDest before with
      | error malformation => simp only [bind, Except.bind, destSplit]
      | ok destParts =>
          obtain ⟨dest, comp⟩ := destParts
          simp only [bind, Except.bind, destSplit]
          split <;> rfl

end Computation

/-! ### Fields -/

theorem isField_ofList_iff {separators part : List Char} :
    IsField separators (String.ofList part) ↔ part ≠ [] ∧ ∀ c ∈ separators, c ∉ part := by
  constructor
  · intro field
    refine ⟨fun empty => field.nonempty (congrArg String.ofList empty), fun c member => ?_⟩
    exact String.toList_ofList (l := part) ▸ field.separate c member
  · intro separate
    refine ⟨fun empty => separate.1 (by simpa using congrArg String.toList empty), ?_⟩
    rw [String.toList_ofList]
    exact separate.2

theorem IsField.of_mem_map_ofList {separators : List Char} {field : Option (List Char)}
    (parts : ∀ part ∈ field, part ≠ [] ∧ ∀ c ∈ separators, c ∉ part) :
    ∀ text ∈ field.map String.ofList, IsField separators text := by
  intro text member
  obtain ⟨part, given, rfl⟩ := Option.map_eq_some_iff.mp member
  exact isField_ofList_iff.mpr (parts part given)

theorem IsField.of_mem_map_toList {separators : List Char} {field : Option String}
    (fields : ∀ text ∈ field, IsField separators text) :
    ∀ part ∈ field.map String.toList, part ≠ [] ∧ ∀ c ∈ separators, c ∉ part := by
  intro part member
  obtain ⟨text, given, rfl⟩ := Option.map_eq_some_iff.mp member
  rw [← isField_ofList_iff, String.ofList_toList]
  exact fields text given

namespace Computation

theorem toList_code (computation : Computation) :
    computation.code.toList =
      (computation.dest.map String.toList).elim [] (· ++ ['=']) ++ computation.comp.toList ++
        (computation.jump.map String.toList).elim [] (';' :: ·) := by
  obtain ⟨dest, comp, jump⟩ := computation
  cases dest <;> cases jump <;> simp [Computation.code]

theorem isSeparable_of_splits {before comp : List Char} {dest jump : Option (List Char)}
    {code : List Char} (jumpSplit : splitJump code = .ok (before, jump))
    (destSplit : splitDest before = .ok (dest, comp)) (present : comp ≠ []) :
    IsSeparable ⟨dest.map String.ofList, String.ofList comp, jump.map String.ofList⟩ := by
  obtain ⟨-, apart, jumps⟩ := splitJump_eq_ok_iff.mp jumpSplit
  obtain ⟨rfl, single, dests⟩ := splitDest_eq_ok_iff.mp destSplit
  rw [List.mem_append, not_or] at apart
  refine ⟨IsField.of_mem_map_ofList fun part given => ?_, ?_,
    IsField.of_mem_map_ofList fun part given => ?_⟩
  · cases given
    have notSemicolon : ';' ∉ part := fun inside => apart.1 (List.mem_append_left _ inside)
    exact ⟨(dests part rfl).1, by simpa using ⟨(dests part rfl).2, notSemicolon⟩⟩
  · exact isField_ofList_iff.mpr ⟨present, by simpa using ⟨single, apart.2⟩⟩
  · exact ⟨(jumps part given).1, by simpa using (jumps part given).2⟩

theorem read_code {computation : Computation} (separable : computation.IsSeparable) :
    Computation.read computation.code.toList = .ok computation := by
  obtain ⟨dests, comp, jumps⟩ := separable
  have presentComp : computation.comp.toList ≠ [] := by simpa using comp.nonempty
  have separateComp : '=' ∉ computation.comp.toList ∧ ';' ∉ computation.comp.toList := by
    simpa using comp.separate
  have partOfDest : ∀ part ∈ computation.dest.map String.toList,
      part ≠ [] ∧ '=' ∉ part ∧ ';' ∉ part := by simpa using IsField.of_mem_map_toList dests
  have partOfJump : ∀ part ∈ computation.jump.map String.toList, part ≠ [] ∧ ';' ∉ part := by
    simpa using IsField.of_mem_map_toList jumps
  have apart : ';' ∉ (computation.dest.map String.toList).elim [] (· ++ ['=']) ++
      computation.comp.toList := by
    rw [List.mem_append, not_or]
    refine ⟨?_, separateComp.2⟩
    cases given : computation.dest.map String.toList with
    | none => exact List.not_mem_nil
    | some part => simpa using (partOfDest part given).2.2
  have jumpSplit := splitJump_eq_ok_iff.mpr ⟨toList_code computation, apart, partOfJump⟩
  have destSplit := splitDest_eq_ok_iff.mpr ⟨rfl, separateComp.1, fun part given =>
    ⟨(partOfDest part given).1, (partOfDest part given).2.1⟩⟩
  rw [read_eq_of_splits, jumpSplit]
  simp only [destSplit, presentComp, ↓reduceIte, Option.map_map, Function.comp_def,
    String.ofList_toList, Option.map_id']

/-- The computations that are read are those whose fields can be told apart. -/
theorem read_eq_ok_iff {code : List Char} {computation : Computation} :
    Computation.read code = .ok computation ↔
      computation.IsSeparable ∧ computation.code.toList = code := by
  constructor
  · intro read
    refine ⟨?_, code_of_read read⟩
    rw [read_eq_of_splits] at read
    split at read
    · cases read
    · next before jump jumpSplit =>
        split at read
        · cases read
        · next dest comp destSplit =>
            split_ifs at read with missing
            cases read
            exact isSeparable_of_splits jumpSplit destSplit missing
  · intro written
    obtain ⟨separable, rfl⟩ := written
    exact read_code separable

end Computation

/-! ### Statements -/

namespace Statement

theorem readLabel_eq_ok_iff {rest : List Char} {name : String} :
    readLabel rest = .ok name ↔ IsField ['(', ')'] name ∧ rest = name.toList ++ [')'] := by
  constructor
  · intro read
    refine ⟨?_, (toList_of_readLabel read).symm⟩
    unfold readLabel at read
    split_ifs at read with unclosed empty inside
    cases read
    exact isField_ofList_iff.mpr ⟨empty, by simpa using inside⟩
  · intro label
    obtain ⟨field, rfl⟩ := label
    have present : name.toList ≠ [] := by simpa using field.nonempty
    have separate : ¬ ('(' ∈ name.toList ∨ ')' ∈ name.toList) := by simpa using field.separate
    simp only [readLabel, List.getLast?_concat, List.dropLast_concat, ne_eq, not_true_eq_false,
      ↓reduceIte, present, separate, String.ofList_toList]

theorem code_cases (code : List Char) :
    (∃ operand, code = '@' :: operand) ∨ (∃ rest, code = '(' :: rest) ∨ OpensComputation code := by
  by_cases load : code.head? = some '@'
  · exact Or.inl (List.head?_eq_some_iff.mp load)
  · by_cases label : code.head? = some '('
    · exact Or.inr (Or.inl (List.head?_eq_some_iff.mp label))
    · exact Or.inr (Or.inr ⟨load, label⟩)

section Read

variable {code : String}

theorem read_of_load {operand : List Char} (spelled : code.toList = '@' :: operand) :
    Statement.read code =
      if operand = [] then .error .missingOperand
      else .ok (.instruction (.load (.written (String.ofList operand)))) := by
  simp only [Statement.read, spelled]

theorem read_of_label {rest : List Char} (spelled : code.toList = '(' :: rest) :
    Statement.read code = (readLabel rest).map .label := by
  simp only [Statement.read, spelled]

theorem read_of_computation (opens : OpensComputation code.toList) :
    Statement.read code = (Computation.read code.toList).map fun computation =>
      .instruction (.compute computation) := by
  unfold Statement.read
  split
  · next operand spelled => exact absurd (congrArg List.head? spelled) opens.notLoad
  · next rest spelled => exact absurd (congrArg List.head? spelled) opens.notLabel
  · rfl

theorem isGrammatical_of_read {statement : Statement}
    (read : Statement.read code = .ok statement) : statement.IsGrammatical := by
  have written := code_of_read read
  rcases code_cases code.toList with ⟨operand, spelled⟩ | ⟨rest, spelled⟩ | opens
  · rw [read_of_load spelled] at read
    split_ifs at read with empty
    cases read
    exact .load (by simpa using empty)
  · rw [read_of_label spelled] at read
    obtain ⟨name, label, rfl⟩ := map_eq_ok_iff.mp read
    exact .label (readLabel_eq_ok_iff.mp label).1
  · rw [read_of_computation opens] at read
    obtain ⟨computation, computed, rfl⟩ := map_eq_ok_iff.mp read
    refine .compute (Computation.read_eq_ok_iff.mp computed).1 ?_
    exact congrArg String.toList written ▸ opens

end Read

theorem IsGrammatical.read_code {statement : Statement} (grammatical : statement.IsGrammatical) :
    Statement.read statement.code = .ok statement := by
  cases grammatical with
  | load nonempty => exact read_load_iff.mpr ⟨_, rfl, nonempty, rfl⟩
  | @label name field =>
      have spelled : (Statement.label name).code.toList = '(' :: (name.toList ++ [')']) := by
        simp [Statement.code]
      rw [read_of_label spelled, readLabel_eq_ok_iff.mpr ⟨field, rfl⟩]
      rfl
  | @compute computation separable opens =>
      have split : Statement.read computation.code = _ := read_of_computation opens
      rw [Computation.read_code separable] at split
      exact split

/-- The statements that are read are the grammatical ones, from their written form. -/
theorem read_eq_ok_iff {code : String} {statement : Statement} :
    Statement.read code = .ok statement ↔ statement.IsGrammatical ∧ statement.code = code := by
  constructor
  · exact fun read => ⟨isGrammatical_of_read read, code_of_read read⟩
  · intro written
    obtain ⟨grammatical, rfl⟩ := written
    exact grammatical.read_code

end Statement

end HackAssembler
