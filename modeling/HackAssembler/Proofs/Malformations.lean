import HackAssembler.Proofs.Grammar

/-! # Malformed code

Code that is not grammatical has one or more malformations, each of which is said of the code alone
(`Malformation.Applies`). They are ranked, and reading reports the first that applies. So reading
decides the grammar, with the reason for what it rejects (`Statement.read_decides_grammar`).
-/

namespace HackAssembler

namespace Malformation

/-- The code of a computation up to its jump. -/
def beforeJump (code : List Char) : List Char :=
  code.takeWhile (· ≠ ';')

/-- What is wrong with code, whatever else is wrong with it. -/
def Applies (code : List Char) : Malformation → Prop
  | missingOperand => code = ['@']
  | unclosedLabel => code.head? = some '(' ∧ code.tail.getLast? ≠ some ')'
  | emptyLabel => code = ['(', ')']
  | parenthesisInLabel => ∃ name, code = '(' :: (name ++ [')']) ∧ ('(' ∈ name ∨ ')' ∈ name)
  | severalJumps => OpensComputation code ∧ 2 ≤ code.count ';'
  | emptyJump => OpensComputation code ∧ code.getLast? = some ';'
  | severalDestinations => OpensComputation code ∧ 2 ≤ (beforeJump code).count '='
  | emptyDestination => OpensComputation code ∧ (beforeJump code).head? = some '='
  | missingComputation => OpensComputation code ∧
      (beforeJump code = [] ∨ (beforeJump code).getLast? = some '=')

/-- The order in which malformations are reported. -/
def rank : Malformation → Nat
  | missingOperand => 0
  | unclosedLabel => 1
  | emptyLabel => 2
  | parenthesisInLabel => 3
  | severalJumps => 4
  | emptyJump => 5
  | severalDestinations => 6
  | emptyDestination => 7
  | missingComputation => 8

/-- No malformation of lower rank applies to some code. -/
def NoneBefore (code : List Char) (malformation : Malformation) : Prop :=
  ∀ other : Malformation, other.Applies code → malformation.rank ≤ other.rank

/-- A malformation is the first of those that apply to some code. -/
structure IsFirst (code : List Char) (malformation : Malformation) : Prop where
  applies : malformation.Applies code
  first : NoneBefore code malformation

variable {code : List Char} {malformation : Malformation}

theorem rank_injective {other : Malformation} (same : malformation.rank = other.rank) :
    malformation = other := by
  cases malformation <;> cases other <;> first | rfl | cases same

theorem IsFirst.unique {other : Malformation} (first : malformation.IsFirst code)
    (otherFirst : other.IsFirst code) : malformation = other :=
  rank_injective (Nat.le_antisymm (first.first other otherFirst.applies)
    (otherFirst.first malformation first.applies))

theorem NoneBefore.next {next : Malformation} (none : NoneBefore code malformation)
    (unfit : ¬ malformation.Applies code) (successor : next.rank = malformation.rank + 1) :
    NoneBefore code next := by
  intro other applies
  rw [successor]
  exact Nat.lt_of_le_of_ne (none other applies) fun same => unfit (rank_injective same ▸ applies)

/-- Nothing applies if neither the last malformation nor any before it does. -/
theorem NoneBefore.not_applies (none : NoneBefore code missingComputation)
    (unfit : ¬ missingComputation.Applies code) : ¬ malformation.Applies code := by
  intro applies
  have last := none malformation applies
  have isLast : malformation = missingComputation := by
    cases malformation <;> first | rfl | exact absurd last (by decide)
  exact unfit (isLast ▸ applies)

theorem noneBefore_missingOperand (code : List Char) : NoneBefore code missingOperand :=
  fun other _ => Nat.zero_le other.rank

theorem noneBefore_unclosedLabel (rest : List Char) : NoneBefore ('(' :: rest) unclosedLabel :=
  (noneBefore_missingOperand _).next (fun load => absurd (List.head_eq_of_cons_eq load) (by decide))
    rfl

/-- Only malformations of computations apply to a computation. -/
theorem noneBefore_severalJumps (opens : OpensComputation code) :
    NoneBefore code severalJumps := by
  intro other applies
  cases other with
  | missingOperand => exact absurd (congrArg List.head? applies) opens.notLoad
  | unclosedLabel => exact absurd applies.1 opens.notLabel
  | emptyLabel => exact absurd (congrArg List.head? applies) opens.notLabel
  | parenthesisInLabel =>
      obtain ⟨name, rfl, _⟩ := applies
      exact absurd rfl opens.notLabel
  | _ => decide

end Malformation

/-! ### Computations -/

theorem count_append_separator {separator : Char} {before : List Char}
    (apart : separator ∉ before) (after : List Char) :
    (before ++ separator :: after).count separator = after.count separator + 1 := by
  rw [List.count_append, List.count_eq_zero.mpr apart, List.count_cons_self, Nat.zero_add]

theorem mem_of_getLast?_append {before after : List Char} {c : Char} (present : after ≠ [])
    (last : (before ++ after).getLast? = some c) : c ∈ after := by
  rw [List.getLast?_append, List.getLast?_eq_some_getLast present, Option.some_or,
    Option.some.injEq] at last
  exact last ▸ List.getLast_mem present

namespace Computation

open Malformation

variable {code before : List Char} {jump : Option (List Char)} {malformation : Malformation}

theorem isFirst_of_splitJump (opens : OpensComputation code)
    (split : splitJump code = .error malformation) : malformation.IsFirst code := by
  have none := noneBefore_severalJumps opens
  rcases not_mem_or_exists_append ';' code with apart | ⟨before, jump, rfl, apart⟩
  · rw [splitJump_of_not_mem apart] at split
    cases split
  · rw [splitJump_append apart] at split
    split_ifs at split with several empty
    · cases split
      have more : 0 < jump.count ';' := List.count_pos_iff.mpr several
      refine ⟨⟨opens, ?_⟩, none⟩
      rw [count_append_separator apart]
      omega
    · cases split
      subst empty
      refine ⟨⟨opens, List.getLast?_concat⟩, none.next (fun many => ?_) rfl⟩
      have counted := many.2
      rw [count_append_separator apart, List.count_nil] at counted
      omega

theorem beforeJump_of_splitJump (split : splitJump code = .ok (before, jump)) :
    beforeJump code = before := by
  obtain ⟨rfl, apart, _⟩ := splitJump_eq_ok_iff.mp split
  cases jump with
  | none => rw [Option.elim_none, List.append_nil, beforeJump, takeWhile_of_not_mem apart]
  | some text => exact takeWhile_append_separator apart text

/-- Nothing is wrong with a jump that can be split off. -/
theorem noneBefore_of_splitJump (opens : OpensComputation code)
    (split : splitJump code = .ok (before, jump)) : NoneBefore code severalDestinations := by
  obtain ⟨whole, apart, fields⟩ := splitJump_eq_ok_iff.mp split
  have pastSeveral : NoneBefore code emptyJump := by
    refine (noneBefore_severalJumps opens).next (fun several => ?_) rfl
    have counted := several.2
    rw [whole] at counted
    cases jump with
    | none =>
        rw [Option.elim_none, List.append_nil, List.count_eq_zero.mpr apart] at counted
        omega
    | some text =>
        rw [Option.elim_some, count_append_separator apart,
          List.count_eq_zero.mpr (fields text rfl).2] at counted
        omega
  refine pastSeveral.next (fun empty => ?_) rfl
  have last := empty.2
  rw [whole] at last
  cases jump with
  | none =>
      rw [Option.elim_none, List.append_nil] at last
      exact apart (List.mem_of_getLast? last)
  | some text =>
      obtain ⟨present, single⟩ := fields text rfl
      rw [Option.elim_some, List.append_cons] at last
      exact single (mem_of_getLast?_append present last)

theorem isFirst_of_splitDest (opens : OpensComputation code)
    (jumpSplit : splitJump code = .ok (before, jump))
    (split : splitDest before = .error malformation) : malformation.IsFirst code := by
  have front := beforeJump_of_splitJump jumpSplit
  have none := noneBefore_of_splitJump opens jumpSplit
  rcases not_mem_or_exists_append '=' before with apart | ⟨dest, comp, rfl, apart⟩
  · rw [splitDest_of_not_mem apart] at split
    cases split
  · rw [splitDest_append apart] at split
    split_ifs at split with several empty
    · cases split
      have more : 0 < comp.count '=' := List.count_pos_iff.mpr several
      refine ⟨⟨opens, ?_⟩, none⟩
      rw [front, count_append_separator apart]
      omega
    · cases split
      subst empty
      refine ⟨⟨opens, front ▸ rfl⟩, none.next (fun many => ?_) rfl⟩
      have counted := many.2
      rw [front, count_append_separator apart, List.count_eq_zero.mpr several] at counted
      omega

/-- Nothing is wrong with a destination that can be split off. -/
theorem noneBefore_of_splitDest {dest : Option (List Char)} {comp : List Char}
    (opens : OpensComputation code) (jumpSplit : splitJump code = .ok (before, jump))
    (split : splitDest before = .ok (dest, comp)) : NoneBefore code missingComputation := by
  have front := beforeJump_of_splitJump jumpSplit
  obtain ⟨rfl, single, fields⟩ := splitDest_eq_ok_iff.mp split
  have pastSeveral : NoneBefore code emptyDestination := by
    refine (noneBefore_of_splitJump opens jumpSplit).next (fun several => ?_) rfl
    have counted := several.2
    rw [front] at counted
    cases dest with
    | none =>
        rw [Option.elim_none, List.nil_append, List.count_eq_zero.mpr single] at counted
        omega
    | some text =>
        rw [Option.elim_some, List.append_assoc, List.singleton_append,
          count_append_separator (fields text rfl).2, List.count_eq_zero.mpr single] at counted
        omega
  refine pastSeveral.next (fun empty => ?_) rfl
  have head := empty.2
  rw [front] at head
  cases dest with
  | none => exact single (List.mem_of_head? head)
  | some text =>
      obtain ⟨present, apart⟩ := fields text rfl
      obtain ⟨first, rest, rfl⟩ := List.exists_cons_of_ne_nil present
      cases head
      exact apart List.mem_cons_self

/-- Nothing remains to be computed exactly if the code up to the jump is empty or ends with its
destination. -/
theorem missingComputation_applies_iff {dest : Option (List Char)} {comp : List Char}
    (opens : OpensComputation code) (jumpSplit : splitJump code = .ok (before, jump))
    (split : splitDest before = .ok (dest, comp)) :
    missingComputation.Applies code ↔ comp = [] := by
  have front := beforeJump_of_splitJump jumpSplit
  obtain ⟨rfl, single, -⟩ := splitDest_eq_ok_iff.mp split
  constructor
  · intro missing
    by_contra present
    rcases missing.2 with empty | ends
    · rw [front, List.append_eq_nil_iff] at empty
      exact present empty.2
    · rw [front] at ends
      exact single (mem_of_getLast?_append present ends)
  · rintro rfl
    refine ⟨opens, ?_⟩
    rw [front, List.append_nil]
    cases dest with
    | none => exact Or.inl rfl
    | some text => exact Or.inr List.getLast?_concat

/-- A computation is rejected for the first malformation that applies to it. -/
theorem isFirst_of_read (opens : OpensComputation code)
    (read : Computation.read code = .error malformation) : malformation.IsFirst code := by
  rw [read_eq_of_splits] at read
  split at read
  · next _ jumpSplit =>
      cases read
      exact isFirst_of_splitJump opens jumpSplit
  · next before jump jumpSplit =>
      split at read
      · next _ destSplit =>
          cases read
          exact isFirst_of_splitDest opens jumpSplit destSplit
      · next dest comp destSplit =>
          split_ifs at read with missing
          cases read
          exact ⟨(missingComputation_applies_iff opens jumpSplit destSplit).mpr missing,
            noneBefore_of_splitDest opens jumpSplit destSplit⟩

/-- No malformation applies to a computation that is read. -/
theorem not_applies_of_read {computation : Computation} (opens : OpensComputation code)
    (read : Computation.read code = .ok computation) : ¬ malformation.Applies code := by
  rw [read_eq_of_splits] at read
  split at read
  · cases read
  · next before jump jumpSplit =>
      split at read
      · cases read
      · next dest comp destSplit =>
          split_ifs at read with missing
          have complete := (missingComputation_applies_iff opens jumpSplit destSplit).not
          exact (noneBefore_of_splitDest opens jumpSplit destSplit).not_applies
            (complete.mpr missing)

end Computation

namespace Statement

open Malformation

variable {malformation : Malformation}

/-! ### Loads and labels -/

theorem not_applies_of_operand {operand : List Char} (present : operand ≠ []) :
    ¬ malformation.Applies ('@' :: operand) := by
  have notLabel : '@' ≠ '(' := by decide
  intro applies
  cases malformation with
  | missingOperand => exact present (List.tail_eq_of_cons_eq applies)
  | unclosedLabel => exact notLabel (Option.some.inj applies.1)
  | emptyLabel => exact notLabel (List.head_eq_of_cons_eq applies)
  | parenthesisInLabel =>
      obtain ⟨name, same, _⟩ := applies
      exact notLabel (List.head_eq_of_cons_eq same)
  | _ => exact applies.1.notLoad rfl

/-- A label is rejected for the first malformation that applies to it. -/
theorem isFirst_of_readLabel {rest : List Char} (read : readLabel rest = .error malformation) :
    malformation.IsFirst ('(' :: rest) := by
  have none := noneBefore_unclosedLabel rest
  unfold readLabel at read
  split_ifs at read with unclosed empty inside
  · cases read
    exact ⟨⟨rfl, unclosed⟩, none⟩
  · cases read
    obtain ⟨name, rfl⟩ := List.getLast?_eq_some_iff.mp (Decidable.not_not.mp unclosed)
    rw [List.dropLast_concat] at empty
    subst empty
    exact ⟨rfl, none.next (fun open' => unclosed open'.2) rfl⟩
  · cases read
    obtain ⟨name, rfl⟩ := List.getLast?_eq_some_iff.mp (Decidable.not_not.mp unclosed)
    rw [List.dropLast_concat] at empty inside
    have notUnclosed : ¬ unclosedLabel.Applies ('(' :: (name ++ [')'])) :=
      fun applies => unclosed applies.2
    have notEmpty : ¬ emptyLabel.Applies ('(' :: (name ++ [')'])) := by
      intro applies
      have alone : name ++ [')'] = [] ++ [')'] := List.tail_eq_of_cons_eq applies
      exact empty (List.append_cancel_right alone)
    exact ⟨⟨name, rfl, inside⟩, (none.next notUnclosed rfl).next notEmpty rfl⟩

/-- No malformation applies to a label that is read. -/
theorem not_applies_of_readLabel {rest : List Char} {name : String}
    (read : readLabel rest = .ok name) : ¬ malformation.Applies ('(' :: rest) := by
  obtain ⟨field, rfl⟩ := readLabel_eq_ok_iff.mp read
  have separate : ¬ ('(' ∈ name.toList ∨ ')' ∈ name.toList) := by simpa using field.separate
  intro applies
  cases malformation with
  | missingOperand => cases applies
  | unclosedLabel => exact applies.2 List.getLast?_concat
  | emptyLabel =>
      have alone : name.toList ++ [')'] = [] ++ [')'] := List.tail_eq_of_cons_eq applies
      exact field.nonempty (by simpa using List.append_cancel_right alone)
  | parenthesisInLabel =>
      obtain ⟨other, same, inside⟩ := applies
      have names := List.append_cancel_right (List.tail_eq_of_cons_eq same)
      exact separate (names ▸ inside)
  | _ => exact applies.1.notLabel rfl

/-! ### Statements -/

theorem isFirst_of_read {code : String} (read : Statement.read code = .error malformation) :
    malformation.IsFirst code.toList := by
  rcases code_cases code.toList with ⟨operand, spelled⟩ | ⟨rest, spelled⟩ | opens
  · rw [read_of_load spelled] at read
    split_ifs at read with empty
    cases read
    rw [spelled, empty]
    exact ⟨rfl, noneBefore_missingOperand _⟩
  · rw [read_of_label spelled, map_eq_error_iff] at read
    exact spelled ▸ isFirst_of_readLabel read
  · rw [read_of_computation opens, map_eq_error_iff] at read
    exact Computation.isFirst_of_read opens read

theorem not_applies_of_read {code : String} {statement : Statement}
    (read : Statement.read code = .ok statement) : ¬ malformation.Applies code.toList := by
  rcases code_cases code.toList with ⟨operand, spelled⟩ | ⟨rest, spelled⟩ | opens
  · rw [read_of_load spelled] at read
    split_ifs at read with empty
    exact spelled ▸ not_applies_of_operand empty
  · rw [read_of_label spelled] at read
    obtain ⟨name, label, _⟩ := map_eq_ok_iff.mp read
    exact spelled ▸ not_applies_of_readLabel label
  · rw [read_of_computation opens] at read
    obtain ⟨computation, computed, _⟩ := map_eq_ok_iff.mp read
    exact Computation.not_applies_of_read opens computed

/-- **Reading decides the grammar.** Code is read exactly when it is the written form of a
grammatical statement, which is then the only one with this written form. Other code is rejected
for the first malformation that applies to it. -/
theorem read_decides_grammar (code : String) :
    (∀ statement, Statement.read code = .ok statement ↔
      statement.IsGrammatical ∧ statement.code = code) ∧
    ((∃ statement, Statement.read code = .ok statement) ↔
      ∃! statement : Statement, statement.IsGrammatical ∧ statement.code = code) ∧
    ∀ malformation, Statement.read code = .error malformation ↔
      malformation.IsFirst code.toList := by
  refine ⟨fun statement => read_eq_ok_iff, ?_, fun malformation => ⟨isFirst_of_read, ?_⟩⟩
  · simp only [← read_eq_ok_iff]
    constructor
    · intro accepted
      obtain ⟨statement, read⟩ := accepted
      exact ⟨statement, read, fun other again => Except.ok.inj (again.symm.trans read)⟩
    · exact ExistsUnique.exists
  · intro first
    cases outcome : Statement.read code with
    | ok statement => exact absurd first.applies (not_applies_of_read outcome)
    | error other => rw [first.unique (isFirst_of_read outcome)]

example : Statement.read "M=D;J=" =
    .ok (.instruction (.compute ⟨some "M", "D", some "J="⟩)) := by decide

example : Statement.read "=;" = .error .emptyJump := by decide

end Statement

end HackAssembler
