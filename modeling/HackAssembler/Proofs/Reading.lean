import HackAssembler.Statement.Reading

/-! # Statements and their code

Reading drops nothing from the code of a statement: what is read is written out as the code that it
was read from (`Statement.code_of_read`).
-/

namespace HackAssembler

theorem eq_append_of_splitFirst? {separator : Char} {code before after : List Char}
    (split : splitFirst? separator code = some (before, after)) :
    code = before ++ separator :: after := by
  unfold splitFirst? at split
  split at split
  · cases split
  · next head tail rest =>
      cases split
      have stopped := List.head?_dropWhile_not (· ≠ separator) code
      have whole := List.takeWhile_append_dropWhile (p := (· ≠ separator)) (l := code)
      rw [rest] at stopped whole
      have atSeparator : head = separator := by simpa using stopped
      subst atSeparator
      exact whole.symm

namespace Computation

theorem eq_of_splitJump {code before : List Char} {jump : Option (List Char)}
    (split : splitJump code = .ok (before, jump)) :
    code = before ++ jump.elim [] (';' :: ·) := by
  unfold splitJump at split
  cases outcome : splitFirst? ';' code with
  | none =>
      simp only [outcome, Except.ok.injEq, Prod.mk.injEq] at split
      obtain ⟨rfl, rfl⟩ := split
      exact (List.append_nil code).symm
  | some pair =>
      obtain ⟨front, back⟩ := pair
      simp only [outcome] at split
      split at split
      · cases split
      · split at split
        · cases split
        · cases split
          exact eq_append_of_splitFirst? outcome

theorem eq_of_splitDest {code comp : List Char} {dest : Option (List Char)}
    (split : splitDest code = .ok (dest, comp)) :
    code = dest.elim [] (· ++ ['=']) ++ comp := by
  unfold splitDest at split
  cases outcome : splitFirst? '=' code with
  | none =>
      simp only [outcome, Except.ok.injEq, Prod.mk.injEq] at split
      obtain ⟨rfl, rfl⟩ := split
      rfl
  | some pair =>
      obtain ⟨front, back⟩ := pair
      simp only [outcome] at split
      split at split
      · cases split
      · split at split
        · cases split
        · cases split
          have whole := eq_append_of_splitFirst? outcome
          rw [whole, Option.elim_some, List.append_assoc, List.singleton_append]

theorem code_of_read {code : List Char} {computation : Computation}
    (read : Computation.read code = .ok computation) : computation.code.toList = code := by
  unfold Computation.read at read
  cases jumpSplit : splitJump code with
  | error malformation => simp [jumpSplit, bind, Except.bind] at read
  | ok jumpParts =>
      obtain ⟨before, jump⟩ := jumpParts
      cases destSplit : splitDest before with
      | error malformation => simp [jumpSplit, destSplit, bind, Except.bind] at read
      | ok destParts =>
          obtain ⟨dest, comp⟩ := destParts
          simp only [jumpSplit, destSplit, bind, Except.bind] at read
          split at read
          · cases read
          · cases read
            rw [eq_of_splitJump jumpSplit, eq_of_splitDest destSplit]
            unfold Computation.code
            cases dest with
            | none => cases jump <;> simp
            | some dest => cases jump <;> simp

end Computation

namespace Statement

theorem toList_of_readLabel {code : List Char} {name : String}
    (read : readLabel code = .ok name) : name.toList ++ [')'] = code := by
  unfold readLabel at read
  split at read
  · cases read
  · next closed =>
      split at read
      · cases read
      · split at read
        · cases read
        · cases read
          rw [String.toList_ofList]
          obtain ⟨before, rfl⟩ := List.getLast?_eq_some_iff.mp (Decidable.not_not.mp closed)
          rw [List.dropLast_concat]

/-- A load is read from an operand behind `@`, which is kept as it is written. -/
theorem read_load_iff {code : String} {operand : Operand} :
    Statement.read code = .ok (.instruction (.load operand)) ↔
      ∃ text, operand = .written text ∧ text ≠ "" ∧ code = "@" ++ text := by
  constructor
  · intro read
    unfold Statement.read at read
    split at read
    · next rest spelled =>
        split at read
        · cases read
        · next nonempty =>
            cases read
            refine ⟨_, rfl, ?_, ?_⟩
            · exact fun empty => nonempty (by simpa using congrArg String.toList empty)
            · apply String.toList_injective
              simp [spelled]
    · next rest spelled =>
        cases label : readLabel rest with
        | error malformation => simp [label, Except.map] at read
        | ok name => simp [label, Except.map] at read
    · cases computed : Computation.read code.toList with
      | error malformation => simp [computed, Except.map] at read
      | ok computation => simp [computed, Except.map] at read
  · intro written
    obtain ⟨text, rfl, nonempty, rfl⟩ := written
    have spelled : ("@" ++ text).toList = '@' :: text.toList := by simp
    unfold Statement.read
    rw [spelled]
    have present : text.toList ≠ [] := fun empty => nonempty (String.toList_injective empty)
    simp only [present, ↓reduceIte, String.ofList_toList]

/-- What is read between parentheses is the label of that name. -/
theorem eq_label_of_read {name : String} {statement : Statement}
    (read : Statement.read ("(" ++ name ++ ")") = .ok statement) : statement = .label name := by
  have spelled : ("(" ++ name ++ ")").toList = '(' :: (name.toList ++ [')']) := by simp
  unfold Statement.read at read
  simp only [spelled] at read
  cases label : readLabel (name.toList ++ [')']) with
  | error malformation => simp [label, Except.map] at read
  | ok other =>
      simp only [label, Except.map, Except.ok.injEq] at read
      have same : other = name :=
        String.toList_injective (List.append_inj_left' (toList_of_readLabel label) rfl)
      rw [← read, same]

/-- What is read is written out as the code it was read from. -/
theorem code_of_read {code : String} {statement : Statement}
    (read : Statement.read code = .ok statement) : statement.code = code := by
  apply String.toList_injective
  unfold Statement.read at read
  split at read
  · next operand spelled =>
      split at read
      · cases read
      · cases read
        simp [Statement.code, Instruction.code, Operand.text, spelled]
  · next rest spelled =>
      cases label : readLabel rest with
      | error malformation => simp [label, Except.map] at read
      | ok name =>
          simp only [label, Except.map, Except.ok.injEq] at read
          subst read
          have closed := toList_of_readLabel label
          simp [Statement.code, spelled, ← closed]
  · cases computed : Computation.read code.toList with
    | error malformation => simp [computed, Except.map] at read
    | ok computation =>
        simp only [computed, Except.map, Except.ok.injEq] at read
        subst read
        exact Computation.code_of_read computed

end Statement

end HackAssembler
