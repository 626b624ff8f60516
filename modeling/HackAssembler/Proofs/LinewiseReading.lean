import HackAssembler.Proofs.Extension
import HackAssembler.Proofs.Outcomes

/-! # Reading line by line

What is read from a source is read from each of its lines that has code, and the first line that is
no statement is the fault (`Source.statements_ok_iff`, `Source.statements_error_iff`). Hence sources
in a row are read one after the other, the second with its lines moved down
(`Source.statements_append_line`), and carriage returns before line feeds make no difference
(`Source.codeLines_withReturns`). `Source.statements_linewise` puts this together.
-/

namespace HackAssembler

/-- A fault on a line that is farther down by a distance. -/
def Fault.moveBy (distance : Nat) (fault : Fault) : Fault :=
  { fault with line := fault.line + distance }

namespace Text

/-- A text with a carriage return before each line feed, where there is none yet. The flag says
whether a carriage return stands before the text. -/
def insertReturns (returned : Bool) : List Char → List Char
  | [] => []
  | c :: rest =>
      if c = '\n' ∧ returned = false then '\r' :: '\n' :: insertReturns false rest
      else c :: insertReturns (c == '\r') rest

def withReturns (text : String) : String :=
  String.ofList (insertReturns false text.toList)

example : withReturns "a\nb\r\n\r\r\n\n" = "a\r\nb\r\n\r\r\n\r\n" := by decide

theorem length_splitOn (separator : Char) (text : List Char) :
    (text.splitOn separator).length = text.count separator + 1 := by
  induction text with
  | nil => simp
  | cons c rest ih =>
      rw [List.splitOn_cons_eq_if_modifyHead, List.count_cons]
      split <;> simp [ih]

end Text

namespace Source

variable {source : String}

/-- A line with code is no statement, for a reason. -/
def Rejects (source : String) (line : Nat) (malformation : Malformation) : Prop :=
  ∃ code, codeAt? source line = some code ∧ code.isEmpty = false ∧
    Statement.read code = .error malformation

/-- What is read from a source: in ascending order, one statement from each line with code. -/
structure Lists (source : String) (statements : List (Located Statement)) : Prop where
  ascend : statements.Pairwise fun first second => first.line < second.line
  inside : ∀ located ∈ statements, located.line < (Text.lines source).length
  covers : ∀ line, line ∈ statements.map Located.line ↔
    ∃ code, codeAt? source line = some code ∧ code.isEmpty = false
  said : ∀ located ∈ statements, Says source located.line located.item

/-! ### The lines one by one -/

theorem statements_ok_iff :
    (∃ result, statements source = .ok result) ↔
      ∀ line code, codeAt? source line = some code → code.isEmpty = false →
        ∃ statement, Statement.read code = .ok statement := by
  rw [(statements_verdict source).exists_ok_iff, flatMap_readingFlaws_eq_nil_iff]
  constructor
  · intro read line code written nonempty
    exact read ⟨line, code⟩ (mem_codeLines.mpr ⟨written, nonempty⟩)
  · intro read located member
    obtain ⟨written, nonempty⟩ := mem_codeLines.mp member
    exact read _ _ written nonempty

theorem lists_of_statements {result : List (Located Statement)}
    (read : statements source = .ok result) : Lists source result := by
  have verdict := statements_verdict source
  rw [read] at verdict
  cases readable_of_readAs verdict.of_ok.2
  have said : ∀ located ∈ readable source, Says source located.line located.item :=
    fun _ member => mem_readable_iff.mp member
  refine ⟨readable_ascend source, fun located member => (said _ member).lt_length, ?_, said⟩
  intro line
  rw [List.mem_map]
  constructor
  · rintro ⟨located, member, rfl⟩
    obtain ⟨code, written, readCode⟩ := said _ member
    exact ⟨code, written, not_isEmpty_of_read readCode⟩
  · rintro ⟨code, written, nonempty⟩
    obtain ⟨statement, readCode⟩ := statements_ok_iff.mp ⟨_, read⟩ line code written nonempty
    exact ⟨⟨line, statement⟩, mem_readable_iff.mpr ⟨code, written, readCode⟩, rfl⟩

theorem readLine_eq_error_iff {written : Located String} {fault : Fault} :
    readLine written = .error fault ↔
      ∃ malformation, Statement.read written.item = .error malformation ∧
        fault = ⟨.malformed malformation.message, written.line⟩ := by
  unfold readLine
  cases Statement.read written.item with
  | ok statement => simp
  | error malformation => simp [eq_comm]

theorem exists_readLine_of_not_rejects {written : Located String}
    (member : written ∈ codeLines source)
    (accepts : ∀ malformation, ¬ Rejects source written.line malformation) :
    ∃ located, readLine written = .ok located := by
  obtain ⟨present, nonempty⟩ := mem_codeLines.mp member
  cases read : readLine written with
  | ok located => exact ⟨located, rfl⟩
  | error fault =>
      obtain ⟨malformation, failed, _⟩ := readLine_eq_error_iff.mp read
      exact absurd ⟨_, present, nonempty, failed⟩ (accepts malformation)

/-- The fault is that of the first line that is no statement. -/
theorem statements_error_iff {fault : Fault} :
    statements source = .error fault ↔
      ∃ line malformation, Rejects source line malformation ∧
        fault = ⟨.malformed malformation.message, line⟩ ∧
        ∀ earlier other, earlier < line → ¬ Rejects source earlier other := by
  unfold statements
  rw [mapM_eq_error_iff]
  constructor
  · rintro ⟨earlier, ⟨line, code⟩, later, split, failed, passed⟩
    obtain ⟨malformation, rejected, rfl⟩ := readLine_eq_error_iff.mp failed
    have paired : (earlier, ⟨line, code⟩) ∈ withEarlier (codeLines source) :=
      mem_withEarlier.mpr ⟨later, split⟩
    obtain ⟨member, before⟩ := (mem_withEarlier_iff_of_ascend (codeLines_ascend source)).mp paired
    obtain ⟨written, nonempty⟩ := mem_codeLines.mp member
    refine ⟨line, malformation, ⟨code, written, nonempty, rejected⟩, rfl, ?_⟩
    rintro other _ less ⟨otherCode, otherWritten, otherNonempty, otherRejected⟩
    have inEarlier : (⟨other, otherCode⟩ : Located String) ∈ earlier := by
      rw [before]
      exact List.mem_filter.mpr
        ⟨mem_codeLines.mpr ⟨otherWritten, otherNonempty⟩, decide_eq_true less⟩
    obtain ⟨value, passes⟩ := passed _ inEarlier
    rw [readLine_eq_error_iff.mpr ⟨_, otherRejected, rfl⟩] at passes
    cases passes
  · rintro ⟨line, malformation, ⟨code, written, nonempty, rejected⟩, rfl, first⟩
    obtain ⟨earlier, paired⟩ :=
      withEarlier_of_mem (mem_codeLines.mpr ⟨written, nonempty⟩)
    obtain ⟨later, split⟩ := mem_withEarlier.mp paired
    obtain ⟨_, before⟩ := (mem_withEarlier_iff_of_ascend (codeLines_ascend source)).mp paired
    refine ⟨earlier, _, later, split, readLine_eq_error_iff.mpr ⟨_, rejected, rfl⟩, ?_⟩
    intro other member
    rw [before] at member
    obtain ⟨inSource, less⟩ := List.mem_filter.mp member
    exact exists_readLine_of_not_rejects inSource fun _ => first _ _ (of_decide_eq_true less)

/-! ### Sources in a row -/

theorem readLine_moveBy (distance : Nat) (written : Located String) :
    readLine (written.moveBy distance) =
      ((readLine written).map (Located.moveBy distance)).mapError (Fault.moveBy distance) := by
  unfold readLine Located.moveBy
  cases Statement.read written.item <;> rfl

theorem mapM_readLine_moveBy (distance : Nat) (items : List (Located String)) :
    (items.map (Located.moveBy distance)).mapM readLine =
      ((items.mapM readLine).map (List.map (Located.moveBy distance))).mapError
        (Fault.moveBy distance) := by
  induction items with
  | nil => rfl
  | cons item items ih =>
      rw [List.map_cons, List.mapM_cons, List.mapM_cons, ih, readLine_moveBy]
      cases readLine item with
      | error fault => rfl
      | ok located => cases items.mapM readLine <;> rfl

/-- A source behind a line feed is read after what stands before it, with its lines moved down. -/
theorem statements_append_line (first second : String) :
    statements (first ++ "\n" ++ second) = do
      let before ← statements first
      let after ← ((statements second).map
        (List.map (Located.moveBy (first.toList.count '\n' + 1)))).mapError
          (Fault.moveBy (first.toList.count '\n' + 1))
      return before ++ after := by
  unfold statements
  rw [codeLines_append_line, Text.length_splitOn, List.mapM_append, mapM_readLine_moveBy]

/-! ### Carriage returns -/

/-- The parts of a text between line feeds have the characters that count in the text. -/
theorem splitOn_filter (text : List Char) :
    (text.filter fun c => significant c || c == '\n').splitOn '\n' =
      (text.splitOn '\n').map (List.filter significant) := by
  induction text with
  | nil => rfl
  | cons c rest ih =>
      rw [List.splitOn_cons_eq_if_modifyHead]
      by_cases feed : c = '\n'
      · subst feed
        rw [List.filter_cons_of_pos (by decide), List.splitOn_cons_eq_if_modifyHead, ih]
        rfl
      · obtain ⟨part, parts, split⟩ := List.exists_cons_of_ne_nil (List.splitOn_ne_nil '\n' rest)
        rw [split] at ih ⊢
        by_cases counts : significant c = true
        · rw [List.filter_cons_of_pos (by simp [counts]), List.splitOn_cons_eq_if_modifyHead, ih]
          simp [feed, counts]
        · rw [List.filter_cons_of_neg (by simp [counts, feed]), ih]
          simp [feed, counts]

/-- Only line feeds and the characters that count make a difference. -/
theorem codeLines_congr_filter {first second : String}
    (same : (first.toList.filter fun c => significant c || c == '\n') =
      second.toList.filter fun c => significant c || c == '\n') :
    codeLines first = codeLines second := by
  have codes : ∀ text : String, (text.toList.splitOn '\n').map code =
      ((text.toList.filter fun c => significant c || c == '\n').splitOn '\n').map
        beforeComment := by
    intro text
    rw [splitOn_filter, List.map_map]
    rfl
  rw [codeLines_eq_locateCode, codeLines_eq_locateCode, codes, codes, same]

theorem filter_insertReturns (returned : Bool) (text : List Char) :
    ((Text.insertReturns returned text).filter fun c => significant c || c == '\n') =
      text.filter fun c => significant c || c == '\n' := by
  induction text generalizing returned with
  | nil => rfl
  | cons c rest ih =>
      rw [Text.insertReturns]
      split
      · next bare =>
          obtain ⟨rfl, _⟩ := bare
          rw [List.filter_cons_of_neg (by decide), List.filter_cons_of_pos (by decide),
            List.filter_cons_of_pos (by decide), ih]
      · rw [List.filter_cons, List.filter_cons, ih]

theorem codeLines_withReturns (source : String) :
    codeLines (Text.withReturns source) = codeLines source := by
  refine codeLines_congr_filter ?_
  rw [Text.withReturns, String.toList_ofList, filter_insertReturns]

/-! ### Reading as a whole -/

/-- **Reading is linewise.** A source is read exactly if each of its lines with code is a statement,
and then one statement is read from each of these lines; otherwise the fault is that of the first
line that is none. Of sources in a row the first is read first and the second with its lines moved
down, and carriage returns before line feeds make no difference. -/
theorem statements_linewise (source : String) :
    ((∃ result, statements source = .ok result) ↔
      ∀ line code, codeAt? source line = some code → code.isEmpty = false →
        ∃ statement, Statement.read code = .ok statement) ∧
    (∀ result, statements source = .ok result → Lists source result) ∧
    (∀ fault, statements source = .error fault ↔
      ∃ line malformation, Rejects source line malformation ∧
        fault = ⟨.malformed malformation.message, line⟩ ∧
        ∀ earlier other, earlier < line → ¬ Rejects source earlier other) ∧
    (∀ later, ∀ fault, statements source = .error fault →
      statements (source ++ "\n" ++ later) = .error fault) ∧
    (∀ later, ∀ before fault, statements source = .ok before → statements later = .error fault →
      statements (source ++ "\n" ++ later) =
        .error (fault.moveBy (source.toList.count '\n' + 1))) ∧
    (∀ later, ∀ before after, statements source = .ok before → statements later = .ok after →
      statements (source ++ "\n" ++ later) =
        .ok (before ++ after.map (Located.moveBy (source.toList.count '\n' + 1)))) ∧
    statements (Text.withReturns source) = statements source := by
  refine ⟨statements_ok_iff, fun _ => lists_of_statements, fun _ => statements_error_iff,
    ?_, ?_, ?_, ?_⟩
  · intro later fault failed
    rw [statements_append_line, failed]
    rfl
  · intro later before fault read failed
    rw [statements_append_line, read, failed]
    rfl
  · intro later before after read readLater
    rw [statements_append_line, read, readLater]
    rfl
  · unfold statements
    rw [codeLines_withReturns]

/-- The line feed that joins two sources ends a line, so a carriage return before it goes with it. A
fault of the second source is on the line where it stands in the whole. -/
theorem statements_linewise_joined :
    ∃ before, statements "@1\n\nD=A\r" = .ok before ∧ Lists "@1\n\nD=A\r" before ∧
      statements "// end\n(A" = .error ⟨.malformed Malformation.unclosedLabel.message, 1⟩ ∧
      statements ("@1\n\nD=A\r" ++ "\n" ++ "// end\n(A") =
        .error ⟨.malformed Malformation.unclosedLabel.message, 4⟩ ∧
      statements ("// end\n(A" ++ "\n" ++ "@1\n\nD=A\r") =
        .error ⟨.malformed Malformation.unclosedLabel.message, 1⟩ ∧
      statements ("@1\n\nD=A\r" ++ "\n" ++ "@1\n\nD=A\r") =
        .ok (before ++ before.map (Located.moveBy 3)) := by
  have read : statements "@1\n\nD=A\r" = .ok [⟨0, .instruction (.load (.written "1"))⟩,
      ⟨2, .instruction (.compute ⟨some "D", "A", none⟩)⟩] := by decide +kernel
  have failed : statements "// end\n(A" =
      .error ⟨.malformed Malformation.unclosedLabel.message, 1⟩ := by decide +kernel
  obtain ⟨_, listed, _, _, failedLater, readLater, _⟩ := statements_linewise "@1\n\nD=A\r"
  obtain ⟨_, _, _, failedFirst, _⟩ := statements_linewise "// end\n(A"
  exact ⟨_, read, listed _ read, failed, failedLater _ _ _ read failed, failedFirst _ _ failed,
    readLater _ _ _ read read⟩

end Source

end HackAssembler
