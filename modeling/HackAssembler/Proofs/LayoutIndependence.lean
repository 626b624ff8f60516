import HackAssembler.Proofs.Passes
import HackAssembler.Proofs.Renaming
import HackAssembler.Proofs.SourceLines

/-! # Independence of the layout

Two sources that have the same code, line by line where there is any, are assembled alike: to the
same words and the same symbols, or with the same fault. The lines that symbols and faults tell are
those of the same piece of code in either source (`assemble_layout_independent`). Both sources have
the same statements up to their lines, so this is a case of `translate_agree` without renaming.
-/

namespace HackAssembler

/-- The lines of two sources that hold the same of their lines with code, counted from the first
such line. -/
def Source.SameCodeLine (first second : String) (line other : Nat) : Prop :=
  ∃ position : Nat, (codeLines first)[position]?.map Located.line = some line ∧
    (codeLines second)[position]?.map Located.line = some other

open Source

variable {dialect : Dialect} {first second : String}

theorem codeLines_alike
    (sameCode : (codeLines first).map Located.item = (codeLines second).map Located.item) :
    List.Forall₂ (Located.Alike (SameCodeLine first second) id) (codeLines first)
      (codeLines second) := by
  have sameLength : (codeLines first).length = (codeLines second).length := by
    simpa using congrArg List.length sameCode
  refine List.forall₂_iff_get.mpr ⟨sameLength, fun position inside otherInside => ?_⟩
  refine ⟨⟨position, ?_, ?_⟩, ?_⟩
  · rw [List.getElem?_eq_getElem inside]
    rfl
  · rw [List.getElem?_eq_getElem otherInside]
    rfl
  · have items := congrArg (fun texts => texts[position]?) sameCode
    simpa [inside, otherInside] using items.symm

theorem readLine_agree {SameLine : Nat → Nat → Prop} (written other : Located String)
    (alike : written.Alike SameLine id other) :
    Agree (Fault.Alike id SameLine) (Located.Alike SameLine (Statement.rename id))
      (readLine written) (readLine other) := by
  obtain ⟨line, _⟩ := written
  obtain ⟨otherLine, text⟩ := other
  obtain ⟨lines, rfl⟩ := alike
  simp only [readLine]
  cases Statement.read text with
  | ok statement => exact .accepted ⟨lines, statement.rename_id.symm⟩
  | error malformation => exact .rejected ⟨.malformed malformation.message, lines⟩

/-- Sources with the same code are assembled alike. -/
theorem assemble_agree (dialect : Dialect)
    (sameCode : (codeLines first).map Located.item = (codeLines second).map Located.item) :
    Agree (Fault.Alike id (SameCodeLine first second))
      (Program.Alike id (SameCodeLine first second)) (assemble dialect first)
      (assemble dialect second) := by
  rw [assemble_eq_bind_translate, assemble_eq_bind_translate]
  have read := Agree.mapM readLine_agree (codeLines_alike sameCode)
  exact read.bind fun _ _ statements => translate_agree (.id dialect) statements

/-- The names of symbols with what they stand for, without the lines that introduce them. -/
def SymbolTable.meanings (symbols : SymbolTable) : List (String × Symbol.Kind × Nat) :=
  symbols.toList.map fun (name, symbol) => (name, symbol.kind, symbol.value)

theorem map_eq_of_forall₂ {α β : Type} {Alike : α → α → Prop} {f : α → β} {items others : List α}
    (same : ∀ item other, Alike item other → f item = f other)
    (alike : List.Forall₂ Alike items others) : items.map f = others.map f := by
  rw [← List.forall₂_eq_eq_eq]
  exact List.rel_map (fun _ _ both => same _ _ both) alike

/-- **The layout makes no difference.** Of two sources with the same code, either both are assembled,
to the same words, the same instructions and symbols of the same meanings, or both fail. The faults
then say the same, each with the lines that its own source has for that code. -/
theorem assemble_layout_independent (dialect : Dialect)
    (sameCode : (codeLines first).map Located.item = (codeLines second).map Located.item) :
    Agree
      (fun fault other => fault.Alike id (SameCodeLine first second) other ∧
        fault.message = other.message)
      (fun program other => program.words = other.words ∧
        program.instructions.map Located.item = other.instructions.map Located.item ∧
        program.symbols.meanings = other.symbols.meanings)
      (assemble dialect first) (assemble dialect second) := by
  refine (assemble_agree dialect sameCode).imp ?_ ?_
  · intro fault other alike
    exact ⟨alike, alike.message.symm⟩
  · intro program other alike
    refine ⟨alike.words, ?_, ?_⟩
    · refine map_eq_of_forall₂ (fun located otherLocated same => ?_) alike.instructions
      rw [same.item, Instruction.rename_id]
    · refine map_eq_of_forall₂ (fun entry otherEntry same => ?_) alike.symbols
      simp only [same.name, same.symbol.kind, same.symbol.value, id_eq]

/-- Among blanks, backspaces, comments and carriage returns a repeated label is the same fault, on
the line where it now stands. -/
theorem assemble_layout_independent_repeated_label :
    assemble .hack "(A)\n@1\n(A)" = .error ⟨.duplicateLabel "A" (some 0), 2⟩ ∧
      ∃ fault, assemble .hack "// first\r\n ( A )\x08\n\n@\t1\r\n(A) // again\r\n" = .error fault ∧
        fault.line = 4 ∧ fault.message = "Duplicate label: `A`" := by
  have failed : assemble .hack "(A)\n@1\n(A)" = .error ⟨.duplicateLabel "A" (some 0), 2⟩ := by
    have first : (flaws .hack "(A)\n@1\n(A)").head? =
        some ⟨.labelling, 1, ⟨.duplicateLabel "A" (some 0), 2⟩⟩ := by
      simp only [flaws, statementFlaws, symbolEntries, boundNames, Dialect.predefinedEntries_hack]
      decide +kernel
    exact (assemble_verdict .hack "(A)\n@1\n(A)").of_head? first
  have plain : codeLines "(A)\n@1\n(A)" = [⟨0, "(A)"⟩, ⟨1, "@1"⟩, ⟨2, "(A)"⟩] := by decide +kernel
  have spaced : codeLines "// first\r\n ( A )\x08\n\n@\t1\r\n(A) // again\r\n" =
      [⟨1, "(A)"⟩, ⟨3, "@1"⟩, ⟨4, "(A)"⟩] := by decide +kernel
  have sameCode : (codeLines "(A)\n@1\n(A)").map Located.item =
      (codeLines "// first\r\n ( A )\x08\n\n@\t1\r\n(A) // again\r\n").map Located.item := by
    rw [plain, spaced]
    rfl
  have agree := assemble_layout_independent .hack sameCode
  rw [failed] at agree
  obtain ⟨fault, rejected, alike, message⟩ := agree.of_error
  refine ⟨failed, fault, rejected, ?_, message.symm⟩
  obtain ⟨position, line, otherLine⟩ := alike.line
  rw [plain] at line
  rw [spaced] at otherLine
  rcases position with _ | _ | _ | position
  · simp at line
  · simp at line
  · simpa [eq_comm] using otherLine
  · simp at line

end HackAssembler
