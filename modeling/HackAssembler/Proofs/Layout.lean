import HackAssembler.Program
import HackAssembler.Proofs.CleanCode

/-! # The layout of a source

What a source says is a matter of the code of its lines. Whether a line ends with a carriage return,
and whether the last one ends at all, makes no difference: the lines with code can be read off the
parts between line feeds (`Source.codeLines_eq_locateCode`). Two slashes and what follows them leave
the code of a line as it is, unless the code ends with a slash, which then starts the comment
(`Source.code_append_comment`).
-/

namespace HackAssembler

namespace Source

/-- The codes that are not empty, with their positions. -/
def locateCode (codes : List (List Char)) : List (Located String) :=
  (codes.zipIdx.map fun (code, line) => ⟨line, String.ofList code⟩).filter
    fun located => !located.item.isEmpty

theorem locateCode_append_nil (codes : List (List Char)) :
    locateCode (codes ++ [[]]) = locateCode codes := by
  unfold locateCode
  rw [List.zipIdx_append, List.map_append, List.filter_append]
  simp

theorem code_append_of_not_significant (line : List Char) {c : Char}
    (blank : significant c = false) : code (line ++ [c]) = code line := by
  unfold code
  rw [List.filter_append]
  simp [blank]

theorem code_dropReturn (line : List Char) : code (Text.dropReturn line) = code line := by
  unfold Text.dropReturn
  split
  · next returned =>
      obtain ⟨before, rfl⟩ := List.getLast?_eq_some_iff.mp returned
      rw [List.dropLast_concat, code_append_of_not_significant before (by decide)]
  · rfl

/-- The lines with code are the parts between line feeds that have code. -/
theorem codeLines_eq_locateCode (source : String) :
    codeLines source = locateCode ((source.toList.splitOn '\n').map code) := by
  have whole : codeLines source = locateCode ((Text.lines source).map code) := by
    unfold codeLines locateCode
    rw [List.zipIdx_map, List.map_map]
    rfl
  rw [whole]
  unfold Text.lines
  generalize source.toList.splitOn '\n' = parts
  rcases List.eq_nil_or_concat parts with rfl | ⟨init, last, rfl⟩
  · rfl
  · have ended : (init.map Text.dropReturn).map code = init.map code := by
      rw [List.map_map]
      exact List.map_congr_left fun line _ => code_dropReturn line
    unfold Text.linesOfParts
    rw [List.concat_eq_append, List.dropLast_concat, List.getLast?_concat, List.map_append, ended,
      List.map_append]
    cases last with
    | nil => exact (congrArg locateCode (List.append_nil _)).trans (locateCode_append_nil _).symm
    | cons c rest => rfl

/-! ### Comments -/

/-- A slash at the end of a text joins the slashes behind it, and the comment starts there. -/
theorem beforeComment_append_slashes (text comment : List Char) :
    beforeComment (text ++ '/' :: '/' :: comment) =
      if (beforeComment text).getLast? = some '/' then (beforeComment text).dropLast
      else beforeComment text := by
  induction text with
  | nil => simp [beforeComment]
  | cons c rest ih =>
      rw [List.cons_append, beforeComment_cons, beforeComment_cons, ih]
      cases rest with
      | nil => by_cases slash : c = '/' <;> simp [beforeComment, slash]
      | cons d rest =>
          rw [List.cons_append, List.head?_cons, List.head?_cons]
          by_cases start : c = '/' ∧ some d = some '/'
          · simp [start]
          · rw [if_neg start, if_neg start]
            cases before : beforeComment (d :: rest) with
            | nil =>
                -- The rest is a comment, and one slash more would have started it earlier.
                have commented : d = '/' := by
                  rw [beforeComment_cons] at before
                  split at before
                  · next slashes => exact slashes.1
                  · cases before
                have apart : c ≠ '/' := fun slash => start ⟨slash, congrArg some commented⟩
                simp [apart]
            | cons e more =>
                rw [List.getLast?_cons_cons, List.dropLast_cons_cons]
                split <;> rfl

/-- A comment behind a line leaves its code as it is, but for a slash at the end. -/
theorem code_append_slashes (line comment : List Char) :
    code (line ++ '/' :: '/' :: comment) =
      if (code line).getLast? = some '/' then (code line).dropLast else code line := by
  have visible : (line ++ '/' :: '/' :: comment).filter significant =
      line.filter significant ++ '/' :: '/' :: comment.filter significant := by
    rw [List.filter_append, List.filter_cons_of_pos (by decide),
      List.filter_cons_of_pos (by decide)]
  unfold code
  rw [visible]
  exact beforeComment_append_slashes _ _

theorem code_append_comment (line comment : List Char) :
    code (line ++ ' ' :: '/' :: '/' :: comment) =
      if (code line).getLast? = some '/' then (code line).dropLast else code line := by
  have spaced := code_append_slashes (line ++ [' ']) comment
  rwa [code_append_of_not_significant line (by decide), List.append_assoc] at spaced

end Source

/-- The result depends on nothing but the lines with code. -/
theorem assemble_congr {first second : String}
    (same : Source.codeLines first = Source.codeLines second) (dialect : Dialect) :
    assemble dialect first = assemble dialect second := by
  unfold assemble Source.statements
  rw [same]

end HackAssembler
