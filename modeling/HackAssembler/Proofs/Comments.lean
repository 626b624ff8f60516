import HackAssembler.Proofs.AssembledWords
import HackAssembler.Proofs.Layout

/-! # Comments behind lines

A comment can be put behind any line whose code does not end with a slash, and the result stays the
same in all its parts (`assemble_comments`). Behind code that ends with a slash the comment starts
at that slash, because the blank before the comment does not count.
-/

namespace HackAssembler

/-- A line of a source and the comment that is put behind it, if any. -/
structure CommentedLine where
  text : String
  comment : Option String

namespace CommentedLine

def written (line : CommentedLine) : String :=
  match line.comment with
  | none => line.text
  | some comment => line.text ++ " //" ++ comment

theorem not_mem_written {line : CommentedLine} (single : '\n' ∉ line.text.toList)
    (commentSingle : ∀ comment ∈ line.comment, '\n' ∉ comment.toList) :
    '\n' ∉ line.written.toList := by
  obtain ⟨text, comment⟩ := line
  cases comment with
  | none => exact single
  | some comment => simpa [written] using ⟨single, commentSingle comment rfl⟩

open Source in
theorem code_written {line : CommentedLine}
    (closed : line.comment.isSome = true → (code line.text.toList).getLast? ≠ some '/') :
    code line.written.toList = code line.text.toList := by
  obtain ⟨text, comment⟩ := line
  cases comment with
  | none => rfl
  | some comment =>
      have spelled : (written ⟨text, some comment⟩).toList =
          text.toList ++ ' ' :: '/' :: '/' :: comment.toList := by
        simp [written]
      rw [spelled, code_append_comment, if_neg (closed rfl)]

end CommentedLine

open CommentedLine in
/-- **Comments make no difference.** With comments behind some of its lines a source is assembled to
the same program as without them, or fails with the same fault. -/
theorem assemble_comments (dialect : Dialect) (lines : List CommentedLine)
    (single : ∀ line ∈ lines, '\n' ∉ line.text.toList)
    (commentSingle : ∀ line ∈ lines, ∀ comment ∈ line.comment, '\n' ∉ comment.toList)
    (closed : ∀ line ∈ lines, line.comment.isSome = true →
      (Source.code line.text.toList).getLast? ≠ some '/') :
    assemble dialect ("\n".intercalate (lines.map written)) =
      assemble dialect ("\n".intercalate (lines.map text)) := by
  by_cases empty : lines = []
  · subst empty
    rfl
  · have plainApart : ∀ part ∈ lines.map text, '\n' ∉ part.toList :=
      List.forall_mem_map.mpr single
    have apart : ∀ part ∈ lines.map written, '\n' ∉ part.toList :=
      List.forall_mem_map.mpr fun line member =>
        not_mem_written (single line member) (commentSingle line member)
    have sameCode : ((lines.map written).map String.toList).map Source.code =
        ((lines.map text).map String.toList).map Source.code := by
      simp only [List.map_map]
      exact List.map_congr_left fun line member => code_written (closed line member)
    apply assemble_congr
    rw [Source.codeLines_eq_locateCode, Source.codeLines_eq_locateCode,
      Source.splitOn_intercalate apart (by simpa using empty),
      Source.splitOn_intercalate plainApart (by simpa using empty), sameCode]

/-- A comment may also follow a carriage return, and it may make a line of its own. -/
theorem assemble_comments_loop :
    assemble .hack "(LOOP) // top\n\t@LOOP\r //\n0;JMP\n // end" =
      assemble .hack "(LOOP)\n\t@LOOP\r\n0;JMP\n" :=
  assemble_comments .hack
    [⟨"(LOOP)", some " top"⟩, ⟨"\t@LOOP\r", some ""⟩, ⟨"0;JMP", none⟩, ⟨"", some " end"⟩]
    (by decide) (by decide) (by decide)

/-- Behind a name that ends with a slash, a comment takes that slash away from the name. -/
theorem assemble_comment_behind_slash :
    (∃ program, assemble .hack "@a/\n@a" = .ok program ∧
      program.words = [.address 16, .address 17]) ∧
    ∃ program, assemble .hack "@a/ // first\n@a" = .ok program ∧
      program.words = [.address 16, .address 16] := by
  constructor
  · apply exists_words_of_flawless <;>
      simp only [flaws, statementFlaws, symbolEntries, boundNames,
        Dialect.predefinedEntries_hack] <;>
      decide +kernel
  · apply exists_words_of_flawless <;>
      simp only [flaws, statementFlaws, symbolEntries, boundNames,
        Dialect.predefinedEntries_hack] <;>
      decide +kernel

end HackAssembler
