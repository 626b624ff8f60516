import HackAssembler.Source
import HackAssembler.Text.Numeral

/-! # Clean code

The code of a line has no code but itself (`Source.code_code`). So texts that are the code of some
lines can be written on lines of their own, and the lines have that code again
(`Source.codeLines_intercalate`).
-/

namespace HackAssembler

namespace Source

/-! ### Comments -/

theorem beforeComment_cons (c : Char) (rest : List Char) :
    beforeComment (c :: rest) =
      if c = '/' ∧ rest.head? = some '/' then [] else c :: beforeComment rest := by
  cases rest with
  | nil => by_cases slash : c = '/' <;> simp [beforeComment, slash]
  | cons next rest =>
      by_cases start : c = '/' ∧ next = '/'
      · simp [beforeComment, start]
      · simp [beforeComment, start]

theorem isPrefix_beforeComment (text : List Char) : beforeComment text <+: text := by
  induction text with
  | nil => exact List.prefix_rfl
  | cons c rest ih =>
      rw [beforeComment_cons]
      split
      · exact List.nil_prefix
      · exact List.cons_prefix_cons.mpr ⟨rfl, ih⟩

theorem beforeComment_beforeComment (text : List Char) :
    beforeComment (beforeComment text) = beforeComment text := by
  induction text with
  | nil => rfl
  | cons c rest ih =>
      rw [beforeComment_cons]
      split
      · rfl
      · next noComment =>
          -- The text before a comment starts as the whole text does, so no comment arises.
          rw [beforeComment_cons, ih, if_neg]
          intro start
          obtain ⟨slash, next⟩ := start
          obtain ⟨later, whole⟩ := isPrefix_beforeComment rest
          refine noComment ⟨slash, ?_⟩
          rw [← whole, List.head?_append, next, Option.some_or]

theorem beforeComment_eq_self {text : List Char} (noSlash : '/' ∉ text) :
    beforeComment text = text := by
  induction text with
  | nil => rfl
  | cons c rest ih =>
      rw [List.mem_cons, not_or] at noSlash
      rw [beforeComment_cons, if_neg fun start => noSlash.1 start.1.symm, ih noSlash.2]

/-! ### Lines -/

theorem significant_of_mem_code {line : List Char} {c : Char} (member : c ∈ code line) :
    significant c = true :=
  (List.mem_filter.mp ((isPrefix_beforeComment _).subset member)).2

theorem code_code (line : List Char) : code (code line) = code line := by
  have kept : (code line).filter significant = code line :=
    List.filter_eq_self.mpr fun _ member => significant_of_mem_code member
  calc code (code line)
      = beforeComment (code line) := congrArg beforeComment kept
    _ = code line := beforeComment_beforeComment _

/-- A text is clean code when it is the code of some line that has code. -/
structure IsClean (text : String) : Prop where
  nonempty : text.isEmpty = false
  code_eq : code text.toList = text.toList

theorem IsClean.of_mem_codeLines {source : String} {written : Located String}
    (member : written ∈ codeLines source) : IsClean written.item := by
  obtain ⟨located, nonempty⟩ := List.mem_filter.mp member
  obtain ⟨⟨text, line⟩, _, rfl⟩ := List.mem_map.mp located
  refine ⟨by simpa using nonempty, ?_⟩
  rw [String.toList_ofList]
  exact code_code text

theorem significant_of_isDigit {c : Char} (digit : c.isDigit = true) : significant c = true := by
  have range : 48 ≤ c.toNat ∧ c.toNat ≤ 57 := by
    simpa [Char.isDigit, Char.le_def, UInt32.le_iff_toNat_le] using digit
  have filled : Text.isBlank c = false := by
    rw [← Bool.not_eq_true]
    intro blank
    simp only [Text.isBlank, Text.whiteSpace, List.any_cons, List.any_nil, Bool.or_eq_true,
      Bool.and_eq_true, decide_eq_true_eq, Bool.false_eq_true, or_false] at blank
    omega
  have notBackspace : c ≠ '\x08' := by
    intro same
    subst same
    cases digit
  simp [significant, filled, notBackspace]

theorem IsClean.of_isNumeral {text : String} (numeral : Text.isNumeral text = true) :
    IsClean text := by
  obtain ⟨nonempty, digits⟩ := Text.isNumeral_iff.mp numeral
  have kept : text.toList.filter significant = text.toList :=
    List.filter_eq_self.mpr fun c member => significant_of_isDigit (digits c member)
  have noSlash : '/' ∉ text.toList := fun member => absurd (digits _ member) (by decide)
  refine ⟨by simpa using nonempty, ?_⟩
  rw [code, kept, beforeComment_eq_self noSlash]

/-- A load of a clean text is clean. -/
theorem IsClean.load {text : String} (clean : IsClean text) : IsClean ("@" ++ text) := by
  have spelled : ("@" ++ text).toList = '@' :: text.toList := by
    rw [String.toList_append]
    rfl
  have significantText : ∀ c ∈ text.toList, significant c = true := by
    intro c member
    rw [← clean.code_eq] at member
    exact significant_of_mem_code member
  have kept : ('@' :: text.toList).filter significant = '@' :: text.toList :=
    List.filter_eq_self.mpr (List.forall_mem_cons.mpr ⟨by decide, significantText⟩)
  have uncommented : beforeComment text.toList = text.toList := by
    have whole := clean.code_eq
    rwa [code, List.filter_eq_self.mpr significantText] at whole
  refine ⟨by simp, ?_⟩
  rw [spelled, code, kept, beforeComment_cons, if_neg fun start => absurd start.1 (by decide),
    uncommented]

theorem IsClean.not_mem {text : String} (clean : IsClean text) {c : Char}
    (blank : significant c = false) : c ∉ text.toList := by
  intro member
  rw [← clean.code_eq] at member
  rw [significant_of_mem_code member] at blank
  cases blank

theorem linesOfParts_of_clean {texts : List String} (clean : ∀ text ∈ texts, IsClean text) :
    Text.linesOfParts (texts.map String.toList) = texts.map String.toList := by
  rcases List.eq_nil_or_concat texts with rfl | ⟨init, last, rfl⟩
  · rfl
  · rw [List.concat_eq_append] at clean ⊢
    have kept : (init.map String.toList).map Text.dropReturn = init.map String.toList := by
      rw [List.map_map]
      refine List.map_congr_left fun text member => ?_
      refine if_neg fun returned => ?_
      have inside := clean text (List.mem_append_left _ member)
      exact inside.not_mem (by decide) (List.mem_of_getLast? returned)
    have present : last.toList.isEmpty = false := by
      have nonempty := (clean last (by simp)).nonempty
      simpa using nonempty
    unfold Text.linesOfParts
    rw [List.map_append, List.map_singleton, List.dropLast_concat, kept, List.getLast?_concat]
    simp [Option.filter, present]

/-- Texts without line feeds are the parts between the line feeds that join them. -/
theorem splitOn_intercalate {texts : List String} (apart : ∀ text ∈ texts, '\n' ∉ text.toList)
    (nonempty : texts ≠ []) :
    ("\n".intercalate texts).toList.splitOn '\n' = texts.map String.toList := by
  rw [String.toList_intercalate]
  refine List.splitOn_intercalate '\n' ?_ (by simpa using nonempty)
  intro part member
  obtain ⟨text, inTexts, rfl⟩ := List.mem_map.mp member
  exact apart text inTexts

theorem lines_intercalate {texts : List String} (clean : ∀ text ∈ texts, IsClean text) :
    Text.lines ("\n".intercalate texts) = texts.map String.toList := by
  by_cases empty : texts = []
  · subst empty
    rfl
  · have apart : ∀ text ∈ texts, '\n' ∉ text.toList :=
      fun text member => (clean text member).not_mem (by decide)
    unfold Text.lines
    rw [splitOn_intercalate apart empty]
    exact linesOfParts_of_clean clean

theorem codeLines_intercalate {texts : List String} (clean : ∀ text ∈ texts, IsClean text) :
    codeLines ("\n".intercalate texts) = texts.zipIdx.map fun (text, line) => ⟨line, text⟩ := by
  unfold codeLines
  rw [lines_intercalate clean, List.zipIdx_map, List.map_map]
  rw [List.map_congr_left (g := fun written => ⟨written.2, written.1⟩)]
  · refine List.filter_eq_self.mpr fun written member => ?_
    obtain ⟨⟨text, line⟩, inside, rfl⟩ := List.mem_map.mp member
    simpa using (clean text (List.fst_mem_of_mem_zipIdx inside)).nonempty
  · intro written member
    obtain ⟨text, line⟩ := written
    have inside := clean text (List.fst_mem_of_mem_zipIdx member)
    simp only [Function.comp_apply, Prod.map_apply, inside.code_eq, String.ofList_toList, id_eq]

end Source

end HackAssembler
