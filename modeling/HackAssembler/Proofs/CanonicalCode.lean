import HackAssembler.Proofs.Layout

/-! # The code of a line as its canonical form

The code of a line is the longest beginning of the characters that count which stops before their
first two slashes (`Source.beforeComment_isLongest`). So it has no two slashes in a row itself, it is
its own code, and lines that differ in blanks and backspaces have the same code. A comment behind a
line leaves its code as it is, unless the characters that count end with a slash of their own, which
then starts the comment. `Source.code_canonical` puts this together.
-/

namespace HackAssembler

namespace Source

/-- A beginning of a text stops before the first two slashes: wherever two slashes stand in the
text, they stand behind it. -/
structure StopsBeforeComment (text kept : List Char) : Prop where
  isPrefix : kept <+: text
  stops : ∀ before after, text = before ++ '/' :: '/' :: after → kept.length ≤ before.length

/-- Lines that differ in nothing but blanks and backspaces: side by side they have the same
characters, where in either line some may stand between that do not count. -/
inductive Respaced : List Char → List Char → Prop
  | nil : Respaced [] []
  | both (c : Char) {line other : List Char} (rest : Respaced line other) :
      Respaced (c :: line) (c :: other)
  | first {c : Char} {line other : List Char} (blank : Text.isBlank c = true ∨ c = '\x08')
      (rest : Respaced line other) : Respaced (c :: line) other
  | second {c : Char} {line other : List Char} (blank : Text.isBlank c = true ∨ c = '\x08')
      (rest : Respaced line other) : Respaced line (c :: other)

/-! ### The text before a comment -/

/-- A text without two slashes in a row has no comment, and every other one is cut off at two
slashes. -/
theorem eq_beforeComment_or_append (text : List Char) :
    text = beforeComment text ∨ ∃ comment, text = beforeComment text ++ '/' :: '/' :: comment := by
  induction text with
  | nil => exact Or.inl rfl
  | cons c rest ih =>
      rw [beforeComment_cons]
      split
      · next start =>
          obtain ⟨rfl, next⟩ := start
          obtain ⟨comment, rfl⟩ := List.head?_eq_some_iff.mp next
          exact Or.inr ⟨comment, rfl⟩
      · rcases ih with same | ⟨comment, cut⟩
        · exact Or.inl (congrArg (c :: ·) same)
        · exact Or.inr ⟨comment, congrArg (c :: ·) cut⟩

theorem length_beforeComment_le (before comment : List Char) :
    (beforeComment (before ++ '/' :: '/' :: comment)).length ≤ before.length := by
  have shorter := (isPrefix_beforeComment before).length_le
  rw [beforeComment_append_slashes]
  split
  · exact Nat.le_trans (List.dropLast_prefix _).length_le shorter
  · exact shorter

/-- The text before a comment is the longest beginning that stops before the first two slashes. -/
theorem beforeComment_isLongest (text : List Char) :
    StopsBeforeComment text (beforeComment text) ∧
      ∀ kept, StopsBeforeComment text kept → kept <+: beforeComment text := by
  refine ⟨⟨isPrefix_beforeComment text, ?_⟩, ?_⟩
  · rintro before after rfl
    exact length_beforeComment_le before after
  · intro kept stopped
    rcases eq_beforeComment_or_append text with whole | ⟨comment, cut⟩
    · rw [← whole]
      exact stopped.isPrefix
    · exact List.prefix_of_prefix_length_le stopped.isPrefix (isPrefix_beforeComment text)
        (stopped.stops _ comment cut)

theorem slashes_not_infix_beforeComment (text : List Char) :
    ¬ ['/', '/'] <:+: beforeComment text := by
  rintro ⟨before, after, inside⟩
  -- The slashes stand in the whole text too, and it is cut off before them.
  obtain ⟨later, whole⟩ := isPrefix_beforeComment text
  have split : text = before ++ '/' :: '/' :: (after ++ later) := by
    rw [← whole, ← inside]
    simp
  have stopped := (beforeComment_isLongest text).1.stops _ _ split
  rw [← inside] at stopped
  simp only [List.length_append, List.length_cons, List.length_nil] at stopped
  omega

/-- The text before a comment ends with a slash only if there is no comment. -/
theorem getLast?_beforeComment_eq_slash_iff {text : List Char} :
    (beforeComment text).getLast? = some '/' ↔
      ¬ ['/', '/'] <:+: text ∧ text.getLast? = some '/' := by
  constructor
  · intro slash
    rcases eq_beforeComment_or_append text with whole | ⟨comment, cut⟩
    · rw [← whole] at slash
      refine ⟨?_, slash⟩
      rw [whole]
      exact slashes_not_infix_beforeComment text
    · obtain ⟨init, ended⟩ := List.getLast?_eq_some_iff.mp slash
      have earlier : text = init ++ '/' :: '/' :: '/' :: comment := by
        rw [cut, ended, List.append_assoc]
        rfl
      have stopped := (beforeComment_isLongest text).1.stops _ _ earlier
      rw [ended, List.length_append, List.length_singleton] at stopped
      omega
  · intro ends
    obtain ⟨noSlashes, slash⟩ := ends
    rcases eq_beforeComment_or_append text with whole | ⟨comment, cut⟩
    · rw [← whole]
      exact slash
    · refine absurd ⟨beforeComment text, comment, ?_⟩ noSlashes
      rw [List.append_assoc]
      exact cut.symm

/-! ### Blanks -/

theorem significant_eq_false_iff {c : Char} :
    significant c = false ↔ Text.isBlank c = true ∨ c = '\x08' := by
  rw [significant, Bool.and_eq_false_iff, Bool.not_eq_false', bne_eq_false_iff_eq]

theorem Respaced.filter_significant {line other : List Char} (respaced : Respaced line other) :
    line.filter significant = other.filter significant := by
  induction respaced with
  | nil => rfl
  | both c rest ih => rw [List.filter_cons, List.filter_cons, ih]
  | first blank rest ih =>
      rw [List.filter_cons_of_neg (by simp [significant_eq_false_iff.mpr blank]), ih]
  | second blank rest ih =>
      rw [List.filter_cons_of_neg (by simp [significant_eq_false_iff.mpr blank]), ih]

theorem Respaced.code_eq {line other : List Char} (respaced : Respaced line other) :
    code line = code other :=
  congrArg beforeComment respaced.filter_significant

theorem not_blank_of_mem_code {line : List Char} {c : Char} (member : c ∈ code line) :
    Text.isBlank c = false ∧ c ≠ '\x08' := by
  have counts := significant_of_mem_code member
  simpa [significant] using counts

/-! ### The canonical form -/

/-- **The code of a line is canonical.** It has no blanks, no backspaces and no two slashes in a row;
it is the longest beginning of the characters that count which stops before their first two slashes;
it is its own code; and lines that differ in blanks and backspaces have the same. With a comment
behind the line it stays as it is, but for a slash at the end that was no comment by itself. -/
theorem code_canonical (line : List Char) :
    (∀ c ∈ code line, Text.isBlank c = false ∧ c ≠ '\x08') ∧
    ¬ ['/', '/'] <:+: code line ∧
    StopsBeforeComment (line.filter significant) (code line) ∧
    (∀ kept, StopsBeforeComment (line.filter significant) kept → kept <+: code line) ∧
    code (code line) = code line ∧
    (∀ other, Respaced line other → code line = code other) ∧
    ∀ comment,
      (¬ ['/', '/'] <:+: line.filter significant ∧
          (line.filter significant).getLast? = some '/' →
        code (line ++ '/' :: '/' :: comment) = (code line).dropLast) ∧
      (¬ (¬ ['/', '/'] <:+: line.filter significant ∧
          (line.filter significant).getLast? = some '/') →
        code (line ++ '/' :: '/' :: comment) = code line) := by
  obtain ⟨stops, longest⟩ := beforeComment_isLongest (line.filter significant)
  refine ⟨fun _ => not_blank_of_mem_code, slashes_not_infix_beforeComment _, stops, longest,
    code_code line, fun _ => Respaced.code_eq, fun comment => ?_⟩
  rw [← getLast?_beforeComment_eq_slash_iff, code_append_slashes]
  exact ⟨fun slash => if_pos slash, fun other => if_neg other⟩

/-- Behind a slash at the end a comment takes that slash away, wherever blanks stand. Behind two
slashes it is part of the comment that they start. -/
theorem code_canonical_closing_slash :
    StopsBeforeComment ("@a / / b".toList.filter significant) ['@'] ∧
    ['@'] <+: code "@a / / b".toList ∧
    code ("@a / / b".toList ++ '/' :: '/' :: [' ', 'c']) = "@a".toList ∧
    Respaced "@ a /".toList "@a/ ".toList ∧ code "@ a /".toList = code "@a/ ".toList ∧
    code ("@ a /".toList ++ '/' :: '/' :: [' ', 'c']) = "@a".toList := by
  have visible : "@a / / b".toList.filter significant = ['@', 'a', '/', '/', 'b'] := by decide
  have kept : StopsBeforeComment ("@a / / b".toList.filter significant) ['@'] := by
    rw [visible]
    refine ⟨⟨['a', '/', '/', 'b'], rfl⟩, ?_⟩
    intro before after slashes
    cases before with
    | nil => cases slashes
    | cons c rest => exact Nat.succ_le_succ (Nat.zero_le _)
  have respaced : Respaced "@ a /".toList "@a/ ".toList :=
    .both '@' <| .first (Or.inl rfl) <| .both 'a' <| .first (Or.inl rfl) <| .both '/' <|
      .second (Or.inl rfl) .nil
  obtain ⟨_, _, _, longest, _, _, commented⟩ := code_canonical "@a / / b".toList
  obtain ⟨_, _, _, _, _, alike, slashed⟩ := code_canonical "@ a /".toList
  refine ⟨kept, longest _ kept, ?_, respaced, alike _ respaced, ?_⟩
  · rw [(commented [' ', 'c']).2 (by rw [visible]; decide)]
    decide
  · rw [(slashed [' ', 'c']).1 (by decide)]
    decide

end Source

end HackAssembler
