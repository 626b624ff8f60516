import HackAssembler.Machine.Field

/-! # Codebooks

A codebook translates the mnemonics of one field into bit patterns and back. No mnemonic and no
pattern occurs twice, so either direction determines the other; every pattern fits the field; and
a field that may be absent has no mnemonic for the pattern of its absence.
-/

namespace HackAssembler

/-- The mnemonics of a field with their patterns. -/
structure Codebook (field : Field) where
  /-- The mnemonics with their patterns, in the order in which they were written. -/
  entries : List (String × Nat)
  mnemonics_nodup : (entries.map Prod.fst).Nodup
  patterns_nodup : (entries.map Prod.snd).Nodup
  patterns_fit : ∀ entry ∈ entries, entry.2 < field.capacity
  patterns_unreserved : ∀ entry ∈ entries, field.reserves entry.2 = false

namespace Codebook

variable {field : Field}

def pattern? (book : Codebook field) (mnemonic : String) : Option Nat :=
  (book.entries.find? fun entry => entry.1 = mnemonic).map Prod.snd

def mnemonic? (book : Codebook field) (pattern : Nat) : Option String :=
  (book.entries.find? fun entry => entry.2 = pattern).map Prod.fst

def byPattern (book : Codebook field) : List (String × Nat) :=
  (List.range field.capacity).filterMap fun pattern =>
    (book.mnemonic? pattern).map fun mnemonic => (mnemonic, pattern)

def empty (field : Field) : Codebook field where
  entries := []
  mnemonics_nodup := List.nodup_nil
  patterns_nodup := List.nodup_nil
  patterns_fit := by simp
  patterns_unreserved := by simp

def add (book : Codebook field) (mnemonic : String) (pattern : Nat)
    (newMnemonic : mnemonic ∉ book.entries.map Prod.fst)
    (newPattern : book.mnemonic? pattern = none)
    (fits : pattern < field.capacity) (unreserved : field.reserves pattern = false) :
    Codebook field where
  entries := book.entries ++ [(mnemonic, pattern)]
  mnemonics_nodup := by
    rw [List.map_append, List.nodup_append]
    refine ⟨book.mnemonics_nodup, by simp, ?_⟩
    intro known member other only same
    simp only [List.map_cons, List.map_nil, List.mem_singleton] at only
    exact newMnemonic (by rw [← only, ← same]; exact member)
  patterns_nodup := by
    rw [List.map_append, List.nodup_append]
    refine ⟨book.patterns_nodup, by simp, ?_⟩
    intro known member other only same
    simp only [List.map_cons, List.map_nil, List.mem_singleton] at only
    obtain ⟨entry, present, carried⟩ := List.mem_map.mp member
    simp only [mnemonic?, Option.map_eq_none_iff, List.find?_eq_none, decide_eq_true_eq]
      at newPattern
    exact newPattern entry present (by rw [carried, same, only])
  patterns_fit := by
    intro entry member
    rcases List.mem_append.mp member with earlier | last
    · exact book.patterns_fit entry earlier
    · rw [List.mem_singleton.mp last]
      exact fits
  patterns_unreserved := by
    intro entry member
    rcases List.mem_append.mp member with earlier | last
    · exact book.patterns_unreserved entry earlier
    · rw [List.mem_singleton.mp last]
      exact unreserved

/-! ### Either direction determines the other -/

theorem find?_eq_some_of_mem {β : Type} [DecidableEq β] {entries : List (String × Nat)}
    {key : String × Nat → β} {entry : String × Nat} (distinct : (entries.map key).Nodup)
    (member : entry ∈ entries) :
    (entries.find? fun other => key other = key entry) = some entry := by
  obtain ⟨before, after, rfl⟩ := List.append_of_mem member
  refine List.find?_eq_some_iff_append.mpr ⟨decide_eq_true rfl, before, after, rfl, ?_⟩
  intro other earlier
  rw [List.map_append] at distinct
  have apart : key other ≠ key entry :=
    (List.nodup_append.mp distinct).2.2 _ (List.mem_map_of_mem earlier) _ (by simp)
  simpa using apart

theorem mem_entries_of_pattern? {book : Codebook field} {mnemonic : String} {pattern : Nat}
    (known : book.pattern? mnemonic = some pattern) : (mnemonic, pattern) ∈ book.entries := by
  obtain ⟨⟨other, _⟩, found, rfl⟩ := Option.map_eq_some_iff.mp known
  have same := List.find?_some found
  rw [← of_decide_eq_true same]
  exact List.mem_of_find?_eq_some found

theorem pattern?_eq_some_iff {book : Codebook field} {mnemonic : String} {pattern : Nat} :
    book.pattern? mnemonic = some pattern ↔ (mnemonic, pattern) ∈ book.entries := by
  refine ⟨mem_entries_of_pattern?, fun member => ?_⟩
  exact congrArg (Option.map Prod.snd) (find?_eq_some_of_mem book.mnemonics_nodup member)

theorem mnemonic?_eq_some_iff {book : Codebook field} {mnemonic : String} {pattern : Nat} :
    book.mnemonic? pattern = some mnemonic ↔ (mnemonic, pattern) ∈ book.entries := by
  refine ⟨fun known => ?_, fun member => ?_⟩
  · obtain ⟨⟨_, other⟩, found, rfl⟩ := Option.map_eq_some_iff.mp known
    have same := List.find?_some found
    rw [← of_decide_eq_true same]
    exact List.mem_of_find?_eq_some found
  · exact congrArg (Option.map Prod.fst) (find?_eq_some_of_mem book.patterns_nodup member)

theorem mnemonic?_of_pattern? {book : Codebook field} {mnemonic : String} {pattern : Nat}
    (known : book.pattern? mnemonic = some pattern) : book.mnemonic? pattern = some mnemonic :=
  mnemonic?_eq_some_iff.mpr (mem_entries_of_pattern? known)

theorem reserves_of_pattern? {book : Codebook field} {mnemonic : String} {pattern : Nat}
    (known : book.pattern? mnemonic = some pattern) : field.reserves pattern = false :=
  book.patterns_unreserved _ (mem_entries_of_pattern? known)

end Codebook

end HackAssembler
