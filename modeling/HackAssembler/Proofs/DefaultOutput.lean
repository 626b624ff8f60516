import HackAssembler.Files.Path
import HackAssembler.Proofs.SavedFiles

/-! # The default output path

A path with another extension leads to the file of the path itself only if the file has that
extension already (`FileTree.hasExtension_of_same_location`).
-/

namespace HackAssembler

namespace Path

/-- The last name of a path has an extension: something comes before the last dot, and the
extension follows it. -/
def HasExtension (path extension : String) : Prop :=
  ∃ above stem below, names path = above ++ (stem ++ "." ++ extension) :: below ∧
    (∀ name ∈ below, isIdle name = true) ∧ stem ≠ "" ∧ '.' ∉ extension.toList

/-! ### Names -/

theorem not_mem_of_mem_splitOn {separator : Char} {text part : List Char}
    (member : part ∈ text.splitOn separator) : separator ∉ part := by
  induction text generalizing part with
  | nil =>
      rw [List.splitOn_nil, List.mem_singleton] at member
      rw [member]
      exact List.not_mem_nil
  | cons c rest ih =>
      rw [List.splitOn_cons_eq_if_modifyHead] at member
      split at member
      · rcases List.mem_cons.mp member with rfl | later
        · exact List.not_mem_nil
        · exact ih later
      · next other =>
          obtain ⟨first, others, parts⟩ :=
            List.exists_cons_of_ne_nil (List.splitOn_ne_nil separator rest)
          rw [parts] at ih member
          rcases List.mem_cons.mp member with rfl | later
          · rw [List.mem_cons, not_or]
            exact ⟨fun same => other (by simp [same]), ih List.mem_cons_self⟩
          · exact ih (List.mem_cons_of_mem _ later)

theorem slash_not_mem_of_mem_names {path name : String} (member : name ∈ names path) :
    '/' ∉ name.toList := by
  obtain ⟨part, inside, rfl⟩ := List.mem_map.mp member
  rw [String.toList_ofList]
  exact not_mem_of_mem_splitOn inside

/-- Names without slashes are the names of the path that they form. -/
theorem names_intercalate {parts : List String} (apart : ∀ part ∈ parts, '/' ∉ part.toList)
    (nonempty : parts ≠ []) : names ("/".intercalate parts) = parts := by
  have split : ("/".intercalate parts).toList.splitOn '/' = parts.map String.toList := by
    rw [String.toList_intercalate]
    refine List.splitOn_intercalate '/' ?_ (by simpa using nonempty)
    intro part member
    obtain ⟨name, inside, rfl⟩ := List.mem_map.mp member
    exact apart name inside
  rw [names, split, List.map_map]
  simp

/-! ### Changing the extension -/

theorem stem?_eq_some {name stem : String} (known : stem? name = some stem) :
    stem ≠ "" ∧ ∀ c ∈ stem.toList, c ∈ name.toList := by
  simp only [stem?, Option.ite_none_left_eq_some, Option.some.injEq] at known
  obtain ⟨present, rfl⟩ := known
  refine ⟨by simpa using present, fun c member => ?_⟩
  rw [String.toList_ofList, List.mem_reverse] at member
  exact List.mem_reverse.mp
    ((List.dropWhile_sublist _).subset (List.mem_of_mem_drop member))

theorem eq_of_names_intercalate {above before : List String} {changed last : String}
    (apart : ∀ name ∈ above, '/' ∉ name.toList) (changedApart : '/' ∉ changed.toList)
    (named : names ("/".intercalate (changed :: above).reverse) = before ++ [last]) :
    changed = last := by
  rw [List.reverse_cons, names_intercalate ?_ (by simp)] at named
  · exact (List.append_singleton_inj.mp named).2
  · intro part member
    rcases List.mem_append.mp member with inside | atEnd
    · exact apart part (List.mem_reverse.mp inside)
    · rw [List.mem_singleton.mp atEnd]
      exact changedApart

/-- The last entry that a test fails on stands before entries that pass it. -/
theorem exists_of_dropWhile_reverse {α : Type} {test : α → Bool} {items rest : List α} {item : α}
    (split : items.reverse.dropWhile test = item :: rest) :
    ∃ passing, items = rest.reverse ++ item :: passing ∧ (∀ other ∈ passing, test other = true) ∧
      test item = false := by
  have whole := List.takeWhile_append_dropWhile (p := test) (l := items.reverse)
  have stopped := List.head?_dropWhile_not test items.reverse
  have passing := List.all_eq_true.mp (List.all_takeWhile (p := test) (l := items.reverse))
  rw [split] at whole stopped
  refine ⟨(items.reverse.takeWhile test).reverse, ?_, ?_, by simpa using stopped⟩
  · rw [← List.reverse_inj, List.reverse_append, List.reverse_cons, List.reverse_reverse,
      List.reverse_reverse, List.append_assoc, List.singleton_append, whole]
  · intro other member
    exact passing other (List.mem_reverse.mp member)

theorem dropWhile_reverse_append_singleton {α : Type} {test : α → Bool} {last : α}
    (fails : test last = false) (items : List α) :
    (items ++ [last]).reverse.dropWhile test = last :: items.reverse := by
  rw [List.reverse_append, List.reverse_singleton, List.singleton_append,
    List.dropWhile_cons_of_neg (by simp [fails])]

/-- If the path with another extension ends in a name that a file can have, then the path itself
has such a name last, and it differs from the other one unless it has the extension. -/
theorem exists_of_names_withExtension {path extension last : String} {before : List String}
    (noSlash : '/' ∉ extension.toList)
    (named : names (withExtension path extension) = before ++ [last])
    (proper : isIdle last = false) (noBack : last ≠ "..") :
    ∃ above name below, names path = above ++ name :: below ∧
      (∀ other ∈ below, isIdle other = true) ∧ isIdle name = false ∧ name ≠ ".." ∧
      (last = name → ∃ stem, stem ≠ "" ∧ name = stem ++ "." ++ extension) := by
  unfold withExtension at named
  cases split : (names path).reverse.dropWhile isIdle with
  | nil =>
      simp only [split] at named
      rw [named, dropWhile_reverse_append_singleton proper] at split
      cases split
  | cons name above =>
      simp only [split] at named
      obtain ⟨below, namedPath, idle, nameProper⟩ := exists_of_dropWhile_reverse split
      have inside : ∀ other ∈ name :: above, '/' ∉ other.toList := by
        intro other member
        rw [← split] at member
        exact slash_not_mem_of_mem_names
          (List.mem_reverse.mp ((List.dropWhile_sublist isIdle).subset member))
      have apart : ∀ other ∈ above, '/' ∉ other.toList :=
        fun other member => inside other (List.mem_cons_of_mem _ member)
      have nameApart := inside name List.mem_cons_self
      split at named
      · next back =>
          -- The path is kept, and its last name would be that of the directory above.
          rw [named, dropWhile_reverse_append_singleton proper] at split
          exact absurd ((List.cons.inj split).1.trans back) noBack
      · next notBack =>
          refine ⟨_, name, below, namedPath, idle, nameProper, notBack, ?_⟩
          rintro rfl
          split at named
          · have longer := eq_of_names_intercalate apart
              (by simpa [String.toList_append] using ⟨nameApart, noSlash⟩) named
            have lengths := congrArg (fun text => text.toList.length) longer
            have dot : ".".toList.length = 1 := rfl
            simp only [String.toList_append, List.length_append, dot] at lengths
            omega
          · next stem known =>
              obtain ⟨present, part⟩ := stem?_eq_some known
              split at named
              · have same := eq_of_names_intercalate apart (by decide) named
                exact absurd same.symm notBack
              · have same := eq_of_names_intercalate apart ?_ named
                · exact ⟨stem, present, same.symm⟩
                · simp only [String.toList_append, List.mem_append, not_or]
                  exact ⟨⟨fun member => nameApart (part _ member), by decide⟩, noSlash⟩

end Path

namespace FileTree

variable {tree : FileTree}

theorem eq_of_foldlM_enter_idle {names : List String} {location result : Location}
    (idle : ∀ name ∈ names, Path.isIdle name = true)
    (walked : names.foldlM tree.enter location = .ok result) : result = location := by
  induction names generalizing location with
  | nil => exact (Except.ok.inj walked).symm
  | cons name names ih =>
      rw [List.foldlM_cons] at walked
      obtain ⟨next, entered, rest⟩ := bind_eq_ok_iff.mp walked
      rw [ih (fun other member => idle other (List.mem_cons_of_mem _ member)) rest,
        (eq_of_enter entered).2, if_pos (idle name List.mem_cons_self)]

/-- A path leads to a place with its last name. -/
theorem exists_of_locate {path name : String} {above below : List String} {location : Location}
    (located : tree.locate path = .ok location) (named : Path.names path = above ++ name :: below)
    (idle : ∀ other ∈ below, Path.isIdle other = true) (proper : Path.isIdle name = false)
    (noBack : name ≠ "..") : ∃ directory, location = name :: directory := by
  unfold locate at located
  split at located
  · cases located
  · rw [named, List.foldlM_append] at located
    obtain ⟨directory, _, located⟩ := bind_eq_ok_iff.mp located
    rw [List.foldlM_cons] at located
    obtain ⟨next, entered, rest⟩ := bind_eq_ok_iff.mp located
    refine ⟨directory, ?_⟩
    rw [eq_of_foldlM_enter_idle idle rest, (eq_of_enter entered).2, proper,
      if_neg (by decide), if_neg noBack]

/-- If a path with another extension leads to the place of the path itself, then the path has that
extension. -/
theorem hasExtension_of_same_location {path extension : String} {location : Location}
    (noSlash : '/' ∉ extension.toList) (noDot : '.' ∉ extension.toList)
    (located : tree.locate path = .ok location)
    (changed : tree.locateFile (Path.withExtension path extension) = .ok location) :
    Path.HasExtension path extension := by
  obtain ⟨_, last, _, namedFile, fileProper, fileNoBack, rfl, _⟩ := exists_of_locateFile changed
  obtain ⟨above, name, below, named, idle, proper, noBack, same⟩ :=
    Path.exists_of_names_withExtension noSlash namedFile fileProper fileNoBack
  obtain ⟨_, sameLocation⟩ := exists_of_locate located named idle proper noBack
  obtain ⟨stem, present, rfl⟩ := same (List.cons.inj sameLocation).1
  exact ⟨above, stem, below, named, idle, present, noDot⟩

end FileTree

end HackAssembler
