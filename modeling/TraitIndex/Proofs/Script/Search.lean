import TraitIndex.Proofs.Script.Declaration

/-!
# The search for the assignment

A script is split at an assignment when it consists of some text, an opening, an equals sign and the
rest.  It may be so split at several places; the one with the least text in front counts, and the
table begins behind the blanks at the head of its rest.  An opening without a sign behind it is no
place to split at, so the search passes over it.
-/

namespace TraitIndex.Script

/-- What a declaration has in front of its sign. -/
inductive Opens : List Char → Prop where
  | intro {keyword gap gapBefore : List Char} (known : keyword ∈ keywords) (some : gap ≠ [])
      (blank : gap.all Text.isBlank = true) (blankBefore : gapBefore.all Text.isBlank = true) :
      Opens (keyword ++ (gap ++ (tableName ++ gapBefore)))

/-- The script is `before`, an opening, the sign and `rest`. -/
def Splits (script before rest : List Char) : Prop :=
  ∃ opening, Opens opening ∧ script = before ++ (opening ++ '=' :: rest)

/-- No other way to split the script has less text in front. -/
structure SplitsFirst (script before rest : List Char) : Prop where
  splits : Splits script before rest
  first : ∀ other left, Splits script other left → before.length ≤ other.length

theorem Opens.not_mem {opening : List Char} (opens : Opens opening) : '=' ∉ opening := by
  have visible : Text.isBlank '=' = false := by decide
  have notIn : ∀ gap : List Char, gap.all Text.isBlank = true → '=' ∉ gap := by
    intro gap blank mem
    rw [List.all_eq_true.mp blank _ mem] at visible
    cases visible
  have notInKeyword : ∀ keyword ∈ keywords, '=' ∉ keyword := by decide
  have notInName : '=' ∉ tableName := by decide +kernel
  rcases opens with ⟨known, _, blank, blankBefore⟩
  simp [notInKeyword _ known, notIn _ blank, notInName, notIn _ blankBefore]

theorem declaresAtHead_iff {text : List Char} :
    DeclaresAtHead text ↔ ∃ rest, Splits text [] rest := by
  constructor
  · rintro ⟨_, rest, ⟨known, some, blank, blankBefore, _⟩, rfl⟩
    rename_i gapAfter _
    exact ⟨gapAfter ++ rest, _, .intro known some blank blankBefore, by simp⟩
  · rintro ⟨rest, _, ⟨known, some, blank, blankBefore⟩, rfl⟩
    have noBlanks : ([] : List Char).all Text.isBlank = true := rfl
    exact ⟨_, rest, .intro known some blank blankBefore noBlanks, by simp⟩

theorem splits_append_iff {before text rest : List Char} :
    Splits (before ++ text) before rest ↔ Splits text [] rest := by
  simp [Splits]

/-- What is assigned at the head of a text begins behind the blanks. -/
theorem assignedAtHead?_of_splits {text rest : List Char} (splits : Splits text [] rest) :
    assignedAtHead? text = some (rest.dropWhile Text.isBlank) := by
  rcases splits with ⟨_, ⟨known, some, blank, blankBefore⟩, rfl⟩
  rcases (@dropWhile_isBlank_eq_iff rest _).mp rfl with ⟨gap, blankAfter, same, unblank⟩
  apply assignedAtHead?_eq_some_iff.mpr
  refine ⟨_, .intro known some blank blankBefore blankAfter, ?_, unblank⟩
  simp [← same]

theorem exists_splits_of_assignedAtHead? {text literal : List Char}
    (assigned : assignedAtHead? text = some literal) :
    ∃ rest, Splits text [] rest ∧ literal = rest.dropWhile Text.isBlank := by
  rcases assignedAtHead?_eq_some_iff.mp assigned with ⟨declaration, declares, same, _⟩
  rcases declaresAtHead_iff.mp ⟨declaration, literal, declares, same⟩ with ⟨rest, splits⟩
  rw [assignedAtHead?_of_splits splits] at assigned
  cases assigned
  exact ⟨rest, splits, rfl⟩

theorem not_splits_nil {before rest : List Char} : ¬ Splits [] before rest := by
  rintro ⟨opening, _, same⟩
  simp at same

/-- A script is split at its head or behind its first character. -/
theorem splits_cons_iff {character : Char} {script before rest : List Char} :
    Splits (character :: script) before rest ↔
      before = [] ∧ Splits (character :: script) [] rest ∨
        ∃ later, before = character :: later ∧ Splits script later rest := by
  constructor
  · intro splits
    cases before with
    | nil => exact .inl ⟨rfl, splits⟩
    | cons first later =>
        rcases splits with ⟨opening, opens, same⟩
        cases same
        exact .inr ⟨later, rfl, opening, opens, rfl⟩
  · rintro (⟨rfl, splits⟩ | ⟨later, rfl, opening, opens, rfl⟩)
    · exact splits
    · exact ⟨opening, opens, rfl⟩

theorem literal?_of_splitsFirst {script before rest : List Char}
    (first : SplitsFirst script before rest) :
    literal? script = some (rest.dropWhile Text.isBlank) := by
  rcases first.splits with ⟨opening, opens, rfl⟩
  apply literal?_of_first
  · exact assignedAtHead?_of_splits ⟨opening, opens, rfl⟩
  · rintro late some ⟨front, rfl⟩ declares
    rcases declaresAtHead_iff.mp declares with ⟨left, earlier⟩
    have splits := (@splits_append_iff front _ left).mpr earlier
    rw [← List.append_assoc] at splits
    have le := first.first front left splits
    rw [List.length_append] at le
    exact some (List.length_eq_zero_iff.mp (by omega))

/-- What the search finds is behind the first place to split the script at. -/
theorem exists_splitsFirst {script literal : List Char} (found : literal? script = some literal) :
    ∃ before rest, SplitsFirst script before rest ∧ literal = rest.dropWhile Text.isBlank := by
  induction script with
  | nil => cases found
  | cons character script ih =>
      rw [literal?] at found
      cases assigned : assignedAtHead? (character :: script) with
      | some own =>
          rw [assigned] at found
          cases found
          rcases exists_splits_of_assignedAtHead? assigned with ⟨rest, splits, same⟩
          exact ⟨[], rest, ⟨splits, fun _ _ _ => Nat.zero_le _⟩, same⟩
      | none =>
          rw [assigned] at found
          rcases ih found with ⟨before, rest, first, same⟩
          refine ⟨character :: before, rest, ⟨?_, ?_⟩, same⟩
          · exact splits_cons_iff.mpr (.inr ⟨before, rfl, first.splits⟩)
          · intro other left splits
            rcases splits_cons_iff.mp splits with ⟨_, atHead⟩ | ⟨later, rfl, behind⟩
            · rw [assignedAtHead?_of_splits atHead] at assigned
              cases assigned
            · exact Nat.succ_le_succ (first.first later left behind)

theorem not_splits_of_literal? {script before rest : List Char}
    (nothing : literal? script = none) : ¬ Splits script before rest := by
  induction script generalizing before with
  | nil => exact not_splits_nil
  | cons character script ih =>
      intro splits
      rw [literal?] at nothing
      rcases splits_cons_iff.mp splits with ⟨_, atHead⟩ | ⟨later, _, behind⟩
      · rw [assignedAtHead?_of_splits atHead] at nothing
        cases nothing
      · cases assigned : assignedAtHead? (character :: script) with
        | some own =>
            rw [assigned] at nothing
            cases nothing
        | none =>
            rw [assigned] at nothing
            exact ih nothing behind

theorem literal?_eq_none_iff {script : List Char} :
    literal? script = none ↔ ¬ ∃ before rest, Splits script before rest := by
  constructor
  · rintro nothing ⟨before, rest, splits⟩
    exact not_splits_of_literal? nothing splits
  · intro unsplit
    rw [Option.eq_none_iff_forall_ne_some]
    intro literal found
    rcases exists_splitsFirst found with ⟨before, rest, first, _⟩
    exact unsplit ⟨before, rest, first.splits⟩

/-- A place to split a longer script at is one in the script itself, unless the script ends before the
sign. -/
theorem splits_append_cases {script suffix other left : List Char}
    (splits : Splits (script ++ suffix) other left) :
    (∃ rest, Splits script other rest) ∨
      ∃ opening more, Opens opening ∧ other ++ opening = script ++ more := by
  rcases splits with ⟨opening, opens, same⟩
  rw [← List.append_assoc] at same
  rcases List.append_eq_append_iff.mp same with ⟨more, within, _⟩ | ⟨more, within, behind⟩
  · exact .inr ⟨opening, more, opens, within⟩
  · cases more with
    | nil => exact .inr ⟨opening, [], opens, by simp [within]⟩
    | cons sign rest =>
        cases behind
        exact .inl ⟨rest, opening, opens, by simp [within]⟩

/-- Text behind a script does not move the first place to split it at. -/
theorem SplitsFirst.append {script before rest : List Char} (first : SplitsFirst script before rest)
    (suffix : List Char) : SplitsFirst (script ++ suffix) before (rest ++ suffix) := by
  rcases first.splits with ⟨opening, opens, split⟩
  refine ⟨⟨opening, opens, by simp [split]⟩, ?_⟩
  intro other left splits
  rcases splits_append_cases splits with ⟨shorter, inside⟩ | ⟨early, more, earlyOpens, same⟩
  · exact first.first other shorter inside
  · rw [split, List.append_assoc] at same
    rcases List.append_eq_append_iff.mp same with ⟨late, rfl, within⟩ | ⟨late, rfl, _⟩
    · -- an opening that reaches beyond the script would contain the sign of the first split
      exact absurd (by simp [within]) earlyOpens.not_mem
    · simp

end TraitIndex.Script
