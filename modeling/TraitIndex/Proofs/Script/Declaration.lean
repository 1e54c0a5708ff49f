import TraitIndex.Script.Assignment

/-!
# Declarations

The pattern of a declaration, without the search for it: a keyword, blanks, the name of the table,
an equals sign and blanks around it.  A text declares a literal when it consists of such a
declaration and the literal, which begins where the blanks end.  The search takes apart exactly the
texts that do, and from a whole script it takes the first end that does.
-/

namespace TraitIndex.Script

/-- The texts that the pattern of a declaration matches. -/
inductive Declares : List Char → Prop where
  | intro {keyword gap gapBefore gapAfter : List Char} (known : keyword ∈ keywords)
      (some : gap ≠ []) (blank : gap.all Text.isBlank = true)
      (blankBefore : gapBefore.all Text.isBlank = true)
      (blankAfter : gapAfter.all Text.isBlank = true) :
      Declares (keyword ++ (gap ++ (tableName ++ (gapBefore ++ '=' :: gapAfter))))

def DeclaresAtHead (text : List Char) : Prop :=
  ∃ declaration rest, Declares declaration ∧ text = declaration ++ rest

def Unblank (text : List Char) : Prop :=
  ∀ first ∈ text.head?, Text.isBlank first = false

theorem dropWhile_isBlank_eq_iff {text rest : List Char} :
    text.dropWhile Text.isBlank = rest ↔
      ∃ gap, gap.all Text.isBlank = true ∧ text = gap ++ rest ∧ Unblank rest := by
  constructor
  · rintro rfl
    refine ⟨text.takeWhile Text.isBlank, ?_, ?_, ?_⟩
    · exact List.all_takeWhile
    · exact List.takeWhile_append_dropWhile.symm
    · intro first head
      have visible := List.head?_dropWhile_not Text.isBlank text
      rw [Option.mem_def.mp head] at visible
      simpa using visible
  · rintro ⟨gap, blank, rfl, unblank⟩
    rw [List.dropWhile_append_of_pos (by simpa using blank)]
    cases rest with
    | nil => rfl
    | cons first rest => simp [unblank first rfl]

theorem after?_eq_some_iff {word text rest : List Char} :
    after? word text = some rest ↔ text = word ++ rest := by
  unfold after?
  constructor
  · intro found
    split at found
    · rename_i isPrefix
      rcases List.isPrefixOf_iff_prefix.mp isPrefix with ⟨left, rfl⟩
      simp at found
      rw [found]
    · cases found
  · rintro rfl
    simp

theorem afterBlanks?_eq_some_iff {text rest : List Char} :
    afterBlanks? text = some rest ↔
      ∃ gap, gap ≠ [] ∧ gap.all Text.isBlank = true ∧ text = gap ++ rest ∧ Unblank rest := by
  unfold afterBlanks?
  constructor
  · intro found
    split at found
    · rename_i starts
      cases found
      rcases dropWhile_isBlank_eq_iff.mp rfl with ⟨gap, blank, same, unblank⟩
      refine ⟨gap, ?_, blank, same, unblank⟩
      rintro rfl
      rw [List.nil_append] at same
      rw [← same] at unblank
      cases text with
      | nil => simp at starts
      | cons first text => simp [unblank first rfl] at starts
    · cases found
  · rintro ⟨gap, some, blank, rfl, unblank⟩
    have dropped := dropWhile_isBlank_eq_iff.mpr ⟨gap, blank, rfl, unblank⟩
    cases gap with
    | nil => exact absurd rfl some
    | cons first gap =>
        rw [List.all_cons, Bool.and_eq_true] at blank
        rw [if_pos (by simp [blank.1]), dropped]

theorem unblank_tableName (text : List Char) : Unblank (tableName ++ text) := by
  intro first head
  have start : tableName.head? = some 'i' := by decide +kernel
  rw [List.head?_append, start] at head
  cases head
  decide

theorem declared?_eq_some_iff {text keyword literal : List Char} :
    declared? text keyword = some literal ↔
      ∃ gap gapBefore gapAfter, gap ≠ [] ∧ gap.all Text.isBlank = true ∧
        gapBefore.all Text.isBlank = true ∧ gapAfter.all Text.isBlank = true ∧
        text = keyword ++ (gap ++ (tableName ++ (gapBefore ++ '=' :: (gapAfter ++ literal)))) ∧
        Unblank literal := by
  have pure_eq : ∀ found : List Char, (pure found : Option (List Char)) = some found :=
    fun _ => rfl
  simp only [declared?, Option.bind_eq_bind, Option.bind_eq_some_iff, after?_eq_some_iff,
    afterBlanks?_eq_some_iff, dropWhile_isBlank_eq_iff, pure_eq, Option.some.injEq]
  constructor
  · rintro ⟨_, rfl, _, ⟨gap, some, blank, rfl, _⟩, _, rfl, _,
      ⟨gapBefore, blankBefore, rfl, _⟩, gapAfter, blankAfter, rfl, unblank⟩
    exact ⟨gap, gapBefore, gapAfter, some, blank, blankBefore, blankAfter, rfl, unblank⟩
  · rintro ⟨gap, gapBefore, gapAfter, some, blank, blankBefore, blankAfter, rfl, unblank⟩
    refine ⟨_, rfl, _, ⟨gap, some, blank, rfl, unblank_tableName _⟩, _, rfl, _,
      ⟨gapBefore, blankBefore, rfl, ?_⟩, gapAfter, blankAfter, rfl, unblank⟩
    intro first head
    cases head
    decide

theorem keyword_eq_of_append_eq {keyword other rest rest' : List Char}
    (known : keyword ∈ keywords) (otherKnown : other ∈ keywords)
    (same : keyword ++ rest = other ++ rest') : keyword = other := by
  simp only [keywords, List.mem_cons, List.not_mem_nil, or_false] at known otherKnown
  rcases known with rfl | rfl | rfl <;> rcases otherKnown with rfl | rfl | rfl <;> simp at same ⊢

theorem assignedAtHead?_eq_some_iff {text literal : List Char} :
    assignedAtHead? text = some literal ↔
      ∃ declaration, Declares declaration ∧ text = declaration ++ literal ∧ Unblank literal := by
  constructor
  · intro found
    rcases List.exists_of_findSome?_eq_some found with ⟨keyword, known, declared⟩
    rcases declared?_eq_some_iff.mp declared with
      ⟨gap, gapBefore, gapAfter, some, blank, blankBefore, blankAfter, rfl, unblank⟩
    refine ⟨_, .intro known some blank blankBefore blankAfter, ?_, unblank⟩
    simp
  · rintro ⟨_, ⟨known, some, blank, blankBefore, blankAfter⟩, rfl, unblank⟩
    rename_i keyword gap gapBefore gapAfter
    have declared : declared? (keyword ++ (gap ++ (tableName ++ (gapBefore ++ '=' :: gapAfter))) ++
        literal) keyword = .some literal := by
      apply declared?_eq_some_iff.mpr
      refine ⟨gap, gapBefore, gapAfter, some, blank, blankBefore, blankAfter, ?_, unblank⟩
      simp
    -- no other keyword is at the head of the same text, so the order of the keywords is irrelevant
    cases found : assignedAtHead?
        (keyword ++ (gap ++ (tableName ++ (gapBefore ++ '=' :: gapAfter))) ++ literal) with
    | none =>
        have nothing := List.findSome?_eq_none_iff.mp found keyword known
        rw [declared] at nothing
        cases nothing
    | some assigned =>
        rcases List.exists_of_findSome?_eq_some found with ⟨other, otherKnown, otherDeclared⟩
        rcases declared?_eq_some_iff.mp otherDeclared with ⟨_, _, _, _, _, _, _, same, _⟩
        rw [List.append_assoc] at same
        rw [← keyword_eq_of_append_eq known otherKnown same, declared] at otherDeclared
        exact otherDeclared.symm

theorem assignedAtHead?_eq_none_iff {text : List Char} :
    assignedAtHead? text = none ↔ ¬ DeclaresAtHead text := by
  constructor
  · rintro nothing ⟨_, rest, ⟨known, some, blank, blankBefore, blankAfter⟩, rfl⟩
    rename_i keyword gap gapBefore gapAfter
    rcases (@dropWhile_isBlank_eq_iff rest _).mp rfl with ⟨more, blankMore, same, unblank⟩
    -- the blanks behind the declaration are part of a longer one
    have blankAll : (gapAfter ++ more).all Text.isBlank = true := by
      rw [List.all_append, blankAfter, blankMore]
      rfl
    have assigned := assignedAtHead?_eq_some_iff.mpr
      ⟨_, .intro known some blank blankBefore blankAll, rfl, unblank⟩
    rw [same] at nothing
    simp only [List.append_assoc, List.cons_append] at nothing assigned
    rw [nothing] at assigned
    cases assigned
  · intro undeclared
    rw [Option.eq_none_iff_forall_ne_some]
    intro literal found
    rcases assignedAtHead?_eq_some_iff.mp found with ⟨declaration, declares, same, _⟩
    exact undeclared ⟨declaration, literal, declares, same⟩

/-- The first declaration of a script counts. -/
theorem literal?_of_first {before text literal : List Char}
    (assigned : assignedAtHead? text = some literal)
    (first : ∀ late, late ≠ [] → late <:+ before → ¬ DeclaresAtHead (late ++ text)) :
    literal? (before ++ text) = some literal := by
  induction before with
  | nil =>
      cases text with
      | nil => cases assigned
      | cons character text => rw [List.nil_append, literal?, assigned]
  | cons character before ih =>
      have undeclared := first (character :: before) (by simp) (List.suffix_refl _)
      rw [List.cons_append] at undeclared ⊢
      rw [literal?, assignedAtHead?_eq_none_iff.mpr undeclared]
      apply ih
      intro late some isSuffix
      exact first late some (isSuffix.trans (List.suffix_cons character before))

end TraitIndex.Script
