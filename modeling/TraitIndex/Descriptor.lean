import TraitIndex.Text.Blank

/-!
# Descriptors

A descriptor is one rendered fact, that some type implements some trait.  Its text is opaque: it is
kept as it was given, and only asked whether it shows anything.
-/

namespace TraitIndex

structure Descriptor where
  text : String
  deriving DecidableEq, Repr, Inhabited

namespace Descriptor

def isWellFormed (descriptor : Descriptor) : Bool :=
  !Text.allBlank descriptor.text

theorem isWellFormed_iff_trim_ne_empty (descriptor : Descriptor) :
    descriptor.isWellFormed = true ↔ Text.trim descriptor.text ≠ "" := by
  rw [ne_eq, Text.trim_eq_empty_iff, isWellFormed]
  cases Text.allBlank descriptor.text <;> simp

end Descriptor

end TraitIndex
