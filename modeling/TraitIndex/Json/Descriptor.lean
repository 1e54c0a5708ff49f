import TraitIndex.Descriptor
import TraitIndex.Json.Document
import TraitIndex.Json.Writer

/-!
# Descriptors in JSON

A descriptor is written as a plain string and read from one, whether it is well formed or not.
-/

namespace TraitIndex.Descriptor

def toJson (descriptor : Descriptor) : Json.Value :=
  .string descriptor.text

def ofJson (text : String) : Except Json.Error Descriptor :=
  match Json.readOnlyString "a string" text.toList with
  | .ok content => .ok ⟨content⟩
  | .error failure => .error (failure.locate text.toList)

end TraitIndex.Descriptor
