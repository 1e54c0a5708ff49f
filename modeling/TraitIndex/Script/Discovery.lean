import TraitIndex.Script.FileName
import TraitIndex.Script.Error

/-!
# Finding scripts

Scripts are looked for below a root.  The place of a script below the root names the trait that it
documents: the directories on the way are the modules, and the file name holds the trait.
-/

namespace TraitIndex.Script

/-- The scope of a script, unless it is not below the root or not named as a script. -/
def scope? (root path : Path) : Option String := do
  let components ← root.below? path
  match components.getLast? with
  | some (.name name) =>
      let traitName ← traitName? name
      let modules ← components.dropLast.mapM Path.Component.text?
      return "::".intercalate (modules ++ [traitName])
  | _ => none

/-- The scripts at and below a root, as their paths. -/
def discover (files : FileSystem) (root : Path) : Except LoadError (List Path) :=
  match files.walk root with
  | .error (path, fault) => .error (.noTree path fault)
  | .ok paths =>
      .ok (paths.filter fun path => (path.fileName?.map isScriptName).getD false)

end TraitIndex.Script
