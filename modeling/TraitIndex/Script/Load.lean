import TraitIndex.Script.Discovery
import TraitIndex.Script.Table

/-!
# Loading scripts

A script is read as UTF-8 text and turned into a fragment whose scope comes from its path.
-/

namespace TraitIndex.Script

def readText (files : FileSystem) (path : Path) : Except LoadError String :=
  match files.read path with
  | .error fault => .error (.unreadable path (.fileSystem fault))
  | .ok contents =>
      match Text.Utf8.decode? contents with
      | none => .error (.unreadable path .notUtf8)
      | some text => .ok (String.ofList text)

def load (files : FileSystem) (root path : Path) : Except LoadError Fragment :=
  match readText files path with
  | .error error => .error error
  | .ok text => parse (scope? root path) text

end TraitIndex.Script
