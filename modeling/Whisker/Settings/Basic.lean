import Whisker.Library.Path
import Whisker.Library.Resolver
import Whisker.Template.Tag

/-! The settings of an engine. -/

namespace Whisker

structure Settings where
  /-- The delimiters that each template starts with. -/
  delimiters : Delimiters
  /-- The pragmas enabled in each template. -/
  pragmas : List Text
  /-- Whether each line of a standalone partial gets the indent of its tag, or the first only. -/
  indentPartials : Bool
  /-- Whether a missing partial is a failure, or renders as nothing. -/
  strictPartials : Bool
  strictPragmas : Bool
  /-- Whether partials start with the pragmas of the including template. -/
  partialsInheritPragmas : Bool
  /-- The greatest length of a chain of inclusions. -/
  maxPartialDepth : Nat
  templatePaths : List Path
  templateSuffix : Text
  cache : Bool

namespace Settings

def standard : Settings where
  delimiters := .standard
  pragmas := []
  indentPartials := true
  strictPartials := true
  strictPragmas := true
  partialsInheritPragmas := false
  maxPartialDepth := 64
  templatePaths := []
  templateSuffix := Shelf.standardSuffix
  cache := true

end Settings

end Whisker
