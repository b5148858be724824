import Whisker.Text.Basic

/-! What is wrong with a setting, and where. -/

namespace Whisker.Settings

inductive ProblemKind where
  | unknownField
  | delimiters
  | notText
  | textNotUtf8
  | notList
  | notBool
  | boolUnreadable
  | notInt
  | intUnreadable
  | intTooLong
  | intHasFraction
  | notFinite
  | belowMinimum
  | notPath
  | nameNotText
deriving DecidableEq

namespace ProblemKind

/-- The word under which a problem is reported. -/
def code : ProblemKind → String
  | .unknownField => "extra_forbidden"
  | .delimiters => "value_error"
  | .notText => "string_type"
  | .textNotUtf8 => "string_unicode"
  | .notList => "list_type"
  | .notBool => "bool_type"
  | .boolUnreadable => "bool_parsing"
  | .notInt => "int_type"
  | .intUnreadable => "int_parsing"
  | .intTooLong => "int_parsing_size"
  | .intHasFraction => "int_from_float"
  | .notFinite => "finite_number"
  | .belowMinimum => "greater_than_equal"
  | .notPath => "path_type"
  | .nameNotText => "invalid_key"

end ProblemKind

/-- A step into the settings: to an option by its name, or to an item by its number. -/
inductive Step where
  | number (i : Int)
  | name (t : Text)
deriving DecidableEq

namespace Step

/-- Numbers come before names. -/
def le : Step → Step → Bool
  | .number i, .number j => decide (i ≤ j)
  | .number _, .name _ => true
  | .name _, .number _ => false
  | .name s, .name t => Text.le s t

/-- The order of places: by their first difference, a place before those inside it. -/
def placeLe : List Step → List Step → Bool
  | [], _ => true
  | _ :: _, [] => false
  | a :: as, b :: bs => if a = b then placeLe as bs else a.le b

end Step

/-- A problem at the place that the steps lead to. -/
structure Problem where
  place : List Step
  kind : ProblemKind
deriving DecidableEq

end Whisker.Settings
