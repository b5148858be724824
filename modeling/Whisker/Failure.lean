import Whisker.Calendar
import Whisker.Settings.Problem
import Whisker.Template.Fault
import Whisker.Text.Numeral

/-! Everything that can go wrong, by cause. -/

namespace Whisker

inductive Failure where
  -- templates
  | template (e : TemplateError)
  | unknownPragma (name : Text)
  | unknownFilter (name : Text)
  | partialNotFound (name : Text)
  /-- `chain` holds the names of the inclusions, outermost first. -/
  | inclusionTooDeep (chain : List Text)
  -- use of an engine
  | unstructuredView (kind : Text)
  | filterNotCallable (name : Text)
  | fixedTemplates
  | noSuchResolver (kind : Text)
  -- settings and files
  | badOptions (problems : List Settings.Problem)
  | badSettings (problems : List Settings.Problem)
  | badSettingsFile (path : Text) (problems : List Settings.Problem)
  | settingsNotFound (path : Text)
  | settingsUnreadable (path : Text)
  | settingsNotMapping (path : Text)
  | badDelimiters (given : Text)
  | notADirectory (path : Text)
  | undecodable
  | emptySeparator
  | emptyFileName (path : Text)
  | badFileName (name : Text)
  | fileNameTooLong
  | nulInPath
  -- numbers
  /-- A text that is no whole number in its base. -/
  | badNumeral (base : Nat) (given : Text)
  | numeralTooLong (digits : Nat)
  | unwritableNumber
  | badDecimal (given : Text)
  | emptyNumeral
  | notInCalendar (fault : CalendarFault)
  | pastCalendar
  /-- A number that is no code point. -/
  | badCode
  | codeTooLarge
  -- values
  | negativeLength
  | lengthTooLarge
  | outOfMemory
  | unknownWord
  | repeatedKey
  | noSuchArgument
  | noSuchMember (name : Text)
  | emptyStack
  | blankPragma
  /-- A call with arguments that the function does not take, or a value of an unfit kind. -/
  | unfit
  /-- Raised by a function of the view. -/
  | raised (kind message : Text)
  /-- The nesting of sections, inclusions and calls exceeds the depth that was allowed. -/
  | tooDeep
deriving DecidableEq

namespace Failure

/-- Names with arrows between them. -/
def chainText (chain : List Text) : String := (Text.join " -> ".toList chain).string

/-- A quoted numeral, cut off where it gets long. -/
def shownNumeral (given : Text) : Text := List.take 200 (Text.quoted given)

def tooManyDigits : String :=
  s!"Exceeds the limit ({Text.longestNumeral} digits) for integer string conversion"

def digitsRemedy : String := "use sys.set_int_max_str_digits() to increase the limit"

def message : Failure → String
  | .template e => e.message
  | .unknownPragma name => s!"Unknown pragma '{name.string}'"
  | .unknownFilter name => s!"Unknown filter '{name.string}'"
  | .partialNotFound name => s!"Partial not found: '{name.string}'"
  | .inclusionTooDeep chain =>
    s!"Partial inclusion depth exceeded ({chain.length}): {chainText chain}"
  | .unstructuredView kind => s!"View must be a mapping or an object, got {kind.string}"
  | .filterNotCallable name => s!"Filter '{name.string}' must be callable"
  | .fixedTemplates => "Engine resolver does not accept in-memory templates"
  | .noSuchResolver kind => s!"Unable to find resolver of type '{kind.string}'"
  | .badOptions _ => "Invalid engine options"
  | .badSettings _ => "Invalid settings"
  | .badSettingsFile path _ => s!"Invalid config {path.string}"
  | .settingsNotFound path => s!"Config file not found: {path.string}"
  | .settingsUnreadable path => s!"Invalid YAML in {path.string}"
  | .settingsNotMapping path => s!"YAML must be a mapping: {path.string}"
  | .badDelimiters given => s!"Delimiters must be a pair of non-empty strings, got {given.string}"
  | .notADirectory path => s!"Template path is not a directory: {path.string}"
  | .undecodable => "The file is not UTF-8 text"
  | .emptySeparator => "empty separator"
  | .emptyFileName path => s!"PosixPath({(Text.quoted path).string}) has an empty name"
  | .badFileName name => s!"Invalid name {(Text.quoted name).string}"
  | .fileNameTooLong => "File name too long"
  | .nulInPath => "embedded null byte"
  | .badNumeral base given =>
    s!"invalid literal for int() with base {base}: {(shownNumeral given).string}"
  | .numeralTooLong digits => s!"{tooManyDigits}: value has {digits} digits; {digitsRemedy}"
  | .unwritableNumber => s!"{tooManyDigits}; {digitsRemedy}"
  | .badDecimal given => s!"could not convert string to float: {(Text.quoted given).string}"
  | .emptyNumeral => "string index out of range"
  | .notInCalendar fault => fault.message
  | .pastCalendar => "date value out of range"
  | .badCode => "chr() arg not in range(0x110000)"
  | .codeTooLarge => "The code point is too large"
  | .negativeLength => "__len__() should return >= 0"
  | .lengthTooLarge => "The length is too large"
  | .outOfMemory => "The items need more memory than there is"
  | .unknownWord => "Unknown word"
  | .repeatedKey => "A key occurs twice"
  | .noSuchArgument => "tuple index out of range"
  | .noSuchMember name => s!"object has no attribute {(Text.quoted name).string}"
  | .emptyStack => "pop from empty list"
  | .blankPragma => "list index out of range"
  | .unfit => "Unfit value"
  | .raised _ message => message.string
  | .tooDeep => "Nested too deeply"

end Failure

end Whisker
