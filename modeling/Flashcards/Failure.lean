import Flashcards.Files.Fault
import Flashcards.Json.Fault
import Flashcards.Side
import Flashcards.Template.Error
import Flashcards.Text.Utf8

/-!
# Failures

Everything that can keep an operation from giving its result, each cause with its own message. The
causes fall into families, and a command that reports failures instead of stopping says which
families it reports.
-/

namespace Flashcards

/-- Why the text of a data file cannot be used. -/
inductive DataFault
  /-- There can be no such file. -/
  | path (fault : Files.Fault)
  | encoding (fault : Utf8.Fault)
  | json (fault : Json.Fault)
  deriving DecidableEq, Repr

/-- The fault in words. -/
def DataFault.message : DataFault → String
  | .path fault => fault.message
  | .encoding fault => fault.message
  | .json fault => fault.message

/-- What is wrong with data that was given: fields, a card's number, or a deck. -/
inductive InputFault
  /-- The fields are not JSON. -/
  | badFields (cause : Json.Fault)
  | fieldsNotObject (kind : String)
  | fieldNotText (name kind : String)
  /-- The number of a card, given under this name, is below zero. -/
  | negativeOrdinal (name shown : String)
  /-- A deck file is not text or not JSON. -/
  | badDeckFile (path : String) (cause : DataFault)
  | deckNotObject
  | deckUnnamed
  | notesNotList
  | noteTypeNotObject
  | unknownKind (shown : String)
  | fieldNamesNotTexts
  | fieldNamesRepeated
  | noTemplates
  | templateNotObject (index : Nat)
  /-- The member of an object of the deck has to be a text. -/
  | memberNotText (place member : String)
  | noteNotObject (index : Nat)
  | noteFields (index : Nat) (cause : InputFault)
  | tagsNotTexts (index : Nat)
  deriving Repr

/-- The fault in words. -/
def InputFault.message : InputFault → String
  | .badFields cause => "Invalid JSON: " ++ cause.message
  | .fieldsNotObject kind => s!"fields must be a JSON object, got {kind}"
  | .fieldNotText name kind => s!"field {Text.quoted name} must be a string, got {kind}"
  | .negativeOrdinal name shown => s!"{name} must be >= 0, got {shown}"
  | .badDeckFile path cause => s!"Invalid JSON in {path}: {cause.message}"
  | .deckNotObject => "deck file must be a JSON object"
  | .deckUnnamed => "deck must be a non-empty string"
  | .notesNotList => "notes must be a list"
  | .noteTypeNotObject => "note_type must be an object"
  | .unknownKind shown => s!"note_type.kind must be one of ('standard', 'cloze'), got {shown}"
  | .fieldNamesNotTexts => "note_type.fields must be a list of strings"
  | .fieldNamesRepeated => "note_type.fields must be unique"
  | .noTemplates => "note_type.templates must be a non-empty list"
  | .templateNotObject index => s!"note_type.templates[{index}] must be an object"
  | .memberNotText place member => s!"{place}.{member} must be a string"
  | .noteNotObject index => s!"notes[{index}] must be an object"
  | .noteFields index cause => s!"notes[{index}]: {cause.message}"
  | .tagsNotTexts index => s!"notes[{index}].tags must be a list of strings"

/-- A value of a kind that cannot be used the way it is needed. -/
inductive ShapeFault
  /-- It has no items to go through. -/
  | notIterable (kind : String)
  /-- It has no items that could be joined. -/
  | notJoinable
  /-- An item that is to be joined is not a text. -/
  | itemNotText (index : Nat) (kind : String)
  /-- Nothing of this name can be asked of it. -/
  | noMember (kind member : String)
  /-- It names no file. -/
  | notPath (kind : String)
  /-- It is neither before nor behind a value of the other kind. -/
  | notOrdered (kind other : String)
  /-- A text in it is not made of characters. -/
  | loneSurrogate
  deriving DecidableEq, Repr

/-- The fault in words. -/
def ShapeFault.message : ShapeFault → String
  | .notIterable kind => s!"'{kind}' object is not iterable"
  | .notJoinable => "can only join an iterable"
  | .itemNotText index kind => s!"sequence item {index}: expected str instance, {kind} found"
  | .noMember kind member => s!"'{kind}' object has no attribute '{member}'"
  | .notPath kind => s!"expected str, bytes or os.PathLike object, not {kind}"
  | .notOrdered kind other =>
    s!"'<' not supported between instances of '{kind}' and '{other}'"
  | .loneSurrogate => Json.Refusal.loneSurrogate.message

/-- Why an operation gives no result. -/
inductive Failure
  /-- A template cannot be read; which one of a card it is, where that is known. -/
  | template (face : Option Face) (error : Template.Error)
  | input (fault : InputFault)
  | numeral (fault : Numeral.Fault)
  | negativeOrdinal (ordinal : Int)
  | negativeCapacity (capacity : Int)
  | unknownFilter (name : String)
  | unknownPolicy (name : String)
  | configNotObject (path : String)
  | data (fault : DataFault)
  | file (fault : Files.Fault)
  /-- No note of a deck went into a package. -/
  | nothingExported
  | shape (fault : ShapeFault)
  deriving Repr

namespace Failure

/-- The failure in words. -/
def message : Failure → String
  | .template none error => error.message
  | .template (some face) error => s!"{face.name} template: {error.message}"
  | .input fault => fault.message
  | .numeral fault => fault.message
  | .negativeOrdinal ordinal => s!"card_ordinal must be >= 0, got {ordinal}"
  | .negativeCapacity capacity => s!"max_entries must be >= 0, got {capacity}"
  | .unknownFilter name => s!"{Text.quoted name} is not a valid FilterKind"
  | .unknownPolicy name =>
    "filters.unknown_filter must be one of ('passthrough', 'error'), got " ++ Text.quoted name
  | .configNotObject path => s!"config must be a JSON object: {path}"
  | .data fault => fault.message
  | .file fault => fault.message
  | .nothingExported => "No notes exported. Does the deck file contain notes?"
  | .shape fault => fault.message

/-- What kind of trouble a failure is. -/
inductive Family
  /-- A template or given data is wrong. -/
  | rendering
  /-- Some other value is out of range or malformed. -/
  | value
  /-- The file tree refused a request. -/
  | system
  /-- A package would have been empty. -/
  | emptyExport
  /-- A value is of a kind nobody allowed for. -/
  | unforeseen
  /-- The data hold a text that is not made of characters. -/
  | foreign
  deriving DecidableEq, Repr

/-- The family of a failure. -/
def family : Failure → Family
  | .template _ _ => .rendering
  | .input _ => .rendering
  | .numeral .infinite => .unforeseen
  | .numeral (.notNumeric _) => .unforeseen
  | .numeral _ => .value
  | .negativeOrdinal _ => .value
  | .negativeCapacity _ => .value
  | .unknownFilter _ => .value
  | .unknownPolicy _ => .value
  | .configNotObject _ => .value
  | .data _ => .value
  | .file fault => if fault.isRefusal then .system else .value
  | .nothingExported => .emptyExport
  | .shape .loneSurrogate => .foreign
  | .shape _ => .unforeseen

/-- The failure to read a value from a text, where faults of the text are told by the caller. -/
def ofRefusal (tell : Json.Fault → Failure) : Json.Refusal → Failure
  | .fault cause => tell cause
  | .loneSurrogate => .shape .loneSurrogate

end Failure

end Flashcards
