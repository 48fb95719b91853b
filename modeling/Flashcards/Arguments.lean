import Flashcards.Bindings
import Flashcards.Numeral

/-!
# Arguments

What the words of a command line ask for. A command has options, each named by a word that begins
with two hyphens; an option may be given by the beginning of its name where no other option of the
command begins like that. The value of an option is the next word, or stands behind an equals
sign. A word that begins with a hyphen is not a value, unless it is a lone hyphen, a negative
number, or holds a space and is no option's name. Of an option that is repeated the last one
counts. After two hyphens every word is taken as it is. Two hyphens behind an equals sign are no
value: the option counts as given, with nothing in it. A command line that fits none of this is
refused as a whole.
-/

namespace Flashcards

/-- What an option holds. -/
inductive Operand
  | word (text : String)
  /-- The option was given, with nothing in it. -/
  | nothing
  deriving DecidableEq, Repr

/-- The word that an option holds, unless it is empty. -/
def Operand.word? : Operand → Option String
  | .word text => if text = "" then none else some text
  | .nothing => none

/-- What the user asks for. The number of a card is missing where its option holds nothing. -/
inductive Request
  | help
  | version
  | render (front back fields : Operand) (ordinal : Option Int) (styled : Bool)
  | countCloze (content : String)
  | run (deck workspace : Operand) (preview : Bool)
  | validate (deck : Operand)
  | preview (jobDirectory : Operand) (out : Option Operand) (nightMode : Bool)
  | package (deck out : Operand) (deckName tags : Option Operand)
  deriving DecidableEq, Repr

/-- A request, and the configuration file it is for. -/
structure Invocation where
  config : Operand
  request : Request
  deriving DecidableEq, Repr

namespace Arguments

/-- An option: its name, and whether a value belongs to it. -/
structure Flag where
  name : String
  takesValue : Bool
  deriving DecidableEq, Repr

/-- The option that every command has. -/
def helpFlag : Flag := ⟨"--help", false⟩

/-- What a word is, on its own. -/
inductive Word
  /-- A value, or a word that stands for itself. -/
  | plain
  /-- An option, and the value behind its equals sign. -/
  | flag (flag : Flag) (given : Option String)
  /-- It begins like more than one option. -/
  | ambiguous
  /-- It looks like an option, and is none. -/
  | unknown
  deriving DecidableEq, Repr

/-- A word in front of its first equals sign, and what stands behind that. -/
def splitValue (word : String) : String × Option String :=
  let cs := word.toList
  let name := cs.takeWhile (· != '=')
  match cs.dropWhile (· != '=') with
  | [] => (word, none)
  | _ :: value => (String.ofList name, some (String.ofList value))

/-- Whether a character is a decimal digit of any script. -/
def isAnyDigit (c : Char) : Bool := (Text.digitValue? c).isSome

/-- Whether characters are a number without sign: digits, with a point in front of the last of
them or without one. A line feed may follow. -/
def isUnsigned (cs : List Char) : Bool :=
  let whole := cs.takeWhile isAnyDigit
  match cs.dropWhile isAnyDigit with
  | [] => !whole.isEmpty
  | ['\n'] => !whole.isEmpty
  | '.' :: rest =>
    let behind := rest.dropWhile isAnyDigit
    !(rest.takeWhile isAnyDigit).isEmpty && (behind.isEmpty || behind == ['\n'])
  | _ => false

/-- What a word that begins with two hyphens is, among the options of a command. -/
def classifyLong (flags : List Flag) (word : String) : Word :=
  match flags.find? fun flag => flag.name = word with
  | some flag => .flag flag none
  | none =>
    let (name, value) := splitValue word
    match value, flags.find? (fun flag => flag.name = name) with
    | some value, some flag => .flag flag (some value)
    | _, _ =>
      match flags.filter fun flag => name.toList.isPrefixOf flag.name.toList with
      | [flag] => .flag flag value
      | [] => if word.toList.contains ' ' then .plain else .unknown
      | _ => .ambiguous

/-- What a word is, among the options of a command. -/
def classify (flags : List Flag) (word : String) : Word :=
  match word.toList with
  | '-' :: '-' :: _ => classifyLong flags word
  | ['-'] => .plain
  | ['-', 'h'] => .flag helpFlag none
  | '-' :: 'h' :: rest => .flag helpFlag (some (String.ofList rest))
  | '-' :: rest => if isUnsigned rest || rest.contains ' ' then .plain else .unknown
  | _ => .plain

/-- What the text behind an equals sign gives an option. -/
def operandOf (attached : String) : Operand :=
  if attached = "--" then .nothing else .word attached

/-- Options with what they hold, in order; those that take no value hold none. -/
abbrev Given := List (Flag × Option Operand)

/-- Takes the option at the front, with its value: what remains. -/
def takeFlag (flags : List Flag) (flag : Flag) (value : Option String) (rest : List String) :
    Option ((Flag × Option Operand) × List String) :=
  match flag.takesValue, value with
  | true, some attached => some ((flag, some (operandOf attached)), rest)
  | false, none => some ((flag, none), rest)
  | false, some _ => none
  | true, none =>
    match rest with
    | [] => none
    | word :: more =>
      if word ≠ "--" ∧ classify flags word = .plain then some ((flag, some (.word word)), more)
      else none

theorem takeFlag_length {flags : List Flag} {flag : Flag} {value : Option String}
    {rest more : List String} {given : Flag × Option Operand}
    (h : takeFlag flags flag value rest = some (given, more)) : more.length ≤ rest.length := by
  unfold takeFlag at h
  repeat' split at h
  all_goals simp_all

/-- Takes options until a word is none: the options, and the words from there on. -/
def takeFlags (flags : List Flag) (words : List String) : Option (Given × List String) :=
  match words with
  | [] => some ([], [])
  | word :: rest =>
    if word = "--" then some ([], word :: rest)
    else
      match classify flags word with
      | .plain => some ([], word :: rest)
      | .ambiguous => none
      | .unknown => none
      | .flag flag value =>
        match _h : takeFlag flags flag value rest with
        | none => none
        | some (given, more) =>
          (takeFlags flags more).map fun (others, left) => (given :: others, left)
termination_by words.length
decreasing_by
  have := takeFlag_length _h
  simp only [List.length_cons]
  omega

/-- Whether no word in front of two hyphens begins like more than one option. -/
def unambiguous (flags : List Flag) (words : List String) : Bool :=
  (words.takeWhile (· != "--")).all fun word => classify flags word != .ambiguous

/-- What an option holds that was given. -/
def valueOf? (given : Given) (name : String) : Option Operand :=
  (given.reverse.find? fun entry => entry.1.name = name).bind Prod.snd

/-- Whether an option was given. -/
def has (given : Given) (name : String) : Bool := given.any fun entry => entry.1.name = name

/-! ## Commands -/

/-- The options in front of a command. -/
def mainFlags : List Flag := [helpFlag, ⟨"--config", true⟩]

/-- The commands and their options. -/
def commands : List (String × List Flag) := [
  ("render", [helpFlag, ⟨"--front", true⟩, ⟨"--back", true⟩, ⟨"--fields", true⟩,
    ⟨"--ordinal", true⟩, ⟨"--styled", false⟩]),
  ("count-cloze", [helpFlag]),
  ("run", [helpFlag, ⟨"--deck", true⟩, ⟨"--workspace", true⟩, ⟨"--preview", false⟩]),
  ("validate", [helpFlag, ⟨"--deck", true⟩]),
  ("preview", [helpFlag, ⟨"--job-dir", true⟩, ⟨"--out", true⟩, ⟨"--night-mode", false⟩]),
  ("export", [helpFlag, ⟨"--deck", true⟩, ⟨"--out", true⟩, ⟨"--deck-name", true⟩,
    ⟨"--tags", true⟩]),
  ("version", [helpFlag])]

/-- The number that an option holds, if it holds anything. A word has to be a number. -/
def ordinalOf? : Operand → Option (Option Int)
  | .nothing => some none
  | .word text => (Numeral.ofText text).toOption.map some

/-- The one word that the words of a command amount to, with two hyphens around it at most
once. -/
def soleWord? (flags : List Flag) : List String → Option String
  | ["--", word] => some word
  | [word, "--"] => if classify flags word = .plain then some word else none
  | [word] => if word ≠ "--" ∧ classify flags word = .plain then some word else none
  | _ => none

/-- What a command asks for, by its options. -/
def requestOf? (command : String) (given : Given) : Option Request :=
  match command with
  | "render" => do
    let front ← valueOf? given "--front"
    let fields ← valueOf? given "--fields"
    let numbered := given.filter fun entry => entry.1.name = "--ordinal"
    let ordinals ← (numbered.filterMap Prod.snd).mapM ordinalOf?
    let back := (valueOf? given "--back").getD (.word "")
    some (.render front back fields (ordinals.getLast?.getD (some 0)) (has given "--styled"))
  | "run" => do
    let deck ← valueOf? given "--deck"
    let workspace := (valueOf? given "--workspace").getD (.word "./workspace")
    some (.run deck workspace (has given "--preview"))
  | "validate" => (valueOf? given "--deck").map .validate
  | "preview" => do
    let directory ← valueOf? given "--job-dir"
    some (.preview directory (valueOf? given "--out") (has given "--night-mode"))
  | "export" => do
    let deck ← valueOf? given "--deck"
    let out ← valueOf? given "--out"
    some (.package deck out (valueOf? given "--deck-name") (valueOf? given "--tags"))
  | "version" => some .version
  | _ => none

/-- What the words behind a command ask for. -/
def readCommand? (command : String) (flags : List Flag) (words : List String) : Option Request :=
  if !unambiguous flags words then none
  else
    match takeFlags flags words with
    | none => none
    | some (given, left) =>
      if has given helpFlag.name then some .help
      else if command = "count-cloze" then (soleWord? flags left).map .countCloze
      else if left = [] then requestOf? command given
      else none

/-- The configuration file that is used where none is named. -/
def defaultConfig : Operand := .word "config/default.json"

/-- What the words of a command line ask for. -/
def read? (words : List String) : Option Invocation :=
  if !unambiguous mainFlags words then none
  else
    match takeFlags mainFlags words with
    | none => none
    | some (given, left) =>
      if has given helpFlag.name then some ⟨defaultConfig, .help⟩
      else
        match left with
        | [] => none
        | command :: rest => do
          let flags ← Bindings.find? command commands
          let request ← readCommand? command flags rest
          some ⟨(valueOf? given "--config").getD defaultConfig, request⟩

end Arguments

end Flashcards
