import Flashcards.Json.Display
import Flashcards.Json.Items
import Flashcards.Renderer

/-!
# Configuration

A configuration has four sections. Each starts from built-in settings and takes over those of the
given object; a section that is not an object is passed over, and so are sections nobody knows.
What is done about unknown filters is checked at once, all other settings when they are used.
-/

namespace Flashcards

open Json Template

/-- Settings by name. -/
abbrev Settings := Bindings String Value

/-- A configuration. -/
structure Config where
  filters : Settings
  cache : Settings
  preview : Settings
  packages : Settings
  policy : Policy

/-- How styled pages look. -/
structure Appearance where
  defaultStyles : Bool
  nightMode : Bool
  css : String
  deriving DecidableEq, Repr

/-- The setting that names a policy. -/
def Template.Policy.setting : Policy → String
  | .lenient => "passthrough"
  | .strict => "error"

/-- The policy that a setting names. -/
def Template.Policy.ofSetting? (setting : String) : Option Policy :=
  [Policy.lenient, Policy.strict].find? fun policy => policy.setting = setting

namespace Config

/-- The settings of a section: the built-in ones, overridden by the given ones. -/
def readSection (builtIn : Settings) (name : String) (given : Settings) : Settings :=
  match Bindings.find? name given with
  | some (.obj settings) => Bindings.bindAll builtIn settings
  | _ => builtIn

/-- The built-in settings for filters. -/
def builtInFilters : Settings := [("unknown_filter", .str "passthrough")]

/-- The built-in settings for the cache. -/
def builtInCache : Settings := [("max_entries", .int 256)]

/-- The built-in settings for styled pages. -/
def builtInPreview : Settings :=
  [("include_default_styles", .bool true), ("night_mode", .bool false), ("css", .str "")]

/-- The built-in settings for packages. -/
def builtInPackages : Settings := [("deck_name", .null), ("tags", .arr [])]

/-- The configuration that an object describes. -/
def ofMembers (given : Settings) : Except Failure Config :=
  let filters := readSection builtInFilters "filters" given
  let name := (Value.memberOr filters "unknown_filter" (.str "passthrough")).text
  match Policy.ofSetting? name with
  | none => .error (.unknownPolicy name)
  | some policy =>
    .ok {
      filters
      cache := readSection builtInCache "cache" given
      preview := readSection builtInPreview "preview" given
      packages := readSection builtInPackages "export" given
      policy }

/-- The configuration that a value describes. -/
def ofValue : Value → Except Failure Config
  | .obj members => ofMembers members
  | other => .error (.shape (.noMember other.kind "get"))

/-- How many templates the renderer keeps. -/
def cacheCapacity (config : Config) : Except Failure Int :=
  (Value.memberOr config.cache "max_entries" (.int 256)).toInt.mapError .numeral

/-- The renderer that a configuration asks for. -/
def renderer (config : Config) : Except Failure Renderer := do
  let capacity ← config.cacheCapacity
  let cache ← Cache.ofCapacity capacity
  .ok ⟨config.policy, some cache⟩

/-- How the configuration wants styled pages to look. -/
def appearance (config : Config) : Appearance :=
  let css := Value.memberOr config.preview "css" .null
  { defaultStyles := (Value.memberOr config.preview "include_default_styles" (.bool true)).isGiven
    nightMode := (Value.memberOr config.preview "night_mode" (.bool false)).isGiven
    css := if css.isGiven then css.text else "" }

end Config

end Flashcards
