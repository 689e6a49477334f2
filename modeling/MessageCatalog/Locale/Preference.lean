import MessageCatalog.Text.Blank

/-!
# Choosing a locale

The locale to use is a language with an optional territory, such as `zh_CN`. It comes from the
command line, from a stored setting, or from the system, in this order; a blank value is as good as
none.

The system states it in environment variables, in a notation of its own: `zh_CN.UTF-8@pinyin`. The
values `C` and `POSIX` name no language.
-/

namespace MessageCatalog.Locale

open Text

/-- The values of environment variables. -/
abbrev Environment := String → Option String

/-- The locale when nothing else is configured. -/
def defaultLocale : String := "en_US"

/-- The locale in the value of an environment variable. -/
def ofPosix? (value : String) : Option String :=
  let locale := String.ofList (trimChars (value.toList.takeWhile fun c ↦ c ≠ '.' && c ≠ '@'))
  if locale = "" ∨ locale = "C" ∨ locale = "POSIX" then none else some locale

/-- The variables that state the system's locale, the most specific one first. -/
def systemVariables : List String := ["LC_ALL", "LC_MESSAGES", "LANG"]

/-- The variable that holds the stored setting. -/
def storedVariable : String := "TSCAT_LANGUAGE"

/-- The system's locale: that of the first variable that names one. -/
def systemLocale? (env : Environment) : Option String :=
  systemVariables.findSome? fun name ↦ (env name).bind ofPosix?

/-- The candidates for the locale. -/
structure Preference where
  commandLine : Option String := none
  stored : Option String := none
  system : Option String := none
  deriving DecidableEq, Repr

namespace Preference

/-- The candidates on the command line and in the environment. -/
def ofEnvironment (commandLine : Option String) (env : Environment) : Preference where
  commandLine
  stored := env storedVariable
  system := systemLocale? env

/-- The candidates, in order of precedence. -/
def candidates (p : Preference) : List String :=
  [p.commandLine, p.stored, p.system].filterMap id

/-- The locale to use, with an underscore before the territory. -/
def resolve (p : Preference) : String :=
  match (p.candidates.map trim).find? (· ≠ "") with
  | some locale => replaceChar '-' '_' locale
  | none => defaultLocale

end Preference

/-- The language of a locale that names a territory too. -/
def baseLanguage? (locale : String) : Option String :=
  match (locale.toList.reverse.dropWhile (· ≠ '_')) with
  | [] => none
  | _ :: base => if base = [] then none else some (String.ofList base.reverse)

/-- The locales whose catalogs a locale uses, the most general one first. -/
def layerOrder (locale : String) : List String :=
  (baseLanguage? locale).toList ++ [locale]

/-- Whether two texts name one locale, in either notation. -/
def sameLocale (a b : String) : Bool :=
  replaceChar '-' '_' (trim a) = replaceChar '-' '_' (trim b)

end MessageCatalog.Locale
