import MessageCatalog.Locale.Tag
import MessageCatalog.Plural.Cardinal

/-!
# The rules of a locale

The rules of a locale are those of its language, unless the locale says otherwise: Portuguese has
rules of its own in Portugal and the territories that follow it, Hindi in Latin script follows
English, and the two written standards of Norwegian follow Norwegian.

A language in a script other than its own is another language as far as rules go, and has none.
Naming the language's own script changes nothing. In some territories the other script is
understood without being named. Bokmål, which is Norwegian by another name, is known by that name
alone: it has no script of its own, and any script that is named makes it another language.
-/

namespace MessageCatalog.Plural

open MessageCatalog.Locale

/-- The languages whose own script is not the Latin one, grouped by script. -/
def scripts : List (String × List String) := [
  ("arab", ["ar", "ckb", "fa", "ks", "ps", "sd", "ug", "ur"]),
  ("armn", ["hy"]),
  ("beng", ["as", "bn"]),
  ("cans", ["csw"]),
  ("cher", ["chr"]),
  ("cyrl", ["be", "bg", "cv", "kk", "ky", "mk", "mn", "ru", "sr", "tg", "uk"]),
  ("deva", ["bho", "brx", "doi", "hi", "kok", "mr", "ne"]),
  ("ethi", ["am", "ti"]),
  ("geor", ["ka"]),
  ("grek", ["el"]),
  ("gujr", ["gu"]),
  ("guru", ["pa"]),
  ("hebr", ["he"]),
  ("knda", ["kn"]),
  ("mlym", ["ml"]),
  ("olck", ["sat"]),
  ("orya", ["or"]),
  ("sinh", ["si"]),
  ("syrc", ["syr"]),
  ("taml", ["ta"]),
  ("telu", ["te"])]

/-- The languages that are known without a script. -/
def languagesWithoutScript : List String := ["nb"]

/-- A language's own script. -/
def ownScript? (language : String) : Option String :=
  if language ∈ languagesWithoutScript then none
  else match scripts.find? fun row ↦ language ∈ row.2 with
    | some row => some row.1
    | none => some "latn"

/-- The territories in which a language is understood to be written in a script not its own. -/
def territoriesOfOtherScript : List (String × List String) := [
  ("az", ["iq", "ir", "ru"]),
  ("ha", ["cm", "sd"]),
  ("kk", ["af", "cn", "ir", "mn"]),
  ("ku", ["am", "az", "ge", "iq", "ir", "tm"]),
  ("ky", ["cn", "tr"]),
  ("mn", ["cn"]),
  ("pa", ["pk"]),
  ("sd", ["in"]),
  ("sr", ["me", "ro", "tr"]),
  ("tg", ["pk"]),
  ("ug", ["kz", "mn"]),
  ("uz", ["af", "cn"])]

/-- Portugal, and the territories whose Portuguese follows it. -/
def portugueseTerritories : List String :=
  ["pt", "ao", "ch", "cv", "fr", "gq", "gw", "lu", "mo", "mz", "st", "tl"]

/-- Whether a tag names, or its territory implies, a script other than the language's own. -/
def isInOtherScript (tag : Tag) : Bool :=
  match tag.script, tag.region with
  | some script, _ => some script ≠ ownScript? tag.language
  | none, some region =>
    territoriesOfOtherScript.any fun row ↦ row.1 = tag.language && region ∈ row.2
  | none, none => false

/-- The language in the table whose rules a locale follows. -/
def ruleLanguage? (tag : Tag) : Option String :=
  if isInOtherScript tag then
    if tag.script = some "latn" then
      if tag.language = "hi" then some "en"
      else if tag.language = "kok" then some "kok-Latn"
      else none
    else none
  else if tag.language = "nb" ∨ tag.language = "nn" then some "no"
  else if tag.language = "pt" ∧ tag.region.any (· ∈ portugueseTerritories) then some "pt-PT"
  else some tag.language

/-- The cardinal rules of a locale. -/
def rulesOf (tag : Tag) : Rules :=
  match ruleLanguage? tag with
  | some language => Cardinal.rulesOf language
  | none => []

end MessageCatalog.Plural
