import MessageCatalog.Plural.Rule

/-!
# The cardinal rules of languages

The table lists the cardinal plural rules of the Unicode CLDR by language, in BCP 47 notation. A
language that is not listed, and a language written in a script other than its own, has no rules:
every count is in the category `other`.
-/

namespace MessageCatalog.Plural.Cardinal

private abbrev n := Operand.n
private abbrev i := Operand.i
private abbrev v := Operand.v
private abbrev f := Operand.f
private abbrev t := Operand.t
private abbrev e := Operand.e

/-- The languages with cardinal rules, grouped by their rules. -/
def table : List (List String × Rules) := [
  (["af", "az", "bg", "brx", "chr", "ckb", "ee", "el", "eo", "eu", "fo", "ha", "hu", "ka", "kk",
    "ks", "ku", "ky", "lb", "ml", "mn", "mr", "ne", "no", "om", "or", "ps", "rm", "sd", "so",
    "sq", "st", "syr", "ta", "te", "tk", "tn", "tr", "ug", "uz", "xh"], [
    (.one, [
      [n.is [(1, 1)]]])]),
  (["ak", "bho", "csw", "nso", "pa", "ti"], [
    (.one, [
      [n.is [(0, 1)]]])]),
  (["am", "as", "bn", "doi", "fa", "gu", "hi", "kn", "kok", "kok-Latn", "pcm", "tg", "vi", "zu"], [
    (.one, [
      [i.is [(0, 0)]],
      [n.is [(1, 1)]]])]),
  (["ar"], [
    (.zero, [
      [n.is [(0, 0)]]]),
    (.one, [
      [n.is [(1, 1)]]]),
    (.two, [
      [n.is [(2, 2)]]]),
    (.few, [
      [n.modIs 100 [(3, 10)]]]),
    (.many, [
      [n.modIs 100 [(11, 99)]]])]),
  (["ast", "de", "en", "et", "fi", "fy", "ia", "ie", "lij", "nl", "sc", "sv", "sw", "ur"], [
    (.one, [
      [i.is [(1, 1)], v.is [(0, 0)]]])]),
  (["be"], [
    (.one, [
      [n.modIs 10 [(1, 1)], n.modIsNot 100 [(11, 11)]]]),
    (.few, [
      [n.modIs 10 [(2, 4)], n.modIsNot 100 [(12, 14)]]]),
    (.many, [
      [n.modIs 10 [(0, 0)]],
      [n.modIs 10 [(5, 9)]],
      [n.modIs 100 [(11, 14)]]])]),
  (["blo", "cv", "ksh"], [
    (.zero, [
      [n.is [(0, 0)]]]),
    (.one, [
      [n.is [(1, 1)]]])]),
  (["br"], [
    (.one, [
      [n.modIs 10 [(1, 1)], n.modIsNot 100 [(11, 11), (71, 71), (91, 91)]]]),
    (.two, [
      [n.modIs 10 [(2, 2)], n.modIsNot 100 [(12, 12), (72, 72), (92, 92)]]]),
    (.few, [
      [n.modIs 10 [(3, 4), (9, 9)], n.modIsNot 100 [(10, 19), (70, 79), (90, 99)]]]),
    (.many, [
      [n.isNot [(0, 0)], n.modIs 1000000 [(0, 0)]]])]),
  (["bs", "hr", "sr"], [
    (.one, [
      [v.is [(0, 0)], i.modIs 10 [(1, 1)], i.modIsNot 100 [(11, 11)]],
      [f.modIs 10 [(1, 1)], f.modIsNot 100 [(11, 11)]]]),
    (.few, [
      [v.is [(0, 0)], i.modIs 10 [(2, 4)], i.modIsNot 100 [(12, 14)]],
      [f.modIs 10 [(2, 4)], f.modIsNot 100 [(12, 14)]]])]),
  (["ca", "gl", "it", "lld", "pt-PT", "scn", "vec"], [
    (.one, [
      [i.is [(1, 1)], v.is [(0, 0)]]]),
    (.many, [
      [e.is [(0, 0)], i.isNot [(0, 0)], i.modIs 1000000 [(0, 0)], v.is [(0, 0)]],
      [e.isNot [(0, 5)]]])]),
  (["ceb", "fil"], [
    (.one, [
      [v.is [(0, 0)], i.is [(1, 1), (2, 2), (3, 3)]],
      [v.is [(0, 0)], i.modIsNot 10 [(4, 4), (6, 6), (9, 9)]],
      [v.isNot [(0, 0)], f.modIsNot 10 [(4, 4), (6, 6), (9, 9)]]])]),
  (["cs", "sk"], [
    (.one, [
      [i.is [(1, 1)], v.is [(0, 0)]]]),
    (.few, [
      [i.is [(2, 4)], v.is [(0, 0)]]]),
    (.many, [
      [v.isNot [(0, 0)]]])]),
  (["cy"], [
    (.zero, [
      [n.is [(0, 0)]]]),
    (.one, [
      [n.is [(1, 1)]]]),
    (.two, [
      [n.is [(2, 2)]]]),
    (.few, [
      [n.is [(3, 3)]]]),
    (.many, [
      [n.is [(6, 6)]]])]),
  (["da"], [
    (.one, [
      [n.is [(1, 1)]],
      [t.isNot [(0, 0)], i.is [(0, 0), (1, 1)]]])]),
  (["dsb", "hsb"], [
    (.one, [
      [v.is [(0, 0)], i.modIs 100 [(1, 1)]],
      [f.modIs 100 [(1, 1)]]]),
    (.two, [
      [v.is [(0, 0)], i.modIs 100 [(2, 2)]],
      [f.modIs 100 [(2, 2)]]]),
    (.few, [
      [v.is [(0, 0)], i.modIs 100 [(3, 4)]],
      [f.modIs 100 [(3, 4)]]])]),
  (["es"], [
    (.one, [
      [n.is [(1, 1)]]]),
    (.many, [
      [e.is [(0, 0)], i.isNot [(0, 0)], i.modIs 1000000 [(0, 0)], v.is [(0, 0)]],
      [e.isNot [(0, 5)]]])]),
  (["fr", "pt"], [
    (.one, [
      [i.is [(0, 1)]]]),
    (.many, [
      [e.is [(0, 0)], i.isNot [(0, 0)], i.modIs 1000000 [(0, 0)], v.is [(0, 0)]],
      [e.isNot [(0, 5)]]])]),
  (["ga"], [
    (.one, [
      [n.is [(1, 1)]]]),
    (.two, [
      [n.is [(2, 2)]]]),
    (.few, [
      [n.is [(3, 6)]]]),
    (.many, [
      [n.is [(7, 10)]]])]),
  (["gd"], [
    (.one, [
      [n.is [(1, 1), (11, 11)]]]),
    (.two, [
      [n.is [(2, 2), (12, 12)]]]),
    (.few, [
      [n.is [(3, 10), (13, 19)]]])]),
  (["he"], [
    (.one, [
      [i.is [(1, 1)], v.is [(0, 0)]],
      [i.is [(0, 0)], v.isNot [(0, 0)]]]),
    (.two, [
      [i.is [(2, 2)], v.is [(0, 0)]]])]),
  (["hy"], [
    (.one, [
      [i.is [(0, 0), (1, 1)]]])]),
  (["is"], [
    (.one, [
      [t.is [(0, 0)], i.modIs 10 [(1, 1)], i.modIsNot 100 [(11, 11)]],
      [t.modIs 10 [(1, 1)], t.modIsNot 100 [(11, 11)]]])]),
  (["lt"], [
    (.one, [
      [n.modIs 10 [(1, 1)], n.modIsNot 100 [(11, 19)]]]),
    (.few, [
      [n.modIs 10 [(2, 9)], n.modIsNot 100 [(11, 19)]]]),
    (.many, [
      [f.isNot [(0, 0)]]])]),
  (["lv", "prg"], [
    (.zero, [
      [n.modIs 10 [(0, 0)]],
      [n.modIs 100 [(11, 19)]],
      [v.is [(2, 2)], f.modIs 100 [(11, 19)]]]),
    (.one, [
      [n.modIs 10 [(1, 1)], n.modIsNot 100 [(11, 11)]],
      [v.is [(2, 2)], f.modIs 10 [(1, 1)], f.modIsNot 100 [(11, 11)]],
      [v.isNot [(2, 2)], f.modIs 10 [(1, 1)]]])]),
  (["mk"], [
    (.one, [
      [v.is [(0, 0)], i.modIs 10 [(1, 1)], i.modIsNot 100 [(11, 11)]],
      [f.modIs 10 [(1, 1)], f.modIsNot 100 [(11, 11)]]])]),
  (["mt"], [
    (.one, [
      [n.is [(1, 1)]]]),
    (.two, [
      [n.is [(2, 2)]]]),
    (.few, [
      [n.is [(0, 0)]],
      [n.modIs 100 [(3, 10)]]]),
    (.many, [
      [n.modIs 100 [(11, 19)]]])]),
  (["pl"], [
    (.one, [
      [i.is [(1, 1)], v.is [(0, 0)]]]),
    (.few, [
      [v.is [(0, 0)], i.modIs 10 [(2, 4)], i.modIsNot 100 [(12, 14)]]]),
    (.many, [
      [v.is [(0, 0)], i.isNot [(1, 1)], i.modIs 10 [(0, 1)]],
      [v.is [(0, 0)], i.modIs 10 [(5, 9)]],
      [v.is [(0, 0)], i.modIs 100 [(12, 14)]]])]),
  (["ro"], [
    (.one, [
      [i.is [(1, 1)], v.is [(0, 0)]]]),
    (.few, [
      [v.isNot [(0, 0)]],
      [n.is [(0, 0)]],
      [n.isNot [(1, 1)], n.modIs 100 [(1, 19)]]])]),
  (["ru", "uk"], [
    (.one, [
      [v.is [(0, 0)], i.modIs 10 [(1, 1)], i.modIsNot 100 [(11, 11)]]]),
    (.few, [
      [v.is [(0, 0)], i.modIs 10 [(2, 4)], i.modIsNot 100 [(12, 14)]]]),
    (.many, [
      [v.is [(0, 0)], i.modIs 10 [(0, 0)]],
      [v.is [(0, 0)], i.modIs 10 [(5, 9)]],
      [v.is [(0, 0)], i.modIs 100 [(11, 14)]]])]),
  (["sat"], [
    (.one, [
      [n.is [(1, 1)]]]),
    (.two, [
      [n.is [(2, 2)]]])]),
  (["si"], [
    (.one, [
      [n.is [(0, 0), (1, 1)]],
      [i.is [(0, 0)], f.is [(1, 1)]]])]),
  (["sl"], [
    (.one, [
      [v.is [(0, 0)], i.modIs 100 [(1, 1)]]]),
    (.two, [
      [v.is [(0, 0)], i.modIs 100 [(2, 2)]]]),
    (.few, [
      [v.is [(0, 0)], i.modIs 100 [(3, 4)]],
      [v.isNot [(0, 0)]]])])]

/-- The cardinal rules listed for a language; none if it is not listed. -/
def rulesOf (language : String) : Rules :=
  match table.find? fun row ↦ language ∈ row.1 with
  | some row => row.2
  | none => []

end MessageCatalog.Plural.Cardinal
