/-
  The Unicode properties that a class may name.

  Names are compared loosely: case, spaces, underscores and hyphens do not matter, nor does a
  leading `is`.

  Not every class of the pattern syntax is here.  General categories and scripts are, and so are the
  binary properties that `binarySet?` lists.  Other documented classes are refused like unknown names:
  the binary properties `Emoji`, `Math`, `XID_Start`, `XID_Continue` and their like, `Age`, and the
  break properties `gcb`, `wb` and `sb`.  The extensions of a script are read with the table of the
  script itself, so that a character of several scripts counts for one of them.
-/
import RuleSieve.Regex.CharSet
import RuleSieve.Text.ScriptTable

namespace RuleSieve.Regex

open Text (category categories)

/-- A name in the form in which names are compared. -/
def looseName (name : List Char) : String :=
  let kept := name.filter fun c => c.toNat < 128 && c != ' ' && c != '_' && c != '-'
  let small := kept.map fun c => if 'A' ≤ c && c ≤ 'Z' then Char.ofNat (c.toNat + 32) else c
  match small with
  | 'i' :: 's' :: rest => if rest = ['c'] then "isc" else String.ofList rest
  | _ => String.ofList small

/-- The general categories and their groups, under all their names. -/
def categoryNames : List (List String × List String) :=
  [(["lu", "uppercaseletter"], ["Lu"]), (["ll", "lowercaseletter"], ["Ll"]),
   (["lt", "titlecaseletter"], ["Lt"]), (["lc", "casedletter"], ["Lu", "Ll", "Lt"]),
   (["lm", "modifierletter"], ["Lm"]), (["lo", "otherletter"], ["Lo"]),
   (["l", "letter"], ["Ll", "Lu", "Lt", "Lm", "Lo"]),
   (["mn", "nonspacingmark"], ["Mn"]), (["mc", "spacingmark"], ["Mc"]),
   (["me", "enclosingmark"], ["Me"]), (["m", "mark", "combiningmark"], ["Mn", "Mc", "Me"]),
   (["nd", "decimalnumber", "digit"], ["Nd"]), (["nl", "letternumber"], ["Nl"]),
   (["no", "othernumber"], ["No"]), (["n", "number"], ["Nd", "Nl", "No"]),
   (["pc", "connectorpunctuation"], ["Pc"]), (["pd", "dashpunctuation"], ["Pd"]),
   (["ps", "openpunctuation"], ["Ps"]), (["pe", "closepunctuation"], ["Pe"]),
   (["pi", "initialpunctuation"], ["Pi"]), (["pf", "finalpunctuation"], ["Pf"]),
   (["po", "otherpunctuation"], ["Po"]),
   (["p", "punctuation", "punct"], ["Pc", "Pd", "Ps", "Pe", "Pi", "Pf", "Po"]),
   (["sm", "mathsymbol"], ["Sm"]), (["sc", "currencysymbol"], ["Sc"]),
   (["sk", "modifiersymbol"], ["Sk"]), (["so", "othersymbol"], ["So"]),
   (["s", "symbol"], ["Sm", "Sc", "Sk", "So"]),
   (["zs", "spaceseparator"], ["Zs"]), (["zl", "lineseparator"], ["Zl"]),
   (["zp", "paragraphseparator"], ["Zp"]), (["z", "separator"], ["Zs", "Zl", "Zp"]),
   (["cc", "control", "cntrl"], ["Cc"]), (["cf", "format"], ["Cf"]),
   (["cs", "surrogate"], ["Cs"]), (["co", "privateuse"], ["Co"]),
   (["cn", "unassigned"], ["Cn"]), (["c", "other"], ["Cc", "Cf", "Cs", "Co", "Cn"])]

/-- The set of a general category, in its compared form. -/
def categorySet? (name : String) : Option CharSet :=
  if name = "any" then some .all
  else if name = "ascii" then some (.range '\x00' '\x7F')
  else if name = "assigned" then some (.complement (.property (category "Cn")))
  else
    (categoryNames.find? fun (names, _) => names.contains name).map fun (_, members) =>
      .property (categories members)

/-- The set of a script, in its compared form. -/
def scriptSet? (name : String) : Option CharSet :=
  (Text.script? fun known => looseName known.toList == name).map .property

/-- The set of a property that a character has or has not, in its compared form.  Properties that are
    not listed are refused. -/
def binarySet? (name : String) : Option CharSet :=
  if name = "alphabetic" || name = "alpha" then some (.property Text.alphabetic)
  else if name = "lowercase" || name = "lower" then some (.property Text.lowercase)
  else if name = "uppercase" || name = "upper" then some (.property Text.uppercase)
  else if name = "whitespace" || name = "wspace" || name = "space" then some .blank
  else if name = "cased" then some (.property Text.cased)
  else if name = "caseignorable" || name = "ci" then some (.property Text.caseIgnorable)
  else if name = "graphemeextend" || name = "grext" then some (.property Text.extending)
  else if name = "joincontrol" || name = "joinc" then some (.range '\u200C' '\u200D')
  else if name = "asciihexdigit" || name = "ahex" then CharSet.named? "xdigit"
  else none

/-- The set that a name on its own stands for: a property of `binarySet?`, a category or a script. -/
def propertySet? (name : List Char) : Option CharSet :=
  let name := looseName name
  binarySet? name <|> categorySet? name <|> scriptSet? name

/-- The set of the characters whose property `name` has the given value: the general category, or the
    script, which also stands in for the extensions of the script.  Other properties with values are
    refused. -/
def valueSet? (name value : List Char) : Option CharSet :=
  let name := looseName name
  if name = "gc" || name = "generalcategory" then categorySet? (looseName value)
  else if name = "sc" || name = "script" || name = "scx" || name = "scriptextensions" then
    scriptSet? (looseName value)
  else none

end RuleSieve.Regex
