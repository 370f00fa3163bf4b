/-!
# Names of character properties

The names by which a pattern may ask for the characters with a property. Names are compared without
regard to case, blanks, hyphens and underscores, and a leading `is` does not count.
-/

set_option autoImplicit false

namespace ApiDescription.Pattern

/-! ## Tables -/

/-- Properties that a character has or has not. -/
def binaryProperties : List String :=
  ["asciihexdigit", "ahex", "alphabetic", "alpha", "bidicontrol", "bidic", "bidimirrored",
    "bidim", "caseignorable", "ci", "cased", "changeswhencasefolded", "cwcf",
    "changeswhencasemapped", "cwcm", "changeswhenlowercased", "cwl", "changeswhentitlecased",
    "cwt", "changeswhenuppercased", "cwu", "dash", "defaultignorablecodepoint", "di",
    "deprecated", "dep", "diacritic", "dia", "emoji", "emojicomponent", "ecomp", "emojimodifier",
    "emod", "emojimodifierbase", "ebase", "emojipresentation", "epres", "extendedpictographic",
    "extpict", "extender", "ext", "graphemebase", "grbase", "graphemeextend", "grext",
    "graphemelink", "hexdigit", "hex", "idsbinaryoperator", "idsb", "idstrinaryoperator", "idst",
    "idcontinue", "idc", "idstart", "ids", "ideographic", "ideo", "joincontrol", "joinc",
    "logicalorderexception", "loe", "lowercase", "lower", "math", "noncharactercodepoint",
    "nchar", "otheralphabetic", "otherdefaultignorablecodepoint", "othergraphemeextend",
    "otheridcontinue", "otheridstart", "otherlowercase", "othermath", "otheruppercase",
    "patternsyntax", "patsyn", "patternwhitespace", "patws", "prependedconcatenationmark", "pcm",
    "quotationmark", "qmark", "radical", "regionalindicator", "ri", "sentenceterminal", "sterm",
    "softdotted", "sd", "terminalpunctuation", "term", "unifiedideograph", "uideo", "uppercase",
    "upper", "variationselector", "vs", "whitespace", "wspace", "space", "xidcontinue", "xidc",
    "xidstart", "xids", "oalpha", "odi", "ogrext", "oidc", "oids", "olower", "omath", "oupper",
    "grlink", "idcompatmathcontinue", "idcompatmathstart", "idsunaryoperator", "idsu",
    "modifiercombiningmark", "mcm"]

/-- General categories and groups of them. -/
def categories : List String :=
  ["c", "other", "cc", "control", "cntrl", "cf", "format", "cn", "unassigned", "co",
    "privateuse", "l", "letter", "lc", "casedletter", "ll", "lowercaseletter", "lm",
    "modifierletter", "lo", "otherletter", "lt", "titlecaseletter", "lu", "uppercaseletter", "m",
    "mark", "combiningmark", "mc", "spacingmark", "me", "enclosingmark", "mn", "nonspacingmark",
    "n", "number", "nd", "decimalnumber", "digit", "nl", "letternumber", "no", "othernumber",
    "p", "punctuation", "punct", "pc", "connectorpunctuation", "pd", "dashpunctuation", "pe",
    "closepunctuation", "pf", "finalpunctuation", "pi", "initialpunctuation", "po",
    "otherpunctuation", "ps", "openpunctuation", "s", "symbol", "sc", "currencysymbol", "sk",
    "modifiersymbol", "sm", "mathsymbol", "so", "othersymbol", "z", "separator", "zl",
    "lineseparator", "zp", "paragraphseparator", "zs", "spaceseparator", "any", "assigned",
    "ascii"]

/-- Scripts. -/
def scripts : List String :=
  ["adlm", "adlam", "aghb", "caucasianalbanian", "ahom", "arab", "arabic", "armi",
    "imperialaramaic", "armn", "armenian", "avst", "avestan", "bali", "balinese", "bamu",
    "bamum", "bass", "bassavah", "batk", "batak", "beng", "bengali", "bhks", "bhaiksuki", "bopo",
    "bopomofo", "brah", "brahmi", "brai", "braille", "bugi", "buginese", "buhd", "buhid", "cakm",
    "chakma", "cans", "canadianaboriginal", "cari", "carian", "cham", "cher", "cherokee", "chrs",
    "chorasmian", "copt", "coptic", "qaac", "cpmn", "cyprominoan", "cprt", "cypriot", "cyrl",
    "cyrillic", "deva", "devanagari", "diak", "divesakuru", "dogr", "dogra", "dsrt", "deseret",
    "dupl", "duployan", "egyp", "egyptianhieroglyphs", "elba", "elbasan", "elym", "elymaic",
    "ethi", "ethiopic", "geor", "georgian", "glag", "glagolitic", "gong", "gunjalagondi", "gonm",
    "masaramgondi", "goth", "gothic", "gran", "grantha", "grek", "greek", "gujr", "gujarati",
    "guru", "gurmukhi", "hang", "hangul", "hani", "han", "hano", "hanunoo", "hatr", "hatran",
    "hebr", "hebrew", "hira", "hiragana", "hluw", "anatolianhieroglyphs", "hmng", "pahawhhmong",
    "hmnp", "nyiakengpuachuehmong", "hung", "oldhungarian", "ital", "olditalic", "java",
    "javanese", "kali", "kayahli", "kana", "katakana", "kawi", "khar", "kharoshthi", "khmr",
    "khmer", "khoj", "khojki", "kits", "khitansmallscript", "knda", "kannada", "kthi", "kaithi",
    "lana", "taitham", "laoo", "lao", "latn", "latin", "lepc", "lepcha", "limb", "limbu", "lina",
    "lineara", "linb", "linearb", "lisu", "lyci", "lycian", "lydi", "lydian", "mahj", "mahajani",
    "maka", "makasar", "mand", "mandaic", "mani", "manichaean", "marc", "marchen", "medf",
    "medefaidrin", "mend", "mendekikakui", "merc", "meroiticcursive", "mero",
    "meroitichieroglyphs", "mlym", "malayalam", "modi", "mong", "mongolian", "mroo", "mro",
    "mtei", "meeteimayek", "mult", "multani", "mymr", "myanmar", "nagm", "nagmundari", "nand",
    "nandinagari", "narb", "oldnortharabian", "nbat", "nabataean", "newa", "nkoo", "nko", "nshu",
    "nushu", "ogam", "ogham", "olck", "olchiki", "orkh", "oldturkic", "orya", "oriya", "osge",
    "osage", "osma", "osmanya", "ougr", "olduyghur", "palm", "palmyrene", "pauc", "paucinhau",
    "perm", "oldpermic", "phag", "phagspa", "phli", "inscriptionalpahlavi", "phlp",
    "psalterpahlavi", "phnx", "phoenician", "plrd", "miao", "prti", "inscriptionalparthian",
    "rjng", "rejang", "rohg", "hanifirohingya", "runr", "runic", "samr", "samaritan", "sarb",
    "oldsoutharabian", "saur", "saurashtra", "sgnw", "signwriting", "shaw", "shavian", "shrd",
    "sharada", "sidd", "siddham", "sind", "khudawadi", "sinh", "sinhala", "sogd", "sogdian",
    "sogo", "oldsogdian", "sora", "sorasompeng", "soyo", "soyombo", "sund", "sundanese", "sylo",
    "sylotinagri", "syrc", "syriac", "tagb", "tagbanwa", "takr", "takri", "tale", "taile",
    "talu", "newtailue", "taml", "tamil", "tang", "tangut", "tavt", "taiviet", "telu", "telugu",
    "tfng", "tifinagh", "tglg", "tagalog", "thaa", "thaana", "thai", "tibt", "tibetan", "tirh",
    "tirhuta", "tnsa", "tangsa", "toto", "ugar", "ugaritic", "vaii", "vai", "vith", "vithkuqi",
    "wara", "warangciti", "wcho", "wancho", "xpeo", "oldpersian", "xsux", "cuneiform", "yezi",
    "yezidi", "yiii", "yi", "zanb", "zanabazarsquare", "zinh", "inherited", "qaai", "zyyy",
    "common", "gara", "garay", "gukh", "gurungkhema", "krai", "kiratrai", "onao", "olonal",
    "sunu", "sunuwar", "todr", "todhri", "tutg", "tulutigalari"]

/-- Versions of the standard that introduced characters. -/
def ages : List String :=
  ["1.1", "2.0", "2.1", "3.0", "3.1", "3.2", "4.0", "4.1", "5.0", "5.1", "5.2", "6.0", "6.1",
    "6.2", "6.3", "7.0", "8.0", "9.0", "10.0", "11.0", "12.0", "12.1", "13.0", "14.0", "15.0",
    "15.1", "16.0", "v11", "v20", "v21", "v30", "v31", "v32", "v40", "v41", "v50", "v51", "v52",
    "v60", "v61", "v62", "v63", "v70", "v80", "v90", "v100", "v110", "v120", "v121", "v130",
    "v140", "v150", "v151", "v160"]

/-- Roles of characters inside user-perceived characters. -/
def graphemeBreaks : List String :=
  ["cn", "control", "cr", "ex", "extend", "l", "lf", "lv", "lvt", "pp", "prepend", "ri",
    "regionalindicator", "sm", "spacingmark", "t", "v", "zwj"]

/-- Roles of characters at the boundaries of words. -/
def wordBreaks : List String :=
  ["cr", "dq", "doublequote", "ex", "extendnumlet", "extend", "fo", "format", "hl",
    "hebrewletter", "ka", "katakana", "le", "aletter", "lf", "mb", "midnumlet", "ml",
    "midletter", "mn", "midnum", "nl", "newline", "nu", "numeric", "ri", "regionalindicator",
    "sq", "singlequote", "wsegspace", "zwj"]

/-- Roles of characters at the boundaries of sentences. -/
def sentenceBreaks : List String :=
  ["at", "aterm", "cl", "close", "cr", "ex", "extend", "fo", "format", "le", "oletter", "lf",
    "lo", "lower", "nu", "numeric", "sc", "scontinue", "se", "sep", "sp", "st", "sterm", "up",
    "upper"]

/-! ## Look-up -/

/-- The name as names are compared. -/
def normalizeName (s : List Char) : String :=
  let isDropped (c : Char) : Bool := c = ' ' || c = '_' || c = '-' || 0x7F < c.toNat
  let clean (s : List Char) : List Char := (s.filter (!isDropped ·)).map Char.toLower
  match s with
  | a :: b :: rest =>
    if (a = 'i' ∨ a = 'I') ∧ (b = 's' ∨ b = 'S') then
      if clean rest = ['c'] then "isc" else String.ofList (clean rest)
    else String.ofList (clean s)
  | s => String.ofList (clean s)

/-- A property is asked for by the single name. -/
def isPropertyName (s : List Char) : Bool :=
  let name := normalizeName s
  binaryProperties.contains name || categories.contains name || scripts.contains name

/-- A property is asked for by its name and its value. -/
def isPropertyValue (property value : List Char) : Bool :=
  let property := normalizeName property
  let value := normalizeName value
  if property == "gc" || property == "generalcategory" then categories.contains value
  else if property == "sc" || property == "script" then scripts.contains value
  else if property == "scx" || property == "scriptextensions" then scripts.contains value
  else if property == "age" then ages.contains value
  else if property == "gcb" || property == "graphemeclusterbreak" then
    graphemeBreaks.contains value
  else if property == "wb" || property == "wordbreak" then wordBreaks.contains value
  else if property == "sb" || property == "sentencebreak" then sentenceBreaks.contains value
  else false

/-- Splits a text at the first place where the second text stands in it. -/
def splitAtFirst? (mark : List Char) : List Char → Option (List Char × List Char)
  | [] => none
  | c :: rest =>
    if mark.isPrefixOf (c :: rest) then some ([], (c :: rest).drop mark.length)
    else (splitAtFirst? mark rest).map fun (a, b) => (c :: a, b)

/-- The text between braces asks for a property that there is. -/
def isProperty (s : List Char) : Bool :=
  match splitAtFirst? ['!', '='] s with
  | some (property, value) => isPropertyValue property value
  | none =>
    match splitAtFirst? [':'] s with
    | some (property, value) => isPropertyValue property value
    | none =>
      match splitAtFirst? ['='] s with
      | some (property, value) => isPropertyValue property value
      | none => isPropertyName s

end ApiDescription.Pattern
