import BoundedText.Characters

/-!
# Names of locales

The name of a locale is a row of subtags joined with hyphens: a language, perhaps a script and a region,
variants, and extensions, each of which opens with a single character. Letter case does not count, and
neither a variant nor an extension may come twice. Whether such a locale is known is not asked here.
-/

namespace BoundedText.Locale

/-- A part of a name between hyphens. -/
abbrev Subtag := List Char

/-- The parts of a name between hyphens, the first of which is being read. -/
def partsFrom (reading : Subtag) : List Char → List Subtag
  | [] => [reading]
  | c :: rest => if c = '-' then reading :: partsFrom [] rest else partsFrom (reading ++ [c]) rest

def areLetters (part : Subtag) : Bool := part.all (fun c => Characters.isLetter c.toNat)
def areDigits (part : Subtag) : Bool := part.all (fun c => Characters.isDigit c.toNat)
def areAlphaNumeric (part : Subtag) : Bool := part.all (fun c => Characters.isAlphaNumeric c.toNat)

def folded (part : Subtag) : Subtag := part.map Char.toLower

/-- A language has two, three or five to eight letters. -/
def isLanguage (part : Subtag) : Bool :=
  areLetters part && (part.length == 2 || part.length == 3 || (5 ≤ part.length && part.length ≤ 8))

/-- A script has four letters. -/
def isScript (part : Subtag) : Bool := areLetters part && part.length == 4

/-- A region has two letters or three digits. -/
def isRegion (part : Subtag) : Bool :=
  (areLetters part && part.length == 2) || (areDigits part && part.length == 3)

/-- A variant has five to eight letters and digits, or four of which the first is a digit. -/
def isVariant (part : Subtag) : Bool :=
  areAlphaNumeric part &&
    ((5 ≤ part.length && part.length ≤ 8) || (part.length == 4 && areDigits (part.take 1)))

/-- Subtags without the first one, if that passes a test. -/
def dropFirstIf (test : Subtag → Bool) : List Subtag → List Subtag
  | [] => []
  | part :: rest => if test part then rest else part :: rest

/-- What follows a language with its script, region and variants, when subtags begin with one. -/
def afterLanguage : List Subtag → Option (List Subtag)
  | [] => none
  | language :: rest =>
    let rest := dropFirstIf isRegion (dropFirstIf isScript rest)
    let variants := (rest.takeWhile isVariant).map folded
    if isLanguage language && variants.Nodup then some (rest.dropWhile isVariant) else none

/-- The subtags of an extension have at least this many characters, so that the next extension shows. -/
def isLong (least : Nat) (part : Subtag) : Bool := least ≤ part.length

/-- The keys of the locale extension are a letter or digit and a letter. -/
def isKey (part : Subtag) : Bool := part.length != 2 || areLetters (part.drop 1)

/-- The fields of the transform extension have a letter and a digit for a key, and a value. -/
def isFieldKey (part : Subtag) : Bool :=
  part.length == 2 && areLetters (part.take 1) && areDigits (part.drop 1)

/-- Whether subtags are fields of the transform extension, one after another. -/
def areFields : List Subtag → Bool
  | [] => true
  | key :: rest =>
    isFieldKey key && rest.head?.any (isLong 3) && areFields (rest.dropWhile (isLong 3))
termination_by parts => parts.length
decreasing_by
  have := (List.dropWhile_suffix (l := rest) (isLong 3)).length_le
  simp only [List.length_cons]
  omega

/-- Whether subtags may follow the single character that opens an extension. -/
def isExtension (opening : Char) (body : List Subtag) : Bool :=
  !body.isEmpty && body.all (fun part => areAlphaNumeric part && part.length ≤ 8) &&
    if opening = 'u' then body.all isKey
    else if opening = 't' then areFields ((afterLanguage body).getD body)
    else true

/-- Whether subtags are extensions, none of which was seen before. What follows an `x` is for private
use and may be of any length up to eight. -/
def areExtensions (seen : Subtag) : List Subtag → Bool
  | [] => true
  | part :: rest =>
    match folded part with
    | [opening] =>
      if opening = 'x' then
        !rest.isEmpty && rest.all (fun part => areAlphaNumeric part && 1 ≤ part.length && part.length ≤ 8)
      else
        areAlphaNumeric part && !seen.contains opening && isExtension opening (rest.takeWhile (isLong 2)) &&
          areExtensions (opening :: seen) (rest.dropWhile (isLong 2))
    | _ => false
termination_by parts => parts.length
decreasing_by
  have := (List.dropWhile_suffix (l := rest) (isLong 2)).length_le
  simp only [List.length_cons]
  omega

/-- Whether a name is that of a locale. -/
def isName (name : String) : Bool := (afterLanguage (partsFrom [] name.toList)).any (areExtensions [])

end BoundedText.Locale
