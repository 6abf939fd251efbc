/-
# `Text.WordBreak` — the words of a text

A text is cut into pieces, each a character with the marks and format characters that extend
it; `joins` says between which neighbouring pieces no word boundary lies.  Letters hold
together, digits hold together with letters and each other, and a few signs hold together
what stands on both sides of them: an apostrophe or a colon two letters, a comma two digits,
a full stop either.  `words` keeps the segments that hold a letter or a digit.
-/
import Consolidation.Text.CharClass

namespace Consolidation.Text

/-- Characters that behave as letters inside words without being alphabetic. -/
def wordLetterExtra : CharSet := ⟨#[
  ⟨0x2C2, 0x2C5, 1⟩, ⟨0x2D2, 0x2D7, 1⟩, ⟨0x2DE, 0x2DF, 1⟩, ⟨0x2E5, 0x2EB, 1⟩, ⟨0x2ED, 0x2ED, 1⟩,
  ⟨0x2EF, 0x2FF, 1⟩, ⟨0x55A, 0x55C, 1⟩, ⟨0x55E, 0x55E, 1⟩, ⟨0x58A, 0x58A, 1⟩, ⟨0x5F3, 0x5F3, 1⟩,
  ⟨0xA708, 0xA716, 1⟩, ⟨0xA720, 0xA721, 1⟩, ⟨0xA789, 0xA78A, 1⟩, ⟨0xAB5B, 0xAB5B, 1⟩]⟩

/-- Alphabetic characters of scripts written without spaces, or of syllabaries of their own. -/
def wordLetterExcluded : CharSet := ⟨#[
  ⟨0xE01, 0xE30, 1⟩, ⟨0xE32, 0xE33, 1⟩, ⟨0xE40, 0xE46, 1⟩, ⟨0xE81, 0xE82, 1⟩, ⟨0xE84, 0xE84, 1⟩,
  ⟨0xE86, 0xE8A, 1⟩, ⟨0xE8C, 0xEA3, 1⟩, ⟨0xEA5, 0xEA5, 1⟩, ⟨0xEA7, 0xEB0, 1⟩, ⟨0xEB2, 0xEB3, 1⟩,
  ⟨0xEBD, 0xEBD, 1⟩, ⟨0xEC0, 0xEC4, 1⟩, ⟨0xEC6, 0xEC6, 1⟩, ⟨0xEDC, 0xEDF, 1⟩, ⟨0x1000, 0x102A, 1⟩,
  ⟨0x103F, 0x103F, 1⟩, ⟨0x1050, 0x1055, 1⟩, ⟨0x105A, 0x105D, 1⟩, ⟨0x1061, 0x1061, 1⟩,
  ⟨0x1065, 0x1066, 1⟩, ⟨0x106E, 0x1070, 1⟩, ⟨0x1075, 0x1081, 1⟩, ⟨0x108E, 0x108E, 1⟩,
  ⟨0x1780, 0x17B3, 1⟩, ⟨0x17D7, 0x17D7, 1⟩, ⟨0x17DC, 0x17DC, 1⟩, ⟨0x1950, 0x196D, 1⟩,
  ⟨0x1970, 0x1974, 1⟩, ⟨0x1980, 0x19AB, 1⟩, ⟨0x19B0, 0x19C9, 1⟩, ⟨0x1A20, 0x1A54, 1⟩,
  ⟨0x1AA7, 0x1AA7, 1⟩, ⟨0x3006, 0x3007, 1⟩, ⟨0x3021, 0x3029, 1⟩, ⟨0x3038, 0x303A, 1⟩,
  ⟨0x3041, 0x3096, 1⟩, ⟨0x309D, 0x309F, 1⟩, ⟨0x3400, 0x4DBF, 1⟩, ⟨0x4E00, 0x9FFF, 1⟩,
  ⟨0xA9E0, 0xA9E4, 1⟩, ⟨0xA9E6, 0xA9EF, 1⟩, ⟨0xA9FA, 0xA9FE, 1⟩, ⟨0xAA60, 0xAA76, 1⟩,
  ⟨0xAA7A, 0xAA7A, 1⟩, ⟨0xAA7E, 0xAAAF, 1⟩, ⟨0xAAB1, 0xAAB1, 1⟩, ⟨0xAAB5, 0xAAB6, 1⟩,
  ⟨0xAAB9, 0xAABD, 1⟩, ⟨0xAAC0, 0xAAC0, 1⟩, ⟨0xAAC2, 0xAAC2, 1⟩, ⟨0xAADB, 0xAADD, 1⟩,
  ⟨0xF900, 0xFA6D, 1⟩, ⟨0xFA70, 0xFAD9, 1⟩, ⟨0x11700, 0x1171A, 1⟩, ⟨0x11740, 0x11746, 1⟩,
  ⟨0x17000, 0x187F7, 1⟩, ⟨0x18800, 0x18CD5, 1⟩, ⟨0x18D00, 0x18D08, 1⟩, ⟨0x1B001, 0x1B11F, 1⟩,
  ⟨0x1B132, 0x1B132, 1⟩, ⟨0x1B150, 0x1B152, 1⟩, ⟨0x1B170, 0x1B2FB, 1⟩, ⟨0x20000, 0x2A6DF, 1⟩,
  ⟨0x2A700, 0x2B739, 1⟩, ⟨0x2B740, 0x2B81D, 1⟩, ⟨0x2B820, 0x2CEA1, 1⟩, ⟨0x2CEB0, 0x2EBE0, 1⟩,
  ⟨0x2F800, 0x2FA1D, 1⟩, ⟨0x30000, 0x3134A, 1⟩, ⟨0x31350, 0x323AF, 1⟩]⟩

/-- Hebrew letters. -/
def hebrewLetters : CharSet := ⟨#[
  ⟨0x5D0, 0x5EA, 1⟩, ⟨0x5EF, 0x5F2, 1⟩, ⟨0xFB1D, 0xFB1D, 1⟩, ⟨0xFB1F, 0xFB28, 1⟩,
  ⟨0xFB2A, 0xFB36, 1⟩, ⟨0xFB38, 0xFB3C, 1⟩, ⟨0xFB3E, 0xFB3E, 1⟩, ⟨0xFB40, 0xFB41, 1⟩,
  ⟨0xFB43, 0xFB44, 1⟩, ⟨0xFB46, 0xFB4F, 1⟩]⟩

/-- Katakana, which is written without spaces but holds together. -/
def katakana : CharSet := ⟨#[
  ⟨0x3031, 0x3035, 1⟩, ⟨0x309B, 0x309C, 1⟩, ⟨0x30A0, 0x30FA, 1⟩, ⟨0x30FC, 0x30FF, 1⟩,
  ⟨0x31F0, 0x31FF, 1⟩, ⟨0x32D0, 0x32FE, 1⟩, ⟨0x3300, 0x3357, 1⟩, ⟨0xFF66, 0xFF9D, 1⟩,
  ⟨0x1AFF0, 0x1AFF3, 1⟩, ⟨0x1AFF5, 0x1AFFB, 1⟩, ⟨0x1AFFD, 0x1AFFE, 1⟩, ⟨0x1B000, 0x1B000, 1⟩,
  ⟨0x1B120, 0x1B122, 1⟩, ⟨0x1B155, 0x1B155, 1⟩, ⟨0x1B164, 0x1B167, 1⟩]⟩

/-- Characters that extend the one before them without being marks. -/
def wordExtendExtra : CharSet := ⟨#[
  ⟨0x200C, 0x200C, 1⟩, ⟨0xFF9E, 0xFF9F, 1⟩, ⟨0x1F3FB, 0x1F3FF, 1⟩, ⟨0xE0020, 0xE007F, 1⟩]⟩

/-- Pictographs, which a joiner may join. -/
def pictographs : CharSet := ⟨#[
  ⟨0xA9, 0xA9, 1⟩, ⟨0xAE, 0xAE, 1⟩, ⟨0x203C, 0x203C, 1⟩, ⟨0x2049, 0x2049, 1⟩, ⟨0x2122, 0x2122, 1⟩,
  ⟨0x2139, 0x2139, 1⟩, ⟨0x2194, 0x2199, 1⟩, ⟨0x21A9, 0x21AA, 1⟩, ⟨0x231A, 0x231B, 1⟩,
  ⟨0x2328, 0x2328, 1⟩, ⟨0x2388, 0x2388, 1⟩, ⟨0x23CF, 0x23CF, 1⟩, ⟨0x23E9, 0x23F3, 1⟩,
  ⟨0x23F8, 0x23FA, 1⟩, ⟨0x24C2, 0x24C2, 1⟩, ⟨0x25AA, 0x25AB, 1⟩, ⟨0x25B6, 0x25B6, 1⟩,
  ⟨0x25C0, 0x25C0, 1⟩, ⟨0x25FB, 0x25FE, 1⟩, ⟨0x2600, 0x2605, 1⟩, ⟨0x2607, 0x2612, 1⟩,
  ⟨0x2614, 0x2685, 1⟩, ⟨0x2690, 0x2705, 1⟩, ⟨0x2708, 0x2712, 1⟩, ⟨0x2714, 0x2714, 1⟩,
  ⟨0x2716, 0x2716, 1⟩, ⟨0x271D, 0x271D, 1⟩, ⟨0x2721, 0x2721, 1⟩, ⟨0x2728, 0x2728, 1⟩,
  ⟨0x2733, 0x2734, 1⟩, ⟨0x2744, 0x2744, 1⟩, ⟨0x2747, 0x2747, 1⟩, ⟨0x274C, 0x274C, 1⟩,
  ⟨0x274E, 0x274E, 1⟩, ⟨0x2753, 0x2755, 1⟩, ⟨0x2757, 0x2757, 1⟩, ⟨0x2763, 0x2767, 1⟩,
  ⟨0x2795, 0x2797, 1⟩, ⟨0x27A1, 0x27A1, 1⟩, ⟨0x27B0, 0x27B0, 1⟩, ⟨0x27BF, 0x27BF, 1⟩,
  ⟨0x2934, 0x2935, 1⟩, ⟨0x2B05, 0x2B07, 1⟩, ⟨0x2B1B, 0x2B1C, 1⟩, ⟨0x2B50, 0x2B50, 1⟩,
  ⟨0x2B55, 0x2B55, 1⟩, ⟨0x3030, 0x3030, 1⟩, ⟨0x303D, 0x303D, 1⟩, ⟨0x3297, 0x3297, 1⟩,
  ⟨0x3299, 0x3299, 1⟩, ⟨0x1F000, 0x1F0FF, 1⟩, ⟨0x1F10D, 0x1F10F, 1⟩, ⟨0x1F12F, 0x1F12F, 1⟩,
  ⟨0x1F16C, 0x1F171, 1⟩, ⟨0x1F17E, 0x1F17F, 1⟩, ⟨0x1F18E, 0x1F18E, 1⟩, ⟨0x1F191, 0x1F19A, 1⟩,
  ⟨0x1F1AD, 0x1F1E5, 1⟩, ⟨0x1F201, 0x1F20F, 1⟩, ⟨0x1F21A, 0x1F21A, 1⟩, ⟨0x1F22F, 0x1F22F, 1⟩,
  ⟨0x1F232, 0x1F23A, 1⟩, ⟨0x1F23C, 0x1F23F, 1⟩, ⟨0x1F249, 0x1F3FA, 1⟩, ⟨0x1F400, 0x1F53D, 1⟩,
  ⟨0x1F546, 0x1F64F, 1⟩, ⟨0x1F680, 0x1F6FF, 1⟩, ⟨0x1F774, 0x1F77F, 1⟩, ⟨0x1F7D5, 0x1F7FF, 1⟩,
  ⟨0x1F80C, 0x1F80F, 1⟩, ⟨0x1F848, 0x1F84F, 1⟩, ⟨0x1F85A, 0x1F85F, 1⟩, ⟨0x1F888, 0x1F88F, 1⟩,
  ⟨0x1F8AE, 0x1F8FF, 1⟩, ⟨0x1F90C, 0x1F93A, 1⟩, ⟨0x1F93C, 0x1F945, 1⟩, ⟨0x1F947, 0x1FAFF, 1⟩,
  ⟨0x1FC00, 0x1FFFD, 1⟩]⟩

/-- What a character contributes to the finding of words. -/
inductive WordClass where
  | carriageReturn
  | lineFeed
  | lineBreak
  | extender
  | joiner
  | regional
  | katakana
  | hebrew
  | letter
  | singleQuote
  | doubleQuote
  | midNumLetter
  | midLetter
  | midNumber
  | number
  | connector
  | space
  | other
deriving DecidableEq, Repr

namespace WordClass

/-- The class of a character that is neither letter, mark nor digit. -/
def ofSign (n : Nat) : WordClass :=
  if n == 0x0D then carriageReturn
  else if n == 0x0A then lineFeed
  else if n == 0x0B || n == 0x0C || n == 0x85 || n == 0x2028 || n == 0x2029 then lineBreak
  else if n == 0x27 then singleQuote
  else if n == 0x22 then doubleQuote
  else if [0x2E, 0x2018, 0x2019, 0x2024, 0xFE52, 0xFF07, 0xFF0E].contains n then midNumLetter
  else if [0x3A, 0xB7, 0x387, 0x55F, 0x5F4, 0x2027, 0xFE13, 0xFE55, 0xFF1A].contains n then midLetter
  else if [0x2C, 0x3B, 0x37E, 0x589, 0x60C, 0x60D, 0x66C, 0x7F8, 0x2044, 0xFE10, 0xFE14, 0xFE50,
      0xFE54, 0xFF0C, 0xFF1B].contains n then midNumber
  else if n == 0x5F || n == 0x202F || n == 0x203F || n == 0x2040 || n == 0x2054 ||
      n == 0xFE33 || n == 0xFE34 || (0xFE4D ≤ n && n ≤ 0xFE4F) || n == 0xFF3F then connector
  else if n == 0x20 || n == 0x1680 || (0x2000 ≤ n && n ≤ 0x2006) || (0x2008 ≤ n && n ≤ 0x200A) ||
      n == 0x205F || n == 0x3000 then space
  else if 0x1F1E6 ≤ n && n ≤ 0x1F1FF then regional
  else other

def ofChar (c : Char) : WordClass :=
  match ofSign c.toNat with
  | .other =>
    if c == '\u200d' then joiner
    else if isMark c || wordExtendExtra.contains c then extender
    else if hebrewLetters.contains c then hebrew
    else if Text.katakana.contains c then katakana
    else if isDecimalDigit c || c == '\u066b' then number
    else if isAlphabetic c && !wordLetterExcluded.contains c || wordLetterExtra.contains c then letter
    else if formatCharacters.contains c && c != '\u200b' then extender
    else other
  | sign => sign

/-- Marks, format characters and joiners extend the character before them. -/
def isExtending : WordClass → Bool
  | extender | joiner => true
  | _ => false

/-- Line ends are extended by nothing. -/
def isLineEnd : WordClass → Bool
  | carriageReturn | lineFeed | lineBreak => true
  | _ => false

def isLetter : WordClass → Bool
  | letter | hebrew => true
  | _ => false

/-- Signs that may stand between two letters. -/
def bindsLetters : WordClass → Bool
  | midLetter | midNumLetter | singleQuote => true
  | _ => false

/-- Signs that may stand between two digits. -/
def bindsNumbers : WordClass → Bool
  | midNumber | midNumLetter | singleQuote => true
  | _ => false

end WordClass

/-- A character with what extends it. -/
structure WordPiece where
  head : Char
  extension : List Char

namespace WordPiece

def wordClass (p : WordPiece) : WordClass := .ofChar p.head

def toList (p : WordPiece) : List Char := p.head :: p.extension

/-- Does the piece end in a joiner? -/
def endsInJoiner (p : WordPiece) : Bool :=
  p.toList.getLast? == some '\u200d'

/-- The pieces of a text.  What follows a line end starts a piece of its own. -/
def ofText : List Char → List WordPiece
  | [] => []
  | c :: rest =>
    match ofText rest with
    | next :: later =>
      if next.wordClass.isExtending && !(WordClass.ofChar c).isLineEnd then
        ⟨c, next.toList⟩ :: later
      else ⟨c, []⟩ :: next :: later
    | [] => [⟨c, []⟩]

theorem flatMap_toList_ofText (s : List Char) : (ofText s).flatMap toList = s := by
  induction s with
  | nil => rfl
  | cons c rest ih =>
    simp only [ofText]
    split
    · next next later h =>
      rw [h] at ih
      split <;> simpa [toList] using ih
    · next h =>
      rw [h] at ih
      simpa [toList] using ih

end WordPiece

/-- Does no word boundary lie between `left` and `right`?  `older` is the class before `left`,
`flags` the number of regional indicators that end in `left`, `later` the class after
`right`. -/
def joins (older : Option WordClass) (flags : Nat) (left right : WordPiece)
    (later : Option WordClass) : Bool :=
  let l := left.wordClass
  let r := right.wordClass
  if l == .carriageReturn && r == .lineFeed then true
  else if l.isLineEnd || r.isLineEnd then false
  else if left.endsInJoiner && pictographs.contains right.head then true
  else if l == .space && left.extension.isEmpty && r == .space then true
  else if l.isLetter && r.isLetter then true
  else if l.isLetter && r.bindsLetters && later.any (·.isLetter) then true
  else if older.any (·.isLetter) && l.bindsLetters && r.isLetter then true
  else if l == .hebrew && r == .singleQuote then true
  else if l == .hebrew && r == .doubleQuote && later == some .hebrew then true
  else if older == some .hebrew && l == .doubleQuote && r == .hebrew then true
  else if l == .number && r == .number then true
  else if l.isLetter && r == .number then true
  else if l == .number && r.isLetter then true
  else if older == some .number && l.bindsNumbers && r == .number then true
  else if l == .number && r.bindsNumbers && later == some .number then true
  else if l == .katakana && r == .katakana then true
  else if (l.isLetter || l == .number || l == .katakana || l == .connector) && r == .connector then
    true
  else if l == .connector && (r.isLetter || r == .number || r == .katakana) then true
  else l == .regional && r == .regional && flags % 2 == 1

/-- The segments between word boundaries, from the piece `left` on. -/
def segmentsFrom (older : Option WordClass) (flags : Nat) (left : WordPiece) :
    List WordPiece → List (List Char)
  | [] => [left.toList]
  | right :: rest =>
    let flags' := if right.wordClass == .regional then flags + 1 else 0
    let later := segmentsFrom (some left.wordClass) flags' right rest
    if joins older flags left right (rest.head?.map (·.wordClass)) then
      match later with
      | segment :: others => (left.toList ++ segment) :: others
      | [] => [left.toList]
    else left.toList :: later

/-- The segments of a text between word boundaries. -/
def wordSegments (s : List Char) : List (List Char) :=
  match WordPiece.ofText s with
  | [] => []
  | p :: rest => segmentsFrom none (if p.wordClass == .regional then 1 else 0) p rest

/-- The words of a text: the segments that hold a letter or a digit. -/
def words (s : List Char) : List (List Char) :=
  (wordSegments s).filter (·.any isAlphanumeric)

end Consolidation.Text
