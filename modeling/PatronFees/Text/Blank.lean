namespace PatronFees.Text

/-!
# Blank characters

Amounts, identifiers, messages and table fields are trimmed of the characters
that Unicode lists as white space. Zero-width characters are not among them.
-/

/-- The 25 characters with the Unicode property White_Space. -/
def isBlank (character : Char) : Bool :=
  let codePoint := character.toNat
  (9 ≤ codePoint && codePoint ≤ 13) ||
    codePoint == 0x20 || codePoint == 0x85 ||
    codePoint == 0xA0 || codePoint == 0x1680 ||
    (0x2000 ≤ codePoint && codePoint ≤ 0x200A) ||
    codePoint == 0x2028 || codePoint == 0x2029 ||
    codePoint == 0x202F || codePoint == 0x205F ||
    codePoint == 0x3000

/-- The characters without the blanks at either end. -/
def trim (characters : List Char) : List Char :=
  ((characters.dropWhile isBlank).reverse.dropWhile isBlank).reverse

/-- The text without the blanks at either end. -/
def trimmed (text : String) : String :=
  String.ofList (trim text.toList)

/-- The trimmed text, unless nothing is left of it. -/
def nonBlank (text : String) : Option String :=
  if trimmed text = "" then none else some (trimmed text)

end PatronFees.Text
