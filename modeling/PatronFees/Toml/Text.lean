import PatronFees.Text.Hexadecimal

namespace PatronFees.Toml

/-!
# Texts

Texts stand in double quotes, where a backslash escapes, or in single quotes,
where nothing does; in three quotes of a kind they may hold line breaks. No text
holds control characters other than tabs.
-/

/-- A scan reads from the front of the characters, or refuses them. -/
abbrev Scan (α : Type) := List Char → Option (α × List Char)

/-- Blanks within a line. -/
def isBlank (character : Char) : Bool :=
  character == ' ' || character == '\t'

/-- The character may stand in a text or a comment. -/
def isTextual (character : Char) : Bool :=
  character == '\t' || (' ' ≤ character && character != '\x7f')

/-- What follows a line break at the front, if there is one. -/
def afterBreak? : List Char → Option (List Char)
  | '\n' :: rest => some rest
  | '\r' :: '\n' :: rest => some rest
  | _ => none

/-- The character with a code point in hexadecimal. -/
def codePoint? (digits : List Char) : Option Char := do
  let number ← Text.hexNumber? digits
  if number.isValidChar then
    some (Char.ofNat number)
  else
    none

/-- The character that a letter behind a backslash stands for. -/
def escaped? : Char → Option Char
  | 'b' => some '\x08'
  | 't' => some '\t'
  | 'n' => some '\n'
  | 'f' => some '\x0c'
  | 'r' => some '\r'
  | '"' => some '"'
  | '\\' => some '\\'
  | _ => none

/-- Put a character in front of what was scanned. -/
def consScanned
    (character : Char)
    (scanned : Option (List Char × List Char)) :
    Option (List Char × List Char) :=
  scanned.map fun (characters, rest) => (character :: characters, rest)

/-- The rest of a text in double quotes. -/
def basicRest : Scan (List Char)
  | [] => none
  | '"' :: rest => some ([], rest)
  | '\\' :: 'u' :: a :: b :: c :: d :: rest => do
      consScanned (← codePoint? [a, b, c, d]) (basicRest rest)
  | '\\' :: 'U' :: a :: b :: c :: d :: e :: f :: g :: h :: rest => do
      consScanned (← codePoint? [a, b, c, d, e, f, g, h]) (basicRest rest)
  | '\\' :: letter :: rest => do
      consScanned (← escaped? letter) (basicRest rest)
  | character :: rest =>
      if character != '\\' && isTextual character then
        consScanned character (basicRest rest)
      else
        none

/-- The rest of a text in single quotes. -/
def literalRest : Scan (List Char)
  | [] => none
  | '\'' :: rest => some ([], rest)
  | character :: rest =>
      if isTextual character then
        consScanned character (literalRest rest)
      else
        none

/-- Nothing but blanks is left in the line, which has an end. -/
def lineIsOver (characters : List Char) : Bool :=
  (afterBreak? (characters.dropWhile isBlank)).isSome

/--
The rest of a text in three double quotes.

A backslash at the end of a line skips the break and all blanks and breaks
behind it; `skipping` says that this is going on. Up to two quotes before the
closing three belong to the text.
-/
def longBasicRest : (skipping : Bool) → Scan (List Char)
  | _, [] => none
  | _, '"' :: '"' :: '"' :: '"' :: '"' :: rest => some (['"', '"'], rest)
  | _, '"' :: '"' :: '"' :: '"' :: rest => some (['"'], rest)
  | _, '"' :: '"' :: '"' :: rest => some ([], rest)
  | _, '\\' :: 'u' :: a :: b :: c :: d :: rest => do
      consScanned (← codePoint? [a, b, c, d]) (longBasicRest false rest)
  | _, '\\' :: 'U' :: a :: b :: c :: d :: e :: f :: g :: h :: rest => do
      consScanned (← codePoint? [a, b, c, d, e, f, g, h])
        (longBasicRest false rest)
  | _, '\\' :: letter :: rest =>
      if lineIsOver (letter :: rest) then
        longBasicRest true (letter :: rest)
      else do
        consScanned (← escaped? letter) (longBasicRest false rest)
  | skipping, '\r' :: '\n' :: rest =>
      if skipping then
        longBasicRest true rest
      else
        consScanned '\n' (longBasicRest false rest)
  | skipping, character :: rest =>
      if skipping && (isBlank character || character == '\n') then
        longBasicRest true rest
      else if character != '\\' &&
          (isTextual character || character == '\n') then
        consScanned character (longBasicRest false rest)
      else
        none

/-- The rest of a text in three single quotes. -/
def longLiteralRest : Scan (List Char)
  | [] => none
  | '\'' :: '\'' :: '\'' :: '\'' :: '\'' :: rest => some (['\'', '\''], rest)
  | '\'' :: '\'' :: '\'' :: '\'' :: rest => some (['\''], rest)
  | '\'' :: '\'' :: '\'' :: rest => some ([], rest)
  | '\r' :: '\n' :: rest => consScanned '\n' (longLiteralRest rest)
  | character :: rest =>
      if isTextual character || character == '\n' then
        consScanned character (longLiteralRest rest)
      else
        none

/-- The characters without a line break at their front. -/
def withoutBreak (characters : List Char) : List Char :=
  (afterBreak? characters).getD characters

/-- A text in one quote of either kind. -/
def scanShortText : Scan String
  | '"' :: rest => (basicRest rest).map fun (text, rest) =>
      (String.ofList text, rest)
  | '\'' :: rest => (literalRest rest).map fun (text, rest) =>
      (String.ofList text, rest)
  | _ => none

/-- A text in one quote or in three. -/
def scanText : Scan String
  | '"' :: '"' :: '"' :: rest =>
      (longBasicRest false (withoutBreak rest)).map fun (text, rest) =>
        (String.ofList text, rest)
  | '\'' :: '\'' :: '\'' :: rest =>
      (longLiteralRest (withoutBreak rest)).map fun (text, rest) =>
        (String.ofList text, rest)
  | characters => scanShortText characters

end PatronFees.Toml
