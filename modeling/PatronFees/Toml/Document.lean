import PatronFees.Toml.Moment

namespace PatronFees.Toml

/-!
# Documents

A document is a list of statements, each on lines of its own: headers, which
begin tables, and assignments to the table that was begun last. Keys are bare or
quoted and may be dotted into a path. Arrays may run over several lines and end
with a comma; tables in braces may not. Values nest less than 80 deep, and paths
have less than 80 keys.

All violations of the format are alike: there is no document then.
-/

/-- Values nest, and paths reach, at most this deep. -/
def depthLimit : Nat := 79

/-- The character may stand in a bare key. -/
def isBare (character : Char) : Bool :=
  character.isAlphanum || character == '_' || character == '-'

/-- The characters without blanks at their front. -/
def skipBlanks (characters : List Char) : List Char :=
  characters.dropWhile isBlank

def scanKey : Scan String
  | '"' :: rest => scanShortText ('"' :: rest)
  | '\'' :: rest => scanShortText ('\'' :: rest)
  | characters =>
      let bare := characters.takeWhile isBare
      if bare.isEmpty then
        none
      else
        some (String.ofList bare, characters.dropWhile isBare)

/-- A path of at most `limit` keys with points between them. -/
def scanPath : (limit : Nat) → Scan (List String)
  | 0, _ => none
  | limit + 1, characters => do
      let (key, afterKey) ← scanKey (skipBlanks characters)
      match skipBlanks afterKey with
      | '.' :: rest => do
          let (keys, after) ← scanPath limit rest
          return (key :: keys, after)
      | after => return ([key], after)

/-- What follows a comment at the front, its line break still there. -/
def skipComment : List Char → List Char
  | '#' :: rest => rest.dropWhile isTextual
  | characters => characters

/-- What follows the end of a line, which may have a comment before it. -/
def afterLine? (characters : List Char) : Option (List Char) :=
  match skipComment (skipBlanks characters) with
  | [] => some []
  | rest => afterBreak? rest

/--
What follows blanks, comments and line breaks; `inComment` says that a comment
is going on. A comment must end with a line break.
-/
def skipLines : (inComment : Bool) → List Char → Option (List Char)
  | inComment, [] => if inComment then none else some []
  | _, '\r' :: '\n' :: rest => skipLines false rest
  | inComment, character :: rest =>
      if character = '\n' then
        skipLines false rest
      else if inComment then
        if isTextual character then skipLines true rest else none
      else if isBlank character then
        skipLines false rest
      else if character = '#' then
        skipLines true rest
      else
        some (character :: rest)

/-- The items of an array up to its closing bracket, at most `limit` of them. -/
def scanItems
    (scanItem : Scan Value) :
    (limit : Nat) → Scan (List Value)
  | 0, _ => none
  | limit + 1, characters => do
      match ← skipLines false characters with
      | ']' :: rest => return ([], rest)
      | start => do
          let (item, afterItem) ← scanItem start
          match ← skipLines false afterItem with
          | ']' :: rest => return ([item], rest)
          | ',' :: rest => do
              let (items, after) ← scanItems scanItem limit rest
              return (item :: items, after)
          | _ => none

/-- An assignment: a path, its last key apart, and a value. -/
def scanAssignment
    (scanValue : Scan Value) :
    Scan (List String × String × Value) := fun characters => do
  let (keys, afterKeys) ← scanPath depthLimit characters
  let key ← keys.getLast?
  let (value, rest) ← scanValue (skipBlanks (← after? '=' afterKeys))
  return ((keys.dropLast, key, value), rest)

/-- The assignments in braces up to the closing one, at most `limit` of them. -/
def scanEntries
    (scanValue : Scan Value) :
    (limit : Nat) → Entries → Scan Entries
  | 0, _, _ => none
  | limit + 1, entries, characters => do
      let ((path, key, value), afterValue) ←
        scanAssignment scanValue characters
      let extended ← assign? path key value entries
      match skipBlanks afterValue with
      | '}' :: rest => return (extended, rest)
      | ',' :: rest => scanEntries scanValue limit extended rest
      | _ => none

/-- What follows a word at the front. -/
def afterWord? (word : String) (characters : List Char) : Option (List Char) :=
  if word.toList.isPrefixOf characters then
    some (characters.drop word.length)
  else
    none

/-- A truth value or an unsigned special number. -/
def scanWord : Scan Value := fun characters =>
  (afterWord? "true" characters).map (Value.boolean true, ·) <|>
  (afterWord? "false" characters).map (Value.boolean false, ·) <|>
  scanSpecial characters

/-- A value that holds no others. -/
def scanSimple : Scan Value
  | [] => none
  | character :: rest =>
      if character = '"' ∨ character = '\'' then
        (scanText (character :: rest)).map fun (text, after) =>
          (.text text, after)
      else if character = '+' ∨ character = '-' ∨ character.isDigit then
        scanMoment (character :: rest) <|> scanNumber (character :: rest)
      else
        scanWord (character :: rest)

/-- A value in which others nest at most `depth` deep. -/
def scanValue : (depth : Nat) → Scan Value
  | 0, characters => scanSimple characters
  | depth + 1, characters =>
      match characters with
      | '[' :: rest =>
          (scanItems (scanValue depth) (rest.length + 1) rest).map
            fun (items, after) => (.array items, after)
      | '{' :: rest =>
          match skipBlanks rest with
          | '}' :: after => some (.table .braces [], after)
          | start =>
              (scanEntries (scanValue depth) (start.length + 1) [] start).map
                fun (entries, after) => (.table .braces entries, after)
      | other => scanSimple other

/-- A statement of a document. -/
inductive Statement where
  /-- Begin a table. -/
  | header (path : List String) (key : String)
  /-- Begin the next of the tables that share a header. -/
  | elementHeader (path : List String) (key : String)
  | assignment (path : List String) (key : String) (value : Value)

/-- The header in some brackets, and what follows its line. -/
def scanHeader
    (make : List String → String → Statement)
    (close : List Char) :
    Scan Statement := fun characters => do
  let (keys, afterKeys) ← scanPath depthLimit characters
  let key ← keys.getLast?
  if close.isPrefixOf afterKeys then
    return (make keys.dropLast key, ← afterLine? (afterKeys.drop close.length))
  else
    none

/-- A statement, and what follows its line. -/
def scanStatement : Scan Statement
  | '[' :: '[' :: rest => scanHeader .elementHeader [']', ']'] rest
  | '[' :: rest => scanHeader .header [']'] rest
  | characters => do
      let ((path, key, value), afterValue) ←
        scanAssignment (scanValue depthLimit) characters
      return (.assignment path key value, ← afterLine? afterValue)

/-- The statements of a document on at most `limit` lines. -/
def scanStatements : (limit : Nat) → List Char → Option (List Statement)
  | 0, _ => none
  | limit + 1, characters =>
      match skipBlanks characters with
      | [] => some []
      | start =>
          match afterLine? start with
          | some rest => scanStatements limit rest
          | none => do
              let (statement, rest) ← scanStatement start
              return statement :: (← scanStatements limit rest)

/-- A document up to some statement: all entries, and the table at hand. -/
structure Draft where
  entries : Entries
  path : List String

namespace Draft

def begin?
    (draft : Draft)
    (change : Change)
    (path : List String)
    (key : String) :
    Option Draft := do
  let entries ← changeAt .headers change path .header draft.entries
  return ⟨entries, path ++ [key]⟩

def add? (draft : Draft) : Statement → Option Draft
  | .header path key => draft.begin? (beginTable? key) path key
  | .elementHeader path key => draft.begin? (beginElement? key) path key
  | .assignment path key value => do
      let entries ←
        changeAt .headers (fun _ => assign? path key value) draft.path .header
          draft.entries
      return { draft with entries := entries }

end Draft

/-- The characters without a byte order mark at their front. -/
def withoutMark : List Char → List Char
  | '\uFEFF' :: rest => rest
  | characters => characters

def read? (document : String) : Option Entries := do
  let characters := withoutMark document.toList
  let statements ← scanStatements (characters.length + 1) characters
  let draft ← statements.foldlM Draft.add? ⟨[], []⟩
  return draft.entries

end PatronFees.Toml
