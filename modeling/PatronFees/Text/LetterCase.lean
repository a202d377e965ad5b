import PatronFees.Text.CaseTables

namespace PatronFees.Text

/-!
# Lower case

The full Unicode lower-casing of a text, including the two rules that look
beyond one character: the dotted capital I becomes a small i and a combining
dot, and a capital sigma that ends a word becomes a final sigma.
-/

/-- The code point lies in one of the ranges. -/
def inRanges
    (ranges : List (Nat × Nat))
    (codePoint : Nat) : Bool :=
  ranges.any fun range => range.1 ≤ codePoint && codePoint ≤ range.2

/-- A letter that has upper, lower or title case. -/
def isCased (character : Char) : Bool :=
  inRanges casedRanges character.toNat

/-- A mark or sign that is skipped when a neighbouring letter is looked for. -/
def isCaseIgnorable (character : Char) : Bool :=
  inRanges ignorableRanges character.toNat

/-- The first character that is not skipped is a cased letter. -/
def meetsCased (characters : List Char) : Bool :=
  match characters.dropWhile isCaseIgnorable with
  | [] => false
  | first :: _ => isCased first

/-- The lower case of one character, its surroundings aside. -/
def lowerCharacter (character : Char) : List Char :=
  if character = 'İ' then
    ['i', '\u0307']
  else
    match lowerRuns.find? (·.holds character.toNat) with
    | some run => [Char.ofNat (character.toNat + run.offset).toNat]
    | none => [character]

/--
The lower case of `rest`, which follows the reversed text `before`.

A capital sigma is final when a cased letter stands before it and none after.
-/
def lowerAfter
    (before : List Char) :
    List Char → List Char
  | [] => []
  | character :: rest =>
      let lowered :=
        if character = 'Σ' then
          if meetsCased before && !meetsCased rest then ['ς'] else ['σ']
        else
          lowerCharacter character
      lowered ++ lowerAfter (character :: before) rest

def lowercased (text : String) : String :=
  String.ofList (lowerAfter [] text.toList)

end PatronFees.Text
