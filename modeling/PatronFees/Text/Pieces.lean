namespace PatronFees.Text

/-!
# Pieces of a text

Texts that list several things are cut at a separator. Between and around the
separators there is always one more piece than there are separators.
-/

/-- The pieces between the separators. -/
def pieces (separator : Char) : List Char → List (List Char)
  | [] => [[]]
  | character :: rest =>
      if character = separator then
        [] :: pieces separator rest
      else
        match pieces separator rest with
        | [] => [[character]]
        | first :: others => (character :: first) :: others

/-- What stands before and after the first separator, if there is one. -/
def cutAtFirst?
    (separator : Char) :
    List Char → Option (List Char × List Char)
  | [] => none
  | character :: rest =>
      if character = separator then
        some ([], rest)
      else
        (cutAtFirst? separator rest).map fun (before, after) =>
          (character :: before, after)

end PatronFees.Text
