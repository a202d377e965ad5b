import PatronFees.Text.Blank
import PatronFees.Text.Pieces

namespace PatronFees

/-!
# Comments

Comments carry several messages in one text, one `KEY : value` pair a line. A
line without a colon or without a key says nothing, and of two lines with one
key the later counts. The staff and the patron have a key each.
-/

namespace Comments

/-- The key of the message for staff. -/
def staffKey : String := "STAFF"

/-- The key of the message that the patron is shown. -/
def patronKey : String := "PATRON"

/-- Messages by key, each key once, in the order of first mention. -/
abbrev Messages := List (String × String)

/-- Set the message of a key. -/
def Messages.set
    (key value : String) :
    Messages → Messages
  | [] => [(key, value)]
  | (firstKey, firstValue) :: rest =>
      if firstKey = key then
        (key, value) :: rest
      else
        (firstKey, firstValue) :: Messages.set key value rest

/-- The trimmed key and value of a line. -/
def pairOfLine? (line : List Char) : Option (String × String) :=
  match Text.cutAtFirst? ':' line with
  | none => none
  | some (before, after) =>
      let key := Text.trim before
      if key.isEmpty then
        none
      else
        some (String.ofList key, String.ofList (Text.trim after))

/-- The key and value pairs, line by line. -/
def pairs (comments : String) : List (String × String) :=
  (Text.pieces '\n' comments.toList).filterMap pairOfLine?

/-- Read comments into messages. -/
def read (comments : String) : Messages :=
  (pairs comments).foldl
    (fun messages (key, value) => messages.set key value)
    []

/-- The message of a key. -/
def message?
    (key : String)
    (comments : String) :
    Option String :=
  (read comments).lookup key

/-- The message that the patron is shown. -/
def patronMessage? (comments : String) : Option String :=
  message? patronKey comments

/-- The message for staff. -/
def staffMessage? (comments : String) : Option String :=
  message? staffKey comments

/-- Write comments from a message for staff and one for the patron. -/
def write? (staff patron : Option String) : Option String :=
  match staff, patron with
  | none, none => none
  | some forStaff, none => some s!"{staffKey} : {forStaff}"
  | none, some forPatron => some s!"{patronKey} : {forPatron}"
  | some forStaff, some forPatron =>
      some s!"{staffKey} : {forStaff} \n {patronKey} : {forPatron}"

end Comments

end PatronFees
