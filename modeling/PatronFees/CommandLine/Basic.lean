import PatronFees.Powers
import PatronFees.Text.Pieces

namespace PatronFees

/-!
# The command line

Options are named in full behind two dashes, and some by one letter behind a
single dash. A value follows as the next word, or in the same word: behind an
equals sign, or right behind a letter. A word that begins with a dash is never
taken for the value of the option before it, a single dash apart.

Words are judged in order, but the value of an option only when the next option
or the end of the line is reached, so a word that nobody knows is noticed
before a bad value in front of it. Nothing may be given twice.
-/

/-- The options of the command line. -/
inductive CommandOption where
  | accounts
  | actions
  | ledgerOut
  | config
  | batchSize
  | workerThreads
  | logLevel
  | help
  deriving Repr, DecidableEq

namespace CommandOption

def all : List CommandOption :=
  [.accounts, .actions, .ledgerOut, .config, .batchSize, .workerThreads,
    .logLevel, .help]

/-- The full name of an option. -/
def name : CommandOption → String
  | .accounts => "accounts"
  | .actions => "actions"
  | .ledgerOut => "ledger-out"
  | .config => "config"
  | .batchSize => "batch-size"
  | .workerThreads => "worker-threads"
  | .logLevel => "log-level"
  | .help => "help"

/-- The letter of an option, if it has one. -/
def letter? : CommandOption → Option Char
  | .config => some 'c'
  | .logLevel => some 'l'
  | .help => some 'h'
  | _ => none

end CommandOption

/-- Why a command line is not carried out. -/
inductive UsageError where
  /-- Help was asked for. -/
  | helpWanted
  | unknownWord (word : String)
  | missingValue (option : CommandOption)
  /-- The value of the option may not be empty. -/
  | emptyValue (option : CommandOption)
  | badNumber (option : CommandOption) (entered : String)
  | repeated (option : CommandOption)
  /-- The option takes no value. -/
  | unwantedValue (option : CommandOption)
  | missingOptions
  deriving Repr, DecidableEq

namespace UsageError

def message : UsageError → String
  | .helpWanted => "help was asked for"
  | .unknownWord word => s!"unexpected argument '{word}' found"
  | .missingValue option => s!"a value is required for '--{option.name}'"
  | .emptyValue option => s!"the value of '--{option.name}' is empty"
  | .badNumber option entered =>
      s!"invalid value '{entered}' for '--{option.name}'"
  | .repeated option => s!"'--{option.name}' cannot be used multiple times"
  | .unwantedValue option => s!"'--{option.name}' takes no value"
  | .missingOptions =>
      "the arguments '--accounts' and '--actions' are required"

end UsageError

/-- The options that were given so far, by their values. -/
structure GivenOptions where
  accounts : Option String
  actions : Option String
  ledgerOut : Option String
  config : Option String
  batchSize : Option Nat
  workerThreads : Option Nat
  logLevel : Option String
  deriving Repr, DecidableEq

/-- A command line that can be carried out. -/
structure CommandLine where
  /-- The file with the accounts. -/
  accounts : String
  /-- The file with the actions. -/
  actions : String
  ledgerOut : Option String
  config : Option String
  batchSize : Option Nat
  workerThreads : Option Nat
  logLevel : Option String
  deriving Repr, DecidableEq

namespace GivenOptions

def none : GivenOptions :=
  ⟨Option.none, Option.none, Option.none, Option.none, Option.none, Option.none,
    Option.none⟩

def has (given : GivenOptions) : CommandOption → Bool
  | .accounts => given.accounts.isSome
  | .actions => given.actions.isSome
  | .ledgerOut => given.ledgerOut.isSome
  | .config => given.config.isSome
  | .batchSize => given.batchSize.isSome
  | .workerThreads => given.workerThreads.isSome
  | .logLevel => given.logLevel.isSome
  | .help => false

/-- The path of a file, which may not be empty. -/
def readPath
    (option : CommandOption)
    (entered : String) :
    Except UsageError String :=
  if entered.isEmpty then
    .error (.emptyValue option)
  else
    .ok entered

/-- The value of decimal digits, of which there is at least one. -/
def digitsValue? (characters : List Char) : Option Nat :=
  if characters.isEmpty || !characters.all Char.isDigit then
    Option.none
  else
    some (characters.foldl
      (fun total digit => total * 10 + (digit.toNat - '0'.toNat)) 0)

/-- A natural number of 64 bits, perhaps with a plus sign. -/
def readNumber
    (option : CommandOption)
    (entered : String) :
    Except UsageError Nat :=
  let digits :=
    match entered.toList with
    | '+' :: rest => rest
    | characters => characters
  match digitsValue? digits with
  | some number =>
      if number < twoTo 64 then
        .ok number
      else
        .error (.badNumber option entered)
  | Option.none => .error (.badNumber option entered)

/-- Give the value of an option that was not given before. -/
def give
    (given : GivenOptions)
    (option : CommandOption)
    (entered : String) :
    Except UsageError GivenOptions :=
  if given.has option then
    .error (.repeated option)
  else
    match option with
    | .accounts => do
        return { given with accounts := some (← readPath option entered) }
    | .actions => do
        return { given with actions := some (← readPath option entered) }
    | .ledgerOut => do
        return { given with ledgerOut := some (← readPath option entered) }
    | .config => do
        return { given with config := some (← readPath option entered) }
    | .batchSize => do
        return { given with batchSize := some (← readNumber option entered) }
    | .workerThreads => do
        return { given with workerThreads := some (← readNumber option entered) }
    | .logLevel => .ok { given with logLevel := some entered }
    | .help => .error .helpWanted

/-- The command line, if its two files are given. -/
def finish (given : GivenOptions) : Except UsageError CommandLine :=
  match given.accounts, given.actions with
  | some accounts, some actions =>
      .ok {
        accounts := accounts
        actions := actions
        ledgerOut := given.ledgerOut
        config := given.config
        batchSize := given.batchSize
        workerThreads := given.workerThreads
        logLevel := given.logLevel
      }
  | _, _ => .error .missingOptions

end GivenOptions

namespace CommandLine

/-- What a word is, apart from what stands before it. -/
inductive Word where
  /-- An option, with its value if that is in the same word. -/
  | option (option : CommandOption) (value : Option String)
  /-- Two dashes, behind which nothing may follow. -/
  | endOfOptions
  | unknown
  | plain
  deriving Repr, DecidableEq

def longWord (characters : List Char) : Word :=
  let (name, value) :=
    match Text.cutAtFirst? '=' characters with
    | some (name, value) => (name, some (String.ofList value))
    | none => (characters, none)
  if name.isEmpty then
    .plain
  else
    match CommandOption.all.find? (·.name == String.ofList name) with
    | some option => .option option value
    | none => .unknown

def shortWord (letter : Char) (rest : List Char) : Word :=
  match CommandOption.all.find? (·.letter? == some letter) with
  | none => .unknown
  | some .help => .option .help none
  | some option =>
      match rest with
      | [] => .option option none
      | '=' :: value => .option option (some (String.ofList value))
      | value => .option option (some (String.ofList value))

/-- What a word is. -/
def Word.ofString (word : String) : Word :=
  match word.toList with
  | ['-', '-'] => .endOfOptions
  | '-' :: '-' :: rest => longWord rest
  | '-' :: letter :: rest => shortWord letter rest
  | _ => .plain

/-- An option whose value has not been judged, or is still to come. -/
abbrev Pending := Option (CommandOption × Option String)

/-- Judge the value of the pending option. -/
def settle
    (given : GivenOptions) :
    Pending → Except UsageError GivenOptions
  | none => .ok given
  | some (option, none) => .error (.missingValue option)
  | some (option, some entered) => given.give option entered

/-- The options that the words give, from a pending one on. -/
def givenBy
    (given : GivenOptions)
    (pending : Pending) :
    List String → Except UsageError GivenOptions
  | [] => settle given pending
  | word :: rest =>
      match Word.ofString word, pending with
      | .option .help none, _ => do
          let _ ← settle given pending
          .error .helpWanted
      | .option .help (some _), _ => .error (.unwantedValue .help)
      | .option option none, _ => do
          givenBy (← settle given pending) (some (option, none)) rest
      | .option option (some value), _ => do
          let settled ← settle given pending
          givenBy (← settled.give option value) none rest
      | .endOfOptions, _ =>
          match rest with
          | [] => settle given pending
          | extra :: _ => .error (.unknownWord extra)
      | .unknown, _ => .error (.unknownWord word)
      | .plain, some (option, none) =>
          givenBy given (some (option, some word)) rest
      | .plain, _ => .error (.unknownWord word)

def read (words : List String) : Except UsageError CommandLine := do
  (← givenBy .none none words).finish

/-- What is printed when help is asked for. -/
def helpText : String :=
  "Apply pay, waive, transfer, refund and cancel actions to fee/fine accounts\n\n" ++
  "Usage: feefine-engine [OPTIONS] --accounts <FILE> --actions <FILE>\n\n" ++
  "Options:\n" ++
  "      --accounts <FILE>         CSV file with the starting accounts\n" ++
  "      --actions <FILE>          CSV file with the actions to apply, in order\n" ++
  "      --ledger-out <FILE>       Where to write every ledger entry recorded during the run\n" ++
  "  -c, --config <FILE>           TOML configuration file\n" ++
  "      --batch-size <SIZE>       Number of actions read per batch (default: 1000)\n" ++
  "      --worker-threads <COUNT>  Worker threads of the async runtime (default: CPU cores)\n" ++
  "  -l, --log-level <LEVEL>       Log filter, overrides the configuration file and RUST_LOG\n" ++
  "  -h, --help                    Print help\n"

end CommandLine

end PatronFees
