import Swimlane.Options

/-!
# Command line arguments

A command line names one of three commands. Options come before or behind the other arguments of
their command; `--` ends them. The value of an option may stand in the same argument or in the next
one; in the next one, it is checked only when another argument has been recognised or the line ends.

## Main definitions

* `Command`: a command with its arguments;
* `ArgumentError`: what can be wrong with a command line;
* `Arguments.parse`: reads a command line.
-/

namespace Swimlane

/-- What to do. -/
inductive Command where
  | render (file : String) (output : Option String) (direction : Option Direction) (noStyles : Bool)
      (config : Option String)
  | ast (file : String) (compact : Bool) (config : Option String)
  | check (path : String) (denyWarnings : Bool) (config : Option String)
  deriving Repr, DecidableEq

/-- A command line that has been read. -/
structure Arguments where
  verbose : Nat
  command : Command
  deriving Repr, DecidableEq

/-- Why a command line is not carried out. -/
inductive ArgumentError where
  /-- No argument is given. -/
  | nothingGiven
  | missingCommand
  | unknownCommand (name : String)
  | unknownArgument (text : String)
  | missingArgument
  /-- An option without value, or an empty path. -/
  | invalidValue (name : String)
  | invalidDirection (text : String)
  | repeated (name : String)
  /-- A value for an option that takes none. -/
  | unexpectedValue (name : String)
  | helpRequested
  | versionRequested
  deriving Repr, DecidableEq

namespace ArgumentError

/-- Whether the text of the answer goes to the standard output. -/
def isAnswer : ArgumentError → Bool
  | .helpRequested | .versionRequested => true
  | _ => false

def exitCode (e : ArgumentError) : Nat := if e.isAnswer then 0 else 2

end ArgumentError

namespace Arguments

/-- The names of the commands. -/
inductive Verb where
  | render
  | ast
  | check
  deriving Repr, DecidableEq

def Verb.ofName? : String → Option Verb
  | "render" => some .render
  | "ast" => some .ast
  | "check" => some .check
  | _ => none

/-- What the value of an option is. -/
inductive ValueKind where
  | path
  | direction
  deriving Repr, DecidableEq

/-- What an option means. -/
inductive Meaning where
  | verbose
  | help
  | version
  | switch (name : String)
  | value (name : String) (kind : ValueKind)
  deriving Repr, DecidableEq

/-- The options that only a command has. -/
def Verb.options : Verb → List Meaning
  | .render =>
    [.value "output" .path, .value "direction" .direction, .switch "no-styles",
      .value "config" .path]
  | .ast => [.switch "compact", .value "config" .path]
  | .check => [.switch "deny-warnings", .value "config" .path]

/-- The options in front of the command, or behind one. -/
def options : Option Verb → List Meaning
  | none => [.verbose, .help, .version]
  | some verb => [.verbose, .help] ++ verb.options

def Meaning.long : Meaning → String
  | .verbose => "verbose"
  | .help => "help"
  | .version => "version"
  | .switch name => name
  | .value name _ => name

def Meaning.short? : Meaning → Option Char
  | .verbose => some 'v'
  | .help => some 'h'
  | .version => some 'V'
  | .value "output" _ => some 'o'
  | _ => none

/-- What has been recognised of a command and its options. -/
structure Matches where
  /-- The options and arguments that were given, with their values. -/
  given : List (String × String) := []
  /-- How often the option for more output was given; it is counted up to 255. -/
  verbose : Nat := 0
  /-- An option or argument whose value has not been checked; the value itself may be still to
  come. -/
  pending : Option (String × ValueKind × Option String) := none
  /-- Whether options have ended. -/
  ended : Bool := false

namespace Matches

/-- Takes the value of an option or argument. None may be given twice. -/
def accept (m : Matches) (name : String) (kind : ValueKind) (value : String) :
    Except ArgumentError Matches :=
  if (m.given.lookup name).isSome then .error (.repeated name)
  else match kind with
    | .path =>
      if value = "" then .error (.invalidValue name)
      else .ok { m with given := (name, value) :: m.given }
    | .direction =>
      match Direction.parse value with
      | .error _ => .error (.invalidDirection value)
      | .ok _ => .ok { m with given := (name, value) :: m.given }

/-- Checks the value that waits. -/
def settle (m : Matches) : Except ArgumentError Matches :=
  match m.pending with
  | none => .ok m
  | some (name, kind, some value) => { m with pending := none }.accept name kind value
  | some (name, _, none) => .error (.invalidValue name)

/-- Takes an option, with its value if that stands in the same argument. -/
def take (m : Matches) (meaning : Meaning) (value : Option String) : Except ArgumentError Matches :=
  match meaning, value with
  | .value name kind, some v => do (← m.settle).accept name kind v
  | .value name kind, none => do return { ← m.settle with pending := some (name, kind, none) }
  | meaning, some _ => .error (.unexpectedValue meaning.long)
  | .verbose, none => do
    let m ← m.settle
    return { m with verbose := min 255 (m.verbose + 1) }
  | .help, none => do let _ ← m.settle; throw .helpRequested
  | .version, none => do let _ ← m.settle; throw .versionRequested
  | .switch name, none => do
    let m ← m.settle
    if (m.given.lookup name).isSome then throw (.repeated name)
    return { m with given := (name, "") :: m.given }

/-- Takes an option by its long name. -/
def takeLong (known : List Meaning) (m : Matches) (text : List Char) :
    Except ArgumentError Matches :=
  let name := String.ofList (text.takeWhile (· != '='))
  let value := match text.dropWhile (· != '=') with
    | [] => none
    | _ :: value => some (String.ofList value)
  match known.find? (·.long = name) with
  | none => .error (.unknownArgument name)
  | some meaning => m.take meaning value

/-- Takes options by their letters. The first that has a value takes the rest of the argument for
it, if there is a rest. -/
def takeShort (known : List Meaning) (m : Matches) : List Char → Except ArgumentError Matches
  | [] => .ok m
  | letter :: rest =>
    match known.find? (·.short? = some letter) with
    | none => .error (.unknownArgument (String.ofList [letter]))
    | some (.value name kind) =>
      m.take (.value name kind) <|
        match rest with
        | [] => none
        | '=' :: value => some (String.ofList value)
        | value => some (String.ofList value)
    | some meaning => do takeShort known (← m.take meaning none) rest

/-- Takes an argument that is no option of a command. Each command has one. -/
def takeOther (m : Matches) (text : String) : Except ArgumentError Matches :=
  -- An argument that still waits is the one argument that the command has.
  if (m.given.lookup "file").isSome || m.pending.any (·.1 = "file") then
    .error (.unknownArgument text)
  else do return { ← m.settle with pending := some ("file", .path, some text) }

/-- Takes an argument of a command. -/
def step (verb : Verb) (m : Matches) (text : String) : Except ArgumentError Matches :=
  if m.ended then m.takeOther text
  else match text.toList with
    | ['-', '-'] => .ok { m with ended := true }
    | '-' :: '-' :: long => m.takeLong (options (some verb)) long
    | '-' :: letter :: letters => m.takeShort (options (some verb)) (letter :: letters)
    | _ =>
      match m.pending with
      | some (name, kind, none) => .ok { m with pending := some (name, kind, some text) }
      | _ => m.takeOther text

/-- The command that was recognised. -/
def command (m : Matches) : Verb → Except ArgumentError Command
  | .render =>
    match m.given.lookup "file" with
    | none => .error .missingArgument
    | some file =>
      let direction := (m.given.lookup "direction").bind fun d => (Direction.parse d).toOption
      .ok (.render file (m.given.lookup "output") direction (m.given.lookup "no-styles").isSome
        (m.given.lookup "config"))
  | .ast =>
    match m.given.lookup "file" with
    | none => .error .missingArgument
    | some file => .ok (.ast file (m.given.lookup "compact").isSome (m.given.lookup "config"))
  | .check =>
    .ok (.check ((m.given.lookup "file").getD ".") (m.given.lookup "deny-warnings").isSome
      (m.given.lookup "config"))

end Matches

/-- Reads the arguments of a command. The count of the option for more output, if it is given here,
replaces the one in front of the command. -/
def parseCommand (verb : Verb) (outer : Matches) (args : List String) :
    Except ArgumentError Arguments := do
  let m ← (← args.foldlM (Matches.step verb) {}).settle
  let command ← m.command verb
  return { verbose := if m.verbose = 0 then outer.verbose else m.verbose, command }

/-- Answers a request for help about commands. -/
def parseHelp : List String → ArgumentError
  | [] => .helpRequested
  | name :: names =>
    if names.isEmpty && (name = "help" || (Verb.ofName? name).isSome) then .helpRequested
    else .unknownCommand name

/-- Reads the options in front of the command, then the command. -/
def parseFrom (m : Matches) : List String → Except ArgumentError Arguments
  | [] => .error (if m.verbose = 0 then .nothingGiven else .missingCommand)
  | text :: rest =>
    if m.ended then
      .error (if text = "help" || (Verb.ofName? text).isSome then .unknownArgument text
        else .unknownCommand text)
    else if text = "help" then .error (parseHelp rest)
    else match Verb.ofName? text, text.toList with
      | some verb, _ => parseCommand verb m rest
      | none, ['-', '-'] => parseFrom { m with ended := true } rest
      | none, '-' :: '-' :: long => do parseFrom (← m.takeLong (options none) long) rest
      | none, '-' :: letter :: letters => do
        parseFrom (← m.takeShort (options none) (letter :: letters)) rest
      | none, _ => .error (.unknownCommand text)

/-- Reads a command line without the name of the program. -/
def parse (args : List String) : Except ArgumentError Arguments := parseFrom {} args

end Arguments

end Swimlane
