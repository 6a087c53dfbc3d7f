import AeadStream.Argon2.Hash
import AeadStream.ChunkSize
import AeadStream.Config

/-!
# Arguments

What the program is asked to do, and how that is said on the command line. Options are written
`--name value`, `--name=value`, `-n value`, `-nvalue` or `-n=value`, each at most once. Only the
option for the log may also stand before the command, and behind it wins.
-/

namespace AeadStream

/-! ## Commands -/

/-- Where the key comes from. -/
inductive KeySource
  | keyFile (path : String)
  | passwordFile (path : String)
deriving DecidableEq

/-- The path of its file. -/
def KeySource.path : KeySource → String
  | keyFile path | passwordFile path => path

/-- What encryption and decryption have in common. -/
structure PipeOptions where
  key : KeySource
  input : String
  output : String
  rekeyInterval : UInt32
deriving DecidableEq

/-- **What the program does.** -/
inductive Command
  | keygen (output : String)
  | encrypt (options : PipeOptions) (chunkSize : Nat) (costs : Argon2.Costs)
  | decrypt (options : PipeOptions) (maxChunkSize : Nat)
deriving DecidableEq

/-- **What was asked for.** -/
inductive Request
  | run (logLevel : String) (command : Command)
  | version
  | help
deriving DecidableEq

namespace Arguments

/-! ## Options -/

/-- What the value of an option has to be. -/
inductive ValueKind
  | text
  | path
  | number
  | chunkSize
deriving DecidableEq

/-- A number from zero to the largest of 32 bits. Zero may have a minus sign. -/
def parseNumber (text : String) : Option UInt32 :=
  let number (text : String) : Option Nat := (Text.parseNat (UInt32.size - 1) text).toOption
  match text.toList with
  | '-' :: '+' :: _ => none
  | '-' :: rest =>
    match number (String.ofList rest) with
    | some 0 => some 0
    | _ => none
  | _ => (number text).map UInt32.ofNat

/-- The text is a value of the kind. -/
def ValueKind.accepts : ValueKind → String → Bool
  | .text, _ => true
  | .path, value => value ≠ ""
  | .number, value => (parseNumber value).isSome
  | .chunkSize, value => (ChunkSize.parse value).toOption.isSome

/-- An option, which always takes a value. -/
structure Setting where
  name : String
  letter : Option Char := none
  kind : ValueKind

/-- The option for the log. -/
def logLevel : Setting := ⟨"log-level", none, .text⟩

/-- The options of encryption and decryption. -/
def pipeOptions : List Setting :=
  [⟨"key", some 'k', .path⟩, ⟨"password-file", some 'p', .path⟩, ⟨"input", some 'i', .path⟩,
   ⟨"output", some 'o', .path⟩, ⟨"rekey-interval", none, .number⟩]

/-- The options that a command takes, if there is such a command. -/
def optionsFor? (command : String) : Option (List Setting) :=
  match command with
  | "keygen" => some [logLevel, ⟨"out", some 'o', .path⟩]
  | "encrypt" =>
    some (logLevel :: pipeOptions ++
      [⟨"chunk-size", none, .chunkSize⟩, ⟨"kdf-memory-kib", none, .number⟩,
       ⟨"kdf-iterations", none, .number⟩])
  | "decrypt" => some (logLevel :: pipeOptions ++ [⟨"max-chunk-size", none, .chunkSize⟩])
  | _ => none

/-! ## Single arguments -/

/-- What an argument is, among the given options. -/
inductive Argument
  /-- an option, with its value if that is in the same argument -/
  | option (option : Setting) (value : Option String)
  | help
  | version
  /-- a command or a value -/
  | word
  /-- the end of the options -/
  | endOfOptions
  /-- an option that there is not -/
  | unknown

/-- A text up to and behind its first equals sign. -/
def splitEquals (text : List Char) : List Char × Option String :=
  match text.dropWhile (· ≠ '=') with
  | [] => (text, none)
  | _ :: value => (text.takeWhile (· ≠ '='), some (String.ofList value))

/-- Reads an argument. -/
def readArgument (options : List Setting) (hasVersion : Bool) (argument : String) : Argument :=
  match argument.toList with
  | ['-', '-'] => .endOfOptions
  | '-' :: '-' :: long =>
    let (name, value) := splitEquals long
    let name := String.ofList name
    match options.find? (·.name = name), value with
    | some option, value => .option option value
    | none, some _ => .unknown
    | none, none =>
      if name = "help" then .help
      else if hasVersion ∧ name = "version" then .version
      else .unknown
  | '-' :: letter :: rest =>
    if letter = 'h' then .help
    else if hasVersion ∧ letter = 'V' then .version
    else
      match options.find? (·.letter = some letter), rest with
      | none, _ => .unknown
      | some option, [] => .option option none
      | some option, '=' :: value => .option option (some (String.ofList value))
      | some option, value => .option option (some (String.ofList value))
  | _ => .word

/-! ## All arguments of one level -/

/-- The values of options, by name. -/
abbrev Values := List (String × String)

/-- How reading the arguments of one level ends. -/
inductive Level
  /-- all arguments are options -/
  | complete (values : Values)
  /-- a command follows, with its own arguments -/
  | command (values : Values) (name : String) (rest : List String)
  | help
  | version
  | refused

/-- Reads options up to the first word. -/
def readLevel (options : List Setting) (hasVersion : Bool) (values : Values) :
    List String → Level
  | [] => .complete values
  | argument :: rest =>
    let store (option : Setting) (value : String) : Option Values :=
      if option.kind.accepts value ∧ (values.lookup option.name).isNone then
        some ((option.name, value) :: values)
      else none
    match readArgument options hasVersion argument with
    | .help => .help
    | .version => .version
    | .unknown => .refused
    | .word => .command values argument rest
    | .endOfOptions => if rest = [] then .complete values else .refused
    | .option option (some value) =>
      match store option value with
      | none => .refused
      | some values => readLevel options hasVersion values rest
    | .option option none =>
      match rest with
      | [] => .refused
      | value :: rest =>
        if value.startsWith "-" ∧ value ≠ "-" then .refused
        else
          match store option value with
          | none => .refused
          | some values => readLevel options hasVersion values rest

/-! ## The request -/

/-- The key source in the values: exactly one of the two. -/
def keySource? (values : Values) : Option KeySource :=
  match values.lookup "key", values.lookup "password-file" with
  | some path, none => some (.keyFile path)
  | none, some path => some (.passwordFile path)
  | _, _ => none

/-- The number in the values, or the standard one. -/
def number (values : Values) (name : String) (standard : UInt32) : UInt32 :=
  ((values.lookup name).bind parseNumber).getD standard

/-- The chunk size in the values, or the standard one. -/
def chunkSize (values : Values) (name : String) (standard : Nat) : Nat :=
  ((values.lookup name).bind fun text => (ChunkSize.parse text).toOption).getD standard

/-- The options of encryption and decryption in the values. -/
def pipeOptions? (values : Values) : Option PipeOptions :=
  (keySource? values).map fun key =>
    { key
      input := (values.lookup "input").getD "-"
      output := (values.lookup "output").getD "-"
      rekeyInterval := number values "rekey-interval" Config.maxRekeyInterval }

/-- The command of the given name with the given values. -/
def command? (name : String) (values : Values) : Option Command :=
  match name with
  | "keygen" => some (.keygen ((values.lookup "out").getD "-"))
  | "encrypt" =>
    (pipeOptions? values).map fun options =>
      let standard : Argon2.Costs := {}
      .encrypt options (chunkSize values "chunk-size" ChunkSize.standard)
        { standard with
          memory := number values "kdf-memory-kib" standard.memory
          passes := number values "kdf-iterations" standard.passes }
  | "decrypt" =>
    (pipeOptions? values).map fun options =>
      .decrypt options (chunkSize values "max-chunk-size" ChunkSize.greatest)
  | _ => none

/-- The words behind the command that asks for help name a command, or nothing. -/
def isHelpTopic : List String → Bool
  | [] => true
  | [name] => name = "help" || (optionsFor? name).isSome
  | _ => false

/-- **What was asked for,** unless the arguments make no sense. -/
def parse (arguments : List String) : Option Request :=
  match readLevel [logLevel] true [] arguments with
  | .help => some .help
  | .version => some .version
  | .refused | .complete _ => none
  | .command outer name rest =>
    if name = "help" then if isHelpTopic rest then some .help else none
    else
      match optionsFor? name with
      | none => none
      | some options =>
        match readLevel options false [] rest with
        | .help => some .help
        | .version | .refused | .command .. => none
        | .complete values =>
          let level := (values.lookup "log-level").or (outer.lookup "log-level")
          (command? name values).map fun command => .run (level.getD "warn") command

end Arguments

end AeadStream
