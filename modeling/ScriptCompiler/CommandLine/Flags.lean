import ScriptCompiler.Text.Quoted

/-!
# Flags of the command line

The flags, how they are written among the arguments, and what is wrong with arguments that cannot be
read.  A flag has a long name behind two dashes and perhaps a letter behind one; letters of switches
may be joined.  The value of any other flag follows an equals sign or is the next argument.
-/

namespace ScriptCompiler.CommandLine

/-- A flag. -/
inductive Flag where
  /-- The configuration to load. -/
  | config
  /-- Tell about every stage. -/
  | verbose
  /-- Do not optimize. -/
  | noOptimization
  /-- The policy that chooses the entry function. -/
  | entryPolicy
  /-- A dump to write; it may be given several times. -/
  | dump
  /-- The executable to produce. -/
  | output
  /-- Run the program. -/
  | run
  /-- Describe the program. -/
  | help
  deriving DecidableEq, Repr

namespace Flag

/-- The long name of a flag. -/
def name : Flag → Bytes
  | .config => "config"
  | .verbose => "verbose"
  | .noOptimization => "no-opt"
  | .entryPolicy => "entry-policy"
  | .dump => "dump"
  | .output => "output"
  | .run => "run"
  | .help => "help"

/-- The letter of a flag. -/
def letter? : Flag → Option UInt8
  | .verbose => some 0x76
  | .dump => some 0x64
  | .output => some 0x6F
  | .help => some 0x68
  | _ => none

/-- Whether a flag is a switch, which needs no value. -/
def isSwitch : Flag → Bool
  | .verbose | .noOptimization | .run | .help => true
  | _ => false

/-- The flag as it is called in messages. -/
def title (flag : Flag) : Bytes :=
  match flag.letter? with
  | some letter => "-" ++ ([letter] : Bytes) ++ ", --" ++ flag.name
  | none => "--" ++ flag.name

/-- The flags of all commands. -/
def shared : List Flag := [.config, .verbose, .noOptimization, .entryPolicy, .help]

/-- The flags of the compilation of a file. -/
def compilation : List Flag := shared ++ [.dump, .output, .run]

/-- The flag with a long name. -/
def named? (flags : List Flag) (name : Bytes) : Option Flag :=
  flags.find? fun flag => flag.name == name

/-- The flag with a letter. -/
def lettered? (flags : List Flag) (letter : UInt8) : Option Flag :=
  flags.find? fun flag => flag.letter? == some letter

end Flag

/-- What is wrong with the arguments. -/
inductive Mistake where
  /-- A long flag without a name. -/
  | badSyntax (argument : Bytes)
  /-- A long name that no flag has. -/
  | unknownName (name : Bytes)
  /-- A letter that no flag has, and the letters from there on. -/
  | unknownLetter (letter : UInt8) (letters : Bytes)
  /-- A long flag at the end that needs a value. -/
  | missingValue (argument : Bytes)
  /-- A letter at the end whose flag needs a value. -/
  | missingLetterValue (letter : UInt8)
  /-- A value that a switch does not have. -/
  | badSwitch (flag : Flag) (value : Bytes)
  /-- Another number of arguments than one. -/
  | argumentCount (count : Nat)
  /-- An argument of a command that has none. -/
  | extraArgument (argument : Bytes)
  deriving DecidableEq, Repr

/-- What is said about a mistake. -/
def Mistake.message : Mistake → Bytes
  | .badSyntax argument => "bad flag syntax: " ++ argument
  | .unknownName name => "unknown flag: --" ++ name
  | .unknownLetter letter letters =>
      "unknown shorthand flag: " ++ Quoted.rune letter.toNat ++ " in -" ++ letters
  | .missingValue argument => "flag needs an argument: " ++ argument
  | .missingLetterValue letter =>
      "flag needs an argument: " ++ Quoted.rune letter.toNat ++ " in -" ++ ([letter] : Bytes)
  | .badSwitch flag value =>
      "invalid argument " ++ Quoted.text value ++ " for " ++ Quoted.text flag.title ++
        " flag: strconv.ParseBool: parsing " ++ Quoted.text value ++ ": invalid syntax"
  | .argumentCount count => "accepts 1 arg(s), received " ++ Bytes.ofNat count
  | .extraArgument argument => "unknown command " ++ Quoted.text argument ++ " for \"tessc repl\""

/-- The values of the flags. -/
structure FlagValues where
  /-- The configuration to load; chosen by convention when empty. -/
  config : Bytes := []
  /-- Whether to tell about every stage. -/
  verbose : Bool := false
  /-- Whether to leave optimization out. -/
  noOptimization : Bool := false
  /-- The policy that chooses the entry function, if one is given. -/
  entryPolicy : Option Bytes := none
  /-- The dumps to write, in the order given. -/
  dumps : List Bytes := []
  /-- The executable to produce; chosen by the compiler when empty. -/
  output : Bytes := []
  /-- Whether to run the program. -/
  run : Bool := false
  /-- Whether to describe the program. -/
  help : Bool := false
  deriving DecidableEq, Repr

/-- The truth value that a text stands for. -/
def switchValue? (text : Bytes) : Option Bool :=
  let yes : List Bytes := ["1", "t", "T", "true", "TRUE", "True"]
  let no : List Bytes := ["0", "f", "F", "false", "FALSE", "False"]
  if yes.contains text then some true else if no.contains text then some false else none

namespace FlagValues

/-- The values with that of a switch set. -/
def setSwitch (values : FlagValues) (flag : Flag) (value : Bool) : FlagValues :=
  match flag with
  | .verbose => { values with verbose := value }
  | .noOptimization => { values with noOptimization := value }
  | .run => { values with run := value }
  | .help => { values with help := value }
  | _ => values

/-- The values with that of a flag set by a text. -/
def set (values : FlagValues) (flag : Flag) (text : Bytes) : Except Mistake FlagValues :=
  match flag with
  | .config => .ok { values with config := text }
  | .entryPolicy => .ok { values with entryPolicy := some text }
  | .dump => .ok { values with dumps := values.dumps ++ [text] }
  | .output => .ok { values with output := text }
  | switch =>
      match switchValue? text with
      | some value => .ok (values.setSwitch switch value)
      | none => .error (.badSwitch switch text)

end FlagValues

/-- A flag that waits for the next argument as its value, and what is wrong if there is none. -/
structure Waiting where
  /-- The flag. -/
  flag : Flag
  /-- What is wrong without a value. -/
  mistake : Mistake
  deriving DecidableEq, Repr

/-- Read letters behind one dash. -/
def readLetters (flags : List Flag) (values : FlagValues) :
    Bytes → Except Mistake (FlagValues × Option Waiting)
  | [] => .ok (values, none)
  | letter :: rest =>
      match Flag.lettered? flags letter with
      | none => .error (.unknownLetter letter (letter :: rest))
      | some flag =>
          if 2 ≤ rest.length && rest.head? == some 0x3D then
            (values.set flag (rest.drop 1)).map fun next => (next, none)
          else if flag.isSwitch then readLetters flags (values.setSwitch flag true) rest
          else if rest.isEmpty then .ok (values, some ⟨flag, .missingLetterValue letter⟩)
          else (values.set flag rest).map fun next => (next, none)

/-- Read a long flag, given without its dashes. -/
def readName (flags : List Flag) (values : FlagValues) (content : Bytes) :
    Except Mistake (FlagValues × Option Waiting) :=
  if content.head? == some 0x2D || content.head? == some 0x3D then
    .error (.badSyntax ("--" ++ content))
  else
    let name := content.takeWhile (· != 0x3D)
    match Flag.named? flags name with
    | none => .error (.unknownName name)
    | some flag =>
        if name.length < content.length then
          (values.set flag (content.drop (name.length + 1))).map fun next => (next, none)
        else if flag.isSwitch then .ok (values.setSwitch flag true, none)
        else .ok (values, some ⟨flag, .missingValue ("--" ++ content)⟩)

/-- Read the arguments into the values of flags and the arguments that are no flags. -/
def readArguments (flags : List Flag) :
    Option Waiting → FlagValues → List Bytes → Except Mistake (FlagValues × List Bytes)
  | none, values, [] => .ok (values, [])
  | some waiting, _, [] => .error waiting.mistake
  | some waiting, values, argument :: rest => do
      readArguments flags none (← values.set waiting.flag argument) rest
  | none, values, argument :: rest =>
      match argument with
      | [0x2D, 0x2D] => .ok (values, rest)
      | 0x2D :: 0x2D :: content => do
          let (next, waiting) ← readName flags values content
          readArguments flags waiting next rest
      | 0x2D :: letter :: letters => do
          let (next, waiting) ← readLetters flags values (letter :: letters)
          readArguments flags waiting next rest
      | _ => do
          let (final, others) ← readArguments flags none values rest
          return (final, argument :: others)

/-- Whether an argument is a flag whose value is the next argument.  An unknown flag counts as
one. -/
def takesNext (flags : List Flag) (argument : Bytes) : Bool :=
  let isSwitch : Option Flag → Bool := fun flag => (flag.map Flag.isSwitch).getD false
  if argument.contains 0x3D then false
  else
    match argument with
    | 0x2D :: 0x2D :: name => !isSwitch (Flag.named? flags name)
    | [0x2D, letter] => !isSwitch (Flag.lettered? flags letter)
    | _ => false

/-- Whether an argument is no flag. -/
def isPlain (argument : Bytes) : Bool := !argument.isEmpty && argument.head? != some 0x2D

/-- The first argument that is neither a flag nor the value of one.  The search ends where a value
would be the last argument.  `skipping` tells that the next argument is a value. -/
def firstPlain? (flags : List Flag) (skipping : Bool) : List Bytes → Option Bytes
  | [] => none
  | argument :: rest =>
      if skipping then firstPlain? flags false rest
      else if argument == Bytes.ofString "--" then none
      else if takesNext flags argument then
        if rest.length ≤ 1 then none else firstPlain? flags true rest
      else if isPlain argument then some argument
      else firstPlain? flags false rest

/-- The arguments without the first one that equals `word` and is neither a flag nor the value of
one. -/
def withoutFirst (flags : List Flag) (word : Bytes) (skipping : Bool) : List Bytes → List Bytes
  | [] => []
  | argument :: rest =>
      if skipping then argument :: withoutFirst flags word false rest
      else if argument == Bytes.ofString "--" then argument :: rest
      else if takesNext flags argument then argument :: withoutFirst flags word true rest
      else if argument == word then rest
      else argument :: withoutFirst flags word false rest

/-- What the command line asks for. -/
inductive Request where
  /-- Compile a file. -/
  | compile (values : FlagValues) (path : Bytes)
  /-- Lead a dialogue. -/
  | dialogue (values : FlagValues)
  /-- Describe the program. -/
  | help
  deriving DecidableEq, Repr

/-- The word that asks for a dialogue. -/
def dialogueWord : Bytes := "repl"

/-- What arguments ask for. -/
def Request.ofArguments (arguments : List Bytes) : Except Mistake Request := do
  -- Which flags there are depends on the command, so that the command is looked for first, when
  -- help is not yet among the flags.
  let known := Flag.compilation.filter fun flag => flag != .help
  if firstPlain? known false arguments == some dialogueWord then
    let own := withoutFirst known dialogueWord false arguments
    let (values, others) ← readArguments Flag.shared none {} own
    if values.help then return .help
    match others with
    | [] => return .dialogue values
    | argument :: _ => throw (.extraArgument argument)
  else
    let (values, others) ← readArguments Flag.compilation none {} arguments
    if values.help then return .help
    match others with
    | [path] => return .compile values path
    | _ => throw (.argumentCount others.length)

end ScriptCompiler.CommandLine
