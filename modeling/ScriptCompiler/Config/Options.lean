import ScriptCompiler.Lowering.Entry
import ScriptCompiler.Number.Numeral
import ScriptCompiler.Text.LowerCase
import ScriptCompiler.Text.Path
import ScriptCompiler.Token.Scanner

/-!
# Options

What a compilation depends on, the names of the options in configuration files, and the rules that
their values obey.
-/

namespace ScriptCompiler

/-- The options of a compilation. -/
structure CompilerOptions where
  /-- Print the tokens. -/
  dumpTokens : Bool := false
  /-- Print the syntax tree. -/
  dumpAst : Bool := false
  /-- Print the blocks. -/
  dumpIr : Bool := false
  /-- Print the assembly. -/
  dumpAsm : Bool := false
  /-- Whether to optimize at all. -/
  optimize : Bool := true
  /-- How much to optimize. -/
  optLevel : Int := 2
  /-- The executable to produce; derived from the input when empty. -/
  outputPath : Bytes := []
  /-- Run the program instead of linking it. -/
  executeImmediately : Bool := false
  /-- The name of the program's own entry function. -/
  entryName : Bytes := "main"
  /-- The name of the policy that chooses the entry function. -/
  entryPolicy : Bytes := "auto"
  /-- The machine to generate code for; the present one when empty. -/
  triple : Bytes := []
  /-- The least level of log lines that are written. -/
  logLevel : Bytes := "info"
  deriving DecidableEq, Repr

/-- A value given to an option. -/
inductive Setting where
  /-- A truth value. -/
  | flag (value : Bool)
  /-- An integer. -/
  | number (value : Int)
  /-- A text. -/
  | text (value : Bytes)
  deriving DecidableEq, Repr

/-- The class of values that an option takes. -/
inductive SettingClass where
  | flag
  | number
  | text
  deriving DecidableEq, Repr

/-- An option. -/
inductive OptionKey where
  | dumpTokens
  | dumpAst
  | dumpIr
  | dumpAsm
  | optimize
  | optLevel
  | outputPath
  | executeImmediately
  | entryName
  | entryPolicy
  | triple
  | logLevel
  deriving DecidableEq, Repr

namespace OptionKey

/-- All options. -/
def all : List OptionKey :=
  [.dumpTokens, .dumpAst, .dumpIr, .dumpAsm, .optimize, .optLevel, .outputPath, .executeImmediately,
    .entryName, .entryPolicy, .triple, .logLevel]

/-- The name of an option in a configuration file. -/
def name : OptionKey → Bytes
  | .dumpTokens => "dump_tokens"
  | .dumpAst => "dump_ast"
  | .dumpIr => "dump_ir"
  | .dumpAsm => "dump_asm"
  | .optimize => "optimize"
  | .optLevel => "opt_level"
  | .outputPath => "output_path"
  | .executeImmediately => "execute_immediately"
  | .entryName => "entry_name"
  | .entryPolicy => "entry_policy"
  | .triple => "triple"
  | .logLevel => "log_level"

/-- The option with a name. -/
def ofName? (name : Bytes) : Option OptionKey := all.find? fun key => key.name == name

/-- The small letter of ASCII that a rune is in another case: a capital letter, the sign of the
kelvin or the long s. -/
def foldCase (rune : Rune) : Rune :=
  if 0x41 ≤ rune && rune ≤ 0x5A then rune + 0x20
  else if rune == 0x212A then 0x6B
  else if rune == 0x017F then 0x73
  else rune

/-- The option with a name in letters of any case. -/
def ofAnyCase? (name : Bytes) : Option OptionKey :=
  ofName? ((Bytes.runes name).flatMap fun rune => Rune.encode (foldCase rune))

/-- The class of values that an option takes. -/
def settingClass : OptionKey → SettingClass
  | .dumpTokens | .dumpAst | .dumpIr | .dumpAsm | .optimize | .executeImmediately => .flag
  | .optLevel => .number
  | .outputPath | .entryName | .entryPolicy | .triple | .logLevel => .text

end OptionKey

namespace CompilerOptions

/-- The options with a new value for one of them; a value of another class is refused. -/
def set? (options : CompilerOptions) : OptionKey → Setting → Option CompilerOptions
  | .dumpTokens, .flag value => some { options with dumpTokens := value }
  | .dumpAst, .flag value => some { options with dumpAst := value }
  | .dumpIr, .flag value => some { options with dumpIr := value }
  | .dumpAsm, .flag value => some { options with dumpAsm := value }
  | .optimize, .flag value => some { options with optimize := value }
  | .optLevel, .number value => some { options with optLevel := value }
  | .outputPath, .text value => some { options with outputPath := value }
  | .executeImmediately, .flag value => some { options with executeImmediately := value }
  | .entryName, .text value => some { options with entryName := value }
  | .entryPolicy, .text value => some { options with entryPolicy := value }
  | .triple, .text value => some { options with triple := value }
  | .logLevel, .text value => some { options with logLevel := value }
  | _, _ => none

/-- The value of an option. -/
def get (options : CompilerOptions) : OptionKey → Setting
  | .dumpTokens => .flag options.dumpTokens
  | .dumpAst => .flag options.dumpAst
  | .dumpIr => .flag options.dumpIr
  | .dumpAsm => .flag options.dumpAsm
  | .optimize => .flag options.optimize
  | .optLevel => .number options.optLevel
  | .outputPath => .text options.outputPath
  | .executeImmediately => .flag options.executeImmediately
  | .entryName => .text options.entryName
  | .entryPolicy => .text options.entryPolicy
  | .triple => .text options.triple
  | .logLevel => .text options.logLevel

/-- The names of log levels that options may hold, in letters of any case. -/
def logLevels : List Bytes := ["debug", "info", "warn", "error"]

/-- The first rule that the options break. -/
def invalid? (options : CompilerOptions) : Option Bytes :=
  if options.optLevel < 0 || 3 < options.optLevel then
    some ("opt_level must be between 0 and 3, got " ++ Bytes.ofInt options.optLevel)
  else
    match EntryPolicy.ofName options.entryPolicy with
    | .error message => some ("entry_policy: " ++ message)
    | .ok _ =>
        if !isIdentifier options.entryName then
          some ("entry_name " ++ Quoted.text options.entryName ++ " is not an identifier")
        else if !logLevels.contains (Bytes.lower options.logLevel) then
          some ("log_level must be one of debug, info, warn, error, got " ++
            Quoted.text options.logLevel)
        else none

/-- The policy that chooses the entry function; the first one where the name is unknown. -/
def policy (options : CompilerOptions) : EntryPolicy :=
  match EntryPolicy.ofName options.entryPolicy with
  | .ok policy => policy
  | .error _ => .auto

/-- What lowering depends on. -/
def entry (options : CompilerOptions) : EntryOptions := ⟨options.entryName, options.policy⟩

end CompilerOptions

/-- The format of a configuration file. -/
inductive ConfigFormat where
  | toml
  | yaml
  deriving DecidableEq, Repr

namespace ConfigFormat

/-- The name of a format. -/
def name : ConfigFormat → Bytes
  | .toml => "toml"
  | .yaml => "yaml"

/-- The name of the format with a number; every number but one stands for the first format. -/
def nameOfCode (code : Int) : Bytes :=
  if code = 1 then ConfigFormat.yaml.name else ConfigFormat.toml.name

/-- The format that the extension of a path tells. -/
def ofPath (path : Bytes) : ConfigFormat :=
  let extension := Bytes.lower (Path.extension path)
  if extension == Bytes.ofString ".yaml" || extension == Bytes.ofString ".yml" then .yaml else .toml

end ConfigFormat

/-- Why a configuration is refused. -/
inductive ConfigFault where
  /-- The file does not follow its format, or a value has the wrong type. -/
  | malformed
  /-- A key that is no option. -/
  | unknownKey (key : Bytes)
  /-- A value that breaks a rule. -/
  | invalid (message : Bytes)
  /-- The file cannot be read. -/
  | unreadable (message : Bytes)
  deriving DecidableEq, Repr

/-- What is said about a fault. -/
def ConfigFault.message : ConfigFault → Bytes
  | .malformed => "failed to parse config"
  | .unknownKey key => "unknown config key " ++ Quoted.text key
  | .invalid message => message
  | .unreadable message => "reading config: " ++ message

end ScriptCompiler
