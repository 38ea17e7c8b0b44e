import ScriptCompiler.Config.Toml
import ScriptCompiler.Config.Yaml
import ScriptCompiler.Files
import ScriptCompiler.Text.Composed

/-!
# Loading a configuration

A configuration is read over the default options.  Its file is named by a path, in which variables
of the environment are expanded, by a variable, or by convention.
-/

namespace ScriptCompiler

/-- The variables of an environment. -/
abbrev Variables := List (Bytes × Bytes)

/-- The value of a variable; one that is not set is empty. -/
def Variables.value (environment : Variables) (name : Bytes) : Bytes :=
  (environment.lookup name).getD []

namespace Expansion

/-- A byte that names a variable on its own. -/
def isSpecial (byte : UInt8) : Bool :=
  byte == 0x2A || byte == 0x23 || byte == 0x24 || byte == 0x40 || byte == 0x21 || byte == 0x3F ||
    byte == 0x2D || (0x30 ≤ byte && byte ≤ 0x39)

/-- A byte of a variable's name. -/
def isNameByte (byte : UInt8) : Bool :=
  byte == 0x5F || (0x30 ≤ byte && byte ≤ 0x39) || (0x41 ≤ byte && byte ≤ 0x5A) ||
    (0x61 ≤ byte && byte ≤ 0x7A)

/-- The name behind a dollar sign and the number of bytes that it takes; no name and some bytes
where it is ill formed, no name and no bytes where there is none. -/
def name (text : Bytes) : Bytes × Nat :=
  match text with
  | [] => ([], 0)
  | 0x7B :: rest =>
      match rest with
      | special :: 0x7D :: _ =>
          if isSpecial special || special != 0x7D then ([special], 3) else ([], 2)
      | _ =>
          let inner := rest.takeWhile (· != 0x7D)
          if inner.length == rest.length then ([], 1) else (inner, inner.length + 2)
  | byte :: _ =>
      if isSpecial byte then ([byte], 1)
      else
        let word := text.takeWhile isNameByte
        (word, word.length)

/-- Expand the variables of a text after its first `skipped` bytes. -/
def expandAfter (value : Bytes → Bytes) : Nat → Bytes → Bytes
  | _, [] => []
  | skipped + 1, _ :: rest => expandAfter value skipped rest
  | 0, byte :: rest =>
      if byte == 0x24 && !rest.isEmpty then
        let (word, taken) := name rest
        (if !word.isEmpty then value word else if taken == 0 then [byte] else []) ++
          expandAfter value taken rest
      else byte :: expandAfter value 0 rest

end Expansion

/-- A text with variables in the place of their names behind a dollar sign. -/
def Variables.expand (environment : Variables) (text : Bytes) : Bytes :=
  Expansion.expandAfter environment.value 0 text

namespace CompilerOptions

/-- The options that a configuration sets over the defaults. -/
def parse (format : ConfigFormat) (content : Bytes) : Except ConfigFault CompilerOptions := do
  let decoded ← match format with
    | .toml => Toml.decode {} content
    | .yaml => Yaml.decode {} content
  let options := { decoded with entryName := Bytes.composed decoded.entryName }
  match options.invalid? with
  | some message => throw (.invalid message)
  | none => return options

/-- The options that the configuration at a path sets. -/
def load (files : Files) (environment : Variables) (path : Bytes) :
    Except ConfigFault CompilerOptions :=
  let expanded := environment.expand path
  match files.read expanded with
  | .error fault => .error (.unreadable (Files.readMessage expanded fault))
  | .ok content => parse (.ofPath expanded) content

/-- The variable that names the configuration. -/
def configVariable : Bytes := "TESS_CONFIG"

/-- The names of configurations that are looked for in the working directory, in order. -/
def configNames : List Bytes := ["tessc.toml", "tessc.yaml", "tessc.yml"]

/-- The options that the surroundings set: by the configuration that the variable names, by the
first one in the working directory, or the defaults. -/
def loadDefault (files : Files) (environment : Variables) : Except ConfigFault CompilerOptions :=
  let named := environment.value configVariable
  if !named.isEmpty then load files environment named
  else
    match configNames.find? files.has with
    | some path => load files environment path
    | none => .ok {}

end CompilerOptions

end ScriptCompiler
