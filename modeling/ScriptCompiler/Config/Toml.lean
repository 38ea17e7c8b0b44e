import ScriptCompiler.Config.Options
import ScriptCompiler.Config.Toml.Table

/-!
# Options in TOML

A TOML document sets the options that its outermost table names, in letters of any case.  Every
other key is unknown; the first one is reported unless a value has the wrong type.
-/

namespace ScriptCompiler.Toml

/-- A character between the quotes of a key in a message. -/
def quotedKeyByte (byte : UInt8) : Bytes :=
  match byte with
  | 0x22 => "\\\""
  | 0x5C => "\\\\"
  | 0x08 => "\\b"
  | 0x09 => "\\t"
  | 0x0A => "\\n"
  | 0x0C => "\\f"
  | 0x0D => "\\r"
  | _ => if byte < 0x20 || byte == 0x7F then "\\u" ++ hexDigits 4 byte.toNat else [byte]

/-- A part of a key in a message: in quotes unless it could be written without. -/
def keyPartText (part : Bytes) : Bytes :=
  if !part.isEmpty && part.all isKeyByte then part else "\"" ++ part.flatMap quotedKeyByte ++ "\""

/-- A key in a message. -/
def keyText (key : Key) : Bytes := Bytes.join "." (key.map keyPartText)

/-- The setting that an item is. -/
def Item.setting? : Item → Option Setting
  | .value (.string text) => some (.text text)
  | .value (.integer number) => some (.number number)
  | .value (.boolean flag) => some (.flag flag)
  | _ => none

/-- The options with an entry of the outermost table applied to them; entries that are about no
option change nothing. -/
def update? (options : CompilerOptions) (entry : Bytes × Item) : Option CompilerOptions :=
  match OptionKey.ofAnyCase? entry.1 with
  | none => some options
  | some option => entry.2.setting?.bind (options.set? option)

/-- Whether a key names an option. -/
def isKnown : Key → Bool
  | [name] => (OptionKey.ofAnyCase? name).isSome
  | _ => false

/-- The document that a text holds. -/
def document? (text : Bytes) : Option Document :=
  (read text).bind (Document.ofStatements? (2 * text.length + 2))

/-- The options that a document sets over given ones. -/
def decode (options : CompilerOptions) (text : Bytes) : Except ConfigFault CompilerOptions :=
  match document? text with
  | none => .error .malformed
  | some document =>
      match document.root.foldlM update? options with
      | none => .error .malformed
      | some result =>
          match document.keys.reverse.find? (!isKnown ·) with
          | some key => .error (.unknownKey (keyText key))
          | none => .ok result

end ScriptCompiler.Toml
