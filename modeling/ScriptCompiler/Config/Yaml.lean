import ScriptCompiler.Config.Options
import ScriptCompiler.Config.Yaml.Meaning

/-!
# Options in YAML

The first document of a YAML stream sets options if it is a mapping of their names to scalars.  A
mapping may merge others under a key of its own: they set what the mapping itself, and the mappings
merged before, do not name.
-/

namespace ScriptCompiler.Yaml

/-- The words that a flag takes for yes. -/
def affirmations : List Bytes := ["y", "Y", "yes", "Yes", "YES", "on", "On", "ON"]

/-- The words that a flag takes for no. -/
def negations : List Bytes := ["n", "N", "no", "No", "NO", "off", "Off", "OFF"]

/-- The flag that a meaning is. -/
def Meaning.flag? : Meaning → Option Bool
  | .flag value => some value
  | .text content =>
      if affirmations.contains content then some true
      else if negations.contains content then some false
      else none
  | _ => none

/-- The integer that a meaning is; of a number with a fraction, the integer part. -/
def Meaning.number? : Meaning → Option Int
  | .integer value => some value
  | .double whole => whole
  | _ => none

/-- The text that the meaning of a scalar is; any meaning but nothing may be taken as it is
written. -/
def Meaning.content (written : Bytes) : Meaning → Bytes
  | .text content => content
  | _ => written

/-- The setting of a class that the meaning of a scalar is. -/
def Meaning.setting? (written : Bytes) (meaning : Meaning) : SettingClass → Option Setting
  | .flag => meaning.flag?.map .flag
  | .number => meaning.number?.map .number
  | .text => some (.text (meaning.content written))

/-- The scalar that a node is or stands for. -/
def Node.scalar? : Node → Option Scalar
  | .scalar content => some content
  | .alias _ (some target) => target.scalar?
  | _ => none

/-- The name that a key is; a key that means nothing has none. -/
def Node.keyName? (key : Node) : Option (Option Bytes) := do
  let scalar ← key.scalar?
  let meaning ← scalar.meaning?
  return if meaning == .nothing then none else some (meaning.content scalar.text)

/-- Whether a key asks to merge other mappings. -/
def Node.isMergeKey : Node → Bool
  | .scalar content => content.isMerge
  | _ => false

/-- Whether two keys are written alike: scalars with the same text, aliases of the same name, or two
collections of one kind. -/
def Node.isAlike : Node → Node → Bool
  | .scalar left, .scalar right => left.text == right.text
  | .alias left _, .alias right _ => left == right
  | .sequence _, .sequence _ => true
  | .mapping _, .mapping _ => true
  | _, _ => false

/-- Whether no two keys are written alike. -/
def areDistinct : List Node → Bool
  | [] => true
  | key :: rest => !rest.any key.isAlike && areDistinct rest

/-- The options with an option set to what a node means; one that means nothing changes nothing. -/
def update? (options : CompilerOptions) (option : OptionKey) (value : Node) :
    Option CompilerOptions := do
  let scalar ← value.scalar?
  let meaning ← scalar.meaning?
  if meaning == .nothing then return options
  let setting ← meaning.setting? scalar.text option.settingClass
  options.set? option setting

/-- Options under construction. -/
structure Progress where
  /-- The options. -/
  options : CompilerOptions
  /-- While mappings are merged, the names that are taken. -/
  taken : Option (List Bytes) := none
  /-- The options that the present mapping has set. -/
  set : List OptionKey := []

/-- Set what an entry of a mapping names.  A name that is taken is passed over. -/
def Progress.add? (progress : Progress) (entry : Node × Node) : Option Progress :=
  if entry.1.isMergeKey then some progress
  else
    match entry.1.keyName? with
    | none => none
    | some none => some progress
    | some (some name) =>
        if progress.taken.any (·.contains name) then some progress
        else do
          let option ← OptionKey.ofName? name
          if progress.set.contains option then none
          let options ← update? progress.options option entry.2
          return ⟨options, progress.taken.map (name :: ·), option :: progress.set⟩

/-- The names of the keys of a mapping. -/
def names (entries : List (Node × Node)) : List Bytes :=
  entries.filterMap fun entry => entry.1.keyName?.join

mutual

/-- Set what a mapping names, and then what the mappings merged into it name. -/
def merge? : Nat → Progress → List (Node × Node) → Option Progress
  | 0, _, _ => none
  | fuel + 1, progress, entries =>
      if !areDistinct (entries.map Prod.fst) then none
      else do
        let own ← entries.foldlM Progress.add? { progress with set := [] }
        match entries.find? fun entry => entry.1.isMergeKey with
        | none => return own
        | some (_, others) =>
            let merging := { own with taken := some (own.taken.getD (names entries)) }
            let merged ← mergeAll? fuel merging others
            return { merged with taken := own.taken.bind fun _ => merged.taken }

/-- Set what a mapping, an alias of one or each of a sequence of these names. -/
def mergeAll? : Nat → Progress → Node → Option Progress
  | 0, _, _ => none
  | fuel + 1, progress, .sequence items => items.foldlM (mergeItem? fuel) progress
  | fuel + 1, progress, node => mergeItem? fuel progress node

/-- Set what a mapping or an alias of one names. -/
def mergeItem? : Nat → Progress → Node → Option Progress
  | 0, _, _ => none
  | fuel + 1, progress, .mapping entries => merge? fuel progress entries
  | fuel + 1, progress, .alias _ (some (.mapping entries)) => merge? fuel progress entries
  | _, _, _ => none

end

/-- The options that a document sets over given ones.  A document that means nothing sets none. -/
def set? (fuel : Nat) (options : CompilerOptions) : Node → Option CompilerOptions
  | .mapping entries => (merge? fuel { options := options } entries).map Progress.options
  | .scalar content => if content.meaning? == some .nothing then some options else none
  | _ => none

/-- The options that the first document of a stream sets over given ones. -/
def decode (options : CompilerOptions) (stream : Bytes) : Except ConfigFault CompilerOptions :=
  match document? stream with
  | none => .error .malformed
  | some none => .ok options
  | some (some root) =>
      match set? (4 * stream.length + 8) options root with
      | some result => .ok result
      | none => .error .malformed

end ScriptCompiler.Yaml
