import ScriptCompiler.Config.Yaml.Cursor
import ScriptCompiler.Number.Numeral

/-!
# Scalars as they are written

The text of a scalar in quotes, without quotes, or in a block of lines.  Each reader starts at a
cursor and returns the text and the place behind it; what it refuses is no scalar.

Within a scalar a gap of blanks and line ends is folded: a single line end is a space, and of
several the first disappears.  Blocks keep or fold their line ends and say how many remain at the
end.
-/

namespace ScriptCompiler.Yaml

/-- What a first line end and the others behind it stand for. -/
def foldBreaks (first : Rune) (others : List Rune) : List Rune :=
  if first != 0x0A then first :: others else if others.isEmpty then [0x20] else others

/-- What a gap inside a scalar stands for: itself if no line ends in it. -/
def foldGap (gap : List Rune) : List Rune :=
  match gap.filter isBreak with
  | [] => gap
  | first :: others => foldBreaks first others

/-! ## In quotes -/

/-- The runes that a letter behind a backslash stands for. -/
def escapes : List (Rune × Rune) :=
  [(0x30, 0x00), (0x61, 0x07), (0x62, 0x08), (0x74, 0x09), (0x09, 0x09), (0x6E, 0x0A), (0x76, 0x0B),
    (0x66, 0x0C), (0x72, 0x0D), (0x65, 0x1B), (0x20, 0x20), (0x22, 0x22), (0x27, 0x27),
    (0x5C, 0x5C),
    (0x4E, 0x85), (0x5F, 0xA0), (0x4C, 0x2028), (0x50, 0x2029)]

/-- The letters behind a backslash that announce hexadecimal digits, and how many. -/
def numberedEscapes : List (Rune × Nat) := [(0x78, 2), (0x75, 4), (0x55, 8)]

/-- The value of a hexadecimal digit. -/
def hexDigit? (rune : Rune) : Option Nat :=
  if rune < 0x80 then Numeral.digit? 16 rune.toUInt8 else none

/-- The number with given hexadecimal digits. -/
def hexNumber? (digits : List Rune) : Option Nat :=
  (digits.mapM hexDigit?).map fun values => values.foldl (fun value digit => value * 16 + digit) 0

/-- The rune that the text behind a backslash stands for, and how much of the text it takes. -/
def escape? (text : List Rune) : Option (Rune × Nat) :=
  match text with
  | [] => none
  | letter :: rest =>
      match escapes.lookup letter, numberedEscapes.lookup letter with
      | some rune, _ => some (rune, 1)
      | none, none => none
      | none, some count =>
          match hexNumber? (rest.take count) with
          | none => none
          | some rune =>
              if count ≤ rest.length && Rune.isScalar rune then some (rune, count + 1) else none

/-- The rest of a scalar in quotes, up to its closing quote. -/
def quoted? (quote : Rune) : Nat → Cursor → Option (List Rune × Cursor)
  | 0, _ => none
  | fuel + 1, cursor =>
      let behind (text : List Rune) (taken : Nat) : Option (List Rune × Cursor) :=
        (quoted? quote fuel (cursor.skip taken)).map fun (more, after) => (text ++ more, after)
      match cursor.rest with
      | [] => none
      | rune :: rest =>
          if cursor.atMark then none
          else if isGap rune then
            let gap := cursor.rest.takeWhile isGap
            behind (foldGap gap) gap.length
          else if rune == quote then
            if quote == 0x27 && rest.head? == some 0x27 then behind [0x27] 2
            else some ([], cursor.next)
          else if rune == 0x5C && quote == 0x22 then
            if rest.head?.any isBreak then
              let gap := (rest.drop 1).takeWhile isGap
              behind (gap.filter isBreak) (gap.length + 2)
            else
              match escape? rest with
              | none => none
              | some (meant, length) => behind [meant] (length + 1)
          else behind [rune] 1

/-! ## Without quotes -/

/-- A rune that ends a scalar without quotes in a flow collection. -/
def endsFlowScalar (rune : Rune) : Bool :=
  rune == 0x2C || rune == 0x3F || rune == 0x5B || rune == 0x5D || rune == 0x7B || rune == 0x7D

/-- The runes up to a gap, a colon before a gap or, in a flow collection, a rune that ends it. -/
def plainWord (flow : Bool) : List Rune → List Rune
  | [] => []
  | rune :: rest =>
      if isGap rune || (rune == 0x3A && startsGap rest) || (flow && endsFlowScalar rune) then []
      else rune :: plainWord flow rest

/-- Whether a tab stands before a column in a text that begins at another one. -/
def hasTabBefore (indent column : Nat) : List Rune → Bool
  | [] => false
  | rune :: rest =>
      if isBreak rune then hasTabBefore indent 0 rest
      else (rune == 0x09 && column < indent) || hasTabBefore indent (column + 1) rest

/-- A scalar without quotes.  Outside flow collections it goes on as long as its lines begin at
least at the column `indent`. -/
def plain? (flow : Bool) (indent : Nat) : Nat → Cursor → Option (List Rune × Cursor)
  | 0, _ => none
  | fuel + 1, cursor =>
      if cursor.atMark || cursor.isAt 0x23 then some ([], cursor)
      else
        let word := plainWord flow cursor.rest
        let behind := cursor.skip word.length
        let gap := behind.rest.takeWhile isGap
        let following := behind.skip gap.length
        if gap.isEmpty then some (word, behind)
        else if hasTabBefore indent 0 (gap.dropWhile isBlank) then none
        else if !flow && following.column < indent then some (word, following)
        else
          (plain? flow indent fuel following).map fun (more, after) =>
            (if more.isEmpty then word else word ++ foldGap gap ++ more, after)

/-! ## In a block -/

/-- How many line ends remain behind the last line of a block. -/
inductive Chomping where
  /-- One. -/
  | clip
  /-- None. -/
  | strip
  /-- All. -/
  | keep
  deriving DecidableEq, Repr

/-- The sign for another number of line ends than one. -/
def chomping? (rune : Rune) : Option Chomping :=
  if rune == 0x2B then some .keep else if rune == 0x2D then some .strip else none

/-- A digit that gives an indentation. -/
def increment? (rune : Rune) : Option Nat := if Rune.isDigit rune then some (rune - 0x30) else none

/-- The signs behind the mark of a block: the treatment of line ends, the indentation, where zero
stands for one that is not given, and the number of signs. -/
def blockSigns? (text : List Rune) : Option (Chomping × Nat × Nat) :=
  let first := text.head?
  let second := (text.drop 1).head?
  match first.bind chomping?, first.bind increment? with
  | some chomping, _ =>
      match second.bind increment? with
      | none => some (chomping, 0, 1)
      | some increment => if increment == 0 then none else some (chomping, increment, 2)
  | none, some increment =>
      if increment == 0 then none
      else
        match second.bind chomping? with
        | none => some (.clip, increment, 1)
        | some chomping => some (chomping, increment, 2)
  | none, none => some (.clip, 0, 0)

/-- The line ends before the next line of a block that is not empty, the largest column reached
before it, and its place.  An indentation of zero is one that is still to be found. -/
def blockBreaks? (indent deepest : Nat) : Nat → Cursor → Option (List Rune × Nat × Cursor)
  | 0, _ => none
  | fuel + 1, cursor =>
      let spaces := (cursor.rest.takeWhile (· == 0x20)).length
      let here := cursor.skip (if indent == 0 then spaces else min spaces (indent - cursor.column))
      let reached := max deepest here.column
      if here.isAt 0x09 && (indent == 0 || here.column < indent) then none
      else
        match here.rest with
        | [] => some ([], reached, here)
        | rune :: _ =>
            if isBreak rune then
              (blockBreaks? indent reached fuel here.next).map fun (more, found, after) =>
                (rune :: more, found, after)
            else some ([], reached, here)

/-- What stands between two lines of a block. -/
structure BlockGap where
  /-- The line end of the first line. -/
  first : List Rune := []
  /-- The line ends of the empty lines behind it. -/
  others : List Rune := []
  /-- Whether the first line begins with a blank. -/
  blank : Bool := false

/-- What a gap stands for before a line that begins with a blank or not.  Only between lines that
begin with none is a line end folded. -/
def BlockGap.text (literal blank : Bool) (gap : BlockGap) : List Rune :=
  if !literal && !gap.blank && !blank && gap.first.head? == some 0x0A then
    if gap.others.isEmpty then [0x20] else gap.others
  else gap.first ++ gap.others

/-- The lines of a block with an indentation, and the gap behind them. -/
def blockLines? (literal : Bool) (indent : Nat) :
    Nat → BlockGap → Cursor → Option (List Rune × BlockGap × Cursor)
  | 0, _, _ => none
  | fuel + 1, gap, cursor =>
      if cursor.column != indent || cursor.rest.isEmpty then some ([], gap, cursor)
      else do
        let blank := cursor.rest.head?.any isBlank
        let line := cursor.rest.takeWhile fun rune => !isBreak rune
        let lineEnd := cursor.skipLine
        let (others, _, following) ← blockBreaks? indent 0 (lineEnd.rest.length + 1) lineEnd.next
        let (more, last, after) ←
          blockLines? literal indent fuel ⟨lineEnd.rest.take 1, others, blank⟩ following
        return (gap.text literal blank ++ line ++ more, last, after)

/-- A block, whose mark has been taken, inside a block that begins at a column. -/
def block? (literal : Bool) (parent : Option Nat) (cursor : Cursor) :
    Option (List Rune × Cursor) := do
  let (chomping, increment, length) ← blockSigns? cursor.rest
  let behind := (cursor.skip length).skipWhile isBlank
  let lineEnd := if behind.isAt 0x23 then behind.skipLine else behind
  if !lineEnd.rest.head?.all isBreak then none
  let fuel := cursor.rest.length + 2
  let given := if increment == 0 then 0 else parent.getD 0 + increment
  let (breaks, deepest, first) ← blockBreaks? given 0 fuel lineEnd.next
  let least := match parent with
    | none => 1
    | some column => column + 1
  let indent := if given == 0 then max deepest least else given
  let (text, gap, after) ← blockLines? literal indent fuel { others := breaks } first
  return match chomping with
    | .strip => (text, after)
    | .clip => (text ++ gap.first, after)
    | .keep => (text ++ gap.first ++ gap.others, after)

end ScriptCompiler.Yaml
