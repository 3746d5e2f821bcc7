import TestRig.Yaml.Cursor
import TestRig.Yaml.Scalar

/-!
# The texts of scalars

A scalar may be spread over several lines. Lines of a plain, quoted or folded scalar are joined by
spaces, and an empty line between them becomes a line feed; a literal scalar keeps its lines.

Each reader starts at the first character of the scalar and gives its text and the place behind
it, or nothing if the scalar is ill-formed. Readers pass at least one character in each round, so
the length of the text bounds the rounds.
-/

namespace TestRig.Yaml

/-! ## Gaps between words -/

/-- The blanks and breaks between two words of a scalar. -/
structure ScalarGap where
  /-- The blanks before the first break. -/
  blanks : List Char := []
  /-- The breaks as they count in a text, in order. -/
  breaks : List (List Char) := []
  deriving DecidableEq, Repr, Inhabited

namespace ScalarGap

/-- What a gap stands for. -/
def text (g : ScalarGap) : List Char :=
  match g.breaks with
  | [] => g.blanks
  | first :: rest =>
    if first == ['\n'] then if rest.isEmpty then [' '] else rest.flatten
    else first ++ rest.flatten

/-- Read a gap. Tabs may not stand left of the column `indent` of a later line. -/
def read (indent : Nat) : Nat → Cursor → ScalarGap → Option (ScalarGap × Cursor)
  | 0, c, g => some (g, c)
  | n + 1, c, g =>
    match c.head with
    | none => some (g, c)
    | some x =>
      if isBlank x then
        if g.breaks.isEmpty then read indent n (c.skip 1) { g with blanks := g.blanks ++ [x] }
        else if x == '\t' && c.column < indent then none
        else read indent n (c.skip 1) g
      else if isBreak x then
        let (b, c) := c.passBreak
        read indent n c { g with breaks := g.breaks ++ [b] }
      else some (g, c)

end ScalarGap

/-! ## Plain scalars -/

/-- The length of the plain word at the beginning of a text. Inside of brackets a word ends at
commas and brackets too, and a colon may not touch them. -/
def plainWord? (inFlow : Bool) : List Char → Option Nat
  | [] => some 0
  | x :: rest =>
    if isBlank x || isBreak x then some 0
    else if inFlow && x == ':' && rest.head?.any [',', '?', '[', ']', '{', '}'].contains then none
    else if x == ':' && isGap rest.head? then some 0
    else if inFlow && [',', '[', ']', '{', '}'].contains x then some 0
    else (plainWord? inFlow rest).map (· + 1)

/-- A scalar that was read: its text, and whether it ended at the beginning of a line. -/
structure PlainText where
  text : List Char := []
  endsLine : Bool := false
  deriving DecidableEq, Repr, Inhabited

/-- Read a plain scalar. Its later lines begin at the column `indent` at least, unless it is inside
of brackets. -/
def plainText (inFlow : Bool) (indent : Nat) :
    Nat → Cursor → ScalarGap → PlainText → Option (PlainText × Cursor)
  | 0, c, _, t => some (t, c)
  | n + 1, c, gap, t =>
    if c.isBoundary || c.head == some '#' then some (t, c)
    else do
      let k ← plainWord? inFlow c.rest
      let t : PlainText :=
        if k = 0 then t else ⟨t.text ++ gap.text ++ c.rest.take k, false⟩
      let c := c.skip k
      if c.rest.isEmpty || !isGap c.head then return (t, c)
      let (gap, c) ← ScalarGap.read indent c.rest.length c {}
      let t := { t with endsLine := !gap.breaks.isEmpty }
      if !inFlow && c.column < indent then return (t, c)
      plainText inFlow indent n c gap t

/-! ## Quoted scalars -/

/-- The character of a hexadecimal number. -/
def charOfHex? (cs : List Char) : Option Char := do
  let n ← natOfDigits? 16 cs
  if h : n.isValidChar then some (Char.ofNatAux n h) else none

/-- What a character behind a backslash stands for. -/
def escaped? : Char → Option Char
  | '0' => some '\x00'
  | 'a' => some '\x07'
  | 'b' => some '\x08'
  | 't' | '\t' => some '\t'
  | 'n' => some '\n'
  | 'v' => some '\x0b'
  | 'f' => some '\x0c'
  | 'r' => some '\r'
  | 'e' => some '\x1b'
  | ' ' => some ' '
  | '"' => some '"'
  | '/' => some '/'
  | '\\' => some '\\'
  | 'N' => some '\x85'
  | '_' => some '\xa0'
  | 'L' => some '\u2028'
  | 'P' => some '\u2029'
  | _ => none

/-- How many hexadecimal digits follow a letter behind a backslash. -/
def hexLength? : Char → Option Nat
  | 'x' => some 2
  | 'u' => some 4
  | 'U' => some 8
  | _ => none

/-- Read the escape behind a backslash. -/
def readEscape (c : Cursor) : Option (Char × Cursor) := do
  let x ← c.head
  match hexLength? x with
  | some k =>
    let digits := (c.rest.drop 1).take k
    if digits.length < k then none else return (← charOfHex? digits, c.skip (k + 1))
  | none => return (← escaped? x, c.skip 1)

/-- Read a word of a quoted scalar, up to a gap, the quote at the end, or an escaped break. Tells
whether it ended with an escaped break. -/
def quotedWord (quote : Char) : Nat → Cursor → List Char → Option ((List Char × Bool) × Cursor)
  | 0, c, t => some ((t, false), c)
  | n + 1, c, t =>
    match c.head with
    | none => some ((t, false), c)
    | some x =>
      if isBlank x || isBreak x then some ((t, false), c)
      else if x == quote then
        if quote == '\'' && c.peek 1 == some '\'' then
          quotedWord quote n (c.skip 2) (t ++ ['\''])
        else some ((t, false), c)
      else if quote == '"' && x == '\\' then
        if (c.peek 1).any isBreak then some ((t, true), (c.skip 1).passBreak.2)
        else do
          let (y, c) ← readEscape (c.skip 1)
          quotedWord quote n c (t ++ [y])
      else quotedWord quote n (c.skip 1) (t ++ [x])

/-- Read a quoted scalar behind its first quote. -/
def quotedText (quote : Char) : Nat → Cursor → List Char → Option (List Char × Cursor)
  | 0, _, _ => none
  | n + 1, c, t =>
    if c.isBoundary then none
    else do
      let ((t, joined), c) ← quotedWord quote c.rest.length c t
      let x ← c.head
      if x == quote then return (t, c.skip 1)
      let (gap, c) ← ScalarGap.read 0 c.rest.length c { breaks := if joined then [[]] else [] }
      quotedText quote n c (t ++ gap.text)

/-! ## Block scalars -/

/-- What becomes of the breaks at the end of a block scalar. -/
inductive Chomping where
  /-- One stays. -/
  | clip
  /-- None stays. -/
  | strip
  /-- All stay. -/
  | keep
  deriving DecidableEq, Repr, Inhabited

/-- The header of a block scalar: the chomping, and the indentation if it is given. -/
structure BlockHeader where
  chomping : Chomping := .clip
  indentation : Option Nat := none
  deriving DecidableEq, Repr, Inhabited

/-- The chomping that a character asks for. -/
def chompingOf? : Char → Option Chomping
  | '+' => some .keep
  | '-' => some .strip
  | _ => none

/-- Read what follows the first character of a block scalar on its line. -/
def blockHeader (c : Cursor) : Option (BlockHeader × Cursor) := do
  let indentation? (x : Char) : Option Nat :=
    if x.isDigit then some (x.toNat - '0'.toNat) else none
  let (h, c) : BlockHeader × Cursor :=
    match c.head.bind chompingOf? with
    | some ch =>
      match (c.peek 1).bind indentation? with
      | some k => (⟨ch, some k⟩, c.skip 2)
      | none => (⟨ch, none⟩, c.skip 1)
    | none =>
      match c.head.bind indentation? with
      | some k =>
        match (c.peek 1).bind chompingOf? with
        | some ch => (⟨ch, some k⟩, c.skip 2)
        | none => (⟨.clip, some k⟩, c.skip 1)
      | none => ({}, c)
  if h.indentation = some 0 then none
  let c := c.skipWhile isBlank
  let c := if c.head == some '#' then c.skipWhile (!isBreak ·) else c
  if c.head.all isBreak then return (h, c.passBreak.2) else none

/-- Pass empty lines. Lines of the scalar begin at the column `indent`, or at any if it is none.
Gives the breaks and the greatest column that was reached. -/
def blockBreaks (indent : Option Nat) :
    Nat → Cursor → List (List Char) → Nat → Option ((List (List Char) × Nat) × Cursor)
  | 0, c, bs, widest => some ((bs, widest), c)
  | n + 1, c, bs, widest =>
    let spaces := (c.rest.takeWhile (· == ' ')).length
    let c := c.skip (match indent with
      | some k => min spaces (k - c.column)
      | none => spaces)
    let widest := max widest c.column
    if indent.all (c.column < ·) && c.head == some '\t' then none
    else if c.head.any isBreak then
      let (b, c) := c.passBreak
      blockBreaks indent n c (bs ++ [b]) widest
    else some ((bs, widest), c)

/-- What was read of a block scalar. -/
structure BlockText where
  text : List Char := []
  /-- The break at the end of the last line. -/
  lastBreak : List Char := []
  /-- The breaks of the empty lines behind it. -/
  breaks : List (List Char) := []
  /-- Whether the last line began with a blank. -/
  blankFirst : Bool := false
  deriving DecidableEq, Repr, Inhabited

/-- Read the lines of a block scalar. -/
def blockLines (folded : Bool) (indent : Nat) :
    Nat → Cursor → BlockText → Option (BlockText × Cursor)
  | 0, c, t => some (t, c)
  | n + 1, c, t =>
    if c.column != indent || c.rest.isEmpty then some (t, c)
    else do
      let blankFirst := c.head.any isBlank
      let joint :=
        if folded && t.lastBreak == ['\n'] && !t.blankFirst && !blankFirst then
          if t.breaks.isEmpty then [' '] else []
        else t.lastBreak
      let line := c.rest.takeWhile (!isBreak ·)
      let (lastBreak, c) := (c.skip line.length).passBreak
      let ((breaks, _), c) ← blockBreaks (some indent) c.rest.length c [] 0
      blockLines folded indent n c
        { text := t.text ++ joint ++ t.breaks.flatten ++ line, lastBreak, breaks, blankFirst }

/-- Read a block scalar behind its first character, inside of a block at the column `parent` if
there is one. -/
def blockText (folded : Bool) (parent : Option Nat) (c : Cursor) :
    Option (List Char × Cursor) := do
  let (h, c) ← blockHeader c
  let given := h.indentation.map fun k => parent.getD 0 + k
  let ((breaks, widest), c) ← blockBreaks given (c.rest.length + 1) c [] 0
  let least := match parent with
    | some p => p + 1
    | none => 1
  let indent := given.getD (max widest least)
  let (t, c) ← blockLines folded indent c.rest.length c { breaks }
  let text := match h.chomping with
    | .strip => t.text
    | .clip => t.text ++ t.lastBreak
    | .keep => t.text ++ t.lastBreak ++ t.breaks.flatten
  return (text, c)

end TestRig.Yaml
