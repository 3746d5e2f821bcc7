import TestRig.Yaml.Text

/-!
# Tokens

A document is a sequence of tokens. Some stand for characters, others for the beginning and the end
of blocks, which only the columns of the lines tell. A key of a mapping may come without a mark in
front: whether a scalar was a key turns out at the colon behind it, and the tokens that announce
the key are inserted then.
-/

namespace TestRig.Yaml

/-- A token. -/
inductive Token where
  | versionDirective (major minor : Nat)
  | tagDirective (handle : String)
  | documentStart
  | documentEnd
  | blockSequence
  | blockMapping
  | blockEnd
  | flowSequence
  | flowSequenceEnd
  | flowMapping
  | flowMappingEnd
  | blockEntry
  | flowEntry
  | key
  | value
  | alias (name : String)
  | anchor (name : String)
  | tag (handle suffix : String)
  | scalar (text : String) (style : Style)
  deriving DecidableEq, Repr, Inhabited

/-- A place where a key may have begun. -/
structure KeyPlace where
  /-- The place of its first token. -/
  token : Nat
  /-- Whether nothing else may stand there. -/
  required : Bool
  line : Nat
  column : Nat
  index : Nat
  deriving DecidableEq, Repr

/-- The tokens up to a place, and what the lines before it mean for those behind it. -/
structure Lexer where
  cursor : Cursor
  tokens : Array Token := #[]
  /-- The columns of the open blocks, the innermost first. -/
  blocks : List Nat := []
  /-- The key that may have begun in each open pair of brackets, the innermost first, and outside
  of them. -/
  keys : List (Option KeyPlace) := [none]
  /-- Whether a key may begin here. -/
  keyAllowed : Bool := true
  deriving Inhabited

namespace Lexer

/-! ## Blocks and keys -/

/-- Whether the place is inside of brackets. -/
def inFlow (l : Lexer) : Bool := decide (1 < l.keys.length)

/-- The first column that a line inside of the innermost block may have. -/
def inner (l : Lexer) : Nat :=
  match l.blocks with
  | b :: _ => b + 1
  | [] => 0

/-- Add a token. -/
def emit (l : Lexer) (t : Token) : Lexer := { l with tokens := l.tokens.push t }

/-- Insert a token at a place. -/
def insertToken (l : Lexer) (place : Nat) (t : Token) : Lexer :=
  { l with tokens :=
      (l.tokens.toList.take place ++ t :: l.tokens.toList.drop place).toArray }

/-- Pass so many characters of the line. -/
def skip (l : Lexer) (n : Nat) : Lexer := { l with cursor := l.cursor.skip n }

/-- Close the blocks that do not reach to a column; all of them if there is none. -/
def closeBlocks (l : Lexer) (column : Option Nat) : Lexer :=
  if l.inFlow then l
  else
    let isClosed (b : Nat) : Bool :=
      match column with
      | some c => decide (c < b)
      | none => true
    let closed := l.blocks.takeWhile isClosed
    { l with
      tokens := l.tokens ++ (List.replicate closed.length Token.blockEnd).toArray
      blocks := l.blocks.drop closed.length }

/-- Open a block at a column, if it is inside of the innermost one. Its token comes at a place. -/
def openBlock (l : Lexer) (column place : Nat) (t : Token) : Lexer :=
  if l.inFlow || column < l.inner then l
  else { l.insertToken place t with blocks := column :: l.blocks }

/-- Forget the key that may have begun. A required one may not be forgotten. -/
def dropKey (l : Lexer) : Option Lexer :=
  match l.keys with
  | some k :: rest => if k.required then none else some { l with keys := none :: rest }
  | _ => some l

/-- Note that a key may begin here. -/
def noteKey (l : Lexer) : Option Lexer :=
  if !l.keyAllowed then some l
  else do
    let l ← l.dropKey
    let c := l.cursor
    let required := !l.inFlow && l.blocks.head? == some c.column
    let place : KeyPlace := ⟨l.tokens.size, required, c.line, c.column, c.index⟩
    return { l with keys := some place :: l.keys.drop 1 }

/-- How long a key may be. -/
def maxKeyLength : Nat := 1024

/-- Forget the keys that cannot go on up to here: they are too long or began on another line. -/
def dropStaleKeys (l : Lexer) : Option Lexer := do
  let keys ← l.keys.mapM fun key =>
    match key with
    | none => some none
    | some k =>
      if k.line < l.cursor.line || k.index + maxKeyLength < l.cursor.index then
        if k.required then none else some none
      else some (some k)
  return { l with keys }

/-! ## Tokens of one kind -/

/-- Pass blanks, comments and breaks. Tabs are blanks only where no key may begin. -/
def skipGap : Nat → Lexer → Lexer
  | 0, l => l
  | n + 1, l =>
    let tabs := l.inFlow || !l.keyAllowed
    let c := l.cursor.skipWhile fun x => x == ' ' || (tabs && x == '\t')
    let c := if c.head == some '#' then c.skipWhile (!isBreak ·) else c
    if c.head.any isBreak then
      skipGap n
        { l with cursor := c.passBreak.2, keyAllowed := l.keyAllowed || !l.inFlow }
    else { l with cursor := c }

/-- A character of a name. -/
def isNameChar (c : Char) : Bool := c.isAlphanum || c == '_' || c == '-'

/-- The characters of a tag that are no name characters. -/
def tagMarks : List Char :=
  [';', '/', '?', ':', '@', '&', '=', '+', '$', '.', '!', '~', '*', '\'', '(', ')', '%']

/-- A character of a tag. -/
def isTagChar (c : Char) : Bool := isNameChar c || tagMarks.contains c

/-- Read a number in a directive. -/
def versionPart (c : Cursor) : Option (Nat × Cursor) := do
  let digits := c.rest.takeWhile Char.isDigit
  if 9 < digits.length then none
  else return (← natOfDigits? 10 digits, c.skip digits.length)

/-- Read the rest of a line, which may hold a comment only. -/
def lineEnd (c : Cursor) : Option Cursor :=
  let c := c.skipWhile isBlank
  let c := if c.head == some '#' then c.skipWhile (!isBreak ·) else c
  if c.head.all isBreak then some (if c.head.isSome then c.passBreak.2 else c) else none

/-- Read a handle of tags: an exclamation mark, possibly with a name and another one behind. -/
def tagHandle (c : Cursor) : Option (String × Cursor) :=
  if c.head != some '!' then none
  else
    let name := (c.rest.drop 1).takeWhile isNameChar
    let c' := c.skip (1 + name.length)
    if c'.head == some '!' then some ("!" ++ String.ofList name ++ "!", c'.skip 1)
    else if name.isEmpty then some ("!", c')
    else none

/-- Read a directive. -/
def directive (l : Lexer) : Option Lexer := do
  let l ← (l.closeBlocks none).dropKey
  let l := { l with keyAllowed := false }
  let c := l.cursor.skip 1
  let name := String.ofList (c.rest.takeWhile isNameChar)
  let c := c.skip name.length
  if !isGap c.head then none
  let c := c.skipWhile isBlank
  if name == "YAML" then
    let (major, c) ← versionPart c
    if c.head != some '.' then none
    let (minor, c) ← versionPart (c.skip 1)
    return { l.emit (.versionDirective major minor) with cursor := ← lineEnd c }
  else if name == "TAG" then
    let (handle, c) ← tagHandle c
    if !c.head.any isBlank then none
    let c := c.skipWhile isBlank
    let c' := c.skipWhile isTagChar
    if c'.index == c.index || !isGap c'.head then none
    return { l.emit (.tagDirective handle) with cursor := ← lineEnd c' }
  else none

/-- Read the mark of the beginning or the end of a document. -/
def boundary (l : Lexer) (t : Token) : Option Lexer := do
  let l ← (l.closeBlocks none).dropKey
  return { (l.emit t).skip 3 with keyAllowed := false }

/-- Read an opening bracket. -/
def openFlow (l : Lexer) (t : Token) : Option Lexer := do
  let l ← l.noteKey
  return { (l.emit t).skip 1 with keys := none :: l.keys, keyAllowed := true }

/-- Read a closing bracket. -/
def closeFlow (l : Lexer) (t : Token) : Option Lexer := do
  let l ← l.dropKey
  return { (l.emit t).skip 1 with
    keys := if l.inFlow then l.keys.drop 1 else l.keys, keyAllowed := false }

/-- Read a comma. -/
def flowEntry (l : Lexer) : Option Lexer := do
  let l ← l.dropKey
  return { (l.emit .flowEntry).skip 1 with keyAllowed := true }

/-- Read the dash of an entry. -/
def blockEntry (l : Lexer) : Option Lexer := do
  if !l.inFlow && !l.keyAllowed then none
  let l ← (l.openBlock l.cursor.column l.tokens.size .blockSequence).dropKey
  return { (l.emit .blockEntry).skip 1 with keyAllowed := true }

/-- Read the question mark of a key. -/
def explicitKey (l : Lexer) : Option Lexer := do
  if !l.inFlow && !l.keyAllowed then none
  let l ← (l.openBlock l.cursor.column l.tokens.size .blockMapping).dropKey
  return { (l.emit .key).skip 1 with keyAllowed := !l.inFlow }

/-- Read the colon of a value. If a key may have begun before it, it did. -/
def value (l : Lexer) : Option Lexer :=
  match l.keys.head?.join with
  | some k =>
    let l := (l.insertToken k.token .key).openBlock k.column k.token .blockMapping
    some { (l.emit .value).skip 1 with keys := none :: l.keys.drop 1, keyAllowed := false }
  | none =>
    if !l.inFlow && !l.keyAllowed then none
    else
      let l := l.openBlock l.cursor.column l.tokens.size .blockMapping
      some { (l.emit .value).skip 1 with keyAllowed := !l.inFlow }

/-- Read an anchor or an alias. -/
def anchor (l : Lexer) (t : String → Token) : Option Lexer := do
  let l ← l.noteKey
  let c := l.cursor.skip 1
  let name := c.rest.takeWhile isNameChar
  let c := c.skip name.length
  let ends := isGap c.head || c.head.any ['?', ':', ',', ']', '}', '%', '@', '\x60'].contains
  if name.isEmpty || !ends then none
  return { l.emit (t (String.ofList name)) with cursor := c, keyAllowed := false }

/-- Read a tag: a full name in angle brackets, or a handle and the end of the name. -/
def tag (l : Lexer) : Option Lexer := do
  let l ← l.noteKey
  let c := l.cursor
  let (t, c) : Token × Cursor ←
    if c.peek 1 == some '<' then
      let c := c.skip 2
      let uri := c.rest.takeWhile isTagChar
      let c := c.skip uri.length
      if uri.isEmpty || c.head != some '>' then none
      else some (.tag "" (String.ofList uri), c.skip 1)
    else
      let (handle, c) := (tagHandle c).getD ("!", c.skip 1)
      let suffix := c.rest.takeWhile isTagChar
      if suffix.isEmpty && handle != "!" then none
      else some (.tag handle (String.ofList suffix), c.skip suffix.length)
  if isGap c.head || (l.inFlow && c.head == some ',') then
    return { l.emit t with cursor := c, keyAllowed := false }
  else none

/-- Read a block scalar. -/
def block (l : Lexer) (style : Style) : Option Lexer := do
  let l ← l.dropKey
  let (text, c) ← blockText (style == .folded) l.blocks.head? (l.cursor.skip 1)
  return { l.emit (.scalar (String.ofList text) style) with cursor := c, keyAllowed := true }

/-- Read a quoted scalar. -/
def quoted (l : Lexer) (quote : Char) (style : Style) : Option Lexer := do
  let l ← l.noteKey
  let c := l.cursor.skip 1
  let (text, c) ← quotedText quote (c.rest.length + 1) c []
  return { l.emit (.scalar (String.ofList text) style) with cursor := c, keyAllowed := false }

/-- Read a plain scalar. -/
def plain (l : Lexer) : Option Lexer := do
  let l ← l.noteKey
  let c := l.cursor
  let (t, c) ← plainText l.inFlow l.inner (c.rest.length + 1) c {} {}
  return { l.emit (.scalar (String.ofList t.text) .plain) with
    cursor := c, keyAllowed := t.endsLine }

/-- Characters that mean something else at the beginning of a scalar. -/
def isIndicator (c : Char) : Bool :=
  ['-', '?', ':', ',', '[', ']', '{', '}', '#', '&', '*', '!', '|', '>', '\'', '"', '%', '@',
    '\x60'].contains c

/-- Whether a plain scalar may begin with a character before another one. -/
def startsPlain (inFlow : Bool) (c : Char) (next : Option Char) : Bool :=
  (!isIndicator c && !isBlank c && !isBreak c)
    || (c == '-' && !next.any isBlank)
    || (!inFlow && (c == '?' || c == ':') && !isGap next)

/-! ## All tokens -/

/-- Read the token at the cursor, which begins with the given character. -/
def token (l : Lexer) (x : Char) : Option Lexer :=
  let next := l.cursor.peek 1
  if l.cursor.column == 0 && x == '%' then l.directive
  else if l.cursor.isMark '-' then l.boundary .documentStart
  else if l.cursor.isMark '.' then l.boundary .documentEnd
  else if x == '[' then l.openFlow .flowSequence
  else if x == '{' then l.openFlow .flowMapping
  else if x == ']' then l.closeFlow .flowSequenceEnd
  else if x == '}' then l.closeFlow .flowMappingEnd
  else if x == ',' then l.flowEntry
  else if x == '-' && isGap next then l.blockEntry
  else if x == '?' && (l.inFlow || isGap next) then l.explicitKey
  else if x == ':' && (l.inFlow || isGap next) then l.value
  else if x == '*' then l.anchor .alias
  else if x == '&' then l.anchor .anchor
  else if x == '!' then l.tag
  else if x == '|' && !l.inFlow then l.block .literal
  else if x == '>' && !l.inFlow then l.block .folded
  else if x == '\'' then l.quoted '\'' .singleQuoted
  else if x == '"' then l.quoted '"' .doubleQuoted
  else if startsPlain l.inFlow x next then l.plain
  else none

/-- Read tokens up to the end of the text. -/
def run : Nat → Lexer → Option Lexer
  | 0, _ => none
  | n + 1, l => do
    let l := l.skipGap (l.cursor.rest.length + 1)
    let l ← l.dropStaleKeys
    let l := l.closeBlocks (some l.cursor.column)
    match l.cursor.head with
    | none => (l.closeBlocks none).dropKey
    | some x => run n (← l.token x)

end Lexer

/-- The tokens of a text. A byte order mark may be in front. -/
def Token.ofText? (s : String) : Option (List Token) :=
  let cs := match s.toList with
    | '\ufeff' :: rest => rest
    | cs => cs
  if cs.all isAllowed then
    ((Lexer.run (cs.length + 2) { cursor := { rest := cs } }).map fun l => l.tokens.toList)
  else none

end TestRig.Yaml
