import TestRig.Pattern.Expr

/-!
# Reading regular expressions

The written form: literals, `.`, anchors, escapes, bracketed classes, groups with flags,
alternation and repetition. A text that breaks a rule has no expression. Flags hold from the place
where they are set to the end of the group, and are resolved while reading, so that an expression
stands for itself.

Three things are left out. Classes of Unicode properties (`\p`) and the flag `R` are not read: a
text with one of them has no expression here. Nor is there a limit on how deep groups are nested or
how large an expression becomes.
-/

namespace TestRig.Pattern

/-- The flags in force at a place of an expression. -/
structure Flags where
  foldCase : Bool := false
  multiline : Bool := false
  dotAll : Bool := false
  verbose : Bool := false
  ascii : Bool := false
  deriving DecidableEq, Repr, Inhabited

namespace Flags

/-- The set with its case variants, if the flags ask for them. -/
def fold (fl : Flags) (s : CharSet) : CharSet :=
  if fl.foldCase then .folded s else s

/-- The characters of words under the flags. -/
def word (fl : Flags) : CharSet :=
  if fl.ascii then .asciiWord else .word

/-- One literal character under the flags. -/
def literal (fl : Flags) (c : Char) : Expr :=
  .one (fl.fold (.single c))

/-- The complement of a class; without it when it would leave the ASCII characters. -/
def negate (fl : Flags) (s : CharSet) : Option CharSet :=
  if fl.ascii then none else some (.compl s)

/-- What a full stop matches. -/
def dot (fl : Flags) : Option Expr :=
  if fl.ascii then none
  else if fl.dotAll then some (.one .any)
  else some (.one (.compl (.single '\n')))

end Flags

/-- The characters that are written with a backslash to stand for themselves. -/
def isMeta (c : Char) : Bool :=
  "\\.+*?()|[]\x7b\x7d^$#&-~".toList.contains c

/-- Whether a backslash may stand in front of the character without giving it a meaning. -/
def isEscapable (c : Char) : Bool :=
  isMeta c || (c.toNat < 0x80 && !c.isAlphanum && c != '<' && c != '>')

/-- What a backslash and the characters after it stand for. -/
inductive Escape where
  | char (c : Char)
  | set (s : CharSet)
  | anchor (a : Anchor)
  deriving DecidableEq, Repr

/-- The value of a hexadecimal digit. -/
def hexDigit? (c : Char) : Option Nat :=
  if '0' ≤ c && c ≤ '9' then some (c.toNat - '0'.toNat)
  else if 'a' ≤ c && c ≤ 'f' then some (c.toNat - 'a'.toNat + 10)
  else if 'A' ≤ c && c ≤ 'F' then some (c.toNat - 'A'.toNat + 10)
  else none

/-- The number that hexadecimal digits write. -/
def hexNumber? (cs : List Char) : Option Nat :=
  if cs.isEmpty then none
  else cs.foldlM (fun n c => (hexDigit? c).map (16 * n + ·)) 0

/-- The character of a code point, if there is one. -/
def charOf? (n : Nat) : Option Char :=
  if h : n.isValidChar then some (Char.ofNatAux n h) else none

/-- A character written by its number: a fixed count of digits, or any count in braces. -/
def readHex (width : Nat) : List Char → Option (Escape × List Char)
  | '{' :: s =>
    let digits := s.takeWhile (· != '\x7d')
    match s.drop digits.length with
    | _ :: rest => do
      let c ← charOf? (← hexNumber? digits)
      return (.char c, rest)
    | [] => none
  | s => do
    let digits := s.take width
    if digits.length = width then
      let c ← charOf? (← hexNumber? digits)
      return (.char c, s.drop width)
    else none

/-- What follows `\b`: a named half or side of a word in braces, or nothing. -/
def readBoundary (fl : Flags) (s : List Char) : Option (Escape × List Char) :=
  let isNameChar (c : Char) : Bool := c.isAlpha || c == '-'
  match s with
  | '{' :: t =>
    let name := t.takeWhile isNameChar
    if name.isEmpty then
      if t.isEmpty then none else some (.anchor (.boundary fl.word), s)
    else
      match t.drop name.length with
      | '}' :: rest =>
        match String.ofList name with
        | "start" => some (.anchor (.wordStart fl.word), rest)
        | "end" => some (.anchor (.wordEnd fl.word), rest)
        | "start-half" => some (.anchor (.wordStartHalf fl.word), rest)
        | "end-half" => some (.anchor (.wordEndHalf fl.word), rest)
        | _ => none
      | _ => none
  | _ => some (.anchor (.boundary fl.word), s)

/-- What stands after a backslash. Unknown letters, digits and the end of the text are errors. -/
def readEscape (fl : Flags) : List Char → Option (Escape × List Char)
  | [] => none
  | c :: s =>
    let digits := if fl.ascii then .range '0' '9' else .digit
    let blanks := if fl.ascii then .ofRanges [('\t', '\r'), (' ', ' ')] else .blank
    match c with
    | 'd' => some (.set digits, s)
    | 's' => some (.set blanks, s)
    | 'w' => some (.set fl.word, s)
    | 'D' => (fl.negate digits).map (.set ·, s)
    | 'S' => (fl.negate blanks).map (.set ·, s)
    | 'W' => (fl.negate fl.word).map (.set ·, s)
    | 'x' => readHex 2 s
    | 'u' => readHex 4 s
    | 'U' => readHex 8 s
    | 'a' => some (.char '\x07', s)
    | 'f' => some (.char '\x0c', s)
    | 't' => some (.char '\t', s)
    | 'n' => some (.char '\n', s)
    | 'r' => some (.char '\r', s)
    | 'v' => some (.char '\x0b', s)
    | 'A' => some (.anchor .textStart, s)
    | 'z' => some (.anchor .textEnd, s)
    | 'b' => readBoundary fl s
    | 'B' => some (.anchor (.noBoundary fl.word), s)
    | '<' => some (.anchor (.wordStart fl.word), s)
    | '>' => some (.anchor (.wordEnd fl.word), s)
    | _ => if isEscapable c then some (.char c, s) else none

/-- In a verbose expression blanks and comments up to the end of the line mean nothing. -/
def skip (fl : Flags) (s : List Char) : List Char :=
  if fl.verbose then go s.length s else s
where
  go : Nat → List Char → List Char
    | 0, s => s
    | n + 1, s =>
      match s with
      | '#' :: t => go n (t.dropWhile (· != '\n'))
      | c :: t => if Text.isBlank c then go n t else s
      | [] => []

/-! ## Bracketed classes -/

/-- The operators between the parts of a class. -/
inductive SetOp where
  | inter
  | diff
  | symmDiff
  deriving DecidableEq, Repr

/-- The set that an operator makes of its two sides. -/
def SetOp.apply : SetOp → CharSet → CharSet → CharSet
  | inter, s, t => .inter s t
  | diff, s, t => s.diff t
  | symmDiff, s, t => s.symmDiff t

/-- The left side of an operator that waits for its right side. -/
abbrev Pending := Option (SetOp × CharSet)

/-- The set of a class once its last part is known. -/
def Pending.finish (fl : Flags) (p : Pending) (s : CharSet) : CharSet :=
  match p with
  | none => s
  | some (op, l) => op.apply (fl.fold l) (fl.fold s)

/-- The named classes of ASCII characters, written `[:name:]` inside a class. -/
def asciiClass? : String → Option CharSet
  | "alnum" => some (.ofRanges [('0', '9'), ('A', 'Z'), ('a', 'z')])
  | "alpha" => some (.ofRanges [('A', 'Z'), ('a', 'z')])
  | "ascii" => some (.range '\x00' '\x7f')
  | "blank" => some (.ofRanges [('\t', '\t'), (' ', ' ')])
  | "cntrl" => some (.ofRanges [('\x00', '\x1f'), ('\x7f', '\x7f')])
  | "digit" => some (.range '0' '9')
  | "graph" => some (.range '!' '~')
  | "lower" => some (.range 'a' 'z')
  | "print" => some (.range ' ' '~')
  | "punct" => some (.ofRanges [('!', '/'), (':', '@'), ('[', '\x60'), ('\x7b', '~')])
  | "space" => some (.ofRanges [('\t', '\r'), (' ', ' ')])
  | "upper" => some (.range 'A' 'Z')
  | "word" => some .asciiWord
  | "xdigit" => some (.ofRanges [('0', '9'), ('A', 'F'), ('a', 'f')])
  | _ => none

/-- A named class, after its opening bracket. -/
def readAsciiClass (s : List Char) : Option (CharSet × List Char) :=
  match s with
  | ':' :: t =>
    let (negated, t) := match t with
      | '^' :: u => (true, u)
      | _ => (false, t)
    let name := t.takeWhile (· != ':')
    match t.drop name.length with
    | ':' :: ']' :: rest =>
      (asciiClass? (String.ofList name)).map fun cls => (if negated then .compl cls else cls, rest)
    | _ => none
  | _ => none

/-- One member of a class: a character or an escape. -/
def readMember (fl : Flags) : List Char → Option (Escape × List Char)
  | [] => none
  | '\\' :: s => readEscape fl s
  | c :: s => some (.char c, s)

/-- A member or a range of a class. -/
def readRange (fl : Flags) (s : List Char) : Option (CharSet × List Char) := do
  let (first, s) ← readMember fl s
  let s := skip fl s
  let whole : Option (CharSet × List Char) := match first with
    | .char c => some (.single c, s)
    | .set cls => some (cls, s)
    | .anchor _ => none
  match s with
  | [] => none
  | '-' :: t =>
    match skip fl t with
    | [] => none
    | c :: u =>
      if c = ']' || c = '-' then whole
      else
        let (last, rest) ← readMember fl (c :: u)
        match first, last with
        | .char lo, .char hi => if lo ≤ hi then some (.range lo hi, rest) else none
        | _, _ => none
  | _ => whole

/-- The start of a class after its bracket: negation, then hyphens and a bracket that stand for
themselves. -/
def readClassStart (fl : Flags) (s : List Char) : Bool × CharSet × List Char :=
  let s := skip fl s
  let (negated, s) := match s with
    | '^' :: t => (true, skip fl t)
    | _ => (false, s)
  let hyphens := s.takeWhile (· == '-')
  let s := skip fl (s.drop hyphens.length)
  if hyphens.isEmpty then
    match s with
    | ']' :: t => (negated, .single ']', skip fl t)
    | _ => (negated, .empty, s)
  else (negated, .single '-', s)

/-- The rest of a class, up to and with its closing bracket. -/
def readClass (fl : Flags) :
    Nat → Bool → Pending → CharSet → List Char → Option (CharSet × List Char)
  | 0, _, _, _, _ => none
  | n + 1, negated, pending, acc, s =>
    match skip fl s with
    | [] => none
    | ']' :: t =>
      let whole := fl.fold (pending.finish fl acc)
      if negated then (fl.negate whole).map (·, t) else some (whole, t)
    | '[' :: t =>
      match readAsciiClass t with
      | some (cls, rest) => readClass fl n negated pending (.union acc cls) rest
      | none => do
        let (neg, start, u) := readClassStart fl t
        let (inner, rest) ← readClass fl n neg none start u
        readClass fl n negated pending (.union acc inner) rest
    | '&' :: '&' :: t => readClass fl n negated (some (.inter, pending.finish fl acc)) .empty t
    | '-' :: '-' :: t => readClass fl n negated (some (.diff, pending.finish fl acc)) .empty t
    | '~' :: '~' :: t => readClass fl n negated (some (.symmDiff, pending.finish fl acc)) .empty t
    | t => do
      let (cls, rest) ← readRange fl t
      readClass fl n negated pending (.union acc cls) rest

/-! ## Groups and repetition -/

/-- The flags between `(?` and the `:` or `)` that ends them, with the flags in force after. -/
def readFlags : Nat → Flags → Bool → Bool → List Char → List Char →
    Option (Flags × Bool × List Char)
  | 0, _, _, _, _, _ => none
  | n + 1, fl, negated, dangling, seen, s =>
    match s with
    | ':' :: t => if dangling then none else some (fl, false, t)
    | ')' :: t => if dangling || seen.isEmpty then none else some (fl, true, t)
    | c :: t =>
      if seen.contains c then none
      else
        let seen := c :: seen
        let on := !negated
        match c with
        | '-' => readFlags n fl true true seen t
        | 'i' => readFlags n { fl with foldCase := on } negated false seen t
        | 'm' => readFlags n { fl with multiline := on } negated false seen t
        | 's' => readFlags n { fl with dotAll := on } negated false seen t
        | 'U' => readFlags n fl negated false seen t
        | 'u' => readFlags n { fl with ascii := negated } negated false seen t
        | 'x' => readFlags n { fl with verbose := on } negated false seen t
        | _ => none
    | [] => none

/-- What the text after `(` opens. -/
inductive GroupStart where
  | group (fl : Flags) (rest : List Char)
  | flags (fl : Flags) (rest : List Char)

/-- Whether the characters may name a group. -/
def isGroupName : List Char → Bool
  | [] => false
  | c :: cs =>
    (Text.isWordChar c && !Text.isDigit c)
      && cs.all fun d => Text.isWordChar d || d == '.' || d == '[' || d == ']'

/-- The opening of a group, after its parenthesis. Look-around has no expression. -/
def readGroupStart (fl : Flags) (s : List Char) : Option GroupStart :=
  let named (t : List Char) : Option GroupStart :=
    let name := t.takeWhile (· != '>')
    match t.drop name.length with
    | _ :: rest => if isGroupName name then some (.group fl rest) else none
    | [] => none
  match skip fl s with
  | '?' :: '=' :: _ => none
  | '?' :: '!' :: _ => none
  | '?' :: '<' :: '=' :: _ => none
  | '?' :: '<' :: '!' :: _ => none
  | '?' :: 'P' :: '<' :: t => named t
  | '?' :: '<' :: t => named t
  | '?' :: t =>
    (readFlags (t.length + 1) fl false false [] t).map fun r =>
      if r.2.1 then .flags r.1 r.2.2 else .group r.1 r.2.2
  | t => some (.group fl t)

/-- A number of a counted repetition, with blanks around it. -/
def readCount (s : List Char) : Option (Nat × List Char) :=
  let s := s.dropWhile Text.isBlank
  let digits := s.takeWhile Char.isDigit
  let n := digits.foldl (fun n c => 10 * n + (c.toNat - '0'.toNat)) 0
  if digits.isEmpty || Nat.pow 2 32 ≤ n then none
  else some (n, (s.drop digits.length).dropWhile Text.isBlank)

/-- The bounds of a counted repetition, after its opening brace. -/
def readBounds (fl : Flags) (s : List Char) : Option (Nat × Option Nat × List Char) := do
  let (min, s) ← readCount s
  match s with
  | '}' :: t => some (min, some min, t)
  | ',' :: t =>
    match skip fl t with
    | '}' :: u => some (min, none, u)
    | u => do
      let (max, u) ← readCount u
      match u with
      | '}' :: v => if min ≤ max then some (min, some max, v) else none
      | _ => none
  | _ => none

/-- A question mark after a repetition makes it lazy, which changes no answer. -/
def dropLazy (fl : Flags) (s : List Char) : List Char :=
  match skip fl s with
  | '?' :: t => t
  | _ => s

/-- The items of a branch, last first; directives that set flags count as none. -/
abbrev Items := List (Option Expr)

/-- The items in order, as one expression. -/
def Items.concat (items : Items) : Expr :=
  items.foldl (fun acc it => match it with
    | some e => .seq e acc
    | none => acc) .empty

/-- The branches, last first, as one expression. -/
def alternation : List Expr → Expr → Expr
  | [], e => e
  | a :: as, e => alternation as (.alt a e)

/-- Repeat the last item. There must be one, and it must not be a directive. -/
def Items.repeatLast (items : Items) (min : Nat) (max : Option Nat) : Option Items :=
  match items with
  | some e :: rest => some (some (.rep e min max) :: rest)
  | _ => none

/-- Read branches up to the end of the text or of the group. The first argument bounds the number
of items; `nested` says whether a group is open. -/
def readBranches : Nat → Bool → Flags → List Expr → Items → List Char → Option (Expr × List Char)
  | 0, _, _, _, _, _ => none
  | n + 1, nested, fl, alts, items, s =>
    let again (max : Option Nat) (min : Nat) (t : List Char) : Option (Expr × List Char) := do
      let items ← items.repeatLast min max
      readBranches n nested fl alts items (dropLazy fl t)
    match skip fl s with
    | [] => if nested then none else some (alternation alts items.concat, [])
    | ')' :: t => if nested then some (alternation alts items.concat, t) else none
    | '|' :: t => readBranches n nested fl (items.concat :: alts) [] t
    | '(' :: t => do
      match ← readGroupStart fl t with
      | .flags fl rest => readBranches n nested fl alts (none :: items) rest
      | .group inner rest =>
        let (e, rest) ← readBranches n true inner [] [] rest
        readBranches n nested fl alts (some e :: items) rest
    | '[' :: t => do
      let (neg, start, u) := readClassStart fl t
      let (cls, rest) ← readClass fl (u.length + 1) neg none start u
      readBranches n nested fl alts (some (.one cls) :: items) rest
    | '*' :: t => again none 0 t
    | '+' :: t => again none 1 t
    | '?' :: t => again (some 1) 0 t
    | '{' :: t => do
      let (min, max, rest) ← readBounds fl t
      again max min rest
    | '.' :: t => do
      let e ← fl.dot
      readBranches n nested fl alts (some e :: items) t
    | '^' :: t =>
      let a := if fl.multiline then Anchor.lineStart else .textStart
      readBranches n nested fl alts (some (.look a) :: items) t
    | '$' :: t =>
      let a := if fl.multiline then Anchor.lineEnd else .textEnd
      readBranches n nested fl alts (some (.look a) :: items) t
    | '\\' :: t => do
      let (esc, rest) ← readEscape fl t
      let e := match esc with
        | .char c => fl.literal c
        | .set cls => .one cls
        | .anchor a => .look a
      readBranches n nested fl alts (some e :: items) rest
    | c :: t => readBranches n nested fl alts (some (fl.literal c) :: items) t

/-- The expression that a text writes, if it is well formed. -/
def Expr.read? (s : String) : Option Expr :=
  let cs := s.toList
  (readBranches (cs.length + 1) false {} [] [] cs).map (·.1)

end TestRig.Pattern
