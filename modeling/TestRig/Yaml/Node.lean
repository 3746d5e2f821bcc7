import TestRig.Yaml.Token

/-!
# Documents

A document is a tree of scalars, sequences and mappings. Anchors give names to nodes, and an alias
stands for the node of that name that was read last.
-/

namespace TestRig.Yaml

/-- A node of a document. -/
inductive Node where
  /-- A text, how it is written and its tag if it has one. -/
  | scalar (text : String) (style : Style) (tag : Option String)
  | sequence (items : List Node)
  /-- Keys with their values, in order. -/
  | mapping (entries : List (Node × Node))
  deriving Repr, Inhabited

namespace Node

/-- A text that is written plainly. -/
def plain (text : String) : Node := .scalar text .plain none

/-- A node that was left out. -/
def absent : Node := .plain ""

/-! ## Reading -/

/-- What is left to read: the tokens and the anchored nodes, the latest first. -/
structure Source where
  tokens : List Token
  anchors : List (String × Node) := []
  /-- The handles of tags that were declared. -/
  handles : List String := []

namespace Source

/-- The next token. -/
def head (s : Source) : Option Token := s.tokens.head?

/-- Pass a token. -/
def next (s : Source) : Source := { s with tokens := s.tokens.drop 1 }

/-- Whether the next token is one of these. -/
def startsWith (s : Source) (ts : List Token) : Bool := s.head.any ts.contains

end Source

/-- The properties of a node. -/
structure Properties where
  anchor : Option String := none
  tag : Option String := none
  deriving Inhabited

namespace Properties

/-- Whether there are none. -/
def isEmpty (p : Properties) : Bool := p.anchor.isNone && p.tag.isNone

/-- The tag that a handle and the end of a name stand for. -/
def resolveTag? (s : Source) (handle suffix : String) : Option String :=
  if handle == "" then some suffix
  else if s.handles.contains handle then some (handle ++ suffix)
  else if handle == "!!" then some ("tag:yaml.org,2002:" ++ suffix)
  else if handle == "!" then some ("!" ++ suffix)
  else none

/-- Read properties, each at most once. -/
def read : Nat → Source → Properties → Option (Properties × Source)
  | 0, s, p => some (p, s)
  | n + 1, s, p =>
    match s.head with
    | some (.anchor name) =>
      if p.anchor.isSome then some (p, s) else read n s.next { p with anchor := some name }
    | some (.tag handle suffix) =>
      if p.tag.isSome then some (p, s)
      else do read n s.next { p with tag := ← resolveTag? s handle suffix }
    | _ => some (p, s)

end Properties

/-- Note the anchor of a node that was read. -/
def anchored (p : Properties) (r : Node × Source) : Node × Source :=
  match p.anchor with
  | some a => (r.1, { r.2 with anchors := (a, r.1) :: r.2.anchors })
  | none => r

mutual

/-- Read a node. Outside of brackets it may be a block; as the key or the value of a mapping it may
be a sequence that has no block of its own. -/
def read (isBlock unindented : Bool) : Nat → Source → Option (Node × Source)
  | 0, _ => none
  | n + 1, s =>
    match s.head with
    | some (.alias name) => do
      let node ← s.anchors.lookup name
      return (node, s.next)
    | _ => do
      let (p, s) ← Properties.read 2 s {}
      let r ← match s.head with
        | some .blockEntry =>
          if unindented then do
            let (items, s) ← readUnindented n s
            return (.sequence items, s)
          else if p.isEmpty then none
          else return (.scalar "" .plain p.tag, s)
        | some (.scalar text style) => return (.scalar text style p.tag, s.next)
        | some .flowSequence => do
          let (items, s) ← readFlowItems true n s.next
          return (.sequence items, s)
        | some .flowMapping => do
          let (entries, s) ← readFlowEntries true n s.next
          return (.mapping entries, s)
        | some .blockSequence =>
          if isBlock then do
            let (items, s) ← readBlockItems n s.next
            return (.sequence items, s)
          else none
        | some .blockMapping =>
          if isBlock then do
            let (entries, s) ← readBlockEntries n s.next
            return (.mapping entries, s)
          else none
        | _ => if p.isEmpty then none else return (.scalar "" .plain p.tag, s)
      return anchored p r

/-- Read a node, or nothing before one of the given tokens. -/
def readOr (isBlock unindented : Bool) (ends : List Token) : Nat → Source → Option (Node × Source)
  | 0, _ => none
  | n + 1, s =>
    if s.startsWith ends then some (absent, s) else read isBlock unindented n s

/-- Read the entries of a block sequence. -/
def readBlockItems : Nat → Source → Option (List Node × Source)
  | 0, _ => none
  | n + 1, s =>
    match s.head with
    | some .blockEntry => do
      let (x, s) ← readOr true false [.blockEntry, .blockEnd] n s.next
      let (xs, s) ← readBlockItems n s
      return (x :: xs, s)
    | some .blockEnd => some ([], s.next)
    | _ => none

/-- Read the entries of a sequence without a block of its own. -/
def readUnindented : Nat → Source → Option (List Node × Source)
  | 0, _ => none
  | n + 1, s =>
    match s.head with
    | some .blockEntry => do
      let (x, s) ← readOr true false [.blockEntry, .key, .value, .blockEnd] n s.next
      let (xs, s) ← readUnindented n s
      return (x :: xs, s)
    | _ => some ([], s)

/-- Read the entries of a block mapping. -/
def readBlockEntries : Nat → Source → Option (List (Node × Node) × Source)
  | 0, _ => none
  | n + 1, s => do
    let ends : List Token := [.key, .value, .blockEnd]
    match s.head with
    | some .blockEnd => return ([], s.next)
    | some .key | some .value =>
      let (k, s) ← if s.head == some .key then readOr true true ends n s.next
        else some (absent, s)
      let (v, s) ← if s.head == some .value then readOr true true ends n s.next
        else some (absent, s)
      let (rest, s) ← readBlockEntries n s
      return ((k, v) :: rest, s)
    | _ => none

/-- Read the entries of a sequence in brackets. An entry may be a single pair. -/
def readFlowItems (isFirst : Bool) : Nat → Source → Option (List Node × Source)
  | 0, _ => none
  | n + 1, s => do
    if s.head == some .flowSequenceEnd then return ([], s.next)
    let s ← if isFirst then some s else if s.head == some .flowEntry then some s.next else none
    match s.head with
    | some .flowSequenceEnd => return ([], s.next)
    | some .key =>
      let (k, s) ← readOr false false [.value, .flowEntry, .flowSequenceEnd] n s.next
      let (v, s) ← if s.head == some .value then
          readOr false false [.flowEntry, .flowSequenceEnd] n s.next
        else some (absent, s)
      let (rest, s) ← readFlowItems false n s
      return (.mapping [(k, v)] :: rest, s)
    | _ =>
      let (x, s) ← read false false n s
      let (rest, s) ← readFlowItems false n s
      return (x :: rest, s)

/-- Read the entries of a mapping in braces. -/
def readFlowEntries (isFirst : Bool) : Nat → Source → Option (List (Node × Node) × Source)
  | 0, _ => none
  | n + 1, s => do
    if s.head == some .flowMappingEnd then return ([], s.next)
    let s ← if isFirst then some s else if s.head == some .flowEntry then some s.next else none
    match s.head with
    | some .flowMappingEnd => return ([], s.next)
    | some .key =>
      let (k, s) ← readOr false false [.value, .flowEntry, .flowMappingEnd] n s.next
      let (v, s) ← if s.head == some .value then
          readOr false false [.flowEntry, .flowMappingEnd] n s.next
        else some (absent, s)
      let (rest, s) ← readFlowEntries false n s
      return ((k, v) :: rest, s)
    | _ =>
      let (k, s) ← read false false n s
      let (rest, s) ← readFlowEntries false n s
      return ((k, absent) :: rest, s)

end

/-- Read the directives in front of a document. -/
def readDirectives : List Token → Bool → List String → Option (List String × List Token)
  | .versionDirective major minor :: ts, seen, handles =>
    if seen || major != 1 || (minor != 1 && minor != 2) then none
    else readDirectives ts true handles
  | .tagDirective h :: ts, seen, handles =>
    if handles.contains h then none else readDirectives ts seen (h :: handles)
  | ts, _, handles => some (handles, ts)

/-- Read the content of a document. It may be empty. -/
def readContent (tokens : List Token) (handles : List String) : Option (Node × List Token) :=
  let s : Source := { tokens, handles }
  match s.head with
  | none | some .documentStart | some .documentEnd | some (.versionDirective ..)
  | some (.tagDirective _) => some (absent, tokens)
  | _ => (read true false (4 * tokens.length + 4) s).map fun r => (r.1, r.2.tokens)

/-- Read the only document of a text. A text without a document is an empty one. -/
def ofTokens? (tokens : List Token) : Option Node := do
  let (handles, tokens') ← readDirectives (tokens.dropWhile (· == .documentEnd)) false []
  let (node, rest) ← match tokens' with
    | .documentStart :: ts => readContent ts handles
    | ts =>
      if handles.isEmpty && ts.length == (tokens.dropWhile (· == .documentEnd)).length then
        readContent ts []
      else none
  if rest.all (· == .documentEnd) then return node else none

/-- The document that a text writes. -/
def ofText? (s : String) : Option Node := do ofTokens? (← Token.ofText? s)

end Node

end TestRig.Yaml
