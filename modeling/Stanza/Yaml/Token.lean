import Stanza.Yaml.Name
import Stanza.Yaml.Scalar

/-!
Tokens of YAML texts.

Indentation becomes tokens: a collection starts where a line is indented further than the one it
belongs to, and ends where a line is not. A key of a mapping is not marked in front, so wherever
one could start the place is kept, and when a colon follows on the same line the token of the key
is put there afterwards. Until that is known, no token from that place on is settled. A text that
cannot be cut into tokens has the token `bad` in place of the first one that is not settled then.
-/

namespace Stanza.Yaml

/-- A token. -/
inductive Token where
  | directive (directive : Directive)
  | documentStart
  | documentEnd
  | blockSequenceStart
  | blockMappingStart
  | blockEnd
  | flowSequenceStart
  | flowSequenceEnd
  | flowMappingStart
  | flowMappingEnd
  | blockEntry
  | flowEntry
  | key
  | value
  | alias (name : String)
  | anchor (name : String)
  | tag (name : TagName)
  | scalar (text : List Char) (plain : Bool)
  | bad (error : ReadError)
  deriving DecidableEq, Repr, Inhabited

/-- A place where a key may have started. -/
structure KeyMark where
  /-- The number of tokens before it. -/
  count : Nat
  /-- Whether there has to be a key, since nothing else can stand there. -/
  required : Bool
  index : Nat
  line : Nat
  column : Nat
  deriving DecidableEq, Repr, Inhabited

/-- The greatest number of characters of a key without a mark. -/
def keyLimit : Nat := 1024

/-- Where the cutting of a text into tokens has come to. -/
structure Scanner where
  place : Cursor
  /-- How many flow collections are open. -/
  depth : Nat
  /-- The column of the innermost block collection; `-1` outside of all. -/
  indent : Int
  /-- The columns of the block collections around it. -/
  outer : List Int
  /-- Whether a key without a mark may start here. -/
  mayStartKey : Bool
  /-- Where a key may have started, by the number of flow collections open there. -/
  marks : List (Nat × KeyMark)
  /-- The tokens so far, the last one first. -/
  tokens : List Token
  /-- The number of tokens so far. -/
  count : Nat

namespace Scanner

/-- The start of a text. A byte order mark at the front is left out. -/
def start (text : List Char) : Scanner where
  place := match text with
    | '\ufeff' :: _ => (Cursor.start text).next
    | _ => Cursor.start text
  depth := 0
  indent := -1
  outer := []
  mayStartKey := true
  marks := []
  tokens := []
  count := 0

/-- Appends a token. -/
def push (token : Token) (s : Scanner) : Scanner :=
  { s with tokens := token :: s.tokens, count := s.count + 1 }

/-- Inserts a token after the first `before` ones. -/
def insert (before : Nat) (token : Token) (s : Scanner) : Scanner :=
  let later := s.count - before
  { s with
    tokens := s.tokens.take later ++ token :: s.tokens.drop later
    count := s.count + 1 }

/-- The column of the place. -/
def column (s : Scanner) : Int := s.place.column

/-- Whether a flow collection is open. -/
def inFlow (s : Scanner) : Bool := s.depth ≠ 0

/-- Moves to a place. -/
def moveTo (place : Cursor) (s : Scanner) : Scanner := { s with place := place }

/-- Passes blanks, comments and breaks up to the next token. After a break outside of flow
collections a key may start. -/
def skipBlanks : Nat → Scanner → Scanner
  | 0, s => s
  | fuel + 1, s =>
      let p := s.place.skipSpaces.skipComment
      match p.lineBreak with
      | ([], _) => s.moveTo p
      | (_, p) => skipBlanks fuel { s with place := p, mayStartKey := s.mayStartKey || !s.inFlow }

/-- Whether a key that may have started at a mark can no longer be one. -/
def isStale (s : Scanner) (mark : KeyMark) : Bool :=
  mark.line ≠ s.place.line || decide (keyLimit < s.place.index - mark.index)

/-- Forgets the marks at which no key can have started; one of them may have been required. -/
def dropStale (s : Scanner) : Except ReadError Scanner :=
  let (stale, kept) := s.marks.partition fun mark => s.isStale mark.2
  if stale.any fun mark => mark.2.required then .error .malformed
  else .ok { s with marks := kept }

/-- Forgets the mark of the current flow depth, which may have been required. -/
def dropMark (s : Scanner) : Except ReadError Scanner :=
  let (here, kept) := s.marks.partition fun mark => mark.1 = s.depth
  if here.any fun mark => mark.2.required then .error .malformed
  else .ok { s with marks := kept }

/-- Marks the place as one where a key may start. -/
def markKey (s : Scanner) : Except ReadError Scanner :=
  if s.mayStartKey then do
    let cleared ← s.dropMark
    let mark : KeyMark :=
      { count := s.count
        required := !s.inFlow && s.indent == s.column
        index := s.place.index
        line := s.place.line
        column := s.place.column }
    return { cleared with marks := (s.depth, mark) :: cleared.marks }
  else .ok s

/-- Ends the block collections that are indented further than a column. -/
def unwind (column : Int) (s : Scanner) : Scanner :=
  if s.inFlow then s
  else
    let ended := (s.indent :: s.outer).takeWhile fun indent => decide (column < indent)
    let left := (s.indent :: s.outer).drop ended.length
    { s with
      indent := left.headD (-1)
      outer := left.tail
      tokens := ended.map (fun _ => Token.blockEnd) ++ s.tokens
      count := s.count + ended.length }

/-- Whether a block collection can start at a column. -/
def startsBlock (column : Int) (s : Scanner) : Bool := !s.inFlow && decide (s.indent < column)

/-- Makes a column the innermost indentation. -/
def enter (column : Int) (s : Scanner) : Scanner :=
  { s with indent := column, outer := s.indent :: s.outer }

/-- Starts a block collection at the place with the given token, if it is indented further. -/
def openBlock (token : Token) (s : Scanner) : Scanner :=
  if s.startsBlock s.column then (s.enter s.column).push token else s

/-- Passes so many characters and appends a token. -/
def take (length : Nat) (token : Token) (s : Scanner) : Scanner :=
  (s.moveTo (s.place.skip length)).push token

/-- Allows or forbids a key to start. -/
def allowKey (allowed : Bool) (s : Scanner) : Scanner := { s with mayStartKey := allowed }

/-- Ends all block collections and forgets where keys may have started. -/
def endBlocks (s : Scanner) : Except ReadError Scanner := do
  return (← (s.unwind (-1)).dropMark).allowKey false

/-- The end of the text. -/
def finish (s : Scanner) : Except ReadError Scanner := s.endBlocks

/-- A directive. -/
def fetchDirective (s : Scanner) : Except ReadError Scanner := do
  let (directive, p) ← directive s.place
  return ((← s.endBlocks).moveTo p).push (.directive directive)

/-- The marker of the start or the end of a document. -/
def fetchMarker (token : Token) (s : Scanner) : Except ReadError Scanner := do
  return (← s.endBlocks).take 3 token

/-- The start of a flow collection. -/
def fetchFlowStart (token : Token) (s : Scanner) : Except ReadError Scanner := do
  let s ← s.markKey
  return ({ s with depth := s.depth + 1 }.allowKey true).take 1 token

/-- The end of a flow collection. -/
def fetchFlowEnd (token : Token) (s : Scanner) : Except ReadError Scanner := do
  let s ← s.dropMark
  return ({ s with depth := s.depth - 1 }.allowKey false).take 1 token

/-- A comma in a flow collection. -/
def fetchFlowEntry (s : Scanner) : Except ReadError Scanner := do
  return (← (s.allowKey true).dropMark).take 1 .flowEntry

/-- The dash of an item. -/
def fetchBlockEntry (s : Scanner) : Except ReadError Scanner :=
  if !s.inFlow && !s.mayStartKey then .error .malformed
  else do
    return (← ((s.openBlock .blockSequenceStart).allowKey true).dropMark).take 1 .blockEntry

/-- The mark of a key. -/
def fetchKey (s : Scanner) : Except ReadError Scanner :=
  if !s.inFlow && !s.mayStartKey then .error .malformed
  else do
    return (← ((s.openBlock .blockMappingStart).allowKey (!s.inFlow)).dropMark).take 1 .key

/-- The colon before a value. If a key may have started on this line, it did. -/
def fetchValue (s : Scanner) : Except ReadError Scanner :=
  match s.marks.find? fun mark => mark.1 = s.depth with
  | some (_, mark) =>
      let s := { s with marks := s.marks.filter fun other => other.1 ≠ s.depth }
      let s := s.insert mark.count .key
      let s :=
        if s.startsBlock mark.column then
          (s.enter mark.column).insert mark.count .blockMappingStart
        else s
      .ok ((s.allowKey false).take 1 .value)
  | none =>
      if !s.inFlow && !s.mayStartKey then .error .malformed
      else do
        return (← ((s.openBlock .blockMappingStart).allowKey (!s.inFlow)).dropMark).take 1 .value

/-- What may be or begin a key: an alias, an anchor, a tag or a quoted scalar, read by the given
function. -/
def fetchMarked {α : Type} (read : Cursor → Except ReadError (α × Cursor)) (token : α → Token)
    (s : Scanner) : Except ReadError Scanner := do
  let s ← s.markKey
  let (content, p) ← read s.place
  return ((s.allowKey false).moveTo p).push (token content)

/-- A block scalar. -/
def fetchBlockScalar (folded : Bool) (s : Scanner) : Except ReadError Scanner := do
  let s ← (s.allowKey true).dropMark
  let (text, p) ← blockScalar folded s.indent s.place
  return (s.moveTo p).push (.scalar text false)

/-- A plain scalar. -/
def fetchPlain (s : Scanner) : Except ReadError Scanner := do
  let s ← s.markKey
  let (text, crossed, p) := plainText s.inFlow (s.indent + 1) (s.place.rest.length + 1) s.place
  return ((s.allowKey crossed).moveTo p).push (.scalar text true)

/-- Whether a plain scalar can start with a character that the given text follows. -/
def startsPlain (inFlow : Bool) (c : Char) (rest : List Char) : Bool :=
  !(atBlank [c] || "-?:,[]\x7b\x7d#&*!|>'\"%@\x60".toList.contains c) ||
    (!atBlank rest && (c = '-' || (!inFlow && (c = '?' || c = ':'))))

/-- The next token, whose first character is given and which the given text follows. -/
def fetchAt (c : Char) (rest : List Char) (s : Scanner) : Except ReadError Scanner :=
  let flush := s.place.column = 0
  if c = '%' ∧ flush then s.fetchDirective
  else if c = '-' ∧ flush ∧ atSeparator (c :: rest) then s.fetchMarker .documentStart
  else if c = '.' ∧ flush ∧ atSeparator (c :: rest) then s.fetchMarker .documentEnd
  else if c = '[' then s.fetchFlowStart .flowSequenceStart
  else if c = '\x7b' then s.fetchFlowStart .flowMappingStart
  else if c = ']' then s.fetchFlowEnd .flowSequenceEnd
  else if c = '\x7d' then s.fetchFlowEnd .flowMappingEnd
  else if c = ',' then s.fetchFlowEntry
  else if c = '-' ∧ atBlank rest then s.fetchBlockEntry
  else if c = '?' ∧ (s.inFlow ∨ atBlank rest) then s.fetchKey
  else if c = ':' ∧ (s.inFlow ∨ atBlank rest) then s.fetchValue
  else if c = '*' then s.fetchMarked anchorName .alias
  else if c = '&' then s.fetchMarked anchorName .anchor
  else if c = '!' then s.fetchMarked tagName .tag
  else if c = '|' ∧ !s.inFlow then s.fetchBlockScalar false
  else if c = '>' ∧ !s.inFlow then s.fetchBlockScalar true
  else if c = '\'' ∨ c = '"' then s.fetchMarked quotedScalar (Token.scalar · false)
  else if startsPlain s.inFlow c rest then s.fetchPlain
  else .error .malformed

/-- The state after the next token, or none at the end of the text. -/
def step (s : Scanner) : Except ReadError (Scanner × Bool) := do
  let s ← (s.skipBlanks (s.place.rest.length + 1)).dropStale
  let s := s.unwind s.column
  match s.place.rest with
  | [] => return (← s.finish, false)
  | c :: rest => return (← s.fetchAt c rest, true)

/-- The number of tokens that are settled: those before the first place where a key may have
started. -/
def settled (s : Scanner) : Nat :=
  (s.marks.map fun mark => mark.2.count).foldl min s.count

/-- The tokens up to a number, and then a fault. -/
def stopped (number : Nat) (error : ReadError) (s : Scanner) : List Token :=
  (s.tokens.drop (s.count - number)).reverse ++ [.bad error]

/-- The tokens from a place on. The text is read on only while the token after the first `given`
ones is not settled, so that is the one in whose place a fault stands. -/
def run : Nat → Nat → Scanner → List Token
  | 0, _, s => s.tokens.reverse
  | fuel + 1, given, s =>
      match s.dropStale with
      | .error e => s.stopped given e
      | .ok s =>
          match s.step with
          | .error e => s.stopped s.settled e
          | .ok (after, true) => run fuel s.settled after
          | .ok (after, false) => after.tokens.reverse

end Scanner

/-- Whether a character can stand in a text. -/
def isAllowed (c : Char) : Bool :=
  let n := c.toNat
  [0x09, 0x0a, 0x0d, 0x85].contains n || decide (0x20 ≤ n ∧ n ≤ 0x7e) ||
    decide (0xa0 ≤ n ∧ n ≤ 0xfffd) || decide (0x10000 ≤ n)

/-- The tokens of a text. -/
def Token.ofText (text : List Char) : List Token :=
  if text.all isAllowed then Scanner.run (text.length + 1) 0 (Scanner.start text)
  else [.bad .malformed]

end Stanza.Yaml
