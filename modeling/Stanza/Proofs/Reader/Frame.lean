import Stanza.Proofs.Number.Reading
import Stanza.Proofs.Reader.Token

/-!
Reading documents.

The reader goes through the tokens of a text once. It keeps what has been opened and is not yet
complete as a stack of `Frame`s, the innermost first: lists, objects, blocks, and the keys and
headers at which they stand. `step` takes one token, and `document` is what stands at the bottom of
the stack in the end: the blocks of the text, as `Reading`s whose values are `Term`s.

`Reader.Runs lexemes s t` says that reading the lexemes takes the reader from `s` to `t`. Runs
compose (`Runs.append`), and where a text is laid out from lexemes that run from nothing to some
blocks, those blocks are what the reader finds (`document_of_laid`).
-/

namespace Stanza

/-- What a value is read as. -/
inductive Term where
  | null
  | bool (b : Bool)
  | number (q : ℚ)
  | quoted (pieces : List Piece)
  | traversal (name : List Char)
  | list (items : List Term)
  | object (entries : List (List Piece × Term))
  deriving Inhabited

/-- What a block is read as. -/
inductive Reading where
  | block (keyword : List Char) (labels : List (List Piece))
      (attributes : List (List Piece × Term)) (children : List Reading)
  deriving Inhabited

namespace Reader

/-- Something that has been opened and is not yet complete. -/
inductive Frame where
  /-- A list in which an item comes next. -/
  | item (items : List Term)
  /-- A list right behind an item. -/
  | behind (items : List Term)
  | object (entries : List (List Piece × Term))
  /-- A name whose equals sign comes next. -/
  | name (name : List Piece)
  /-- A name whose value comes next. -/
  | value (name : List Piece)
  /-- A name in a body, before it is known whether a block begins with it. -/
  | header (keyword : List Char) (labels : List (List Piece))
  | body (keyword : List Char) (labels : List (List Piece))
      (attributes : List (List Piece × Term)) (children : List Reading)
  | document (blocks : List Reading)
  deriving Inhabited

/-- What is open, the innermost first. -/
abbrev Stack := List Frame

/-- The term that a word is by itself. -/
def wordTerm? (word : List Char) : Option Term :=
  if word = "null".toList then some .null
  else if word = "true".toList then some (.bool true)
  else if word = "false".toList then some (.bool false)
  else match number? word with
    | some q => some (.number q)
    | none => if Text.isDotted word then some (.traversal word) else none

/-- The term that a token is by itself. -/
def term? : Token → Option Term
  | .word word => wordTerm? word
  | .quoted pieces => some (.quoted pieces)
  | .mark _ => none

/-- The key that a token is: an identifier or a quoted string. -/
def key? : Token → Option (List Piece)
  | .word word => if Text.isIdentifier word then some (word.map .char) else none
  | .quoted pieces => some pieces
  | .mark _ => none

/-- A term where a value has to come. -/
def give (term : Term) : Stack → Option Stack
  | .item items :: rest => some (.behind (items ++ [term]) :: rest)
  | .value name :: .object entries :: rest => some (.object (entries ++ [(name, term)]) :: rest)
  | .value name :: .body keyword labels attributes children :: rest =>
      some (.body keyword labels (attributes ++ [(name, term)]) children :: rest)
  | _ => none

/-- A block where blocks may come. -/
def close (block : Reading) : Stack → Option Stack
  | .body keyword labels attributes children :: rest =>
      some (.body keyword labels attributes (children ++ [block]) :: rest)
  | .document blocks :: rest => some (.document (blocks ++ [block]) :: rest)
  | _ => none

/-- The first token of a value. -/
def start (stack : Stack) : Token → Option Stack
  | .mark '[' => some (.item [] :: stack)
  | .mark '\x7b' => some (.object [] :: stack)
  | token => do give (← term? token) stack

/-- The name that an attribute or a block begins with. -/
def headed (stack : Stack) : Token → Option Stack
  | .word word => if Text.isIdentifier word then some (.header word [] :: stack) else none
  | _ => none

/-- Reads one token. -/
def step : Stack → Token → Option Stack
  | .item [] :: rest, .mark ']' => give (.list []) rest
  | .item items :: rest, token => start (.item items :: rest) token
  | .behind items :: rest, .mark ',' => some (.item items :: rest)
  | .behind items :: rest, .mark ']' => give (.list items) rest
  | .object entries :: rest, .mark '\x7d' => give (.object entries) rest
  | .object entries :: rest, token => do return .name (← key? token) :: .object entries :: rest
  | .name name :: rest, .mark '=' => some (.value name :: rest)
  | .value name :: rest, token => start (.value name :: rest) token
  | .header keyword labels :: rest, .quoted label =>
      some (.header keyword (labels ++ [label]) :: rest)
  | .header keyword labels :: rest, .mark '\x7b' => some (.body keyword labels [] [] :: rest)
  | .header keyword [] :: rest, .mark '=' => some (.value (keyword.map .char) :: rest)
  | .body keyword labels attributes children :: rest, .mark '\x7d' =>
      close (.block keyword labels attributes children) rest
  | .body keyword labels attributes children :: rest, token =>
      headed (.body keyword labels attributes children :: rest) token
  | .document blocks :: rest, token => headed (.document blocks :: rest) token
  | _, _ => none

/-- Reads the tokens of a document. -/
def run (ts : List Token) (stack : Stack) : Option Stack := ts.foldlM step stack

/-- Reads a document: the blocks in a text, if it is one. -/
def document (text : List Char) : Option (List Reading) := do
  match ← run (← tokens text) [.document []] with
  | [.document blocks] => return blocks
  | _ => none

/-! ### Runs -/

/-- Reading some lexemes takes the reader from one stack to another. -/
def Runs (lexemes : List Lexeme) (s t : Stack) : Prop :=
  ∃ ts, List.Forall₂ Lexeme.Reads lexemes ts ∧ run ts s = some t

theorem run_append (ts us : List Token) (s : Stack) :
    run (ts ++ us) s = (run ts s).bind (run us) := by
  simp only [run, List.foldlM_append, bind]
  rfl

namespace Runs

variable {a b : List Lexeme} {s t u : Stack}

theorem refl (s : Stack) : Runs [] s s := ⟨[], .nil, rfl⟩

theorem append (ha : Runs a s t) (hb : Runs b t u) : Runs (a ++ b) s u := by
  obtain ⟨ts, hts, hrun⟩ := ha
  obtain ⟨us, hus, hrun'⟩ := hb
  refine ⟨ts ++ us, List.rel_append hts hus, ?_⟩
  rw [run_append, hrun, Option.bind_some, hrun']

theorem cons {lexeme : Lexeme} {token : Token} (hreads : lexeme.Reads token)
    (hstep : step s token = some t) (hb : Runs b t u) : Runs (lexeme :: b) s u := by
  obtain ⟨us, hus, hrun⟩ := hb
  refine ⟨token :: us, .cons hreads hus, ?_⟩
  rw [run, List.foldlM_cons, hstep]
  exact hrun

theorem single {lexeme : Lexeme} {token : Token} (hreads : lexeme.Reads token)
    (hstep : step s token = some t) : Runs [lexeme] s t :=
  cons hreads hstep (refl t)

end Runs

/-- The reader finds the blocks that a text is laid out from. -/
theorem document_of_laid {lexemes : List Lexeme} {text : List Char} {blocks : List Reading}
    (hlaid : Laid lexemes text) (hruns : Runs lexemes [.document []] [.document blocks]) :
    document text = some blocks := by
  obtain ⟨ts, hreads, hrun⟩ := hruns
  simp [document, tokens_of_laid hlaid hreads, hrun]

/-! ### Values -/

section Values

variable {lexemes : List Lexeme} {s t : Stack}

/-- Where a value has to come, its first token begins it, unless the token closes a list. -/
theorem step_of_give {term : Term} {token : Token} (h : give term s = some t)
    (hclose : token ≠ .mark ']') : step s token = start s token := by
  unfold give at h
  split at h
  · rename_i items rest
    rw [step]
    intro hmark
    exact absurd hmark hclose
  · rw [step]
  · rw [step]
  · simp at h

theorem Runs.leaf {lexeme : Lexeme} {token : Token} {term : Term} (hreads : lexeme.Reads token)
    (hterm : term? token = some term) (h : give term s = some t) : Runs [lexeme] s t := by
  cases token with
  | mark c => simp [term?] at hterm
  | word word =>
    refine Runs.single hreads ?_
    rw [step_of_give h (by simp)]
    simp [start, hterm, h]
  | quoted pieces =>
    refine Runs.single hreads ?_
    rw [step_of_give h (by simp)]
    simp [start, hterm, h]

/-- A list: its items and the closing bracket. -/
theorem Runs.list {items : List Term}
    (hitems : Runs (lexemes ++ [.mark ']']) (.item [] :: s) t)
    (h : give (.list items) s = some t) : Runs (.mark '[' :: lexemes ++ [.mark ']']) s t := by
  have hopen : step s (.mark '[') = some (.item [] :: s) := by
    rw [step_of_give h (by simp)]
    rfl
  exact Runs.cons (Lexeme.reads_mark '[') hopen hitems

/-- An object: its entries and the closing brace. -/
theorem Runs.object {entries : List (List Piece × Term)}
    (hentries : Runs lexemes (.object [] :: s) (.object entries :: s))
    (h : give (.object entries) s = some t) :
    Runs (.mark '\x7b' :: lexemes ++ [.mark '\x7d']) s t := by
  have hopen : step s (.mark '\x7b') = some (.object [] :: s) := by
    rw [step_of_give h (by simp)]
    rfl
  have hclose : step (.object entries :: s) (.mark '\x7d') = some t := by
    rw [step, h]
  exact (Runs.cons (Lexeme.reads_mark '\x7b') hopen hentries).append
    (Runs.single (Lexeme.reads_mark '\x7d') hclose)

/-- An entry of an object. -/
theorem Runs.entry {key : List Char} {token : Token} {name : List Piece}
    {entries more : List (List Piece × Term)} (hreads : (Lexeme.text key).Reads token)
    (hkey : key? token = some name)
    (hvalue : Runs lexemes (.value name :: .object entries :: s) (.object more :: s)) :
    Runs (.text key :: .mark '=' :: lexemes) (.object entries :: s) (.object more :: s) := by
  have hname : step (.object entries :: s) token = some (.name name :: .object entries :: s) := by
    rw [step]
    · simp [hkey]
    · rintro rfl
      simp [key?] at hkey
  exact Runs.cons hreads hname (Runs.cons (Lexeme.reads_mark '=') rfl hvalue)

/-! ### Blocks -/

/-- Blocks in a row where blocks may come. -/
def closeAll : List Reading → Stack → Option Stack
  | [], s => some s
  | block :: rest, s => (close block s).bind (closeAll rest)

theorem closeAll_body (blocks : List Reading) (keyword : List Char) (labels : List (List Piece))
    (children : List Reading) (attributes : List (List Piece × Term)) (s : Stack) :
    closeAll blocks (.body keyword labels attributes children :: s) =
      some (.body keyword labels attributes (children ++ blocks) :: s) := by
  induction blocks generalizing children with
  | nil => simp [closeAll]
  | cons block rest ih => simp [closeAll, close, ih]

theorem closeAll_document (blocks before : List Reading) :
    closeAll blocks [.document before] = some [.document (before ++ blocks)] := by
  induction blocks generalizing before with
  | nil => simp [closeAll]
  | cons block rest ih => simp [closeAll, close, ih]

/-- Where a block may begin an identifier is taken for its keyword. -/
theorem step_word {block : Reading} {word : List Char} (h : close block s = some t)
    (hword : Text.isIdentifier word) : step s (.word word) = some (.header word [] :: s) := by
  unfold close at h
  split at h
  · simp [step, headed, hword]
  · simp [step, headed, hword]
  · simp at h

/-- An attribute in a body. -/
theorem Runs.attribute {name keyword : List Char} {labels : List (List Piece)}
    {attributes more : List (List Piece × Term)} {children : List Reading}
    (hname : Text.isIdentifier name)
    (hvalue : Runs lexemes
      (.value (name.map .char) :: .body keyword labels attributes children :: s)
      (.body keyword labels more children :: s)) :
    Runs (.text name :: .mark '=' :: lexemes) (.body keyword labels attributes children :: s)
      (.body keyword labels more children :: s) := by
  have hheader : step (.body keyword labels attributes children :: s) (.word name) =
      some (.header name [] :: .body keyword labels attributes children :: s) := by
    simp [step, headed, hname]
  exact Runs.cons (Lexeme.reads_identifier hname) hheader
    (Runs.cons (Lexeme.reads_mark '=') rfl hvalue)

/-- The labels of a block. -/
theorem Runs.labels (keyword : List Char) (before : List (List Piece)) (labels : List (List Char))
    (s : Stack) :
    Runs (labels.map fun label => .text (Text.Quoted.quote label)) (.header keyword before :: s)
      (.header keyword (before ++ labels.map fun label => label.map .char) :: s) := by
  induction labels generalizing before with
  | nil => simpa using Runs.refl _
  | cons label rest ih =>
    have hrest := ih (before ++ [label.map .char])
    rw [List.append_assoc] at hrest
    exact Runs.cons (Lexeme.reads_quote label) rfl hrest

/-- A block: its header, its body and the closing brace. -/
theorem Runs.block {keyword : List Char} {labels : List (List Char)} {body : List Lexeme}
    {attributes : List (List Piece × Term)} {children : List Reading}
    (hkeyword : Text.isIdentifier keyword)
    (hbody : Runs body (.body keyword (labels.map fun label => label.map .char) [] [] :: s)
      (.body keyword (labels.map fun label => label.map .char) attributes children :: s))
    (h : close (.block keyword (labels.map fun label => label.map .char) attributes children) s =
      some t) :
    Runs ((keyword :: labels.map Text.Quoted.quote).map .text ++ .mark '\x7b' :: body ++
      [.mark '\x7d']) s t := by
  have hlabels := Runs.labels keyword [] labels s
  rw [List.nil_append] at hlabels
  have hheader := Runs.cons (Lexeme.reads_identifier hkeyword) (step_word h hkeyword) hlabels
  have hopened := hheader.append (Runs.cons (Lexeme.reads_mark '\x7b') rfl hbody)
  have hclose : step (.body keyword (labels.map fun label => label.map .char) attributes
      children :: s) (.mark '\x7d') = some t := by
    rw [step, h]
  simpa [Function.comp_def] using
    hopened.append (Runs.single (Lexeme.reads_mark '\x7d') hclose)

end Values

end Reader

end Stanza
