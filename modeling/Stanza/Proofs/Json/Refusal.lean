import Stanza.Json.Document
import Stanza.Proofs.Steps

/-!
JSON texts that are refused for the length of an integer.

The reader takes one token after another, and `advance` is what a token does to the frames that are
open and to what may come next (`read_cons`). Below a frame that waits there is always one that can
be completed, `IsCoherent`, so from every place that the tokens of some text lead to the document
can be brought to an end (`exists_read_eq_ok`). So the reading ends at an integer that is too long
exactly when a document can go on with a value there (`ofText_eq_tooLong_iff`); wherever else the
integer stands the text is merely malformed. A token of that sort stands for that many digits in a
row (`holdsLongRun_of_mem_ofText`).
-/

namespace Stanza.Json

/-! ### One token -/

/-- What a token does where a value may stand. -/
def advanceValue (stack : List Frame) : Token → Except ReadError (List Frame × Expected)
  | .scalar value => .ok (stack, .next value)
  | .string content => .ok (stack, .next (.text content))
  | .openBrace => .ok (.mapping [] :: stack, .entry)
  | .openBracket => .ok (.list [] :: stack, .item)
  | .tooLong digits => .error (.tooLong digits)
  | _ => .error .malformed

/-- The frames that are open and what may come next, after a token. -/
def advance : List Frame → Expected → Token → Except ReadError (List Frame × Expected)
  | .list items :: below, .next value, .comma => .ok (.list (value :: items) :: below, .value)
  | .list items :: below, .next value, .closeBracket =>
      .ok (below, .next (.list (value :: items).reverse))
  | .entry entries key :: below, .next value, .comma =>
      .ok (.mapping (Entries.put (.text key) value entries) :: below, .key)
  | .entry entries key :: below, .next value, .closeBrace =>
      .ok (below, .next (.mapping (Entries.put (.text key) value entries)))
  | .mapping entries :: below, .colon key, .colon => .ok (.entry entries key :: below, .value)
  | stack, .key, .string key => .ok (stack, .colon key)
  | stack, .entry, .string key => .ok (stack, .colon key)
  | .mapping entries :: below, .entry, .closeBrace => .ok (below, .next (.mapping entries))
  | .list items :: below, .item, .closeBracket => .ok (below, .next (.list items.reverse))
  | stack, .value, token => advanceValue stack token
  | stack, .item, token => advanceValue stack token
  | _, _, _ => .error .malformed

theorem read_cons (stack : List Frame) (expected : Expected) (token : Token) (rest : List Token) :
    read stack expected (token :: rest) =
      advance stack expected token >>= fun spot => read spot.1 spot.2 rest := by
  cases stack with
  | nil => cases expected <;> cases token <;> rfl
  | cons frame below => cases frame <;> cases expected <;> cases token <;> rfl

/-- Whether a value may come next. -/
def Expected.isValue : Expected → Bool
  | .value | .item => true
  | _ => false

section Advance

variable {stack : List Frame} {expected : Expected} {token : Token} {n : Nat}

/-- Where a value may stand every token is taken as one, but for the end of a list. -/
theorem advance_of_isValue (h : expected.isValue) (htoken : token ≠ .closeBracket) :
    advance stack expected token = advanceValue stack token := by
  cases expected with
  | value =>
    cases stack with
    | nil => rfl
    | cons frame below => cases frame <;> rfl
  | item =>
    cases stack with
    | nil => rfl
    | cons frame below => cases frame <;> cases token <;> first | rfl | exact absurd rfl htoken
  | _ => cases h

theorem isValue_of_advance_scalar {v : Value} {spot : List Frame × Expected}
    (h : advance stack expected (.scalar v) = .ok spot) : expected.isValue := by
  cases expected with
  | value | item => rfl
  | _ =>
    cases stack with
    | nil => cases h
    | cons frame below => cases frame <;> cases h

/-- What stops the reader for its length is an integer where a value may stand. -/
theorem advance_eq_tooLong_iff :
    advance stack expected token = .error (.tooLong n) ↔ expected.isValue ∧ token = .tooLong n := by
  cases stack with
  | nil => cases expected <;> cases token <;> simp [advance, advanceValue, Expected.isValue]
  | cons frame below =>
    cases frame <;> cases expected <;> cases token <;>
      simp [advance, advanceValue, Expected.isValue]

end Advance

/-! ### Tokens in a row -/

/-- The frames that are open and what may come next, after some tokens. -/
def advanceAll (stack : List Frame) (expected : Expected) (tokens : List Token) :
    Except ReadError (List Frame × Expected) :=
  tokens.foldlM (fun spot token => advance spot.1 spot.2 token) (stack, expected)

theorem advanceAll_cons (stack : List Frame) (expected : Expected) (token : Token)
    (rest : List Token) : advanceAll stack expected (token :: rest) =
      advance stack expected token >>= fun spot => advanceAll spot.1 spot.2 rest := rfl

theorem read_append (stack : List Frame) (expected : Expected) (before after : List Token) :
    read stack expected (before ++ after) =
      advanceAll stack expected before >>= fun spot => read spot.1 spot.2 after := by
  induction before generalizing stack expected with
  | nil => rfl
  | cons token rest ih =>
    rw [List.cons_append, read_cons, advanceAll_cons, bind_assoc]
    simp only [ih]

/-- The reading ends at an integer that is too long when it comes to one where a value may stand. -/
theorem read_eq_tooLong_iff {stack : List Frame} {expected : Expected} {tokens : List Token}
    {n : Nat} : read stack expected tokens = .error (.tooLong n) ↔
      ∃ before after spot, tokens = before ++ .tooLong n :: after ∧
        advanceAll stack expected before = .ok spot ∧ spot.2.isValue := by
  constructor
  · intro h
    induction tokens generalizing stack expected with
    | nil =>
      unfold read at h
      split at h <;> simp_all
    | cons token rest ih =>
      rw [read_cons] at h
      rcases bind_eq_error_iff.mp h with h | ⟨spot, hspot, h⟩
      · obtain ⟨hvalue, rfl⟩ := advance_eq_tooLong_iff.mp h
        exact ⟨[], rest, (stack, expected), rfl, rfl, hvalue⟩
      · obtain ⟨before, after, last, rfl, hlast, hvalue⟩ := ih h
        refine ⟨token :: before, after, last, rfl, ?_, hvalue⟩
        rw [advanceAll_cons, hspot]
        exact hlast
  · rintro ⟨before, after, spot, rfl, hspot, hvalue⟩
    rw [read_append, hspot]
    refine bind_eq_error_iff.mpr (.inr ⟨spot, rfl, ?_⟩)
    rw [read_cons, advance_eq_tooLong_iff.mpr ⟨hvalue, rfl⟩]
    rfl

/-! ### Documents that can be completed -/

/-- Whether a frame waits for a value in it. -/
def Frame.isWaiting : Frame → Bool
  | .mapping _ => false
  | _ => true

/-- What the reader can have come to: a mapping waits for a key only as the innermost frame. -/
inductive IsCoherent : List Frame → Expected → Prop where
  | value {stack : List Frame} : (∀ frame ∈ stack, frame.isWaiting) → IsCoherent stack .value
  | item {stack : List Frame} : (∀ frame ∈ stack, frame.isWaiting) → IsCoherent stack .item
  | next {stack : List Frame} (v : Value) : (∀ frame ∈ stack, frame.isWaiting) →
      IsCoherent stack (.next v)
  | key {below : List Frame} (entries : Entries) : (∀ frame ∈ below, frame.isWaiting) →
      IsCoherent (.mapping entries :: below) .key
  | entry {below : List Frame} (entries : Entries) : (∀ frame ∈ below, frame.isWaiting) →
      IsCoherent (.mapping entries :: below) .entry
  | colon {below : List Frame} (entries : Entries) (key : String) :
      (∀ frame ∈ below, frame.isWaiting) → IsCoherent (.mapping entries :: below) (.colon key)

theorem advanceValue_coherent {stack : List Frame} {token : Token} {spot : List Frame × Expected}
    (hstack : ∀ frame ∈ stack, frame.isWaiting) (h : advanceValue stack token = .ok spot) :
    IsCoherent spot.1 spot.2 := by
  cases token <;> cases h
  · exact .entry [] hstack
  · exact .item (List.forall_mem_cons.mpr ⟨rfl, hstack⟩)
  · exact .next _ hstack
  · exact .next _ hstack

theorem advance_coherent {stack : List Frame} {expected : Expected} {token : Token}
    {spot : List Frame × Expected} (hcoherent : IsCoherent stack expected)
    (h : advance stack expected token = .ok spot) : IsCoherent spot.1 spot.2 := by
  cases hcoherent with
  | value hstack =>
    have hvalue : advance stack .value token = advanceValue stack token := by
      cases stack with
      | nil => rfl
      | cons frame below => cases frame <;> rfl
    exact advanceValue_coherent hstack (hvalue ▸ h)
  | item hstack =>
    by_cases htoken : token = .closeBracket
    · subst htoken
      cases stack with
      | nil => cases h
      | cons frame below =>
        cases frame <;> cases h
        exact .next _ (List.forall_mem_cons.mp hstack).2
    · rw [advance_of_isValue rfl htoken] at h
      exact advanceValue_coherent hstack h
  | next v hstack =>
    cases stack with
    | nil => cases h
    | cons frame below =>
      have hbelow := (List.forall_mem_cons.mp hstack).2
      cases frame with
      | list items =>
        cases token <;> cases h
        · exact .next _ hbelow
        · exact .value (List.forall_mem_cons.mpr ⟨rfl, hbelow⟩)
      | entry entries key =>
        cases token <;> cases h
        · exact .next _ hbelow
        · exact .key _ hbelow
      | mapping entries => cases h
  | key entries hbelow => cases token <;> cases h; exact .colon entries _ hbelow
  | entry entries hbelow =>
    cases token <;> cases h
    · exact .next _ hbelow
    · exact .colon entries _ hbelow
  | colon entries key hbelow =>
    cases token <;> cases h
    exact .value (List.forall_mem_cons.mpr ⟨rfl, hbelow⟩)

theorem advanceAll_coherent {stack : List Frame} {expected : Expected} {tokens : List Token}
    {spot : List Frame × Expected} (hcoherent : IsCoherent stack expected)
    (h : advanceAll stack expected tokens = .ok spot) : IsCoherent spot.1 spot.2 := by
  induction tokens generalizing stack expected with
  | nil => cases h; exact hcoherent
  | cons token rest ih =>
    obtain ⟨next, hnext, h⟩ := bind_eq_ok_iff.mp (advanceAll_cons _ _ _ _ ▸ h)
    exact ih (advance_coherent hcoherent hnext) h

/-- After a value the frames that wait can be closed one by one. -/
theorem exists_read_eq_ok {stack : List Frame} (h : ∀ frame ∈ stack, frame.isWaiting) (v : Value) :
    ∃ after document, read stack (.next v) after = .ok document := by
  induction stack generalizing v with
  | nil => exact ⟨[], v, rfl⟩
  | cons frame below ih =>
    obtain ⟨hframe, hbelow⟩ := List.forall_mem_cons.mp h
    cases frame with
    | list items =>
      obtain ⟨after, document, hread⟩ := ih hbelow (.list (v :: items).reverse)
      exact ⟨.closeBracket :: after, document, by rw [read_cons]; exact hread⟩
    | entry entries key =>
      obtain ⟨after, document, hread⟩ := ih hbelow (.mapping (Entries.put (.text key) v entries))
      exact ⟨.closeBrace :: after, document, by rw [read_cons]; exact hread⟩
    | mapping entries => cases hframe

/-- Some tokens begin a document that goes on with a value. -/
def AwaitsValue (before : List Token) : Prop :=
  ∃ after document, read [] .value (before ++ .scalar .null :: after) = .ok document

theorem awaitsValue_iff {before : List Token} : AwaitsValue before ↔
    ∃ spot, advanceAll [] .value before = .ok spot ∧ spot.2.isValue := by
  constructor
  · rintro ⟨after, document, h⟩
    rw [read_append] at h
    obtain ⟨spot, hspot, h⟩ := bind_eq_ok_iff.mp h
    rw [read_cons] at h
    obtain ⟨next, hnext, -⟩ := bind_eq_ok_iff.mp h
    exact ⟨spot, hspot, isValue_of_advance_scalar hnext⟩
  · rintro ⟨⟨stack, expected⟩, hspot, hvalue⟩
    have hstack : ∀ frame ∈ stack, frame.isWaiting := by
      have hcoherent := advanceAll_coherent (.value (by simp)) hspot
      cases hcoherent <;> first | assumption | cases hvalue
    obtain ⟨after, document, hread⟩ := exists_read_eq_ok hstack .null
    refine ⟨after, document, ?_⟩
    rw [read_append, hspot]
    refine bind_eq_ok_iff.mpr ⟨_, rfl, ?_⟩
    rw [read_cons, advance_of_isValue hvalue Token.noConfusion]
    exact hread

/-- A text is refused for the length of an integer when the tokens before it begin a document that
goes on with a value. -/
theorem ofText_eq_tooLong_iff {text : List Char} {n : Nat} :
    ofText text = .error (.tooLong n) ↔
      ∃ before after, Token.ofText text = before ++ .tooLong n :: after ∧ AwaitsValue before := by
  simp only [ofText, read_eq_tooLong_iff, awaitsValue_iff]
  constructor
  · rintro ⟨before, after, spot, htokens, hspot, hvalue⟩
    exact ⟨before, after, htokens, spot, hspot, hvalue⟩
  · rintro ⟨before, after, htokens, spot, hspot, hvalue⟩
    exact ⟨before, after, spot, htokens, hspot, hvalue⟩

/-! ### Integers that are too long -/

/-- A text holds so many decimal digits in a row, more than an integer is read with. -/
def HoldsLongRun (text : List Char) (n : Nat) : Prop :=
  ∃ digits, digits <:+: text ∧ (∀ c ∈ digits, isDecimalDigit c) ∧ digits.length = n ∧ digitLimit < n

theorem HoldsLongRun.mono {part text : List Char} {n : Nat} (h : HoldsLongRun part n)
    (hpart : part <:+: text) : HoldsLongRun text n := by
  obtain ⟨digits, hdigits, hall⟩ := h
  exact ⟨digits, hdigits.trans hpart, hall⟩

theorem number_eq_tooLong {negative : Bool} {digits rest : List Char} {n : Nat}
    (h : (number negative digits rest).1 = .tooLong n) :
    digits.length = n ∧ digitLimit < n := by
  simp only [number] at h
  split at h
  · split at h
    · cases h
    · rename_i hlength
      cases h
      exact ⟨rfl, Nat.lt_of_not_le hlength⟩
  · cases h

theorem holdsLongRun_of_ofNumber {negative : Bool} {word : List Char} {n : Nat}
    (h : Token.ofNumber negative word = .tooLong n) : HoldsLongRun word n := by
  have hread : ∀ {digits rest : List Char}, digits <+: word → (∀ c ∈ digits, isDecimalDigit c) →
      (number negative digits rest).1 = .tooLong n → HoldsLongRun word n := by
    intro digits rest hfront hdigits h
    obtain ⟨hlength, hlong⟩ := number_eq_tooLong h
    exact ⟨digits, hfront.isInfix, hdigits, hlength, hlong⟩
  unfold Token.ofNumber at h
  split at h
  rename_i token rest heq
  split at h
  · subst h
    split at heq
    · exact hread ⟨_, rfl⟩ (List.forall_mem_singleton.mpr rfl) (congrArg Prod.fst heq)
    · simp only at heq
      split at heq
      · cases heq
      · exact hread (List.takeWhile_prefix _) (List.all_eq_true.mp List.all_takeWhile)
          (congrArg Prod.fst heq)
  · cases h

theorem holdsLongRun_of_ofWord {word : List Char} {n : Nat}
    (h : Token.ofWord word = .tooLong n) : HoldsLongRun word n := by
  unfold Token.ofWord at h
  repeat' split at h
  all_goals try cases h
  · exact (holdsLongRun_of_ofNumber h).mono (List.infix_cons List.infix_rfl)
  · exact holdsLongRun_of_ofNumber h

theorem ofMark?_ne_tooLong {c : Char} {n : Nat} : Token.ofMark? c ≠ some (.tooLong n) := by
  unfold Token.ofMark?
  split <;> simp

/-- What has been read of the word that a state is in. -/
def State.pending : State → List Char
  | .word chars => chars.reverse
  | _ => []

theorem State.pending_of_afterUnit? {chars : List Char} {high : Option Nat} {code : Nat}
    {next : State} (h : State.afterUnit? chars high code = some next) : next.pending = [] := by
  unfold afterUnit? at h
  repeat' split at h
  · cases h
    rfl
  · obtain ⟨d, -, rfl⟩ := Option.map_eq_some_iff.mp h
    rfl
  · obtain ⟨d, -, rfl⟩ := Option.map_eq_some_iff.mp h
    rfl
  · cases h

/-- A character ends a word, or it leads to a state that holds no more than has been read. -/
theorem State.step?_eq_some {state next : State} {c : Char} {made : List Token}
    (h : state.step? c = some (made, next)) :
    (∀ n, .tooLong n ∈ made → HoldsLongRun state.pending n) ∧
      next.pending <:+ state.pending ++ [c] := by
  cases state with
  | ready =>
    simp only [step?] at h
    repeat' split at h
    all_goals cases h
    · simp [pending]
    · simp [pending]
    · rename_i mark hmark
      refine ⟨fun n hn => ?_, by simp [pending]⟩
      rw [List.mem_singleton] at hn
      exact absurd (hn ▸ hmark) ofMark?_ne_tooLong
    · simp [pending]
  | word chars =>
    have hword : ∀ n, Token.tooLong n = .ofWord chars.reverse →
        HoldsLongRun (State.word chars).pending n := fun n hn => holdsLongRun_of_ofWord hn.symm
    simp only [step?] at h
    repeat' split at h
    all_goals cases h
    · exact ⟨by simpa using hword, List.nil_suffix⟩
    · exact ⟨by simpa using hword, List.nil_suffix⟩
    · rename_i mark hmark
      refine ⟨fun n hn => ?_, List.nil_suffix⟩
      rcases List.mem_cons.mp hn with hn | hn
      · exact hword n hn
      · rw [List.mem_singleton] at hn
        exact absurd (hn ▸ hmark) ofMark?_ne_tooLong
    · simp [pending]
  | string chars =>
    simp only [step?] at h
    repeat' split at h
    all_goals cases h
    all_goals simp [pending]
  | escape chars =>
    simp only [step?] at h
    split at h
    · cases h
      simp [pending]
    · obtain ⟨d, -, h⟩ := Option.map_eq_some_iff.mp h
      cases h
      simp [pending]
  | unit chars high digits =>
    simp only [step?] at h
    split at h
    · cases h
      simp [pending]
    · obtain ⟨after, hafter, h⟩ := Option.map_eq_some_iff.mp h
      cases h
      obtain ⟨code, -, hafter⟩ := Option.bind_eq_some_iff.mp hafter
      rw [pending_of_afterUnit? hafter]
      simp
  | pair chars high =>
    simp only [step?] at h
    split at h <;> cases h
    simp [pending]
  | pairEscape chars high =>
    simp only [step?] at h
    split at h <;> cases h
    simp [pending]

theorem holdsLongRun_of_mem_tokens {state : State} {text : List Char} {n : Nat}
    (h : .tooLong n ∈ tokens state text) : HoldsLongRun (state.pending ++ text) n := by
  induction text generalizing state with
  | nil =>
    cases state with
    | word chars =>
      rw [State.pending, List.append_nil]
      exact holdsLongRun_of_ofWord (List.mem_singleton.mp h).symm
    | _ => simp [tokens] at h
  | cons c rest ih =>
    rw [tokens] at h
    split at h
    · rename_i made next hstep
      obtain ⟨hmade, hpending⟩ := State.step?_eq_some hstep
      rcases List.mem_append.mp h with h | h
      · exact (hmade n h).mono (List.prefix_append _ _).isInfix
      · obtain ⟨read, hread⟩ := hpending
        refine (ih h).mono (List.IsSuffix.isInfix ⟨read, ?_⟩)
        rw [← List.append_assoc, hread, List.append_assoc, List.singleton_append]
    · simp at h

/-- A token for an integer that is too long stands for that many digits in a row. -/
theorem holdsLongRun_of_mem_ofText {text : List Char} {n : Nat}
    (h : .tooLong n ∈ Token.ofText text) : HoldsLongRun text n :=
  holdsLongRun_of_mem_tokens h

end Stanza.Json
