import Stanza.Proofs.Quoted
import Stanza.Proofs.Traversal

/-!
Canonical templates.

A template is canonical when no text in it is empty or stands next to another, which is what
`Template.merge` makes of any segments (`canonical_merge`) and leaves alone (`merge_eq_self`).
`Template.contents` says what segments stand for, piece by piece; merging does not change it
(`contents_merge`). For segments that can be written, `Template.body` is the text between the quotes
(`segmentsText_eq_ok`, `encode_template`).
-/

namespace Stanza

namespace Template

/-- Whether some segments begin with a text. -/
def beginsWithText : List Value → Bool
  | .text _ :: _ => true
  | _ => false

/-- No text is empty or stands next to another. -/
def Canonical : List Value → Prop
  | [] => True
  | .text s :: rest => s ≠ "" ∧ beginsWithText rest = false ∧ Canonical rest
  | _ :: rest => Canonical rest

/-- A segment of a template: a text, or a reference whose name is one of `names`. -/
def IsSegment (names : String → Prop) : Value → Prop
  | .text _ => True
  | .reference (.text name) => names name
  | _ => False

theorem IsSegment.mono {names others : String → Prop} (sub : ∀ s, names s → others s) {v : Value}
    (h : IsSegment names v) : IsSegment others v := by
  unfold IsSegment at h ⊢
  split <;> simp_all

theorem IsSegment.eq_or {names : String → Prop} {v : Value} (h : IsSegment names v) :
    (∃ s, v = .text s) ∨ ∃ name, v = .reference (.text name) ∧ names name := by
  unfold IsSegment at h
  split at h
  · exact .inl ⟨_, rfl⟩
  · exact .inr ⟨_, rfl, h⟩
  · exact absurd h id

/-- Induction along segments that are texts and references. -/
@[elab_as_elim]
theorem isSegment_induction {names : String → Prop}
    {motive : (segments : List Value) → (∀ v ∈ segments, IsSegment names v) → Prop}
    (nil : motive [] (by simp))
    (text : ∀ s rest hrest, motive rest hrest →
      motive (.text s :: rest) (List.forall_mem_cons.mpr ⟨trivial, hrest⟩))
    (reference : ∀ name rest (hname : names name) hrest, motive rest hrest →
      motive (.reference (.text name) :: rest) (List.forall_mem_cons.mpr ⟨hname, hrest⟩))
    (segments : List Value) (h : ∀ v ∈ segments, IsSegment names v) : motive segments h := by
  induction segments with
  | nil => exact nil
  | cons v rest ih =>
    obtain ⟨hv, hrest⟩ := List.forall_mem_cons.mp h
    rcases hv.eq_or with ⟨s, rfl⟩ | ⟨name, rfl, hname⟩
    · exact text s rest hrest (ih hrest)
    · exact reference name rest hname hrest (ih hrest)

/-- What some segments stand for, piece by piece. -/
def contents : List Value → List Piece
  | [] => []
  | .text s :: rest => s.toList.map .char ++ contents rest
  | .reference (.text name) :: rest => .splice (referenceChars name.toList) :: contents rest
  | _ :: rest => contents rest

/-! ### Merging -/

/-- A text joins the text that comes next, or stays by itself if it is not empty. -/
theorem merge_text (s : String) (rest : List Value) :
    (∃ t others, merge rest = .text t :: others ∧
        merge (.text s :: rest) = .text (s ++ t) :: others) ∨
      beginsWithText (merge rest) = false ∧
        merge (.text s :: rest) = if s = "" then merge rest else .text s :: merge rest := by
  rw [merge]
  split
  · exact .inl ⟨_, _, ‹_›, rfl⟩
  · refine .inr ⟨?_, rfl⟩
    unfold beginsWithText
    split
    · exact absurd ‹merge rest = _› (by simp_all)
    · rfl

theorem merge_cons_of_not_text {v : Value} (h : ∀ s, v ≠ .text s) (rest : List Value) :
    merge (v :: rest) = v :: merge rest := by
  rw [merge]
  exact h

theorem canonical_cons_of_not_text {v : Value} (h : ∀ s, v ≠ .text s) {rest : List Value} :
    Canonical (v :: rest) ↔ Canonical rest := by
  rw [Canonical]
  exact h

/-- Induction along segments, a text or another segment at a time. -/
@[elab_as_elim]
theorem segments_induction {motive : List Value → Prop} (nil : motive [])
    (text : ∀ s rest, motive rest → motive (.text s :: rest))
    (other : ∀ v rest, (∀ s, v ≠ .text s) → motive rest → motive (v :: rest))
    (segments : List Value) : motive segments := by
  induction segments with
  | nil => exact nil
  | cons v rest ih =>
    by_cases htext : ∃ s, v = .text s
    · obtain ⟨s, rfl⟩ := htext
      exact text s rest ih
    · exact other v rest (fun s hs => htext ⟨s, hs⟩) ih

/-- What merging gives is canonical. -/
theorem canonical_merge (segments : List Value) : Canonical (merge segments) := by
  induction segments using segments_induction with
  | nil => trivial
  | text s rest ih =>
    rcases merge_text s rest with ⟨t, others, hrest, hall⟩ | ⟨hbegins, hall⟩
    · rw [hrest] at ih
      rw [hall]
      obtain ⟨hne, happart, hothers⟩ := ih
      exact ⟨by simp [hne], happart, hothers⟩
    · rw [hall]
      split
      · exact ih
      · exact ⟨‹_›, hbegins, ih⟩
  | other v rest hnot ih =>
    rw [merge_cons_of_not_text hnot]
    exact (canonical_cons_of_not_text hnot).mpr ih

/-- Canonical segments are left alone by merging. -/
theorem merge_eq_self {segments : List Value} (h : Canonical segments) :
    merge segments = segments := by
  induction segments using segments_induction with
  | nil => rfl
  | text s rest ih =>
    obtain ⟨hne, hbegins, hrest⟩ := h
    rcases merge_text s rest with ⟨t, others, hmerge, -⟩ | ⟨-, hall⟩
    · rw [ih hrest] at hmerge
      simp [hmerge, beginsWithText] at hbegins
    · rw [hall, if_neg hne, ih hrest]
  | other v rest hnot ih =>
    rw [merge_cons_of_not_text hnot, ih ((canonical_cons_of_not_text hnot).mp h)]

/-- Merging does not change what segments stand for. -/
theorem contents_merge (segments : List Value) : contents (merge segments) = contents segments := by
  induction segments using segments_induction with
  | nil => rfl
  | text s rest ih =>
    rcases merge_text s rest with ⟨t, others, hrest, hall⟩ | ⟨-, hall⟩
    · rw [hall, contents, contents, ← ih, hrest, contents]
      simp
    · rw [hall]
      split
      · subst s
        simp [contents, ih]
      · rw [contents, contents, ih]
  | other v rest hnot ih =>
    rw [merge_cons_of_not_text hnot]
    unfold contents
    split <;> simp_all

/-- Merging makes no segment but texts out of texts. -/
theorem isSegment_merge {names : String → Prop} {segments : List Value}
    (h : ∀ v ∈ segments, IsSegment names v) : ∀ v ∈ merge segments, IsSegment names v := by
  induction segments using segments_induction with
  | nil => simp [merge]
  | text s rest ih =>
    have ih := ih fun v hv => h v (List.mem_cons_of_mem _ hv)
    intro v hv
    rcases merge_text s rest with ⟨t, others, hrest, hall⟩ | ⟨-, hall⟩
    · rw [hall] at hv
      rcases List.mem_cons.mp hv with rfl | hv
      · trivial
      · exact ih v (hrest ▸ List.mem_cons_of_mem _ hv)
    · rw [hall] at hv
      split at hv
      · exact ih v hv
      · rcases List.mem_cons.mp hv with rfl | hv
        · trivial
        · exact ih v hv
  | other segment rest hnot ih =>
    rw [merge_cons_of_not_text hnot]
    obtain ⟨hsegment, hrest⟩ := List.forall_mem_cons.mp h
    exact List.forall_mem_cons.mpr ⟨hsegment, ih hrest⟩

/-! ### The text of segments -/

theorem lonelyDollar_eq : lonelyDollar = ['$', '\x7b', '"', '$', '"', '\x7d'] := rfl

theorem escapeSegment_false (text : List Char) :
    escapeSegment false text = Text.Quoted.escape text := by
  simp [escapeSegment]

theorem escapeSegment_of_not_dollar {text : List Char} (h : text.getLast? ≠ some '$')
    (spliceFollows : Bool) : escapeSegment spliceFollows text = Text.Quoted.escape text := by
  have hlast : (Text.Quoted.escape text).getLast? ≠ some '$' :=
    fun hdollar => h (Text.Quoted.getLast?_escape hdollar)
  simp [escapeSegment, hlast]

theorem escape_dollar (text : List Char) :
    Text.Quoted.escape (text ++ ['$']) = Text.Quoted.escape text ++ ['$'] := by
  rw [Text.Quoted.escape_append (by simp)]
  rfl

/-- A dollar at the end of a text becomes a splice of its own when a splice follows. -/
theorem escapeSegment_dollar (text : List Char) :
    escapeSegment true (text ++ ['$']) = Text.Quoted.escape text ++ lonelyDollar := by
  simp [escapeSegment, escape_dollar]

/-- The text of some segments between the quotes. -/
def body : List Value → List Char
  | [] => []
  | .text s :: rest => escapeSegment (beginsWithReference rest) s.toList ++ body rest
  | .reference (.text name) :: rest => '$' :: '{' :: referenceChars name.toList ++ '}' :: body rest
  | _ :: rest => body rest

/-- What begins with no text is nothing, or it begins with a splice. -/
theorem eq_nil_or_begins {names : String → Prop} {segments : List Value}
    (h : ∀ v ∈ segments, IsSegment names v) (htext : beginsWithText segments = false) :
    segments = [] ∨
      beginsWithReference segments = true ∧ ∃ rest, body segments = '$' :: '{' :: rest := by
  cases segments with
  | nil => exact .inl rfl
  | cons segment rest =>
    rcases (h segment List.mem_cons_self).eq_or with ⟨s, rfl⟩ | ⟨name, rfl, -⟩
    · simp [beginsWithText] at htext
    · exact .inr ⟨rfl, _, rfl⟩

/-- Texts and references with a name can be written. -/
theorem segmentsText_eq_ok {segments : List Value} (h : ∀ v ∈ segments, IsSegment (· ≠ "") v)
    (path : Path) : segmentsText path segments = .ok (body segments) := by
  induction segments, h using isSegment_induction with
  | nil => rfl
  | text s rest _ ih => simp [segmentsText, ih, body, bind, Except.bind, pure, Except.pure]
  | reference name rest hname _ ih =>
    simp [segmentsText, ih, body, referenceText, Value.nonEmptyText?, hname, bind, Except.bind,
      pure, Except.pure]

/-- A template of texts and references is encoded as its body in quotes. -/
theorem encode_template {segments : List Value} (h : ∀ v ∈ segments, IsSegment (· ≠ "") v)
    (style : Style) (path : Path) :
    Value.encode style path (.template segments) =
      .ok (.inline ('"' :: body segments ++ ['"'])) := by
  simp [Value.encode, Value.toNode, Value.render, text, segmentsText_eq_ok h, bind, Except.bind,
    pure, Except.pure]

end Template

end Stanza
