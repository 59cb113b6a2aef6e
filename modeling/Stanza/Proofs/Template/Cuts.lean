import Stanza.Proofs.Template.Canonical

/-!
Cutting the text of a template.

A template may be given with its text cut anywhere, and is then encoded text by text. Nearly always
that gives the encoding of the merged template. Two cuts do not: one that tears a sign from the
brace behind it, since neither part shows that the sign has to be doubled, and an empty text between
a dollar and a reference, since the dollar is then not seen from the splice. `isTorn` finds these
cuts, and `encode_ofParts_iff` says that they are all: the encodings agree exactly when there are
none. Each of them makes the encoding shorter than it should be (`shortened_body`).
-/

namespace Stanza.Template

open Text.Quoted

/-! ### Torn templates -/

/-- Segments without the empty texts at their front. -/
def dropEmpty : List Value → List Value
  | .text s :: rest => if s = "" then dropEmpty rest else .text s :: rest
  | segments => segments

/-- Whether the next text that is not empty begins with a brace, before any reference. -/
def opensBrace (segments : List Value) : Bool :=
  match dropEmpty segments with
  | .text s :: _ => s.toList.head? == some '{'
  | _ => false

/-- Whether a reference comes next behind one or more empty texts. -/
def hidesReference (segments : List Value) : Bool :=
  !beginsWithReference segments && beginsWithReference (dropEmpty segments)

/-- Whether the end of a text is torn from what follows it: a sign from its brace, or a dollar from
the reference behind it. -/
def tears (s : String) (rest : List Value) : Bool :=
  s.toList.getLast?.any isSign && opensBrace rest ||
    s.toList.getLast? == some '$' && hidesReference rest

/-- Whether a template is cut where it matters. -/
def isTorn : List Value → Bool
  | [] => false
  | .text s :: rest => tears s rest || isTorn rest
  | _ :: rest => isTorn rest

theorem dropEmpty_of_not_text {segments : List Value} (h : beginsWithText segments = false) :
    dropEmpty segments = segments := by
  rw [dropEmpty]
  rintro s rest rfl
  simp [beginsWithText] at h

/-- A canonical template has nothing torn in it. -/
theorem isTorn_of_canonical {segments : List Value} (h : Canonical segments) :
    isTorn segments = false := by
  fun_induction isTorn segments with
  | case1 => rfl
  | case2 s rest ih =>
    obtain ⟨-, hbegins, hrest⟩ := h
    have hdrop := dropEmpty_of_not_text hbegins
    have hbrace : opensBrace rest = false := by
      unfold opensBrace
      split
      · rename_i t others htext
        rw [← hdrop, htext] at hbegins
        simp [beginsWithText] at hbegins
      · rfl
    simp [tears, hbrace, hidesReference, hdrop, ih hrest]
  | case3 v rest hnot ih => exact ih ((canonical_cons_of_not_text hnot).mp h)

theorem merge_dropEmpty (segments : List Value) : merge (dropEmpty segments) = merge segments := by
  fun_induction dropEmpty segments with
  | case1 rest ih =>
    rw [ih]
    rcases merge_text "" rest with ⟨t, others, hrest, hall⟩ | ⟨-, hall⟩
    · simp [hall, hrest]
    · simp [hall]
  | case2 => rfl
  | case3 => rfl

/-- What merging begins with when texts that are not empty come first. -/
theorem merge_of_dropEmpty_text {segments rest : List Value} {s : String}
    (h : dropEmpty segments = .text s :: rest) :
    ∃ t others, merge segments = .text (s ++ t) :: others ∧ s ≠ "" := by
  have hne : s ≠ "" := by
    fun_induction dropEmpty segments with
    | case1 _ ih => exact ih h
    | case2 => simp_all
    | case3 segments hnot => exact absurd h (hnot s rest)
  rw [← merge_dropEmpty, h]
  rcases merge_text s rest with ⟨t, others, -, hall⟩ | ⟨-, hall⟩
  · exact ⟨t, others, hall, hne⟩
  · exact ⟨"", merge rest, by simp [hall, hne], hne⟩

theorem merge_of_dropEmpty_not_text {segments : List Value}
    (h : beginsWithText (dropEmpty segments) = false) :
    beginsWithText (merge segments) = false ∧
      beginsWithReference (merge segments) = beginsWithReference (dropEmpty segments) := by
  rw [← merge_dropEmpty]
  cases hdrop : dropEmpty segments with
  | nil => exact ⟨rfl, rfl⟩
  | cons v rest =>
    rw [hdrop] at h
    have hnot : ∀ s, v ≠ .text s := by
      rintro s rfl
      simp [beginsWithText] at h
    rw [merge_cons_of_not_text hnot]
    constructor
    · unfold beginsWithText
      split
      · exact absurd ‹v :: merge rest = _› (by simp_all)
      · rfl
    · cases v <;> rfl

theorem beginsWithReference_dropEmpty (segments : List Value) :
    beginsWithReference (dropEmpty segments) = beginsWithReference (merge segments) := by
  cases htext : beginsWithText (dropEmpty segments) with
  | false => exact (merge_of_dropEmpty_not_text htext).2.symm
  | true =>
    unfold beginsWithText at htext
    split at htext
    · rename_i s rest hdrop
      obtain ⟨t, others, hmerge, -⟩ := merge_of_dropEmpty_text hdrop
      rw [hdrop, hmerge]
      rfl
    · simp at htext

theorem opensBrace_of_merge_text {segments others : List Value} {t : String}
    (h : merge segments = .text t :: others) :
    opensBrace segments = (t.toList.head? == some '{') := by
  cases htext : beginsWithText (dropEmpty segments) with
  | false =>
    have hnot := (merge_of_dropEmpty_not_text htext).1
    simp [h, beginsWithText] at hnot
  | true =>
    unfold beginsWithText at htext
    split at htext
    · rename_i s rest hdrop
      obtain ⟨u, others', hmerge, hne⟩ := merge_of_dropEmpty_text hdrop
      obtain rfl : s ++ u = t := by
        rw [h] at hmerge
        simpa using (List.cons.inj hmerge).1.symm
      have hnonempty : s.toList ≠ [] := by simpa using hne
      simp [opensBrace, hdrop, List.head?_append, List.head?_eq_some_head hnonempty]
    · simp at htext

theorem opensBrace_of_not_text {segments : List Value}
    (h : beginsWithText (merge segments) = false) : opensBrace segments = false := by
  unfold opensBrace
  split
  · rename_i s rest hdrop
    obtain ⟨t, others, hmerge, -⟩ := merge_of_dropEmpty_text hdrop
    simp [hmerge, beginsWithText] at h
  · rfl

theorem beginsWithReference_merge {segments : List Value} (h : beginsWithReference segments) :
    beginsWithReference (merge segments) := by
  unfold beginsWithReference at h
  split at h
  · rfl
  · simp at h

/-! ### Escaping a text in parts -/

/-- A dollar before a splice takes five characters more than another character. -/
theorem length_escapeSegment (spliceFollows : Bool) (text : List Char) :
    (escapeSegment spliceFollows text).length =
      (escape text).length + if spliceFollows ∧ text.getLast? = some '$' then 5 else 0 := by
  cases spliceFollows with
  | false => simp [escapeSegment_false]
  | true =>
    by_cases hdollar : text.getLast? = some '$'
    · obtain ⟨front, rfl⟩ := List.getLast?_eq_some_iff.mp hdollar
      simp [escapeSegment_dollar, escape_dollar, lonelyDollar_eq]
    · simp [escapeSegment_of_not_dollar hdollar, hdollar]

/-- A text is escaped in two parts as it is in one, unless a sign is torn from its brace. -/
theorem escapeSegment_append {text rest : List Char} (hne : rest ≠ [])
    (h : ∀ c, text.getLast? = some c → isSign c → rest.head? ≠ some '{') (spliceFollows : Bool) :
    escapeSegment spliceFollows (text ++ rest) =
      escape text ++ escapeSegment spliceFollows rest := by
  cases spliceFollows with
  | false => simp [escapeSegment_false, escape_append h]
  | true =>
    by_cases hdollar : rest.getLast? = some '$'
    · obtain ⟨front, rfl⟩ := List.getLast?_eq_some_iff.mp hdollar
      have hfront : ∀ c, text.getLast? = some c → isSign c → front.head? ≠ some '{' := by
        intro c hc hsign hhead
        exact h c hc hsign (by simp [List.head?_append, hhead])
      rw [← List.append_assoc, escapeSegment_dollar, escapeSegment_dollar, escape_append hfront,
        List.append_assoc]
    · have hall : (text ++ rest).getLast? ≠ some '$' := by
        rwa [List.getLast?_append, List.getLast?_eq_some_getLast hne, Option.some_or,
          ← List.getLast?_eq_some_getLast hne]
      rw [escapeSegment_of_not_dollar hall, escapeSegment_of_not_dollar hdollar, escape_append h]

/-- Where a sign is torn from its brace one character is missing. -/
theorem length_escapeSegment_append {c : Char} (hsign : isSign c) (text rest : List Char)
    (spliceFollows : Bool) :
    (escapeSegment spliceFollows (text ++ c :: '{' :: rest)).length =
      (escape (text ++ [c])).length + (escapeSegment spliceFollows ('{' :: rest)).length + 1 := by
  have hlast : (text ++ c :: '{' :: rest).getLast? = ('{' :: rest).getLast? := by
    rw [List.getLast?_append, List.getLast?_cons_cons, List.getLast?_eq_some_getLast (by simp),
      Option.some_or]
  rw [length_escapeSegment, length_escapeSegment, hlast, length_escape_append hsign]
  omega

/-! ### Where the cuts matter -/

/-- The first text is shorter than the second one, or the same, as a flag tells. -/
def Shortened (shorter : Bool) (cut whole : List Char) : Prop :=
  if shorter then cut.length < whole.length else cut = whole

theorem Shortened.refl (text : List Char) : Shortened false text text := rfl

theorem Shortened.length_le {shorter : Bool} {cut whole : List Char}
    (h : Shortened shorter cut whole) : cut.length ≤ whole.length := by
  cases shorter with
  | false => exact Nat.le_of_eq (congrArg List.length h)
  | true => exact Nat.le_of_lt h

theorem Shortened.append {a b : Bool} {cut whole cut' whole' : List Char}
    (h : Shortened a cut whole) (h' : Shortened b cut' whole') :
    Shortened (a || b) (cut ++ cut') (whole ++ whole') := by
  cases a with
  | false =>
    obtain rfl : cut = whole := h
    cases b with
    | false => exact congrArg (cut ++ ·) h'
    | true =>
      have hlt : cut'.length < whole'.length := h'
      have hboth : (cut ++ cut').length < (cut ++ whole').length := by simpa using hlt
      exact hboth
  | true =>
    have hlt : cut.length < whole.length := h
    have hle := h'.length_le
    have hboth : (cut ++ cut').length < (whole ++ whole').length := by
      simp only [List.length_append]
      omega
    exact hboth

theorem Shortened.trans {a b : Bool} {cut middle whole : List Char}
    (h : Shortened a cut middle) (h' : Shortened b middle whole) :
    Shortened (b || a) cut whole := by
  cases b with
  | false =>
    obtain rfl : middle = whole := h'
    exact h
  | true =>
    have hlt : middle.length < whole.length := h'
    exact Nat.lt_of_le_of_lt h.length_le hlt

/-- A text in two parts is shorter if a sign is torn from its brace. -/
theorem shortened_escapeSegment_append (text : List Char) {rest : List Char} (hne : rest ≠ [])
    (spliceFollows : Bool) :
    Shortened (text.getLast?.any isSign && rest.head? == some '{')
      (escape text ++ escapeSegment spliceFollows rest)
      (escapeSegment spliceFollows (text ++ rest)) := by
  cases htorn : text.getLast?.any isSign && rest.head? == some '{' with
  | true =>
    obtain ⟨hany, hhead⟩ := Bool.and_eq_true_iff.mp htorn
    obtain ⟨c, hc, hsign⟩ := (Option.any_eq_true _ _).mp hany
    obtain ⟨front, rfl⟩ := List.getLast?_eq_some_iff.mp hc
    obtain ⟨tail, rfl⟩ : ∃ tail, rest = '{' :: tail := by
      cases rest <;> simp_all
    have hlength := length_escapeSegment_append hsign front tail spliceFollows
    simp only [Shortened, if_true, List.append_assoc, List.singleton_append, List.length_append,
      hlength]
    omega
  | false =>
    refine (escapeSegment_append hne (fun c hc hsign hhead => ?_) spliceFollows).symm
    simp [hc, hsign, hhead] at htorn

/-- A text is shorter if a splice follows its dollar and is not seen. -/
theorem shortened_escapeSegment (text : List Char) (before after : Bool)
    (hafter : before = true → after = true) :
    Shortened (text.getLast? == some '$' && (!before && after)) (escapeSegment before text)
      (escapeSegment after text) := by
  by_cases hdollar : text.getLast? = some '$'
  · cases before <;> cases after <;> simp_all [Shortened, length_escapeSegment]
  · rw [escapeSegment_of_not_dollar hdollar, escapeSegment_of_not_dollar hdollar]
    rw [show (text.getLast? == some '$') = false by simpa using hdollar, Bool.false_and]
    exact .refl (escape text)

/-- A text in front of segments that merge into a text first. -/
theorem shortened_body_text {s t : String} {rest others : List Value}
    (hrest : merge rest = .text t :: others)
    (ih : Shortened (isTorn rest) (body rest) (body (merge rest))) :
    Shortened (isTorn (.text s :: rest)) (body (.text s :: rest))
      (body (.text (s ++ t) :: others)) := by
  have hmerged : beginsWithReference (merge rest) = false := by rw [hrest]; rfl
  have hbegins : beginsWithReference rest = false := by
    cases hbegins : beginsWithReference rest with
    | false => rfl
    | true => simp [beginsWithReference_merge hbegins] at hmerged
  have hne : t.toList ≠ [] := by
    have hcanonical := canonical_merge rest
    rw [hrest] at hcanonical
    simpa using hcanonical.1
  have htears : tears s rest = (s.toList.getLast?.any isSign && t.toList.head? == some '{') := by
    simp [tears, hidesReference, beginsWithReference_dropEmpty, hmerged,
      opensBrace_of_merge_text hrest]
  have htext := (shortened_escapeSegment_append s.toList hne
    (beginsWithReference others)).append (.refl (body others))
  have htail := (Shortened.refl (escape s.toList)).append ih
  rw [hrest, body, ← List.append_assoc] at htail
  simpa [isTorn, htears, body, hbegins, escapeSegment_false] using htail.trans htext

/-- A text in front of segments that merge into a reference first, or into nothing. -/
theorem shortened_body_end {s : String} {rest : List Value}
    (hrest : beginsWithText (merge rest) = false)
    (ih : Shortened (isTorn rest) (body rest) (body (merge rest))) :
    Shortened (isTorn (.text s :: rest)) (body (.text s :: rest))
      (escapeSegment (beginsWithReference (merge rest)) s.toList ++ body (merge rest)) := by
  have htears : tears s rest = (s.toList.getLast? == some '$' &&
      (!beginsWithReference rest && beginsWithReference (merge rest))) := by
    simp [tears, hidesReference, beginsWithReference_dropEmpty, opensBrace_of_not_text hrest]
  rw [isTorn, htears, body]
  exact (shortened_escapeSegment s.toList _ _ beginsWithReference_merge).append ih

/-- Cut and merged segments have the same text unless the template is torn; then the cut ones have
the shorter one. -/
theorem shortened_body {segments : List Value} (h : ∀ v ∈ segments, IsSegment (· ≠ "") v) :
    Shortened (isTorn segments) (body segments) (body (merge segments)) := by
  induction segments, h using isSegment_induction with
  | nil => rfl
  | text s rest _ ih =>
    rcases merge_text s rest with ⟨t, others, htext, hall⟩ | ⟨hend, hall⟩
    · rw [hall]
      exact shortened_body_text htext ih
    · have hbody : body (merge (.text s :: rest)) =
          escapeSegment (beginsWithReference (merge rest)) s.toList ++ body (merge rest) := by
        rw [hall]
        split
        · subst s
          simp [escapeSegment, escape]
        · rfl
      rw [hbody]
      exact shortened_body_end hend ih
  | reference name rest _ _ ih =>
    rw [merge_cons_of_not_text (by simp), isTorn.eq_3 _ _ (by simp), body, body]
    simpa using (Shortened.refl ('$' :: '{' :: referenceChars name.toList ++ ['}'])).append ih

/-- Texts and references make the template of the merged segments. -/
theorem ofParts_eq_ok {names : String → Prop} {segments : List Value}
    (h : ∀ v ∈ segments, IsSegment names v) :
    ofParts segments = .ok (.template (merge segments)) := by
  have hgather : gather segments = .ok segments := by
    induction segments, h using isSegment_induction with
    | nil => rfl
    | text _ _ _ ih | reference _ _ _ _ ih =>
      simp [gather, segments?, ih, bind, Except.bind, pure, Except.pure]
  simp [ofParts, hgather, bind, Except.bind, pure, Except.pure]

/-- **When cuts do not matter.** Segments that are texts and references with a name are encoded as
the template that they make, if and only if they are not torn. -/
theorem encode_ofParts_iff {segments : List Value} (named : ∀ v ∈ segments, IsSegment (· ≠ "") v)
    (style : Style) (path : Path) :
    ∃ cut merged whole, Value.encode style path (.template segments) = .ok cut ∧
      ofParts segments = .ok merged ∧ merged.encode style path = .ok whole ∧
      (cut = whole ↔ isTorn segments = false) := by
  have hbody := shortened_body named
  refine ⟨_, _, _, encode_template named style path, ofParts_eq_ok named,
    encode_template (isSegment_merge named) style path, ?_⟩
  rw [show (Rendered.inline ('"' :: body segments ++ ['"']) =
      Rendered.inline ('"' :: body (merge segments) ++ ['"'])) ↔
      body segments = body (merge segments) by simp [Rendered.inline]]
  cases htorn : isTorn segments with
  | false =>
    rw [htorn] at hbody
    exact iff_of_true hbody rfl
  | true =>
    rw [htorn] at hbody
    exact iff_of_false (fun hsame => absurd (congrArg List.length hsame) (Nat.ne_of_lt hbody))
      (by simp)

/-- Cuts inside words, next to empty texts and between two signs do not matter. -/
theorem encode_ofParts_harmless :
    (∀ v ∈ [Value.text "a", .text "", .text "$", .text "$\x7b", .reference (.text "b")],
        IsSegment (· ≠ "") v) ∧
      isTorn [.text "a", .text "", .text "$", .text "$\x7b", .reference (.text "b")] = false ∧
      ∃ cut merged whole, Value.encode {} [] (.template
          [.text "a", .text "", .text "$", .text "$\x7b", .reference (.text "b")]) = .ok cut ∧
        ofParts [.text "a", .text "", .text "$", .text "$\x7b", .reference (.text "b")] =
          .ok merged ∧ merged.encode {} [] = .ok whole ∧ (cut = whole ↔
            isTorn [.text "a", .text "", .text "$", .text "$\x7b", .reference (.text "b")] =
              false) := by
  have named : ∀ v ∈ [Value.text "a", .text "", .text "$", .text "$\x7b", .reference (.text "b")],
      IsSegment (· ≠ "") v := by
    simp [IsSegment]
  exact ⟨named, by decide, encode_ofParts_iff named {} []⟩

/-- A sign torn from its brace opens a splice in the encoding, and the merged template does not. -/
theorem torn_sign_opens_splice :
    ∃ cut merged whole, Value.encode {} [] (.template [.text "$", .text "\x7bx\x7d"]) = .ok cut ∧
      ofParts [.text "$", .text "\x7bx\x7d"] = .ok merged ∧ merged.encode {} [] = .ok whole ∧
      cut = .inline "\"$\x7bx\x7d\"".toList ∧ whole = .inline "\"$$\x7bx\x7d\"".toList ∧
      cut ≠ whole :=
  ⟨_, _, _, rfl, rfl, rfl, by decide, by decide, by decide⟩

end Stanza.Template
