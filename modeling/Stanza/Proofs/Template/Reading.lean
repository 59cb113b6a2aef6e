import Stanza.Proofs.Template.Canonical

/-!
Templates read back.

A template that is built out of texts and dotted references is canonical (`canonical_of_built`), and
its encoding reads back as its contents exactly when no text right before a reference ends in two
dollars (`unquote_encode_iff`). One dollar there is made a splice of its own. Of two, the first one
is left in front of that splice, so the three characters are taken for a doubled sign and the quote
in the splice ends the string (`unquote_body_of_dollars`).
-/

namespace Stanza.Template

open Text.Quoted

/-- Whether a text right before a reference ends in two dollars. -/
def dollarsMeetReference : List Value → Bool
  | [] => false
  | .text s :: rest =>
      beginsWithReference rest && decide (['$', '$'] <:+ s.toList) || dollarsMeetReference rest
  | _ :: rest => dollarsMeetReference rest

/-- Values built out of texts and dotted references, as parts of a template, as sums, or by a
template marker. -/
inductive Built : Value → Prop where
  | text (s : String) : Built (.text s)
  | reference (name : String) : Text.isDotted name.toList → Built (.reference (.text name))
  | parts (parts : List Value) {v : Value} :
      (∀ part ∈ parts, Built part) → ofParts parts = .ok v → Built v
  | sum {left right v : Value} : Built left → Built right → left.add right = .ok v → Built v
  | marker {path : Path} {payload v : Value} {segments : List Value} :
      payload.markerSegments path = .ok segments →
      (∀ segment ∈ segments, IsSegment (Text.isDotted ·.toList) segment) →
      Marker.template.toNode path payload = .ok v → Built v

/-! ### What is built is canonical -/

/-- A text, a dotted reference, or a canonical template of them. -/
def IsPart : Value → Prop
  | .template segments =>
      Canonical segments ∧ ∀ v ∈ segments, IsSegment (Text.isDotted ·.toList) v
  | v => IsSegment (Text.isDotted ·.toList) v

theorem isPart_template_merge {segments : List Value}
    (h : ∀ v ∈ segments, IsSegment (Text.isDotted ·.toList) v) :
    IsPart (.template (merge segments)) :=
  ⟨canonical_merge segments, isSegment_merge h⟩

theorem gather_eq_ok {parts : List Value} (h : ∀ part ∈ parts, IsPart part) :
    ∃ segments, gather parts = .ok segments ∧
      ∀ v ∈ segments, IsSegment (Text.isDotted ·.toList) v := by
  induction parts with
  | nil => exact ⟨[], rfl, by simp⟩
  | cons part rest ih =>
    obtain ⟨hpart, hrest⟩ := List.forall_mem_cons.mp h
    obtain ⟨others, hothers, hsegments⟩ := ih hrest
    obtain ⟨own, hown, howned⟩ : ∃ own, segments? part = some own ∧
        ∀ v ∈ own, IsSegment (Text.isDotted ·.toList) v := by
      unfold IsPart at hpart
      split at hpart
      · exact ⟨_, rfl, hpart.2⟩
      · rcases hpart.eq_or with ⟨s, rfl⟩ | ⟨name, rfl, hname⟩
        · exact ⟨_, rfl, List.forall_mem_singleton.mpr hpart⟩
        · exact ⟨_, rfl, List.forall_mem_singleton.mpr hpart⟩
    refine ⟨own ++ others, by simp [gather, hown, hothers, bind, Except.bind, pure, Except.pure],
      fun v hv => ?_⟩
    rcases List.mem_append.mp hv with hv | hv
    · exact howned v hv
    · exact hsegments v hv

theorem isPart_ofParts {parts : List Value} {v : Value} (h : ∀ part ∈ parts, IsPart part)
    (hv : ofParts parts = .ok v) : IsPart v := by
  obtain ⟨segments, hgather, hsegments⟩ := gather_eq_ok h
  simp only [ofParts, hgather, bind, Except.bind, pure, Except.pure, Except.ok.injEq] at hv
  exact hv ▸ isPart_template_merge hsegments

/-- A part that is neither a reference nor a template is a text. -/
theorem eq_text_of_isPart {v : Value} (h : IsPart v) (hplain : v.isSpliced = false) :
    ∃ s, v = .text s := by
  unfold IsPart at h
  split at h
  · simp [Value.isSpliced] at hplain
  · rcases h.eq_or with hs | ⟨name, rfl, -⟩
    · exact hs
    · simp [Value.isSpliced] at hplain

theorem isPart_add {left right v : Value} (hleft : IsPart left) (hright : IsPart right)
    (hv : left.add right = .ok v) : IsPart v := by
  unfold Value.add at hv
  split at hv
  · exact isPart_ofParts (by simp [hleft, hright]) hv
  · rename_i hplain
    obtain ⟨hplainLeft, hplainRight⟩ := Bool.or_eq_false_iff.mp (by simpa using hplain)
    obtain ⟨s, rfl⟩ := eq_text_of_isPart hleft hplainLeft
    obtain ⟨t, rfl⟩ := eq_text_of_isPart hright hplainRight
    simp [Value.integer?, Value.plainSum?, Value.isHuge] at hv
    exact hv ▸ trivial

theorem isPart_of_built {v : Value} (h : Built v) : IsPart v := by
  induction h with
  | text s => trivial
  | reference name hname => exact hname
  | parts parts _ hv ih => exact isPart_ofParts ih hv
  | sum _ _ hv ihleft ihright => exact isPart_add ihleft ihright hv
  | marker hpayload hsegments hv =>
    simp only [Marker.toNode, hpayload, bind, Except.bind, pure, Except.pure,
      Except.ok.injEq] at hv
    exact hv ▸ isPart_template_merge hsegments

/-- A template that is built is canonical, and its references are dotted. -/
theorem canonical_of_built {segments : List Value} (h : Built (.template segments)) :
    Canonical segments ∧ ∀ v ∈ segments, IsSegment (Text.isDotted ·.toList) v :=
  isPart_of_built h

/-! ### Texts before a splice -/

/-- A text that does not end in two dollars reads back in front of a splice. -/
theorem unquote_escapeSegment {text : List Char} (h : ¬ ['$', '$'] <:+ text)
    (rest : List Char) :
    unquote none (escapeSegment true text ++ '$' :: '{' :: rest) =
      after (text.map .char) (unquote none ('$' :: '{' :: rest)) := by
  by_cases hdollar : text.getLast? = some '$'
  · obtain ⟨front, rfl⟩ := List.getLast?_eq_some_iff.mp hdollar
    have hfront : front.getLast? ≠ some '$' := by
      intro hlast
      obtain ⟨front, rfl⟩ := List.getLast?_eq_some_iff.mp hlast
      exact h ⟨front, by simp⟩
    have hlonely : unquote none (lonelyDollar ++ '$' :: '{' :: rest) =
        after [.char '$'] (unquote none ('$' :: '{' :: rest)) := by
      simp [lonelyDollar_eq, unquote_quotedDollar]
    rw [escapeSegment_dollar, List.append_assoc,
      unquote_escape_append (by simpa [lonelyDollar_eq] using apart_splice hfront _), hlonely]
    simp
  · rw [escapeSegment_of_not_dollar hdollar, unquote_escape_append (apart_splice hdollar rest)]

/-- Behind two dollars in front of a splice the string ends too early. -/
theorem unquote_escapeSegment_of_dollars {text : List Char}
    (h : ['$', '$'] <:+ text) (rest : List Char) :
    ∃ pieces, unquote none (escapeSegment true text ++ rest) =
      some (pieces, '$' :: '"' :: '}' :: rest) := by
  obtain ⟨front, rfl⟩ := h
  have htext : front ++ ['$', '$'] = (front ++ ['$']) ++ ['$'] := by simp
  have hapart : Apart front ('$' :: '$' :: '{' :: '"' :: '$' :: '"' :: '}' :: rest) := by
    intro c _ _
    exact ⟨by simp, by simp⟩
  refine ⟨front.map .char ++ [.char '$', .char '{'], ?_⟩
  rw [htext, escapeSegment_dollar, escape_dollar, List.append_assoc, List.append_assoc]
  change unquote none (escape front ++ '$' :: '$' :: '{' :: '"' :: '$' :: '"' :: '}' :: rest) = _
  rw [unquote_escape_append hapart, unquote_doubled _ rfl, unquote_endQuote]
  simp

/-! ### Templates -/

/-- A reference reads back as its expression. -/
theorem unquote_reference {name : List Char} (h : Text.isDotted name) (rest : List Char) :
    unquote none ('$' :: '{' :: referenceChars name ++ '}' :: rest) =
      after [.splice (referenceChars name)] (unquote none rest) := by
  refine unquote_splice (fun hclose => ?_) (fun hquote => ?_) rest
  · exact absurd (all_referenceChars h _ hclose) (by decide)
  · obtain ⟨c, hc, hstart⟩ := head_referenceChars h
    obtain rfl : c = '"' := by simpa [hc] using hquote
    exact absurd hstart (by decide)

/-- A canonical template in which no two dollars meet a reference reads back as its contents, and
the string ends with its last character. -/
theorem unquote_body {segments : List Value} (hcanonical : Canonical segments)
    (hsegments : ∀ v ∈ segments, IsSegment (Text.isDotted ·.toList) v)
    (hdollars : dollarsMeetReference segments = false) (rest : List Char) :
    unquote none (body segments ++ '"' :: rest) = some (contents segments, rest) := by
  induction segments, hsegments using isSegment_induction with
  | nil => simp [body, contents, unquote_endQuote]
  | text s others hothers ih =>
    obtain ⟨-, hbegins, hcanonical⟩ := hcanonical
    simp only [dollarsMeetReference, Bool.or_eq_false_iff, Bool.and_eq_false_iff] at hdollars
    have ih := ih hcanonical hdollars.2
    rw [body, contents, List.append_assoc]
    rcases eq_nil_or_begins hothers hbegins with rfl | ⟨hreference, tail, htail⟩
    · rw [show beginsWithReference [] = false from rfl, escapeSegment_false, body, contents,
        List.nil_append, unquote_quote]
      simp
    · have hends : ¬ ['$', '$'] <:+ s.toList := by simpa [hreference] using hdollars.1
      rw [htail] at ih ⊢
      rw [hreference, List.cons_append, List.cons_append, unquote_escapeSegment hends,
        ← List.cons_append, ← List.cons_append, ih, after_some]
  | reference name others hname hothers ih =>
    have hread := unquote_reference hname (body others ++ '"' :: rest)
    rw [ih hcanonical hdollars, after_some] at hread
    simpa [body, contents] using hread

/-- Where two dollars meet a reference something is left behind the string. -/
theorem unquote_body_of_dollars {segments : List Value} (hcanonical : Canonical segments)
    (hsegments : ∀ v ∈ segments, IsSegment (Text.isDotted ·.toList) v)
    (hdollars : dollarsMeetReference segments = true) (rest : List Char) :
    ∃ pieces left,
      unquote none (body segments ++ '"' :: rest) = some (pieces, left ++ '"' :: rest) := by
  induction segments, hsegments using isSegment_induction with
  | nil => simp [dollarsMeetReference] at hdollars
  | text s others hothers ih =>
    obtain ⟨-, hbegins, hcanonical⟩ := hcanonical
    rw [body, List.append_assoc]
    by_cases hhere : beginsWithReference others = true ∧ ['$', '$'] <:+ s.toList
    · obtain ⟨pieces, hread⟩ :=
        unquote_escapeSegment_of_dollars hhere.2 (body others ++ '"' :: rest)
      exact ⟨pieces, '$' :: '"' :: '}' :: body others, by rw [hhere.1, hread]; simp⟩
    · have hlater : dollarsMeetReference others = true := by
        rcases (by simpa [dollarsMeetReference] using hdollars) with hboth | hlater
        · exact absurd hboth hhere
        · exact hlater
      rcases eq_nil_or_begins hothers hbegins with rfl | ⟨hreference, tail, htail⟩
      · -- nothing follows the text, so no reference is met later
        simp [dollarsMeetReference] at hlater
      · obtain ⟨pieces, left, hread⟩ := ih hcanonical hlater
        have hends : ¬ ['$', '$'] <:+ s.toList := by simpa [hreference] using hhere
        refine ⟨s.toList.map .char ++ pieces, left, ?_⟩
        rw [htail] at hread ⊢
        rw [hreference, List.cons_append, List.cons_append, unquote_escapeSegment hends,
          ← List.cons_append, ← List.cons_append, hread, after_some]
  | reference name others hname hothers ih =>
    obtain ⟨pieces, left, hread⟩ := ih hcanonical hdollars
    have hreference := unquote_reference hname (body others ++ '"' :: rest)
    rw [hread, after_some] at hreference
    exact ⟨_, left, by simpa [body] using hreference⟩

/-- **When templates read back.** The encoding of a template built out of texts and dotted
references is a quoted string. Read from left to right it ends exactly with its last character and
gives the contents of the template, if and only if no text right before a reference ends in two
dollars. -/
theorem unquote_encode_iff {segments : List Value} (built : Built (.template segments))
    (style : Style) (path : Path) :
    ∃ inside, Value.encode style path (.template segments) = .ok (.inline ('"' :: inside)) ∧
      (unquote none inside = some (contents segments, []) ↔
        dollarsMeetReference segments = false) := by
  obtain ⟨hcanonical, hsegments⟩ := canonical_of_built built
  have hnamed : ∀ v ∈ segments, IsSegment (· ≠ "") v :=
    fun v hv => (hsegments v hv).mono fun _ => Text.ne_empty_of_isDotted
  refine ⟨body segments ++ ['"'], encode_template hnamed style path, fun hread => ?_,
    fun hdollars => unquote_body hcanonical hsegments hdollars []⟩
  cases hdollars : dollarsMeetReference segments with
  | false => rfl
  | true =>
    obtain ⟨pieces, left, hleft⟩ := unquote_body_of_dollars hcanonical hsegments hdollars []
    simp [hleft] at hread

/-- A text with one dollar before each of two references, joined by sums, reads back. -/
theorem unquote_encode_single_dollars :
    Built (.template [.text "cost $", .reference (.text "a"), .text "$ or %\x7b",
      .reference (.text "local.b")]) ∧
    ∃ inside, Value.encode {} [] (.template [.text "cost $", .reference (.text "a"),
        .text "$ or %\x7b", .reference (.text "local.b")]) = .ok (.inline ('"' :: inside)) ∧
      (unquote none inside = some (contents [.text "cost $", .reference (.text "a"),
          .text "$ or %\x7b", .reference (.text "local.b")], []) ↔
        dollarsMeetReference [.text "cost $", .reference (.text "a"), .text "$ or %\x7b",
          .reference (.text "local.b")] = false) := by
  have built : Built (.template [.text "cost $", .reference (.text "a"), .text "$ or %\x7b",
      .reference (.text "local.b")]) :=
    .sum (.sum (.sum (.text "cost $") (.reference "a" (by decide)) rfl)
      (.text "$ or %\x7b") rfl) (.reference "local.b" (by decide)) rfl
  exact ⟨built, unquote_encode_iff built {} []⟩

/-- Two dollars before a reference: the string ends inside the splice that was to hold a dollar, and
the reference is never read. -/
theorem two_dollars_swallow_reference :
    ∃ segments inside, Built (.template segments) ∧
      Value.encode {} [] (.template segments) = .ok (.inline ('"' :: inside)) ∧
      contents segments = [.char '$', .char '$', .splice "var.b".toList] ∧
      unquote none inside =
        some ([.char '$', .char '{'], "$\"\x7d$\x7bvar.b\x7d\"".toList) := by
  refine ⟨[.text "$$", .reference (.text "b")], "$$\x7b\"$\"\x7d$\x7bvar.b\x7d\"".toList, ?_,
    rfl, by decide, by decide⟩
  exact .parts [.text "$$", .reference (.text "b")] (by
    simp only [List.mem_cons, List.not_mem_nil, or_false]
    rintro part (rfl | rfl)
    · exact .text "$$"
    · exact .reference "b" (by decide)) rfl

end Stanza.Template
