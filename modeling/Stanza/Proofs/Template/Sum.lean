import Stanza.Proofs.Template.Canonical

/-!
Sums of the parts of a template.

A template may be put together by sums in any order, out of texts, references and templates. All
that counts is what the operands hold in a row, character by character (`spelled`): a sum of two
parts is a part that holds what the two hold (`exists_add`), and canonical segments are determined
by what they hold (`eq_of_spell_eq`). So every bracketing of the operands has one and the same
total, as soon as one of them is no text (`Bracketing.total_canonical`).
-/

namespace Stanza.Template

/-! ### What segments hold -/

/-- What some segments hold in a row: the characters of texts, and the other segments. -/
def spell : List Value → List (Char ⊕ Value)
  | [] => []
  | .text s :: rest => s.toList.map .inl ++ spell rest
  | segment :: rest => .inr segment :: spell rest

/-- What a part of a template holds. -/
def spelled (part : Value) : List (Char ⊕ Value) := spell ((segments? part).getD [])

variable {v left right : Value} {segments others rest : List Value}

theorem spell_cons_of_not_text (h : ∀ s, v ≠ .text s) (rest : List Value) :
    spell (v :: rest) = .inr v :: spell rest := by
  rw [spell]
  exact h

@[simp] theorem spell_append (segments others : List Value) :
    spell (segments ++ others) = spell segments ++ spell others := by
  induction segments using segments_induction with
  | nil => rfl
  | text s rest ih => rw [List.cons_append, spell, spell, ih, List.append_assoc]
  | other v rest hnot ih =>
    rw [List.cons_append, spell_cons_of_not_text hnot, spell_cons_of_not_text hnot, ih,
      List.cons_append]

/-- Merging does not change what segments hold. -/
theorem spell_merge (segments : List Value) : spell (merge segments) = spell segments := by
  induction segments using segments_induction with
  | nil => rfl
  | text s rest ih =>
    rcases merge_text s rest with ⟨t, others, hrest, hall⟩ | ⟨-, hall⟩
    · rw [hall, spell, spell, ← ih, hrest, spell]
      simp
    · rw [hall]
      split
      · subst s
        simp [spell, ih]
      · rw [spell, spell, ih]
  | other v rest hnot ih =>
    rw [merge_cons_of_not_text hnot, spell_cons_of_not_text hnot, spell_cons_of_not_text hnot, ih]

theorem beginsWithText_cons_iff {rest : List Value} :
    beginsWithText (v :: rest) = true ↔ ∃ s, v = .text s := by
  unfold beginsWithText
  split <;> simp_all

/-- Canonical segments begin with a text when a character is the first that they hold. -/
theorem beginsWithText_iff (h : Canonical segments) :
    beginsWithText segments = true ↔ ∃ c, (spell segments).head? = some (.inl c) := by
  cases segments using segments_induction with
  | nil => simp [beginsWithText, spell]
  | text s rest =>
    obtain ⟨c, cs, hs⟩ := List.exists_cons_of_ne_nil (mt String.toList_eq_nil_iff.mp h.1)
    simp [beginsWithText, spell, hs]
  | other v rest hnot =>
    rw [beginsWithText_cons_iff, spell_cons_of_not_text hnot]
    simp [hnot]

theorem head?_spell_ne (h : Canonical segments) (hbegins : beginsWithText segments = false)
    (c : Char) : (spell segments).head? ≠ some (.inl c) := by
  intro hc
  simp [(beginsWithText_iff h).mpr ⟨c, hc⟩] at hbegins

/-- Canonical segments hold something, if there are any. -/
theorem eq_nil_of_spell_eq_nil (h : Canonical segments) (hspell : spell segments = []) :
    segments = [] := by
  cases segments using segments_induction with
  | nil => rfl
  | text s rest =>
    obtain ⟨c, hc⟩ := (beginsWithText_iff h).mp rfl
    simp [hspell] at hc
  | other v rest hnot => simp [spell_cons_of_not_text hnot] at hspell

/-- Characters go as far as they can, so they are known from the whole. -/
theorem append_inl_inj {cs ds : List Char} {xs ys : List (Char ⊕ Value)}
    (hxs : ∀ c, xs.head? ≠ some (.inl c)) (hys : ∀ c, ys.head? ≠ some (.inl c))
    (h : cs.map .inl ++ xs = ds.map .inl ++ ys) : cs = ds ∧ xs = ys := by
  induction cs generalizing ds with
  | nil =>
    cases ds with
    | nil => exact ⟨rfl, h⟩
    | cons d ds =>
      rw [List.map_nil, List.nil_append] at h
      exact absurd (by simp [h]) (hxs d)
  | cons c cs ih =>
    cases ds with
    | nil =>
      rw [List.map_nil, List.nil_append] at h
      exact absurd (by simp [← h]) (hys c)
    | cons d ds =>
      simp only [List.map_cons, List.cons_append, List.cons.injEq, Sum.inl.injEq] at h
      obtain ⟨rfl, hxs'⟩ := ih h.2
      exact ⟨by rw [h.1], hxs'⟩

/-- What segments hold determines them if they are canonical. -/
theorem eq_of_spell_eq (hsegments : Canonical segments) (hothers : Canonical others)
    (h : spell segments = spell others) : segments = others := by
  induction segments generalizing others with
  | nil => exact (eq_nil_of_spell_eq_nil hothers h.symm).symm
  | cons segment rest ih =>
    cases others with
    | nil => exact eq_nil_of_spell_eq_nil hsegments h
    | cons other others =>
      have hbegins : (∃ s, segment = .text s) ↔ ∃ t, other = .text t := by
        rw [← beginsWithText_cons_iff, ← beginsWithText_cons_iff, beginsWithText_iff hsegments,
          beginsWithText_iff hothers, h]
      -- both begin with a text or neither does, and what comes behind a text begins with none
      by_cases htext : ∃ s, segment = .text s
      · obtain ⟨t, rfl⟩ := hbegins.mp htext
        obtain ⟨s, rfl⟩ := htext
        obtain ⟨-, hrest, hcanonical⟩ := hsegments
        obtain ⟨-, hrest', hcanonical'⟩ := hothers
        obtain ⟨htoList, hspell⟩ := append_inl_inj (head?_spell_ne hcanonical hrest)
          (head?_spell_ne hcanonical' hrest') h
        rw [String.toList_inj.mp htoList, ih hcanonical hcanonical' hspell]
      · have hnot : ∀ s, segment ≠ .text s := fun s hs => htext ⟨s, hs⟩
        have hnot' : ∀ t, other ≠ .text t := fun t ht => htext (hbegins.mpr ⟨t, ht⟩)
        rw [spell_cons_of_not_text hnot, spell_cons_of_not_text hnot', List.cons.injEq,
          Sum.inr.injEq] at h
        rw [canonical_cons_of_not_text hnot] at hsegments
        rw [canonical_cons_of_not_text hnot'] at hothers
        rw [h.1, ih hsegments hothers h.2]

/-! ### Sums -/

/-- A value that can be a part of a template: a text, a reference or a template. -/
def CanJoin (v : Value) : Prop := (segments? v).isSome

theorem exists_gather {parts : List Value} (h : ∀ part ∈ parts, CanJoin part) :
    ∃ segments, gather parts = .ok segments ∧ spell segments = parts.flatMap spelled := by
  induction parts with
  | nil => exact ⟨[], rfl, rfl⟩
  | cons part parts ih =>
    obtain ⟨hpart, hparts⟩ := List.forall_mem_cons.mp h
    obtain ⟨own, hown⟩ := Option.isSome_iff_exists.mp hpart
    obtain ⟨more, hmore, hspell⟩ := ih hparts
    refine ⟨own ++ more, ?_, ?_⟩
    · simp [gather, hown, hmore, bind, Except.bind, pure, Except.pure]
    · rw [spell_append, hspell, List.flatMap_cons, spelled, hown, Option.getD_some]

/-- Parts make a canonical template that holds what they hold. -/
theorem exists_ofParts {parts : List Value} (h : ∀ part ∈ parts, CanJoin part) :
    ∃ segments, ofParts parts = .ok (.template segments) ∧ Canonical segments ∧
      spell segments = parts.flatMap spelled := by
  obtain ⟨segments, hgather, hspell⟩ := exists_gather h
  refine ⟨merge segments, ?_, canonical_merge segments, ?_⟩
  · simp [ofParts, hgather, bind, Except.bind, pure, Except.pure]
  · rw [spell_merge, hspell]

/-- A part that is neither a reference nor a template is a text. -/
theorem CanJoin.eq_text (h : CanJoin v) (hplain : v.isSpliced = false) : ∃ s, v = .text s := by
  unfold CanJoin segments? at h
  split at h
  · simp [Value.isSpliced] at hplain
  · exact ⟨_, rfl⟩
  · simp [Value.isSpliced] at hplain
  · simp at h

/-- The sum of two parts of which one is no text is the template that they make. -/
theorem add_of_isSpliced (h : (left.isSpliced || right.isSpliced) = true) :
    left.add right = ofParts [left, right] := by
  rw [Value.add, if_pos h]

theorem add_text (s t : String) : (Value.text s).add (.text t) = .ok (.text (s ++ t)) := by
  simp [Value.add, Value.isSpliced, Value.integer?, Value.plainSum?, Value.isHuge]

/-- The sum of two parts is a part that holds what the two hold. -/
theorem exists_add (hleft : CanJoin left) (hright : CanJoin right) :
    ∃ v, left.add right = .ok v ∧ CanJoin v ∧ spelled v = spelled left ++ spelled right ∧
      v.isSpliced = (left.isSpliced || right.isSpliced) := by
  by_cases hspliced : (left.isSpliced || right.isSpliced) = true
  · have hboth : ∀ part ∈ [left, right], CanJoin part := by simp [hleft, hright]
    obtain ⟨segments, hparts, -, hspell⟩ := exists_ofParts hboth
    refine ⟨.template segments, ?_, rfl, ?_, hspliced.symm⟩
    · rw [add_of_isSpliced hspliced, hparts]
    · simpa [spelled, segments?] using hspell
  · obtain ⟨hl, hr⟩ := Bool.or_eq_false_iff.mp (Bool.not_eq_true _ ▸ hspliced)
    obtain ⟨s, rfl⟩ := hleft.eq_text hl
    obtain ⟨t, rfl⟩ := hright.eq_text hr
    refine ⟨.text (s ++ t), add_text s t, rfl, ?_, rfl⟩
    simp [spelled, segments?, spell]

/-! ### Bracketings -/

/-- Operands in a row, with brackets that say which sums are taken first. -/
inductive Bracketing where
  | operand (v : Value)
  | plus (left right : Bracketing)

namespace Bracketing

/-- The operands from left to right. -/
def operands : Bracketing → List Value
  | operand v => [v]
  | plus left right => left.operands ++ right.operands

/-- The total, the sums being taken as the brackets say. -/
def total : Bracketing → Except Fault Value
  | operand v => .ok v
  | plus left right => do (← left.total).add (← right.total)

/-- Two or more parts of a template, of which one is no text. -/
structure MakesTemplate (s : Bracketing) : Prop where
  canJoin : ∀ v ∈ s.operands, CanJoin v
  two_le : 2 ≤ s.operands.length
  spliced : ∃ v ∈ s.operands, v.isSpliced = true

/-- A total of parts is a part that holds what they hold, and a text only if all of them are. -/
theorem exists_total {s : Bracketing} (h : ∀ v ∈ s.operands, CanJoin v) :
    ∃ v, s.total = .ok v ∧ CanJoin v ∧ spelled v = s.operands.flatMap spelled ∧
      v.isSpliced = s.operands.any Value.isSpliced := by
  induction s with
  | operand v =>
    have hv : CanJoin v := h v List.mem_cons_self
    refine ⟨v, rfl, hv, ?_, ?_⟩ <;> simp [operands]
  | plus left right ihleft ihright =>
    obtain ⟨hleft, hright⟩ := List.forall_mem_append.mp h
    obtain ⟨a, ha, hajoin, haspell, haspliced⟩ := ihleft hleft
    obtain ⟨b, hb, hbjoin, hbspell, hbspliced⟩ := ihright hright
    obtain ⟨v, hv, hvjoin, hvspell, hvspliced⟩ := exists_add hajoin hbjoin
    refine ⟨v, ?_, hvjoin, ?_, ?_⟩
    · simp [total, ha, hb, hv, bind, Except.bind]
    · rw [hvspell, haspell, hbspell, operands, List.flatMap_append]
    · rw [hvspliced, haspliced, hbspliced, operands, List.any_append]

/-- The total is canonical as soon as one operand is no text. -/
theorem MakesTemplate.exists_canonical {s : Bracketing} (h : s.MakesTemplate) :
    ∃ segments, s.total = .ok (.template segments) ∧ Canonical segments ∧
      spell segments = s.operands.flatMap spelled := by
  obtain ⟨hjoin, htwo, w, hw, hspliced⟩ := h
  cases s with
  | operand v => simp [operands] at htwo
  | plus left right =>
    obtain ⟨hleft, hright⟩ := List.forall_mem_append.mp hjoin
    obtain ⟨a, ha, hajoin, haspell, haspliced⟩ := exists_total hleft
    obtain ⟨b, hb, hbjoin, hbspell, hbspliced⟩ := exists_total hright
    have hany : (a.isSpliced || b.isSpliced) = true := by
      rw [haspliced, hbspliced, ← List.any_append]
      exact List.any_eq_true.mpr ⟨w, hw, hspliced⟩
    have hboth : ∀ part ∈ [a, b], CanJoin part := by simp [hajoin, hbjoin]
    obtain ⟨segments, hparts, hcanonical, hspell⟩ := exists_ofParts hboth
    refine ⟨segments, ?_, hcanonical, ?_⟩
    · simp [total, ha, hb, add_of_isSpliced hany, hparts, bind, Except.bind]
    · simpa [operands, haspell, hbspell] using hspell

/-- **Sums of the parts of a template.** Whatever the brackets say, the total of parts of which one
is no text is the template that they make all at once. Its segments are canonical and hold what the
operands hold in a row. Brackets around other operands that hold the same have the same total, so
the encoded text depends on nothing else. -/
theorem total_canonical {s : Bracketing} (h : s.MakesTemplate) :
    ∃ segments, s.total = .ok (.template segments) ∧
      ofParts s.operands = .ok (.template segments) ∧
      Canonical segments ∧ spell segments = s.operands.flatMap spelled ∧
      ∀ t : Bracketing, t.MakesTemplate →
        t.operands.flatMap spelled = s.operands.flatMap spelled →
        t.total = .ok (.template segments) ∧
        ∀ style path, (t.total >>= Value.encode style path) =
          Value.encode style path (.template segments) := by
  obtain ⟨segments, htotal, hcanonical, hspell⟩ := h.exists_canonical
  refine ⟨segments, htotal, ?_, hcanonical, hspell, ?_⟩
  · obtain ⟨others, hparts, hcanonical', hspell'⟩ := exists_ofParts h.canJoin
    rw [eq_of_spell_eq hcanonical hcanonical' (hspell.trans hspell'.symm)]
    exact hparts
  · intro t ht hsame
    obtain ⟨others, htotal', hcanonical', hspell'⟩ := ht.exists_canonical
    have hothers : others = segments := by
      apply eq_of_spell_eq hcanonical' hcanonical
      rw [hspell', hspell, hsame]
    subst hothers
    refine ⟨htotal', ?_⟩
    intro style path
    rw [htotal']
    rfl

/-- A sum of texts and of a template that is not merged, and the same taken the other way round. -/
theorem total_canonical_unmerged :
    let x := Value.reference (.text "x")
    let unmerged := Value.template [.text "", .text "a", .text "b", x]
    let s := plus (plus (operand (.text "c")) (operand (.text ""))) (plus (operand unmerged)
      (operand (.text "d")))
    let t := plus (operand (.text "ca")) (plus (operand (.text "b")) (plus (operand x)
      (operand (.text "d"))))
    s.MakesTemplate ∧ t.MakesTemplate ∧
      s.total = .ok (.template [.text "cab", x, .text "d"]) ∧ t.total = s.total := by
  intro x unmerged s t
  have hs : s.MakesTemplate := by
    refine ⟨?_, by decide, unmerged, ?_, rfl⟩
    · intro v hv
      simp [s, operands] at hv
      rcases hv with rfl | rfl | rfl | rfl <;> rfl
    · simp [s, operands]
  have ht : t.MakesTemplate := by
    refine ⟨?_, by decide, x, ?_, rfl⟩
    · intro v hv
      simp [t, operands] at hv
      rcases hv with rfl | rfl | rfl | rfl <;> rfl
    · simp [t, operands]
  obtain ⟨segments, htotal, -, -, -, hsame⟩ := total_canonical hs
  have hsegments : s.total = .ok (.template [.text "cab", x, .text "d"]) := rfl
  refine ⟨hs, ht, hsegments, ?_⟩
  rw [htotal]
  exact (hsame t ht rfl).1

end Bracketing

end Stanza.Template
