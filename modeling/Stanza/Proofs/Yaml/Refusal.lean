import Stanza.Proofs.Yaml.Reading
import Stanza.Proofs.Yaml.Scanning

/-!
What a YAML text is refused for.

A text that is in the language can be refused all the same, for what its scalars denote. Building a
node fails for a scalar of the node or for the form of the node (`Node.refuses_buildAs`), the
scalars of a document that is read are tokens of the text, and a token that is a fault stands for an
escape or a version (`isLexical_of_bad_mem`). So whatever a text is refused for, other than not
being in the language, can be pointed out in it: `documents_eq_error` for all documents of a text
and `document_eq_error` for the only one.
-/

namespace Stanza.Yaml

/-- What a text with the given tokens can be refused for, other than not being in the language. -/
inductive Refuses (tokens : List Token) : ReadError → Prop where
  /-- An escape in it denotes a code that is no character. -/
  | escape {code : Nat} {error : ReadError} : .bad error ∈ tokens →
      charOfCode code = .error error → Refuses tokens error
  /-- The version in a directive has too many digits. -/
  | version {digits : Nat} : .bad (.tooLong digits) ∈ tokens → digitLimit < digits →
      Refuses tokens (.tooLong digits)
  /-- A scalar in it does not denote what its tag says. -/
  | scalar {tag : Tag} {text : List Char} {plain : Bool} {error : ReadError} :
      .scalar text plain ∈ tokens → Node.scalarValue tag text = .error error → Refuses tokens error
  /-- A scalar without a text does not denote what its tag says. -/
  | empty {tag : Tag} {error : ReadError} : Node.scalarValue tag [] = .error error →
      Refuses tokens error
  /-- A mapping is marked as a date, and has a scalar under its value key. -/
  | mappedDate : Refuses tokens .mappedDate

/-- A text is not in the language, or it is refused for something in it. -/
def Fails (tokens : List Token) (error : ReadError) : Prop :=
  error = .malformed ∨ Refuses tokens error

variable {tokens : List Token}

theorem fails_of_bad_mem {text : List Char} {error : ReadError} (h : .bad error ∈ Token.ofText text) :
    Fails (Token.ofText text) error := by
  cases isLexical_of_bad_mem h with
  | malformed => exact .inl rfl
  | escape hcode => exact .inr (.escape h hcode)
  | version hlong => exact .inr (.version h hlong)

/-! ### Building -/

/-- A fault that a value is built with, if there is one, is of the given tokens. -/
def Built.FailsOf (tokens : List Token) (fault : Option (Nat × ReadError)) : Prop :=
  ∀ level error, fault = some (level, error) → Fails tokens error

namespace Built

theorem failsOf_none : FailsOf tokens none := nofun

theorem failsOf_some {level : Nat} {error : ReadError} (h : Fails tokens error) :
    FailsOf tokens (some (level, error)) := by
  rintro _ _ ⟨⟩
  exact h

theorem FailsOf.first {a b : Option (Nat × ReadError)} (ha : FailsOf tokens a)
    (hb : FailsOf tokens b) : FailsOf tokens (first a b) := by
  unfold Built.first
  split
  · split
    · exact hb
    · exact ha
  · exact ha
  · exact hb

theorem failsOf_firstOf {faults : List (Option (Nat × ReadError))}
    (h : ∀ fault ∈ faults, FailsOf tokens fault) : FailsOf tokens (firstOf faults) := by
  induction faults with
  | nil => exact failsOf_none
  | cons fault rest ih =>
    obtain ⟨hfault, hrest⟩ := List.forall_mem_cons.mp h
    exact hfault.first (ih hrest)

theorem failsOf_collection {value : Value} {faults : List (Option (Nat × ReadError))}
    (h : ∀ fault ∈ faults, FailsOf tokens fault) :
    FailsOf tokens (collection value faults).fault := by
  intro level error hfault
  obtain ⟨⟨below, found⟩, hfound, heq⟩ := Option.map_eq_some_iff.mp hfault
  cases heq
  exact failsOf_firstOf h _ _ hfound

theorem failsOf_refusedCollection {value : Value} :
    FailsOf tokens (refusedCollection value).fault :=
  failsOf_collection (List.forall_mem_singleton.mpr (failsOf_some (.inl rfl)))

theorem failsOf_ofExcept {run : Except ReadError Value}
    (h : ∀ error, run = .error error → Fails tokens error) : FailsOf tokens (ofExcept run).fault := by
  cases run with
  | ok value => exact failsOf_none
  | error error => exact failsOf_some (h error rfl)

theorem failsOf_ofItems {wrap : List Value → Value} {items : List Built}
    (h : ∀ item ∈ items, FailsOf tokens item.fault) :
    FailsOf tokens (ofItems wrap items).fault := by
  refine failsOf_collection fun fault hfault => ?_
  obtain ⟨item, hitem, rfl⟩ := List.mem_map.mp hfault
  exact h item hitem

theorem FailsOf.keyFault {key : Built} (h : FailsOf tokens key.fault) :
    FailsOf tokens key.keyFault := by
  unfold Built.keyFault
  split
  · rename_i heq
    exact heq ▸ h
  · split
    · exact failsOf_none
    · exact failsOf_some (.inl rfl)

/-- Keys and values without faults but of the given tokens. -/
def EntriesFailOf (tokens : List Token) (entries : List (Built × Built)) : Prop :=
  ∀ entry ∈ entries, FailsOf tokens entry.1.fault ∧ FailsOf tokens entry.2.fault

theorem entriesFailOf_nil : EntriesFailOf tokens [] := fun _ h => absurd h List.not_mem_nil

theorem EntriesFailOf.append {entries others : List (Built × Built)}
    (h : EntriesFailOf tokens entries) (hothers : EntriesFailOf tokens others) :
    EntriesFailOf tokens (entries ++ others) := fun entry hentry =>
  (List.mem_append.mp hentry).elim (h entry) (hothers entry)

theorem failsOf_ofEntries {wrap : Entries → Value} {entries : List (Built × Built)}
    (h : EntriesFailOf tokens entries) : FailsOf tokens (ofEntries wrap entries).fault := by
  refine failsOf_collection fun fault hfault => ?_
  obtain ⟨entry, hentry, hfault⟩ := List.mem_flatMap.mp hfault
  rcases List.mem_cons.mp hfault with rfl | hfault
  · exact (h entry hentry).1.keyFault
  · rw [List.mem_singleton.mp hfault]
    exact (h entry hentry).2

end Built

namespace Node

open Built

theorem fails_scalarValue {tag tag' : Tag} {text : List Char}
    (h : (Node.scalar tag' text).IsFrom tokens) :
    ∀ error, scalarValue tag text = .error error → Fails tokens error := by
  intro error herror
  cases h with
  | empty => exact .inr (.empty herror)
  | scalar _ hmem => exact .inr (.scalar hmem herror)

mutual

theorem isFrom_scalarText {node : Node} {text : List Char} (h : node.IsFrom tokens)
    (htext : node.scalarText? = some text) : (Node.scalar .str text).IsFrom tokens := by
  match node, h with
  | .scalar _ _, h =>
    cases htext
    cases h with
    | empty => exact .empty _
    | scalar _ hmem => exact .scalar _ hmem
  | .sequence _ _, _ => cases htext
  | .mapping _ entries, .mapping _ hkeys hvalues => exact isFrom_valueText hvalues htext

theorem isFrom_valueText {entries : List (Node × Node)} {text : List Char}
    (h : ∀ entry ∈ entries, entry.2.IsFrom tokens) (htext : valueText? entries = some text) :
    (Node.scalar .str text).IsFrom tokens := by
  match entries with
  | [] => cases htext
  | (key, value) :: rest =>
    obtain ⟨hvalue, hrest⟩ := List.forall_mem_cons.mp h
    unfold valueText? at htext
    split at htext
    · exact isFrom_scalarText hvalue htext
    · exact isFrom_valueText hrest htext

end

theorem failsOf_ofText {tag : Tag} {text? : Option (List Char)}
    (h : ∀ text, text? = some text → (Node.scalar .str text).IsFrom tokens) :
    FailsOf tokens (ofText tag text?).fault := by
  unfold ofText
  split
  · exact failsOf_refusedCollection
  · split
    · exact failsOf_ofExcept (fails_scalarValue (h _ rfl))
    · exact failsOf_some (.inl rfl)

theorem failsOf_buildMapping {wrap : Entries → Value}
    {entries : Option (List (Built × Built) × List (Built × Built))}
    (h : ∀ merged own, entries = some (merged, own) →
      EntriesFailOf tokens merged ∧ EntriesFailOf tokens own) :
    FailsOf tokens (buildMapping wrap entries).fault := by
  unfold buildMapping
  split
  · obtain ⟨hmerged, hown⟩ := h _ _ rfl
    exact failsOf_ofEntries (hmerged.append hown)
  · exact failsOf_refusedCollection

mutual

/-- Building a node fails for a scalar in it or for its form. -/
theorem failsOf_buildAs (tag : Tag) {node : Node} (h : node.IsFrom tokens) :
    FailsOf tokens (buildAs tag node).fault := by
  match node, h with
  | .scalar _ text, h =>
    rw [buildAs]
    refine failsOf_ofText fun _ htext => ?_
    cases htext
    cases h with
    | empty => exact .empty _
    | scalar _ hmem => exact .scalar _ hmem
  | .sequence _ items, .sequence _ hitems =>
    unfold buildAs
    split
    · exact failsOf_ofItems (failsOf_buildItems hitems)
    · exact failsOf_ofItems (failsOf_buildPairs hitems)
    · exact failsOf_ofItems (failsOf_buildPairs hitems)
    · exact failsOf_ofText nofun
  | .mapping _ entries, .mapping _ hkeys hvalues =>
    unfold buildAs
    split
    · exact failsOf_buildMapping (entriesFailOf_buildEntries hkeys hvalues)
    · exact failsOf_buildMapping (entriesFailOf_buildEntries hkeys hvalues)
    · refine failsOf_some ?_
      split
      · exact .inr .mappedDate
      · exact .inl rfl
    · exact failsOf_ofText fun _ => isFrom_valueText hvalues

theorem failsOf_buildItems {items : List Node} (h : ∀ item ∈ items, item.IsFrom tokens) :
    ∀ built ∈ buildItems items, FailsOf tokens built.fault := by
  match items with
  | [] => simp [buildItems]
  | item :: rest =>
    obtain ⟨hitem, hrest⟩ := List.forall_mem_cons.mp h
    rw [buildItems]
    exact List.forall_mem_cons.mpr ⟨failsOf_buildAs _ hitem, failsOf_buildItems hrest⟩

theorem failsOf_buildPairs {items : List Node} (h : ∀ item ∈ items, item.IsFrom tokens) :
    ∀ built ∈ buildPairs items, FailsOf tokens built.fault := by
  match items with
  | [] => simp [buildPairs]
  | item :: rest =>
    obtain ⟨hitem, hrest⟩ := List.forall_mem_cons.mp h
    rw [buildPairs]
    exact List.forall_mem_cons.mpr ⟨failsOf_buildPair hitem, failsOf_buildPairs hrest⟩

theorem failsOf_buildPair {node : Node} (h : node.IsFrom tokens) :
    FailsOf tokens (buildPair node).fault := by
  match node, h with
  | .scalar _ _, _ => exact failsOf_some (.inl rfl)
  | .sequence _ _, _ => exact failsOf_some (.inl rfl)
  | .mapping _ entries, .mapping _ hkeys hvalues => exact failsOf_buildSingle hkeys hvalues

theorem failsOf_buildSingle {entries : List (Node × Node)}
    (hkeys : ∀ entry ∈ entries, entry.1.IsFrom tokens)
    (hvalues : ∀ entry ∈ entries, entry.2.IsFrom tokens) :
    FailsOf tokens (buildSingle entries).fault := by
  match entries with
  | [] => exact failsOf_some (.inl rfl)
  | _ :: _ :: _ => exact failsOf_some (.inl rfl)
  | [(key, value)] =>
    have hkey := failsOf_buildAs key.tag (hkeys _ List.mem_cons_self)
    have hvalue := failsOf_buildAs value.tag (hvalues _ List.mem_cons_self)
    rw [buildSingle]
    exact hkey.first hvalue

theorem entriesFailOf_buildEntries {entries : List (Node × Node)}
    (hkeys : ∀ entry ∈ entries, entry.1.IsFrom tokens)
    (hvalues : ∀ entry ∈ entries, entry.2.IsFrom tokens) :
    ∀ merged own, buildEntries entries = some (merged, own) →
      EntriesFailOf tokens merged ∧ EntriesFailOf tokens own := by
  intro merged own hbuilt
  match entries with
  | [] =>
    cases hbuilt
    exact ⟨entriesFailOf_nil, entriesFailOf_nil⟩
  | (key, value) :: rest =>
    obtain ⟨hkey, hkeys⟩ := List.forall_mem_cons.mp hkeys
    obtain ⟨hvalue, hvalues⟩ := List.forall_mem_cons.mp hvalues
    unfold buildEntries at hbuilt
    split at hbuilt
    · split at hbuilt
      · rename_i others more mine hothers hrest
        cases hbuilt
        obtain ⟨hmore, hmine⟩ := entriesFailOf_buildEntries hkeys hvalues _ _ hrest
        exact ⟨(entriesFailOf_mergedEntries hvalue _ hothers).append hmore, hmine⟩
      · cases hbuilt
    · split at hbuilt
      · rename_i more mine hrest
        cases hbuilt
        obtain ⟨hmore, hmine⟩ := entriesFailOf_buildEntries hkeys hvalues _ _ hrest
        exact ⟨hmore, List.forall_mem_cons.mpr
          ⟨⟨failsOf_buildAs _ hkey, failsOf_buildAs _ hvalue⟩, hmine⟩⟩
      · cases hbuilt

theorem entriesFailOf_mergedEntries {node : Node} (h : node.IsFrom tokens) :
    ∀ merged, mergedEntries node = some merged → EntriesFailOf tokens merged := by
  intro merged hmerged
  match node, h with
  | .scalar _ _, _ => cases hmerged
  | .mapping _ entries, .mapping _ hkeys hvalues =>
    obtain ⟨⟨others, own⟩, hbuilt, rfl⟩ := Option.map_eq_some_iff.mp hmerged
    obtain ⟨hothers, hown⟩ := entriesFailOf_buildEntries hkeys hvalues _ _ hbuilt
    exact hothers.append hown
  | .sequence _ items, .sequence _ hitems => exact entriesFailOf_mergedItems hitems _ hmerged

theorem entriesFailOf_mergedItems {items : List Node} (h : ∀ item ∈ items, item.IsFrom tokens) :
    ∀ merged, mergedItems items = some merged → EntriesFailOf tokens merged := by
  intro merged hmerged
  match items with
  | [] =>
    cases hmerged
    exact entriesFailOf_nil
  | .scalar _ _ :: _ => cases hmerged
  | .sequence _ _ :: _ => cases hmerged
  | .mapping _ entries :: rest =>
    obtain ⟨hnode, hrest⟩ := List.forall_mem_cons.mp h
    cases hnode with
    | mapping _ hkeys hvalues =>
      unfold mergedItems at hmerged
      split at hmerged
      · rename_i others own before hbuilt hbefore
        cases hmerged
        obtain ⟨hothers, hown⟩ := entriesFailOf_buildEntries hkeys hvalues _ _ hbuilt
        exact (entriesFailOf_mergedItems hrest _ hbefore).append (hothers.append hown)
      · cases hmerged

end

/-- A document is refused for a scalar in it, or it is not in the language. -/
theorem fails_value {root : Node} (h : root.IsFrom tokens) {error : ReadError}
    (herror : root.value = .error error) : Fails tokens error := by
  simp only [value] at herror
  split at herror
  · rename_i heq
    cases herror
    exact failsOf_buildAs _ h _ _ heq
  · cases herror

end Node

/-! ### Texts -/

theorem isWithin_start (tokens : List Token) : Progress.IsWithin tokens ⟨tokens, []⟩ :=
  ⟨fun _ h => h, fun _ _ h => absurd h List.not_mem_nil⟩

theorem fails_documentsFrom {text : List Char} {fuel : Nat} {isFirst : Bool} {progress : Progress}
    {error : ReadError} (h : progress.IsWithin (Token.ofText text))
    (herror : documentsFrom fuel isFirst progress = .error error) :
    Fails (Token.ofText text) error := by
  induction fuel generalizing isFirst progress with
  | zero => cases herror
  | succ fuel ih =>
    have hkeeps := Reader.keeps_document isFirst progress h
    unfold documentsFrom at herror
    rcases bind_eq_error_iff.mp herror with herror | ⟨⟨root, after⟩, hroot, herror⟩
    · rcases hkeeps.2 _ herror with rfl | hbad
      · exact .inl rfl
      · exact fails_of_bad_mem hbad
    · obtain ⟨hfrom, hafter⟩ := hkeeps.1 _ _ hroot
      cases root with
      | none => cases herror
      | some root =>
        rcases bind_eq_error_iff.mp herror with herror | ⟨value, -, herror⟩
        · exact Node.fails_value (hfrom _ rfl) herror
        · exact ih hafter (map_eq_error_iff.mp herror)

/-- Whatever the documents of a text are refused for is something in the text. -/
theorem documents_eq_error {text : List Char} {error : ReadError}
    (h : documents text = .error error) (hproper : error ≠ .malformed) :
    Refuses (Token.ofText text) error :=
  (fails_documentsFrom (isWithin_start _) h).resolve_left hproper

theorem Reader.keeps_expectEnd : Keeps tokens (fun _ => True) expectEnd := by
  refine .bind .get fun _ _ => .bind (keeps_skipEnds _) fun _ _ => .bind keeps_peek fun _ _ => ?_
  split
  · exact .pure trivial
  · exact .bind .get fun _ _ => .bind (keeps_directives _ _ _) fun _ _ => .malformed

theorem Reader.keeps_onlyRoot : Keeps tokens (RootIsFrom tokens) onlyRoot := by
  refine .bind (keeps_document true) fun root hroot => ?_
  split
  · exact .pure nofun
  · exact .bind keeps_expectEnd fun _ _ => .pure hroot

/-- Whatever the only document of a text is refused for is something in the text. -/
theorem document_eq_error {text : List Char} {error : ReadError}
    (h : document text = .error error) (hproper : error ≠ .malformed) :
    Refuses (Token.ofText text) error := by
  refine Or.resolve_left ?_ hproper
  have hkeeps := Reader.keeps_onlyRoot _ (isWithin_start (Token.ofText text))
  rcases bind_eq_error_iff.mp h with herror | ⟨⟨root, after⟩, hroot, herror⟩
  · rcases hkeeps.2 _ herror with rfl | hbad
    · exact .inl rfl
    · exact fails_of_bad_mem hbad
  · cases root with
    | none => cases herror
    | some root => exact Node.fails_value ((hkeeps.1 _ _ hroot).1 _ rfl) herror

end Stanza.Yaml
