import Stanza.Proofs.Steps
import Stanza.Yaml.Document

/-!
How reading the tokens of a YAML text fails.

A reader fails because the text is not in the language, or it comes to a token that stands for a
fault. A node that it makes has no scalars but those that are among the tokens, and empty ones; the
nodes of anchors are such nodes too, `Progress.IsWithin`. `Keeps` says both of a reader, and it is
carried through steps in a row (`Keeps.bind`). The readers of nodes call each other, so what they
keep is shown of all of them together, `NodeReaders`, by induction on the fuel
(`Reader.nodeReaders`).
-/

namespace Stanza.Yaml

theorem mem_of_lookup_eq_some {α β : Type} [BEq α] [LawfulBEq α] {entries : List (α × β)} {key : α}
    {value : β} (h : entries.lookup key = some value) : (key, value) ∈ entries := by
  induction entries with
  | nil => cases h
  | cons entry rest ih =>
    rw [List.lookup_cons] at h
    split at h
    · rename_i heq
      cases h
      rw [beq_iff_eq.mp heq]
      exact List.mem_cons_self
    · exact List.mem_cons_of_mem _ (ih h)

/-- The scalars of a node are among some tokens, or they are empty. -/
inductive Node.IsFrom (tokens : List Token) : Node → Prop where
  | empty (tag : Tag) : IsFrom tokens (.scalar tag [])
  | scalar (tag : Tag) {text : List Char} {plain : Bool} : .scalar text plain ∈ tokens →
      IsFrom tokens (.scalar tag text)
  | sequence (tag : Tag) {items : List Node} : (∀ item ∈ items, IsFrom tokens item) →
      IsFrom tokens (.sequence tag items)
  | mapping (tag : Tag) {entries : List (Node × Node)} :
      (∀ entry ∈ entries, IsFrom tokens entry.1) → (∀ entry ∈ entries, IsFrom tokens entry.2) →
      IsFrom tokens (.mapping tag entries)

/-- The entries of a mapping whose keys and values have their scalars from some tokens. -/
def AreFrom (tokens : List Token) (entries : List (Node × Node)) : Prop :=
  ∀ entry ∈ entries, entry.1.IsFrom tokens ∧ entry.2.IsFrom tokens

/-- The tokens that are left are among some tokens, and so are the scalars of the anchors. -/
structure Progress.IsWithin (tokens : List Token) (p : Progress) : Prop where
  left : ∀ token ∈ p.tokens, token ∈ tokens
  anchored : ∀ name node, (name, some node) ∈ p.anchors → node.IsFrom tokens

/-- A reader of tokens that are among given ones goes on to make something good of them, or it
fails since the text is malformed or one of them stands for a fault. -/
def Keeps (tokens : List Token) {α : Type} (Good : α → Prop) (reader : Reader α) : Prop :=
  ∀ p : Progress, p.IsWithin tokens →
    (∀ a q, reader p = .ok (a, q) → Good a ∧ q.IsWithin tokens) ∧
    ∀ error, reader p = .error error → error = .malformed ∨ .bad error ∈ tokens

namespace Keeps

variable {tokens : List Token} {α β : Type} {P : α → Prop} {Q : β → Prop} {reader : Reader α}

theorem pure {a : α} (h : P a) : Keeps tokens P (Pure.pure a) := by
  intro p hp
  refine ⟨?_, nofun⟩
  rintro _ _ ⟨⟩
  exact ⟨h, hp⟩

theorem malformed : Keeps tokens P (Reader.refuse .malformed) := by
  intro p hp
  refine ⟨nofun, ?_⟩
  rintro _ ⟨⟩
  exact .inl rfl

theorem bind {next : α → Reader β} (h : Keeps tokens P reader)
    (hnext : ∀ a, P a → Keeps tokens Q (next a)) : Keeps tokens Q (reader >>= next) := by
  intro p hp
  have hrun : (reader >>= next) p = reader p >>= fun made => next made.1 made.2 := rfl
  rw [hrun]
  constructor
  · intro b q hok
    obtain ⟨⟨a, r⟩, ha, hb⟩ := bind_eq_ok_iff.mp hok
    obtain ⟨hgood, hr⟩ := (h p hp).1 a r ha
    exact (hnext a hgood r hr).1 b q hb
  · intro error herror
    rcases bind_eq_error_iff.mp herror with herror | ⟨⟨a, r⟩, ha, herror⟩
    · exact (h p hp).2 error herror
    · obtain ⟨hgood, hr⟩ := (h p hp).1 a r ha
      exact (hnext a hgood r hr).2 error herror

theorem map {f : α → β} (h : Keeps tokens P reader) (hf : ∀ a, P a → Q (f a)) :
    Keeps tokens Q (reader >>= fun a => Pure.pure (f a)) :=
  h.bind fun a ha => .pure (hf a ha)

theorem mono {P' : α → Prop} (h : Keeps tokens P reader) (hP : ∀ a, P a → P' a) :
    Keeps tokens P' reader := fun p hp =>
  ⟨fun a q hok => ⟨hP a ((h p hp).1 a q hok).1, ((h p hp).1 a q hok).2⟩, (h p hp).2⟩

theorem ite {c : Prop} [Decidable c] {other : Reader α} (h : Keeps tokens P reader)
    (hother : Keeps tokens P other) : Keeps tokens P (if c then reader else other) := by
  split
  · exact h
  · exact hother

/-- A reader that makes something of the progress alone. -/
theorem get : Keeps tokens (Progress.IsWithin tokens) MonadState.get := by
  intro p hp
  refine ⟨?_, nofun⟩
  rintro _ _ ⟨⟩
  exact ⟨hp, hp⟩

theorem set {p : Progress} (h : p.IsWithin tokens) :
    Keeps tokens (fun _ => True) (MonadStateOf.set p : Reader PUnit) := by
  intro q hq
  refine ⟨?_, nofun⟩
  rintro _ _ ⟨⟩
  exact ⟨trivial, h⟩

theorem change {f : Progress → Progress}
    (h : ∀ p : Progress, p.IsWithin tokens → (f p).IsWithin tokens) :
    Keeps tokens (fun _ => True) (modify f : Reader PUnit) := by
  intro p hp
  refine ⟨?_, nofun⟩
  rintro _ _ ⟨⟩
  exact ⟨trivial, h p hp⟩

end Keeps

namespace Reader

variable {tokens : List Token}

theorem keeps_peek : Keeps tokens (fun next => ∀ token ∈ next, token ∈ tokens) peek := by
  refine .bind .get fun p hp => ?_
  have hleft := hp.left
  split
  · exact .pure nofun
  · rename_i error rest heq
    intro q hq
    refine ⟨nofun, ?_⟩
    rintro _ ⟨⟩
    exact .inr (hleft _ (heq ▸ List.mem_cons_self))
  · rename_i token rest _ heq
    refine .pure ?_
    rintro _ ⟨⟩
    exact hleft _ (heq ▸ List.mem_cons_self)

theorem keeps_skip : Keeps tokens (fun _ => True) skip :=
  .change fun _ hp => ⟨fun token htoken => hp.left token (List.mem_of_mem_tail htoken), hp.anchored⟩

theorem keeps_accept (token : Token) : Keeps tokens (fun _ => True) (accept token) :=
  .bind keeps_peek fun _ _ => .ite (.bind keeps_skip fun _ _ => .pure trivial) (.pure trivial)

theorem keeps_expectIf (condition : Bool) (token : Token) :
    Keeps tokens (fun _ => True) (expectIf condition token) :=
  .ite (.bind (keeps_accept token) fun _ _ => .ite (.pure trivial) .malformed) (.pure trivial)

theorem keeps_nextIsOneOf (others : List Token) :
    Keeps tokens (fun _ => True) (nextIsOneOf others) := by
  refine .bind keeps_peek fun _ _ => ?_
  split
  · exact .pure trivial
  · exact .pure trivial

theorem keeps_declareAnchor (name : Option String) :
    Keeps tokens (fun _ => True) (declareAnchor name) := by
  cases name with
  | none => exact .pure trivial
  | some name =>
    refine .bind .get fun p hp => .ite .malformed (.set ⟨hp.left, ?_⟩)
    intro other node hmem
    rcases List.mem_cons.mp hmem with heq | hmem
    · cases heq
    · exact hp.anchored other node hmem

theorem keeps_assignAnchor (name : Option String) {node : Node} (h : node.IsFrom tokens) :
    Keeps tokens (fun _ => True) (assignAnchor name node) := by
  cases name with
  | none => exact .pure trivial
  | some name =>
    refine .change fun p hp => ⟨hp.left, ?_⟩
    intro other found hmem
    rcases List.mem_cons.mp hmem with heq | hmem
    · cases heq
      exact h
    · exact hp.anchored other found hmem

theorem keeps_aliased (name : String) : Keeps tokens (Node.IsFrom tokens) (aliased name) := by
  refine .bind .get fun p hp => ?_
  split
  · rename_i node hlookup
    exact .pure (hp.anchored name node (mem_of_lookup_eq_some hlookup))
  · exact .malformed

theorem keeps_fullName (handles : Handles) (name : TagName) :
    Keeps tokens (fun _ => True) (fullName handles name) := by
  unfold fullName
  split
  · exact .pure trivial
  · split
    · exact .pure trivial
    · exact .malformed

theorem keeps_tag? : Keeps tokens (fun _ => True) tag? := by
  refine .bind keeps_peek fun _ _ => ?_
  split
  · exact .bind keeps_skip fun _ _ => .pure trivial
  · exact .pure trivial

theorem keeps_anchor? : Keeps tokens (fun _ => True) anchor? := by
  refine .bind keeps_peek fun _ _ => ?_
  split
  · exact .bind keeps_skip fun _ _ => .pure trivial
  · exact .pure trivial

theorem keeps_properties (handles : Handles) :
    Keeps tokens (fun _ => True) (properties handles) := by
  refine .bind keeps_anchor? fun before _ => .bind keeps_tag? fun tag _ => ?_
  cases tag with
  | none => exact .ite (.bind keeps_anchor? fun _ _ => .pure trivial) (.pure trivial)
  | some name =>
    have hname : ∀ anchor : Option String, Keeps tokens (fun _ => True)
        (do return (anchor, some (← fullName handles name))) :=
      fun _ => .map (keeps_fullName handles _) fun _ _ => trivial
    exact .ite (.bind keeps_anchor? fun anchor _ => hname anchor) (hname before)

/-! ### Nodes -/

theorem isFrom_empty : Node.empty.IsFrom tokens := .empty .null

theorem areFrom_nil : AreFrom tokens [] := fun _ h => absurd h List.not_mem_nil

theorem areFrom_cons {key value : Node} {rest : List (Node × Node)} (hkey : key.IsFrom tokens)
    (hvalue : value.IsFrom tokens) (hrest : AreFrom tokens rest) :
    AreFrom tokens ((key, value) :: rest) :=
  List.forall_mem_cons.mpr ⟨⟨hkey, hvalue⟩, hrest⟩

theorem isFrom_mapping {entries : List (Node × Node)} (tag : Tag) (h : AreFrom tokens entries) :
    (Node.mapping tag entries).IsFrom tokens :=
  .mapping tag (fun entry hentry => (h entry hentry).1) fun entry hentry => (h entry hentry).2

/-- What the readers of nodes keep with some fuel. -/
structure NodeReaders (tokens : List Token) (handles : Handles) (fuel : Nat) : Prop where
  node : ∀ place, Keeps tokens (Node.IsFrom tokens) (node handles fuel place)
  content : ∀ place anchor tag,
    Keeps tokens (Node.IsFrom tokens) (content handles fuel place anchor tag)
  nodeUnless : ∀ place others,
    Keeps tokens (Node.IsFrom tokens) (nodeUnless handles fuel place others)
  blockItems : Keeps tokens (fun items => ∀ item ∈ items, item.IsFrom tokens)
    (blockItems handles fuel)
  flatItems : Keeps tokens (fun items => ∀ item ∈ items, item.IsFrom tokens)
    (flatItems handles fuel)
  blockEntries : Keeps tokens (AreFrom tokens) (blockEntries handles fuel)
  flowItems : ∀ isFirst, Keeps tokens (fun items => ∀ item ∈ items, item.IsFrom tokens)
    (flowItems handles fuel isFirst)
  flowEntries : ∀ isFirst, Keeps tokens (AreFrom tokens) (flowEntries handles fuel isFirst)

section Step

variable {handles : Handles} {fuel : Nat}

/-- The value of an entry is the node after its mark, or an empty one. -/
theorem NodeReaders.keeps_value (h : NodeReaders tokens handles fuel) (place : Place)
    (others : List Token) {α : Type} {Good : α → Prop} {next : Node → Reader α}
    (hnext : ∀ value, value.IsFrom tokens → Keeps tokens Good (next value)) :
    Keeps tokens Good (accept .value >>= fun isMarked =>
      if isMarked then Reader.nodeUnless handles fuel place others >>= next
      else pure .empty >>= next) :=
  .bind (keeps_accept _) fun _ _ =>
    .ite (.bind (h.nodeUnless place others) hnext) (.bind (.pure isFrom_empty) hnext)

theorem NodeReaders.keeps_node (h : NodeReaders tokens handles fuel) (place : Place) :
    Keeps tokens (Node.IsFrom tokens) (Reader.node handles (fuel + 1) place) := by
  unfold Reader.node
  refine .bind keeps_peek fun _ _ => ?_
  split
  · exact .bind keeps_skip fun _ _ => keeps_aliased _
  · refine .bind (keeps_properties handles) fun _ _ => .bind (keeps_declareAnchor _) fun _ _ => ?_
    exact .bind (h.content _ _ _) fun made hmade =>
      .bind (keeps_assignAnchor _ hmade) fun _ _ => .pure hmade

theorem NodeReaders.keeps_content (h : NodeReaders tokens handles fuel) (place : Place)
    (anchor tag : Option String) :
    Keeps tokens (Node.IsFrom tokens) (Reader.content handles (fuel + 1) place anchor tag) := by
  unfold Reader.content
  refine .bind keeps_peek fun next hnext => ?_
  split
  · exact .map h.flatItems fun _ hitems => .sequence _ hitems
  · exact .bind keeps_skip fun _ _ => .pure (.scalar _ (hnext _ rfl))
  · exact .bind keeps_skip fun _ _ => .map (h.flowItems true) fun _ hitems => .sequence _ hitems
  · exact .bind keeps_skip fun _ _ => .map (h.flowEntries true) fun _ => isFrom_mapping _
  · exact .bind keeps_skip fun _ _ => .map h.blockItems fun _ hitems => .sequence _ hitems
  · exact .bind keeps_skip fun _ _ => .map h.blockItems fun _ hitems => .sequence _ hitems
  · exact .bind keeps_skip fun _ _ => .map h.blockEntries fun _ => isFrom_mapping _
  · exact .bind keeps_skip fun _ _ => .map h.blockEntries fun _ => isFrom_mapping _
  · exact .ite (.pure (.empty _)) .malformed

theorem NodeReaders.keeps_nodeUnless (h : NodeReaders tokens handles fuel) (place : Place)
    (others : List Token) :
    Keeps tokens (Node.IsFrom tokens) (Reader.nodeUnless handles (fuel + 1) place others) := by
  unfold Reader.nodeUnless
  exact .bind (keeps_nextIsOneOf _) fun _ _ => .ite (.pure isFrom_empty) (h.node place)

theorem NodeReaders.keeps_blockItems (h : NodeReaders tokens handles fuel) :
    Keeps tokens (fun items => ∀ item ∈ items, item.IsFrom tokens)
      (Reader.blockItems handles (fuel + 1)) := by
  unfold Reader.blockItems
  refine .bind (keeps_accept _) fun _ _ => .ite ?_ ?_
  · exact .bind (h.nodeUnless _ _) fun _ hitem => .map h.blockItems fun _ hitems =>
      List.forall_mem_cons.mpr ⟨hitem, hitems⟩
  · exact .bind (keeps_accept _) fun _ _ => .ite (.pure nofun) .malformed

theorem NodeReaders.keeps_flatItems (h : NodeReaders tokens handles fuel) :
    Keeps tokens (fun items => ∀ item ∈ items, item.IsFrom tokens)
      (Reader.flatItems handles (fuel + 1)) := by
  unfold Reader.flatItems
  refine .bind (keeps_accept _) fun _ _ => .ite ?_ (.pure nofun)
  exact .bind (h.nodeUnless _ _) fun _ hitem => .map h.flatItems fun _ hitems =>
    List.forall_mem_cons.mpr ⟨hitem, hitems⟩

theorem NodeReaders.keeps_blockEntries (h : NodeReaders tokens handles fuel) :
    Keeps tokens (AreFrom tokens) (Reader.blockEntries handles (fuel + 1)) := by
  unfold Reader.blockEntries
  refine .bind (keeps_accept _) fun _ _ => .ite ?_ ?_
  · exact .bind (h.nodeUnless _ _) fun key hkey => h.keeps_value _ _ fun value hvalue =>
      .map h.blockEntries fun _ => areFrom_cons hkey hvalue
  · exact .bind (keeps_accept _) fun _ _ => .ite (.pure areFrom_nil) .malformed

theorem NodeReaders.keeps_flowItems (h : NodeReaders tokens handles fuel) (isFirst : Bool) :
    Keeps tokens (fun items => ∀ item ∈ items, item.IsFrom tokens)
      (Reader.flowItems handles (fuel + 1) isFirst) := by
  unfold Reader.flowItems
  refine .bind (keeps_accept _) fun _ _ => .ite (.pure nofun) ?_
  refine .bind (keeps_expectIf _ _) fun _ _ => .bind (keeps_accept _) fun _ _ => .ite ?_ ?_
  · refine .bind (h.nodeUnless _ _) fun key hkey => h.keeps_value _ _ fun value hvalue => ?_
    exact .map (h.flowItems false) fun _ hitems => List.forall_mem_cons.mpr
      ⟨isFrom_mapping .map (areFrom_cons hkey hvalue areFrom_nil), hitems⟩
  · refine .bind (keeps_accept _) fun _ _ => .ite (.pure nofun) ?_
    exact .bind (h.node _) fun _ hitem => .map (h.flowItems false) fun _ hitems =>
      List.forall_mem_cons.mpr ⟨hitem, hitems⟩

theorem NodeReaders.keeps_flowEntries (h : NodeReaders tokens handles fuel) (isFirst : Bool) :
    Keeps tokens (AreFrom tokens) (Reader.flowEntries handles (fuel + 1) isFirst) := by
  unfold Reader.flowEntries
  refine .bind (keeps_accept _) fun _ _ => .ite (.pure areFrom_nil) ?_
  refine .bind (keeps_expectIf _ _) fun _ _ => .bind (keeps_accept _) fun _ _ => .ite ?_ ?_
  · exact .bind (h.nodeUnless _ _) fun key hkey => h.keeps_value _ _ fun value hvalue =>
      .map (h.flowEntries false) fun _ => areFrom_cons hkey hvalue
  · refine .bind (keeps_accept _) fun _ _ => .ite (.pure areFrom_nil) ?_
    exact .bind (h.node _) fun _ hkey => .map (h.flowEntries false) fun _ =>
      areFrom_cons hkey isFrom_empty

end Step

/-- The readers of nodes keep to the tokens, whatever their fuel. -/
theorem nodeReaders (tokens : List Token) (handles : Handles) (fuel : Nat) :
    NodeReaders tokens handles fuel := by
  induction fuel with
  | zero =>
    exact ⟨fun _ => .malformed, fun _ _ _ => .malformed, fun _ _ => .malformed, .malformed,
      .malformed, .malformed, fun _ => .malformed, fun _ => .malformed⟩
  | succ fuel ih =>
    exact ⟨ih.keeps_node, ih.keeps_content, ih.keeps_nodeUnless, ih.keeps_blockItems,
      ih.keeps_flatItems, ih.keeps_blockEntries, ih.keeps_flowItems, ih.keeps_flowEntries⟩

/-! ### Documents -/

theorem keeps_skipEnds (fuel : Nat) : Keeps tokens (fun _ => True) (skipEnds fuel) := by
  induction fuel with
  | zero => exact .pure trivial
  | succ fuel ih => exact .bind (keeps_accept _) fun _ _ => .ite ih (.pure trivial)

theorem keeps_directives (fuel : Nat) (hasVersion : Bool) (handles : Handles) :
    Keeps tokens (fun _ => True) (directives fuel hasVersion handles) := by
  induction fuel generalizing hasVersion handles with
  | zero => exact .pure trivial
  | succ fuel ih =>
    refine .bind keeps_peek fun _ _ => ?_
    split
    · exact .bind keeps_skip fun _ _ => .ite .malformed (ih _ _)
    · exact .bind keeps_skip fun _ _ => .ite .malformed (ih _ _)
    · exact .bind keeps_skip fun _ _ => ih _ _
    · exact .pure trivial

theorem keeps_nextIsDirective : Keeps tokens (fun _ => True) nextIsDirective := by
  refine .bind keeps_peek fun _ _ => ?_
  split
  · exact .pure trivial
  · exact .pure trivial

theorem keeps_fuel : Keeps tokens (fun _ => True) Reader.fuel := .map .get fun _ _ => trivial

theorem keeps_root (handles : Handles) : Keeps tokens (Node.IsFrom tokens) (root handles) :=
  .bind (keeps_nextIsOneOf _) fun _ _ => .bind keeps_peek fun _ _ =>
    .bind keeps_nextIsDirective fun _ _ => .ite (.pure isFrom_empty)
        (.bind keeps_fuel fun fuel _ => (nodeReaders tokens handles fuel).node .block)

/-- What is read of a document, if there is one, has its scalars from the tokens. -/
def RootIsFrom (tokens : List Token) (root : Option Node) : Prop :=
  ∀ node ∈ root, node.IsFrom tokens

theorem rootIsFrom_some {node : Node} (h : node.IsFrom tokens) :
    RootIsFrom tokens (some node) := by
  rintro _ ⟨⟩
  exact h

theorem keeps_explicitDocument : Keeps tokens (RootIsFrom tokens) explicitDocument := by
  refine .bind .get fun _ _ => .bind (keeps_skipEnds _) fun _ _ => .bind keeps_peek fun _ _ => ?_
  refine .ite (.pure nofun) (.bind .get fun _ _ => .bind (keeps_directives _ _ _) fun _ _ => ?_)
  refine .bind (keeps_accept _) fun _ _ => .ite ?_ .malformed
  exact .map (keeps_root _) fun _ => rootIsFrom_some

theorem keeps_document (isFirst : Bool) :
    Keeps tokens (RootIsFrom tokens) (document isFirst) := by
  have hend : ∀ root : Option Node, RootIsFrom tokens root → Keeps tokens (RootIsFrom tokens)
      (if root.isSome then accept .documentEnd >>= fun _ => pure root else pure root) :=
    fun _ hroot => .ite (.bind (keeps_accept _) fun _ _ => .pure hroot) (.pure hroot)
  have hforget : ∀ p : Progress, p.IsWithin tokens →
      ({ p with anchors := [] } : Progress).IsWithin tokens := fun _ hp =>
    ⟨hp.left, fun _ _ hmem => absurd hmem List.not_mem_nil⟩
  refine .bind (.change hforget) fun _ _ => .bind (keeps_nextIsOneOf _) fun _ _ => ?_
  refine .bind keeps_peek fun _ _ => .bind keeps_nextIsDirective fun _ _ => ?_
  refine .ite (.bind keeps_fuel fun fuel _ => ?_) (.bind keeps_explicitDocument hend)
  refine .bind ((nodeReaders tokens _ fuel).node _) fun node hnode => ?_
  exact .bind (.pure (rootIsFrom_some hnode)) hend

end Reader

end Stanza.Yaml
