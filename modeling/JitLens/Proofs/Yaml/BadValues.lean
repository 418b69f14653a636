import JitLens.Proofs.Yaml.LexerFaults
import JitLens.Yaml.Document
/-!
# Where bad values come from

A text that is a document can still be bad in a value: a scalar of a type does not hold a value of
that type.  No reader of tokens finds a bad value, so it is either an escape between double quotes
or a scalar in the document, one whose type is that of truth values, numbers or times.
-/

namespace JitLens.Yaml

/-! ## Nodes -/

namespace Outline

/-- A reader of tokens that finds no bad value. -/
def Calm {α : Type} (m : OutlineM α) : Prop :=
  ∀ o, FindsOnly (fun _ => False) (m o)

section

variable {α β : Type} {m : OutlineM α}

theorem Calm.pure (a : α) : Calm (pure a : OutlineM α) :=
  fun _ => findsOnly_ok _

theorem Calm.fail (fault : Fault) : Calm (fail fault : OutlineM α) :=
  fun _ => findsOnly_refuse _

theorem Calm.get : Calm (get : OutlineM Outline) :=
  fun _ => findsOnly_ok _

theorem Calm.modify (f : Outline → Outline) : Calm (modify f : OutlineM Unit) :=
  fun _ => findsOnly_ok _

theorem Calm.bind {f : α → OutlineM β} (hm : Calm m) (hf : ∀ a, Calm (f a)) : Calm (m >>= f) :=
  fun o => findsOnly_bind.2 ⟨hm o, fun r _ => hf r.1 r.2⟩

theorem Calm.ite {c : Prop} [Decidable c] {n : OutlineM α} (hm : Calm m) (hn : Calm n) :
    Calm (if c then m else n) := by
  split <;> assumption

theorem calm_peek : Calm peek :=
  Calm.get.bind fun _ => .pure _

theorem calm_skip : Calm skip :=
  .modify _

theorem calm_nextIs (ts : List Token) : Calm (nextIs ts) := by
  refine calm_peek.bind fun t => ?_
  cases t <;> exact .pure _

theorem calm_tagName (handle : Option String) (rest : String) : Calm (tagName handle rest) := by
  cases handle with
  | none => exact .pure _
  | some h =>
      refine Calm.get.bind fun o => ?_
      split
      · exact .pure _
      · exact .fail _

theorem calm_properties : Calm properties := by
  refine Calm.get.bind fun o => ?_
  split
  · exact calm_skip.bind fun _ => calm_skip.bind fun _ => (calm_tagName _ _).bind fun _ => .pure _
  · exact calm_skip.bind fun _ => .pure _
  · exact calm_skip.bind fun _ => calm_skip.bind fun _ => (calm_tagName _ _).bind fun _ => .pure _
  · exact calm_skip.bind fun _ => (calm_tagName _ _).bind fun _ => .pure _
  · exact .pure _

theorem calm_anchorTo (anchor : Option String) (meaning : Anchored) :
    Calm (anchorTo anchor meaning) := by
  cases anchor with
  | none => exact .pure _
  | some a => exact .modify _

theorem calm_checkAnchor (anchor : Option String) : Calm (checkAnchor anchor) := by
  cases anchor with
  | none => exact .pure _
  | some a => exact Calm.get.bind fun _ => .ite (.fail _) (.pure _)

theorem calm_collection {content : OutlineM Node} (hcontent : Calm content)
    (anchor : Option String) (isMap : Bool) : Calm (collection anchor isMap content) :=
  (calm_anchorTo _ _).bind fun _ => hcontent.bind fun _ =>
    (calm_anchorTo _ _).bind fun _ => .pure _

theorem calm_absent (anchor tag : Option String) : Calm (absent anchor tag) := by
  unfold absent
  exact .ite ((calm_anchorTo _ _).bind fun _ => .pure _) (.fail _)

end

/-- No reader of nodes and of their parts finds a bad value. -/
structure AllCalm (fuel : Nat) : Prop where
  node : ∀ place, Calm (node place fuel)
  blockItems : Calm (blockItems fuel)
  indentlessItems : Calm (indentlessItems fuel)
  blockEntries : Calm (blockEntries fuel)
  blockValue : Calm (blockValue fuel)
  flowItems : ∀ first, Calm (flowItems first fuel)
  flowValue : ∀ ends, Calm (flowValue ends fuel)
  flowEntries : ∀ first, Calm (flowEntries first fuel)

section

variable {fuel : Nat}

theorem AllCalm.node_succ (h : AllCalm fuel) (place : Place) : Calm (Outline.node place (fuel + 1)) := by
  unfold Outline.node
  refine calm_peek.bind fun t => ?_
  split
  · refine calm_skip.bind fun _ => Calm.get.bind fun o => ?_
    split
    · exact .pure _
    · exact .pure _
    · exact .fail _
  · refine calm_properties.bind fun ⟨anchor, tag⟩ => (calm_checkAnchor _).bind fun _ =>
      calm_peek.bind fun t => ?_
    split
    · exact .ite (calm_collection (h.indentlessItems.bind fun _ => .pure _) _ _) (calm_absent _ _)
    · exact calm_skip.bind fun _ => (calm_anchorTo _ _).bind fun _ => .pure _
    · exact calm_skip.bind fun _ =>
        calm_collection ((h.flowItems _).bind fun _ => .pure _) _ _
    · exact calm_skip.bind fun _ =>
        calm_collection ((h.flowEntries _).bind fun _ => .pure _) _ _
    · exact .ite (calm_absent _ _) (calm_skip.bind fun _ =>
        calm_collection (h.blockItems.bind fun _ => .pure _) _ _)
    · exact .ite (calm_absent _ _) (calm_skip.bind fun _ =>
        calm_collection (h.blockEntries.bind fun _ => .pure _) _ _)
    · exact calm_absent _ _

/-- A part that may be left out is read before the rest. -/
theorem AllCalm.part {α : Type} {c : Prop} [Decidable c] {rest : Node → OutlineM α}
    (h : AllCalm fuel) (place : Place) (hrest : ∀ n, Calm (rest n)) :
    Calm (if c then pure emptyNode >>= rest else Outline.node place fuel >>= rest) :=
  .ite ((Calm.pure _).bind hrest) ((h.node place).bind hrest)

theorem AllCalm.blockItems_succ (h : AllCalm fuel) : Calm (Outline.blockItems (fuel + 1)) := by
  unfold Outline.blockItems
  refine calm_peek.bind fun t => ?_
  split
  · exact calm_skip.bind fun _ => (calm_nextIs _).bind fun _ =>
      h.part _ fun _ => h.blockItems.bind fun _ => .pure _
  · exact calm_skip.bind fun _ => .pure _
  · exact .fail _

theorem AllCalm.indentlessItems_succ (h : AllCalm fuel) :
    Calm (Outline.indentlessItems (fuel + 1)) := by
  unfold Outline.indentlessItems
  refine calm_peek.bind fun t => ?_
  split
  · exact calm_skip.bind fun _ => (calm_nextIs _).bind fun _ =>
      h.part _ fun _ => h.indentlessItems.bind fun _ => .pure _
  · exact .pure _

theorem AllCalm.blockEntries_succ (h : AllCalm fuel) : Calm (Outline.blockEntries (fuel + 1)) := by
  unfold Outline.blockEntries
  refine calm_peek.bind fun t => ?_
  split
  · exact calm_skip.bind fun _ => (calm_nextIs _).bind fun _ => h.part _ fun _ =>
      h.blockValue.bind fun _ => h.blockEntries.bind fun _ => .pure _
  · exact calm_skip.bind fun _ => .pure _
  · exact .fail _

theorem AllCalm.blockValue_succ (h : AllCalm fuel) : Calm (Outline.blockValue (fuel + 1)) := by
  unfold Outline.blockValue
  refine calm_peek.bind fun t => ?_
  split
  · exact calm_skip.bind fun _ => (calm_nextIs _).bind fun _ => .ite (.pure _) (h.node _)
  · exact .pure _

theorem AllCalm.flowValue_succ (h : AllCalm fuel) (ends : List Token) :
    Calm (Outline.flowValue ends (fuel + 1)) := by
  unfold Outline.flowValue
  exact (calm_nextIs _).bind fun _ => .ite (calm_skip.bind fun _ =>
    (calm_nextIs _).bind fun _ => .ite (.pure _) (h.node _)) (.pure _)

/-- A separator is read before an item that is not the first one. -/
theorem calm_separator {α : Type} {c : Prop} [Decidable c] {rest : Unit → OutlineM α}
    (hrest : Calm (rest ())) :
    Calm (if c then do
      if ← nextIs [.flowEntry] then skip >>= rest else Outline.fail .flowSeparator >>= rest
    else rest ()) := by
  refine .ite ((calm_nextIs _).bind fun _ => .ite ?_ ?_) hrest
  · exact calm_skip.bind fun _ => hrest
  · exact (Calm.fail _).bind fun _ => hrest

theorem AllCalm.flowItems_succ (h : AllCalm fuel) (first : Bool) :
    Calm (Outline.flowItems first (fuel + 1)) := by
  unfold Outline.flowItems
  refine (calm_nextIs _).bind fun _ => .ite (calm_skip.bind fun _ => .pure _) ?_
  refine calm_separator ?_
  refine calm_peek.bind fun t => ?_
  split
  · exact calm_skip.bind fun _ => (calm_nextIs _).bind fun _ => h.part _ fun _ =>
      (h.flowValue _).bind fun _ => (h.flowItems _).bind fun _ => .pure _
  · exact calm_skip.bind fun _ => .pure _
  · exact (h.node _).bind fun _ => (h.flowItems _).bind fun _ => .pure _

theorem AllCalm.flowEntries_succ (h : AllCalm fuel) (first : Bool) :
    Calm (Outline.flowEntries first (fuel + 1)) := by
  unfold Outline.flowEntries
  refine (calm_nextIs _).bind fun _ => .ite (calm_skip.bind fun _ => .pure _) ?_
  refine calm_separator ?_
  refine calm_peek.bind fun t => ?_
  split
  · exact calm_skip.bind fun _ => (calm_nextIs _).bind fun _ => h.part _ fun _ =>
      (h.flowValue _).bind fun _ => (h.flowEntries _).bind fun _ => .pure _
  · exact calm_skip.bind fun _ => .pure _
  · exact (h.node _).bind fun _ => (h.flowEntries _).bind fun _ => .pure _

end

theorem allCalm (fuel : Nat) : AllCalm fuel := by
  -- Each reader calls the others with less fuel only, so they are calm together.
  induction fuel with
  | zero =>
      constructor <;> intros <;> exact .fail _
  | succ fuel ih =>
      exact {
        node := ih.node_succ
        blockItems := ih.blockItems_succ
        indentlessItems := ih.indentlessItems_succ
        blockEntries := ih.blockEntries_succ
        blockValue := ih.blockValue_succ
        flowItems := ih.flowItems_succ
        flowValue := ih.flowValue_succ
        flowEntries := ih.flowEntries_succ }

theorem findsOnly_directives {P : BadValue → Prop} (seen : Bool) (ts : List Token)
    (handles : List (String × String)) : FindsOnly P (directives seen ts handles) := by
  fun_induction directives seen ts handles <;> simp_all

theorem calm_finish (root : Node) : Calm (finish root) :=
  Calm.get.bind fun _ => .ite (.pure _) (.fail _)

theorem Calm.run' {α : Type} {m : OutlineM α} (hm : Calm m) (o : Outline) :
    FindsOnly (fun _ => False) (m.run' o) :=
  findsOnly_map.2 (hm o)

/-- Tokens that are no document are malformed. -/
theorem findsOnly_ofTokens (ts : List Token) :
    FindsOnly (fun _ => False) (Node.ofTokens? ts) := by
  unfold Node.ofTokens?
  dsimp only
  rw [findsOnly_ite, findsOnly_ite]
  refine ⟨fun _ => (((allCalm _).node _).bind fun _ => calm_finish _).run' _,
    fun _ => ⟨fun _ => findsOnly_ok _, fun _ => ?_⟩⟩
  rw [findsOnly_bind]
  refine ⟨findsOnly_directives _ _ _, fun ⟨ts, handles⟩ _ => ?_⟩
  dsimp only
  split
  · refine Calm.run' (Calm.bind (calm_peek.bind fun t => ?_) fun _ => calm_finish _) _
    split
    · exact .pure _
    · exact .pure _
    · exact .pure _
    · exact .pure _
    · exact (allCalm _).node _
  · exact findsOnly_refuse _

end Outline

/-! ## Values -/

namespace Node

/-- The scalars in a node and their types; a mapping of the type of a scalar stands for the scalar
that is its default value. -/
inductive Holds : Node → Tag → String → Prop where
  | scalar (tag : Tag) (text : String) : Holds (.scalar tag text) tag text
  | item {tag t : Tag} {text : String} {items : List Node} {n : Node} (hmem : n ∈ items)
      (hn : n.Holds t text) : Holds (.sequence tag items) t text
  | key {tag t : Tag} {text : String} {entries : List (Node × Node)} {entry : Node × Node}
      (hmem : entry ∈ entries) (hn : entry.1.Holds t text) : Holds (.mapping tag entries) t text
  | entry {tag t : Tag} {text : String} {entries : List (Node × Node)} {entry : Node × Node}
      (hmem : entry ∈ entries) (hn : entry.2.Holds t text) : Holds (.mapping tag entries) t text
  | default {tag : Tag} {text : String} {entries : List (Node × Node)}
      (hdefault : defaultText entries = .ok text) : Holds (.mapping tag entries) tag text

/-- A scalar in a node does not hold a value of its type. -/
def HasBad (n : Node) (e : BadValue) : Prop :=
  ∃ tag text, n.Holds tag text ∧ readScalar tag text = .error (.badValue e)

def EntryHasBad (entries : List (Node × Node)) (e : BadValue) : Prop :=
  ∃ entry ∈ entries, entry.1.HasBad e ∨ entry.2.HasBad e

def ItemHasBad (items : List Node) (e : BadValue) : Prop :=
  ∃ n ∈ items, n.HasBad e

section

variable {n : Node} {items : List Node} {entries : List (Node × Node)} {e : BadValue}

theorem hasBad_of_item (tag : Tag) (h : ItemHasBad items e) : (sequence tag items).HasBad e := by
  obtain ⟨n, hmem, t, text, hn, hbad⟩ := h
  exact ⟨t, text, .item hmem hn, hbad⟩

theorem hasBad_of_entry (tag : Tag) (h : EntryHasBad entries e) :
    (mapping tag entries).HasBad e := by
  obtain ⟨entry, hmem, hkey | hvalue⟩ := h
  · obtain ⟨t, text, hn, hbad⟩ := hkey
    exact ⟨t, text, .key hmem hn, hbad⟩
  · obtain ⟨t, text, hn, hbad⟩ := hvalue
    exact ⟨t, text, .entry hmem hn, hbad⟩

theorem itemHasBad_cons : ItemHasBad (n :: items) e ↔ n.HasBad e ∨ ItemHasBad items e := by
  simp [ItemHasBad]

theorem entryHasBad_cons {k v : Node} : EntryHasBad ((k, v) :: entries) e ↔
    k.HasBad e ∨ v.HasBad e ∨ EntryHasBad entries e := by
  simp [EntryHasBad, or_assoc]

end

mutual

theorem findsOnly_scalarText {P : BadValue → Prop} (n : Node) : FindsOnly P n.scalarText :=
  match n with
  | .scalar _ _ => by simp [scalarText]
  | .mapping _ entries => by
    rw [scalarText]
    exact findsOnly_defaultText entries
  | .sequence _ _ => by simp [scalarText]
  | .enclosing _ => by simp [scalarText]

theorem findsOnly_defaultText {P : BadValue → Prop} (entries : List (Node × Node)) :
    FindsOnly P (defaultText entries) :=
  match entries with
  | [] => by simp [defaultText]
  | (k, v) :: rest => by
    rw [defaultText, findsOnly_ite]
    exact ⟨fun _ => findsOnly_scalarText v, fun _ => findsOnly_defaultText rest⟩

end

mutual

theorem findsOnly_value (n : Node) : FindsOnly n.HasBad n.value :=
  match n with
  | .enclosing _ => by simp [value]
  | .scalar tag text => fun e he => ⟨tag, text, .scalar tag text, by simpa [value] using he⟩
  | .sequence tag items => by
    have hvalues := (findsOnly_values items).mono fun e => hasBad_of_item tag
    have hpairs := (findsOnly_pairValues items).mono fun e => hasBad_of_item tag
    unfold value
    split
    · exact findsOnly_map.2 hvalues
    · exact findsOnly_map.2 hpairs
    · exact findsOnly_map.2 hpairs
    · exact findsOnly_refuse _
  | .mapping tag entries => by
    have hentries := (findsOnly_entryValues entries).mono fun e => hasBad_of_entry tag
    unfold value
    split
    · exact findsOnly_bind.2 ⟨hentries, fun _ _ => findsOnly_ok _⟩
    · exact findsOnly_bind.2 ⟨hentries, fun _ _ => findsOnly_ok _⟩
    · rw [findsOnly_ite]
      refine ⟨fun _ => findsOnly_bind.2 ⟨findsOnly_defaultText entries, fun text htext e he => ?_⟩,
        fun _ => findsOnly_refuse _⟩
      exact ⟨tag, text, .default htext, he⟩

theorem findsOnly_values (items : List Node) : FindsOnly (ItemHasBad items) (values items) :=
  match items with
  | [] => by simp [values]
  | n :: items => by
    have hn : FindsOnly (ItemHasBad (n :: items)) n.value :=
      (findsOnly_value n).mono fun e he => itemHasBad_cons.2 (.inl he)
    have hrest : FindsOnly (ItemHasBad (n :: items)) (values items) :=
      (findsOnly_values items).mono fun e he => itemHasBad_cons.2 (.inr he)
    rw [values]
    exact findsOnly_bind.2 ⟨hn, fun _ _ => findsOnly_bind.2 ⟨hrest, fun _ _ => findsOnly_ok _⟩⟩

theorem findsOnly_pairValues (items : List Node) :
    FindsOnly (ItemHasBad items) (pairValues items) :=
  match items with
  | [] => by simp [pairValues]
  | .mapping tag [(k, v)] :: items => by
    have hpair : ∀ e, k.HasBad e ∨ v.HasBad e →
        ItemHasBad (mapping tag [(k, v)] :: items) e := fun e he =>
      itemHasBad_cons.2 (.inl (hasBad_of_entry tag (entryHasBad_cons.2 (he.imp_right .inl))))
    have hk := (findsOnly_value k).mono fun e he => hpair e (.inl he)
    have hv := (findsOnly_value v).mono fun e he => hpair e (.inr he)
    have hrest : FindsOnly (ItemHasBad (mapping tag [(k, v)] :: items)) (pairValues items) :=
      (findsOnly_pairValues items).mono fun e he => itemHasBad_cons.2 (.inr he)
    rw [pairValues]
    exact findsOnly_bind.2 ⟨hk, fun _ _ => findsOnly_bind.2 ⟨hv, fun _ _ =>
      findsOnly_bind.2 ⟨hrest, fun _ _ => findsOnly_ok _⟩⟩⟩
  | .scalar _ _ :: _ => by simp [pairValues]
  | .sequence _ _ :: _ => by simp [pairValues]
  | .enclosing _ :: _ => by simp [pairValues]
  | .mapping _ [] :: _ => by simp [pairValues]
  | .mapping _ (_ :: _ :: _) :: _ => by simp [pairValues]

theorem findsOnly_entryValues (entries : List (Node × Node)) :
    FindsOnly (EntryHasBad entries) (entryValues entries) :=
  match entries with
  | [] => by simp [entryValues]
  | (k, v) :: entries => by
    have hk : FindsOnly (EntryHasBad ((k, v) :: entries)) k.value :=
      (findsOnly_value k).mono fun e he => entryHasBad_cons.2 (.inl he)
    have hv : FindsOnly (EntryHasBad ((k, v) :: entries)) v.value :=
      (findsOnly_value v).mono fun e he => entryHasBad_cons.2 (.inr (.inl he))
    have hmerged : FindsOnly (EntryHasBad ((k, v) :: entries)) v.mergedValues :=
      (findsOnly_mergedValues v).mono fun e he => entryHasBad_cons.2 (.inr (.inl he))
    have hrest : FindsOnly (EntryHasBad ((k, v) :: entries)) (entryValues entries) :=
      (findsOnly_entryValues entries).mono fun e he => entryHasBad_cons.2 (.inr (.inr he))
    rw [entryValues, findsOnly_ite]
    constructor
    · intro _
      exact findsOnly_bind.2 ⟨hmerged, fun _ _ =>
        findsOnly_bind.2 ⟨hrest, fun _ _ => findsOnly_ok _⟩⟩
    · intro _
      -- The key of a default value is a text whatever its type, so that nothing in it is bad.
      have hown (key : Value) : FindsOnly (EntryHasBad ((k, v) :: entries))
          (if !key.isKey then refuse .keyKind
          else do
            let v ← v.value
            let (merged, own) ← entryValues entries
            .ok (merged, (key, v) :: own)) :=
        findsOnly_ite.2 ⟨fun _ => findsOnly_refuse _, fun _ => findsOnly_bind.2 ⟨hv, fun _ _ =>
          findsOnly_bind.2 ⟨hrest, fun _ _ => findsOnly_ok _⟩⟩⟩
      exact findsOnly_ite.2 ⟨
        fun _ => findsOnly_bind.2 ⟨findsOnly_map.2 (findsOnly_scalarText k), fun key _ => hown key⟩,
        fun _ => findsOnly_bind.2 ⟨hk, fun key _ => hown key⟩⟩

theorem findsOnly_mergedValues (n : Node) : FindsOnly n.HasBad n.mergedValues :=
  match n with
  | .mapping tag entries => by
    have hentries := (findsOnly_entryValues entries).mono fun e => hasBad_of_entry tag
    rw [mergedValues]
    exact findsOnly_bind.2 ⟨hentries, fun _ _ => findsOnly_ok _⟩
  | .sequence tag items => by
    rw [mergedValues]
    exact (findsOnly_mergedAll items).mono fun e => hasBad_of_item tag
  | .enclosing _ => by simp [mergedValues]
  | .scalar _ _ => by simp [mergedValues]

theorem findsOnly_mergedAll (items : List Node) :
    FindsOnly (ItemHasBad items) (mergedAll items) :=
  match items with
  | [] => by simp [mergedAll]
  | .mapping tag entries :: items => by
    have hentries : FindsOnly (ItemHasBad (mapping tag entries :: items)) (entryValues entries) :=
      (findsOnly_entryValues entries).mono fun e he =>
        itemHasBad_cons.2 (.inl (hasBad_of_entry tag he))
    have hrest : FindsOnly (ItemHasBad (mapping tag entries :: items)) (mergedAll items) :=
      (findsOnly_mergedAll items).mono fun e he => itemHasBad_cons.2 (.inr he)
    rw [mergedAll]
    exact findsOnly_bind.2 ⟨hentries, fun _ _ =>
      findsOnly_bind.2 ⟨hrest, fun _ _ => findsOnly_ok _⟩⟩
  | .enclosing _ :: _ => by simp [mergedAll]
  | .scalar _ _ :: _ => by simp [mergedAll]
  | .sequence _ _ :: _ => by simp [mergedAll]

end
end Node

/-! ## Texts -/

/-- The types whose scalars can hold no value of their type. -/
def Tag.CanBeBad (tag : Tag) : Prop :=
  tag = .bool ∨ tag = .int ∨ tag = .float ∨ tag = .timestamp

theorem canBeBad_of_readScalar {tag : Tag} {text : String} {e : BadValue}
    (hread : readScalar tag text = .error (.badValue e)) : tag.CanBeBad := by
  cases tag with
  | bool => exact .inl rfl
  | int => exact .inr (.inl rfl)
  | float => exact .inr (.inr (.inl rfl))
  | timestamp => exact .inr (.inr (.inr rfl))
  | binary =>
      unfold readScalar readBinary at hread
      dsimp only at hread
      split at hread
      · split at hread <;> cases hread
      · cases hread
  | _ => cases hread

/-- What makes a text bad in a value. -/
inductive BadIn (cs : List Char) : BadValue → Prop where
  | escape (htokens : tokens cs = .error (.badValue .codePoint)) : BadIn cs .codePoint
  | scalar {ts : List Token} {root : Node} {tag : Tag} {text : String} {e : BadValue}
      (htokens : tokens cs = .ok ts) (hroot : Node.ofTokens? ts = .ok (some root))
      (hholds : root.Holds tag text) (htag : tag.CanBeBad)
      (hbad : readScalar tag text = .error (.badValue e)) : BadIn cs e

theorem findsOnly_read (cs : List Char) : FindsOnly (BadIn cs) (read cs) := by
  rw [read, findsOnly_bind]
  constructor
  · intro e he
    obtain rfl := findsOnly_tokens cs e he
    exact .escape he
  · intro ts hts
    rw [findsOnly_bind]
    refine ⟨(Outline.findsOnly_ofTokens ts).mono fun _ => False.elim, fun root hroot => ?_⟩
    cases root with
    | none => exact findsOnly_ok _
    | some root =>
        refine (Node.findsOnly_value root).mono fun e => ?_
        rintro ⟨tag, text, hholds, hbad⟩
        exact .scalar hts hroot hholds (canBeBad_of_readScalar hbad) hbad

end JitLens.Yaml
