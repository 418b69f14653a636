import JitLens.Yaml.Document
import JitLens.Proofs.Yaml.LexerRun
import JitLens.Proofs.Yaml.WrittenText
/-!
# Mappings read back

A mapping from names to nothing, truth values and texts is read back as it was written, whatever
its texts are: they may be long, hold any characters, or look like other values.
-/

namespace JitLens.Yaml

open Printer Lexer

/-! ## Tokens -/

theorem allWritten_write {es : List (String × Leaf)} (hnames : ∀ e ∈ es, KeyName e.1) :
    AllWritten (write es) := by
  have hcolon : IsWritten ':' := .inr (by decide)
  induction es with
  | nil => exact allWritten_nil
  | cons e es ih =>
      have hname := hnames e (by simp)
      have hkey : AllWritten e.1.toList :=
        allWritten_of_plain fun c hc => (isPlainChar_of_isKeyChar (hname.chars c hc)).1
      have hentry : AllWritten (entry e.1 e.2) := by
        simp [entry, hkey, hcolon, allWritten_scalar]
      have hrest := ih fun e he => hnames e (by simp [he])
      rw [show write (e :: es) = entry e.1 e.2 ++ write es by simp [write]]
      exact (allWritten_append _ _).2 ⟨hentry, hrest⟩

theorem length_le_length_write (es : List (String × Leaf)) :
    3 * es.length ≤ (write es).length := by
  induction es with
  | nil => simp
  | cons e es ih =>
      have hscalar : 1 ≤ (scalar (e.1.toList.length + 1) e.2).length := by
        unfold scalar
        split
        · decide
        · split <;> decide
        · dsimp only
          split
          · simp
          · split <;> simp
      simp only [write, List.flatMap_cons, List.length_append, List.length_cons, entry] at ih ⊢
      omega

/-- The tokens of a written mapping. -/
theorem tokens_write {es : List (String × Leaf)} (hne : es ≠ [])
    (hnames : ∀ e ∈ es, KeyName e.1) :
    tokens (write es) = .ok (.blockMappingStart :: es.flatMap entryTokens ++ [.blockEnd]) := by
  have hwritten := allWritten_write hnames
  have hallowed : (write es).all isAllowed = true :=
    List.all_eq_true.2 fun c hc => isAllowed_of_isWritten (hwritten c hc)
  obtain ⟨e, es, rfl⟩ := List.exists_cons_of_ne_nil hne
  have hnames' : ∀ e ∈ es, KeyName e.1 := fun e he => hnames e (by simp [he])
  have hsplit : write (e :: es) = entry e.1 e.2 ++ write es := by simp [write]
  have hstart : ({ rest := write (e :: es) } : Lexer).toToken =
      atLine 0 0 [] [] (entry e.1 e.2 ++ write es) := by
    rw [← hsplit]
    exact toToken_atLine (lineStart_write hnames)
  obtain ⟨l, i, n, hrun, hnext⟩ := exists_run_entry e.2 (hnames e (by simp)) (.inl rfl)
    (lineStart_write hnames') hstart
  have hlength := length_le_length_write (e :: es)
  rw [List.length_cons] at hlength
  obtain ⟨fuel, hfuel⟩ := Nat.exists_eq_add_of_le
    (show 3 * es.length + 1 + 3 ≤ (write (e :: es)).length + 2 by omega)
  have hfuel' : 3 * es.length + 1 ≤ 3 * es.length + 1 + fuel := by omega
  obtain ⟨m, hend, htokens⟩ := exists_run_write hnames' hfuel' hnext
  have hwhole : run ((write (e :: es)).length + 2) { rest := write (e :: es) } = .ok m := by
    rw [hfuel, show 3 * es.length + 1 + 3 + fuel = 3 * es.length + 1 + fuel + 3 by omega, hrun,
      hend]
  simp only [tokens, hallowed, unifyBreaks_eq_self hwritten, hwhole]
  simp [bind, Except.bind, htokens, entryTokens, openingTokens]

/-! ## Nodes -/

/-- The node of a value. -/
def leafNode : Leaf → Node
  | .null => .scalar .null "null"
  | .bool true => .scalar .bool "true"
  | .bool false => .scalar .bool "false"
  | .text s => .scalar .text s

theorem node_scalar (place : Outline.Place) (fuel : Nat) (text : String) (plain : Bool)
    (ts : List Token) (handles : List (String × String)) :
    (Outline.node place (fuel + 1)).run
        { tokens := .scalar text plain :: ts, handles := handles } =
      .ok (.scalar (Outline.scalarTag plain text none) text,
        { tokens := ts, handles := handles }) := by
  rfl

theorem node_leafToken (place : Outline.Place) (fuel : Nat) (leaf : Leaf)
    (ts : List Token) (handles : List (String × String)) :
    (Outline.node place (fuel + 1)).run { tokens := leafToken leaf :: ts, handles := handles } =
      .ok (leafNode leaf, { tokens := ts, handles := handles }) := by
  cases leaf with
  | null => rfl
  | bool b => cases b <;> rfl
  | text s =>
      rw [leafToken, node_scalar, leafNode]
      have htag : Outline.scalarTag (isPlain s) s none = .text := by
        cases hplain : isPlain s with
        | false => rfl
        | true =>
            simp only [isPlain, Bool.and_eq_true, beq_iff_eq] at hplain
            exact hplain.1.1.1.1.1.1
      rw [htag]

theorem leafToken_eq_scalar (leaf : Leaf) :
    ∃ text plain, leafToken leaf = .scalar text plain := by
  cases leaf with
  | null => exact ⟨_, _, rfl⟩
  | bool b => cases b <;> exact ⟨_, _, rfl⟩
  | text s => exact ⟨_, _, rfl⟩

theorem blockValue_leafToken (fuel : Nat) (leaf : Leaf) (ts : List Token)
    (handles : List (String × String)) :
    (Outline.blockValue (fuel + 2)).run
        { tokens := .value :: leafToken leaf :: ts, handles := handles } =
      .ok (leafNode leaf, { tokens := ts, handles := handles }) := by
  rw [← node_leafToken .blockValue fuel leaf ts handles]
  obtain ⟨text, plain, hleaf⟩ := leafToken_eq_scalar leaf
  rw [hleaf]
  rfl

/-- The nodes of an entry. -/
def entryNodes (e : String × Leaf) : Node × Node :=
  (.scalar .text e.1, leafNode e.2)

theorem blockEntries_cons {e : String × Leaf} (hname : KeyName e.1) (fuel : Nat)
    (ts : List Token) (handles : List (String × String)) :
    (Outline.blockEntries (fuel + 3)).run
        { tokens := entryTokens e ++ ts, handles := handles } =
      (do
        let (nodes, o) ← (Outline.blockEntries (fuel + 2)).run
          { tokens := ts, handles := handles }
        .ok (entryNodes e :: nodes, o)) := by
  have hkey : (Outline.node .blockValue (fuel + 2)).run
      { tokens := .scalar e.1 true :: .value :: leafToken e.2 :: ts, handles := handles } =
      .ok (.scalar .text e.1, { tokens := .value :: leafToken e.2 :: ts, handles := handles }) := by
    rw [node_scalar, Outline.scalarTag, if_pos rfl, hname.isText]
  have hvalue := blockValue_leafToken fuel e.2 ts handles
  rw [Outline.blockEntries]
  change (do
    let (k, o) ← (Outline.node .blockValue (fuel + 2)).run
      { tokens := .scalar e.1 true :: .value :: leafToken e.2 :: ts, handles := handles }
    let (v, o) ← (Outline.blockValue (fuel + 2)).run o
    let (nodes, o) ← (Outline.blockEntries (fuel + 2)).run o
    .ok ((k, v) :: nodes, o)) = _
  rw [hkey]
  change (do
    let (v, o) ← (Outline.blockValue (fuel + 2)).run
      { tokens := .value :: leafToken e.2 :: ts, handles := handles }
    let (nodes, o) ← (Outline.blockEntries (fuel + 2)).run o
    .ok ((_, v) :: nodes, o)) = _
  rw [hvalue]
  rfl

theorem blockEntries_entryTokens {es : List (String × Leaf)} (hnames : ∀ e ∈ es, KeyName e.1)
    (fuel : Nat) (ts : List Token) (handles : List (String × String)) :
    (Outline.blockEntries (es.length + fuel + 3)).run
        { tokens := es.flatMap entryTokens ++ .blockEnd :: ts, handles := handles } =
      .ok (es.map entryNodes, { tokens := ts, handles := handles }) := by
  induction es with
  | nil => rfl
  | cons e es ih =>
      have hrest := ih fun e he => hnames e (by simp [he])
      rw [List.flatMap_cons, List.append_assoc,
        show (e :: es).length + fuel + 3 = (es.length + fuel + 1) + 3 by simp; omega,
        blockEntries_cons (hnames e (by simp)),
        show es.length + fuel + 1 + 2 = es.length + fuel + 3 by omega, hrest]
      rfl

theorem length_entryTokens (es : List (String × Leaf)) :
    (es.flatMap entryTokens).length = 4 * es.length := by
  induction es with
  | nil => rfl
  | cons e es ih =>
      rw [List.flatMap_cons, List.length_append, ih, List.length_cons]
      simp only [entryTokens, List.length_cons, List.length_nil]
      omega

theorem node_blockMapping {fuel : Nat} {ts : List Token} {handles : List (String × String)}
    {nodes : List (Node × Node)} {o : Outline}
    (hentries : (Outline.blockEntries fuel).run { tokens := ts, handles := handles } =
      .ok (nodes, o)) :
    (Outline.node .block (fuel + 1)).run
        { tokens := .blockMappingStart :: ts, handles := handles } =
      .ok (.mapping .mapping nodes, o) := by
  change (do
    let (n, o) ← (do
      let (nodes, o) ← (Outline.blockEntries fuel).run { tokens := ts, handles := handles }
      Except.ok (Node.mapping .mapping nodes, o))
    .ok (n, o)) = _
  rw [hentries]
  rfl

theorem ofTokens_entryTokens {es : List (String × Leaf)} (hnames : ∀ e ∈ es, KeyName e.1) :
    Node.ofTokens? (.blockMappingStart :: es.flatMap entryTokens ++ [.blockEnd]) =
      .ok (some (.mapping .mapping (es.map entryNodes))) := by
  obtain ⟨fuel, hfuel⟩ := Nat.exists_eq_add_of_le (show es.length + 4 ≤
      4 * (.blockMappingStart :: es.flatMap entryTokens ++ [Token.blockEnd]).length + 8 by
    simp only [List.cons_append, List.length_cons, List.length_append, length_entryTokens]
    omega)
  have hnode : (Outline.node .block (es.length + 4 + fuel)).run
      { tokens := .blockMappingStart :: es.flatMap entryTokens ++ [.blockEnd]
        handles := Outline.standardHandles } =
      .ok (.mapping .mapping (es.map entryNodes),
        { tokens := [], handles := Outline.standardHandles }) := by
    rw [show es.length + 4 + fuel = (es.length + fuel + 3) + 1 by omega]
    exact node_blockMapping (blockEntries_entryTokens hnames fuel [] _)
  unfold Node.ofTokens?
  rw [hfuel]
  dsimp only [List.cons_append]
  change StateT.run' (do Outline.finish (← Outline.node .block (es.length + 4 + fuel)))
    { tokens := .blockMappingStart :: es.flatMap entryTokens ++ [Token.blockEnd]
      handles := Outline.standardHandles } = _
  rw [StateT.run'_eq, StateT.run_bind, hnode]
  rfl

/-! ## Values -/

/-- The value of a mapping from names. -/
def entryValue (e : String × Leaf) : Value × Value :=
  (.text e.1, e.2.toValue)

theorem value_leafNode (leaf : Leaf) : (leafNode leaf).value = .ok leaf.toValue := by
  cases leaf with
  | null => rfl
  | bool b => cases b <;> rfl
  | text s => rfl

theorem entryValues_entryNodes (es : List (String × Leaf)) :
    Node.entryValues (es.map entryNodes) = .ok ([], es.map entryValue) := by
  induction es with
  | nil => rfl
  | cons e es ih =>
      rw [List.map_cons, entryNodes, Node.entryValues, value_leafNode, ih]
      rfl

theorem putEntry_new {es : List (String × Leaf)} {e : String × Leaf}
    (hnew : e.1 ∉ es.map Prod.fst) :
    Value.putEntry (es.map entryValue) (.text e.1) e.2.toValue =
      (es ++ [e]).map entryValue := by
  induction es with
  | nil => rfl
  | cons d es ih =>
      simp only [List.map_cons, List.mem_cons, not_or] at hnew
      have hsame : Value.sameKey (.text d.1) (.text e.1) = false := by
        simpa [Value.sameKey] using Ne.symm hnew.1
      have hrest := ih hnew.2
      simp only [Value.putEntry, List.map_cons, entryValue, List.cons_append, putBy] at hrest ⊢
      rw [hsame, if_neg Bool.false_ne_true, hrest]

theorem foldl_putEntry (es done : List (String × Leaf))
    (hnodup : ((done ++ es).map Prod.fst).Nodup) :
    (es.map entryValue).foldl (fun es (k, v) => Value.putEntry es k v) (done.map entryValue) =
      (done ++ es).map entryValue := by
  induction es generalizing done with
  | nil => simp
  | cons e es ih =>
      have hnew : e.1 ∉ done.map Prod.fst := by
        rw [List.map_append, List.map_cons] at hnodup
        have hdisjoint := (List.nodup_append.1 hnodup).2.2
        intro hmem
        exact hdisjoint _ hmem _ (by simp) rfl
      have hstep : (done ++ [e]) ++ es = done ++ e :: es := by simp
      rw [List.map_cons, List.foldl_cons]
      change (es.map entryValue).foldl _ (Value.putEntry _ (.text e.1) e.2.toValue) = _
      rw [putEntry_new hnew, ih _ (by rwa [hstep]), hstep]

/-- A written mapping is read back. -/
theorem read_write {es : List (String × Leaf)} (hne : es ≠ [])
    (hnames : ∀ e ∈ es, KeyName e.1) (hnodup : (es.map Prod.fst).Nodup) :
    read (write es) = .ok (.map (es.map entryValue)) := by
  have hvalue : (Node.mapping .mapping (es.map entryNodes)).value =
      .ok (.map (es.map entryValue)) := by
    have hfold := foldl_putEntry es [] (by simpa using hnodup)
    rw [Node.value, entryValues_entryNodes]
    exact congrArg (fun entries => Except.ok (Value.map entries)) hfold
  have htokens := tokens_write hne hnames
  have hnode := ofTokens_entryTokens hnames
  simp only [read, htokens, bind, Except.bind, hnode, hvalue]

end JitLens.Yaml
