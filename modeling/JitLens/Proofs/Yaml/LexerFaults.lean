import JitLens.Yaml.Lexer
/-!
# Bad values in the tokens of a text

A text that cannot be cut into tokens is malformed, but for one case: an escape between double
quotes may ask for a character that there is not.
-/

namespace JitLens.Yaml

/-- A reading that finds no other bad values than some. -/
def FindsOnly {α : Type} (P : BadValue → Prop) (r : Read α) : Prop :=
  ∀ e, r = .error (.badValue e) → P e

section

variable {α β : Type} {P Q : BadValue → Prop} {r : Read α}

theorem FindsOnly.mono (h : FindsOnly P r) (hPQ : ∀ e, P e → Q e) : FindsOnly Q r :=
  fun e he => hPQ e (h e he)

@[simp] theorem findsOnly_ok (a : α) : FindsOnly P (.ok a : Read α) := by
  rintro e ⟨⟩

@[simp] theorem findsOnly_refuse (fault : Fault) : FindsOnly P (refuse fault : Read α) := by
  rintro e ⟨⟩

@[simp] theorem findsOnly_badValue {e : BadValue} :
    FindsOnly P (.error (.badValue e) : Read α) ↔ P e := by
  constructor
  · exact fun h => h e rfl
  · rintro he _ ⟨⟩
    exact he

@[simp] theorem findsOnly_map {f : α → β} : FindsOnly P (r.map f) ↔ FindsOnly P r := by
  cases r with
  | ok a => simp [Except.map]
  | error e => cases e <;> simp [Except.map, FindsOnly]

@[simp] theorem findsOnly_bind {f : α → Read β} :
    FindsOnly P (r >>= f) ↔ FindsOnly P r ∧ ∀ a, r = .ok a → FindsOnly P (f a) := by
  cases r with
  | ok a => simp [bind, Except.bind]
  | error e => cases e <;> simp [bind, Except.bind, FindsOnly]

@[simp] theorem findsOnly_emit {cs : List Char} {r : Read (List Char × List Char)} :
    FindsOnly P (emit cs r) ↔ FindsOnly P r := by
  cases r with
  | ok a => simp [emit]
  | error e => simp [emit, FindsOnly]

@[simp] theorem findsOnly_ite {c : Prop} [Decidable c] {r s : Read α} :
    FindsOnly P (if c then r else s) ↔ (c → FindsOnly P r) ∧ (¬ c → FindsOnly P s) := by
  split <;> simp_all

end

/-- A character that there is not. -/
def IsCodePoint (e : BadValue) : Prop :=
  e = .codePoint

/-! ## Scalars -/

section

variable {P : BadValue → Prop}

@[simp] theorem findsOnly_singleQuoted (gap : Gap) (cs : List Char) :
    FindsOnly P (singleQuoted gap cs) := by
  fun_induction singleQuoted gap cs <;> simp_all

theorem findsOnly_readEscape (cs : List Char) : FindsOnly IsCodePoint (readEscape cs) := by
  unfold readEscape
  split
  · simp
  · split
    · simp
    · split
      · simp
      · dsimp only
        split
        · simp
        · simp [charOfCode, IsCodePoint]

@[simp] theorem findsOnly_doubleQuoted (gap : Gap) (skip : Nat) (cs : List Char) :
    FindsOnly IsCodePoint (doubleQuoted gap skip cs) := by
  fun_induction doubleQuoted gap skip cs with
  | case7 gap cs e hbreak hescape =>
      -- The fault of an escape is passed on, as one of a text and not of a character.
      have hfinds := findsOnly_readEscape cs
      rw [hescape] at hfinds
      exact fun b hb => hfinds b (congrArg Except.error (Except.error.inj hb))
  | _ => simp_all

@[simp] theorem findsOnly_blockHeader (cs : List Char) : FindsOnly P (blockHeader cs) := by
  unfold blockHeader
  dsimp only
  split
  · simp
  · split <;> simp

@[simp] theorem findsOnly_blockScalar (folded : Bool) (outer : Nat) (cs : List Char) :
    FindsOnly P (blockScalar folded outer cs) := by
  simp [blockScalar]

end

/-! ## Small pieces -/

section

variable {P : BadValue → Prop}

@[simp] theorem findsOnly_anchorName (cs : List Char) : FindsOnly P (anchorName cs) := by
  simp [anchorName]

@[simp] theorem findsOnly_tagText (fuel : Nat) (cs : List Char) :
    FindsOnly P (tagText fuel cs) := by
  fun_induction tagText fuel cs <;> simp_all

@[simp] theorem findsOnly_tagSuffix (cs : List Char) : FindsOnly P (tagSuffix cs) := by
  simp [tagSuffix]

@[simp] theorem findsOnly_tagHandle (cs : List Char) : FindsOnly P (tagHandle cs) := by
  unfold tagHandle
  dsimp only
  split
  · split
    · simp
    · split <;> simp
  · simp

@[simp] theorem findsOnly_readTag (cs : List Char) : FindsOnly P (readTag cs) := by
  unfold readTag
  rw [findsOnly_bind]
  refine ⟨?_, by simp⟩
  split
  · rw [findsOnly_bind]
    refine ⟨findsOnly_tagSuffix _, fun _ _ => ?_⟩
    dsimp only
    split <;> simp
  · simp

@[simp] theorem findsOnly_readVersion (cs : List Char) : FindsOnly P (readVersion cs) := by
  unfold readVersion
  dsimp only
  split <;> simp

@[simp] theorem findsOnly_readTagDirective (cs : List Char) :
    FindsOnly P (readTagDirective cs) := by
  rw [readTagDirective, findsOnly_bind]
  refine ⟨findsOnly_tagHandle _, fun _ _ => ?_⟩
  dsimp only
  split <;> simp

@[simp] theorem findsOnly_readDirective (cs : List Char) : FindsOnly P (readDirective cs) := by
  simp only [readDirective, findsOnly_ite, findsOnly_bind, findsOnly_refuse, findsOnly_readVersion,
    findsOnly_readTagDirective, findsOnly_ok, implies_true, true_and]
  intro _ _ _
  split <;> simp

end

/-! ## The whole text -/

namespace Lexer

section

variable {P : BadValue → Prop} {l : Lexer}

@[simp] theorem findsOnly_dropKey (k : Option PendingKey) : FindsOnly P (dropKey k) := by
  cases k <;> simp [dropKey]

@[simp] theorem findsOnly_dropStale : FindsOnly P l.dropStale := by
  simp [dropStale]

@[simp] theorem findsOnly_removeKey : FindsOnly P l.removeKey := by
  simp [removeKey]

@[simp] theorem findsOnly_saveKey : FindsOnly P l.saveKey := by
  simp [saveKey]

@[simp] theorem findsOnly_directive (cs : List Char) : FindsOnly P (l.directive cs) := by
  simp [directive]

@[simp] theorem findsOnly_marker (t : Token) : FindsOnly P (l.marker t) := by
  simp [marker]

@[simp] theorem findsOnly_flowStart (t : Token) : FindsOnly P (l.flowStart t) := by
  simp [flowStart]

@[simp] theorem findsOnly_flowEnd (t : Token) : FindsOnly P (l.flowEnd t) := by
  simp [flowEnd]

@[simp] theorem findsOnly_flowEntry : FindsOnly P l.flowEntry := by
  simp [flowEntry]

@[simp] theorem findsOnly_blockEntry : FindsOnly P l.blockEntry := by
  simp [blockEntry]

@[simp] theorem findsOnly_explicitKey : FindsOnly P l.explicitKey := by
  simp [explicitKey]

@[simp] theorem findsOnly_colon : FindsOnly P l.colon := by
  unfold colon
  split <;> simp

@[simp] theorem findsOnly_quotedToken {read : List Char → Read (List Char × List Char)}
    {cs : List Char} : FindsOnly P (quotedToken read cs) ↔ FindsOnly P (read cs) := by
  simp [quotedToken]

@[simp] theorem findsOnly_keyable {read : List Char → Read (Token × List Char)} {cs : List Char}
    (hread : FindsOnly P (read cs)) : FindsOnly P (l.keyable read cs) := by
  simp [keyable, hread]

@[simp] theorem findsOnly_block (folded : Bool) (cs : List Char) : FindsOnly P (l.block folded cs) := by
  simp [block]

@[simp] theorem findsOnly_plain : FindsOnly P l.plain := by
  simp [plain]

end

theorem findsOnly_readToken (l : Lexer) (c : Char) (cs : List Char) :
    FindsOnly IsCodePoint (l.readToken c cs) := by
  simp [readToken]

theorem findsOnly_step (l : Lexer) : FindsOnly IsCodePoint l.step := by
  rw [step, findsOnly_bind]
  refine ⟨findsOnly_dropStale, fun l' _ => ?_⟩
  dsimp only
  split
  · simp
  · simp [findsOnly_readToken]

theorem findsOnly_run (fuel : Nat) (l : Lexer) : FindsOnly IsCodePoint (run fuel l) := by
  induction fuel generalizing l with
  | zero => exact findsOnly_refuse _
  | succ fuel ih =>
      rw [run, findsOnly_bind]
      refine ⟨findsOnly_step l, fun ⟨l', done⟩ _ => ?_⟩
      simp [ih]

end Lexer

/-- A text that cannot be cut into tokens is malformed, or has the escape of a character that there
is not. -/
theorem findsOnly_tokens (cs : List Char) : FindsOnly IsCodePoint (tokens cs) := by
  simp [tokens, Lexer.findsOnly_run]

end JitLens.Yaml
