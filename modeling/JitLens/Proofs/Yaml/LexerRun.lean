import JitLens.Proofs.Yaml.LexerEntry
/-!
# Tokens of a written mapping

A written mapping is cut into its keys and values, entry by entry.
-/

namespace JitLens.Yaml.Lexer

open Printer

/-- The tokens of an entry. -/
def entryTokens (e : String × Leaf) : List Token :=
  [.key, .scalar e.1 true, .value, leafToken e.2]

theorem run_step {l m : Lexer} (fuel : Nat) (hstep : l.step = .ok (m, false)) :
    run (fuel + 1) l = run fuel m := by
  simp [run, hstep, bind, Except.bind]

/-- The lexer takes three steps for an entry. -/
theorem exists_run_entry {l : Lexer} {index line : Nat} {indents : List Nat}
    {tokens : List Token} {name : String} {tail : List Char} (leaf : Leaf) (hname : KeyName name)
    (hindents : IsOpening indents) (htail : LineStart tail)
    (htoken : l.toToken = atLine index line indents tokens (entry name leaf ++ tail)) :
    ∃ m index' line', (∀ fuel, run (fuel + 3) l = run fuel m) ∧
      m.toToken = atLine index' line' [0]
        (leafToken leaf :: .value :: .scalar name true :: (openingTokens indents ++ tokens))
        tail := by
  obtain ⟨value, hvalue⟩ : ∃ value, scalar (name.toList.length + 1) leaf = ' ' :: value := by
    unfold scalar
    split
    · exact ⟨_, rfl⟩
    · split <;> exact ⟨_, rfl⟩
    · dsimp only
      split
      · exact ⟨_, rfl⟩
      · split <;> exact ⟨_, rfl⟩
  have htext : entry name leaf ++ tail = name.toList ++ ':' :: ' ' :: (value ++ '\n' :: tail) := by
    simp [entry, hvalue]
  rw [htext] at htoken
  obtain ⟨m, i, n, hstep, hnext⟩ := exists_step_scalar
    (index + name.toList.length + 1) line (name.toList.length + 1)
    (.value :: .scalar name true :: (openingTokens indents ++ tokens)) leaf
    (name.toList.length + 1) htail
  rw [hvalue, List.cons_append] at hstep
  refine ⟨m, i, n, fun fuel => ?_, hnext⟩
  rw [run_step _ (step_name hname hindents htoken), run_step _ (step_colon hname hindents),
    run_step _ hstep]

/-- At the end of the text the block is closed. -/
theorem exists_run_end {l : Lexer} {index line : Nat} {tokens : List Token} (fuel : Nat)
    (htoken : l.toToken = atLine index line [0] tokens []) :
    ∃ m, run (fuel + 1) l = .ok m ∧ m.tokens = .blockEnd :: tokens := by
  refine ⟨{ atLine index line [] (.blockEnd :: tokens) [] with keys := [none] }, ?_, rfl⟩
  simp only [run, step, htoken]
  rfl

theorem lineStart_write {es : List (String × Leaf)} (hnames : ∀ e ∈ es, KeyName e.1) :
    LineStart (write es) := by
  cases es with
  | nil => simp [LineStart, write]
  | cons e es =>
      have hname := hnames e (by simp)
      obtain ⟨c, cs, hcons⟩ := List.exists_cons_of_ne_nil hname.ne_nil
      intro d hd
      have hdc : c = d := by simpa [write, entry, hcons] using hd
      exact hdc ▸ hname.chars c (by simp [hcons])

theorem exists_run_write {l : Lexer} {index line : Nat} {tokens : List Token}
    {es : List (String × Leaf)} {fuel : Nat} (hnames : ∀ e ∈ es, KeyName e.1)
    (hfuel : 3 * es.length + 1 ≤ fuel)
    (htoken : l.toToken = atLine index line [0] tokens (write es)) :
    ∃ m, run fuel l = .ok m ∧
      m.tokens = .blockEnd :: ((es.flatMap entryTokens).reverse ++ tokens) := by
  -- Every entry takes three steps, and the end of the block one more.
  induction es generalizing l index line tokens fuel with
  | nil =>
      obtain ⟨fuel, rfl⟩ := Nat.exists_eq_add_of_le hfuel
      rw [show 3 * [].length + 1 + fuel = fuel + 1 by simp; omega]
      exact exists_run_end fuel htoken
  | cons e es ih =>
      have hnames' : ∀ e ∈ es, KeyName e.1 := fun e he => hnames e (by simp [he])
      have hwrite : write (e :: es) = entry e.1 e.2 ++ write es := by simp [write]
      rw [hwrite] at htoken
      obtain ⟨m, i, n, hrun, hnext⟩ := exists_run_entry e.2 (hnames e (by simp)) (.inr rfl)
        (lineStart_write hnames') htoken
      obtain ⟨fuel, rfl⟩ := Nat.exists_eq_add_of_le hfuel
      rw [List.length_cons, show 3 * (es.length + 1) + 1 + fuel = (3 * es.length + 1 + fuel) + 3 by
        omega, hrun]
      have hfuel' : 3 * es.length + 1 ≤ 3 * es.length + 1 + fuel := by omega
      obtain ⟨m', hend, htokens⟩ := ih hnames' hfuel' hnext
      exact ⟨m', hend, by rw [htokens]; simp [entryTokens, openingTokens]⟩

end JitLens.Yaml.Lexer
