import JitLens.CommandLine.Arguments
import Mathlib.Data.List.Basic
/-!
# Reading what was chosen

A user who chooses some options writes down a spelling of each, with the value that goes with it,
around the project and the symbol.  Such a command line is read as it was meant.
-/

namespace JitLens.CommandLine

/-- A text that can stand on a command line as it is. -/
def Plain (s : String) : Prop :=
  s.toList.head? ≠ some '-'

instance (s : String) : Decidable (Plain s) :=
  inferInstanceAs (Decidable (s.toList.head? ≠ some '-'))

theorem Plain.word {s : String} (hs : Plain s) : Word.of s = .ok (.plain s) := by
  unfold Word.of
  split
  · next hdash => simp [Plain, hdash] at hs
  · rfl

theorem Plain.ne_dashes {s : String} (hs : Plain s) : s ≠ "--" := by
  rintro rfl
  simp [Plain] at hs

/-- An option as it is written down: a spelling, and the value if it takes one. -/
inductive Choice where
  | on (spelling : String) (s : Switch)
  | value (spelling : String) (s : Slot) (v : String)
  deriving DecidableEq, Repr

namespace Choice

/-- The arguments on the command line. -/
def argv : Choice → List String
  | on spelling _ => [spelling]
  | value spelling _ v => [spelling, v]

/-- The spelling is one of the option, and the value can stand behind it. -/
def Spelled : Choice → Prop
  | on spelling s => (spelling, .switch s) ∈ Opt.spellings
  | value spelling s v => (spelling, .slot s) ∈ Opt.spellings ∧ Plain v

instance : (c : Choice) → Decidable c.Spelled
  | on spelling s => inferInstanceAs (Decidable ((spelling, Opt.switch s) ∈ Opt.spellings))
  | value spelling s v =>
    inferInstanceAs (Decidable ((spelling, Opt.slot s) ∈ Opt.spellings ∧ Plain v))

/-- The arguments after a choice. -/
def applyTo (a : Arguments) : Choice → Arguments
  | on _ s => a.switchOn s
  | value _ s v => a.fill v s

/-- The words that the arguments on the command line are taken for. -/
def words : Choice → List Word
  | on spelling s => [.use ⟨.switch s, isShort spelling.toList, none⟩]
  | value spelling s v => [.use ⟨.slot s, isShort spelling.toList, none⟩, .plain v]

/-- Options leave the project and the symbol alone. -/
theorem applyTo_named (a : Arguments) (project symbol : Option String) (c : Choice) :
    applyTo { a with project := project, symbol := symbol } c =
      { applyTo a c with project := project, symbol := symbol } := by
  cases c with
  | on spelling s => cases s <;> rfl
  | value spelling s v => cases s <;> rfl

theorem foldl_applyTo_named (a : Arguments) (project symbol : Option String) (cs : List Choice) :
    cs.foldl applyTo { a with project := project, symbol := symbol } =
      { cs.foldl applyTo a with project := project, symbol := symbol } := by
  induction cs generalizing a with
  | nil => rfl
  | cons c cs ih => rw [List.foldl_cons, applyTo_named, ih, List.foldl_cons]

end Choice

/-! ## Words -/

theorem word_of_spelling : ∀ p ∈ Opt.spellings,
    p.1 ≠ "--" ∧ Word.of p.1 = .ok (.use ⟨p.2, isShort p.1.toList, none⟩) := by
  decide

theorem words_cons {s : String} {rest : List String} {w : Word} {ws : List Word}
    (hdashes : s ≠ "--") (hw : Word.of s = .ok w) (hrest : words rest = .ok ws) :
    words (s :: rest) = .ok (w :: ws) := by
  rw [words, if_neg hdashes, hw, hrest]
  rfl

theorem words_choice {c : Choice} {rest : List String} {ws : List Word} (hc : c.Spelled)
    (hrest : words rest = .ok ws) : words (c.argv ++ rest) = .ok (c.words ++ ws) := by
  cases c with
  | on spelling s =>
      obtain ⟨hdashes, hword⟩ := word_of_spelling _ hc
      exact words_cons hdashes hword hrest
  | value spelling s v =>
      obtain ⟨hspelling, hv⟩ := hc
      obtain ⟨hdashes, hword⟩ := word_of_spelling _ hspelling
      exact words_cons hdashes hword (words_cons hv.ne_dashes hv.word hrest)

theorem words_choices {cs : List Choice} {rest : List String} {ws : List Word}
    (hcs : ∀ c ∈ cs, c.Spelled) (hrest : words rest = .ok ws) :
    words (cs.flatMap Choice.argv ++ rest) = .ok (cs.flatMap Choice.words ++ ws) := by
  induction cs with
  | nil => exact hrest
  | cons c cs ih =>
      rw [List.flatMap_cons, List.flatMap_cons, List.append_assoc, List.append_assoc]
      apply words_choice (hcs c List.mem_cons_self)
      exact ih fun d hd => hcs d (List.mem_cons_of_mem _ hd)

/-! ## Readings -/

@[simp] theorem Reading.arguments_atOption (r : Reading) : r.atOption.arguments = r.arguments := by
  unfold Reading.atOption
  split <;> rfl

@[simp] theorem Reading.strays_atOption (r : Reading) : r.atOption.strays = r.strays := by
  unfold Reading.atOption
  split <;> rfl

/-- The reading behind a choice. -/
def Reading.behind (r : Reading) (c : Choice) : Reading :=
  { r.atOption with arguments := c.applyTo r.arguments }

theorem read_choice (r : Reading) (c : Choice) (ws : List Word) :
    r.read (c.words ++ ws) = (r.behind c).read ws := by
  cases c with
  | on spelling s =>
      have htake : r.takeCluster { taken := [(.switch s, none)] } none =
          .ok (r.behind (.on spelling s)) := by
        rw [Reading.behind, ← r.arguments_atOption]
        rfl
      simp only [Choice.words, List.singleton_append, Reading.read, Cluster.ofUse, htake]
  | value spelling s v =>
      have htake : r.takeCluster { waiting := some s } (some v) =
          .ok (r.behind (.value spelling s v)) := by
        rw [Reading.behind, ← r.arguments_atOption]
        rfl
      simp only [Choice.words, List.cons_append, List.nil_append, Reading.read, Cluster.ofUse,
        htake]

theorem read_choices (r : Reading) (cs : List Choice) (ws : List Word) :
    r.read (cs.flatMap Choice.words ++ ws) = (cs.foldl Reading.behind r).read ws := by
  induction cs generalizing r with
  | nil => rfl
  | cons c cs ih => rw [List.flatMap_cons, List.append_assoc, read_choice, ih, List.foldl_cons]

theorem arguments_foldl_behind (r : Reading) (cs : List Choice) :
    (cs.foldl Reading.behind r).arguments = cs.foldl Choice.applyTo r.arguments := by
  induction cs generalizing r with
  | nil => rfl
  | cons c cs ih =>
      rw [List.foldl_cons, ih, List.foldl_cons]
      rfl

theorem strays_foldl_behind (r : Reading) (cs : List Choice) :
    (cs.foldl Reading.behind r).strays = r.strays := by
  induction cs generalizing r with
  | nil => rfl
  | cons c cs ih =>
      rw [List.foldl_cons, ih]
      exact r.strays_atOption

/-- Options before the project do not end the wait for it. -/
theorem expected_foldl_behind {r : Reading} (hr : r.expected = .project) (cs : List Choice) :
    (cs.foldl Reading.behind r).expected = .project := by
  induction cs generalizing r with
  | nil => exact hr
  | cons c cs ih =>
      have hbehind : (r.behind c).expected = .project := by
        simp only [Reading.behind, Reading.atOption, hr]
      exact ih hbehind

/-- The project and the symbol are taken right behind each other. -/
theorem read_named {r : Reading} {project symbol : String} (hr : r.expected = .project)
    (hsymbol : Plain symbol) (ws : List Word) :
    r.read (.plain project :: .plain symbol :: ws) =
      Reading.read
        { r with
          arguments := { r.arguments with project := some project, symbol := some symbol }
          expected := .dash } ws := by
  rw [Reading.read, Reading.read]
  simp only [Reading.plain, hr, hsymbol.ne_dashes, if_false]

/-! ## Command lines -/

/-- A command line with options around the project and the symbol is read as it was meant. -/
theorem read_argv {before after : List Choice} {project symbol : String}
    (hbefore : ∀ c ∈ before, c.Spelled) (hafter : ∀ c ∈ after, c.Spelled)
    (hproject : Plain project) (hsymbol : Plain symbol) :
    Arguments.read (before.flatMap Choice.argv ++
        project :: symbol :: after.flatMap Choice.argv) =
      .ok { (before ++ after).foldl Choice.applyTo {} with
        project := some project
        symbol := some symbol } := by
  have hlast : words (after.flatMap Choice.argv ++ []) =
      .ok (after.flatMap Choice.words ++ []) := words_choices hafter rfl
  have hwords : words (before.flatMap Choice.argv ++
      project :: symbol :: after.flatMap Choice.argv) =
      .ok (before.flatMap Choice.words ++
        .plain project :: .plain symbol :: after.flatMap Choice.words) := by
    rw [List.append_nil, List.append_nil] at hlast
    apply words_choices hbefore
    exact words_cons hproject.ne_dashes hproject.word
      (words_cons hsymbol.ne_dashes hsymbol.word hlast)
  -- The project is still waited for when it comes.
  have hexpected : (before.foldl Reading.behind {}).expected = .project :=
    expected_foldl_behind rfl before
  have hread := read_choices
    { before.foldl Reading.behind {} with
      arguments := { (before.foldl Reading.behind {}).arguments with
        project := some project
        symbol := some symbol }
      expected := .dash } after []
  rw [List.append_nil, ← read_named hexpected hsymbol, ← read_choices] at hread
  unfold Arguments.read
  rw [hwords]
  change (Reading.read {} _ >>= _) = _
  rw [hread]
  change (if (after.foldl Reading.behind _).strays.isEmpty then
    Except.ok (after.foldl Reading.behind _).arguments else _) = _
  rw [strays_foldl_behind, strays_foldl_behind, arguments_foldl_behind, arguments_foldl_behind,
    Choice.foldl_applyTo_named, List.foldl_append]
  rfl

end JitLens.CommandLine
