import JitLens.FlowGraph
import JitLens.Proofs.Bench
import JitLens.Proofs.Files.Frame
import JitLens.Proofs.Text.Lines
import JitLens.Proofs.Text.Utf8
/-!
# The last drawing of a file

Of the drawings in a file the last one is kept: the lines of the file are from then on those from
its first line on.  A file with at most one drawing is left alone, and so is every file whose last
drawing has been kept.  Of a text whose lines end in line feeds, an end is kept byte for byte.
-/

namespace JitLens.FlowGraph

open Files JitLens.Action

/-! ## The lines from the last drawing on -/

theorem exists_fromLast {ls : List (List Char)} (hcount : 0 < count ls) :
    ∃ before first after, ls = before ++ first :: after ∧ isStart first = true ∧
      (∀ l ∈ after, isStart l = false) ∧ fromLast ls = first :: after := by
  induction ls with
  | nil => exact absurd hcount (by decide)
  | cons l ls ih =>
      rw [fromLast]
      by_cases hnone : count ls = 0
      · have hafter : ∀ m ∈ ls, isStart m = false := by simpa [count] using hnone
        have hfirst : isStart l = true := by
          rw [count, List.countP_pos_iff] at hcount
          obtain ⟨m, hm, hstart⟩ := hcount
          rcases List.mem_cons.1 hm with rfl | hm
          · exact hstart
          · simp [hafter m hm] at hstart
        rw [if_pos hnone]
        exact ⟨[], l, ls, rfl, hfirst, hafter, rfl⟩
      · obtain ⟨before, first, after, hls, hfirst, hafter, hlast⟩ := ih (by omega)
        rw [if_neg hnone]
        exact ⟨l :: before, first, after, by rw [hls]; rfl, hfirst, hafter, hlast⟩

theorem count_of_last {first : List Char} {after : List (List Char)}
    (hfirst : isStart first = true) (hafter : ∀ l ∈ after, isStart l = false) :
    count (first :: after) = 1 := by
  have hnone : after.countP isStart = 0 := by simpa using hafter
  rw [count, List.countP_cons_of_pos hfirst, hnone]

/-! ## Lines of a file and their bytes -/

theorem endsLine_of_mem_linesOf {content : Text.Bytes} {l : List Char}
    (hl : l ∈ linesOf content) : ∀ c ∈ l, Text.endsLine c = false :=
  Text.endsLine_of_mem_lines hl

/-- Lines that are written to a file are the lines of the file. -/
theorem linesOf_contentOf {ls : List (List Char)} (hne : ls ≠ [])
    (hls : ∀ l ∈ ls, ∀ c ∈ l, Text.endsLine c = false) : linesOf (contentOf ls) = ls := by
  rw [linesOf, contentOf, Text.decodeLossy_encode,
    Text.unifyLineEnds_of_notMem (Text.return_notMem_joinWith hls), Text.lines_joinWith hne hls]

/-- A text whose last line is ended, and in which nothing but line feeds ends a line. -/
structure Plain (text : List Char) : Prop where
  ended : text.getLast? = some '\n'
  newlines : ∀ c ∈ text, Text.endsLine c = true → c = '\n'

theorem encode_suffix {cs ds : List Char} (hsuffix : cs <:+ ds) :
    Text.encode cs <:+ Text.encode ds := by
  obtain ⟨before, rfl⟩ := hsuffix
  rw [Text.encode, Text.encode, List.flatMap_append]
  exact List.suffix_append _ _

theorem contentOf_suffix {text : List Char} (hplain : Plain text)
    {before kept : List (List Char)} (hkept : kept ≠ [])
    (hlines : linesOf (Text.encode text) = before ++ kept) :
    contentOf kept <:+ Text.encode text := by
  obtain ⟨cs, rfl⟩ := List.getLast?_eq_some_iff.1 hplain.ended
  have hnewlines : ∀ c ∈ cs, Text.endsLine c = true → c = '\n' :=
    fun c hc => hplain.newlines c (by simp [hc])
  have hreturn : '\r' ∉ cs ++ ['\n'] :=
    fun hmem => absurd (hplain.newlines '\r' hmem (by decide)) (by decide)
  rw [linesOf, Text.decodeLossy_encode, Text.unifyLineEnds_of_notMem hreturn,
    Text.lines_concat_newline hnewlines] at hlines
  apply encode_suffix
  rw [← Text.joinWith_splitOn '\n' cs, hlines]
  exact (List.suffix_append_inj_of_length_eq rfl).2 ⟨Text.joinWith_suffix hkept before, rfl⟩

/-! ## Keeping the last drawing -/

/-- What the content of a file becomes when its last drawing is kept. -/
structure KeepsLast (old new : Text.Bytes) : Prop where
  /-- A file with at most one drawing stays as it is. -/
  kept : count (linesOf old) ≤ 1 → new = old
  /-- Of any other file the lines from the last start of a drawing on are left. -/
  cut : 2 ≤ count (linesOf old) → ∃ before first after,
    linesOf old = before ++ first :: after ∧ isStart first = true ∧
      (∀ l ∈ after, isStart l = false) ∧ linesOf new = first :: after
  count : count (linesOf new) = min (count (linesOf old)) 1
  /-- Of a plain text an end is left, byte for byte. -/
  suffix : ∀ text, Text.decode old = .ok text → Plain text → new <:+ old

theorem keepsLast_trimmed (old : Text.Bytes) : KeepsLast old (trimmed old) := by
  unfold trimmed
  dsimp only
  by_cases hfew : count (linesOf old) ≤ 1
  · rw [if_neg (by omega)]
    exact ⟨fun _ => rfl, fun hmany => by omega, by omega, fun _ _ _ => List.suffix_refl _⟩
  · have hdrawn : 0 < count (linesOf old) := by omega
    obtain ⟨before, first, after, hlines, hfirst, hafter, hlast⟩ := exists_fromLast hdrawn
    have hends : ∀ l ∈ first :: after, ∀ c ∈ l, Text.endsLine c = false :=
      fun l hl => endsLine_of_mem_linesOf (by rw [hlines]; exact List.mem_append_right _ hl)
    have hnew : linesOf (contentOf (first :: after)) = first :: after :=
      linesOf_contentOf (List.cons_ne_nil _ _) hends
    rw [if_pos (by omega), hlast]
    refine ⟨fun hle => absurd hle hfew, ?cut, ?count, ?suffix⟩
    case cut => exact fun _ => ⟨before, first, after, hlines, hfirst, hafter, hnew⟩
    case count =>
      rw [hnew, count_of_last hfirst hafter]
      omega
    case suffix =>
      intro text hdecode hplain
      rw [← Text.encode_of_decode hdecode] at hlines ⊢
      exact contentOf_suffix hplain (List.cons_ne_nil _ _) hlines

theorem run_keepLast_of_few {b : Bench} {file : Path} {content : Text.Bytes}
    (hread : b.files.read b.here file = .ok content) (hfew : count (linesOf content) ≤ 1) :
    (keepLast file).run.run b = (.ok (count (linesOf content)), b) := by
  unfold keepLast
  rw [run_bind_ok (run_look _ _ _), hread, run_bind_ok (x := Action.ofFiles _) rfl]
  dsimp only
  rw [if_neg (by omega)]
  rfl

theorem run_keepLast_of_many {b : Bench} {file : Path} {content : Text.Bytes} {t : Tree}
    (hread : b.files.read b.here file = .ok content) (hmany : 2 ≤ count (linesOf content))
    (hwrite : b.files.write b.here file (trimmed content) = .ok t) :
    (keepLast file).run.run b = (.ok (count (linesOf content)), { b with files := t }) := by
  unfold keepLast
  rw [run_bind_ok (run_look _ _ _), hread, run_bind_ok (x := Action.ofFiles _) rfl]
  dsimp only
  rw [if_pos (by omega), run_bind_ok (run_change_ok hwrite)]
  rfl

theorem exists_run_keepLast {b : Bench} {file : Path} {old : Text.Bytes}
    (hread : b.files.read b.here file = .ok old) :
    ∃ t, (keepLast file).run.run b = (.ok (count (linesOf old)), { b with files := t }) ∧
      t.read b.here file = .ok (trimmed old) ∧
      (∀ l, b.files.locate b.here file ≠ .ok l → t.look l = b.files.look l) ∧
      (count (linesOf old) ≤ 1 → t = b.files) := by
  by_cases hfew : count (linesOf old) ≤ 1
  · refine ⟨b.files, run_keepLast_of_few hread hfew, ?_, fun _ _ => rfl, fun _ => rfl⟩
    rw [(keepsLast_trimmed old).kept hfew]
    exact hread
  · obtain ⟨t, hwrite, hnew, hframe⟩ := Tree.exists_write_of_read hread (trimmed old)
    exact ⟨t, run_keepLast_of_many hread (by omega) hwrite, hnew, hframe, fun hle => absurd hle hfew⟩

/-- Of the drawings in a file the last one is kept, and nothing else changes; a second time there is
at most one drawing left, and nothing changes. -/
theorem keepLast_twice {b : Bench} {file : Path} {old : Text.Bytes}
    (hread : b.files.read b.here file = .ok old) :
    ∃ t new, (keepLast file).run.run b = (.ok (count (linesOf old)), { b with files := t }) ∧
      t.read b.here file = .ok new ∧ KeepsLast old new ∧
      (count (linesOf old) ≤ 1 → t = b.files) ∧
      (∀ l, b.files.locate b.here file ≠ .ok l → t.look l = b.files.look l) ∧
      (keepLast file).run.run { b with files := t } =
        (.ok (min (count (linesOf old)) 1), { b with files := t }) := by
  obtain ⟨t, hrun, hnew, hframe, hfew⟩ := exists_run_keepLast hread
  have hkeeps := keepsLast_trimmed old
  have hone : count (linesOf (trimmed old)) ≤ 1 := by
    have := hkeeps.count
    omega
  refine ⟨t, trimmed old, hrun, hnew, hkeeps, hfew, hframe, ?_⟩
  rw [run_keepLast_of_few (b := { b with files := t }) hnew hone, hkeeps.count]

/-- A file with two drawings, the second of which is kept. -/
def sampleDrawings : Bench where
  files := ⟨[("fg.dot", .file (Text.encode
    "digraph FlowGraph a\nx;\ndigraph FlowGraph b\ny;\n".toList) false)]⟩
  here := []
  temporary := ⟨.root, ["tmp"]⟩

theorem keepLast_twice_drawings :
    sampleDrawings.files.read [] ⟨.relative, ["fg.dot"]⟩ = .ok (Text.encode
      "digraph FlowGraph a\nx;\ndigraph FlowGraph b\ny;\n".toList) ∧
    ∃ t new, (keepLast ⟨.relative, ["fg.dot"]⟩).run.run sampleDrawings =
        (.ok 2, { sampleDrawings with files := t }) ∧
      t.read [] ⟨.relative, ["fg.dot"]⟩ = .ok new ∧
      new <:+ Text.encode "digraph FlowGraph a\nx;\ndigraph FlowGraph b\ny;\n".toList := by
  have hread : sampleDrawings.files.read [] ⟨.relative, ["fg.dot"]⟩ = .ok (Text.encode
      "digraph FlowGraph a\nx;\ndigraph FlowGraph b\ny;\n".toList) := by rfl
  have hcount : count (linesOf (Text.encode
      "digraph FlowGraph a\nx;\ndigraph FlowGraph b\ny;\n".toList)) = 2 := by decide +kernel
  obtain ⟨t, new, hrun, hnew, hkeeps, -, -, -⟩ := keepLast_twice (b := sampleDrawings) hread
  rw [hcount] at hrun
  have hends : "digraph FlowGraph a\nx;\ndigraph FlowGraph b\ny;\n".toList.all
      (fun c => !Text.endsLine c || c == '\n') = true := by decide +kernel
  refine ⟨hread, t, new, hrun, hnew, hkeeps.suffix _ (Text.decode_encode _) ⟨by decide, ?_⟩⟩
  intro c hc hend
  simpa [hend] using List.all_eq_true.1 hends c hc

end JitLens.FlowGraph
