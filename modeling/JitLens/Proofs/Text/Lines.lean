import JitLens.Text.Lines
/-!
# Lines put together again

Lines in which nothing ends a line, each with a line feed behind it, are the lines of the text that
they make.  A text in which nothing but line feeds ends a line is made of its lines in that way.
-/

namespace JitLens.Text

theorem endsLine_newline : endsLine '\n' = true := by
  decide

theorem ne_return_of_endsLine {c : Char} (hc : endsLine c = false) : c ≠ '\r' := by
  rintro rfl
  exact absurd hc (by decide)

theorem unifyLineEnds_of_notMem {cs : List Char} (hcs : '\r' ∉ cs) : unifyLineEnds cs = cs := by
  induction cs with
  | nil => rfl
  | cons c cs ih =>
      rw [List.mem_cons, not_or] at hcs
      have hc : c ≠ '\r' := Ne.symm hcs.1
      rw [unifyLineEnds, ih hcs.2]
      · intro _ heq
        exact absurd heq hc
      · exact hc

/-! ## Cutting -/

theorem lines_cons {c : Char} (hc : c ≠ '\r') (cs : List Char) :
    lines (c :: cs) =
      if endsLine c then [] :: lines cs
      else match lines cs with
        | [] => [[c]]
        | l :: ls => (c :: l) :: ls :=
  lines.eq_3 c cs fun _ heq => absurd heq hc

/-- No line has a character that ends a line. -/
theorem endsLine_of_mem_lines {cs l : List Char} (hl : l ∈ lines cs) :
    ∀ c ∈ l, endsLine c = false := by
  fun_induction lines cs generalizing l with
  | case1 => cases hl
  | case2 cs ih =>
      rcases List.mem_cons.1 hl with rfl | hl
      · simp
      · exact ih hl
  | case3 c cs _ hc ih =>
      rcases List.mem_cons.1 hl with rfl | hl
      · simp
      · exact ih hl
  | case4 c cs _ hc hnone ih =>
      rw [List.mem_singleton] at hl
      subst hl
      simpa using hc
  | case5 c cs _ hc m ms hlines ih =>
      rw [hlines] at ih
      rcases List.mem_cons.1 hl with rfl | hl
      · intro d hd
        rcases List.mem_cons.1 hd with rfl | hd
        · simpa using hc
        · exact ih List.mem_cons_self d hd
      · exact ih (List.mem_cons_of_mem _ hl)

theorem lines_append {l : List Char} (hl : ∀ c ∈ l, endsLine c = false) (rest : List Char) :
    lines (l ++ '\n' :: rest) = l :: lines rest := by
  induction l with
  | nil => rw [List.nil_append, lines_cons (by decide), if_pos endsLine_newline]
  | cons c l ih =>
      have hc : endsLine c = false := hl c List.mem_cons_self
      rw [List.cons_append, lines_cons (ne_return_of_endsLine hc), if_neg (by simp [hc]),
        ih fun d hd => hl d (List.mem_cons_of_mem _ hd)]

/-! ## Putting together -/

theorem joinWith_cons {sep : Char} {ls : List (List Char)} (hls : ls ≠ []) (l : List Char) :
    joinWith sep (l :: ls) = l ++ sep :: joinWith sep ls := by
  obtain ⟨m, ms, rfl⟩ := List.exists_cons_of_ne_nil hls
  rfl

/-- The lines that a text was made of are its lines. -/
theorem lines_joinWith {ls : List (List Char)} (hne : ls ≠ [])
    (hls : ∀ l ∈ ls, ∀ c ∈ l, endsLine c = false) :
    lines (joinWith '\n' ls ++ ['\n']) = ls := by
  induction ls with
  | nil => exact absurd rfl hne
  | cons l ls ih =>
      have hl := hls l List.mem_cons_self
      by_cases hlast : ls = []
      · subst hlast
        exact lines_append hl []
      · rw [joinWith_cons hlast, List.append_assoc, List.cons_append, lines_append hl,
          ih hlast fun m hm => hls m (List.mem_cons_of_mem _ hm)]

theorem return_notMem_joinWith {ls : List (List Char)}
    (hls : ∀ l ∈ ls, ∀ c ∈ l, endsLine c = false) : '\r' ∉ joinWith '\n' ls ++ ['\n'] := by
  have hline : ∀ l ∈ ls, '\r' ∉ l := fun l hl hmem => ne_return_of_endsLine (hls l hl _ hmem) rfl
  induction ls with
  | nil => decide
  | cons l ls ih =>
      have hrest := ih (fun m hm => hls m (List.mem_cons_of_mem _ hm))
        fun m hm => hline m (List.mem_cons_of_mem _ hm)
      by_cases hlast : ls = []
      · subst hlast
        simpa [joinWith] using hline l List.mem_cons_self
      · rw [joinWith_cons hlast]
        simpa using ⟨hline l List.mem_cons_self, by simpa using hrest⟩

/-- A text in which nothing but line feeds ends a line is cut at these. -/
theorem lines_concat_newline {cs : List Char} (hcs : ∀ c ∈ cs, endsLine c = true → c = '\n') :
    lines (cs ++ ['\n']) = splitOn '\n' cs := by
  induction cs with
  | nil => rfl
  | cons c cs ih =>
      have hrest := ih fun d hd => hcs d (List.mem_cons_of_mem _ hd)
      have hreturn : c ≠ '\r' := by
        rintro rfl
        exact absurd (hcs '\r' List.mem_cons_self (by decide)) (by decide)
      rw [List.cons_append, lines_cons hreturn, splitOn, hrest]
      by_cases hc : c = '\n'
      · rw [if_pos (by rw [hc]; exact endsLine_newline), if_pos hc]
      · rw [if_neg fun hends => hc (hcs c List.mem_cons_self hends)]
        exact (if_neg hc).symm

/-- The last lines of a text are the end of the text. -/
theorem joinWith_suffix {sep : Char} {ls : List (List Char)} (hls : ls ≠ [])
    (before : List (List Char)) : joinWith sep ls <:+ joinWith sep (before ++ ls) := by
  induction before with
  | nil => exact List.suffix_refl _
  | cons l before ih =>
      rw [List.cons_append, joinWith_cons (List.append_ne_nil_of_right_ne_nil before hls)]
      exact (ih.trans (List.suffix_cons sep _)).trans (List.suffix_append l _)

end JitLens.Text
