import JitLens.Proofs.Yaml.LexerPosition
/-!
# Steps of the lexer

When the lexer has come to a token, its step is the one for the character that the token starts
with.  The names of a written mapping and its plain texts start with one that means nothing else.
-/

namespace JitLens.Yaml

open Printer

/-- Characters of the names of a written mapping. -/
def isKeyChar (c : Char) : Bool :=
  ('a' ≤ c && c ≤ 'z') || ('0' ≤ c && c ≤ '9') || c == '_'

/-- Names under which a mapping can be written: plain words. -/
structure KeyName (name : String) : Prop where
  ne_nil : name.toList ≠ []
  chars : ∀ c ∈ name.toList, isKeyChar c = true
  short : name.toList.length ≤ Lexer.keyReach
  isText : implicitTag name = .text

/-- The conditions on a name can be checked one by one. -/
theorem KeyName.of_all {name : String} (hname : name.toList ≠ [] ∧
    name.toList.all isKeyChar = true ∧ name.toList.length ≤ Lexer.keyReach ∧
    implicitTag name = .text) : KeyName name where
  ne_nil := hname.1
  chars := List.all_eq_true.1 hname.2.1
  short := hname.2.2.1
  isText := hname.2.2.2

theorem isPlainChar_of_isKeyChar {c : Char} (hc : isKeyChar c = true) :
    isPlainChar c = true ∧ c ≠ ' ' ∧ c ≠ ':' ∧ c ≠ '-' ∧ c ≠ '.' ∧ c ≠ '?' ∧
      isLeadingIndicator c = false := by
  have hall : ∀ n < 0x7f, isKeyChar (Char.ofNat n) = true →
      isPlainChar (Char.ofNat n) = true ∧ Char.ofNat n ≠ ' ' ∧ Char.ofNat n ≠ ':' ∧
        Char.ofNat n ≠ '-' ∧ Char.ofNat n ≠ '.' ∧ Char.ofNat n ≠ '?' ∧
        isLeadingIndicator (Char.ofNat n) = false := by
    decide
  have hlt : c.toNat < 0x7f := by
    simp only [isKeyChar, Bool.or_eq_true, Bool.and_eq_true, decide_eq_true_eq, beq_iff_eq] at hc
    rcases hc with (hc | hc) | rfl
    · exact Nat.lt_of_le_of_lt hc.2 (by decide)
    · exact Nat.lt_of_le_of_lt hc.2 (by decide)
    · decide
  have h := hall c.toNat hlt
  rw [Char.ofNat_toNat] at h
  exact h hc

namespace Lexer

/-! ## Single steps -/

/-- A character that may start a plain text is read as the start of one. -/
theorem readToken_plain {l : Lexer} {c : Char} {cs : List Char} (hflow : l.flow = 0)
    (hline : l.column = 0 → atMarker (c :: cs) = false) (hplain : isPlainChar c = true)
    (hspace : c ≠ ' ') (hlead : isLeadingIndicator c = false)
    (hmark : c = '?' ∨ c = ':' ∨ c = '-' → endsWord cs = false) :
    l.readToken c cs = l.plain := by
  have hlist : "#,[]\x7b\x7d&*!|>'\"%@\x60".toList =
      ['#', ',', '[', ']', '\x7b', '\x7d', '&', '*', '!', '|', '>', '\'', '"', '%', '@',
        '\x60'] := by decide
  simp only [isLeadingIndicator, hlist, List.contains_eq_mem, decide_eq_false_iff_not,
    List.mem_cons, List.not_mem_nil, or_false, not_or] at hlead
  obtain ⟨h1, h2, h3, h4, h5, h6, h7, h8, h9, h10, h11, h12, h13, h14, h15, h16⟩ := hlead
  have hstart : (decide (l.column = 0) && atDocumentStart (c :: cs)) = false := by
    by_cases hcolumn : l.column = 0
    · have h := hline hcolumn
      simp only [atMarker, Bool.or_eq_false_iff] at h
      simp [h.1]
    · simp [hcolumn]
  have hend : (decide (l.column = 0) && atDocumentEnd (c :: cs)) = false := by
    by_cases hcolumn : l.column = 0
    · have h := hline hcolumn
      simp only [atMarker, Bool.or_eq_false_iff] at h
      simp [h.2]
    · simp [hcolumn]
  have hdash : (decide (c = '-') && endsWord cs) = false := by
    by_cases hc : c = '-'
    · simp [hmark (by simp [hc])]
    · simp [hc]
  have hquestion : (decide (c = '?') && (decide (l.flow ≠ 0) || endsWord cs)) = false := by
    by_cases hc : c = '?'
    · simp [hmark (by simp [hc]), hflow]
    · simp [hc]
  have hcolon : (decide (c = ':') && (decide (l.flow ≠ 0) || endsWord cs)) = false := by
    by_cases hc : c = ':'
    · simp [hmark (by simp [hc]), hflow]
    · simp [hc]
  have hstarts : l.startsPlain c cs = true := by
    by_cases hc : c = '?' ∨ c = ':' ∨ c = '-'
    · simp only [startsPlain, hmark hc, hflow]
      rcases hc with rfl | rfl | rfl <;> simp
    · simp only [not_or] at hc
      simp [startsPlain, isIndicator, isBlank_eq_false hplain hspace,
        isBreak_eq_false hplain, *]
  simp only [readToken, hstart, hend, hdash, hquestion, hcolon, hstarts, h2, h3, h4, h5, h6, h7,
    h8, h9, h10, h11, h12, h13, h14, decide_false, Bool.and_false, Bool.false_and,
    Bool.false_eq_true, if_false, if_true]

theorem dropStale_of_none {l : Lexer} (hkeys : l.keys = [none]) : l.dropStale = .ok l := by
  have hsame : { l with keys := [none] } = l := by rw [← hkeys]
  simp [dropStale, hkeys, hsame]

theorem dropStale_of_some {l : Lexer} {k : PendingKey} (hkeys : l.keys = [some k])
    (hline : k.line = l.line) (hreach : l.index - k.index ≤ keyReach) : l.dropStale = .ok l := by
  have hsame : { l with keys := [some k] } = l := by rw [← hkeys]
  have hstale : (k.line != l.line || decide (keyReach < l.index - k.index)) = false := by
    simp [hline, hreach]
  simp only [dropStale, hkeys, List.any_cons, List.any_nil, Option.any_some, hstale,
    Bool.false_and, Bool.or_self, Bool.false_eq_true, if_false, List.map_cons, List.map_nil,
    Option.filter, Bool.not_false, if_true, hsame]

theorem unwind_eq_self {l : Lexer} (hindents : ∀ i ∈ l.indents.head?, i ≤ l.column) :
    l.unwind = l := by
  have hclosed : l.indents.takeWhile (fun i => !decide (i ≤ l.column)) = [] := by
    cases h : l.indents with
    | nil => rfl
    | cons i is =>
        have hle := hindents i (by simp [h])
        simp [hle]
  unfold unwind
  split
  · simp [closeBlocks, hclosed]
  · rfl

/-- One step at a token that is there. -/
theorem step_eq {l m : Lexer} {c : Char} {cs : List Char} (htoken : l.toToken = m)
    (hstale : m.dropStale = .ok m) (hunwind : m.unwind = m) (hrest : m.rest = c :: cs) :
    l.step = (m.readToken c cs).map fun n => (n, false) := by
  simp only [step, htoken, hstale, bind, Except.bind, hunwind, hrest]
  cases m.readToken c cs <;> rfl

/-- The white space and the comments before a token are passed over. -/
theorem toToken_eq {l : Lexer} {c : Char} {cs : List Char} (hrest : l.rest = c :: cs)
    (hc : c ≠ '\ufeff') :
    l.toToken =
      if (skipGap false (c :: cs)).2 && l.flow = 0 then
        { l.moveTo (skipGap false (c :: cs)).1 with keyAllowed := true }
      else l.moveTo (skipGap false (c :: cs)).1 := by
  unfold toToken
  split
  · next hmark =>
    rw [hrest] at hmark
    exact absurd (List.cons.inj hmark).1 hc
  · rw [← hrest]

/-- Nothing is passed over before a token that the text starts with. -/
theorem toToken_eq_self {l : Lexer} {c : Char} {cs : List Char} (hrest : l.rest = c :: cs)
    (hplain : isPlainChar c = true) (hspace : c ≠ ' ') (hhash : c ≠ '#') : l.toToken = l := by
  have hmark : c ≠ '\ufeff' := by
    rintro rfl
    revert hplain
    decide
  have hskip : skipGap false (c :: cs) = (c :: cs, false) := by
    simp [skipGap, isBreak_eq_false hplain, hspace, hhash]
  rw [toToken_eq hrest hmark, hskip]
  simp only [Bool.false_and, Bool.false_eq_true, if_false, ← hrest, moveTo_self]

end Lexer
end JitLens.Yaml
