import JitLens.Proofs.Yaml.DoubleQuoted
import JitLens.Proofs.Yaml.LexerStep
import JitLens.Proofs.Yaml.PlainScalar
import JitLens.Proofs.Yaml.SingleQuoted
/-!
# Entries of a written mapping

The lexer takes three steps for an entry of a written mapping: its name, the colon, and its value.
-/

namespace JitLens.Yaml.Lexer

open Printer

/-! ## The steps of an entry -/

/-- The lexer at the start of a line of a written mapping. -/
def atLine (index line : Nat) (indents : List Nat) (tokens : List Token) (text : List Char) :
    Lexer where
  rest := text
  index := index
  line := line
  indents := indents
  tokens := tokens

/-- The lexer behind the name of an entry, which is a pending key. -/
def behindName (index line : Nat) (indents : List Nat) (tokens : List Token) (name : String)
    (text : List Char) : Lexer where
  rest := text
  index := index + name.toList.length
  line := line
  column := name.toList.length
  indents := indents
  keyAllowed := false
  keys := [some ⟨tokens.length, indents.head? == some 0, index, line, 0⟩]
  tokens := .scalar name true :: tokens

/-- The lexer behind the colon of an entry. -/
def behindColon (index line column : Nat) (tokens : List Token) (text : List Char) : Lexer where
  rest := text
  index := index
  line := line
  column := column
  indents := [0]
  keyAllowed := false
  tokens := tokens

/-- The columns of the open blocks at a line of a mapping, of which there are none before its first
line. -/
def IsOpening (indents : List Nat) : Prop := indents = [] ∨ indents = [0]

/-- The tokens that come in front of the first name, last one first. -/
def openingTokens (indents : List Nat) : List Token :=
  if indents = [] then [.key, .blockMappingStart] else [.key]

theorem plainFrom_name {name : String} (hname : KeyName name) (indent : Nat) (cs : List Char) :
    plainFrom false indent .word (name.toList ++ ':' :: ' ' :: cs) =
      ⟨name.toList, ':' :: ' ' :: cs, false⟩ := by
  have hgeneral : ∀ word : List Char, (∀ c ∈ word, isKeyChar c = true) →
      plainFrom false indent .word (word ++ ':' :: ' ' :: cs) = ⟨word, ':' :: ' ' :: cs, false⟩ := by
    intro word hword
    induction word with
    | nil => rfl
    | cons c word ih =>
        obtain ⟨hplain, hspace, hcolon, -⟩ := isPlainChar_of_isKeyChar (hword c (by simp))
        have htab : c ≠ '\t' := by
          rintro rfl
          revert hplain
          decide
        rw [List.cons_append, plainFrom.eq_def]
        simp [hspace, isBreak_eq_false hplain, endsPlainWord, htab, hcolon, PlainState.goesOn,
          ih fun d hd => hword d (by simp [hd]), PlainState.text]
  exact hgeneral name.toList hname.chars

theorem step_name {l : Lexer} {index line : Nat} {indents : List Nat} {tokens : List Token}
    {name : String} {cs : List Char} (hname : KeyName name) (hindents : IsOpening indents)
    (htoken : l.toToken = atLine index line indents tokens (name.toList ++ ':' :: ' ' :: cs)) :
    l.step = .ok (behindName index line indents tokens name (':' :: ' ' :: cs), false) := by
  obtain ⟨c, ds, hcons⟩ := List.exists_cons_of_ne_nil hname.ne_nil
  obtain ⟨hplain, hspace, hcolon, hdash, hdot, hquestion, hlead⟩ :=
    isPlainChar_of_isKeyChar (hname.chars c (by simp [hcons]))
  have hrest : (atLine index line indents tokens (name.toList ++ ':' :: ' ' :: cs)).rest =
      c :: (ds ++ ':' :: ' ' :: cs) := by
    simp [atLine, hcons]
  have hunwind : (atLine index line indents tokens (name.toList ++ ':' :: ' ' :: cs)).unwind =
      atLine index line indents tokens (name.toList ++ ':' :: ' ' :: cs) := by
    apply unwind_eq_self
    rcases hindents with rfl | rfl <;> simp [atLine]
  have hword : ∀ d ∈ name.toList, isPlainChar d = true :=
    fun d hd => (isPlainChar_of_isKeyChar (hname.chars d hd)).1
  rw [step_eq htoken (dropStale_of_none rfl) hunwind hrest,
    readToken_plain rfl (fun _ => atMarker_eq_false _ hdash hdot) hplain hspace hlead
      (by simp [hquestion, hcolon, hdash])]
  have hsave : (atLine index line indents tokens (name.toList ++ ':' :: ' ' :: cs)).saveKey =
      .ok { atLine index line indents tokens (name.toList ++ ':' :: ' ' :: cs) with
        keys := [some ⟨tokens.length, indents.head? == some 0, index, line, 0⟩] } := rfl
  simp only [Lexer.plain, hsave, bind, Except.bind]
  rw [show (atLine index line indents tokens (name.toList ++ ':' :: ' ' :: cs)).flow = 0 from rfl,
    show (atLine index line indents tokens (name.toList ++ ':' :: ' ' :: cs)).rest =
      name.toList ++ ':' :: ' ' :: cs from rfl]
  simp only [ne_eq, not_true_eq_false, decide_false, plainFrom_name hname, String.ofList_toList]
  rw [moveTo_word _ _ rfl hword]
  simp [Except.map, behindName, atLine, placed, push]

theorem readToken_colon {l : Lexer} {cs : List Char} (hcs : endsWord cs = true) :
    l.readToken ':' cs = l.colon := by
  have hstart : atDocumentStart (':' :: cs) = false := rfl
  have hend : atDocumentEnd (':' :: cs) = false := rfl
  simp [readToken, hstart, hend, hcs]

theorem colon_behindName {index line : Nat} {indents : List Nat} {tokens : List Token}
    {name : String} {cs : List Char} (hindents : IsOpening indents) :
    (behindName index line indents tokens name (':' :: ' ' :: cs)).colon =
      .ok (behindColon (index + name.toList.length + 1) line (name.toList.length + 1)
        (.value :: .scalar name true :: (openingTokens indents ++ tokens)) (' ' :: cs)) := by
  have htake : ∀ (l : Lexer) (t : Token), l.rest = ':' :: ' ' :: cs →
      l.take 1 t =
        (l.placed (l.index + 1) l.line (l.column + 1) (' ' :: cs)).push t := by
    intro l t hrest
    have hmove := moveTo_word [':'] (' ' :: cs) hrest (List.all_eq_true.1 (by decide))
    simpa [Lexer.take, hrest] using congrArg (Lexer.push · t) hmove
  rcases hindents with rfl | rfl
  · simp only [colon, behindName, List.head?_cons, Option.join_some]
    rw [htake _ _ rfl]
    simp [deeper, openBlock, insertAt, placed, push, behindColon, openingTokens]
  · simp only [colon, behindName, List.head?_cons, Option.join_some]
    rw [htake _ _ rfl]
    simp [deeper, insertAt, placed, push, behindColon, openingTokens]

theorem step_colon {index line : Nat} {indents : List Nat} {tokens : List Token} {name : String}
    {cs : List Char} (hname : KeyName name) (hindents : IsOpening indents) :
    (behindName index line indents tokens name (':' :: ' ' :: cs)).step =
      .ok (behindColon (index + name.toList.length + 1) line (name.toList.length + 1)
        (.value :: .scalar name true :: (openingTokens indents ++ tokens)) (' ' :: cs), false) := by
  have htoken := toToken_eq_self
    (l := behindName index line indents tokens name (':' :: ' ' :: cs)) rfl (by decide)
    (by decide) (by decide)
  have hshort := hname.short
  have hstale := dropStale_of_some
    (l := behindName index line indents tokens name (':' :: ' ' :: cs)) rfl rfl
    (by simp only [behindName]; omega)
  have hunwind :
      (behindName index line indents tokens name (':' :: ' ' :: cs)).unwind =
        behindName index line indents tokens name (':' :: ' ' :: cs) := by
    apply unwind_eq_self
    rcases hindents with rfl | rfl <;> simp [behindName]
  rw [step_eq htoken hstale hunwind rfl, readToken_colon rfl, colon_behindName hindents]
  rfl

/-! ## The value of an entry -/

/-- What may follow a line of a written mapping: nothing, or a line that starts with a name. -/
def LineStart (text : List Char) : Prop :=
  ∀ c ∈ text.head?, isKeyChar c = true

theorem skipGap_lineStart {text : List Char} (htext : LineStart text) :
    skipGap false text = (text, false) := by
  cases text with
  | nil => rfl
  | cons c cs =>
      obtain ⟨hplain, hspace, -, -, -, -, hlead⟩ := isPlainChar_of_isKeyChar (htext c (by simp))
      have hhash : c ≠ '#' := by
        rintro rfl
        revert hlead
        decide
      simp [skipGap, isBreak_eq_false hplain, hspace, hhash]

theorem toToken_atLine {index line : Nat} {indents : List Nat} {tokens : List Token}
    {text : List Char} (htext : LineStart text) :
    (atLine index line indents tokens text).toToken = atLine index line indents tokens text := by
  cases text with
  | nil => cases index <;> rfl
  | cons c cs =>
      obtain ⟨hplain, hspace, -, -, -, -, hlead⟩ := isPlainChar_of_isKeyChar (htext c (by simp))
      refine toToken_eq_self rfl hplain hspace ?_
      rintro rfl
      revert hlead
      decide

/-- Behind a quoted value, the end of its line is passed over. -/
theorem exists_toToken_lineEnd {l : Lexer} {text : List Char} (hrest : l.rest = '\n' :: text)
    (hflow : l.flow = 0) (hindents : l.indents = [0]) (hkeys : l.keys = [none])
    (htext : LineStart text) :
    ∃ index line, l.toToken = atLine index line [0] l.tokens text := by
  have hskip : skipGap false ('\n' :: text) = (text, true) := by
    simp [skipGap, show isBreak '\n' = true by decide, skipGap_lineStart htext]
  obtain ⟨i, n, hmove⟩ := moveTo_line [] text (by simpa using hrest)
  refine ⟨i, n, ?_⟩
  rw [toToken_eq hrest (by decide), hskip]
  simp [hflow, hmove, placed, atLine, hindents, hkeys]

theorem toToken_behindColon {index line column : Nat} {tokens : List Token} {c : Char}
    {cs : List Char} (hplain : isPlainChar c = true) (hspace : c ≠ ' ') (hhash : c ≠ '#') :
    (behindColon index line column tokens (' ' :: c :: cs)).toToken =
      behindColon (index + 1) line (column + 1) tokens (c :: cs) := by
  have hskip : skipGap false (' ' :: c :: cs) = (c :: cs, false) := by
    simp [skipGap, isBreak_eq_false hplain, hspace, hhash, show isBreak ' ' = false by decide]
  have hmove := moveTo_word (l := behindColon index line column tokens (' ' :: c :: cs))
    [' '] (c :: cs) rfl (List.all_eq_true.1 (by decide))
  rw [toToken_eq rfl (by decide), hskip]
  simp only [Bool.false_and, Bool.false_eq_true, if_false, hmove]
  rfl

theorem step_behindColon {index line column : Nat} {tokens : List Token} {c : Char}
    {cs : List Char} (hplain : isPlainChar c = true) (hspace : c ≠ ' ') (hhash : c ≠ '#') :
    (behindColon index line column tokens (' ' :: c :: cs)).step =
      ((behindColon (index + 1) line (column + 1) tokens (c :: cs)).readToken c cs).map
        fun l => (l, false) :=
  step_eq (toToken_behindColon hplain hspace hhash) (dropStale_of_none rfl)
    (unwind_eq_self (by simp [behindColon])) rfl

theorem saveKey_of_not_keyAllowed {l : Lexer} (hkey : l.keyAllowed = false) :
    l.saveKey = .ok l := by
  simp [saveKey, hkey]

theorem exists_plain_behindColon (index line column : Nat) (tokens : List Token)
    (written : List Char) {cs tail : List Char}
    (hread : plainFrom false 1 .word (written ++ '\n' :: tail) = ⟨cs, tail, true⟩) :
    ∃ index' line',
      (behindColon index line column tokens (written ++ '\n' :: tail)).plain =
        .ok (atLine index' line' [0] (.scalar (String.ofList cs) true :: tokens) tail) := by
  have hsave := saveKey_of_not_keyAllowed
    (l := behindColon index line column tokens (written ++ '\n' :: tail)) rfl
  obtain ⟨i, n, hmove⟩ := moveTo_line
    (l := { behindColon index line column tokens (written ++ '\n' :: tail) with
      keyAllowed := true }) written tail rfl
  refine ⟨i, n, ?_⟩
  simp only [Lexer.plain, hsave, bind, Except.bind]
  simp only [behindColon, ne_eq, not_true_eq_false, decide_false, Nat.zero_add, hread] at hmove ⊢
  rw [hmove]
  rfl

/-- The step of a plain value goes to the next line. -/
theorem exists_step_plain (index line column : Nat) (tokens : List Token) {cs tail : List Char}
    (hcs : PlainText cs) (htail : LineStart tail) (start : Nat) :
    ∃ index' line',
      (behindColon index line column tokens
        (' ' :: (plainText start 0 cs ++ '\n' :: tail))).step =
      .ok (atLine index' line' [0] (.scalar (String.ofList cs) true :: tokens) tail, false) := by
  have hend : ∀ c ∈ tail.head?, c ≠ ' ' ∧ isBreak c = false ∧ atMarker tail = false := by
    intro c hc
    obtain ⟨hplain, hspace, -, hdash, hdot, -⟩ := isPlainChar_of_isKeyChar (htail c hc)
    obtain ⟨ds, rfl⟩ := List.head?_eq_some_iff.1 hc
    exact ⟨hspace, isBreak_eq_false hplain, atMarker_eq_false ds hdash hdot⟩
  have hread := hcs.plainFrom start hend
  obtain ⟨c, ds, rfl⟩ := List.exists_cons_of_ne_nil hcs.ne_nil
  have hplain := hcs.plain c (by simp)
  have hspace : c ≠ ' ' := by simpa using hcs.head
  have hstart := hcs.start
  simp only [mayStart, Bool.and_eq_true, Bool.not_eq_true'] at hstart
  obtain ⟨hlead, hmark⟩ := hstart
  have hhash : c ≠ '#' := by
    rintro rfl
    revert hlead
    decide
  have hwritten : plainText start 0 (c :: ds) = c :: plainText (start + 1) 0 ds := by
    simp [plainText, hspace, breaksAt]
  rw [hwritten, List.cons_append] at hread
  rw [hwritten, List.cons_append, step_behindColon hplain hspace hhash,
    readToken_plain rfl (by simp [behindColon]) hplain hspace hlead
      (fun hc => endsWord_plainText _ _ (by
        rcases hc with rfl | rfl | rfl <;> simpa using hmark))]
  obtain ⟨i, n, hvalue⟩ := exists_plain_behindColon (index + 1) line (column + 1) tokens
    (c :: plainText (start + 1) 0 ds) hread
  exact ⟨i, n, by rw [← List.cons_append, hvalue]; rfl⟩

theorem exists_keyable_behindColon (index line column : Nat) (tokens : List Token)
    {read : List Char → Read (List Char × List Char)} {quote : Char}
    {written text tail : List Char} (htail : LineStart tail)
    (hread : read (written ++ quote :: '\n' :: tail) = .ok (text, '\n' :: tail)) :
    ∃ l index' line',
      (behindColon index line column tokens (quote :: (written ++ quote :: '\n' :: tail))).keyable
        (quotedToken read) (written ++ quote :: '\n' :: tail) = .ok l ∧
      l.toToken = atLine index' line' [0] (.scalar (String.ofList text) false :: tokens) tail := by
  have hsave := saveKey_of_not_keyAllowed
    (l := behindColon index line column tokens (quote :: (written ++ quote :: '\n' :: tail))) rfl
  obtain ⟨i, n, k, hmove⟩ := exists_moveTo
    (l := behindColon index line column tokens (quote :: (written ++ quote :: '\n' :: tail)))
    (quote :: (written ++ [quote])) ('\n' :: tail) (by simp [behindColon])
  obtain ⟨i', n', hend⟩ := exists_toToken_lineEnd
    (l := (behindColon i n k tokens ('\n' :: tail)).push (.scalar (String.ofList text) false))
    rfl rfl rfl rfl htail
  refine ⟨(behindColon i n k tokens ('\n' :: tail)).push (.scalar (String.ofList text) false),
    i', n', ?_, hend⟩
  simp only [keyable, hsave, bind, Except.bind, quotedToken, hread, Except.map]
  rw [show ({ behindColon index line column tokens (quote :: (written ++ quote :: '\n' :: tail))
      with keyAllowed := false } : Lexer) =
    behindColon index line column tokens (quote :: (written ++ quote :: '\n' :: tail)) from rfl,
    hmove]
  rfl

theorem readToken_singleQuote (l : Lexer) (cs : List Char) :
    l.readToken '\'' cs = l.keyable (quotedToken (singleQuoted .none)) cs := by
  have hstart : atDocumentStart ('\'' :: cs) = false := rfl
  have hend : atDocumentEnd ('\'' :: cs) = false := rfl
  simp [readToken, hstart, hend]

theorem readToken_doubleQuote (l : Lexer) (cs : List Char) :
    l.readToken '"' cs = l.keyable (quotedToken (doubleQuoted .none 0)) cs := by
  have hstart : atDocumentStart ('"' :: cs) = false := rfl
  have hend : atDocumentEnd ('"' :: cs) = false := rfl
  simp [readToken, hstart, hend]

/-- The step of a quoted value goes to the end of its line. -/
theorem exists_step_quoted (index line column : Nat) (tokens : List Token)
    {read : List Char → Read (List Char × List Char)} {quote : Char}
    {written text tail : List Char}
    (hquote : ∀ (l : Lexer) cs, l.readToken quote cs = l.keyable (quotedToken read) cs)
    (hchar : isPlainChar quote = true ∧ quote ≠ ' ' ∧ quote ≠ '#') (htail : LineStart tail)
    (hread : read (written ++ quote :: '\n' :: tail) = .ok (text, '\n' :: tail)) :
    ∃ l index' line',
      (behindColon index line column tokens
        (' ' :: quote :: (written ++ quote :: '\n' :: tail))).step = .ok (l, false) ∧
      l.toToken = atLine index' line' [0] (.scalar (String.ofList text) false :: tokens) tail := by
  obtain ⟨l, i, n, hkeyable, hnext⟩ := exists_keyable_behindColon (index + 1) line (column + 1) tokens
    htail hread
  refine ⟨l, i, n, ?_, hnext⟩
  rw [step_behindColon hchar.1 hchar.2.1 hchar.2.2, hquote, hkeyable]
  rfl

/-- The token of a value. -/
def leafToken : Leaf → Token
  | .null => .scalar "null" true
  | .bool true => .scalar "true" true
  | .bool false => .scalar "false" true
  | .text s => .scalar s (isPlain s)

/-- The step of a value goes to the next line. -/
theorem exists_step_scalar (index line column : Nat) (tokens : List Token) {tail : List Char}
    (leaf : Leaf) (start : Nat) (htail : LineStart tail) :
    ∃ l index' line',
      (behindColon index line column tokens (scalar start leaf ++ '\n' :: tail)).step =
        .ok (l, false) ∧
      l.toToken = atLine index' line' [0] (leafToken leaf :: tokens) tail := by
  have hplain : ∀ cs : List Char, PlainText cs → ∃ l index' line',
      (behindColon index line column tokens
        (' ' :: plainText (start + 1) 0 cs ++ '\n' :: tail)).step = .ok (l, false) ∧
      l.toToken = atLine index' line' [0] (.scalar (String.ofList cs) true :: tokens) tail := by
    intro cs hcs
    obtain ⟨i, n, hstep⟩ := exists_step_plain index line column tokens hcs htail (start + 1)
    exact ⟨_, i, n, hstep, toToken_atLine htail⟩
  cases leaf with
  | null => exact hplain "null".toList (.of_all (by decide))
  | bool b =>
      cases b with
      | true => exact hplain "true".toList (.of_all (by decide))
      | false => exact hplain "false".toList (.of_all (by decide))
  | text s =>
      by_cases hs : isPlain s = true
      · have h := hplain s.toList (.of_isPlain hs)
        simpa [scalar, hs, leafToken] using h
      · by_cases hsingle : isSingle s.toList = true
        · obtain ⟨l, i, n, hstep, hnext⟩ := exists_step_quoted index line column tokens
            readToken_singleQuote (by decide) htail
            (singleQuoted_of_isSingle (start + 2) hsingle (by simp))
          refine ⟨l, i, n, ?_, by simpa [leafToken, hs] using hnext⟩
          simpa [scalar, hs, hsingle] using hstep
        · obtain ⟨l, i, n, hstep, hnext⟩ := exists_step_quoted index line column tokens
            readToken_doubleQuote (by decide) htail
            (doubleQuoted_doubleText (start + 2) s.toList ('\n' :: tail))
          refine ⟨l, i, n, ?_, by simpa [leafToken, hs] using hnext⟩
          simpa [scalar, hs, hsingle] using hstep

end JitLens.Yaml.Lexer
