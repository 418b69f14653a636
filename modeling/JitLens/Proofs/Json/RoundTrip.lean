import JitLens.Json.Printer
import JitLens.Json.Reader
import JitLens.Proofs.Text.Digit
import Mathlib.Data.List.Nodup
/-!
# Objects that are written as JSON read back

An object of texts, switches, nothings and further objects is read back from the JSON text that is
written for it, on one line, whatever characters its texts have.
-/

namespace JitLens.Json

/-! ## Strings -/

theorem fourHex?_hexDigits {n : Nat} (hn : n < 0x10000) (cs : List Char) :
    fourHex? (Text.hexDigits false 4 n ++ cs) = some (n, cs) := by
  have htake : (Text.hexDigits false 4 n ++ cs).take 4 = Text.hexDigits false 4 n := by
    rw [List.take_append_of_le_length (by simp), List.take_of_length_le (by simp)]
  have hdrop : (Text.hexDigits false 4 n ++ cs).drop 4 = cs :=
    List.drop_left' (by simp)
  have hnumber : Text.number? 16 (Text.hexDigits false 4 n) = some n :=
    Text.number?_hexDigits (by decide) hn
  simp [fourHex?, htake, hdrop, hnumber]

theorem isHighHalf_toNat (c : Char) : isHighHalf c.toNat = false := by
  have hvalid : c.toNat.isValidChar := c.valid
  rcases hvalid with h | h <;> simp [isHighHalf] <;> omega

theorem isLowHalf_toNat (c : Char) : isLowHalf c.toNat = false := by
  have hvalid : c.toNat.isValidChar := c.valid
  rcases hvalid with h | h <;> simp [isLowHalf] <;> omega

theorem readString_unitEscape {c : Char} (hc : c.toNat < 0x10000) (start fuel p : Nat)
    {cs : List Char} (hcs : cs ≠ []) :
    readString start (fuel + 1) ⟨p, unitEscape c.toNat ++ cs⟩ =
      (readString start fuel ⟨p + 6, cs⟩).map fun (s, after) => (c :: s, after) := by
  have hlength : ¬ (Text.hexDigits false 4 c.toNat ++ cs).length ≤ 4 := by
    have hpos := List.length_pos_iff.2 hcs
    rw [List.length_append, Text.length_hexDigits]
    omega
  rw [unitEscape, List.cons_append, List.cons_append, readString, if_neg hlength]
  simp only [fourHex?_hexDigits hc, isHighHalf_toNat, charOf, isLowHalf_toNat, Bool.or_self,
    Bool.false_eq_true, if_false, Char.ofNat_toNat]

/-- The two halves of a character that does not fit four hexadecimal digits. -/
theorem readString_halves {c : Char} (hc : 0x10000 ≤ c.toNat) (start fuel p : Nat)
    (cs : List Char) :
    readString start (fuel + 1) ⟨p, unitEscape (0xd800 + (c.toNat - 0x10000) / 0x400) ++
        unitEscape (0xdc00 + (c.toNat - 0x10000) % 0x400) ++ cs⟩ =
      (readString start fuel ⟨p + 12, cs⟩).map fun (s, after) => (c :: s, after) := by
  have hlt : c.toNat < 0x110000 := by
    have hvalid : c.toNat.isValidChar := c.valid
    rcases hvalid with h | h <;> omega
  generalize hhigh : 0xd800 + (c.toNat - 0x10000) / 0x400 = high
  generalize hlow : 0xdc00 + (c.toNat - 0x10000) % 0x400 = low
  have hcode : 0x10000 + (high - 0xd800) * 0x400 + (low - 0xdc00) = c.toNat := by omega
  have hhalves : isHighHalf high = true ∧ isLowHalf low = true := by
    simp only [isHighHalf, isLowHalf, Bool.and_eq_true, decide_eq_true_eq]
    omega
  have hlength : ¬ (Text.hexDigits false 4 high ++ (unitEscape low ++ cs)).length ≤ 4 := by
    simp [unitEscape]
  have hsecond : lowHalf? (unitEscape low ++ cs) = some (low, cs) := by
    rw [unitEscape, List.cons_append, List.cons_append, lowHalf?, fourHex?_hexDigits (by omega)]
    simp [hhalves.2]
  rw [List.append_assoc, unitEscape, List.cons_append, List.cons_append, readString,
    if_neg hlength]
  simp only [fourHex?_hexDigits (show high < 0x10000 by omega), hhalves.1, if_true, hsecond, hcode,
    Char.ofNat_toNat]

theorem readString_char {c : Char} (hquote : c ≠ '"') (hback : c ≠ '\\') (hplain : 0x20 ≤ c.toNat)
    (start fuel p : Nat) (cs : List Char) :
    readString start (fuel + 1) ⟨p, c :: cs⟩ =
      (readString start fuel ⟨p + 1, cs⟩).map fun (s, after) => (c :: s, after) := by
  rw [readString.eq_def]
  simp [hback, Nat.not_lt.2 hplain, Cursor.next]

/-- A character is read back from its place in a string. -/
theorem readString_stringChar (c : Char) (start fuel p : Nat) {cs : List Char} (hcs : cs ≠ []) :
    ∃ p', readString start (fuel + 1) ⟨p, stringChar c ++ cs⟩ =
      (readString start fuel ⟨p', cs⟩).map fun (s, after) => (c :: s, after) := by
  have hchar : ∀ n, c.toNat = n → c = Char.ofNat n := by
    rintro n rfl
    rw [Char.ofNat_toNat]
  -- The cases are those of the writer, from the marked characters to the halves.
  unfold stringChar
  dsimp only
  split
  · next hmarked =>
    rcases hmarked with rfl | rfl
    · exact ⟨p + 2, rfl⟩
    · exact ⟨p + 2, rfl⟩
  · next hmarked =>
    rw [not_or] at hmarked
    split
    · next hc => exact ⟨p + 2, by rw [hc]; rfl⟩
    split
    · next hc => exact ⟨p + 2, by rw [hc]; rfl⟩
    split
    · next hc => exact ⟨p + 2, by rw [hc]; rfl⟩
    split
    · next hc => exact ⟨p + 2, by rw [hchar _ hc]; rfl⟩
    split
    · next hc => exact ⟨p + 2, by rw [hchar _ hc]; rfl⟩
    split
    · next hc => exact ⟨p + 1, readString_char hmarked.1 hmarked.2 hc.1 _ _ _ _⟩
    split
    · next hc => exact ⟨p + 6, readString_unitEscape hc _ _ _ hcs⟩
    · next hc => exact ⟨p + 12, readString_halves (Nat.le_of_not_lt hc) _ _ _ _⟩

theorem length_le_flatMap_stringChar (s : List Char) :
    s.length ≤ (s.flatMap stringChar).length := by
  induction s with
  | nil => exact Nat.le_refl _
  | cons c s ih =>
      have hpos : 0 < (stringChar c).length := by
        unfold stringChar unitEscape
        dsimp only
        repeat' split
        all_goals simp
      rw [List.flatMap_cons, List.length_append, List.length_cons]
      omega

theorem readString_string (s : List Char) (start p : Nat) {fuel : Nat} (hfuel : s.length < fuel)
    (rest : List Char) : ∃ p', readString start fuel
      ⟨p, s.flatMap stringChar ++ '"' :: rest⟩ = .ok (s, ⟨p', rest⟩) := by
  induction s generalizing p fuel with
  | nil =>
      obtain ⟨fuel, rfl⟩ := Nat.exists_eq_add_of_lt hfuel
      exact ⟨p + 1, rfl⟩
  | cons c s ih =>
      obtain ⟨fuel, rfl⟩ : ∃ n, fuel = n + 1 := ⟨fuel - 1, by omega⟩
      rw [List.length_cons, Nat.add_lt_add_iff_right] at hfuel
      obtain ⟨p₁, hchar⟩ := readString_stringChar c start fuel p
        (show s.flatMap stringChar ++ '"' :: rest ≠ [] by simp)
      obtain ⟨p₂, hrest⟩ := ih p₁ hfuel
      refine ⟨p₂, ?_⟩
      rw [List.flatMap_cons, List.append_assoc, hchar, hrest]
      rfl

/-! ## Values -/

/-- Objects of texts, switches, nothings and further objects, which are less than so many objects
deep and name nothing twice. -/
inductive Written : Nat → Value → Prop
  | null {d : Nat} : Written (d + 1) .null
  | bool {d : Nat} (b : Bool) : Written (d + 1) (.bool b)
  | text {d : Nat} (s : String) : Written (d + 1) (.text s)
  | map {d : Nat} {es : List (String × Value)} (hnodup : (es.map Prod.fst).Nodup)
      (hes : ∀ e ∈ es, Written d e.2) :
      Written (d + 1) (.map (es.map fun (name, v) => (.text name, v)))

/-- What is written for the members of an object, on one line. -/
def membersText (n : Nat) : List (String × Value) → List Char
  | [] => []
  | [(name, v)] => (string name).toList ++ [':', ' '] ++ (writeAt .line n v).toList
  | (name, v) :: e :: es =>
    (string name).toList ++ [':', ' '] ++ (writeAt .line n v).toList ++ [',', ' '] ++
      membersText n (e :: es)

theorem toList_writeAt_map (n : Nat) (es : List (String × Value)) :
    (writeAt .line n (.map (es.map fun (name, v) => (.text name, v)))).toList =
      '\x7b' :: membersText (n + 1) es ++ ['\x7d'] := by
  have hmembers : [',', ' '].intercalate ((writeMembers .line (n + 1)
      (es.map fun (name, v) => (.text name, v))).map String.toList) = membersText (n + 1) es := by
    induction es with
    | nil => rfl
    | cons e es ih =>
        obtain ⟨name, v⟩ := e
        cases es with
        | nil => simp [writeMembers, membersText, Value.display]
        | cons e es =>
            simp only [List.map_cons, writeMembers, membersText] at ih ⊢
            rw [List.intercalate_cons_cons, ih]
            simp [Value.display]
  rw [writeAt]
  cases es with
  | nil =>
      rw [List.map_nil, writeMembers]
      simp [bracketed, membersText]
  | cons e es =>
      have hseparator : Layout.line.between.toList = [',', ' '] := rfl
      have hbefore : ∀ items : List String,
          items.map (fun i => Layout.line.before (n + 1) ++ i) = items := by
        simp [Layout.before]
      rw [← hmembers, bracketed, if_neg (by simp [writeMembers]), hbefore, String.toList_append,
        String.toList_append, String.toList_append, String.toList_intercalate, hseparator]
      simp [Layout.before]

theorem skipSpaces_of_not_space {c : Char} (hc : isSpace c = false) (p : Nat) (cs : List Char) :
    skipSpaces ⟨p, c :: cs⟩ = ⟨p, c :: cs⟩ := by
  simp [skipSpaces, hc]

theorem skipSpaces_space {c : Char} (hc : isSpace c = false) (p : Nat) (cs : List Char) :
    skipSpaces ⟨p, ' ' :: c :: cs⟩ = ⟨p + 1, c :: cs⟩ := by
  have hspace : isSpace ' ' = true := rfl
  simp [skipSpaces, hc, hspace]

theorem putEntry_text {es : List (String × Value)} {name : String} (hname : name ∉ es.map Prod.fst)
    (v : Value) : Value.putEntry (es.map fun (name, v) => (.text name, v)) (.text name) v =
      (es ++ [(name, v)]).map fun (name, v) => (.text name, v) := by
  induction es with
  | nil => rfl
  | cons e es ih =>
      obtain ⟨k, w⟩ := e
      rw [List.map_cons, List.mem_cons, not_or] at hname
      have hk : Value.sameKey (.text k) (.text name) = false := by
        simp only [Value.sameKey, beq_eq_false_iff_ne]
        exact Ne.symm hname.1
      have hrest := ih hname.2
      simp only [Value.putEntry, List.map_cons, List.cons_append, putBy] at hrest ⊢
      rw [hk, hrest]
      rfl

/-- What is written for a value does not start with white space. -/
theorem exists_cons_writeAt {d : Nat} {v : Value} (hv : Written d v) (n : Nat) :
    ∃ c cs, (writeAt .line n v).toList = c :: cs ∧ isSpace c = false := by
  cases hv with
  | null => exact ⟨'n', ['u', 'l', 'l'], by rw [writeAt]; rfl, rfl⟩
  | bool b =>
      cases b with
      | false => exact ⟨'f', ['a', 'l', 's', 'e'], by rw [writeAt]; rfl, rfl⟩
      | true => exact ⟨'t', ['r', 'u', 'e'], by rw [writeAt]; rfl, rfl⟩
  | text s => exact ⟨'"', s.toList.flatMap stringChar ++ ['"'], by simp [writeAt, string], rfl⟩
  | map hnodup hes => exact ⟨'\x7b', _, toList_writeAt_map _ _, rfl⟩

/-- What is written for a value is read back, whatever stands behind it. -/
def ReadsBack (d : Nat) (v : Value) : Prop :=
  ∀ (n fuel p : Nat) (rest : List Char), (writeAt .line n v).toList.length ≤ fuel →
    ∃ p', readValue fuel d ⟨p, (writeAt .line n v).toList ++ rest⟩ = .ok (v, ⟨p', rest⟩)

theorem exists_cons_membersText (n : Nat) (e : String × Value) (es : List (String × Value)) :
    ∃ cs, membersText n (e :: es) = '"' :: cs := by
  cases es <;> simp [membersText, string]

/-- A member of an object is read; what stands behind it says whether it is the last one. -/
theorem readMembers_member {d : Nat} {v : Value} (hv : Written d v) (hback : ReadsBack d v)
    (n : Nat) {fuel : Nat} (p : Nat) (name : String) (before : List (Value × Value))
    (next : Char) (rest : List Char) (hnext : isSpace next = false)
    (hfuel : (writeAt .line n v).toList.length ≤ fuel) :
    ∃ p', let start : Cursor :=
        ⟨p, (string name).toList ++ [':', ' '] ++ (writeAt .line n v).toList ++ next :: rest⟩
      let entries := Value.putEntry before (.text name) v
      (next = '\x7d' → readMembers (fuel + 1) d before start = .ok (entries, .next p' rest)) ∧
      (next = ',' → readMembers (fuel + 1) d before start =
        readMembers fuel d entries (skipSpaces (.next p' rest))) := by
  obtain ⟨c, cs, hwritten, hc⟩ := exists_cons_writeAt hv n
  generalize htail : ':' :: ' ' :: ((writeAt .line n v).toList ++ next :: rest) = tail
  have htext : (string name).toList ++ [':', ' '] ++ (writeAt .line n v).toList ++ next :: rest =
      '"' :: (name.toList.flatMap stringChar ++ '"' :: tail) := by
    rw [← htail]
    simp [string]
  have hletters : name.toList.length <
      (name.toList.flatMap stringChar ++ '"' :: tail).length + 1 := by
    have hshort := length_le_flatMap_stringChar name.toList
    rw [List.length_append]
    omega
  obtain ⟨p₁, hname⟩ := readString_string name.toList p (p + 1) hletters tail
  obtain ⟨p₂, hvalue⟩ := hback n fuel (p₁ + 2) (next :: rest) hfuel
  have hcolon : skipSpaces ⟨p₁, tail⟩ = ⟨p₁, tail⟩ := by
    rw [← htail]
    exact skipSpaces_of_not_space rfl _ _
  have hspace : skipSpaces (.next p₁ (' ' :: ((writeAt .line n v).toList ++ next :: rest))) =
      ⟨p₁ + 2, (writeAt .line n v).toList ++ next :: rest⟩ := by
    rw [hwritten]
    exact skipSpaces_space hc _ _
  refine ⟨p₂, ?_, ?_⟩
  all_goals
    rintro rfl
    rw [htext, readMembers]
    simp only [Cursor.next, bind, Except.bind, hname, hcolon]
    subst htail
    simp only [Cursor.next] at hspace
    simp only [hspace, hvalue, skipSpaces_of_not_space hnext, String.ofList_toList]

/-- The members of an object are read up to its end, behind those already read. -/
theorem readMembers_membersText {d : Nat} (n : Nat) {es : List (String × Value)} (hne : es ≠ [])
    (hes : ∀ e ∈ es, Written d e.2 ∧ ReadsBack d e.2) {done : List (String × Value)}
    (hnodup : ((done ++ es).map Prod.fst).Nodup) {fuel : Nat} (p : Nat) (rest : List Char)
    (hfuel : (membersText n es).length ≤ fuel) :
    ∃ p', readMembers fuel d (done.map fun (name, v) => (.text name, v))
        ⟨p, membersText n es ++ '\x7d' :: rest⟩ =
      .ok ((done ++ es).map fun (name, v) => (.text name, v), ⟨p', rest⟩) := by
  -- A member takes one step of the fuel, and what is written for it is longer than that.
  induction es generalizing done fuel p with
  | nil => exact absurd rfl hne
  | cons e es ih =>
      obtain ⟨name, v⟩ := e
      obtain ⟨hv, hback⟩ : Written d v ∧ ReadsBack d v := hes _ List.mem_cons_self
      have hname : name ∉ done.map Prod.fst := by
        rw [List.map_append, List.map_cons] at hnodup
        intro hmem
        exact (List.nodup_append.1 hnodup).2.2 _ hmem _ List.mem_cons_self rfl
      cases es with
      | nil =>
          simp only [membersText, List.length_append, List.length_cons, List.length_nil] at hfuel
          obtain ⟨fuel, rfl⟩ : ∃ m, fuel = m + 1 := ⟨fuel - 1, by omega⟩
          obtain ⟨p', hlast, -⟩ := readMembers_member hv hback n p name
            (done.map fun (name, v) => (.text name, v)) '\x7d' rest rfl
            (show (writeAt .line n v).toList.length ≤ fuel by omega)
          refine ⟨p' + 1, ?_⟩
          rw [membersText, hlast rfl, putEntry_text hname]
          rfl
      | cons e es =>
          simp only [membersText, List.length_append, List.length_cons, List.length_nil] at hfuel
          obtain ⟨fuel, rfl⟩ : ∃ m, fuel = m + 1 := ⟨fuel - 1, by omega⟩
          have hstep : done ++ (name, v) :: e :: es = (done ++ [(name, v)]) ++ e :: es := by simp
          obtain ⟨cs, hquote⟩ := exists_cons_membersText n e es
          obtain ⟨p₁, -, hmore⟩ := readMembers_member hv hback n p name
            (done.map fun (name, v) => (.text name, v)) ','
            (' ' :: (membersText n (e :: es) ++ '\x7d' :: rest)) rfl
            (show (writeAt .line n v).toList.length ≤ fuel by omega)
          obtain ⟨p₂, hrest⟩ := ih (List.cons_ne_nil e es)
            (fun d hd => hes d (List.mem_cons_of_mem _ hd)) (hstep ▸ hnodup) (p₁ + 2)
            (show (membersText n (e :: es)).length ≤ fuel by omega)
          have hspace : skipSpaces (.next p₁ (' ' :: (membersText n (e :: es) ++ '\x7d' :: rest))) =
              ⟨p₁ + 2, membersText n (e :: es) ++ '\x7d' :: rest⟩ := by
            rw [hquote]
            exact skipSpaces_space rfl _ _
          have htext : membersText n ((name, v) :: e :: es) ++ '\x7d' :: rest =
              (string name).toList ++ [':', ' '] ++ (writeAt .line n v).toList ++
                ',' :: ' ' :: (membersText n (e :: es) ++ '\x7d' :: rest) := by
            simp [membersText]
          refine ⟨p₂, ?_⟩
          rw [htext, hmore rfl, putEntry_text hname, hstep, hspace]
          exact hrest

theorem readsBack_word {d : Nat} {v : Value} {c : Char} {cs : List Char}
    (htext : ∀ n, (writeAt .line n v).toList = c :: cs)
    (hread : ∀ fuel p rest, readValue (fuel + 1) d ⟨p, c :: cs ++ rest⟩ =
      .ok (v, ⟨p + (c :: cs).length, rest⟩)) : ReadsBack d v := by
  intro n fuel p rest hfuel
  rw [htext, List.length_cons] at hfuel
  obtain ⟨fuel, rfl⟩ := Nat.exists_eq_add_of_le' (Nat.le_of_add_left_le hfuel)
  rw [htext]
  exact ⟨_, hread fuel p rest⟩

theorem readsBack_text (d : Nat) (s : String) : ReadsBack (d + 1) (.text s) := by
  intro n fuel p rest hfuel
  have htext : (writeAt .line n (.text s)).toList =
      '"' :: (s.toList.flatMap stringChar ++ ['"']) := by
    simp [writeAt, string]
  have hletters : s.toList.length < (s.toList.flatMap stringChar ++ '"' :: rest).length + 1 := by
    have hshort := length_le_flatMap_stringChar s.toList
    rw [List.length_append]
    omega
  obtain ⟨p', hstring⟩ := readString_string s.toList p (p + 1) hletters rest
  rw [htext, List.length_cons] at hfuel
  obtain ⟨fuel, rfl⟩ := Nat.exists_eq_add_of_le' (Nat.le_of_add_left_le hfuel)
  refine ⟨p', ?_⟩
  rw [htext, List.cons_append, List.append_assoc, List.singleton_append, readValue]
  simp only [Cursor.next, hstring, Except.map, String.ofList_toList]

theorem readsBack_map {d : Nat} {es : List (String × Value)} (hnodup : (es.map Prod.fst).Nodup)
    (hes : ∀ e ∈ es, Written d e.2 ∧ ReadsBack d e.2) :
    ReadsBack (d + 1) (.map (es.map fun (name, v) => (.text name, v))) := by
  intro n fuel p rest hfuel
  rw [toList_writeAt_map, List.cons_append, List.length_cons, List.length_append] at hfuel
  obtain ⟨fuel, rfl⟩ := Nat.exists_eq_add_of_le' (Nat.le_of_add_left_le hfuel)
  rw [toList_writeAt_map, List.cons_append, List.cons_append, List.append_assoc,
    List.singleton_append]
  cases es with
  | nil => exact ⟨p + 2, rfl⟩
  | cons e es =>
      obtain ⟨cs, hquote⟩ := exists_cons_membersText (n + 1) e es
      obtain ⟨p', hmembers⟩ := readMembers_membersText (n + 1) (List.cons_ne_nil e es) hes
        (show (([] ++ e :: es).map Prod.fst).Nodup from hnodup) (p + 1) rest
        (show (membersText (n + 1) (e :: es)).length ≤ fuel by omega)
      have hinside : skipSpaces (.next p ('"' :: (cs ++ '\x7d' :: rest))) =
          ⟨p + 1, '"' :: (cs ++ '\x7d' :: rest)⟩ := skipSpaces_of_not_space rfl _ _
      rw [hquote, List.cons_append, List.map_nil] at hmembers
      refine ⟨p', ?_⟩
      rw [hquote, List.cons_append, readValue]
      simp only [hinside, hmembers]
      rfl

/-- A value is read back, whatever stands behind what is written for it. -/
theorem Written.readsBack {d : Nat} {v : Value} (hv : Written d v) : ReadsBack d v := by
  induction hv with
  | null => exact readsBack_word (fun n => by rw [writeAt]; rfl) fun _ _ _ => rfl
  | bool b =>
      cases b with
      | false => exact readsBack_word (fun n => by rw [writeAt]; rfl) fun _ _ _ => rfl
      | true => exact readsBack_word (fun n => by rw [writeAt]; rfl) fun _ _ _ => rfl
  | text s => exact readsBack_text _ s
  | map hnodup hes ih => exact readsBack_map hnodup fun e he => ⟨hes e he, ih e he⟩

/-- An object that is written as JSON is read back. -/
theorem read_write {v : Value} (hv : Written mostDepth v) :
    read (write .line v).toList = .ok v := by
  obtain ⟨c, cs, htext, hc⟩ := exists_cons_writeAt hv 0
  obtain ⟨p', hread⟩ := hv.readsBack 0 (2 * (write .line v).toList.length + 2) 0 []
    (show (write .line v).toList.length ≤ _ by omega)
  rw [List.append_nil] at hread
  have hstart : skipSpaces ⟨0, (write .line v).toList⟩ = ⟨0, (write .line v).toList⟩ := by
    unfold write
    rw [htext]
    exact skipSpaces_of_not_space hc _ _
  unfold read
  rw [hstart]
  change (readValue _ _ ⟨0, (writeAt .line 0 v).toList⟩ >>= _) = _
  rw [hread]
  rfl

end JitLens.Json
