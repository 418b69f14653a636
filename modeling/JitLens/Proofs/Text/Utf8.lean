import JitLens.Text.Utf8
import Mathlib.Tactic.SplitIfs
/-!
# UTF-8 read back

The bytes of a text are read as that text, whatever its characters are, and bytes that are read as
a text are those of the text.
-/

namespace JitLens.Text

theorem toNat_ofNat_of_lt {n : Nat} (hn : n < 256) : (UInt8.ofNat n).toNat = n := by
  simp [Nat.mod_eq_of_lt hn]

/-- The code points of characters leave out the surrogates. -/
theorem toNat_ranges (c : Char) :
    c.toNat < 0xd800 ∨ 0xdfff < c.toNat ∧ c.toNat < 0x110000 :=
  c.valid

theorem decodeNext_one {n : Nat} (hn : n < 0x80) (rest : Bytes) :
    decodeNext (UInt8.ofNat n) rest = .char (Char.ofNat n) 1 := by
  have hb := toNat_ofNat_of_lt (show n < 256 by omega)
  simp only [decodeNext, hb, if_pos hn]

theorem decodeNext_two {n : Nat} (hlow : 0x80 ≤ n) (hhigh : n < 0x800) (rest : Bytes) :
    decodeNext (UInt8.ofNat (0xc0 + n / 64)) (UInt8.ofNat (0x80 + n % 64) :: rest) =
      .char (Char.ofNat n) 2 := by
  have hb := toNat_ofNat_of_lt (show 0xc0 + n / 64 < 256 by omega)
  have hc := toNat_ofNat_of_lt (show 0x80 + n % 64 < 256 by omega)
  have hcont : isContinuation (UInt8.ofNat (0x80 + n % 64)) = true := by
    simp only [isContinuation, hc, Bool.and_eq_true, decide_eq_true_eq]
    omega
  simp only [decodeNext, hb, hc, hcont, if_true]
  rw [if_neg (by omega), if_neg (by omega), if_pos (by omega),
    show (0xc0 + n / 64 - 0xc0) * 64 + (0x80 + n % 64 - 0x80) = n by omega]

theorem decodeNext_three {n : Nat} (hlow : 0x800 ≤ n) (hhigh : n < 0x10000)
    (hvalid : n < 0xd800 ∨ 0xdfff < n) (rest : Bytes) :
    decodeNext (UInt8.ofNat (0xe0 + n / 4096)) (UInt8.ofNat (0x80 + n / 64 % 64) ::
      UInt8.ofNat (0x80 + n % 64) :: rest) = .char (Char.ofNat n) 3 := by
  have hb := toNat_ofNat_of_lt (show 0xe0 + n / 4096 < 256 by omega)
  have hc := toNat_ofNat_of_lt (show 0x80 + n / 64 % 64 < 256 by omega)
  have hd := toNat_ofNat_of_lt (show 0x80 + n % 64 < 256 by omega)
  have hfits : secondFits (UInt8.ofNat (0xe0 + n / 4096))
      (UInt8.ofNat (0x80 + n / 64 % 64)) = true := by
    simp only [secondFits, secondRange, hb, hc]
    split_ifs <;> simp only [Bool.and_eq_true, decide_eq_true_eq] <;> omega
  have hcont : isContinuation (UInt8.ofNat (0x80 + n % 64)) = true := by
    simp only [isContinuation, hd, Bool.and_eq_true, decide_eq_true_eq]
    omega
  simp only [decodeNext, hb, hc, hd, hfits, hcont, Bool.not_true, Bool.false_eq_true, if_false]
  rw [if_neg (by omega), if_neg (by omega), if_neg (by omega), if_pos (by omega),
    show (0xe0 + n / 4096 - 0xe0) * 4096 + (0x80 + n / 64 % 64 - 0x80) * 64 +
      (0x80 + n % 64 - 0x80) = n by omega]

theorem decodeNext_four {n : Nat} (hlow : 0x10000 ≤ n) (hhigh : n < 0x110000) (rest : Bytes) :
    decodeNext (UInt8.ofNat (0xf0 + n / 262144)) (UInt8.ofNat (0x80 + n / 4096 % 64) ::
      UInt8.ofNat (0x80 + n / 64 % 64) :: UInt8.ofNat (0x80 + n % 64) :: rest) =
      .char (Char.ofNat n) 4 := by
  have hb := toNat_ofNat_of_lt (show 0xf0 + n / 262144 < 256 by omega)
  have hc := toNat_ofNat_of_lt (show 0x80 + n / 4096 % 64 < 256 by omega)
  have hd := toNat_ofNat_of_lt (show 0x80 + n / 64 % 64 < 256 by omega)
  have he := toNat_ofNat_of_lt (show 0x80 + n % 64 < 256 by omega)
  have hfits : secondFits (UInt8.ofNat (0xf0 + n / 262144))
      (UInt8.ofNat (0x80 + n / 4096 % 64)) = true := by
    simp only [secondFits, secondRange, hb, hc]
    split_ifs <;> simp only [Bool.and_eq_true, decide_eq_true_eq] <;> omega
  have hcont : isContinuation (UInt8.ofNat (0x80 + n / 64 % 64)) = true := by
    simp only [isContinuation, hd, Bool.and_eq_true, decide_eq_true_eq]
    omega
  have hlast : isContinuation (UInt8.ofNat (0x80 + n % 64)) = true := by
    simp only [isContinuation, he, Bool.and_eq_true, decide_eq_true_eq]
    omega
  simp only [decodeNext, hb, hc, hd, he, hfits, hcont, hlast, Bool.not_true, Bool.false_eq_true,
    if_false]
  rw [if_neg (by omega), if_neg (by omega), if_neg (by omega), if_neg (by omega),
    if_pos (by omega),
    show (0xf0 + n / 262144 - 0xf0) * 262144 + (0x80 + n / 4096 % 64 - 0x80) * 4096 +
      (0x80 + n / 64 % 64 - 0x80) * 64 + (0x80 + n % 64 - 0x80) = n by omega]

/-- The first byte of a character tells the character and the count of its bytes. -/
theorem exists_decodeNext_encodeChar (c : Char) :
    ∃ b bs, encodeChar c = b :: bs ∧
      ∀ rest, decodeNext b (bs ++ rest) = .char c (bs.length + 1) := by
  have hranges := toNat_ranges c
  simp only [encodeChar]
  split_ifs with h1 h2 h3
  · refine ⟨_, _, rfl, fun rest => ?_⟩
    rw [decodeNext_one h1, Char.ofNat_toNat]
    rfl
  · refine ⟨_, _, rfl, fun rest => ?_⟩
    rw [List.cons_append, List.nil_append, decodeNext_two (by omega) h2, Char.ofNat_toNat]
    rfl
  · refine ⟨_, _, rfl, fun rest => ?_⟩
    simp only [List.cons_append, List.nil_append]
    rw [decodeNext_three (by omega) h3 (by omega), Char.ofNat_toNat]
    rfl
  · refine ⟨_, _, rfl, fun rest => ?_⟩
    simp only [List.cons_append, List.nil_append]
    rw [decodeNext_four (by omega) (by omega), Char.ofNat_toNat]
    rfl

theorem decodeFrom_skip (position : Nat) (bs rest : Bytes) :
    decodeFrom position bs.length (bs ++ rest) = decodeFrom (position + bs.length) 0 rest := by
  induction bs generalizing position with
  | nil => rfl
  | cons b bs ih =>
      rw [List.length_cons, List.cons_append, decodeFrom, ih]
      congr 1
      omega

theorem exists_decodeFrom_encodeChar (position : Nat) (c : Char) (rest : Bytes) :
    ∃ next, decodeFrom position 0 (encodeChar c ++ rest) =
      (decodeFrom next 0 rest).map (c :: ·) := by
  obtain ⟨b, bs, hbytes, hnext⟩ := exists_decodeNext_encodeChar c
  refine ⟨position + 1 + bs.length, ?_⟩
  rw [hbytes, List.cons_append, decodeFrom, hnext]
  simp only [Nat.add_sub_cancel, decodeFrom_skip]

theorem decodeFrom_encode (position : Nat) (cs : List Char) :
    decodeFrom position 0 (encode cs) = .ok cs := by
  induction cs generalizing position with
  | nil => rfl
  | cons c cs ih =>
      obtain ⟨next, hnext⟩ := exists_decodeFrom_encodeChar position c (encode cs)
      rw [encode, List.flatMap_cons, ← encode, hnext, ih]
      rfl

/-- The bytes of a text are read as the text. -/
theorem decode_encode (cs : List Char) : decode (encode cs) = .ok cs :=
  decodeFrom_encode 0 cs

theorem encode_injective {cs ds : List Char} (h : encode cs = encode ds) : cs = ds := by
  have hdecode := decode_encode cs
  rw [h, decode_encode, Except.ok.injEq] at hdecode
  exact hdecode.symm

/-! ## Reading with replacement -/

theorem decodeLossyFrom_skip (bs rest : Bytes) :
    decodeLossyFrom bs.length (bs ++ rest) = decodeLossyFrom 0 rest := by
  induction bs with
  | nil => rfl
  | cons b bs ih => rw [List.length_cons, List.cons_append, decodeLossyFrom, ih]

/-- Nothing of a text is replaced when its bytes are read. -/
theorem decodeLossy_encode (cs : List Char) : decodeLossy (encode cs) = cs := by
  unfold decodeLossy
  induction cs with
  | nil => rfl
  | cons c cs ih =>
      obtain ⟨b, bs, hbytes, hnext⟩ := exists_decodeNext_encodeChar c
      rw [encode, List.flatMap_cons, ← encode, hbytes, List.cons_append, decodeLossyFrom, hnext]
      simp only [Nat.add_sub_cancel, decodeLossyFrom_skip, ih]

/-! ## Writing back what was read -/

theorem toNat_ofNat_of_isValidChar {n : Nat} (hn : n.isValidChar) : (Char.ofNat n).toNat = n := by
  rw [Char.ofNat, dif_pos hn]
  rfl

theorem isContinuation_iff {b : UInt8} :
    isContinuation b = true ↔ 0x80 ≤ b.toNat ∧ b.toNat < 0xc0 := by
  simp [isContinuation]

/-- A second byte that fits continues a character, and one that is in none of the gaps. -/
theorem secondFits_iff {first second : UInt8} (hlow : 0xe0 ≤ first.toNat) (hhigh : first.toNat < 0xf5) :
    secondFits first second = true ↔
      0x80 ≤ second.toNat ∧ second.toNat < 0xc0 ∧
        (first.toNat = 0xe0 → 0xa0 ≤ second.toNat) ∧ (first.toNat = 0xed → second.toNat < 0xa0) ∧
        (first.toNat = 0xf0 → 0x90 ≤ second.toNat) ∧ (first.toNat = 0xf4 → second.toNat < 0x90) := by
  simp only [secondFits, secondRange]
  split_ifs <;> simp only [Bool.and_eq_true, decide_eq_true_eq] <;> omega

theorem encodeChar_ofNat {n : Nat} (hn : n.isValidChar) : encodeChar (Char.ofNat n) =
    if n < 0x80 then [UInt8.ofNat n]
    else if n < 0x800 then [UInt8.ofNat (0xc0 + n / 64), UInt8.ofNat (0x80 + n % 64)]
    else if n < 0x10000 then
      [UInt8.ofNat (0xe0 + n / 4096), UInt8.ofNat (0x80 + n / 64 % 64), UInt8.ofNat (0x80 + n % 64)]
    else
      [UInt8.ofNat (0xf0 + n / 262144), UInt8.ofNat (0x80 + n / 4096 % 64),
        UInt8.ofNat (0x80 + n / 64 % 64), UInt8.ofNat (0x80 + n % 64)] := by
  simp only [encodeChar, toNat_ofNat_of_isValidChar hn]

theorem ofNat_eq_of_toNat {b : UInt8} {n : Nat} (hn : n = b.toNat) : UInt8.ofNat n = b := by
  rw [hn, UInt8.ofNat_toNat]

theorem encodeChar_two {b d : UInt8} (hlow : 0xc2 ≤ b.toNat) (hhigh : b.toNat < 0xe0)
    (hd : isContinuation d = true) :
    encodeChar (Char.ofNat ((b.toNat - 0xc0) * 64 + (d.toNat - 0x80))) = [b, d] := by
  rw [isContinuation_iff] at hd
  rw [encodeChar_ofNat (by left; omega), if_neg (by omega), if_pos (by omega),
    ofNat_eq_of_toNat (b := b) (by omega), ofNat_eq_of_toNat (b := d) (by omega)]

theorem encodeChar_three {b d e : UInt8} (hlow : 0xe0 ≤ b.toNat) (hhigh : b.toNat < 0xf0)
    (hd : secondFits b d = true) (he : isContinuation e = true) :
    encodeChar (Char.ofNat
      ((b.toNat - 0xe0) * 4096 + (d.toNat - 0x80) * 64 + (e.toNat - 0x80))) = [b, d, e] := by
  rw [secondFits_iff (by omega) (by omega)] at hd
  rw [isContinuation_iff] at he
  rw [encodeChar_ofNat (by unfold Nat.isValidChar; omega), if_neg (by omega), if_neg (by omega),
    if_pos (by omega), ofNat_eq_of_toNat (b := b) (by omega),
    ofNat_eq_of_toNat (b := d) (by omega), ofNat_eq_of_toNat (b := e) (by omega)]

theorem encodeChar_four {b d e f : UInt8} (hlow : 0xf0 ≤ b.toNat) (hhigh : b.toNat < 0xf5)
    (hd : secondFits b d = true) (he : isContinuation e = true) (hf : isContinuation f = true) :
    encodeChar (Char.ofNat ((b.toNat - 0xf0) * 262144 + (d.toNat - 0x80) * 4096 +
      (e.toNat - 0x80) * 64 + (f.toNat - 0x80))) = [b, d, e, f] := by
  rw [secondFits_iff (by omega) (by omega)] at hd
  rw [isContinuation_iff] at he hf
  rw [encodeChar_ofNat (by unfold Nat.isValidChar; omega), if_neg (by omega), if_neg (by omega),
    if_neg (by omega), ofNat_eq_of_toNat (b := b) (by omega),
    ofNat_eq_of_toNat (b := d) (by omega), ofNat_eq_of_toNat (b := e) (by omega),
    ofNat_eq_of_toNat (b := f) (by omega)]

/-- The bytes that a character was read from are its bytes. -/
theorem encodeChar_of_decodeNext {b : UInt8} {rest : Bytes} {c : Char} {size : Nat}
    (hnext : decodeNext b rest = .char c size) : encodeChar c = b :: rest.take (size - 1) := by
  unfold decodeNext at hnext
  dsimp only at hnext
  split_ifs at hnext with h1 h2 h3 h4 h5
  · rw [Decoded.char.injEq] at hnext
    obtain ⟨rfl, rfl⟩ := hnext
    rw [encodeChar_ofNat (by left; omega), if_pos h1, UInt8.ofNat_toNat]
    rfl
  · match rest, hnext with
    | d :: rest, hnext =>
      dsimp only at hnext
      split_ifs at hnext with hd
      rw [Decoded.char.injEq] at hnext
      obtain ⟨rfl, rfl⟩ := hnext
      exact encodeChar_two (by omega) h3 hd
  · match rest, hnext with
    | [d], hnext =>
      dsimp only at hnext
      split_ifs at hnext
    | d :: e :: rest, hnext =>
      dsimp only at hnext
      split_ifs at hnext with hd he
      rw [Decoded.char.injEq] at hnext
      obtain ⟨rfl, rfl⟩ := hnext
      exact encodeChar_three (by omega) h4 (by simpa using hd) (by simpa using he)
  · match rest, hnext with
    | [d], hnext =>
      dsimp only at hnext
      split_ifs at hnext
    | [d, e], hnext =>
      dsimp only at hnext
      split_ifs at hnext
    | d :: e :: f :: rest, hnext =>
      dsimp only at hnext
      split_ifs at hnext with hd he hf
      rw [Decoded.char.injEq] at hnext
      obtain ⟨rfl, rfl⟩ := hnext
      exact encodeChar_four (by omega) h5 (by simpa using hd) (by simpa using he) (by simpa using hf)

theorem encode_of_decodeFrom {position skip : Nat} {bs : Bytes} {cs : List Char}
    (hdecode : decodeFrom position skip bs = .ok cs) : encode cs = bs.drop skip := by
  fun_induction decodeFrom position skip bs generalizing cs with
  | case1 =>
      cases hdecode
      simp [encode]
  | case2 position skip b bs ih => exact ih hdecode
  | case3 position b bs c size hnext ih =>
      cases hrest : decodeFrom (position + 1) (size - 1) bs with
      | error e =>
          rw [hrest] at hdecode
          cases hdecode
      | ok cs' =>
          rw [hrest] at hdecode
          cases hdecode
          rw [encode, List.flatMap_cons, ← encode, encodeChar_of_decodeNext hnext, ih hrest,
            List.cons_append, List.take_append_drop]
          rfl
  | case4 position b bs reason size hnext => cases hdecode

/-- Bytes that are read as a text are its bytes. -/
theorem encode_of_decode {bs : Bytes} {cs : List Char} (hdecode : decode bs = .ok cs) :
    encode cs = bs :=
  encode_of_decodeFrom hdecode

end JitLens.Text
