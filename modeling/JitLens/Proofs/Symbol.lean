import JitLens.Target
import Mathlib.Data.List.DropRight
/-!
# The class that a symbol names

A text is read as a class in front of its first two colons and a method behind them, without the
blanks around either.  It is refused just if nothing is left of the class.  The name of the class is
what stands behind its last dot; it has no dot itself, and it is empty just if the class ends in a
dot.  The filter of a symbol is restricted to a class if there is more than stars in front of the
first colon of that name.
-/

namespace JitLens

/-! ## Blanks and separators at the ends of a text -/

namespace Text

variable {c : Char} {cs : List Char}

/-- A text with a blank at neither end. -/
structure Unpadded (cs : List Char) : Prop where
  first : ∀ c, cs.head? = some c → isBlank c = false
  last : ∀ c, cs.getLast? = some c → isBlank c = false

theorem isBlank_of_head?_dropWhile (hc : (cs.dropWhile isBlank).head? = some c) :
    isBlank c = false := by
  have hstop := List.head?_dropWhile_not isBlank cs
  rwa [hc] at hstop

theorem unpadded_trim (cs : List Char) : Unpadded (trim cs) where
  first c hc := by
    have hprefix : trim cs <+: cs.dropWhile isBlank := List.rdropWhile_prefix isBlank _
    obtain ⟨blanks, hblanks⟩ := hprefix
    have hfirst : (cs.dropWhile isBlank).head? = some c := by
      rw [← hblanks, List.head?_append, hc]
      rfl
    exact isBlank_of_head?_dropWhile hfirst
  last c hc := by
    rw [trim, trimEnd, List.getLast?_reverse] at hc
    exact isBlank_of_head?_dropWhile hc

theorem trim_eq_nil_iff : trim cs = [] ↔ allBlank cs = true := by
  refine ⟨fun htrim => ?_, trim_eq_nil_of_allBlank⟩
  have hblank : ∀ c ∈ cs.dropWhile isBlank, isBlank c = true := List.rdropWhile_eq_nil_iff.1 htrim
  cases hrest : cs.dropWhile isBlank with
  | nil => exact List.all_eq_true.2 (List.dropWhile_eq_nil_iff.1 hrest)
  | cons c rest =>
      have hfirst : (cs.dropWhile isBlank).head? = some c := by
        rw [hrest]
        rfl
      have hmem : c ∈ cs.dropWhile isBlank := List.mem_of_mem_head? hfirst
      exact absurd (hblank c hmem) (by simp [isBlank_of_head?_dropWhile hfirst])

/-- A character of a text stands somewhere for the last time. -/
theorem exists_last_of_mem (hc : c ∈ cs) :
    ∃ before behind, cs = before ++ c :: behind ∧ c ∉ behind := by
  obtain ⟨behind, before, hcs, hbehind⟩ := List.eq_append_cons_of_mem (List.mem_reverse.2 hc)
  refine ⟨before.reverse, behind.reverse, ?_, by simpa using hbehind⟩
  simpa using congrArg List.reverse hcs

end Text

/-! ## The name of a class -/

namespace Symbol

variable {qualified name : String}

/-- What a class is called without its namespaces: all of it that stands behind the last dot. -/
structure IsSimpleName (qualified name : String) : Prop where
  noDot : '.' ∉ name.toList
  last : qualified = name ∨ ∃ namespaces, qualified = namespaces ++ "." ++ name

theorem toList_append_dot (namespaces name : String) :
    (namespaces ++ "." ++ name).toList = namespaces.toList ++ '.' :: name.toList := by
  simp

theorem IsSimpleName.simpleName_eq (hname : IsSimpleName qualified name) :
    simpleName qualified = name := by
  obtain ⟨hdot, rfl | ⟨namespaces, rfl⟩⟩ := hname
  · rw [simpleName, Text.splitOn_of_not_mem hdot]
    exact String.ofList_toList
  · rw [simpleName, toList_append_dot, Text.splitOn_append_cons, Text.splitOn_of_not_mem hdot,
      List.getLast?_concat]
    exact String.ofList_toList

theorem isSimpleName_simpleName (qualified : String) :
    IsSimpleName qualified (simpleName qualified) := by
  by_cases hdot : '.' ∈ qualified.toList
  · obtain ⟨before, behind, hqualified, hbehind⟩ := Text.exists_last_of_mem hdot
    have hname : IsSimpleName qualified (String.ofList behind) := by
      refine ⟨by simpa using hbehind, .inr ⟨String.ofList before, ?_⟩⟩
      rw [← String.toList_inj, toList_append_dot]
      simpa using hqualified
    rwa [hname.simpleName_eq]
  · have hname : IsSimpleName qualified qualified := ⟨hdot, .inl rfl⟩
    rwa [hname.simpleName_eq]

/-- A class has no other name. -/
theorem isSimpleName_iff : IsSimpleName qualified name ↔ simpleName qualified = name :=
  ⟨IsSimpleName.simpleName_eq, fun h => h ▸ isSimpleName_simpleName qualified⟩

/-- A class of namespaces only. -/
def EndsInDot (qualified : String) : Prop :=
  ∃ namespaces, qualified = namespaces ++ "."

theorem simpleName_eq_empty_iff :
    simpleName qualified = "" ↔ qualified = "" ∨ EndsInDot qualified := by
  rw [← isSimpleName_iff]
  constructor
  · rintro ⟨-, hname | ⟨namespaces, hname⟩⟩
    · exact .inl hname
    · exact .inr ⟨namespaces, by simpa using hname⟩
  · rintro (hempty | ⟨namespaces, hname⟩)
    · exact ⟨by simp, .inl hempty⟩
    · exact ⟨by simp, .inr ⟨namespaces, by simpa using hname⟩⟩

theorem exists_isSimpleName_iff :
    (∃ name, name ≠ "" ∧ IsSimpleName qualified name) ↔ qualified ≠ "" ∧ ¬ EndsInDot qualified := by
  rw [← not_or, ← simpleName_eq_empty_iff]
  constructor
  · rintro ⟨name, hne, hname⟩
    rwa [isSimpleName_iff.1 hname]
  · exact fun hne => ⟨_, hne, isSimpleName_simpleName qualified⟩

/-! ## The parts of a text -/

/-- A text in two parts: in front of its first two colons and behind them, if it has any. -/
inductive Parts : List Char → List Char → Option (List Char) → Prop where
  | whole {text : List Char} (hcolons : ¬ [':', ':'] <:+: text) : Parts text text none
  | cut {before behind : List Char} (hfirst : ¬ [':', ':'] <:+: before ++ [':']) :
      Parts (before ++ ':' :: ':' :: behind) before (some behind)

/-- The parts that reading a text starts with. -/
def partsOf (text : List Char) : List Char × Option (List Char) :=
  match Text.cutAt [':', ':'] text with
  | some (before, behind) => (before, some behind)
  | none => (text, none)

theorem parts_partsOf (text : List Char) : Parts text (partsOf text).1 (partsOf text).2 := by
  unfold partsOf
  cases hcut : Text.cutAt [':', ':'] text with
  | none => exact .whole (Text.cutAt_eq_none_iff.1 hcut)
  | some parts =>
      obtain ⟨before, behind⟩ := parts
      rw [Text.eq_append_of_cutAt hcut, List.append_assoc]
      exact .cut (Text.not_infix_of_cutAt (List.cons_ne_nil _ _) hcut)

/-- A text has no other parts. -/
theorem Parts.eq_partsOf {text before : List Char} {behind : Option (List Char)}
    (hparts : Parts text before behind) : (before, behind) = partsOf text := by
  unfold partsOf
  cases hparts with
  | whole hcolons => rw [Text.cutAt_eq_none_iff.2 hcolons]
  | @cut _ rest hfirst =>
      have hcut : Text.cutAt [':', ':'] (before ++ ':' :: ':' :: rest) = some (before, rest) := by
        rw [← Text.cutAt_append hfirst rest, List.append_assoc]
        rfl
      rw [hcut]

theorem nonEmpty?_eq_none_iff {cs : List Char} : nonEmpty? cs = none ↔ Text.allBlank cs = true := by
  rw [← Text.trim_eq_nil_iff, nonEmpty?]
  cases Text.trim cs <;> simp

theorem nonEmpty?_eq_some_iff {cs : List Char} {s : String} :
    nonEmpty? cs = some s ↔ s ≠ "" ∧ s = String.ofList (Text.trim cs) := by
  rw [nonEmpty?]
  split
  · next hempty =>
    rw [List.isEmpty_iff.1 hempty]
    simp
  · next hne =>
    rw [List.isEmpty_iff] at hne
    rw [Option.some.injEq, eq_comm]
    refine ⟨fun hs => ⟨?_, hs⟩, And.right⟩
    rw [hs]
    simpa using hne

theorem bind_nonEmpty?_eq_some_iff {behind : Option (List Char)} {m : String} :
    behind.bind nonEmpty? = some m ↔
      m ≠ "" ∧ ∃ cs, behind = some cs ∧ m = String.ofList (Text.trim cs) := by
  simp only [Option.bind_eq_some_iff, nonEmpty?_eq_some_iff]
  constructor
  · rintro ⟨cs, hcs, hm, htrim⟩
    exact ⟨hm, cs, hcs, htrim⟩
  · rintro ⟨hm, cs, hcs, htrim⟩
    exact ⟨cs, hcs, hm, htrim⟩

/-- A text is read part by part. -/
theorem parse_eq (text : String) (isLocal : Bool) :
    parse text isLocal =
      let (before, behind) := partsOf text.toList
      match nonEmpty? before with
      | none => .error ⟨text⟩
      | some qualified =>
        .ok ⟨qualified, simpleName qualified, behind.bind nonEmpty?, isLocal, false⟩ := by
  unfold parse partsOf
  cases Text.cutAt [':', ':'] text.toList with
  | none => rfl
  | some parts => rfl

end Symbol

/-! ## The class of a filter -/

namespace Target

variable {s : Symbol} {project output : String}

/-- A filter has a class in front of its first colon, where a star stands for any text; here there
are only stars. -/
def NamesNoClass (filter : String) : Prop :=
  ∀ c ∈ filter.toList.takeWhile (· ≠ ':'), c = '*'

theorem takeWhile_append_colon (cs ds : List Char) :
    (cs ++ ':' :: ds).takeWhile (· ≠ ':') = cs.takeWhile (· ≠ ':') := by
  induction cs with
  | nil => rfl
  | cons c cs ih => rw [List.cons_append, List.takeWhile_cons, List.takeWhile_cons, ih]

theorem namesNoClass_append_colon (name rest : String) :
    NamesNoClass (name ++ ":" ++ rest) ↔ NamesNoClass name := by
  unfold NamesNoClass
  have hletters : (name ++ ":" ++ rest).toList = name.toList ++ ':' :: rest.toList := by simp
  rw [hletters, takeWhile_append_colon]

theorem namesNoClass_star_append (name : String) :
    NamesNoClass ("*" ++ name) ↔ NamesNoClass name := by
  unfold NamesNoClass
  have hletters : ("*" ++ name).toList = '*' :: name.toList := by simp
  rw [hletters, List.takeWhile_cons, if_pos (by decide), List.forall_mem_cons]
  exact and_iff_right rfl

theorem not_namesNoClass_angle (name : String) : ¬ NamesNoClass ("<" ++ name) := by
  intro hname
  have hletters : ("<" ++ name).toList = '<' :: name.toList := by simp
  rw [NamesNoClass, hletters, List.takeWhile_cons, if_pos (by decide)] at hname
  exact absurd (hname '<' List.mem_cons_self) (by decide)

/-- The filter of a symbol whose class has no name. -/
def namelessFilter (s : Symbol) : String :=
  match s.method with
  | none => ":*"
  | some m => if s.isLocal then "*:*" else "*:" ++ m

/-- The four shapes of a filter. -/
inductive FilterOf (s : Symbol) : String → Prop where
  | whole (hmethod : s.method = none) : FilterOf s (s.className ++ ":*")
  | hidden {m : String} (hmethod : s.method = some m) (hlocal : s.isLocal = true) :
      FilterOf s ("*" ++ s.className ++ ":*")
  | topLevel {m : String} (hmethod : s.method = some m) (hlocal : s.isLocal = false)
      (htop : holdsTopLevel s.qualifiedClass = true) :
      FilterOf s ("<" ++ s.className ++ ">g__" ++ m ++ "*")
  | single {m : String} (hmethod : s.method = some m) (hlocal : s.isLocal = false)
      (htop : holdsTopLevel s.qualifiedClass = false) :
      FilterOf s ("*" ++ s.className ++ ":" ++ m)

theorem filterOf_filter (s : Symbol) (project output : String) :
    FilterOf s (Target.of s project output).filter := by
  change FilterOf s (methodAndFilter s).2
  unfold methodAndFilter
  cases hmethod : s.method with
  | none => exact .whole hmethod
  | some m =>
      dsimp only
      split
      · next hlocal => exact .hidden hmethod hlocal
      · next hlocal =>
        rw [Bool.not_eq_true] at hlocal
        split
        · next htop => exact .topLevel hmethod hlocal htop
        · next htop => exact .single hmethod hlocal (Bool.eq_false_iff.2 htop)

/-- A function among the statements that are in no class, which goes by its compiled name. -/
def IsTopLevel (s : Symbol) : Prop :=
  s.method ≠ none ∧ s.isLocal = false ∧ holdsTopLevel s.qualifiedClass = true

theorem namesNoClass_filter_iff : NamesNoClass (Target.of s project output).filter ↔
    NamesNoClass s.className ∧ ¬ IsTopLevel s := by
  unfold IsTopLevel
  have hfilter := filterOf_filter s project output
  generalize (Target.of s project output).filter = filter at hfilter
  cases hfilter with
  | whole hmethod =>
      have hcolon : s.className ++ ":*" = s.className ++ ":" ++ "*" := by
        rw [String.append_assoc]
        rfl
      rw [hcolon, namesNoClass_append_colon]
      simp [hmethod]
  | hidden hmethod hlocal =>
      have hcolon : "*" ++ s.className ++ ":*" = "*" ++ (s.className ++ ":" ++ "*") := by
        rw [String.append_assoc, String.append_assoc]
        rfl
      rw [hcolon, namesNoClass_star_append, namesNoClass_append_colon]
      simp [hlocal]
  | topLevel hmethod hlocal htop =>
      rw [String.append_assoc, String.append_assoc, String.append_assoc]
      simp [not_namesNoClass_angle, hmethod, hlocal, htop]
  | single hmethod hlocal htop =>
      rw [String.append_assoc, String.append_assoc, namesNoClass_star_append,
        ← String.append_assoc, namesNoClass_append_colon]
      simp [htop]

theorem className_ne_empty_of_holdsTopLevel
    (hname : Symbol.IsSimpleName s.qualifiedClass s.className)
    (htop : holdsTopLevel s.qualifiedClass = true) : s.className ≠ "" := by
  intro hempty
  rw [hempty, Symbol.isSimpleName_iff, Symbol.simpleName_eq_empty_iff] at hname
  rcases hname with hqualified | ⟨namespaces, hqualified⟩
  · rw [hqualified] at htop
    exact absurd htop (by decide)
  · rw [hqualified] at htop
    simp [holdsTopLevel, Text.endsWith, Text.startsWith, Text.stripLeading] at htop

theorem filter_eq_namelessFilter_iff (hname : Symbol.IsSimpleName s.qualifiedClass s.className) :
    (Target.of s project output).filter = namelessFilter s ↔ s.className = "" := by
  unfold namelessFilter
  have hfilter := filterOf_filter s project output
  generalize (Target.of s project output).filter = filter at hfilter
  cases hfilter with
  | whole hmethod =>
      rw [hmethod]
      exact String.append_eq_right_iff
  | hidden hmethod hlocal =>
      have hempty : "*:*" = "*" ++ "" ++ ":*" := rfl
      simp only [hmethod, hlocal, if_true]
      rw [hempty, String.append_left_inj, String.append_right_inj]
  | @topLevel m hmethod hlocal htop =>
      rw [hmethod, hlocal]
      refine iff_of_false (fun heq => ?_) (className_ne_empty_of_holdsTopLevel hname htop)
      have hfirst := congrArg (fun filter : String => filter.toList.head?) heq
      simp at hfirst
  | @single m hmethod hlocal htop =>
      have hempty : "*:" = "*" ++ "" ++ ":" := rfl
      simp only [hmethod, hlocal, Bool.false_eq_true, if_false]
      rw [String.append_left_inj, hempty, String.append_left_inj,
        String.append_right_inj]

theorem filter_of_not_namesNoClass (hname : ¬ NamesNoClass s.className)
    (project output : String) :
    let filter := (Target.of s project output).filter
    filter ≠ ":*" ∧ filter ≠ "*:*" ∧ ∀ m, filter ≠ "*:" ++ m := by
  intro filter
  have hfilter : ¬ NamesNoClass filter := fun h => hname (namesNoClass_filter_iff.1 h).1
  have hstar : ∀ m, filter ≠ "*:" ++ m := by
    intro m heq
    have hcolon : "*:" ++ m = "*" ++ ("" ++ ":" ++ m) := by
      rw [← String.append_assoc]
      rfl
    rw [heq, hcolon, namesNoClass_star_append, namesNoClass_append_colon] at hfilter
    exact hfilter (by simp [NamesNoClass])
  refine ⟨?_, hstar "*", hstar⟩
  intro heq
  rw [heq] at hfilter
  exact hfilter (by simp [NamesNoClass])

end Target

/-! ## What is read from a text -/

namespace Symbol

/-- What a symbol has from the two parts of a text, and what its filters are restricted to. -/
structure TakenFrom (s : Symbol) (isLocal : Bool) (before : List Char)
    (behind : Option (List Char)) : Prop where
  qualified : s.qualifiedClass = String.ofList (Text.trim before)
  className : IsSimpleName s.qualifiedClass s.className
  /-- Nobody looks at the name that is taken, so that it can be empty. -/
  nameless : s.className = "" ↔ EndsInDot s.qualifiedClass
  method : ∀ m, s.method = some m ↔
    m ≠ "" ∧ ∃ cs, behind = some cs ∧ m = String.ofList (Text.trim cs)
  unpadded : ∀ m, s.method = some m → Text.Unpadded m.toList
  isLocal : s.isLocal = isLocal
  isGeneric : s.isGeneric = false
  /-- Without a name the filter is that of a method, or of all methods, in any class. -/
  filter_nameless : ∀ project output,
    (Target.of s project output).filter = Target.namelessFilter s ↔ s.className = ""
  /-- A name of stars is as good as none. -/
  filter_open : ∀ project output, Target.NamesNoClass (Target.of s project output).filter ↔
    Target.NamesNoClass s.className ∧ ¬ Target.IsTopLevel s
  filter_named : ¬ Target.NamesNoClass s.className → ∀ project output,
    let filter := (Target.of s project output).filter
    filter ≠ ":*" ∧ filter ≠ "*:*" ∧ ∀ m, filter ≠ "*:" ++ m

/-- What comes of a text with the two parts. -/
structure NamesClass (text : String) (isLocal : Bool) (before : List Char)
    (behind : Option (List Char)) : Prop where
  parts : ∀ before' behind', Parts text.toList before' behind' ↔
    before' = before ∧ behind' = behind
  refused : ∀ e, parse text isLocal = .error e ↔ Text.allBlank before = true ∧ e = ⟨text⟩
  accepted : (∃ s, parse text isLocal = .ok s) ↔ Text.allBlank before = false
  /-- A class without a name to take is refused, except for one that ends in a dot. -/
  unnamed : (¬ ∃ name, name ≠ "" ∧ IsSimpleName (String.ofList (Text.trim before)) name) ↔
    (∃ e, parse text isLocal = .error e) ∨ EndsInDot (String.ofList (Text.trim before))
  taken : ∀ s, parse text isLocal = .ok s → s.TakenFrom isLocal before behind

variable {text : String} {isLocal : Bool} {s : Symbol}

theorem parse_eq_error_iff {e : SymbolError} : parse text isLocal = .error e ↔
    Text.allBlank (partsOf text.toList).1 = true ∧ e = ⟨text⟩ := by
  rw [parse_eq, ← nonEmpty?_eq_none_iff]
  generalize partsOf text.toList = parts
  obtain ⟨before, behind⟩ := parts
  dsimp only
  cases nonEmpty? before with
  | none => simp [eq_comm]
  | some qualified => simp

theorem exists_parse_eq_error_iff : (∃ e, parse text isLocal = .error e) ↔
    Text.allBlank (partsOf text.toList).1 = true := by
  simp only [parse_eq_error_iff, exists_and_left, exists_eq, and_true]

theorem exists_parse_eq_ok_iff : (∃ s, parse text isLocal = .ok s) ↔
    Text.allBlank (partsOf text.toList).1 = false := by
  have hrefused : (∃ e, parse text isLocal = .error e) ↔
      Text.allBlank (partsOf text.toList).1 = true := exists_parse_eq_error_iff
  rw [Bool.eq_false_iff, ne_eq, ← hrefused]
  cases parse text isLocal with
  | error e => simp
  | ok s => simp

theorem takenFrom_of_parse (hparse : parse text isLocal = .ok s) :
    s.TakenFrom isLocal (partsOf text.toList).1 (partsOf text.toList).2 := by
  rw [parse_eq] at hparse
  generalize partsOf text.toList = parts at hparse
  obtain ⟨before, behind⟩ := parts
  cases hclass : nonEmpty? before with
  | none => simp [hclass] at hparse
  | some qualified =>
      simp only [hclass, Except.ok.injEq] at hparse
      subst hparse
      obtain ⟨hne, hqualified⟩ := nonEmpty?_eq_some_iff.1 hclass
      have hname := isSimpleName_simpleName qualified
      refine ⟨hqualified, hname, ?_, fun _ => bind_nonEmpty?_eq_some_iff, ?_, rfl, rfl,
        fun _ _ => Target.filter_eq_namelessFilter_iff hname,
        fun _ _ => Target.namesNoClass_filter_iff, Target.filter_of_not_namesNoClass⟩
      · rw [simpleName_eq_empty_iff]
        exact or_iff_right hne
      · intro m hm
        obtain ⟨-, cs, -, rfl⟩ := bind_nonEmpty?_eq_some_iff.1 hm
        rw [String.toList_ofList]
        exact Text.unpadded_trim cs

/-- Every text is read as its two parts say, and only a class that ends in a dot has no name. -/
theorem parse_namesClass (text : String) (isLocal : Bool) :
    ∃ before behind, NamesClass text isLocal before behind := by
  refine ⟨(partsOf text.toList).1, (partsOf text.toList).2, ?_, fun _ => parse_eq_error_iff, ?_,
    ?_, fun _ => takenFrom_of_parse⟩
  · intro before behind
    constructor
    · intro hparts
      rw [← hparts.eq_partsOf]
      exact ⟨rfl, rfl⟩
    · rintro ⟨rfl, rfl⟩
      exact parts_partsOf text.toList
  · exact exists_parse_eq_ok_iff
  · rw [exists_isSimpleName_iff, exists_parse_eq_error_iff, ← Text.trim_eq_nil_iff, not_and_or,
      not_not, not_not, String.ofList_eq_empty_iff]

/-- A class that ends in a dot is accepted, and its method is looked for in all classes. -/
theorem parse_namesClass_dot :
    let s : Symbol := { qualifiedClass := "App.", className := "", method := some "Main" }
    parse "App.::Main" false = .ok s ∧ EndsInDot s.qualifiedClass ∧
      ∀ project output, (Target.of s project output).filter = "*:Main" := by
  intro s
  obtain ⟨before, behind, hnames⟩ := parse_namesClass "App.::Main" false
  have hparse : parse "App.::Main" false = .ok s := by decide
  have htaken : s.TakenFrom false before behind := hnames.taken s hparse
  exact ⟨hparse, htaken.nameless.1 rfl, fun project output =>
    (htaken.filter_nameless project output).2 rfl⟩

end Symbol
end JitLens
