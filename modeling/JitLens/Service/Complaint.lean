import JitLens.Value
/-!
# Complaints about requests

What is wrong with the body of a request, place by place.  All that is wrong is reported together.
-/

namespace JitLens.Service

/-- The ways in which a part of a body can be wrong. -/
inductive Flaw where
  | missing
  | noJson
  | notObject
  | notMap
  | notText
  | notSwitch
  | unreadSwitch
  deriving DecidableEq, Repr

def Flaw.name : Flaw → String
  | .missing => "missing"
  | .noJson => "json_invalid"
  | .notObject => "model_attributes_type"
  | .notMap => "dict_type"
  | .notText => "string_type"
  | .notSwitch => "bool_type"
  | .unreadSwitch => "bool_parsing"

/-- A flaw and its place, as the names on the way to it. -/
structure Complaint where
  place : List String
  flaw : Flaw
  deriving DecidableEq, Repr

/-- A part of a body that was checked. -/
inductive Checked (α : Type) where
  | good (a : α)
  | flawed (complaints : List Complaint)

namespace Checked

variable {α β : Type}

def flaw (place : List String) (flaw : Flaw) : Checked α :=
  .flawed [⟨place, flaw⟩]

/-- A function of a checked part, applied to another checked part; the complaints about both are
kept. -/
def apply (f : Checked (α → β)) (a : Checked α) : Checked β :=
  match f, a with
  | .good f, .good a => .good (f a)
  | .flawed cs, .good _ => .flawed cs
  | .good _, .flawed cs => .flawed cs
  | .flawed cs, .flawed ds => .flawed (cs ++ ds)

instance : Applicative Checked where
  pure := .good
  seq f a := f.apply (a ())

/-- A check of what a part that is good holds. -/
def inside (a : Checked α) (check : α → Checked β) : Checked β :=
  match a with
  | .good a => check a
  | .flawed cs => .flawed cs

end Checked

/-- The entries of an object. -/
abbrev Entries := List (Value × Value)

/-- The value of a key of an object. -/
def entry? (entries : Entries) (key : String) : Option Value :=
  (entries.find? fun (k, _) => Value.sameKey k (.text key)).map Prod.snd

/-- A part of an object that has to be there. -/
def required {α : Type} (check : List String → Value → Checked α) (place : List String)
    (entries : Entries) (key : String) : Checked α :=
  match entry? entries key with
  | some v => check (place ++ [key]) v
  | none => .flaw (place ++ [key]) .missing

/-- A part of an object that may be left out. -/
def optional {α : Type} (check : List String → Value → Checked α) (default : α)
    (place : List String) (entries : Entries) (key : String) : Checked α :=
  match entry? entries key with
  | some v => check (place ++ [key]) v
  | none => .good default

def text (place : List String) : Value → Checked String
  | .text s => .good s
  | _ => .flaw place .notText

/-- A text or nothing. -/
def textOrNull (place : List String) : Value → Checked (Option String)
  | .null => .good none
  | .text s => .good (some s)
  | _ => .flaw place .notText

/-- An object with any keys. -/
def mapping (place : List String) : Value → Checked Entries
  | .map entries => .good entries
  | _ => .flaw place .notMap

/-- An object with known keys. -/
def object (place : List String) : Value → Checked Entries
  | .map entries => .good entries
  | _ => .flaw place .notObject

/-- Words for a switch that is on. -/
def onWords : List String := ["1", "t", "y", "on", "yes", "true"]

/-- Words for a switch that is off. -/
def offWords : List String := ["0", "f", "n", "no", "off", "false"]

/-- A capital letter as the small one. -/
def small (c : Char) : Char :=
  if 'A' ≤ c && c ≤ 'Z' then Char.ofNat (c.toNat + 32) else c

def switchWord? (s : String) : Option Bool :=
  let word := String.ofList (s.toList.map small)
  if onWords.contains word then some true
  else if offWords.contains word then some false
  else none

/-- Whether a whole number fits a machine word. -/
def isWord (n : Int) : Bool :=
  -9223372036854775808 ≤ n && n < 9223372036854775808

/-- A switch: a truth value, one or zero, or a word for it. -/
def switch (place : List String) : Value → Checked Bool
  | .bool b => .good b
  | .text s =>
    match switchWord? s with
    | some b => .good b
    | none => .flaw place .unreadSwitch
  | v =>
    match v.wholeNumber? with
    | some n =>
      if n = 0 then .good false
      else if n = 1 then .good true
      else .flaw place (if isWord n then .unreadSwitch else .notSwitch)
    | none => .flaw place .notSwitch

end JitLens.Service
