import JitLens.Json.Reader
import JitLens.Service.Complaint
import JitLens.Symbol
/-!
# Bodies of requests

What the body of a request asks for, read from its JSON text.
-/

namespace JitLens.Service

/-- A request. -/
structure Request where
  method : String
  path : String
  body : Option String := none
  deriving DecidableEq, Repr

/-- A body that asks for a run. -/
structure RunBody where
  project : String
  framework : String
  symbol : Symbol
  output : Option String
  /-- Changes to the settings for this run only. -/
  overrides : Entries

/-- Why there is no value in a body. -/
inductive BodyFault where
  | flawed (complaints : List Complaint)
  | unreadable

def bodyPlace : List String := ["body"]

/-- The text without a mark of its encoding. -/
def dropMark : List Char → List Char
  | '\ufeff' :: cs => cs
  | cs => cs

def bodyValue (r : Request) : Except BodyFault Value :=
  let missing : Except BodyFault Value := .error (.flawed [⟨bodyPlace, .missing⟩])
  match r.body with
  | none => missing
  | some body =>
    if body = "" then missing
    else
      match Json.read (dropMark body.toList) with
      | .ok v => .ok v
      | .error ⟨.tooLong _, _⟩ => .error .unreadable
      | .error ⟨.tooDeep, _⟩ => .error .unreadable
      | .error e => .error (.flawed [⟨bodyPlace ++ [toString e.position], .noJson⟩])

/-- A symbol; a class name that is left out or empty follows from the qualified one. -/
def symbolOf (qualified : String) (className method : Option String) (isLocal isGeneric : Bool) :
    Symbol where
  qualifiedClass := qualified
  className := match className with
    | some c => if c = "" then Symbol.simpleName qualified else c
    | none => Symbol.simpleName qualified
  method := method
  isLocal := isLocal
  isGeneric := isGeneric

/-- Reads a symbol. -/
def symbol (place : List String) (v : Value) : Checked Symbol :=
  (object place v).inside fun entries =>
    symbolOf <$> required text place entries "qualified_class_name"
      <*> optional textOrNull none place entries "class_name"
      <*> optional textOrNull none place entries "method_name"
      <*> optional switch false place entries "is_local_function"
      <*> optional switch false place entries "is_generic_method"

/-- Reads a body that asks for a run. -/
def runBody (v : Value) : Checked RunBody :=
  (object bodyPlace v).inside fun entries =>
    RunBody.mk <$> required text bodyPlace entries "project_path"
      <*> required text bodyPlace entries "target_framework"
      <*> required symbol bodyPlace entries "symbol"
      <*> optional textOrNull none bodyPlace entries "output_dir"
      <*> optional mapping [] bodyPlace entries "overrides"

/-- Reads a body that asks for changes of the settings. -/
def changesBody (v : Value) : Checked Entries :=
  (object bodyPlace v).inside fun entries => optional mapping [] bodyPlace entries "changes"

end JitLens.Service
