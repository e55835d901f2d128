import ScopedScript.Datum.Basic
import ScopedScript.Expr.Printer

namespace ScopedScript

namespace MethodHead

def inspect (m : MethodHead) : String :=
  "<Method " ++ m.name ++ "(" ++ " ".intercalate m.parameters ++ ") statements=" ++
    Number.intText m.statements ++ " scope=#" ++ Number.intText m.scope ++ ">"

end MethodHead

def variableText (name content : String) : String :=
  "Variable(name=" ++ Text.quoted name ++ ", value=" ++ content ++ ")"

def scopeText (ordinal : Nat) (vars methods : List String) (parent : Option Nat) : String :=
  let names := vars ++ methods.map (· ++ "()")
  let outer := match parent with
    | some p => ", parent=#" ++ Number.intText p
    | none => ""
  "<Scope #" ++ Number.intText ordinal ++ " bindings=[" ++ ", ".intercalate names ++ "]" ++ outer ++
    ">"

namespace Datum

mutual

def inspect : Datum → String
  | value v => v.inspect
  | int n => Number.intText n
  | list items => "[" ++ ", ".intercalate (inspectAll items) ++ "]"
  | tuple [item] => "(" ++ item.inspect ++ ",)"
  | tuple items => "(" ++ ", ".intercalate (inspectAll items) ++ ")"
  | map entries => "\x7b" ++ ", ".intercalate (inspectEntries entries) ++ "\x7d"
  | location l => l.inspect
  | cell name content => variableText name content.inspect
  | method m => m.inspect
  | scope ordinal cells methods =>
    scopeText ordinal (cells.map Prod.fst) (methods.map MethodHead.name) none
  | expr e => e.inspect

def inspectAll : List Datum → List String
  | [] => []
  | item :: items => item.inspect :: inspectAll items

def inspectEntries : List (Datum × Datum) → List String
  | [] => []
  | (key, content) :: entries => (key.inspect ++ ": " ++ content.inspect) :: inspectEntries entries

end

def display : Datum → String
  | value (.text s) => s
  | location l => l.text
  | d => d.inspect

def toText : Datum → String
  | value v => v.toText
  | d => d.display

def form : Datum → String
  | value v => v.form
  | int _ => "int"
  | list _ => "list"
  | tuple _ => "tuple"
  | map _ => "dict"
  | location _ => "SourceLocation"
  | cell .. => "Variable"
  | method _ => "Method"
  | scope .. => "Scope"
  | expr e => e.form

def typeName : Datum → String
  | value v => v.typeName
  | int _ => "number"
  | d => d.form

def isTruthy : Datum → Bool
  | value v => v.isTruthy
  | _ => true

def isNumber : Datum → Bool
  | value v => v.isNumber
  | int _ => true
  | _ => false

end Datum

end ScopedScript
