import ScopedScript.Expr.Basic

namespace ScopedScript

/-- A statement. The location of a branch or a loop is that of its keyword. -/
inductive Statement
  | declare (name : Name) (initial : Option Expr)
  | method (name : Name) (parameters : List String) (body : List Statement)
  | assign (name : Name) (value : Expr)
  | call (name : Name) (arguments : List Expr)
  | branch (location : Location) (condition : Expr) (body : List Statement)
  | loop (location : Location) (condition : Expr) (body : List Statement)
deriving Inhabited

abbrev Block := List Statement

def Statement.form : Statement → String
  | declare .. => "VarDeclaration"
  | method .. => "MethodDeclaration"
  | assign .. => "Assignment"
  | call .. => "Call"
  | branch .. => "If"
  | loop .. => "While"

end ScopedScript
