import ScopedScript.Datum.Printer
import ScopedScript.Store.Basic

namespace ScopedScript

variable {α : Type} [Printable α]

def Variable.inspect (v : Variable α) : String := variableText v.name (Printable.inspect v.value)

def Variable.render (v : Variable α) (width : Nat) (level : Int) : String :=
  declarationText v.name (Printable.render width level v.value)

namespace Store

def ordinal {α : Type} (s : Store α) (id : ScopeId) : Nat :=
  (s.scopes[id]?.map Scope.ordinal).getD 0

def head {α : Type} (s : Store α) (m : Method) : MethodHead :=
  ⟨m.name, m.parameters, m.body.length, s.ordinal m.template⟩

def inspect {α : Type} (s : Store α) (id : ScopeId) : String :=
  match s.scopes[id]? with
  | none => ""
  | some scope =>
    scopeText scope.ordinal (scope.vars.map Variable.name) (scope.methods.map Method.name)
      (scope.parent.map s.ordinal)

def render (s : Store α) (id : ScopeId) (width : Nat) (level : Int) : String :=
  match s.scopes[id]? with
  | none => ""
  | some scope =>
    blockText width level
      ((scope.vars.map fun v => v.render width (level + 1)) ++
        scope.methods.map fun m => (s.head m).render)

def datum (s : Store Datum) (id : ScopeId) : Datum :=
  match s.scopes[id]? with
  | none => .value .null
  | some scope => .scope scope.ordinal scope.snapshot (scope.methods.map s.head)

end Store

end ScopedScript
