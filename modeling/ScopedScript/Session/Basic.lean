import ScopedScript.Store.Basic

namespace ScopedScript

structure Session where
  store : Store Value := {}
  root : ScopeId := 0
  current : ScopeId := 0
deriving Inhabited

namespace Session

def start : Session := ⟨({} : Store Value).push none, 0, 0⟩

def enter (s : Session) : Session :=
  let inner := s.store.next
  { s with store := s.store.push s.current, current := inner }

def leave (s : Session) (location : Option Location) : Except ScriptError Session :=
  match s.store.scopes[s.current]?.bind Scope.parent with
  | some parent => .ok { s with current := parent }
  | none => .error ⟨.outermostScope, location⟩

end Session

end ScopedScript
