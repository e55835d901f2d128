import ScopedScript.Expr.Eval
import ScopedScript.Statement.Basic

/-!
# Scopes and the store

A scope binds names to variables and methods and has a parent, in which names are looked up that it
does not bind. All scopes live in a store, in the order in which they were made, and are known by
their place in it; a parent was made before its children. Variables hold data of any type `α`; in
the runs of scripts these are values.

A variable and a method of one scope never share a name: `Store.declare` and `Store.declareMethod`
refuse a name that the scope binds already.
-/

namespace ScopedScript

/-- Where a number that is no number comes from. Two of them are the same only if both are the
result of a division by zero or both were made by the same write. -/
inductive Origin
  | division
  | write (n : Nat)
deriving DecidableEq, Inhabited

structure Variable (α : Type) where
  name : String
  value : α
  ordinal : Nat
  origin : Origin := .division
deriving DecidableEq, Inhabited

abbrev ScopeId := Nat

/-- A method. Every call runs its body in a copy of the scope `template`, whose parent is the scope
that the method was declared in. -/
structure Method where
  name : String
  parameters : List String
  body : Block
  template : ScopeId
deriving Inhabited

/-- A scope: its bindings, in the order of their declaration. Its ordinal tells how many scopes were
made before it or before the one that it is a copy of. -/
structure Scope (α : Type) where
  parent : Option ScopeId
  ordinal : Nat
  vars : List (Variable α) := []
  methods : List Method := []
deriving Inhabited

namespace Scope

variable {α : Type}

def variableNamed? (s : Scope α) (name : String) : Option (Variable α) :=
  s.vars.find? fun v => v.name == name

def methodNamed? (s : Scope α) (name : String) : Option Method :=
  s.methods.find? fun m => m.name == name

def conflict? (s : Scope α) (name : String) : Option Cause :=
  if (s.variableNamed? name).isSome then some (.variableExists name)
  else if (s.methodNamed? name).isSome then some (.methodExists name)
  else none

def set (s : Scope α) (name : String) (value : α) (origin : Origin) : Scope α :=
  let update (v : Variable α) : Variable α :=
    if v.name == name then { v with value := value, origin := origin } else v
  { s with vars := s.vars.map update }

def snapshot (s : Scope α) : List (String × α) := s.vars.map fun v => (v.name, v.value)

end Scope

structure Made where
  scopes : Nat := 0
  vars : Nat := 0
deriving DecidableEq, Inhabited

structure Store (α : Type) where
  scopes : Array (Scope α) := #[]
  made : Made := {}
  writes : Nat := 0
deriving Inhabited

namespace Store

variable {α : Type}

def add (s : Store α) (scope : Scope α) : Store α :=
  { s with scopes := s.scopes.push scope, made := { s.made with scopes := s.made.scopes + 1 } }

def push (s : Store α) (parent : Option ScopeId) : Store α := s.add ⟨parent, s.made.scopes, [], []⟩

def copy (s : Store α) (id : ScopeId) : Store α :=
  match s.scopes[id]? with
  | some scope => s.add scope
  | none => s

def next (s : Store α) : ScopeId := s.scopes.size

def chain (s : Store α) (id : ScopeId) : List ScopeId :=
  match s.scopes[id]? with
  | none => []
  | some scope =>
    match scope.parent with
    | some parent => if parent < id then id :: s.chain parent else [id]
    | none => [id]
termination_by id

def variableOwner? (s : Store α) (id : ScopeId) (name : String) : Option ScopeId :=
  (s.chain id).find? fun i => ((s.scopes[i]?.bind (·.variableNamed? name)).isSome)

def methodOwner? (s : Store α) (id : ScopeId) (name : String) : Option ScopeId :=
  (s.chain id).find? fun i => ((s.scopes[i]?.bind (·.methodNamed? name)).isSome)

def variableNamed? (s : Store α) (id : ScopeId) (name : String) : Option (Variable α) :=
  (s.chain id).findSome? fun i => s.scopes[i]?.bind (·.variableNamed? name)

def methodNamed? (s : Store α) (id : ScopeId) (name : String) : Option Method :=
  (s.chain id).findSome? fun i => s.scopes[i]?.bind (·.methodNamed? name)

def view (s : Store α) (id : ScopeId) : View α := fun name =>
  (s.variableNamed? id name).map Variable.value

def conflict? (s : Store α) (id : ScopeId) (name : String) : Option Cause :=
  s.scopes[id]?.bind (·.conflict? name)

def addVariable (s : Store α) (id : ScopeId) (name : String) (value : α) (origin : Origin) :
    Store α :=
  let v : Variable α := ⟨name, value, s.made.vars, origin⟩
  { scopes := s.scopes.modify id fun scope => { scope with vars := scope.vars ++ [v] }
    made := { s.made with vars := s.made.vars + 1 }
    writes := s.writes + 1 }

def addMethod (s : Store α) (id : ScopeId) (m : Method) : Store α :=
  { s with
    scopes := s.scopes.modify id fun scope => { scope with methods := scope.methods ++ [m] } }

def write (s : Store α) (owner : ScopeId) (name : String) (value : α) (origin : Origin) :
    Store α :=
  { s with
    scopes := s.scopes.modify owner fun scope => scope.set name value origin
    writes := s.writes + 1 }

def declare (s : Store α) (id : ScopeId) (name : String) (value : α) (origin : Origin) :
    Except Cause (Store α) :=
  match s.conflict? id name with
  | some cause => .error cause
  | none => .ok (s.addVariable id name value origin)

def declareMethod (s : Store α) (id : ScopeId) (m : Method) : Except Cause (Store α) :=
  match s.conflict? id m.name with
  | some cause => .error cause
  | none => .ok (s.addMethod id m)

def assign? (s : Store α) (id : ScopeId) (name : String) (value : α) (origin : Origin) :
    Option (Store α) :=
  (s.variableOwner? id name).map fun owner => s.write owner name value origin

def snapshot (s : Store α) (id : ScopeId) : List (String × α) :=
  (s.scopes[id]?.map Scope.snapshot).getD []

def originOf (s : Store Value) (id : ScopeId) : Expr → Origin
  -- a name passes on what its variable holds
  | .name n => ((s.variableNamed? id n.text).map Variable.origin).getD (.write s.writes)
  | .logical l op r =>
    match l.value (s.view id) with
    | .ok v => if Expr.decides op v then s.originOf id l else s.originOf id r
    | .error _ => .write s.writes
  | .binary _ op r =>
    match op.kind, r.value (s.view id) with
    | .slash, .ok (.number x) => if x == 0 then .division else .write s.writes
    | _, _ => .write s.writes
  | _ => .write s.writes

def origin (s : Store Value) (id : ScopeId) (e : Expr) (value : Value) : Origin :=
  if value.isNaN then s.originOf id e else .division

theorem chain_head? {s : Store α} {id : ScopeId} (h : id < s.scopes.size) :
    (s.chain id).head? = some id := by
  rw [chain]
  split
  · rename_i hn
    exact absurd h (Nat.not_lt.2 (Array.getElem?_eq_none_iff.1 hn))
  · split
    · split <;> rfl
    · rfl

theorem lt_size_of_mem_chain {s : Store α} {id i : ScopeId} (h : i ∈ s.chain id) :
    i < s.scopes.size := by
  fun_induction chain s id with
  | case1 => simp at h
  | case2 id scope hs parent hp hlt ih =>
    rcases List.mem_cons.1 h with rfl | h
    · exact (Array.getElem?_eq_some_iff.1 hs).1
    · exact ih h
  | case3 id scope hs parent hp hlt =>
    rw [List.mem_singleton.1 h]
    exact (Array.getElem?_eq_some_iff.1 hs).1
  | case4 id scope hs hp =>
    rw [List.mem_singleton.1 h]
    exact (Array.getElem?_eq_some_iff.1 hs).1

end Store

end ScopedScript
