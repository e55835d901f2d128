import ScopedScript.Proofs.Syntax.Rewording
import ScopedScript.Session.Basic

namespace ScopedScript

variable {α : Type} (w : Rewording)

def Variable.reword (v : Variable α) : Variable α := { v with name := w.name v.name }

def Method.reword (m : Method) : Method :=
  { m with
    name := w.name m.name
    parameters := m.parameters.map w.name
    body := Block.reword w m.body }

namespace Scope

def reword (s : Scope α) : Scope α :=
  { s with vars := s.vars.map (Variable.reword w), methods := s.methods.map (Method.reword w) }

theorem variableNamed?_reword (s : Scope α) (name : String) :
    (s.reword w).variableNamed? (w.name name) =
      (s.variableNamed? name).map (Variable.reword w) := by
  rw [variableNamed?, reword, List.find?_map]
  simp [variableNamed?, Function.comp_def, Variable.reword]

theorem methodNamed?_reword (s : Scope α) (name : String) :
    (s.reword w).methodNamed? (w.name name) = (s.methodNamed? name).map (Method.reword w) := by
  rw [methodNamed?, reword, List.find?_map]
  simp [methodNamed?, Function.comp_def, Method.reword]

theorem conflict?_reword (s : Scope α) (name : String) :
    (s.reword w).conflict? (w.name name) = (s.conflict? name).map (Cause.rename w.name) := by
  rw [conflict?, conflict?, variableNamed?_reword, methodNamed?_reword, Option.isSome_map,
    Option.isSome_map]
  split
  · rfl
  · split <;> rfl

theorem set_reword (s : Scope α) (name : String) (value : α) (origin : Origin) :
    (s.reword w).set (w.name name) value origin = (s.set name value origin).reword w := by
  simp only [set, reword, List.map_map, mk.injEq, and_true, true_and]
  refine List.map_congr_left fun v _ => ?_
  simp only [Function.comp_apply, Variable.reword, w.name_beq]
  split <;> rfl

end Scope

namespace Store

def reword (s : Store α) : Store α := { s with scopes := s.scopes.map (Scope.reword w) }

@[simp] theorem getElem?_reword (s : Store α) (id : ScopeId) :
    (s.reword w).scopes[id]? = s.scopes[id]?.map (Scope.reword w) := by
  simp [reword]

theorem chain_reword (s : Store α) (id : ScopeId) : (s.reword w).chain id = s.chain id := by
  fun_induction chain s id with
  | case1 id h => rw [chain, getElem?_reword, h]; rfl
  | case2 id scope h parent hp lt ih =>
    rw [chain, getElem?_reword, h]
    simp [Scope.reword, hp, lt, ih]
  | case3 id scope h parent hp lt =>
    rw [chain, getElem?_reword, h]
    simp [Scope.reword, hp, lt]
  | case4 id scope h hp =>
    rw [chain, getElem?_reword, h]
    simp [Scope.reword, hp]

theorem variableAt_reword (s : Store α) (id : ScopeId) (name : String) :
    (s.reword w).scopes[id]?.bind (·.variableNamed? (w.name name)) =
      (s.scopes[id]?.bind (·.variableNamed? name)).map (Variable.reword w) := by
  rw [getElem?_reword]
  cases s.scopes[id]? with
  | none => rfl
  | some a => exact a.variableNamed?_reword w name

theorem methodAt_reword (s : Store α) (id : ScopeId) (name : String) :
    (s.reword w).scopes[id]?.bind (·.methodNamed? (w.name name)) =
      (s.scopes[id]?.bind (·.methodNamed? name)).map (Method.reword w) := by
  rw [getElem?_reword]
  cases s.scopes[id]? with
  | none => rfl
  | some a => exact a.methodNamed?_reword w name

theorem variableNamed?_reword (s : Store α) (id : ScopeId) (name : String) :
    (s.reword w).variableNamed? id (w.name name) =
      (s.variableNamed? id name).map (Variable.reword w) := by
  simp only [variableNamed?, chain_reword, variableAt_reword, List.map_findSome?]
  rfl

theorem methodNamed?_reword (s : Store α) (id : ScopeId) (name : String) :
    (s.reword w).methodNamed? id (w.name name) =
      (s.methodNamed? id name).map (Method.reword w) := by
  simp only [methodNamed?, chain_reword, methodAt_reword, List.map_findSome?]
  rfl

theorem variableOwner?_reword (s : Store α) (id : ScopeId) (name : String) :
    (s.reword w).variableOwner? id (w.name name) = s.variableOwner? id name := by
  simp only [variableOwner?, chain_reword, variableAt_reword, Option.isSome_map]

theorem view_reword (s : Store α) (id : ScopeId) (name : String) :
    (s.reword w).view id (w.name name) = s.view id name := by
  rw [view, view, variableNamed?_reword, Option.map_map]
  rfl

theorem conflict?_reword (s : Store α) (id : ScopeId) (name : String) :
    (s.reword w).conflict? id (w.name name) = (s.conflict? id name).map (Cause.rename w.name) := by
  rw [conflict?, conflict?, getElem?_reword]
  cases s.scopes[id]? with
  | none => rfl
  | some a => exact a.conflict?_reword w name

theorem ordinal_reword (s : Store α) (id : ScopeId) :
    (s.reword w).scopes[id]?.map Scope.ordinal = s.scopes[id]?.map Scope.ordinal := by
  rw [getElem?_reword, Option.map_map]
  rfl

@[simp] theorem next_reword (s : Store α) : (s.reword w).next = s.next := by
  simp [next, reword]

theorem push_reword (s : Store α) (parent : Option ScopeId) :
    (s.reword w).push parent = (s.push parent).reword w := by
  simp [push, add, reword, Scope.reword]

theorem copy_reword (s : Store α) (id : ScopeId) :
    (s.reword w).copy id = (s.copy id).reword w := by
  rw [copy, copy, getElem?_reword]
  cases s.scopes[id]? with
  | none => rfl
  | some a => simp [add, reword]

theorem modify_reword (s : Store α) (id : ScopeId) {change changed : Scope α → Scope α}
    (h : ∀ a, change (a.reword w) = (changed a).reword w) :
    (s.reword w).scopes.modify id change = (s.scopes.modify id changed).map (Scope.reword w) := by
  apply Array.ext
  · simp [reword]
  · intro i hi hi'
    simp only [reword, Array.getElem_modify, Array.getElem_map]
    split
    · exact h _
    · rfl

theorem addVariable_reword (s : Store α) (id : ScopeId) (name : String) (value : α)
    (origin : Origin) :
    (s.reword w).addVariable id (w.name name) value origin =
      (s.addVariable id name value origin).reword w := by
  simp only [addVariable, reword, mk.injEq, and_true]
  exact s.modify_reword w id fun a => by simp [Scope.reword, Variable.reword]

theorem addMethod_reword (s : Store α) (id : ScopeId) (m : Method) :
    (s.reword w).addMethod id (m.reword w) = (s.addMethod id m).reword w := by
  simp only [addMethod, reword, mk.injEq, and_true]
  exact s.modify_reword w id fun a => by simp [Scope.reword]

theorem write_reword (s : Store α) (owner : ScopeId) (name : String) (value : α)
    (origin : Origin) :
    (s.reword w).write owner (w.name name) value origin =
      (s.write owner name value origin).reword w := by
  simp only [write, reword, mk.injEq, and_true]
  exact s.modify_reword w owner fun a => a.set_reword w name value origin

end Store

def Session.reword (s : Session) : Session := { s with store := s.store.reword w }

end ScopedScript
