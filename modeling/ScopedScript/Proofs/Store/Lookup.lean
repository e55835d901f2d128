import Mathlib.Data.List.Basic
import Mathlib.Data.List.Find
import ScopedScript.Proofs.Store.Every

namespace ScopedScript

variable {α : Type}

theorem findSome?_eq_bind_find? {β γ : Type} (f : β → Option γ) (l : List β) :
    l.findSome? f = (l.find? fun b => (f b).isSome).bind f := by
  induction l with
  | nil => rfl
  | cons b l ih =>
    cases hb : f b with
    | none => simp [hb, ih]
    | some c => simp [hb]

namespace Scope

theorem Keeps.variableNamed?_isSome {a b : Scope α} (h : a.Keeps b) (name : String) :
    (b.variableNamed? name).isSome = (a.variableNamed? name).isSome := by
  rw [Bool.eq_iff_iff, ← Option.ne_none_iff_isSome, ← Option.ne_none_iff_isSome, ne_eq, ne_eq,
    variableNamed?_eq_none, variableNamed?_eq_none, h.names]

theorem variableNamed?_set (a : Scope α) (name : String) (value : α) (origin : Origin) :
    (a.set name value origin).variableNamed? name =
      (a.variableNamed? name).map fun v => { v with value, origin } := by
  unfold variableNamed? set
  induction a.vars with
  | nil => rfl
  | cons v vars ih =>
    by_cases named : v.name = name
    · simp [named]
    · simpa [named] using ih

end Scope

namespace Store

variable {s t : Store α} {id owner : ScopeId} {name : String}

theorem variableNamed?_eq (s : Store α) (id : ScopeId) (name : String) :
    s.variableNamed? id name =
      (s.variableOwner? id name).bind fun i => s.scopes[i]?.bind (·.variableNamed? name) :=
  findSome?_eq_bind_find? _ _

theorem methodNamed?_eq (s : Store α) (id : ScopeId) (name : String) :
    s.methodNamed? id name =
      (s.methodOwner? id name).bind fun i => s.scopes[i]?.bind (·.methodNamed? name) :=
  findSome?_eq_bind_find? _ _

theorem mem_of_methodNamed? {callee : Method} (h : s.methodNamed? id name = some callee) :
    ∃ owner a, s.methodOwner? id name = some owner ∧ s.scopes[owner]? = some a ∧
      callee ∈ a.methods := by
  rw [methodNamed?_eq] at h
  obtain ⟨owner, ho, h⟩ := Option.bind_eq_some_iff.1 h
  obtain ⟨a, ha, hm⟩ := Option.bind_eq_some_iff.1 h
  exact ⟨owner, a, ho, ha, List.mem_of_find?_eq_some hm⟩

theorem mem_chain_of_variableOwner? (h : s.variableOwner? id name = some owner) :
    owner ∈ s.chain id :=
  List.mem_of_find?_eq_some h

theorem exists_of_variableOwner? (h : s.variableOwner? id name = some owner) :
    ∃ a v, s.scopes[owner]? = some a ∧ a.variableNamed? name = some v := by
  have bound : (s.scopes[owner]?.bind (·.variableNamed? name)).isSome := by
    simpa using List.find?_some h
  obtain ⟨v, hv⟩ := Option.isSome_iff_exists.1 bound
  obtain ⟨a, ha, hv⟩ := Option.bind_eq_some_iff.1 hv
  exact ⟨a, v, ha, hv⟩

theorem Frame.variableOwner?_eq (h : s.Frame none t) (hid : id < s.scopes.size) (name : String) :
    t.variableOwner? id name = s.variableOwner? id name := by
  rw [variableOwner?, variableOwner?, h.chain_eq hid]
  refine List.find?_congr fun i hi => ?_
  obtain ⟨b, hb, -, keeps⟩ := h.scope i _ (Array.getElem?_eq_getElem (lt_size_of_mem_chain hi))
  rw [hb, Array.getElem?_eq_getElem (lt_size_of_mem_chain hi)]
  exact (keeps nofun).variableNamed?_isSome name

theorem view_write (h : s.variableOwner? id name = some owner) (value : α) (origin : Origin) :
    (s.write owner name value origin).view id name = some value := by
  obtain ⟨a, v, ha, hv⟩ := exists_of_variableOwner? h
  have there : id < s.scopes.size := by
    refine Nat.lt_of_not_le fun le => ?_
    have around := mem_chain_of_variableOwner? h
    rw [chain_eq_nil le] at around
    cases around
  have same : (s.write owner name value origin).variableOwner? id name = some owner := by
    rw [(frame_write s owner name value origin).variableOwner?_eq there, h]
  have set : (s.write owner name value origin).scopes[owner]? = some (a.set name value origin) := by
    simp [write, Array.getElem?_modify, ha]
  rw [view, variableNamed?_eq, same, Option.bind_some, set, Option.bind_some,
    Scope.variableNamed?_set, hv]
  rfl

theorem view_add_of_lt (s : Store α) (a : Scope α) {id : ScopeId} (h : id < s.scopes.size) :
    (s.add a).view id = s.view id := by
  funext name
  simp only [view, variableNamed?, (frame_add s a).chain_eq h, ← List.head?_filterMap]
  rw [List.filterMap_congr fun i hi => ?_]
  rw [getElem?_add_of_lt s a (lt_size_of_mem_chain hi)]

theorem view_push (s : Store α) (id : ScopeId) : (s.push (some id)).view id = s.view id := by
  by_cases there : id < s.scopes.size
  · exact s.view_add_of_lt _ there
  · -- a scope that is not there sees nothing, and neither does the new one, if it is this one
    have absent := Nat.le_of_not_lt there
    have before : s.chain id = [] := chain_eq_nil absent
    funext name
    by_cases new : id = s.scopes.size
    · have behind : (s.push (some id)).scopes[id]? = some ⟨some id, s.made.scopes, [], []⟩ := by
        rw [push, getElem?_add, if_pos new]
      have after : (s.push (some id)).chain id = [id] := by
        rw [chain, behind]
        simp
      simp [view, variableNamed?, before, after, behind, Scope.variableNamed?]
    · have after : (s.push (some id)).chain id = [] := by
        refine chain_eq_nil ?_
        rw [push, add, Array.size_push]
        exact Nat.lt_of_le_of_ne absent (Ne.symm new)
      simp [view, variableNamed?, before, after]

end Store

end ScopedScript
