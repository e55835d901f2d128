import ScopedScript.Proofs.Store.Vacant

namespace ScopedScript

theorem Scope.variableNamed?_eq_none {α : Type} {a : Scope α} {name : String} :
    a.variableNamed? name = none ↔ name ∉ a.vars.map Variable.name := by
  simp [Scope.variableNamed?]

theorem Scope.methodNamed?_eq_none {α : Type} {a : Scope α} {name : String} :
    a.methodNamed? name = none ↔ name ∉ a.methods.map Method.name := by
  simp [Scope.methodNamed?]

theorem Scope.conflict?_eq_none {α : Type} {a : Scope α} {name : String} :
    a.conflict? name = none ↔ a.variableNamed? name = none ∧ a.methodNamed? name = none := by
  unfold Scope.conflict?
  cases a.variableNamed? name <;> cases a.methodNamed? name <;> simp

namespace Store

variable {α : Type} {s : Store α}

theorem mem_of_view {id : ScopeId} {name : String} {value : α} (h : s.view id name = some value) :
    ∃ (i : ScopeId) (a : Scope α) (x : Variable α),
      s.scopes[i]? = some a ∧ x ∈ a.vars ∧ x.value = value := by
  obtain ⟨x, hx, rfl⟩ := Option.map_eq_some_iff.1 h
  obtain ⟨i, -, hi⟩ := List.exists_of_findSome?_eq_some hx
  obtain ⟨a, ha, hx⟩ := Option.bind_eq_some_iff.1 hi
  exact ⟨i, a, x, ha, List.mem_of_find?_eq_some hx, rfl⟩

def Every (P : Scope α → Prop) (s : Store α) : Prop :=
  ∀ (i : ScopeId) (a : Scope α), s.scopes[i]? = some a → P a

variable {P : Scope α → Prop}

theorem Every.add (h : s.Every P) {a : Scope α} (ha : P a) : (s.add a).Every P := by
  intro i b hb
  rcases getElem?_add_cases hb with ⟨-, hb⟩ | ⟨-, rfl⟩
  · exact h i b hb
  · exact ha

theorem Every.copy (h : s.Every P) (id : ScopeId) : (s.copy id).Every P := by
  unfold Store.copy
  split
  · rename_i a ha
    exact h.add (h id a ha)
  · exact h

theorem Every.modify (h : s.Every P) {made : Made} {writes : Nat} {id : ScopeId}
    {f : Scope α → Scope α} (hf : ∀ a, s.scopes[id]? = some a → P a → P (f a)) :
    Every P ⟨s.scopes.modify id f, made, writes⟩ := by
  intro i b hb
  have hi : i < s.scopes.size := by simpa using (Array.getElem?_eq_some_iff.1 hb).1
  have ha := Array.getElem?_eq_getElem hi
  rcases modify_eq ha hb with rfl | ⟨rfl, rfl⟩
  · exact h i _ ha
  · exact hf _ ha (h i _ ha)

end Store

end ScopedScript
