import ScopedScript.Proofs.Store.Lookup
import ScopedScript.Proofs.Store.Operations

/-!
# Copies of scopes

A scope and its copy are `Siblings`: they are inside the same scopes and not inside each other. That
does not change, whatever operations follow, so an operation through the one never gets to what the
other one owns; what they share are the scopes around them. Main statement: `copy_isolated`.
-/

namespace ScopedScript.Store

variable {α : Type} {s : Store α} {i j : ScopeId} {around : List ScopeId}

/-! ## What an operation gets to -/

theorem perform_cases (s : Store α) (op : Operation α) :
    s.perform op = s ∨ (∃ a, s.perform op = s.add a) ∨
      ∃ id owner f made writes, op.scope? = some id ∧ owner ∈ s.chain id ∧
        (∀ a : Scope α, a.Extends (f a)) ∧
        s.perform op = ⟨s.scopes.modify owner f, made, writes⟩ := by
  unfold perform
  split
  · rename_i there
    have here {id : ScopeId} (h : op.scope? = some id) : id ∈ s.chain id := by
      rw [h] at there
      exact List.mem_of_mem_head? (chain_head? (by simpa using there))
    cases op with
    | make parent => exact .inr (.inl ⟨_, rfl⟩)
    | copy id =>
      dsimp only
      rw [Store.copy]
      split
      · exact .inr (.inl ⟨_, rfl⟩)
      · exact .inl rfl
    | declare id name value origin =>
      dsimp only
      rw [Store.declare]
      split
      · exact .inl rfl
      · exact .inr (.inr ⟨id, id, _, _, _, rfl, here rfl, fun a => a.extends_addVariable _, rfl⟩)
    | declareMethod id method =>
      dsimp only
      rw [Store.declareMethod]
      split
      · exact .inl rfl
      · exact .inr (.inr ⟨id, id, _, _, _, rfl, here rfl, fun a => a.extends_addMethod _, rfl⟩)
    | assign id name value origin =>
      dsimp only
      rw [assign?]
      cases h : s.variableOwner? id name with
      | none => exact .inl rfl
      | some owner =>
        exact .inr (.inr ⟨id, owner, _, _, _, rfl, mem_chain_of_variableOwner? h,
          fun a => (a.keeps_set name value origin).extends, rfl⟩)
  · exact .inl rfl

theorem frame_perform (s : Store α) (op : Operation α) :
    ∃ grown, s.Frame grown (s.perform op) := by
  obtain same | ⟨a, added⟩ | ⟨-, owner, f, made, writes, -, -, extends_, modified⟩ :=
    s.perform_cases op
  · exact ⟨none, by rw [same]; exact .refl none s⟩
  · exact ⟨none, by rw [added]; exact frame_add s a⟩
  · exact ⟨some owner, by rw [modified]; exact frame_modify extends_ fun h => absurd rfl h⟩

theorem getElem?_perform {op : Operation α} (through : op.scope? = some i)
    (apart : j ∉ s.chain i) (hj : j < s.scopes.size) :
    (s.perform op).scopes[j]? = s.scopes[j]? := by
  obtain same | ⟨a, added⟩ | ⟨id, owner, f, made, writes, about, reached, -, modified⟩ :=
    s.perform_cases op
  · rw [same]
  · rw [added, getElem?_add_of_lt s a hj]
  · cases through.symm.trans about
    have other : owner ≠ j := fun e => apart (e ▸ reached)
    rw [modified, Array.getElem?_modify, if_neg other]

/-! ## Scopes inside the same ones -/

/-- Two scopes with the same scopes around them, neither of which is around the other. -/
structure Siblings (s : Store α) (i j : ScopeId) (around : List ScopeId) : Prop where
  first : s.chain i = i :: around
  second : s.chain j = j :: around
  first_apart : i ∉ s.chain j
  second_apart : j ∉ s.chain i

namespace Siblings

theorem symm (h : s.Siblings i j around) : s.Siblings j i around :=
  ⟨h.second, h.first, h.second_apart, h.first_apart⟩

theorem lt_size (h : s.Siblings i j around) : i < s.scopes.size :=
  lt_size_of_mem_chain (h.first ▸ List.mem_cons_self)

theorem perform (h : s.Siblings i j around) (op : Operation α) :
    (s.perform op).Siblings i j around := by
  obtain ⟨grown, frame⟩ := s.frame_perform op
  have left := frame.chain_eq h.lt_size
  have right := frame.chain_eq h.symm.lt_size
  exact ⟨left.trans h.first, right.trans h.second, right ▸ h.first_apart, left ▸ h.second_apart⟩

theorem performAll (h : s.Siblings i j around) (ops : List (Operation α)) :
    (ops.foldl Store.perform s).Siblings i j around := by
  induction ops generalizing s with
  | nil => exact h
  | cons op ops ih => exact ih (h.perform op)

theorem confined (h : s.Siblings i j around) {op : Operation α} (through : op.scope? = some i) :
    (s.perform op).scopes[j]? = s.scopes[j]? :=
  getElem?_perform through h.second_apart h.symm.lt_size

theorem variableOwner?_eq (h : s.Siblings i j around) {name : String}
    (hi : s.variableOwner? i name ≠ some i) (hj : s.variableOwner? j name ≠ some j) :
    s.variableOwner? j name = s.variableOwner? i name := by
  unfold variableOwner? at hi hj ⊢
  rw [h.first, List.find?_cons] at hi ⊢
  rw [h.second, List.find?_cons] at hj ⊢
  split at hi
  · exact absurd rfl hi
  · split at hj
    · exact absurd rfl hj
    · rfl

theorem lookups_eq (h : s.Siblings i j around) (same : s.scopes[j]? = s.scopes[i]?)
    (name : String) :
    s.variableNamed? j name = s.variableNamed? i name ∧
      s.methodNamed? j name = s.methodNamed? i name ∧
      s.variableOwner? j name =
        (s.variableOwner? i name).map fun owner => if owner = i then j else owner := by
  refine ⟨?_, ?_, ?_⟩
  · simp only [variableNamed?, h.first, h.second, List.findSome?_cons, same]
  · simp only [methodNamed?, h.first, h.second, List.findSome?_cons, same]
  · simp only [variableOwner?, h.first, h.second, List.find?_cons, same]
    split
    · simp
    · cases found : List.find? _ around with
      | none => rfl
      | some owner =>
        have other : owner ≠ i := fun e =>
          h.first_apart (h.second ▸ List.mem_cons_of_mem j (e ▸ List.mem_of_find?_eq_some found))
        rw [Option.map_some, if_neg other]

theorem assign?_shared (h : s.Siblings i j around) {name : String}
    (hi : s.variableOwner? i name ≠ some i) (hj : s.variableOwner? j name ≠ some j)
    {owner : ScopeId} (ho : s.variableOwner? i name = some owner) (value : α) (origin : Origin) :
    let t := s.write owner name value origin
    s.assign? i name value origin = some t ∧ s.assign? j name value origin = some t ∧
      t.view i name = some value ∧ t.view j name = some value := by
  intro t
  have ho' := (h.variableOwner?_eq hi hj).trans ho
  refine ⟨?_, ?_, view_write ho value origin, view_write ho' value origin⟩
  · rw [assign?, ho, Option.map_some]
  · rw [assign?, ho', Option.map_some]

end Siblings

/-! ## A copy and its original -/

theorem le_of_mem_chain {k : ScopeId} (h : k ∈ s.chain i) : k ≤ i := by
  fun_induction chain s i with
  | case1 => cases h
  | case2 i a ha p hp lt ih =>
    rcases List.mem_cons.1 h with rfl | h
    · exact Nat.le_refl k
    · exact Nat.le_trans (ih h) (Nat.le_of_lt lt)
  | case3 | case4 => exact Nat.le_of_eq (List.mem_singleton.1 h)

theorem getElem?_copy (hi : i < s.scopes.size) :
    (∀ k < s.scopes.size, (s.copy i).scopes[k]? = s.scopes[k]?) ∧
      (s.copy i).scopes[s.next]? = s.scopes[i]? := by
  rw [copy, Array.getElem?_eq_getElem hi]
  refine ⟨fun k hk => getElem?_add_of_lt s _ hk, ?_⟩
  rw [getElem?_add, next, if_pos rfl]

theorem Nested.siblings_copy (h : s.Nested) (hi : i < s.scopes.size) :
    ∃ around, (s.copy i).Siblings i s.next around := by
  obtain ⟨a, there⟩ : ∃ a, s.scopes[i]? = some a := ⟨_, Array.getElem?_eq_getElem hi⟩
  have ⟨left, right⟩ := getElem?_copy hi
  have newer : i < s.next := hi
  have older (p : ScopeId) (hp : a.parent = some p) : p < i := h i a p there hp
  have first := chain_eq_cons ((left i hi).trans there) older
  have second := chain_eq_cons (right.trans there) fun p hp => Nat.lt_trans (older p hp) newer
  refine ⟨_, first, second, ?_, fun mem => Nat.not_le.2 newer (le_of_mem_chain mem)⟩
  -- the scopes around both are those around the parent, which was made before them
  rw [second]
  intro mem
  rcases List.mem_cons.1 mem with same | mem
  · exact Nat.ne_of_lt newer same
  · cases hp : a.parent with
    | none => simp [hp] at mem
    | some p =>
      simp only [hp, Option.map_some, Option.getD_some] at mem
      exact Nat.not_le.2 (older p hp) (le_of_mem_chain mem)

/-- A copy of a scope binds what the scope does, and whatever it sees is what the scope sees: a
variable of its own with the same value and ordinal, or the very variable of a scope around both.
This lasts. Whatever operations follow, on these two scopes and on others, a name that neither of
the two has a variable of means one variable to both, and what either of them sets it to both see;
and an operation through one of the two changes nothing in the other. -/
theorem copy_isolated (nested : s.Nested) (hi : i < s.scopes.size) :
    let c := s.next
    let t := s.copy i
    ((∀ k < s.scopes.size, t.scopes[k]? = s.scopes[k]?) ∧ t.scopes[c]? = s.scopes[i]?) ∧
      (∀ name, t.variableNamed? c name = t.variableNamed? i name ∧
        t.methodNamed? c name = t.methodNamed? i name ∧
        t.variableOwner? c name =
          (t.variableOwner? i name).map fun owner => if owner = i then c else owner) ∧
      ∀ ops : List (Operation α),
        let u := ops.foldl perform t
        (∀ name, u.variableOwner? i name ≠ some i → u.variableOwner? c name ≠ some c →
          u.variableOwner? c name = u.variableOwner? i name ∧
          ∀ owner, u.variableOwner? i name = some owner → ∀ value origin,
            let v := u.write owner name value origin
            u.assign? i name value origin = some v ∧ u.assign? c name value origin = some v ∧
              v.view i name = some value ∧ v.view c name = some value) ∧
        ∀ op : Operation α,
          (op.scope? = some i → (u.perform op).scopes[c]? = u.scopes[c]?) ∧
          (op.scope? = some c → (u.perform op).scopes[i]? = u.scopes[i]?) := by
  intro c t
  obtain ⟨kept, copied⟩ := getElem?_copy hi
  obtain ⟨around, siblings⟩ := nested.siblings_copy hi
  have same : t.scopes[c]? = t.scopes[i]? := copied.trans (kept i hi).symm
  refine ⟨⟨kept, copied⟩, siblings.lookups_eq same, fun ops => ?_⟩
  have later := siblings.performAll ops
  exact ⟨fun name hi hc =>
      ⟨later.variableOwner?_eq hi hc, fun owner ho => later.assign?_shared hi hc ho⟩,
    fun op => ⟨later.confined, later.symm.confined⟩⟩

theorem copy_isolated_shadowing :
    let s : Store Nat := [Operation.make none, .declare 0 "x" 1 .division, .make (some 0),
      .declare 1 "y" 2 .division, .declareMethod 1 ⟨"f", [], [], 1⟩].foldl perform ⟨#[], {}, 0⟩
    let t := s.copy 1
    let u := [Operation.assign 2 "x" 3 .division, .declare 2 "x" 4 .division].foldl perform t
    s.Nested ∧ 1 < s.scopes.size ∧ s.next = 2 ∧
      t.variableOwner? 1 "x" = some 0 ∧ t.variableOwner? 2 "x" = some 0 ∧
      t.variableOwner? 2 "y" = some 2 ∧ u.view 1 "x" = some 3 ∧ u.view 2 "x" = some 4 ∧
      (u.perform (.assign 2 "x" 5 .division)).scopes[1]? = u.scopes[1]? ∧
      (u.perform (.assign 1 "x" 5 .division)).scopes[2]? = u.scopes[2]? := by
  intro s t u
  have nested : s.Nested := ((formed_empty {} 0).performAll _).nested
  have there : 1 < s.scopes.size := by decide +kernel
  have new : s.next = 2 := by decide +kernel
  obtain ⟨-, -, later⟩ := copy_isolated nested there
  rw [new] at later
  obtain ⟨-, confined⟩ := later [.assign 2 "x" 3 .division, .declare 2 "x" 4 .division]
  exact ⟨nested, there, new, by decide +kernel, by decide +kernel, by decide +kernel,
    by decide +kernel, by decide +kernel, (confined _).2 rfl, (confined _).1 rfl⟩

end ScopedScript.Store
