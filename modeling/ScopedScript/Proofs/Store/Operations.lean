import ScopedScript.Proofs.Run.Failure
import ScopedScript.Proofs.Store.Regular

namespace ScopedScript

variable {α : Type}

inductive Operation (α : Type)
  | make (parent : Option ScopeId)
  | copy (id : ScopeId)
  | declare (id : ScopeId) (name : String) (value : α) (origin : Origin)
  | declareMethod (id : ScopeId) (method : Method)
  | assign (id : ScopeId) (name : String) (value : α) (origin : Origin)

def Operation.scope? : Operation α → Option ScopeId
  | make parent => parent
  | copy id => some id
  | declare id _ _ _ => some id
  | declareMethod id _ => some id
  | assign id _ _ _ => some id

namespace Store

/-- The store behind an operation. One that is refused changes nothing, and there is none on a scope
that is not there. -/
def perform (s : Store α) (op : Operation α) : Store α :=
  if op.scope?.all (· < s.scopes.size) then
    match op with
    | .make parent => s.push parent
    | .copy id => s.copy id
    | .declare id name value origin => (s.declare id name value origin).toOption.getD s
    | .declareMethod id method => (s.declareMethod id method).toOption.getD s
    | .assign id name value origin => (s.assign? id name value origin).getD s
  else s

inductive Outward (s : Store α) : ScopeId → List ScopeId → Prop
  | outermost {id : ScopeId} {a : Scope α} :
    s.scopes[id]? = some a → a.parent = none → Outward s id [id]
  | inner {id parent : ScopeId} {a : Scope α} {ids : List ScopeId} :
    s.scopes[id]? = some a → a.parent = some parent → Outward s parent ids →
      Outward s id (id :: ids)

def Nested (s : Store α) : Prop :=
  ∀ (i : ScopeId) (a : Scope α) (p : ScopeId), s.scopes[i]? = some a → a.parent = some p → p < i

namespace Nested

variable {s : Store α}

theorem outward_chain (h : s.Nested) {id : ScopeId} (hid : id < s.scopes.size) :
    s.Outward id (s.chain id) := by
  fun_induction chain s id with
  | case1 id hs => exact absurd hid (Nat.not_lt.2 (Array.getElem?_eq_none_iff.1 hs))
  | case2 id a hs parent hp lt ih => exact .inner hs hp (ih (Nat.lt_trans lt hid))
  | case3 id a hs parent hp lt => exact absurd (h id a parent hs hp) lt
  | case4 id a hs hp => exact .outermost hs hp

theorem add (h : s.Nested) {a : Scope α} (hp : ∀ p, a.parent = some p → p < s.scopes.size) :
    (s.add a).Nested := by
  intro i b p hb hbp
  rcases getElem?_add_cases hb with ⟨-, hb⟩ | ⟨rfl, rfl⟩
  · exact h i b p hb hbp
  · exact hp p hbp

theorem copy (h : s.Nested) (id : ScopeId) : (s.copy id).Nested := by
  unfold Store.copy
  split
  · rename_i a ha
    exact h.add fun p hp =>
      Nat.lt_trans (h id a p ha hp) (Array.getElem?_eq_some_iff.1 ha).1
  · exact h

theorem of_frame {t : Store α} {g : Option ScopeId} (h : s.Nested) (hf : s.Frame g t)
    (hs : t.scopes.size = s.scopes.size) : t.Nested := by
  intro i b p hb hp
  obtain ⟨a, ha, same⟩ := hf.old hs hb
  exact h i a p ha (same ▸ hp)

end Nested

structure Formed (s : Store α) : Prop where
  regular : s.Regular
  nested : s.Nested

theorem formed_empty (made : Made) (writes : Nat) :
    Formed (⟨#[], made, writes⟩ : Store α) := by
  constructor <;> intro i a <;> simp

theorem declare_eq_error_iff {s : Store α} {id : ScopeId} {name : String} {value : α}
    {origin : Origin} {cause : Cause} :
    s.declare id name value origin = .error cause ↔ s.conflict? id name = some cause := by
  unfold declare
  cases s.conflict? id name <;> simp

theorem declareMethod_eq_error_iff {s : Store α} {id : ScopeId} {method : Method}
    {cause : Cause} :
    s.declareMethod id method = .error cause ↔ s.conflict? id method.name = some cause := by
  unfold declareMethod
  cases s.conflict? id method.name <;> simp

theorem exists_conflict_iff {s : Store α} {i : ScopeId} {a : Scope α}
    (ha : s.scopes[i]? = some a) (name : String) :
    (∃ cause, s.conflict? i name = some cause) ↔
      name ∈ a.vars.map Variable.name ∨ name ∈ a.methods.map Method.name := by
  have free := @Scope.conflict?_eq_none_iff _ a name
  rw [← Option.isSome_iff_exists, ← Option.ne_none_iff_isSome, ← List.mem_append]
  rw [conflict?, ha, Option.bind_some, ne_eq, free, not_not]
  rfl

namespace Formed

variable {s : Store α}

theorem declare (h : s.Formed) (id : ScopeId) (name : String) (value : α) (origin : Origin) :
    ((s.declare id name value origin).toOption.getD s).Formed := by
  unfold Store.declare
  split
  · exact h
  · rename_i free
    exact ⟨h.regular.addVariable free value origin,
      h.nested.of_frame (frame_addVariable s id name value origin) (Array.size_modify ..)⟩

theorem declareMethod (h : s.Formed) (id : ScopeId) (method : Method) :
    ((s.declareMethod id method).toOption.getD s).Formed := by
  unfold Store.declareMethod
  split
  · exact h
  · rename_i free
    exact ⟨h.regular.addMethod free,
      h.nested.of_frame (frame_addMethod s id method) (Array.size_modify ..)⟩

theorem assign (h : s.Formed) (id : ScopeId) (name : String) (value : α) (origin : Origin) :
    ((s.assign? id name value origin).getD s).Formed := by
  unfold assign?
  cases s.variableOwner? id name with
  | none => exact h
  | some owner =>
    have frame : s.Frame none (s.write owner name value origin) :=
      frame_write s owner name value origin
    exact ⟨h.regular.write owner name value origin, h.nested.of_frame frame (Array.size_modify ..)⟩

theorem perform (h : s.Formed) (op : Operation α) : (s.perform op).Formed := by
  unfold Store.perform
  split
  · rename_i there
    cases op with
    | make parent =>
      refine ⟨h.regular.push parent, h.nested.add fun p hp => ?_⟩
      cases hp
      simpa [Operation.scope?] using there
    | copy id => exact ⟨h.regular.copy id, h.nested.copy id⟩
    | declare id name value origin => exact h.declare id name value origin
    | declareMethod id method => exact h.declareMethod id method
    | assign id name value origin => exact h.assign id name value origin
  · exact h

theorem performAll (h : s.Formed) (ops : List (Operation α)) :
    (ops.foldl Store.perform s).Formed :=
  List.foldlRecOn ops _ h fun _ h op _ => h.perform op

end Formed

/-- Whatever operations made the scopes, no name is bound twice in one of them, and what a name is
bound to has this name. The variables of a scope stand in the order in which they were made, and a
listing by ordinals has all of them. Scopes are younger than those around them, so that going
outwards ends. A name is declared in a scope unless it is bound there already, to a variable or to a
method: then the declaration is refused as a duplicate, and changes nothing. -/
theorem operations_regular (made : Made) (writes : Nat) (ops : List (Operation α)) :
    let s := ops.foldl perform ⟨#[], made, writes⟩
    ∀ (i : ScopeId) (a : Scope α), s.scopes[i]? = some a →
      (∀ name, (a.variableNamed? name).isSome → a.methodNamed? name = none) ∧
      (∀ name v, a.variableNamed? name = some v ↔ v ∈ a.vars ∧ v.name = name) ∧
      (∀ name m, a.methodNamed? name = some m ↔ m ∈ a.methods ∧ m.name = name) ∧
      (a.vars.Pairwise fun v w => v.ordinal < w.ordinal) ∧
      s.snapshot i = a.collected ∧ a.collected = (a.vars.map fun v => (v.name, v.value)) ∧
      (∀ p, a.parent = some p → p < i) ∧ s.Outward i (s.chain i) ∧
      (∀ name value origin,
        ((∃ cause, s.declare i name value origin = .error cause) ↔
          name ∈ a.vars.map Variable.name ∨ name ∈ a.methods.map Method.name) ∧
        ∀ cause, s.declare i name value origin = .error cause →
          cause.kind = .duplicateName ∧ s.perform (.declare i name value origin) = s) ∧
      ∀ method : Method,
        ((∃ cause, s.declareMethod i method = .error cause) ↔
          method.name ∈ a.vars.map Variable.name ∨ method.name ∈ a.methods.map Method.name) ∧
        ∀ cause, s.declareMethod i method = .error cause →
          cause.kind = .duplicateName ∧ s.perform (.declareMethod i method) = s := by
  intro s i a ha
  have formed : s.Formed := (formed_empty made writes).performAll ops
  have regular := formed.regular i a ha
  have collected := regular.collected_eq
  have there : i < s.scopes.size := (Array.getElem?_eq_some_iff.1 ha).1
  refine ⟨fun name bound => ?_, fun name v => regular.variableNamed?_eq_some,
    fun name m => regular.methodNamed?_eq_some, regular.ordered, ?_, collected,
    fun p hp => formed.nested i a p ha hp, formed.nested.outward_chain there,
    fun name value origin => ⟨?_, fun cause refused => ⟨?_, ?_⟩⟩,
    fun method => ⟨?_, fun cause refused => ⟨?_, ?_⟩⟩⟩
  · obtain ⟨v, hv⟩ := Option.isSome_iff_exists.1 bound
    obtain ⟨mem, rfl⟩ := regular.variableNamed?_eq_some.1 hv
    exact regular.methodNamed?_eq_none (List.mem_map_of_mem mem)
  · rw [snapshot, ha, collected]
    rfl
  · simp only [declare_eq_error_iff]
    exact exists_conflict_iff ha name
  · exact conflict?_kind (declare_eq_error_iff.1 refused)
  · simp [perform, refused, Except.toOption]
  · simp only [declareMethod_eq_error_iff]
    exact exists_conflict_iff ha method.name
  · exact conflict?_kind (declareMethod_eq_error_iff.1 refused)
  · simp [perform, refused, Except.toOption]

theorem operations_regular_copied_scope :
    let ops : List (Operation Nat) := [.make none, .declare 0 "x" 1 .division,
      .declareMethod 0 ⟨"f", [], [], 0⟩, .make (some 0), .declare 1 "x" 2 .division, .copy 1,
      .declare 2 "y" 3 .division, .assign 2 "x" 4 .division, .declare 0 "f" 5 .division,
      .declareMethod 1 ⟨"x", [], [], 1⟩]
    let s := ops.foldl perform ⟨#[], {}, 0⟩
    s.scopes.size = 3 ∧ s.made.vars = 3 ∧ s.snapshot 1 = [("x", 2)] ∧
      s.snapshot 2 = [("x", 4), ("y", 3)] ∧
      ∃ a, s.scopes[2]? = some a ∧ s.snapshot 2 = a.collected ∧ s.Outward 2 (s.chain 2) := by
  intro ops s
  have size : s.scopes.size = 3 := by decide +kernel
  have there : s.scopes[2]? = some s.scopes[2] := Array.getElem?_eq_getElem (by rw [size]; decide)
  obtain ⟨-, -, -, -, listed, -, -, outward, -⟩ := operations_regular {} 0 ops 2 _ there
  exact ⟨size, by decide +kernel, by decide +kernel, by decide +kernel, _, there, listed, outward⟩

end Store

end ScopedScript
