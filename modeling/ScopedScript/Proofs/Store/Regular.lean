import Mathlib.Data.List.Nodup
import ScopedScript.Proofs.Datum.Entries
import ScopedScript.Proofs.Store.Every

namespace ScopedScript

variable {α : Type}

theorem find?_key_eq_some {β : Type} {key : β → String} {items : List β}
    (h : (items.map key).Nodup) {name : String} {b : β} :
    items.find? (fun x => key x == name) = some b ↔ b ∈ items ∧ key b = name := by
  constructor
  · intro found
    exact ⟨List.mem_of_find?_eq_some found, by simpa using List.find?_some found⟩
  · rintro ⟨hb, rfl⟩
    have some_found : (items.find? fun x => key x == key b).isSome :=
      List.find?_isSome.2 ⟨b, hb, beq_self_eq_true _⟩
    obtain ⟨c, hc⟩ := Option.isSome_iff_exists.1 some_found
    have same : key c = key b := by simpa using List.find?_some hc
    rw [hc, List.inj_on_of_nodup_map h (List.mem_of_find?_eq_some hc) hb same]

namespace Scope

def names (a : Scope α) : List String := a.vars.map Variable.name ++ a.methods.map Method.name

/-- Every name is bound once, and the variables stand in the order of their ordinals, which are less
than the number of variables made so far. -/
structure Regular (made : Nat) (a : Scope α) : Prop where
  distinct : a.names.Nodup
  ordered : a.vars.Pairwise fun v w => v.ordinal < w.ordinal
  ordinal_lt (v : Variable α) : v ∈ a.vars → v.ordinal < made

def collected (a : Scope α) : List (String × α) :=
  collectEntries (· == ·)
    ((a.vars.mergeSort fun v w => v.ordinal ≤ w.ordinal).map fun v => (v.name, v.value))

theorem conflict?_eq_none_iff {a : Scope α} {name : String} :
    a.conflict? name = none ↔ name ∉ a.names := by
  rw [conflict?_eq_none, variableNamed?_eq_none, methodNamed?_eq_none, names, List.mem_append,
    not_or]

theorem regular_empty (made : Nat) (parent : Option ScopeId) (ordinal : Nat) :
    Regular made (⟨parent, ordinal, [], []⟩ : Scope α) :=
  ⟨.nil, .nil, nofun⟩

namespace Regular

variable {made : Nat} {a : Scope α} {name : String}

theorem variableNamed?_eq_some (h : a.Regular made) {v : Variable α} :
    a.variableNamed? name = some v ↔ v ∈ a.vars ∧ v.name = name :=
  find?_key_eq_some (List.nodup_append.1 h.distinct).1

theorem methodNamed?_eq_some (h : a.Regular made) {m : Method} :
    a.methodNamed? name = some m ↔ m ∈ a.methods ∧ m.name = name :=
  find?_key_eq_some (List.nodup_append.1 h.distinct).2.1

theorem methodNamed?_eq_none (h : a.Regular made) (bound : name ∈ a.vars.map Variable.name) :
    a.methodNamed? name = none :=
  Scope.methodNamed?_eq_none.2 fun method =>
    (List.nodup_append.1 h.distinct).2.2 _ bound _ method rfl

theorem variableNamed?_eq_none (h : a.Regular made) (bound : name ∈ a.methods.map Method.name) :
    a.variableNamed? name = none :=
  Scope.variableNamed?_eq_none.2 fun here =>
    (List.nodup_append.1 h.distinct).2.2 _ here _ bound rfl

theorem collected_eq (h : a.Regular made) : a.collected = a.snapshot := by
  have sorted : a.vars.mergeSort (fun v w => v.ordinal ≤ w.ordinal) = a.vars := by
    refine List.mergeSort_of_pairwise (h.ordered.imp fun lt => ?_)
    exact decide_eq_true (Nat.le_of_lt lt)
  rw [collected, sorted]
  refine collectEntries_eq_self ?_
  rw [List.map_map]
  exact (List.nodup_append.1 h.distinct).1

theorem mono (h : a.Regular made) {made' : Nat} (le : made ≤ made') : a.Regular made' :=
  ⟨h.distinct, h.ordered, fun v hv => Nat.lt_of_lt_of_le (h.ordinal_lt v hv) le⟩

theorem addVariable (h : a.Regular made) (free : a.conflict? name = none) (value : α)
    (origin : Origin) :
    Regular (made + 1) { a with vars := a.vars ++ [⟨name, value, made, origin⟩] } where
  distinct := by
    have new := conflict?_eq_none_iff.1 free
    have moved : (name :: a.names).Perm
        (names { a with vars := a.vars ++ [⟨name, value, made, origin⟩] }) := by
      simpa [names] using List.perm_middle.symm
    exact moved.nodup_iff.1 (List.nodup_cons.2 ⟨new, h.distinct⟩)
  ordered := List.pairwise_append.2 ⟨h.ordered, List.pairwise_singleton _ _, fun v hv w hw => by
    rw [List.mem_singleton.1 hw]
    exact h.ordinal_lt v hv⟩
  ordinal_lt v hv := by
    rcases List.mem_append.1 hv with hv | hv
    · exact Nat.lt_succ_of_lt (h.ordinal_lt v hv)
    · rw [List.mem_singleton.1 hv]
      exact Nat.lt_succ_self made

theorem addMethod (h : a.Regular made) {m : Method} (free : a.conflict? m.name = none) :
    Regular made { a with methods := a.methods ++ [m] } where
  distinct := by
    have new := conflict?_eq_none_iff.1 free
    rw [names, List.map_append, ← List.append_assoc]
    exact List.nodup_append.2 ⟨h.distinct, List.nodup_singleton _, fun n hn n' hn' e => by
      rw [e, List.mem_singleton.1 hn'] at hn
      exact new hn⟩
  ordered := h.ordered
  ordinal_lt := h.ordinal_lt

theorem set (h : a.Regular made) (name : String) (value : α) (origin : Origin) :
    (a.set name value origin).Regular made where
  distinct := by
    rw [names, map_name_set]
    exact h.distinct
  ordered := by
    have ordered := List.pairwise_map.2 h.ordered
    rw [← a.map_ordinal_set name value origin] at ordered
    exact List.pairwise_map.1 ordered
  ordinal_lt v hv := by
    have ordinals : v.ordinal ∈ (a.set name value origin).vars.map Variable.ordinal :=
      List.mem_map_of_mem hv
    rw [map_ordinal_set] at ordinals
    obtain ⟨w, hw, same⟩ := List.mem_map.1 ordinals
    rw [← same]
    exact h.ordinal_lt w hw

end Regular

end Scope

namespace Store

def Regular (s : Store α) : Prop := s.Every (Scope.Regular s.made.vars)

namespace Regular

variable {s : Store α} {id : ScopeId}

theorem push (h : s.Regular) (parent : Option ScopeId) : (s.push parent).Regular :=
  h.add (Scope.regular_empty _ _ _)

theorem copy (h : s.Regular) (id : ScopeId) : (s.copy id).Regular := by
  have copied := Every.copy h id
  unfold Store.copy at copied ⊢
  split at copied <;> exact copied

theorem addVariable (h : s.Regular) {name : String} (free : s.conflict? id name = none)
    (value : α) (origin : Origin) : (s.addVariable id name value origin).Regular := by
  have grown : s.Every (Scope.Regular (s.made.vars + 1)) :=
    fun i a ha => (h i a ha).mono (Nat.le_succ _)
  refine Every.modify grown fun a ha _ => (h id a ha).addVariable ?_ value origin
  rwa [Store.conflict?, ha] at free

theorem addMethod (h : s.Regular) {m : Method} (free : s.conflict? id m.name = none) :
    (s.addMethod id m).Regular := by
  refine Every.modify h fun a ha here => here.addMethod ?_
  rwa [Store.conflict?, ha] at free

theorem write (h : s.Regular) (owner : ScopeId) (name : String) (value : α) (origin : Origin) :
    (s.write owner name value origin).Regular :=
  Every.modify h fun _ _ here => here.set name value origin

end Regular

end Store

end ScopedScript
