import Mathlib.Data.List.Basic
import ScopedScript.Proofs.Run.Upheld
import ScopedScript.Proofs.Store.Frame
import ScopedScript.Session

namespace ScopedScript

section

variable {α : Type}

/-- The ways from a scope: to the scopes around it, to those that the calls of its methods are
modelled on, and on from these. -/
inductive Store.Reaches (s : Store α) (start : ScopeId) : ScopeId → Prop
  | start : Reaches s start start
  | parent {i p : ScopeId} {a : Scope α} :
    Reaches s start i → s.scopes[i]? = some a → a.parent = some p → Reaches s start p
  | template {i : ScopeId} {a : Scope α} {m : Method} :
    Reaches s start i → s.scopes[i]? = some a → m ∈ a.methods → Reaches s start m.template

def Scope.Spares (name : String) (a b : Scope α) : Prop :=
  ∀ (j : Nat) (v : Variable α), a.vars[j]? = some v → v.name = name → b.vars[j]? = some v

def Store.Spares (name : String) (s t : Store α) : Prop :=
  ∀ (i : ScopeId) (a : Scope α), s.scopes[i]? = some a →
    ∃ b, t.scopes[i]? = some b ∧ a.Spares name b

theorem Scope.spares_append (name : String) (a : Scope α) (added : List (Variable α)) :
    a.Spares name { a with vars := a.vars ++ added } := by
  intro j v hv _
  have hj := (List.getElem?_eq_some_iff.1 hv).1
  rwa [List.getElem?_append_left hj]

theorem Scope.spares_set {name other : String} (h : other ≠ name) (a : Scope α) (value : α)
    (origin : Origin) : a.Spares name (a.set other value origin) := by
  intro j v hv named
  have differs : ¬ v.name = other := fun same => h (same.symm.trans named)
  simp [Scope.set, hv, differs]

namespace Store.Spares

variable {name : String} {s t : Store α}

theorem refl (name : String) (s : Store α) : s.Spares name s :=
  fun _ a ha => ⟨a, ha, fun _ _ hv _ => hv⟩

theorem add (h : s.Spares name t) (a : Scope α) : s.Spares name (t.add a) := by
  intro i b hb
  obtain ⟨c, hc, spares⟩ := h i b hb
  have hi := (Array.getElem?_eq_some_iff.1 hc).1
  exact ⟨c, by rw [getElem?_add_of_lt t a hi, hc], spares⟩

theorem copy (h : s.Spares name t) (id : ScopeId) : s.Spares name (t.copy id) := by
  unfold Store.copy
  split
  · exact h.add _
  · exact h

theorem modify (h : s.Spares name t) {made : Made} {writes : Nat} {id : ScopeId}
    {f : Scope α → Scope α} (hf : ∀ a : Scope α, a.Spares name (f a)) :
    s.Spares name ⟨t.scopes.modify id f, made, writes⟩ := by
  intro i a ha
  obtain ⟨b, hb, spares⟩ := h i a ha
  by_cases here : id = i
  · refine ⟨f b, by simp [Array.getElem?_modify, here, hb], fun j v hv named => ?_⟩
    exact hf b j v (spares j v hv named) named
  · exact ⟨b, by simp [Array.getElem?_modify, here, hb], spares⟩

end Store.Spares

end

namespace Store.Confined

variable {v : Vocabulary} {reached : ScopeId → Prop} {s : Store Value}

theorem add (h : s.Confined v reached) {a : Scope Value} (ha : a.Confined v reached) :
    (s.add a).Confined v reached where
  fresh hi := h.fresh (Nat.le_trans (Nat.le_succ _) (by simpa [Store.add] using hi))
  scope there hb := by
    rcases getElem?_add_cases hb with ⟨-, hb⟩ | ⟨-, rfl⟩
    · exact h.scope there hb
    · exact ha

theorem copy (h : s.Confined v reached) {id : ScopeId} (there : reached id) :
    (s.copy id).Confined v reached := by
  unfold Store.copy
  split
  · rename_i a ha
    exact h.add (h.scope there ha)
  · exact h

theorem modify (h : s.Confined v reached) {made : Made} {writes : Nat} {id : ScopeId}
    {f : Scope Value → Scope Value} (hf : ∀ a, a.Confined v reached → (f a).Confined v reached) :
    Store.Confined v reached ⟨s.scopes.modify id f, made, writes⟩ where
  fresh hi := h.fresh (by simpa using hi)
  scope {i b} there hb := by
    have hi : i < s.scopes.size := by simpa using (Array.getElem?_eq_some_iff.1 hb).1
    have ha := Array.getElem?_eq_getElem hi
    rcases modify_eq ha hb with rfl | ⟨rfl, rfl⟩
    · exact h.scope there ha
    · exact hf _ (h.scope there ha)

end Store.Confined

theorem upheldAmong_spares (name : String) (reached : ScopeId → Prop) (s : Store Value) :
    UpheldAmong (.assigning (· ≠ name)) reached fun t =>
      t.Confined (.assigning (· ≠ name)) reached ∧ s.Spares name t where
  confined h := h.1
  push h there := by
    refine ⟨h.1.add ⟨fun hp => ?_, nofun, nofun⟩, h.2.add _⟩
    cases hp
    exact there
  copy h there := ⟨h.1.copy there, h.2.copy _⟩
  declare _ h _ _ _ :=
    ⟨h.1.modify fun _ ha => ⟨ha.parent, ha.template, ha.body⟩,
      h.2.modify fun a => a.spares_append name _⟩
  assign origin h _ assigns _ :=
    ⟨h.1.modify fun _ ha => ⟨ha.parent, ha.template, ha.body⟩,
      h.2.modify fun a => a.spares_set assigns _ origin⟩
  method h _ _ there within := by
    refine ⟨h.1.modify fun a ha => ⟨ha.parent, fun hm => ?_, fun hm => ?_⟩,
      h.2.modify fun a _ _ hv _ => hv⟩
    · rcases List.mem_append.1 hm with hm | hm
      · exact ha.template hm
      · rwa [List.mem_singleton.1 hm]
    · rcases List.mem_append.1 hm with hm | hm
      · exact ha.body hm
      · rwa [List.mem_singleton.1 hm]

/-- However a run ends: a variable that was there before and whose name neither the program assigns
to nor the body of a method in a scope that the run can get to, in this scope and in all others,
is still the same. -/
theorem Block.unassigned_kept (settings : Settings) (program : Block) (m : Machine) (name : String)
    (program_spares : name ∉ Block.targets program)
    (methods_spare : ∀ (i : ScopeId) (a : Scope Value) (method : Method),
      m.store.Reaches m.current i → m.store.scopes[i]? = some a → method ∈ a.methods →
        name ∉ Block.targets method.body) :
    let t := (Block.run settings program m).machine.store
    ∀ (i : ScopeId) (a : Scope Value), m.store.scopes[i]? = some a →
      ∃ b, t.scopes[i]? = some b ∧ ∀ (j : Nat) (v : Variable Value),
        a.vars[j]? = some v → v.name = name → b.vars[j]? = some v := by
  intro t
  let reached (i : ScopeId) : Prop := m.store.Reaches m.current i ∨ m.store.scopes.size ≤ i
  have within {b : Block} (h : name ∉ Block.targets b) : Block.Within (.assigning (· ≠ name)) b :=
    Block.within_assigning b fun other hn same => h (same ▸ hn)
  have confined : m.store.Confined (.assigning (· ≠ name)) reached := by
    refine ⟨.inr, fun {i a} there ha => ?_⟩
    have hi := (Array.getElem?_eq_some_iff.1 ha).1
    have way : m.store.Reaches m.current i := there.resolve_right (Nat.not_le.2 hi)
    exact ⟨fun hp => .inl (way.parent ha hp), fun hm => .inl (way.template ha hm),
      fun hm => within (methods_spare i a _ way ha hm)⟩
  have upheld : (Block.run settings program m).machine.Upholds reached _ :=
    (upheldAmong_spares name reached m.store).runAll Method.callDepth program m
      (within program_spares) ⟨⟨confined, .refl name m.store⟩, .inl .start⟩
  exact upheld.store.2

theorem Block.unassigned_kept_shadowed :
    let m : Machine := ⟨(Session.start.run {} .standard
      "var x = \"outer\"; var go = true; var f() \x7b var x = \"method\"; \x7d").session, #[]⟩
    let program := (Lexicon.standard.parse
      "while go \x7b var x = \"loop\"; go = false; f(); \x7d var x;").toOption.getD []
    let o := Block.run {} program m
    o.result = .error (.ofCause (.variableExists "x") ⟨1, 51, 50⟩) ∧
      o.machine.store.snapshot 0 = [("x", .text "outer"), ("go", .bool false)] ∧
      ∃ b, o.machine.store.scopes[0]? = some b ∧
        b.vars[0]? = some ⟨"x", .text "outer", 0, .division⟩ := by
  intro m program o
  have spared : ∀ a ∈ m.store.scopes.toList, ∀ method ∈ a.methods,
      "x" ∉ Block.targets method.body := by decide +kernel
  have bound : m.store.scopes[0]?.bind (·.vars[0]?) = some ⟨"x", .text "outer", 0, .division⟩ := by
    decide +kernel
  obtain ⟨a, ha, hv⟩ := Option.bind_eq_some_iff.1 bound
  obtain ⟨b, hb, kept⟩ := Block.unassigned_kept {} program m "x" (by decide +kernel)
    (fun i a method _ ha hm => spared a (Array.mem_of_getElem? ha).val method hm) 0 a ha
  exact ⟨by decide +kernel, by decide +kernel, b, hb, kept 0 _ hv rfl⟩

end ScopedScript
