import ScopedScript.Proofs.Store.Frame

/-!
# Scopes that bodies are modelled on

A scope is `Vacant` if it has no bindings and no scope inside it. `Store.Sound` is the invariant of
stores in runs: parents are older than their children, and what a method is modelled on is a vacant
scope inside the one that binds it and none of the `active` ones, which may get bindings.
-/

namespace ScopedScript.Store

variable {α : Type}

structure Vacant (s : Store α) (outer id : Nat) : Prop where
  empty : ∃ a, s.scopes[id]? = some a ∧ a.parent = some outer ∧ a.vars = [] ∧ a.methods = []
  childless (i : Nat) (a : Scope α) : s.scopes[i]? = some a → a.parent ≠ some id

structure Sound (active : List Nat) (s : Store α) : Prop where
  active_lt (i : Nat) : i ∈ active → i < s.scopes.size
  parent_lt (i : Nat) (a : Scope α) (p : Nat) :
    s.scopes[i]? = some a → a.parent = some p → p < i
  template (i : Nat) (a : Scope α) (m : Method) :
    s.scopes[i]? = some a → m ∈ a.methods → s.Vacant i m.template ∧ m.template ∉ active

variable {s t : Store α} {active : List Nat} {outer id : Nat}

theorem Vacant.lt_size (h : s.Vacant outer id) : id < s.scopes.size := by
  obtain ⟨a, ha, -⟩ := h.empty
  exact (Array.getElem?_eq_some_iff.1 ha).1

theorem Sound.mono (h : s.Sound active) {active' : List Nat} (hsub : active' ⊆ active) :
    s.Sound active' :=
  ⟨fun i hi => h.active_lt i (hsub hi), h.parent_lt, fun i a m ha hm =>
    ⟨(h.template i a m ha hm).1, fun hi => (h.template i a m ha hm).2 (hsub hi)⟩⟩

/-! ## A new scope -/

theorem getElem?_add_cases {a b : Scope α} {i : Nat} (h : (s.add a).scopes[i]? = some b) :
    (i < s.scopes.size ∧ s.scopes[i]? = some b) ∨ (i = s.scopes.size ∧ b = a) := by
  rw [getElem?_add] at h
  split at h
  · exact .inr ⟨‹_›, (Option.some.inj h).symm⟩
  · exact .inl ⟨(Array.getElem?_eq_some_iff.1 h).1, h⟩

theorem Vacant.add (h : s.Vacant outer id) {a : Scope α} (hp : a.parent ≠ some id) :
    (s.add a).Vacant outer id := by
  constructor
  · obtain ⟨b, hb, hrest⟩ := h.empty
    exact ⟨b, by rw [getElem?_add_of_lt s a h.lt_size, hb], hrest⟩
  · intro i b hb
    rcases getElem?_add_cases hb with ⟨-, hb⟩ | ⟨-, rfl⟩
    · exact h.childless i b hb
    · exact hp

theorem vacant_add (h : s.Sound active) {a : Scope α} (hp : a.parent = some outer)
    (ho : outer < s.scopes.size) (hv : a.vars = []) (hm : a.methods = []) :
    (s.add a).Vacant outer s.scopes.size := by
  constructor
  · exact ⟨a, by rw [getElem?_add, if_pos rfl], hp, hv, hm⟩
  · intro i b hb hpar
    rcases getElem?_add_cases hb with ⟨hi, hb⟩ | ⟨-, rfl⟩
    · exact absurd (h.parent_lt i b _ hb hpar) (by omega)
    · rw [hp] at hpar
      exact absurd (Option.some.inj hpar) (by omega)

theorem Sound.add (h : s.Sound active) {a : Scope α} (hp : a.parent = some outer)
    (ho : outer < s.scopes.size) (hm : a.methods = [])
    (hv : ∀ (i : Nat) (b : Scope α) (m : Method), s.scopes[i]? = some b → m ∈ b.methods →
      m.template ≠ outer) :
    (s.add a).Sound (s.scopes.size :: active) := by
  refine ⟨?_, ?_, ?_⟩
  · intro i hi
    simp only [Store.add, Array.size_push]
    rcases List.mem_cons.1 hi with rfl | hi
    · omega
    · have := h.active_lt i hi
      omega
  · intro i b p hb hpar
    rcases getElem?_add_cases hb with ⟨-, hb⟩ | ⟨rfl, rfl⟩
    · exact h.parent_lt i b p hb hpar
    · rw [hp] at hpar
      exact Option.some.inj hpar ▸ ho
  · intro i b m hb hmem
    rcases getElem?_add_cases hb with ⟨-, hb⟩ | ⟨rfl, rfl⟩
    · obtain ⟨vacant, notActive⟩ := h.template i b m hb hmem
      refine ⟨vacant.add ?_, ?_⟩
      · rw [hp]
        intro e
        exact hv i b m hb hmem (Option.some.inj e).symm
      · intro hin
        rcases List.mem_cons.1 hin with e | hin
        · exact absurd vacant.lt_size (by rw [e]; omega)
        · exact notActive hin
    · rw [hm] at hmem
      cases hmem

/-! ## A scope that gets bindings -/

theorem Frame.old {g : Option ScopeId} (hf : s.Frame g t) (hs : t.scopes.size = s.scopes.size)
    {i : Nat} {b : Scope α} (hb : t.scopes[i]? = some b) :
    ∃ a, s.scopes[i]? = some a ∧ b.parent = a.parent := by
  have hi : i < s.scopes.size := hs ▸ (Array.getElem?_eq_some_iff.1 hb).1
  obtain ⟨b', hb', hab, -⟩ := hf.scope i _ (Array.getElem?_eq_getElem hi)
  rw [hb] at hb'
  cases hb'
  exact ⟨_, Array.getElem?_eq_getElem hi, hab.parent⟩

theorem Vacant.of_frame {g : Option ScopeId} (h : s.Vacant outer id) (hf : s.Frame g t)
    (hg : g ≠ some id) (hs : t.scopes.size = s.scopes.size) : t.Vacant outer id := by
  constructor
  · obtain ⟨a, ha, hp, hv, hm⟩ := h.empty
    obtain ⟨b, hb, -, keeps⟩ := hf.scope id a ha
    have table := (keeps hg).table
    refine ⟨b, hb, (keeps hg).parent.trans hp, ?_, (keeps hg).methods.trans hm⟩
    simpa [Scope.table, hv] using table
  · intro i b hb
    obtain ⟨a, ha, hp⟩ := hf.old hs hb
    rw [hp]
    exact h.childless i a ha

theorem Sound.of_frame {g : Option ScopeId} (h : s.Sound active) (hf : s.Frame g t)
    (hg : ∀ i, g = some i → i ∈ active) (hs : t.scopes.size = s.scopes.size)
    (hm : ∀ i a b m, s.scopes[i]? = some a → t.scopes[i]? = some b → m ∈ b.methods →
      m ∈ a.methods ∨ (t.Vacant i m.template ∧ m.template ∉ active)) : t.Sound active := by
  refine ⟨fun i hi => hs ▸ h.active_lt i hi, ?_, ?_⟩
  · intro i b p hb hp
    obtain ⟨a, ha, hpar⟩ := hf.old hs hb
    exact h.parent_lt i a p ha (hpar ▸ hp)
  · intro i b m hb hmem
    obtain ⟨a, ha, -⟩ := hf.old hs hb
    rcases hm i a b m ha hb hmem with old | new
    · obtain ⟨vacant, notActive⟩ := h.template i a m ha old
      exact ⟨vacant.of_frame hf (fun e => notActive (hg _ e)) hs, notActive⟩
    · exact new

theorem modify_eq {f : Scope α → Scope α} {i j : Nat} {a b : Scope α}
    (ha : s.scopes[i]? = some a) (hb : (s.scopes.modify j f)[i]? = some b) :
    b = a ∨ (i = j ∧ b = f a) := by
  rw [Array.getElem?_modify, ha] at hb
  split at hb
  · exact .inr ⟨Eq.symm ‹_›, (Option.some.inj hb).symm⟩
  · exact .inl (Option.some.inj hb).symm

theorem Sound.write (h : s.Sound active) (owner : ScopeId) (name : String) (value : α)
    (origin : Origin) : (s.write owner name value origin).Sound active := by
  refine h.of_frame (frame_write (g := none) s owner name value origin) (by simp)
    (by simp [Store.write]) ?_
  intro i a b m ha hb hmem
  rcases modify_eq ha hb with rfl | ⟨-, rfl⟩
  · exact .inl hmem
  · exact .inl hmem

theorem Sound.addVariable (h : s.Sound active) {c : Nat} (hc : c ∈ active) (name : String)
    (value : α) (origin : Origin) : (s.addVariable c name value origin).Sound active := by
  refine h.of_frame (frame_addVariable s c name value origin) (by simpa using hc)
    (by simp [Store.addVariable]) ?_
  intro i a b m ha hb hmem
  rcases modify_eq ha hb with rfl | ⟨-, rfl⟩
  · exact .inl hmem
  · exact .inl hmem

theorem Sound.addMethod (h : s.Sound active) {c : Nat} (hc : c ∈ active) {new : Method}
    (hv : s.Vacant c new.template) (ha : new.template ∉ active) :
    (s.addMethod c new).Sound active := by
  have frame := frame_addMethod s c new
  have size : (s.addMethod c new).scopes.size = s.scopes.size := by simp [Store.addMethod]
  refine h.of_frame frame (by simpa using hc) size ?_
  intro i a b m hsa hb hmem
  rcases modify_eq hsa hb with rfl | ⟨rfl, rfl⟩
  · exact .inl hmem
  · rcases List.mem_append.1 hmem with hmem | hmem
    · exact .inl hmem
    · rw [List.mem_singleton.1 hmem]
      refine .inr ⟨hv.of_frame frame ?_ size, ha⟩
      rintro ⟨⟩
      exact ha hc

end ScopedScript.Store
