import ScopedScript.Store.Basic

/-!
# What a run may change in a store

`Scope.Keeps` and `Scope.Extends` compare a scope with what it becomes: in the first case only the
values of its variables have changed, in the second it may have new bindings behind the old ones.
`Store.Frame` is the relation between a store and a later one: no scope is lost, and every scope
keeps its tables but for at most one that is extended.
-/

namespace ScopedScript

variable {α : Type}

namespace Scope

def table (s : Scope α) : List (String × Nat) := s.vars.map fun v => (v.name, v.ordinal)

structure Keeps (s t : Scope α) : Prop where
  parent : t.parent = s.parent
  ordinal : t.ordinal = s.ordinal
  table : t.table = s.table
  methods : t.methods = s.methods

structure Extends (s t : Scope α) : Prop where
  parent : t.parent = s.parent
  ordinal : t.ordinal = s.ordinal
  table : s.table <+: t.table
  methods : s.methods <+: t.methods

theorem Keeps.refl (s : Scope α) : s.Keeps s := ⟨rfl, rfl, rfl, rfl⟩

theorem Keeps.trans {s t u : Scope α} (h : s.Keeps t) (h' : t.Keeps u) : s.Keeps u :=
  ⟨h'.parent.trans h.parent, h'.ordinal.trans h.ordinal, h'.table.trans h.table,
    h'.methods.trans h.methods⟩

theorem Keeps.extends {s t : Scope α} (h : s.Keeps t) : s.Extends t :=
  ⟨h.parent, h.ordinal, h.table ▸ List.prefix_rfl, h.methods ▸ List.prefix_rfl⟩

theorem Keeps.names {s t : Scope α} (h : s.Keeps t) :
    t.vars.map Variable.name = s.vars.map Variable.name := by
  simpa [Scope.table, Function.comp_def] using congrArg (List.map Prod.fst) h.table

theorem Keeps.ordinals {s t : Scope α} (h : s.Keeps t) :
    t.vars.map Variable.ordinal = s.vars.map Variable.ordinal := by
  simpa [Scope.table, Function.comp_def] using congrArg (List.map Prod.snd) h.table

theorem Extends.trans {s t u : Scope α} (h : s.Extends t) (h' : t.Extends u) : s.Extends u :=
  ⟨h'.parent.trans h.parent, h'.ordinal.trans h.ordinal, h.table.trans h'.table,
    h.methods.trans h'.methods⟩

theorem Extends.names {s t : Scope α} (h : s.Extends t) :
    s.vars.map Variable.name <+: t.vars.map Variable.name := by
  simpa [Scope.table, Function.comp_def] using h.table.map Prod.fst

theorem keeps_set (s : Scope α) (name : String) (value : α) (origin : Origin) :
    s.Keeps (s.set name value origin) := by
  refine ⟨rfl, rfl, ?_, rfl⟩
  simp only [table, set, List.map_map]
  apply List.map_congr_left
  intro v _
  by_cases h : v.name = name <;> simp [h]

theorem extends_addVariable (s : Scope α) (v : Variable α) :
    s.Extends { s with vars := s.vars ++ [v] } := by
  refine ⟨rfl, rfl, ?_, List.prefix_rfl⟩
  simp [table]

theorem extends_addMethod (s : Scope α) (m : Method) :
    s.Extends { s with methods := s.methods ++ [m] } :=
  ⟨rfl, rfl, List.prefix_rfl, List.prefix_append ..⟩

theorem map_name_set (a : Scope α) (name : String) (value : α) (origin : Origin) :
    (a.set name value origin).vars.map Variable.name = a.vars.map Variable.name :=
  (a.keeps_set name value origin).names

theorem map_ordinal_set (a : Scope α) (name : String) (value : α) (origin : Origin) :
    (a.set name value origin).vars.map Variable.ordinal = a.vars.map Variable.ordinal :=
  (a.keeps_set name value origin).ordinals

end Scope

namespace Store

/-- Every scope of the first store is in the second one, with the same tables unless it is `grown`,
which may have new bindings. -/
structure Frame (grown : Option ScopeId) (s t : Store α) : Prop where
  scope (i : Nat) (a : Scope α) : s.scopes[i]? = some a →
    ∃ b, t.scopes[i]? = some b ∧ a.Extends b ∧ (grown ≠ some i → a.Keeps b)

variable {s t u : Store α} {g : Option ScopeId}

theorem Frame.refl (g : Option ScopeId) (s : Store α) : Frame g s s :=
  ⟨fun _ a h => ⟨a, h, (Scope.Keeps.refl a).extends, fun _ => Scope.Keeps.refl a⟩⟩

theorem Frame.trans (h : Frame g s t) (h' : Frame g t u) : Frame g s u := by
  constructor
  intro i a ha
  obtain ⟨b, hb, hab, kab⟩ := h.scope i a ha
  obtain ⟨c, hc, hbc, kbc⟩ := h'.scope i b hb
  exact ⟨c, hc, hab.trans hbc, fun hg => (kab hg).trans (kbc hg)⟩

theorem Frame.mono (h : Frame none s t) (g : Option ScopeId) : Frame g s t := by
  constructor
  intro i a ha
  obtain ⟨b, hb, hab, kab⟩ := h.scope i a ha
  exact ⟨b, hb, hab, fun _ => kab (by simp)⟩

theorem Frame.size_le (h : Frame g s t) : s.scopes.size ≤ t.scopes.size := by
  apply Nat.le_of_not_lt
  intro hi
  obtain ⟨b, hb, -⟩ := h.scope _ _ (Array.getElem?_eq_getElem hi)
  simp at hb

theorem Frame.of_fresh {i : Nat} (hs : Frame none s t) (hi : s.scopes.size ≤ i)
    (h : Frame (some i) t u) : Frame none s u := by
  constructor
  intro j a ha
  obtain ⟨b, hb, hab, kab⟩ := hs.scope j a ha
  obtain ⟨c, hc, -, kbc⟩ := h.scope j b hb
  have hj := (Array.getElem?_eq_some_iff.1 ha).1
  have hne : i ≠ j := fun e => Nat.not_lt.2 hi (e ▸ hj)
  have keeps := (kab (by simp)).trans (kbc (by simpa using hne))
  exact ⟨c, hc, keeps.extends, fun _ => keeps⟩

theorem Frame.parent (h : Frame g s t) {i : ScopeId} {a : Scope α} (ha : s.scopes[i]? = some a) :
    t.scopes[i]?.bind Scope.parent = a.parent := by
  obtain ⟨b, hb, hab, -⟩ := h.scope i a ha
  simp [hb, hab.parent]

/-! ## The operations of a store -/

theorem getElem?_add (s : Store α) (a : Scope α) (i : Nat) :
    (s.add a).scopes[i]? = if i = s.scopes.size then some a else s.scopes[i]? := by
  rw [add, Array.getElem?_push]

theorem getElem?_add_of_lt (s : Store α) (a : Scope α) {i : Nat} (h : i < s.scopes.size) :
    (s.add a).scopes[i]? = s.scopes[i]? := by
  rw [getElem?_add, if_neg (Nat.ne_of_lt h)]

theorem frame_add (s : Store α) (a : Scope α) : Frame none s (s.add a) := by
  constructor
  intro i b hb
  have hi := (Array.getElem?_eq_some_iff.1 hb).1
  exact ⟨b, by rw [getElem?_add_of_lt s a hi, hb], (Scope.Keeps.refl b).extends,
    fun _ => Scope.Keeps.refl b⟩

theorem frame_copy (s : Store α) (id : ScopeId) : Frame none s (s.copy id) := by
  unfold copy
  split
  · exact frame_add s _
  · exact Frame.refl none s

theorem frame_modify {made : Made} {writes : Nat} {id : ScopeId} {f : Scope α → Scope α}
    (he : ∀ a : Scope α, a.Extends (f a)) (hk : g ≠ some id → ∀ a : Scope α, a.Keeps (f a)) :
    Frame g s ⟨s.scopes.modify id f, made, writes⟩ := by
  constructor
  intro i a ha
  have hi := (Array.getElem?_eq_some_iff.1 ha).1
  by_cases h : id = i
  · subst h
    exact ⟨f a, by simp [Array.getElem?_modify, ha], he a, fun hg => hk hg a⟩
  · exact ⟨a, by simp [Array.getElem?_modify, h, ha], (Scope.Keeps.refl a).extends,
      fun _ => Scope.Keeps.refl a⟩

theorem frame_write (s : Store α) (owner : ScopeId) (name : String) (value : α)
    (origin : Origin) : Frame g s (s.write owner name value origin) :=
  frame_modify (fun a => (a.keeps_set name value origin).extends)
    fun _ a => a.keeps_set name value origin

theorem frame_addVariable (s : Store α) (id : ScopeId) (name : String) (value : α)
    (origin : Origin) : Frame (some id) s (s.addVariable id name value origin) :=
  frame_modify (fun a => a.extends_addVariable _) fun h => absurd rfl h

theorem frame_addMethod (s : Store α) (id : ScopeId) (m : Method) :
    Frame (some id) s (s.addMethod id m) :=
  frame_modify (fun a => a.extends_addMethod m) fun h => absurd rfl h

/-! ## The way outwards -/

theorem chain_eq_nil {i : ScopeId} (h : s.scopes.size ≤ i) : s.chain i = [] := by
  rw [chain, Array.getElem?_eq_none h]

theorem chain_eq_cons {i : ScopeId} {a : Scope α} (ha : s.scopes[i]? = some a)
    (older : ∀ p, a.parent = some p → p < i) :
    s.chain i = i :: (a.parent.map s.chain).getD [] := by
  rw [chain, ha]
  cases hp : a.parent with
  | none => simp [hp]
  | some p => simp [hp, older p hp]

theorem Frame.chain_eq (h : Frame g s t) {i : Nat} (hi : i < s.scopes.size) :
    t.chain i = s.chain i := by
  fun_induction chain s i with
  | case1 i hn => exact absurd hi (Nat.not_lt.2 (Array.getElem?_eq_none_iff.1 hn))
  | case2 i a ha p hp hlt ih =>
    obtain ⟨b, hb, hab, -⟩ := h.scope i a ha
    rw [chain, hb]
    simp only [hab.parent, hp, hlt, if_true]
    rw [ih (Nat.lt_trans hlt hi)]
  | case3 i a ha p hp hlt =>
    obtain ⟨b, hb, hab, -⟩ := h.scope i a ha
    rw [chain, hb]
    simp only [hab.parent, hp, hlt, if_false]
  | case4 i a ha hp =>
    obtain ⟨b, hb, hab, -⟩ := h.scope i a ha
    rw [chain, hb]
    simp only [hab.parent, hp]

end Store

end ScopedScript
