import ScopedScript.Proofs.Run.Scopewise

namespace ScopedScript

def Vocabulary.standard : Vocabulary where
  declares name := Lexicon.standard.Makes (Name.token ⟨name, {}⟩)
  assigns _ := True
  evaluates e := ∀ v ∈ e.literals, v.Quotable

theorem Vocabulary.standard_covers :
    Vocabulary.standard.Covers .standard Lexicon.standard.Makes where
  declares {t} h hk := by
    have token := Expr.toName_token h hk
    have moved := h.relocate fun _ => {}
    rw [← token] at moved
    exact moved
  assigns _ _ := trivial
  evaluates h ht v hv := by
    obtain ⟨t, hin, hl⟩ := h.exists_literal v hv
    exact Value.quotable_of_literal? (ht t hin).quotable hl

/-- The variables can be written as declarations, and no method makes others that cannot. -/
structure Scope.Tidy (a : Scope Value) : Prop where
  distinct : (a.vars.map Variable.name).Nodup
  declared (x : Variable Value) : x ∈ a.vars → Vocabulary.standard.declares x.name
  quotable (x : Variable Value) : x ∈ a.vars → x.value.Quotable
  bodies (m : Method) : m ∈ a.methods → Block.Within .standard m.body

theorem Scope.tidy_empty (parent : Option ScopeId) (ordinal : Nat) :
    Scope.Tidy ⟨parent, ordinal, [], []⟩ :=
  ⟨.nil, by simp, by simp, by simp⟩

namespace Scope.Tidy

variable {a : Scope Value}

theorem addVariable (h : a.Tidy) {x : Variable Value} (free : a.variableNamed? x.name = none)
    (declared : Vocabulary.standard.declares x.name) (quotable : x.value.Quotable) :
    Scope.Tidy { a with vars := a.vars ++ [x] } where
  distinct := by
    have new := Scope.variableNamed?_eq_none.1 free
    simpa [List.nodup_append] using ⟨h.distinct, by simpa using new⟩
  declared y hy := by
    rcases List.mem_append.1 hy with hy | hy
    · exact h.declared y hy
    · rw [List.mem_singleton.1 hy]
      exact declared
  quotable y hy := by
    rcases List.mem_append.1 hy with hy | hy
    · exact h.quotable y hy
    · rw [List.mem_singleton.1 hy]
      exact quotable
  bodies := h.bodies

theorem set (h : a.Tidy) (name : String) {value : Value} (quotable : value.Quotable)
    (origin : Origin) : (a.set name value origin).Tidy where
  distinct := by
    rw [Scope.map_name_set]
    exact h.distinct
  declared y hy := by
    obtain ⟨x, hx, rfl⟩ := List.mem_map.1 hy
    split
    · exact h.declared x hx
    · exact h.declared x hx
  quotable y hy := by
    obtain ⟨x, hx, rfl⟩ := List.mem_map.1 hy
    split
    · exact quotable
    · exact h.quotable x hx
  bodies := h.bodies

theorem addMethod (h : a.Tidy) {m : Method} (within : Block.Within .standard m.body) :
    Scope.Tidy { a with methods := a.methods ++ [m] } where
  distinct := h.distinct
  declared := h.declared
  quotable := h.quotable
  bodies n hn := by
    rcases List.mem_append.1 hn with hn | hn
    · exact h.bodies n hn
    · rw [List.mem_singleton.1 hn]
      exact within

end Scope.Tidy

theorem upheld_tidy : Upheld .standard (Store.Every Scope.Tidy) :=
  Scope.Upheld.every {
    literals := id
    quotable := fun h hx => h.quotable _ hx
    bodies := fun h hm => h.bodies _ hm
    empty := Scope.tidy_empty
    addVariable := fun h free declares quotable =>
      h.addVariable (Scope.conflict?_eq_none.1 free).1 declares quotable
    set := fun origin h quotable => h.set _ quotable origin
    addMethod := fun h within => h.addMethod within }

end ScopedScript
