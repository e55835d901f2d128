import ScopedScript.Proofs.Expr.Quotable
import ScopedScript.Proofs.Parser.Vocabulary
import ScopedScript.Proofs.Store.Every

namespace ScopedScript

/-- In scopes with the property all texts can be quoted, and the property is kept where a program
within the vocabulary changes a scope. -/
structure Scope.Upheld (v : Vocabulary) (P : Scope Value → Prop) : Prop where
  literals {e : Expr} : v.evaluates e → ∀ u ∈ e.literals, u.Quotable
  quotable {a : Scope Value} {x : Variable Value} : P a → x ∈ a.vars → x.value.Quotable
  bodies {a : Scope Value} {m : Method} : P a → m ∈ a.methods → Block.Within v m.body
  empty (parent : Option ScopeId) (ordinal : Nat) : P ⟨parent, ordinal, [], []⟩
  addVariable {a : Scope Value} {x : Variable Value} : P a → a.conflict? x.name = none →
    v.declares x.name → x.value.Quotable → P { a with vars := a.vars ++ [x] }
  set {a : Scope Value} {name : String} {value : Value} (origin : Origin) : P a →
    value.Quotable → P (a.set name value origin)
  addMethod {a : Scope Value} {m : Method} : P a → Block.Within v m.body →
    P { a with methods := a.methods ++ [m] }

theorem Scope.Upheld.every {v : Vocabulary} {P : Scope Value → Prop} (U : Scope.Upheld v P) :
    ScopedScript.Upheld v (Store.Every P) := by
  -- what a declaration or an assignment stores comes from literals and from other variables
  have values {s : Store Value} {id : ScopeId} {value : Value} (h : s.Every P)
      (gives : v.Gives (s.view id) value) : value.Quotable := by
    rcases gives with rfl | ⟨e, evaluates, he⟩
    · trivial
    · refine Expr.quotable_of_evaluate (U.literals evaluates) (fun n u hu => ?_) he
      obtain ⟨i, a, x, ha, hx, rfl⟩ := Store.mem_of_view hu
      exact U.quotable (h i a ha) hx
  exact {
    body := fun h ha hm => U.bodies (h _ _ ha) hm
    push := fun parent h => h.add (U.empty _ _)
    copy := fun id h => h.copy id
    declare := fun origin h free declares gives => by
      refine h.modify fun a ha here => U.addVariable here ?_ declares (values h gives)
      rwa [Store.conflict?, ha] at free
    assign := fun origin h _ _ gives =>
      h.modify fun a _ here => U.set origin here (values h gives)
    method := fun h _ _ within => h.modify fun a _ here => U.addMethod here within }

end ScopedScript
