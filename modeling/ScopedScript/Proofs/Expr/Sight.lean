import ScopedScript.Proofs.Expr.Names
import ScopedScript.Proofs.Store.Copy

namespace ScopedScript

namespace Store

variable {α : Type} {s : Store α} {i j : ScopeId}

/-- The scopes that see what `i` does: those without variables inside one of them, and those with
the parent and the variables of one of them. -/
inductive SeesAs (s : Store α) (i : ScopeId) : ScopeId → Prop
  | here : SeesAs s i i
  | child {j k : ScopeId} {a : Scope α} : SeesAs s i j → s.scopes[k]? = some a →
    a.parent = some j → a.vars = [] → SeesAs s i k
  | copy {j k : ScopeId} {a b : Scope α} : SeesAs s i j → s.scopes[j]? = some a →
    s.scopes[k]? = some b → b.parent = a.parent → b.vars = a.vars → SeesAs s i k

theorem Nested.variableNamed?_eq_or (h : s.Nested) {a : Scope α} (ha : s.scopes[i]? = some a)
    (name : String) : s.variableNamed? i name =
      (a.variableNamed? name).or (a.parent.bind fun p => s.variableNamed? p name) := by
  rw [variableNamed?, chain_eq_cons ha fun p => h i a p ha, List.findSome?_cons, ha,
    Option.bind_some]
  cases a.variableNamed? name with
  | some v => rfl
  | none => cases a.parent <;> rfl

theorem Nested.view_eq (h : s.Nested) (sees : s.SeesAs i j) : s.view j = s.view i := by
  induction sees with
  | here => rfl
  | @child j k a _ ha hp empty ih =>
    -- every name is left to the scope around
    rw [← ih]
    funext name
    have absent : a.variableNamed? name = none := by simp [Scope.variableNamed?, empty]
    rw [view, view, h.variableNamed?_eq_or ha, absent, hp, Option.none_or, Option.bind_some]
  | @copy j k a b _ ha hb hp same ih =>
    -- the two have the same under a name, or leave it to the same scope
    rw [← ih]
    funext name
    have alike : b.variableNamed? name = a.variableNamed? name := by
      rw [Scope.variableNamed?, Scope.variableNamed?, same]
    rw [view, view, h.variableNamed?_eq_or hb, h.variableNamed?_eq_or ha, alike, hp]

theorem seesAs_copy (hi : i < s.scopes.size) : (s.copy i).SeesAs i s.next := by
  obtain ⟨kept, copied⟩ := getElem?_copy hi
  have ha := Array.getElem?_eq_getElem hi
  exact .copy .here ((kept i hi).trans ha) (copied.trans ha) rfl rfl

theorem view_copy (s : Store α) (i : ScopeId) (hj : j < s.scopes.size) :
    (s.copy i).view j = s.view j := by
  unfold copy
  split
  · exact s.view_add_of_lt _ hj
  · rfl

end Store

namespace Expr

/-- An expression has the same value or fails alike in two scopes, whatever is around them, in which
its names mean the same or are both unbound, those of skipped operands included. So it does in a
scope and all those that see what it sees, such as chains of scopes without variables inside it, and
in a scope and a copy made of it. -/
theorem evaluate_sees_names {α : Type} [Operand α] (e : Expr) (room : Nat) :
    (∀ (s t : Store α) (i j : ScopeId), (∀ n ∈ e.names, t.view j n.text = s.view i n.text) →
      e.evaluate (t.view j) room = e.evaluate (s.view i) room ∧
      e.checkBound (t.view j) room = e.checkBound (s.view i) room) ∧
    ∀ s : Store α, s.Nested →
      (∀ i j, s.SeesAs i j → e.evaluate (s.view j) room = e.evaluate (s.view i) room) ∧
      ∀ i < s.scopes.size,
        let t := s.copy i
        e.evaluate (t.view s.next) room = e.evaluate (s.view i) room ∧
        e.evaluate (t.view i) room = e.evaluate (s.view i) room := by
  refine ⟨fun s t i j same => ⟨evaluate_congr room same, checkBound_congr same⟩, fun s nested => ?_⟩
  refine ⟨fun i j sees => by rw [nested.view_eq sees], fun i hi => ?_⟩
  have original := s.view_copy i hi
  have copied := (nested.copy i).view_eq (Store.seesAs_copy hi)
  exact ⟨by rw [copied, original], by rw [original]⟩

theorem evaluate_sees_names_skipped_operand :
    let name (text : String) : Expr := .name ⟨text, ⟨1, 1, 0⟩⟩
    let token (kind : TokenKind) : Token := ⟨kind, "", .null, ⟨1, 1, 0⟩⟩
    let e := logical (name "x") (token .wordOr) (binary (name "y") (token .plus) (name "gone"))
    let s : Store Value := [Operation.make none, .declare 0 "x" (.bool true) .division,
      .make (some 0), .declare 1 "y" (.text "t") .division, .make (some 1), .copy 2,
      .make (some 3)].foldl Store.perform ⟨#[], {}, 0⟩
    let t : Store Value := [Operation.make none, .declare 0 "y" (.text "t") .division,
      .declare 0 "z" .null .division, .declare 0 "x" (.bool true) .division].foldl Store.perform
        ⟨#[], {}, 0⟩
    (∀ n ∈ e.names, t.view 0 n.text = s.view 4 n.text) ∧ s.Nested ∧ s.SeesAs 1 4 ∧
      1 < s.scopes.size ∧ s.next = 5 ∧
      e.evaluate (t.view 0) 3 = e.evaluate (s.view 4) 3 ∧
      e.evaluate (s.view 4) 3 = e.evaluate (s.view 1) 3 ∧
      e.evaluate ((s.copy 1).view 5) 3 = e.evaluate (s.view 1) 3 ∧
      e.evaluate (s.view 1) 3 = .error (.error (unboundError ⟨"gone", ⟨1, 1, 0⟩⟩)) := by
  intro name token e s t
  have same : ∀ n ∈ e.names, t.view 0 n.text = s.view 4 n.text := by decide +kernel
  have nested : s.Nested := ((Store.formed_empty {} 0).performAll _).nested
  have second : s.scopes[2]? = some ⟨some 1, 2, [], []⟩ := rfl
  have third : s.scopes[3]? = some ⟨some 1, 2, [], []⟩ := rfl
  have fourth : s.scopes[4]? = some ⟨some 3, 4, [], []⟩ := rfl
  have sees : s.SeesAs 1 4 :=
    .child (.copy (.child .here second rfl rfl) second third rfl rfl) fourth rfl rfl
  have there : 1 < s.scopes.size := by decide +kernel
  have new : s.next = 5 := by decide +kernel
  obtain ⟨anywhere, within⟩ := evaluate_sees_names (α := Value) e 3
  obtain ⟨inside, copied⟩ := within s nested
  exact ⟨same, nested, sees, there, new, (anywhere s t 4 0 same).1, inside 1 4 sees,
    new ▸ (copied 1 there).1, by decide +kernel⟩

end Expr

end ScopedScript
