import Mathlib.Data.List.Basic
import Mathlib.Logic.Equiv.Basic
import ScopedScript.Proofs.Run.Rewording
import ScopedScript.Session

namespace ScopedScript

theorem Session.start_reword (w : Rewording) : start.reword w = start := by
  simp [reword, start, Store.reword, Store.push, Store.add, Scope.reword]

/-- A program whose names are all changed, different ones to different ones, ends as it did before,
with an error of the same class at the same place if it fails. It leaves as many scopes, with the
same parents and ordinals, and in each of them, in the same order, the same variables and methods
under their new names. -/
theorem Block.renamed_run (settings : Settings) (r : String → String)
    (injective : Function.Injective r) (program : Block) :
    let w := Rewording.naming r injective
    let o := Block.run settings program ⟨Session.start, #[]⟩
    let o' := Block.run settings (Block.reword w program) ⟨Session.start, #[]⟩
    (o.result = .ok () → o'.result = .ok ()) ∧
      (∀ e, o.result = .error (.error e) →
        ∃ e', o'.result = .error (.error e') ∧ e'.kind = e.kind ∧ e'.location = e.location) ∧
      (∀ f, o.result = .error (.fault f) → o'.result = .error (.fault f)) ∧
      o'.machine.store.scopes.size = o.machine.store.scopes.size ∧
      ∀ (i : ScopeId) (a : Scope Value), o.machine.store.scopes[i]? = some a →
        ∃ b, o'.machine.store.scopes[i]? = some b ∧ b.parent = a.parent ∧ b.ordinal = a.ordinal ∧
          b.vars = a.vars.map (fun v => { v with name := r v.name }) ∧
          b.methods = a.methods.map fun m =>
            { m with
              name := r m.name
              parameters := m.parameters.map r
              body := Block.reword w m.body } := by
  intro w o o'
  let T (_ _ : Array String) : Prop := True
  have traced : w.Traced T settings settings := ⟨rfl, fun _ _ => trivial, fun _ _ => trivial⟩
  have start : (⟨Session.start, #[]⟩ : Machine).Mirrors w T ⟨Session.start, #[]⟩ :=
    ⟨(Session.start_reword w).symm, trivial⟩
  have mirrors : o.Mirrors w T o' := Block.run_mirrors traced program _ _ start
  have store : o'.machine.store = o.machine.store.reword w :=
    congrArg Session.store mirrors.machine.session
  refine ⟨fun ended => ?_, fun e failed => ?_, fun f failed => ?_, ?_, fun i a ha => ?_⟩
  · rw [mirrors.result, ended]
    rfl
  · refine ⟨e.reword w, ?_, e.cause.kind_rename r, congrFun Option.map_id e.location⟩
    rw [mirrors.result, failed]
    rfl
  · rw [mirrors.result, failed]
    rfl
  · rw [store]
    exact Array.size_map
  · refine ⟨a.reword w, ?_, rfl, rfl, rfl, rfl⟩
    rw [store, Store.getElem?_reword, ha]
    rfl

theorem Block.renamed_run_swapped :
    let program := (Lexicon.standard.parse ("var x = true; var f() \x7b x = false; var f; \x7d " ++
      "while x \x7b var x = 1; f(); \x7d f = x;")).toOption.getD []
    let w := Rewording.naming (Equiv.swap "x" "f") (Equiv.injective _)
    let o' := Block.run {} (Block.reword w program) ⟨Session.start, #[]⟩
    (∃ e', o'.result = .error (.error e') ∧ e'.kind = .undefinedName ∧
      e'.location = some ⟨1, 73, 72⟩) ∧ o'.machine.store.scopes.size = 5 ∧
      o'.machine.store.snapshot 0 = [("f", .bool false)] := by
  intro program w o'
  let o := Block.run {} program ⟨Session.start, #[]⟩
  have failed : o.result = .error (.error ⟨.unknownVariable "f", some ⟨1, 73, 72⟩⟩) := by
    decide +kernel
  have size : o.machine.store.scopes.size = 5 := by decide +kernel
  obtain ⟨-, error, -, sizes, -⟩ := renamed_run {} (Equiv.swap "x" "f") (Equiv.injective _) program
  exact ⟨error _ failed, sizes.trans size, by decide +kernel⟩

end ScopedScript
