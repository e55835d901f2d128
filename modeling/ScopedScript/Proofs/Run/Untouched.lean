import ScopedScript.Proofs.Run.Log

namespace ScopedScript

open Statement

namespace Statement

variable {name : Name} {m : Machine} {f : Failure}

theorem runDeclare_failed {value : Value} {origin : Origin}
    (h : (runDeclare name value origin m).result = .error f) :
    (runDeclare name value origin m).machine = m := by
  unfold runDeclare at h ⊢
  cases hc : m.store.conflict? m.current name.text with
  | some cause => rfl
  | none =>
    rw [hc] at h
    cases h

theorem runAssign_failed {e : Expr} (h : (runAssign name e m).result = .error f) :
    (runAssign name e m).machine = m := by
  unfold runAssign at h ⊢
  cases ho : m.store.variableOwner? m.current name.text with
  | none => rfl
  | some owner =>
    cases he : e.value (m.store.view m.current) with
    | error g => rfl
    | ok value =>
      rw [ho, he] at h
      cases h

theorem runMethod_failed {parameters : List String} {body : Block}
    (h : (runMethod name parameters body m).result = .error f) :
    (runMethod name parameters body m).machine = { m.enter with current := m.current } := by
  rw [runMethod_eq] at h ⊢
  unfold addMethod at h ⊢
  cases hc : m.enter.store.conflict? m.current name.text with
  | some cause => rfl
  | none =>
    rw [hc] at h
    cases h

theorem testCondition_eq_error {view : View Value} {condition : Expr} (cause : Cause)
    (location : Location) (h : ∀ b, condition.value view ≠ .ok (.bool b)) :
    ∃ f, testCondition view condition cause location = .error f := by
  unfold testCondition
  split
  · rename_i b hb
    exact absurd hb (h b)
  · exact ⟨_, rfl⟩
  · exact ⟨_, rfl⟩

theorem callee?_congr {arguments : List Expr} {n : Machine} (h : n.toSession = m.toSession) :
    callee? name arguments n = callee? name arguments m := by
  unfold callee?
  rw [h]

theorem runCall_failed {settings : Settings} {depth : Nat} {arguments : List Expr}
    (h : depth = 0 ∨ callee? name arguments m = none) :
    ∃ f, runCall (Method.invoke settings depth) name arguments m = ⟨.error f, m⟩ := by
  unfold runCall
  unfold callee? at h
  cases hm : m.store.methodNamed? m.current name.text with
  | none => exact ⟨_, rfl⟩
  | some callee =>
    cases hc : checkAll (m.store.view m.current) arguments with
    | error f => exact ⟨f, rfl⟩
    | ok =>
      rw [hm, hc] at h
      obtain rfl := h.resolve_right nofun
      exact ⟨_, rfl⟩

end Statement

namespace Execution

/-- A declaration or an assignment fails; a call fails before its body begins, for want of a method
or of a value of an argument or because calls are nested too deep; the first condition of a branch
or of a loop has no value or one that is no boolean. -/
def FailsAtOnce (x : Execution) : Prop :=
  match x.statement with
  | .declare .. | .method .. | .assign .. => ∃ f, x.outcome.result = .error f
  | .call name arguments => x.depth = 0 ∨ callee? name arguments x.machine = none
  | .branch _ condition _ | .loop _ condition _ =>
    ∀ b, condition.value (x.machine.store.view x.machine.current) ≠ .ok (.bool b)

theorem FailsAtOnce.session {x : Execution} (h : x.FailsAtOnce) :
    (∃ f, x.outcome.result = .error f) ∧
      (x.outcome.machine.toSession = x.machine.toSession ∨
        (∃ name parameters body, x.statement = .method name parameters body) ∧
          x.outcome.machine.toSession =
            { x.machine.toSession with store := x.machine.store.push x.machine.current }) := by
  obtain ⟨settings, depth, s, m⟩ := x
  -- the statement begins behind a note of the trace, which is no part of the session
  have same := noteStart_toSession settings s m
  unfold FailsAtOnce at h
  dsimp only [Execution.outcome] at h ⊢
  cases s with
  | declare name e =>
    obtain ⟨f, failed⟩ := h
    refine ⟨⟨f, failed⟩, .inl ?_⟩
    cases e with
    | none =>
      rw [run] at failed ⊢
      rw [runDeclare_failed failed, same]
    | some e =>
      rw [run] at failed ⊢
      generalize noteStart settings _ m = n at same failed ⊢
      cases he : e.value (n.store.view n.current) with
      | error g => exact same
      | ok value =>
        simp only [he] at failed ⊢
        rw [runDeclare_failed failed, same]
  | method name parameters body =>
    obtain ⟨f, failed⟩ := h
    refine ⟨⟨f, failed⟩, .inr ⟨⟨name, parameters, body, rfl⟩, ?_⟩⟩
    rw [run] at failed ⊢
    rw [runMethod_failed failed]
    exact congrArg (fun t : Session => { t with store := t.store.push t.current }) same
  | assign name e =>
    obtain ⟨f, failed⟩ := h
    refine ⟨⟨f, failed⟩, .inl ?_⟩
    rw [run] at failed ⊢
    rw [runAssign_failed failed, same]
  | call name arguments =>
    have stops : depth = 0 ∨ callee? name arguments m = none := h
    rw [← callee?_congr same] at stops
    obtain ⟨f, failed⟩ := runCall_failed stops
    rw [run, failed]
    exact ⟨⟨f, rfl⟩, .inl same⟩
  | branch location condition body =>
    rw [← same] at h
    obtain ⟨f, failed⟩ := testCondition_eq_error .branchCondition location h
    rw [run]
    simp only [failed]
    exact ⟨⟨f, rfl⟩, .inl same⟩
  | loop location condition body =>
    rw [← same] at h
    obtain ⟨f, failed⟩ := testCondition_eq_error .loopCondition location h
    rw [run]
    simp only [failed]
    exact ⟨⟨f, rfl⟩, .inl same⟩

/-- A statement that fails at once leaves the current scope and all scopes that there are, with
their variables and methods, as they were. Nothing else changes either, unless it is the
declaration of a method: then one more scope was made, without bindings and inside the current one,
and counted. -/
theorem failed_untouched (x : Execution) (h : x.FailsAtOnce) :
    let m := x.machine
    let m' := x.outcome.machine
    (∃ f, x.outcome.result = .error f) ∧ m'.current = m.current ∧ m'.root = m.root ∧
      (∀ i < m.store.scopes.size, m'.store.scopes[i]? = m.store.scopes[i]?) ∧
      (m'.store = m.store ∨
        (∃ name parameters body, x.statement = .method name parameters body) ∧
          m'.store = m.store.push m.current) := by
  obtain ⟨failed, same | ⟨method, made⟩⟩ := h.session
  · dsimp only
    rw [same]
    exact ⟨failed, rfl, rfl, fun _ _ => rfl, .inl rfl⟩
  · dsimp only at made ⊢
    rw [made]
    exact ⟨failed, rfl, rfl, fun i hi => Store.getElem?_add_of_lt _ _ hi, .inr ⟨method, rfl⟩⟩

theorem failed_untouched_duplicate :
    let m := (Block.run {} [.declare ⟨"a", {}⟩ (some (.literal (.bool true)))]
      ⟨Session.start, #[]⟩).machine
    let x : Execution := ⟨{}, 0, .method ⟨"a", {}⟩ [] [], m⟩
    x.FailsAtOnce ∧ m.store.snapshot 0 = [("a", .bool true)] ∧
      x.outcome.machine.store.scopes[0]? = m.store.scopes[0]? ∧
      x.outcome.machine.current = m.current ∧
      x.outcome.machine.store.made.scopes = m.store.made.scopes + 1 := by
  intro m x
  have fails : x.FailsAtOnce := ⟨_, rfl⟩
  obtain ⟨-, current, -, scopes, -⟩ := failed_untouched x fails
  exact ⟨fails, rfl, scopes 0 (by decide), current, rfl⟩

end Execution

end ScopedScript
