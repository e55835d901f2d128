import ScopedScript.Proofs.Run.Safe

/-!
# Invariants of stores in runs of given programs

A `Vocabulary` says which names may be declared and assigned to and which expressions evaluated;
`Block.Within` holds of the programs that keep to it. What every change of a store that such a
program can make upholds (`Upheld`), whole runs uphold, whether they end or fail: `Upheld.runAll`.
The bodies of the methods that a run can call keep to the vocabulary because the invariant says so.

A run from one scope can get to some of the others only. `UpheldAmong` is about these, and
`UpheldAmong.runAll` is what `Upheld.runAll` is a case of.
-/

namespace ScopedScript

structure Vocabulary where
  declares : String → Prop
  assigns : String → Prop
  evaluates : Expr → Prop

mutual

def Statement.Within (v : Vocabulary) : Statement → Prop
  | .declare name none => v.declares name.text
  | .declare name (some e) => v.declares name.text ∧ v.evaluates e
  | .method name _ body => v.declares name.text ∧ Block.Within v body
  | .assign name e => v.assigns name.text ∧ v.evaluates e
  | .call _ arguments => ∀ e ∈ arguments, v.evaluates e
  | .branch _ condition body => v.evaluates condition ∧ Block.Within v body
  | .loop _ condition body => v.evaluates condition ∧ Block.Within v body

def Block.Within (v : Vocabulary) : List Statement → Prop
  | [] => True
  | s :: ss => s.Within v ∧ Block.Within v ss

end

mutual

def Statement.targets : Statement → List String
  | .declare .. => []
  | .method _ _ body => Block.targets body
  | .assign name _ => [name.text]
  | .call .. => []
  | .branch _ _ body => Block.targets body
  | .loop _ _ body => Block.targets body

def Block.targets : List Statement → List String
  | [] => []
  | s :: ss => s.targets ++ Block.targets ss

end

def Vocabulary.assigning (P : String → Prop) : Vocabulary := ⟨fun _ => True, P, fun _ => True⟩

mutual

theorem Statement.within_assigning {P : String → Prop} :
    ∀ (s : Statement), (∀ name ∈ s.targets, P name) → s.Within (.assigning P)
  | .declare _ none, _ => trivial
  | .declare _ (some _), _ => ⟨trivial, trivial⟩
  | .method _ _ body, h => ⟨trivial, Block.within_assigning body h⟩
  | .assign name _, h => ⟨h name.text (List.mem_singleton.2 rfl), trivial⟩
  | .call .., _ => fun _ _ => trivial
  | .branch _ _ body, h => ⟨trivial, Block.within_assigning body h⟩
  | .loop _ _ body, h => ⟨trivial, Block.within_assigning body h⟩

theorem Block.within_assigning {P : String → Prop} :
    ∀ (b : List Statement), (∀ name ∈ Block.targets b, P name) → Block.Within (.assigning P) b
  | [], _ => trivial
  | s :: ss, h =>
    ⟨s.within_assigning fun name hn => h name (List.mem_append_left _ hn),
      Block.within_assigning ss fun name hn => h name (List.mem_append_right _ hn)⟩

end

def Vocabulary.Gives (v : Vocabulary) (view : View Value) (value : Value) : Prop :=
  value = .null ∨ ∃ e, v.evaluates e ∧ e.value view = .ok value

/-- No change of a store by a program within the vocabulary breaks the invariant, and the bodies
in a store are within the vocabulary too. -/
structure Upheld (v : Vocabulary) (I : Store Value → Prop) : Prop where
  body {s : Store Value} {i : ScopeId} {a : Scope Value} {m : Method} :
    I s → s.scopes[i]? = some a → m ∈ a.methods → Block.Within v m.body
  push {s : Store Value} (parent : Option ScopeId) : I s → I (s.push parent)
  copy {s : Store Value} (id : ScopeId) : I s → I (s.copy id)
  declare {s : Store Value} {id : ScopeId} {name : String} {value : Value} (origin : Origin) :
    I s → s.conflict? id name = none → v.declares name → v.Gives (s.view id) value →
      I (s.addVariable id name value origin)
  assign {s : Store Value} {id owner : ScopeId} {name : String} {value : Value}
    (origin : Origin) : I s → s.variableOwner? id name = some owner → v.assigns name →
      v.Gives (s.view id) value → I (s.write owner name value origin)
  method {s : Store Value} {id : ScopeId} {m : Method} :
    I s → s.conflict? id m.name = none → v.declares m.name → Block.Within v m.body →
      I (s.addMethod id m)

/-- From a scope no way leads to scopes that are not reached: not to its parent, not to what the
calls of its methods are modelled on. The bodies of its methods are within the vocabulary. -/
structure Scope.Confined (v : Vocabulary) (reached : ScopeId → Prop) (a : Scope Value) : Prop where
  parent {p : ScopeId} : a.parent = some p → reached p
  template {m : Method} : m ∈ a.methods → reached m.template
  body {m : Method} : m ∈ a.methods → Block.Within v m.body

structure Store.Confined (v : Vocabulary) (reached : ScopeId → Prop) (s : Store Value) : Prop where
  fresh {i : ScopeId} : s.scopes.size ≤ i → reached i
  scope {i : ScopeId} {a : Scope Value} : reached i → s.scopes[i]? = some a → a.Confined v reached

structure UpheldAmong (v : Vocabulary) (reached : ScopeId → Prop) (I : Store Value → Prop) :
    Prop where
  confined {s : Store Value} : I s → s.Confined v reached
  push {s : Store Value} {parent : ScopeId} : I s → reached parent → I (s.push parent)
  copy {s : Store Value} {id : ScopeId} : I s → reached id → I (s.copy id)
  declare {s : Store Value} {id : ScopeId} {name : String} {value : Value} (origin : Origin) :
    I s → s.conflict? id name = none → v.declares name → v.Gives (s.view id) value →
      I (s.addVariable id name value origin)
  assign {s : Store Value} {id owner : ScopeId} {name : String} {value : Value}
    (origin : Origin) : I s → s.variableOwner? id name = some owner → v.assigns name →
      v.Gives (s.view id) value → I (s.write owner name value origin)
  method {s : Store Value} {id : ScopeId} {m : Method} :
    I s → s.conflict? id m.name = none → v.declares m.name → reached m.template →
      Block.Within v m.body → I (s.addMethod id m)

theorem Store.Confined.of_mem_chain {v : Vocabulary} {reached : ScopeId → Prop} {s : Store Value}
    (h : s.Confined v reached) {id i : ScopeId} (hid : reached id) (hi : i ∈ s.chain id) :
    reached i := by
  fun_induction Store.chain s id with
  | case1 => simp at hi
  | case2 id a ha p hp _ ih =>
    rcases List.mem_cons.1 hi with rfl | hi
    · exact hid
    · exact ih ((h.scope hid ha).parent hp) hi
  | case3 | case4 =>
    rw [List.mem_singleton.1 hi]
    exact hid

structure Machine.Upholds (reached : ScopeId → Prop) (I : Store Value → Prop) (m : Machine) :
    Prop where
  store : I m.store
  current : reached m.current

theorem Machine.Upholds.noteStart {reached : ScopeId → Prop} {I : Store Value → Prop} {m : Machine}
    (hm : m.Upholds reached I) (settings : Settings) (s : Statement) :
    (Statement.noteStart settings s m).Upholds reached I := by
  have same := Statement.noteStart_toSession settings s m
  exact ⟨by rw [same]; exact hm.store, by rw [same]; exact hm.current⟩

def InvokeUpheld (v : Vocabulary) (reached : ScopeId → Prop) (I : Store Value → Prop)
    (invoke : Method → Machine → Outcome Unit) : Prop :=
  ∀ (callee : Method) (n : Machine), reached callee.template → Block.Within v callee.body →
    n.Upholds reached I → (invoke callee n).machine.Upholds reached I

namespace UpheldAmong

variable {v : Vocabulary} {reached : ScopeId → Prop} {I : Store Value → Prop}
  {settings : Settings} {invoke : Method → Machine → Outcome Unit} {m : Machine}

theorem enter (U : UpheldAmong v reached I) (hm : m.Upholds reached I) :
    m.enter.Upholds reached I :=
  ⟨U.push hm.store hm.current, (U.confined hm.store).fresh (Nat.le_refl _)⟩

theorem leave {α : Type} (U : UpheldAmong v reached I) {o : Outcome α} (location : Location)
    (h : o.machine.Upholds reached I) : (o.leave location).machine.Upholds reached I := by
  unfold Outcome.leave Session.leave
  cases hp : o.machine.store.scopes[o.machine.current]?.bind Scope.parent with
  | none => exact h
  | some parent =>
    obtain ⟨a, ha, hp⟩ := Option.bind_eq_some_iff.1 hp
    exact ⟨h.store, ((U.confined h.store).scope h.current ha).parent hp⟩

theorem within {α : Type} (U : UpheldAmong v reached I) {template : ScopeId}
    {body : Machine → Outcome α} (there : reached template)
    (h : ∀ n : Machine, n.Upholds reached I → (body n).machine.Upholds reached I)
    (hm : m.Upholds reached I) : (m.within template body).machine.Upholds reached I :=
  have inside : (m.inside template).Upholds reached I :=
    ⟨U.copy hm.store there, (U.confined hm.store).fresh (Nat.le_refl _)⟩
  ⟨(h _ inside).store, hm.current⟩

theorem runDeclare (U : UpheldAmong v reached I) {name : Name} {value : Value} {origin : Origin}
    (declares : v.declares name.text) (gives : v.Gives (m.store.view m.current) value)
    (hm : m.Upholds reached I) :
    (Statement.runDeclare name value origin m).machine.Upholds reached I := by
  unfold Statement.runDeclare
  split
  · exact hm
  · exact ⟨U.declare origin hm.store ‹_› declares gives, hm.current⟩

theorem runAssign (U : UpheldAmong v reached I) {name : Name} {e : Expr}
    (assigns : v.assigns name.text) (evaluates : v.evaluates e) (hm : m.Upholds reached I) :
    (Statement.runAssign name e m).machine.Upholds reached I := by
  unfold Statement.runAssign
  split
  · exact hm
  · split
    · exact hm
    · exact ⟨U.assign _ hm.store ‹_› assigns (.inr ⟨e, evaluates, ‹_›⟩), hm.current⟩

theorem runMethod (U : UpheldAmong v reached I) {name : Name} {parameters : List String}
    {body : Block} (declares : v.declares name.text) (within : Block.Within v body)
    (hm : m.Upholds reached I) :
    (Statement.runMethod name parameters body m).machine.Upholds reached I := by
  have entered := U.enter hm
  refine U.leave name.location ?_
  unfold Statement.addMethod
  split
  · exact entered
  · exact ⟨U.method entered.store ‹_› declares entered.current within, entered.current⟩

theorem runCall (U : UpheldAmong v reached I) (hi : InvokeUpheld v reached I invoke) (name : Name)
    (arguments : List Expr) (hm : m.Upholds reached I) :
    (Statement.runCall invoke name arguments m).machine.Upholds reached I := by
  unfold Statement.runCall
  split
  · exact hm
  · rename_i callee hc
    -- the method is one of those that are reached, of which the invariant says what they are
    obtain ⟨owner, a, found, ha, hmem⟩ := Store.mem_of_methodNamed? hc
    have there : reached owner :=
      (U.confined hm.store).of_mem_chain hm.current (List.mem_of_find?_eq_some found)
    have confined := (U.confined hm.store).scope there ha
    split
    · exact hm
    · exact hi callee m (confined.template hmem) (confined.body hmem) hm

theorem rounds (U : UpheldAmong v reached I) (cap : Int) (location : Location) (condition : Expr)
    {body : Machine → Outcome Unit}
    (h : ∀ n : Machine, n.Upholds reached I → (body n).machine.Upholds reached I)
    (hm : m.Upholds reached I) :
    (Statement.rounds cap location condition body m).machine.Upholds reached I := by
  have entered := U.enter hm
  exact iterate_rel (R := fun n n' => n.Upholds reached I → n'.Upholds reached I)
    (fun _ h => h) (fun first second hn => second (first hn)) _ _
    (fun n hn => U.within entered.current h hn) _ _ entered

theorem runLoop (U : UpheldAmong v reached I) (location : Location) (condition : Expr)
    {body : Machine → Outcome Unit}
    (h : ∀ n : Machine, n.Upholds reached I → (body n).machine.Upholds reached I)
    (hm : m.Upholds reached I) :
    (Statement.runLoop settings location condition body m).machine.Upholds reached I := by
  have same := m.note_toSession settings ("while " ++ condition.render)
  have noted : (m.note settings ("while " ++ condition.render)).Upholds reached I :=
    ⟨by rw [same]; exact hm.store, by rw [same]; exact hm.current⟩
  rcases runLoop_cases settings location condition body m with ⟨f, -, ho⟩ | ⟨cap, notes, -, ho⟩ <;>
    rw [ho]
  · exact noted
  · have left := U.leave location (U.rounds cap location condition h noted)
    exact ⟨left.store, left.current⟩

mutual

theorem run_of (U : UpheldAmong v reached I) (hi : InvokeUpheld v reached I invoke) :
    ∀ (s : Statement) (m : Machine), s.Within v → m.Upholds reached I →
      (Statement.run settings invoke s m).machine.Upholds reached I
  | .declare name none, m, within, hm => by
    rw [Statement.run]
    exact U.runDeclare within (.inl rfl) (hm.noteStart _ _)
  | .declare name (some e), m, within, hm => by
    rw [Statement.run]
    split
    · exact hm.noteStart _ _
    · exact U.runDeclare within.1 (.inr ⟨e, within.2, ‹_›⟩) (hm.noteStart _ _)
  | .method name parameters body, m, within, hm => by
    rw [Statement.run]
    exact U.runMethod within.1 within.2 (hm.noteStart _ _)
  | .assign name e, m, within, hm => by
    rw [Statement.run]
    exact U.runAssign within.1 within.2 (hm.noteStart _ _)
  | .call name arguments, m, _, hm => by
    rw [Statement.run]
    exact U.runCall hi name arguments (hm.noteStart _ _)
  | .branch location condition body, m, within, hm => by
    rw [Statement.run]
    split
    · exact hm.noteStart _ _
    · exact hm.noteStart _ _
    · exact U.runAll_of hi body _ within.2 (hm.noteStart _ _)
  | .loop location condition body, m, within, hm => by
    rw [Statement.run]
    split
    · exact hm.noteStart _ _
    · exact hm.noteStart _ _
    · exact U.runLoop location condition (fun n hn => U.runAll_of hi body n within.2 hn)
        (hm.noteStart _ _)

theorem runAll_of (U : UpheldAmong v reached I) (hi : InvokeUpheld v reached I invoke) :
    ∀ (b : Block) (m : Machine), Block.Within v b → m.Upholds reached I →
      (Statement.runAll settings invoke b m).machine.Upholds reached I
  | [], m, _, hm => by
    rw [Statement.runAll]
    exact hm
  | s :: ss, m, within, hm => by
    rw [Statement.runAll]
    have first := U.run_of hi s m within.1 hm
    split
    · rename_i f m' h
      rwa [h] at first
    · rename_i m' h
      rw [h] at first
      exact U.runAll_of hi ss m' within.2 first

end

theorem invokeUpheld (U : UpheldAmong v reached I) (depth : Nat) :
    InvokeUpheld v reached I (Method.invoke settings depth) := by
  induction depth with
  | zero => exact fun _ _ _ _ hm => hm
  | succ depth ih =>
    intro callee n there within hm
    exact U.within there (fun n hn => U.runAll_of ih callee.body n within hn) hm

theorem runAll (U : UpheldAmong v reached I) (depth : Nat) (b : Block) (m : Machine)
    (within : Block.Within v b) (hm : m.Upholds reached I) :
    (Statement.runAll settings (Method.invoke settings depth) b m).machine.Upholds reached I :=
  U.runAll_of (U.invokeUpheld depth) b m within hm

end UpheldAmong

namespace Upheld

variable {v : Vocabulary} {I : Store Value → Prop}

theorem among (U : Upheld v I) : UpheldAmong v (fun _ => True) I where
  confined h := ⟨fun _ => trivial, fun _ ha => ⟨fun _ => trivial, fun _ => trivial, U.body h ha⟩⟩
  push h _ := U.push _ h
  copy h _ := U.copy _ h
  declare := U.declare
  assign := U.assign
  method h free declares _ within := U.method h free declares within

theorem runAll (U : Upheld v I) {settings : Settings} (depth : Nat) (b : Block) (m : Machine)
    (within : Block.Within v b) (hm : I m.store) :
    I (Statement.runAll settings (Method.invoke settings depth) b m).machine.store :=
  (U.among.runAll depth b m within ⟨hm, trivial⟩).store

end Upheld

end ScopedScript
