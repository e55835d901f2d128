import ScopedScript.Proofs.Run.Safe

/-!
# The statements that a run executes

`Block.log` lists the executions of statements in a run, in the order in which they begin, each with
the machine it begins in. A loop or a call first lists where its bodies start (`roundStarts`,
`Execution.starts`) and then what runs in them.
-/

namespace ScopedScript

structure Execution where
  settings : Settings
  depth : Nat
  statement : Statement
  machine : Machine

structure Start where
  body : Block
  machine : Machine

def roundStarts (template : ScopeId) (body : Machine → Outcome Unit)
    (again : Store Value → Except Failure Bool) : (left : Nat) → Machine → List Machine
  | 0, _ => []
  | left + 1, m =>
    m.inside template ::
      match m.within template body with
      | ⟨.error _, _⟩ => []
      | ⟨.ok (), m⟩ =>
        match again m.store with
        | .ok true => roundStarts template body again left m
        | _ => []

namespace Statement

def callee? (name : Name) (arguments : List Expr) (m : Machine) : Option Method :=
  match m.store.methodNamed? m.current name.text, checkAll (m.store.view m.current) arguments with
  | some callee, .ok () => some callee
  | _, _ => none

def cap? (settings : Settings) (location : Location) (condition : Expr) (m : Machine) :
    Option Int :=
  match testCondition (m.store.view m.current) condition .loopCondition location, settings.cap with
  | .ok true, .ok cap => some cap
  | _, _ => none

def loopStarts (settings : Settings) (location : Location) (condition : Expr)
    (body : Machine → Outcome Unit) (m : Machine) : List Machine :=
  match cap? settings location condition m with
  | none => []
  | some cap =>
    let m := m.note settings ("while " ++ condition.render)
    roundStarts m.enter.current body
      (fun store => testCondition (store.view m.current) condition .loopCondition location)
      cap.toNat m.enter

mutual

def log (settings : Settings) (depth : Nat) (called : Method → Machine → List Execution) :
    Statement → Machine → List Execution
  | call name arguments, m =>
    let m := noteStart settings (call name arguments) m
    match callee? name arguments m with
    | none => []
    | some callee => called callee m
  | branch location condition body, m =>
    let m := noteStart settings (branch location condition body) m
    match testCondition (m.store.view m.current) condition .branchCondition location with
    | .ok true => logAll settings depth called body m
    | _ => []
  | loop location condition body, m =>
    let m := noteStart settings (loop location condition body) m
    let starts := loopStarts settings location condition
      (fun m => runAll settings (Method.invoke settings depth) body m) m
    starts.flatMap fun m => logAll settings depth called body m
  | declare _ _, _ => []
  | method _ _ _, _ => []
  | assign _ _, _ => []

def logAll (settings : Settings) (depth : Nat) (called : Method → Machine → List Execution) :
    List Statement → Machine → List Execution
  | [], _ => []
  | s :: ss, m =>
    ⟨settings, depth, s, m⟩ :: log settings depth called s m ++
      match run settings (Method.invoke settings depth) s m with
      | ⟨.error _, _⟩ => []
      | ⟨.ok (), m⟩ => logAll settings depth called ss m

end

end Statement

def Method.log (settings : Settings) : (depth : Nat) → Method → Machine → List Execution
  | 0, _, _ => []
  | depth + 1, method, m =>
    Statement.logAll settings depth (log settings depth) method.body (m.inside method.template)

def Block.log (settings : Settings) (program : Block) (m : Machine) : List Execution :=
  Statement.logAll settings Method.callDepth (Method.log settings Method.callDepth) program m

namespace Execution

def outcome (x : Execution) : Outcome Unit :=
  x.statement.run x.settings (Method.invoke x.settings x.depth) x.machine

def starts (x : Execution) : List Start :=
  let m := Statement.noteStart x.settings x.statement x.machine
  match x.statement with
  | .call name arguments =>
    match Statement.callee? name arguments m with
    | none => []
    | some callee => [⟨callee.body, m.inside callee.template⟩]
  | .loop location condition body =>
    (Statement.loopStarts x.settings location condition
      (fun m => Statement.runAll x.settings (Method.invoke x.settings x.depth) body m) m).map
      fun m => ⟨body, m⟩
  | _ => []

/-- The scope that the bodies of a statement belong in: for a call the one that has the method, else
the one that the statement runs in. -/
def home? (x : Execution) : Option ScopeId :=
  match x.statement with
  | .call name _ => x.machine.store.methodOwner? x.machine.current name.text
  | _ => some x.machine.current

def template? (x : Execution) : Option ScopeId :=
  match x.statement with
  | .loop location condition _ =>
    (Statement.cap? x.settings location condition x.machine).map fun _ => x.machine.store.next
  | _ => none

end Execution

end ScopedScript
