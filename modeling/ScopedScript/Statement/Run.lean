import ScopedScript.Expr.Printer
import ScopedScript.Session.Basic
import ScopedScript.Text.Integer

/-!
# Running statements

A statement runs in the current scope of a machine and changes the machine: its store, for a while
its current scope, and the notes of a trace. It ends or fails, and a failure leaves the machine as
it is then, except that the scopes entered on the way are left again. Every round of a loop and
every call of a method runs in a scope of its own; the branch of a condition runs in the scope
around it.

Loops end because every loop has a cap, and `callDepth` bounds how deep calls may be nested. Apart
from calls, execution is recursion on the program.
-/

namespace ScopedScript

structure Settings where
  tracing : Bool := false
  loopCap : Option String := none
deriving DecidableEq, Inhabited

namespace Settings

def ofTexts (trace loopCap : Option String) : Settings :=
  ⟨(trace.map fun s => !s.isEmpty).getD false, loopCap⟩

def defaultLoopCap : Int := 100000

def cap (settings : Settings) : Except Fault Int :=
  match settings.loopCap with
  | none => .ok defaultLoopCap
  | some setting =>
    match Text.int? setting with
    | some n => .ok n
    | none => .error (.loopCap setting)

end Settings

structure Machine extends Session where
  trace : Array String := #[]
deriving Inhabited

structure Outcome (α : Type) where
  result : Except Failure α
  machine : Machine

namespace Machine

@[inline] def note (m : Machine) (settings : Settings) (line : String) : Machine :=
  if settings.tracing then { m with trace := m.trace.push line } else m

def enter (m : Machine) : Machine := { m with toSession := m.toSession.enter }

def inside (m : Machine) (template : ScopeId) : Machine :=
  let inner := m.store.next
  { m with store := m.store.copy template, current := inner }

def within {α : Type} (m : Machine) (template : ScopeId) (run : Machine → Outcome α) : Outcome α :=
  let outer := m.current
  let o := run (m.inside template)
  { o with machine := { o.machine with current := outer } }

end Machine

def Outcome.leave {α : Type} (o : Outcome α) (location : Location) : Outcome α :=
  match o.machine.toSession.leave location with
  | .ok session => { o with machine := { o.machine with toSession := session } }
  | .error e => { o with result := .error (.error e) }

def checkAll (view : View Value) : List Expr → Except Failure Unit
  | [] => .ok ()
  | e :: es =>
    match e.value view with
    | .ok _ => checkAll view es
    | .error f => .error f

def testCondition (view : View Value) (condition : Expr) (cause : Cause) (location : Location) :
    Except Failure Bool :=
  match condition.value view with
  | .ok (.bool b) => .ok b
  | .ok _ => .error (.ofCause cause location)
  | .error f => .error f

/-- Runs a body, tests whether to go on, and so on; fails before a round that `left` does not
allow. The result is how many rounds were left. -/
def iterate (body : Machine → Outcome Unit) (again : Store Value → Except Failure Bool)
    (exceeded : Failure) : (left : Nat) → Machine → Outcome Nat
  | 0, m => ⟨.error exceeded, m⟩
  | left + 1, m =>
    match body m with
    | ⟨.error f, m⟩ => ⟨.error f, m⟩
    | ⟨.ok (), m⟩ =>
      match again m.store with
      | .error f => ⟨.error f, m⟩
      | .ok false => ⟨.ok left, m⟩
      | .ok true => iterate body again exceeded left m

namespace Statement

def runDeclare (name : Name) (value : Value) (origin : Origin) (m : Machine) : Outcome Unit :=
  match m.store.conflict? m.current name.text with
  | some cause => ⟨.error (.ofCause cause name.location), m⟩
  | none =>
    ⟨.ok (), { m with store := m.store.addVariable m.current name.text value origin }⟩

/-- Sets the variable that a name means. The variable is looked up before the value is computed. -/
def runAssign (name : Name) (e : Expr) (m : Machine) : Outcome Unit :=
  match m.store.variableOwner? m.current name.text with
  | none => ⟨.error (.ofCause (.unknownVariable name.text) name.location), m⟩
  | some owner =>
    match e.value (m.store.view m.current) with
    | .error f => ⟨.error f, m⟩
    | .ok value =>
      let origin := m.store.origin m.current e value
      ⟨.ok (), { m with store := m.store.write owner name.text value origin }⟩

def addMethod (scope : ScopeId) (name : Name) (parameters : List String) (body : Block)
    (m : Machine) : Outcome Unit :=
  match m.store.conflict? scope name.text with
  | some cause => ⟨.error (.ofCause cause name.location), m⟩
  | none =>
    let method : Method := ⟨name.text, parameters, body, m.current⟩
    ⟨.ok (), { m with store := m.store.addMethod scope method }⟩

def runMethod (name : Name) (parameters : List String) (body : Block) (m : Machine) :
    Outcome Unit :=
  -- the scope that calls are modelled on is made first, and left whether or not the name is free
  (addMethod m.current name parameters body m.enter).leave name.location

/-- Calls a method. Arguments are evaluated, but a method sees nothing of them. -/
def runCall (invoke : Method → Machine → Outcome Unit) (name : Name) (arguments : List Expr)
    (m : Machine) : Outcome Unit :=
  match m.store.methodNamed? m.current name.text with
  | none => ⟨.error (.ofCause (.unknownMethod name.text) name.location), m⟩
  | some callee =>
    match checkAll (m.store.view m.current) arguments with
    | .error f => ⟨.error f, m⟩
    | .ok () => invoke callee m

/-- Runs a loop whose first condition held. The scope its rounds are modelled on is made first, and
left behind them; the condition is tested in the scope around the loop. -/
def runLoop (settings : Settings) (location : Location) (condition : Expr)
    (body : Machine → Outcome Unit) (m : Machine) : Outcome Unit :=
  let m := m.note settings ("while " ++ condition.render)
  match settings.cap with
  | .error f => ⟨.error (.fault f), m⟩
  | .ok cap =>
    let scope := m.current
    let m := m.enter
    let template := m.current
    let round (m : Machine) : Outcome Unit := m.within template body
    let again (store : Store Value) : Except Failure Bool :=
      testCondition (store.view scope) condition .loopCondition location
    let rounds := iterate round again (.ofCause (.iterationLimit cap) location) cap.toNat m
    match rounds.leave location with
    | ⟨.error f, m⟩ => ⟨.error f, m⟩
    | ⟨.ok left, m⟩ =>
      let rounds := Number.intText (cap.toNat - left : Nat)
      ⟨.ok (), m.note settings ("while finished after " ++ rounds ++ " iterations")⟩

def noteStart (settings : Settings) (s : Statement) (m : Machine) : Machine :=
  let ordinal := (m.store.scopes[m.current]?.map Scope.ordinal).getD 0
  m.note settings ("exec " ++ s.form ++ " in scope #" ++ Number.intText ordinal)

mutual

def run (settings : Settings) (invoke : Method → Machine → Outcome Unit) :
    Statement → Machine → Outcome Unit
  | declare name none, m =>
    let m := noteStart settings (declare name none) m
    runDeclare name .null .division m
  | declare name (some e), m =>
    let m := noteStart settings (declare name (some e)) m
    match e.value (m.store.view m.current) with
    | .error f => ⟨.error f, m⟩
    | .ok value => runDeclare name value (m.store.origin m.current e value) m
  | method name parameters body, m =>
    let m := noteStart settings (method name parameters body) m
    runMethod name parameters body m
  | assign name e, m =>
    let m := noteStart settings (assign name e) m
    runAssign name e m
  | call name arguments, m =>
    let m := noteStart settings (call name arguments) m
    runCall invoke name arguments m
  | branch location condition body, m =>
    let m := noteStart settings (branch location condition body) m
    match testCondition (m.store.view m.current) condition .branchCondition location with
    | .error f => ⟨.error f, m⟩
    | .ok false => ⟨.ok (), m⟩
    | .ok true => runAll settings invoke body m
  | loop location condition body, m =>
    let m := noteStart settings (loop location condition body) m
    match testCondition (m.store.view m.current) condition .loopCondition location with
    | .error f => ⟨.error f, m⟩
    | .ok false => ⟨.ok (), m⟩
    | .ok true => runLoop settings location condition (fun m => runAll settings invoke body m) m

def runAll (settings : Settings) (invoke : Method → Machine → Outcome Unit) :
    List Statement → Machine → Outcome Unit
  | [], m => ⟨.ok (), m⟩
  | s :: ss, m =>
    match run settings invoke s m with
    | ⟨.error f, m⟩ => ⟨.error f, m⟩
    | ⟨.ok (), m⟩ => runAll settings invoke ss m

end

end Statement

namespace Method

def invoke (settings : Settings) : (depth : Nat) → Method → Machine → Outcome Unit
  | 0, _, m => ⟨.error (.fault (.tooDeep .calls)), m⟩
  | depth + 1, method, m =>
    m.within method.template (Statement.runAll settings (invoke settings depth) method.body)

def callDepth : Nat := 1000

end Method

namespace Block

def run (settings : Settings) (program : Block) (m : Machine) : Outcome Unit :=
  Statement.runAll settings (Method.invoke settings Method.callDepth) program m

end Block

end ScopedScript
