import Mathlib.Logic.Relation
import ScopedScript.Statement.Run

/-!
# Runs step by step

A `Config` is a run that has come so far: what is left of the body that runs, the machine, and the
bodies that this one runs inside of. One step executes a statement that has no body, or begins a
body, or goes on behind one. Calls may be nested as deep as they like here, so that a run can go on
for ever; `Config.callDepth` counts the calls that are on their way.
-/

namespace ScopedScript

structure ActiveLoop where
  location : Location
  condition : Expr
  body : Block
  cap : Int
  scope : ScopeId
  template : ScopeId

/-- A body that waits for one inside it, with what is left of it. -/
inductive Waiting
  | branch (rest : Block)
  | call (outer : ScopeId) (rest : Block)
  | round (loop : ActiveLoop) (left : Nat) (rest : Block)

/-- How far a run has come: what is left of the innermost body, or why it failed. -/
structure Config where
  todo : Except Failure Block
  machine : Machine
  around : List Waiting

namespace Config

variable (settings : Settings)

def start (program : Block) (m : Machine) : Config := ⟨.ok program, m, []⟩

def behind (o : Outcome Unit) (rest : Block) (around : List Waiting) : Config :=
  ⟨o.result.map fun _ => rest, o.machine, around⟩

def behindLoop (loop : ActiveLoop) (o : Outcome Nat) (rest : Block) (around : List Waiting) :
    Config :=
  match o.leave loop.location with
  | ⟨.error f, m⟩ => ⟨.error f, m, around⟩
  | ⟨.ok left, m⟩ =>
    let rounds := Number.intText (loop.cap.toNat - left : Nat)
    ⟨.ok rest, m.note settings ("while finished after " ++ rounds ++ " iterations"), around⟩

def beginRound (loop : ActiveLoop) (left : Nat) (m : Machine) (rest : Block)
    (around : List Waiting) : Config :=
  match left with
  | 0 =>
    behindLoop settings loop ⟨.error (.ofCause (.iterationLimit loop.cap) loop.location), m⟩ rest
      around
  | left + 1 => ⟨.ok loop.body, m.inside loop.template, .round loop left rest :: around⟩

def resume (m : Machine) (around : List Waiting) : Waiting → Config
  | .branch rest => ⟨.ok rest, m, around⟩
  | .call outer rest => ⟨.ok rest, { m with current := outer }, around⟩
  | .round loop left rest =>
    let m := { m with current := loop.template }
    match testCondition (m.store.view loop.scope) loop.condition .loopCondition loop.location with
    | .error f => behindLoop settings loop ⟨.error f, m⟩ rest around
    | .ok false => behindLoop settings loop ⟨.ok left, m⟩ rest around
    | .ok true => beginRound settings loop left m rest around

def abandon (f : Failure) (m : Machine) (around : List Waiting) : Waiting → Config
  | .branch _ => ⟨.error f, m, around⟩
  | .call outer _ => ⟨.error f, { m with current := outer }, around⟩
  | .round loop _ rest =>
    behindLoop settings loop ⟨.error f, { m with current := loop.template }⟩ rest around

def beginLoop (location : Location) (condition : Expr) (body : Block) (m : Machine) (rest : Block)
    (around : List Waiting) : Config :=
  let m := m.note settings ("while " ++ condition.render)
  match settings.cap with
  | .error f => ⟨.error (.fault f), m, around⟩
  | .ok cap =>
    let loop : ActiveLoop := ⟨location, condition, body, cap, m.current, m.enter.current⟩
    beginRound settings loop cap.toNat m.enter rest around

def execute (rest : Block) (around : List Waiting) : Statement → Machine → Config
  | .declare name none, m => behind (Statement.runDeclare name .null .division m) rest around
  | .declare name (some e), m =>
    match e.value (m.store.view m.current) with
    | .error f => ⟨.error f, m, around⟩
    | .ok value =>
      behind (Statement.runDeclare name value (m.store.origin m.current e value) m) rest around
  | .method name parameters body, m =>
    behind (Statement.runMethod name parameters body m) rest around
  | .assign name e, m => behind (Statement.runAssign name e m) rest around
  | .call name arguments, m =>
    match m.store.methodNamed? m.current name.text with
    | none => ⟨.error (.ofCause (.unknownMethod name.text) name.location), m, around⟩
    | some callee =>
      match checkAll (m.store.view m.current) arguments with
      | .error f => ⟨.error f, m, around⟩
      | .ok () => ⟨.ok callee.body, m.inside callee.template, .call m.current rest :: around⟩
  | .branch location condition body, m =>
    match testCondition (m.store.view m.current) condition .branchCondition location with
    | .error f => ⟨.error f, m, around⟩
    | .ok false => ⟨.ok rest, m, around⟩
    | .ok true => ⟨.ok body, m, .branch rest :: around⟩
  | .loop location condition body, m =>
    match testCondition (m.store.view m.current) condition .loopCondition location with
    | .error f => ⟨.error f, m, around⟩
    | .ok false => ⟨.ok rest, m, around⟩
    | .ok true => beginLoop settings location condition body m rest around

def step : Config → Option Config
  | ⟨.ok (s :: rest), m, around⟩ =>
    some (execute settings rest around s (Statement.noteStart settings s m))
  | ⟨.ok [], m, waiting :: around⟩ => some (resume settings m around waiting)
  | ⟨.error f, m, waiting :: around⟩ => some (abandon settings f m around waiting)
  | ⟨.ok [], _, []⟩ => none
  | ⟨.error _, _, []⟩ => none

abbrev Steps : Config → Config → Prop :=
  Relation.ReflTransGen fun c c' => step settings c = some c'

def isCall : Waiting → Bool
  | .call .. => true
  | _ => false

def callDepth (c : Config) : Nat := c.around.countP isCall

end Config

end ScopedScript
