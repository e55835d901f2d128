import ScopedScript.Error
import ScopedScript.Proofs.Syntax.Relocation

namespace ScopedScript

structure Rewording where
  location : Location → Location
  name : String → String
  injective : Function.Injective name

namespace Rewording

def moving (f : Location → Location) : Rewording := ⟨f, id, Function.injective_id⟩

def naming (r : String → String) (injective : Function.Injective r) : Rewording :=
  ⟨id, r, injective⟩

@[simp] theorem name_beq (w : Rewording) (n n' : String) :
    (w.name n == w.name n') = (n == n') := by
  by_cases h : n = n'
  · rw [h, beq_self_eq_true, beq_self_eq_true]
  · rw [beq_false_of_ne h, beq_false_of_ne fun same => h (w.injective same)]

end Rewording

variable (w : Rewording)

def Name.reword (n : Name) : Name := ⟨w.name n.text, w.location n.location⟩

def Expr.reword : Expr → Expr
  | literal v => literal v
  | name n => name (n.reword w)
  | unary op e => unary (op.relocate w.location) e.reword
  | binary l op r => binary l.reword (op.relocate w.location) r.reword
  | logical l op r => logical l.reword (op.relocate w.location) r.reword

mutual

def Statement.reword : Statement → Statement
  | .declare name e? => .declare (name.reword w) (e?.map (Expr.reword w))
  | .method name parameters body =>
    .method (name.reword w) (parameters.map w.name) (Block.reword body)
  | .assign name e => .assign (name.reword w) (e.reword w)
  | .call name arguments => .call (name.reword w) (arguments.map (Expr.reword w))
  | .branch location e body => .branch (w.location location) (e.reword w) (Block.reword body)
  | .loop location e body => .loop (w.location location) (e.reword w) (Block.reword body)

def Block.reword : List Statement → List Statement
  | [] => []
  | s :: ss => s.reword :: Block.reword ss

end

theorem Statement.form_reword (s : Statement) : (s.reword w).form = s.form := by
  cases s <;> rfl

/-- The names that a cause mentions are changed; lexemes that it mentions are no names. -/
def Cause.rename (r : String → String) : Cause → Cause
  | danglingName name => danglingName (r name)
  | unknownName name => unknownName (r name)
  | unknownVariable name => unknownVariable (r name)
  | unknownMethod name => unknownMethod (r name)
  | variableExists name => variableExists (r name)
  | methodExists name => methodExists (r name)
  | cause => cause

theorem Cause.kind_rename (r : String → String) (cause : Cause) :
    (cause.rename r).kind = cause.kind := by
  cases cause <;> rfl

theorem Cause.rename_id (cause : Cause) : cause.rename id = cause := by
  cases cause <;> rfl

def ScriptError.reword (e : ScriptError) : ScriptError :=
  ⟨e.cause.rename w.name, e.location.map w.location⟩

def Failure.reword : Failure → Failure
  | .error e => .error (e.reword w)
  | .fault x => .fault x

namespace Failure

@[simp] theorem mapError_reword_ok {α : Type} (a : α) :
    (Except.ok a).mapError (reword w) = .ok a := rfl

theorem reword_ofCause (cause : Cause) (location : Location) :
    (ofCause cause location).reword w = .ofCause (cause.rename w.name) (w.location location) := rfl

end Failure

variable (f : Location → Location)

theorem Expr.reword_moving (e : Expr) : e.reword (.moving f) = e.relocate f := by
  induction e with
  | literal => rfl
  | name => rfl
  | unary op e ih => rw [reword, relocate, ih]; rfl
  | binary l op r ihl ihr => rw [reword, relocate, ihl, ihr]; rfl
  | logical l op r ihl ihr => rw [reword, relocate, ihl, ihr]; rfl

mutual

theorem Statement.reword_moving : ∀ s : Statement, s.reword (.moving f) = s.relocate f
  | .declare name e? => by
    rw [Statement.reword, Statement.relocate, funext (Expr.reword_moving f)]
    rfl
  | .method name parameters body => by
    rw [Statement.reword, Statement.relocate, Block.reword_moving body]
    exact congrArg (Statement.method _ · _) (List.map_id parameters)
  | .assign name e => by
    rw [Statement.reword, Statement.relocate, e.reword_moving]
    rfl
  | .call name arguments => by
    rw [Statement.reword, Statement.relocate, funext (Expr.reword_moving f)]
    rfl
  | .branch location e body => by
    rw [Statement.reword, Statement.relocate, e.reword_moving, Block.reword_moving body]
    rfl
  | .loop location e body => by
    rw [Statement.reword, Statement.relocate, e.reword_moving, Block.reword_moving body]
    rfl

theorem Block.reword_moving : ∀ b : Block, Block.reword (.moving f) b = Block.relocate f b
  | [] => rfl
  | s :: ss => by
    rw [Block.reword, Block.relocate, Statement.reword_moving s, Block.reword_moving ss]

end

end ScopedScript
