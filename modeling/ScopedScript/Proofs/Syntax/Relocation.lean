import ScopedScript.Expr.Printer
import ScopedScript.Statement.Basic

namespace ScopedScript

variable (f g : Location → Location)

def Token.relocate (t : Token) : Token := { t with location := f t.location }

@[simp] theorem Token.relocate_kind (t : Token) : (t.relocate f).kind = t.kind := rfl

@[simp] theorem Token.relocate_id (t : Token) : t.relocate id = t := rfl

def Name.relocate (n : Name) : Name := { n with location := f n.location }

@[simp] theorem Name.relocate_id (n : Name) : n.relocate id = n := rfl

namespace Expr

def relocate : Expr → Expr
  | literal v => literal v
  | name n => name (n.relocate f)
  | unary op e => unary (op.relocate f) e.relocate
  | binary l op r => binary l.relocate (op.relocate f) r.relocate
  | logical l op r => logical l.relocate (op.relocate f) r.relocate

@[simp] theorem relocate_id (e : Expr) : e.relocate id = e := by
  induction e with
  | literal v => rfl
  | name n => rfl
  | unary op e ih => simp [relocate, ih]
  | binary l op r ihl ihr => simp [relocate, ihl, ihr]
  | logical l op r ihl ihr => simp [relocate, ihl, ihr]

theorem relocate_relocate (e : Expr) : (e.relocate f).relocate g = e.relocate (g ∘ f) := by
  induction e with
  | literal v => rfl
  | name n => rfl
  | unary op e ih => simp [relocate, ih, Token.relocate]
  | binary l op r ihl ihr => simp [relocate, ihl, ihr, Token.relocate]
  | logical l op r ihl ihr => simp [relocate, ihl, ihr, Token.relocate]

@[simp] theorem render_relocate (e : Expr) : (e.relocate f).render = e.render := by
  have infix_eq (e : Expr) : (e.relocate f).isInfix = e.isInfix := by cases e <;> rfl
  induction e with
  | literal v => rfl
  | name n => rfl
  | unary op e ih => simp [relocate, Token.relocate, render, infix_eq, ih]
  | binary l op r ihl ihr => simp [relocate, Token.relocate, render, infix_eq, ihl, ihr]
  | logical l op r ihl ihr => simp [relocate, Token.relocate, render, infix_eq, ihl, ihr]

theorem relocate_infixNode (l r : Expr) (op : Token) :
    (l.infixNode op r).relocate f = (l.relocate f).infixNode (op.relocate f) (r.relocate f) := by
  unfold infixNode
  by_cases h : op.kind = .wordAnd ∨ op.kind = .wordOr
  · simp [h, relocate]
  · simp [h, relocate]

end Expr

mutual

def Statement.relocate : Statement → Statement
  | .declare name e? => .declare (name.relocate f) (e?.map (Expr.relocate f))
  | .method name parameters body => .method (name.relocate f) parameters (Block.relocate body)
  | .assign name e => .assign (name.relocate f) (e.relocate f)
  | .call name arguments => .call (name.relocate f) (arguments.map (Expr.relocate f))
  | .branch location e body => .branch (f location) (e.relocate f) (Block.relocate body)
  | .loop location e body => .loop (f location) (e.relocate f) (Block.relocate body)

def Block.relocate : List Statement → List Statement
  | [] => []
  | s :: ss => s.relocate :: Block.relocate ss

end

mutual

theorem Statement.relocate_id : ∀ s : Statement, s.relocate id = s
  | .declare _ none => rfl
  | .declare _ (some e) => by simp [Statement.relocate]
  | .method _ _ body => by simp [Statement.relocate, Block.relocate_id body]
  | .assign _ e => by simp [Statement.relocate]
  | .call _ arguments => by
    have : Expr.relocate id = id := funext Expr.relocate_id
    simp [Statement.relocate, this]
  | .branch _ e body => by simp [Statement.relocate, Block.relocate_id body]
  | .loop _ e body => by simp [Statement.relocate, Block.relocate_id body]

theorem Block.relocate_id : ∀ b : Block, Block.relocate id b = b
  | [] => rfl
  | s :: ss => by simp [Block.relocate, Statement.relocate_id s, Block.relocate_id ss]

end

mutual

theorem Statement.relocate_relocate :
    ∀ s : Statement, (s.relocate f).relocate g = s.relocate (g ∘ f)
  | .declare _ none => rfl
  | .declare _ (some e) => by simp [Statement.relocate, Name.relocate, e.relocate_relocate]
  | .method _ _ body => by
    simp [Statement.relocate, Name.relocate, Block.relocate_relocate body]
  | .assign _ e => by simp [Statement.relocate, Name.relocate, e.relocate_relocate]
  | .call _ arguments => by
    simp [Statement.relocate, Name.relocate, Expr.relocate_relocate]
  | .branch _ e body => by
    simp [Statement.relocate, e.relocate_relocate, Block.relocate_relocate body]
  | .loop _ e body => by
    simp [Statement.relocate, e.relocate_relocate, Block.relocate_relocate body]

theorem Block.relocate_relocate :
    ∀ b : Block, Block.relocate g (Block.relocate f b) = Block.relocate (g ∘ f) b
  | [] => rfl
  | s :: ss => by
    simp [Block.relocate, Statement.relocate_relocate s, Block.relocate_relocate ss]

end

end ScopedScript
