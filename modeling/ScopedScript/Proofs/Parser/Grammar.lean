import ScopedScript.Parser.Statement

/-!
# The grammar

`ExprAt lexicon k` has a rule for each production of the ladder of levels: an expression of rank `k`
is one of rank `k + 1`, followed by any number of operators of rank `k` with operands of rank
`k + 1`. Behind the last level come operands. `Derives` has the productions of statements, and
`DerivesAll` is a sequence of them, of which empty ones leave nothing.
-/

namespace ScopedScript

def Precedence.lowest : Nat := Precedence.assignment.rank + 1

def Precedence.operand : Nat := Precedence.primary.rank + 1

theorem Precedence.rank_lt_operand (p : Precedence) : p.rank < Precedence.operand := by
  cases p <;> decide

def Token.literal? (t : Token) : Option Value :=
  match t.kind with
  | .wordTrue => some (.bool true)
  | .wordFalse => some (.bool false)
  | .wordNull => some .null
  | .number | .text => some t.value
  | _ => none

inductive ExprAt (lexicon : Lexicon) : (rank : Nat) → List Token → Expr → Prop
  | literal {t : Token} {v : Value} : t.literal? = some v →
    ExprAt lexicon Precedence.operand [t] (.literal v)
  | name {t : Token} : t.kind = .identifier →
    ExprAt lexicon Precedence.operand [t] (.name t.toName)
  | group {l r : Token} {ts : List Token} {e : Expr} :
    l.kind = .leftParen → ExprAt lexicon Precedence.lowest ts e → r.kind = .rightParen →
    ExprAt lexicon Precedence.operand (l :: ts ++ [r]) e
  | unary {t : Token} {ts : List Token} {e : Expr} : t.kind = .minus ∨ t.kind = .bang →
    ExprAt lexicon Precedence.operand ts e →
    ExprAt lexicon Precedence.operand (t :: ts) (.unary t e)
  | node {k : Nat} {l r : List Token} {op : Token} {left right : Expr} :
    ExprAt lexicon k l left → (lexicon.level op.kind).rank = k → ExprAt lexicon (k + 1) r right →
    ExprAt lexicon k (l ++ op :: r) (left.infixNode op right)
  | next {k : Nat} {ts : List Token} {e : Expr} :
    ExprAt lexicon (k + 1) ts e → ExprAt lexicon k ts e

namespace ExprAt

variable {lexicon : Lexicon} {j k : Nat} {ts : List Token} {e : Expr}

theorem of_le (h : ExprAt lexicon k ts e) (hjk : j ≤ k) : ExprAt lexicon j ts e := by
  induction hjk with
  | refl => exact h
  | step _ ih => exact ih h.next

theorem exists_cons (h : ExprAt lexicon k ts e) : ∃ t us, ts = t :: us := by
  induction h with
  | literal _ => exact ⟨_, _, rfl⟩
  | name _ => exact ⟨_, _, rfl⟩
  | group _ _ _ _ => exact ⟨_, _, rfl⟩
  | unary _ _ _ => exact ⟨_, _, rfl⟩
  | node _ _ _ ih _ =>
    obtain ⟨t, us, rfl⟩ := ih
    exact ⟨_, _, rfl⟩
  | next _ ih => exact ih

theorem ne_nil (h : ExprAt lexicon k ts e) : ts ≠ [] := by
  obtain ⟨t, us, rfl⟩ := h.exists_cons
  exact List.cons_ne_nil t us

end ExprAt

inductive ExprsAt (lexicon : Lexicon) : List Token → List Expr → Prop
  | nil : ExprsAt lexicon [] []
  | cons {ts us : List Token} {e : Expr} {es : List Expr} :
    ExprAt lexicon Precedence.lowest ts e → ExprsAt lexicon us es →
    ExprsAt lexicon (ts ++ us) (e :: es)

mutual

inductive Derives (lexicon : Lexicon) : List Token → Option Statement → Prop
  | method {var name l r opener closer : Token} {parameters ts : List Token} {body : Block} :
    var.kind = .wordVar → name.kind = .identifier → l.kind = .leftParen →
    (∀ p ∈ parameters, p.kind = .identifier) → r.kind = .rightParen →
    opener.kind = .leftBrace → DerivesAll lexicon ts body → closer.kind = .rightBrace →
    Derives lexicon (var :: name :: l :: parameters ++ r :: opener :: ts ++ [closer])
      (some (.method name.toName (parameters.map Token.lexeme) body))
  | initialized {var name equal : Token} {ts : List Token} {e : Expr} :
    var.kind = .wordVar → name.kind = .identifier → equal.kind = .equal →
    ExprAt lexicon Precedence.lowest ts e →
    Derives lexicon (var :: name :: equal :: ts) (some (.declare name.toName (some e)))
  | declare {var name semicolon : Token} :
    var.kind = .wordVar → name.kind = .identifier → semicolon.kind = .semicolon →
    Derives lexicon [var, name, semicolon] (some (.declare name.toName none))
  | assign {name equal : Token} {ts : List Token} {e : Expr} :
    name.kind = .identifier → equal.kind = .equal → ExprAt lexicon Precedence.lowest ts e →
    Derives lexicon (name :: equal :: ts) (some (.assign name.toName e))
  | call {name l r : Token} {ts : List Token} {es : List Expr} :
    name.kind = .identifier → l.kind = .leftParen → ExprsAt lexicon ts es →
    r.kind = .rightParen →
    Derives lexicon (name :: l :: ts ++ [r]) (some (.call name.toName es))
  | branch {word opener closer : Token} {cs ts : List Token} {e : Expr} {body : Block} :
    word.kind = .wordIf → ExprAt lexicon Precedence.lowest cs e → opener.kind = .leftBrace →
    DerivesAll lexicon ts body → closer.kind = .rightBrace →
    Derives lexicon (word :: cs ++ opener :: ts ++ [closer])
      (some (.branch word.location e body))
  | loop {word opener closer : Token} {cs ts : List Token} {e : Expr} {body : Block} :
    word.kind = .wordWhile → ExprAt lexicon Precedence.lowest cs e → opener.kind = .leftBrace →
    DerivesAll lexicon ts body → closer.kind = .rightBrace →
    Derives lexicon (word :: cs ++ opener :: ts ++ [closer])
      (some (.loop word.location e body))
  | empty {semicolon : Token} : semicolon.kind = .semicolon → Derives lexicon [semicolon] none

inductive DerivesAll (lexicon : Lexicon) : List Token → Block → Prop
  | nil : DerivesAll lexicon [] []
  | cons {ts us : List Token} {s : Option Statement} {b : Block} :
    Derives lexicon ts s → DerivesAll lexicon us b →
    DerivesAll lexicon (ts ++ us) (s.toList ++ b)

end

theorem DerivesAll.one {lexicon : Lexicon} {ts : List Token} {s : Option Statement}
    (h : Derives lexicon ts s) : DerivesAll lexicon ts s.toList := by
  simpa using DerivesAll.cons h .nil

theorem DerivesAll.ended {lexicon : Lexicon} {ts ss : List Token} {s : Option Statement}
    (h : Derives lexicon ts s) (hs : ss = [] ∨ ∃ t, t.kind = .semicolon ∧ ss = [t]) :
    DerivesAll lexicon (ts ++ ss) s.toList := by
  rcases hs with rfl | ⟨t, ht, rfl⟩
  · simpa using DerivesAll.one h
  · simpa using DerivesAll.cons h (.one (.empty ht))

theorem DerivesAll.append {lexicon : Lexicon} {ts us : List Token} {b c : Block}
    (h : DerivesAll lexicon ts b) (h' : DerivesAll lexicon us c) :
    DerivesAll lexicon (ts ++ us) (b ++ c) := by
  match h with
  | .nil => exact h'
  | .cons first rest => simpa using DerivesAll.cons first (rest.append h')

end ScopedScript
