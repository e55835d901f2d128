import ScopedScript.Proofs.Expr.Quotable
import ScopedScript.Proofs.Number.Signed

namespace ScopedScript

def Token.minus : Token := ⟨.minus, "-", .null, {}⟩

namespace Value

def isWhole : Value → Bool
  | number x => (Number.whole? x).isSome
  | _ => true

def intExpr (n : Int) : Expr :=
  let size := .literal (.number (Number.ofNat n.natAbs))
  if n < 0 then .unary .minus size else size

def expr : Value → Expr
  | number x => intExpr ((Number.whole? x).getD 0)
  | v => .literal v

theorem expr_number {x : Float} {n : Int} (h : Number.whole? x = some n) :
    (number x).expr = intExpr n := by
  rw [expr, h, Option.getD_some]

end Value

namespace Expr

open Lexicon

theorem makes_text {s : String} (h : '"' ∉ s.toList) : standard.Makes (Value.text s).token :=
  ⟨⟨.text, '"' :: (s.toList ++ ['"']), {}⟩, '"', s.toList ++ ['"'], s.toList.length + 1,
    token?_quoted s {}, by rw [List.take_of_length_le (by simp)], munch_quoted h []⟩

theorem makes_minus : standard.Makes .minus :=
  ⟨⟨.fixed .minus, ['-'], {}⟩, '-', [], 0, by decide +kernel, rfl, by decide +kernel⟩

end Expr

namespace Value

variable {v : Value}

theorem printable_intExpr {n : Int} (h : Number.natBits n.natAbs < Number.infinityBits) :
    (intExpr n).Printable := by
  have size := Expr.Printable.literal (Expr.makes_number h)
  unfold intExpr
  split
  · exact .unary (.inl rfl) Expr.makes_minus size
  · exact size

theorem printable_expr (quotable : v.Quotable) (whole : v.isWhole) : v.expr.Printable := by
  cases v with
  | null => exact .literal Expr.makes_null
  | bool b => exact .literal (Expr.makes_bool b)
  | text s => exact .literal (Expr.makes_text quotable)
  | number x =>
    obtain ⟨n, hn⟩ := Option.isSome_iff_exists.1 whole
    rw [expr_number hn]
    exact printable_intExpr (Number.beq_of_whole? hn).1

theorem render_intExpr {n : Int}
    (h : Number.whole? (Number.ofNat n.natAbs) = some (n.natAbs : Int)) :
    (intExpr n).render = Number.intText n := by
  have size : (Expr.literal (.number (Number.ofNat n.natAbs))).render =
      String.ofList (Number.natDigits n.natAbs) := by
    simp only [Expr.render, render, toText, numberText, h]
    rfl
  cases n with
  | ofNat n => exact size
  | negSucc n =>
    apply String.toList_inj.1
    simpa [intExpr, Int.negSucc_lt_zero, Expr.render, Expr.parenthesized, Expr.isInfix,
      Token.minus, Number.intText] using congrArg String.toList size

theorem render_expr (whole : v.isWhole) : v.expr.render = v.render := by
  cases v with
  | number x =>
    obtain ⟨n, hn⟩ := Option.isSome_iff_exists.1 whole
    rw [expr_number hn, render_intExpr (Number.beq_of_whole? hn).2.1]
    simp [render, toText, numberText, hn]
  | _ => rfl

theorem length_written_expr (v : Value) : v.expr.written.length ≤ 2 := by
  cases v with
  | number x =>
    rw [expr, intExpr]
    split <;> simp [Expr.written, Expr.grouped, Expr.isInfix]
  | _ => simp [expr, Expr.written]

/-- What the text of a value gives: the value again, but for the sign of a zero. -/
def reread : Value → Value
  | number x =>
    let n := (Number.whole? x).getD 0
    let size := Number.ofNat n.natAbs
    number (if n < 0 then -size else size)
  | v => v

theorem value_expr (v : Value) (view : View Value) : v.expr.value view = .ok v.reread := by
  cases v with
  | number x =>
    rw [expr, intExpr, reread]
    split <;> rfl
  | _ => rfl

theorem equals_self (number : ¬ v.isNaN) : v.equals v := by
  cases v with
  | null => rfl
  | bool b => exact beq_self_eq_true b
  | text s => exact beq_self_eq_true s
  | number x =>
    rw [isNaN, Float.isNaN_eq_decide_eq_nan, decide_eq_true_iff] at number
    exact Float.beq_self_iff.2 number

theorem equals_reread (whole : v.isWhole) : v.equals v.reread := by
  cases v with
  | null => rfl
  | bool b => exact beq_self_eq_true b
  | text s => exact beq_self_eq_true s
  | number x =>
    obtain ⟨n, hn⟩ := Option.isSome_iff_exists.1 whole
    rw [reread, hn]
    exact (Number.beq_of_whole? hn).2.2

end Value

end ScopedScript
