import Mathlib.Data.List.Infix
import ScopedScript.Expr.Eval

namespace ScopedScript

namespace TextOperand

/-- What is left of a text when the first occurrence of a part is taken out of it. -/
inductive TakenOut (part : List Char) : (text left : List Char) → Prop
  | nothing {text : List Char} : part = [] ∨ ¬ part <:+: text → TakenOut part text text
  | first (before after : List Char) : part ≠ [] →
    (∀ before' after', before ++ part ++ after = before' ++ part ++ after' →
      before.length ≤ before'.length) →
    TakenOut part (before ++ part ++ after) (before ++ after)

theorem TakenOut.cons {part text left : List Char} {c : Char} (h : TakenOut part text left)
    (hc : ¬ part <+: c :: text) : TakenOut part (c :: text) (c :: left) := by
  cases h with
  | nothing absent =>
    refine .nothing (absent.imp_right fun absent found => ?_)
    exact (List.infix_cons_iff.1 found).elim hc absent
  | first before after nonempty least =>
    refine .first (c :: before) after nonempty fun before' after' same => ?_
    cases before' with
    | nil => exact absurd ⟨after', same.symm⟩ hc
    | cons d before' =>
      exact Nat.succ_le_succ (least before' after' (List.cons.inj same).2)

theorem takenOut_withoutFirst (part text : List Char) :
    TakenOut part text (withoutFirst part text) := by
  by_cases nonempty : part = []
  · have whole : withoutFirst part text = text := by
      cases text <;> simp [withoutFirst, nonempty]
    rw [whole]
    exact .nothing (.inl nonempty)
  · induction text with
    | nil => exact .nothing (.inr fun found => nonempty (List.infix_nil.1 found))
    | cons c text ih =>
      rw [withoutFirst]
      split
      · rename_i starts
        obtain ⟨after, whole⟩ := List.isPrefixOf_iff_prefix.1 starts
        rw [← whole, List.drop_left]
        exact .first [] after nonempty fun _ _ _ => Nat.zero_le _
      · rename_i starts
        exact ih.cons fun h => starts (List.isPrefixOf_iff_prefix.2 h)

theorem withoutFirst_append (part rest : List Char) : withoutFirst part (part ++ rest) = rest := by
  cases part with
  | nil => cases rest <;> simp [withoutFirst]
  | cons c part =>
    have starts : (c :: part).isPrefixOf (c :: (part ++ rest)) :=
      List.isPrefixOf_iff_prefix.2 ⟨rest, rfl⟩
    rw [List.cons_append, withoutFirst, if_pos starts, ← List.cons_append, List.drop_left]

end TextOperand

open TextOperand

namespace Value

variable {v w : Value}

theorem applyBinary_of_text (op : Token) (h : v.text?.isSome ∨ w.text?.isSome) :
    v.applyBinary op w = v.textOperand.apply op w.textOperand := by
  cases v <;> cases w <;> first | rfl | simp [text?] at h

theorem applyBinary_plus {op : Token} (hop : op.kind = .plus)
    (h : v.text?.isSome ∨ w.text?.isSome) :
    v.applyBinary op w = .ok (.text (v.toText ++ w.toText)) := by
  rw [applyBinary_of_text op h, TextOperand.apply, hop]
  rfl

theorem applyBinary_minus {op : Token} (hop : op.kind = .minus)
    (h : v.text?.isSome ∨ w.text?.isSome) :
    v.applyBinary op w =
      .ok (.text (String.ofList (withoutFirst w.toText.toList v.toText.toList))) := by
  rw [applyBinary_of_text op h, TextOperand.apply, hop]
  rfl

end Value

namespace Expr

theorem evaluate_binary {α : Type} [Operand α] {view : View α} {room : Nat} {l r : Expr}
    {op : Token} {a b : α} (hl : l.evaluate view room = .ok a)
    (hr : r.evaluate view room = .ok b) :
    (Expr.binary l op r).evaluate view (room + 1) = Operand.applyBinary op a b := by
  rw [evaluate, hl, hr]

/-- Of two values, one of them a text, the difference is what is left of the one when the other is
taken out of it. What is added to a value is left when the value is taken away again. -/
theorem text_difference {add sub : Token} (hadd : add.kind = .plus) (hsub : sub.kind = .minus)
    {v w : Value} (h : v.text?.isSome ∨ w.text?.isSome) :
    (∃ s, v.applyBinary sub w = .ok (.text s) ∧
      TakenOut w.toText.toList v.toText.toList s.toList) ∧
    ∀ (view : View Value) (room : Nat) (l r : Expr), l.depth ≤ room →
      l.evaluate view room = .ok v → r.evaluate view room = .ok w →
      (Expr.binary (.binary l add r) sub l).evaluate view (room + 2) = .ok (.text w.toText) := by
  constructor
  · refine ⟨_, Value.applyBinary_minus hsub h, ?_⟩
    rw [String.toList_ofList]
    exact takenOut_withoutFirst _ _
  · intro view room l r depth hl hr
    have sum : (Expr.binary l add r).evaluate view (room + 1) =
        .ok (.text (v.toText ++ w.toText)) :=
      (evaluate_binary hl hr).trans (Value.applyBinary_plus hadd h)
    have hl' : l.evaluate view (room + 1) = .ok v := by
      rwa [evaluate_congr_room view (Nat.le_succ_of_le depth) depth]
    rw [evaluate_binary sum hl']
    refine (Value.applyBinary_minus hsub (.inl rfl)).trans ?_
    simp [Value.toText, withoutFirst_append]

theorem text_difference_overlapping :
    let add : Token := ⟨.plus, "+", .null, {}⟩
    let sub : Token := ⟨.minus, "-", .null, {}⟩
    let one : Value := .number (Number.ofNat 1)
    let ones : Value := .text "11"
    (Value.text "a1212").applyBinary sub (.text "121") = .ok (Value.text "a2") ∧
      TakenOut "121".toList "a1212".toList "a2".toList ∧ one.toText = "1" ∧
      (Expr.binary (.binary (.literal one) add (.literal ones)) sub (.literal one)).evaluate
        (fun _ => none) 3 = .ok ones := by
  intro add sub one ones
  have read : (Value.text "a1212").applyBinary sub (.text "121") = .ok (Value.text "a2") := by
    decide
  have difference (v w : Value) := @text_difference add sub rfl rfl v w
  obtain ⟨s, same, taken⟩ := (difference (.text "a1212") (.text "121") (.inl rfl)).1
  cases read.symm.trans same
  have left := (difference one ones (.inr rfl)).2 (fun _ => none) 1 (.literal one) (.literal ones)
  exact ⟨read, taken, by decide +kernel, left (Nat.le_refl 1) rfl rfl⟩

end Expr

end ScopedScript
