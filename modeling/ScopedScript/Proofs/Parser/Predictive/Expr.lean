import ScopedScript.Proofs.Parser.Ladder
import ScopedScript.Proofs.Parser.Predictive

namespace ScopedScript

namespace Parser

section

variable {lexicon : Lexicon} {stop : Location}

theorem begins_exprAt {k : Nat} (hk : k ≤ Precedence.operand) : Begins (ExprAt lexicon k) [] :=
  ⟨[⟨.identifier, "", .null, {}⟩], _, (ExprAt.name rfl).of_le hk⟩

theorem begins_minimum (minimum : Precedence) :
    Begins (ExprAt lexicon (minimum.rank + 1)) [] :=
  begins_exprAt (Precedence.rank_lt_operand minimum)

theorem primary_refuses {group : Parser Expr} {t : Token} (hl : t.literal? = none)
    (hn : t.kind ≠ .identifier) (hp : t.kind ≠ .leftParen) (us : List Token) :
    primary stop group (t :: us) =
      .failed (.ofCause (.noExpression t.lexeme) t.location) us := by
  rw [primary, bind_poll_cons]
  unfold Token.literal? at hl
  cases hk : t.kind <;> simp_all [failAt, fail]

theorem primary_predicts {room : Nat} {group : Parser Expr}
    (hg : Predictive room stop (ExprAt lexicon Precedence.lowest) group) (us : List Token) :
    Predicts (room + 2 ≤ 2 * us.length) stop (ExprAt lexicon Precedence.operand)
      (primary stop group) us := by
  have begins : Begins (ExprAt lexicon Precedence.operand) [] := begins_exprAt (Nat.le_refl _)
  cases us with
  | nil => exact .refuses_end .expressionMissing begins rfl ⟨[], rfl⟩
  | cons t us =>
    by_cases hp : t.kind = .leftParen
    · refine Predictive.behind ?_ (primary_group hp) us
      refine hg.bind fun ts e he => .require_bind fun r hr => .pure ?_
      exact ExprAt.group hp he hr
    · cases hl : t.literal? with
      | some v => exact .takes [t] rfl (.literal hl) fun vs _ => primary_literal hl vs
      | none =>
        by_cases hn : t.kind = .identifier
        · exact .takes [t] rfl (.name hn) fun vs _ => primary_name hn vs
        · refine .refuses_head (.noExpression t.lexeme) begins rfl fun vs => ⟨vs, ?_⟩
          exact primary_refuses hl hn hp vs

end

section

variable {lexicon : Lexicon} {stop : Location} {right : Precedence → Parser Expr}
  {minimum : Precedence}

theorem climb_bound (hr : ∀ level, Shortens (right level)) (bound bound' : Nat) :
    ∀ (left : Expr) (us : List Token), us.length ≤ bound → us.length ≤ bound' →
      climb lexicon right minimum bound left us = climb lexicon right minimum bound' left us := by
  induction bound generalizing bound' with
  | zero =>
    intro left us hb hb'
    obtain rfl := List.length_eq_zero_iff.1 (Nat.le_zero.1 hb)
    rw [climb_stop (Nat.zero_le _), climb_stop (Nat.zero_le _)]
  | succ bound ih =>
    intro left us hb hb'
    by_cases hstop : headLevel lexicon us ≤ minimum
    · rw [climb_stop hstop, climb_stop hstop]
    · cases us with
      | nil => exact absurd (Nat.zero_le _) hstop
      | cons t us =>
        obtain ⟨bound', rfl⟩ : ∃ n, bound' = n + 1 := ⟨bound' - 1, by simp at hb'; omega⟩
        simp only [List.length_cons, Nat.add_le_add_iff_right] at hb hb'
        rw [climb_step hstop, climb_step hstop, bind_apply, bind_apply]
        cases he : right (lexicon.level t.kind) us with
        | failed f rest => rfl
        | done e rest =>
          have shorter := hr _ us e rest he
          exact ih bound' _ rest (by omega) (by omega)

theorem climbAll_step (hr : ∀ level, Shortens (right level)) {t : Token}
    (h : ¬ lexicon.level t.kind ≤ minimum) (left : Expr) (us : List Token) :
    climbAll lexicon right minimum left (t :: us) =
      (right (lexicon.level t.kind) >>= fun e =>
        climbAll lexicon right minimum (left.infixNode t e)) us := by
  rw [climbAll, List.length_cons, climb_step h, bind_apply, bind_apply]
  cases he : right (lexicon.level t.kind) us with
  | failed f rest => rfl
  | done e rest => exact climb_bound hr _ _ _ rest (hr _ us e rest he) (Nat.le_refl _)

theorem climbAll_predicts {room : Nat}
    (hr : ∀ level, Predictive room stop (ExprAt lexicon (level.rank + 1)) (right level))
    (hstop : ∀ level us e rest, right level us = .done e rest → headLevel lexicon rest ≤ level)
    (size : Nat) : ∀ (left : Expr) (us l : List Token) (k : Nat), us.length ≤ size →
      ExprAt lexicon k l left → minimum.rank < k → (headLevel lexicon us).rank ≤ k →
      Predicts (room + 2 ≤ 2 * us.length) stop
        (fun vs => ExprAt lexicon (minimum.rank + 1) (l ++ vs))
        (climbAll lexicon right minimum left) us := by
  have shortens (level : Precedence) : Shortens (right level) :=
    fun us e rest h => (hr level).shortens h
  have stays (left : Expr) (us l : List Token) (k : Nat) (hl : ExprAt lexicon k l left)
      (hk : minimum.rank < k) (hus : headLevel lexicon us ≤ minimum) :
      Predicts (room + 2 ≤ 2 * us.length) stop
        (fun vs => ExprAt lexicon (minimum.rank + 1) (l ++ vs))
        (climbAll lexicon right minimum left) us := by
    refine .stays (by simpa using hl.of_le hk) fun vs hv => climb_stop ?_ _ left
    rw [headLevel, hv]
    exact hus
  -- as in `climb_reads`, what is read so far is of a rank above the minimum
  induction size with
  | zero =>
    intro left us l k hsize hl hk _
    obtain rfl := List.length_eq_zero_iff.1 (Nat.le_zero.1 hsize)
    exact stays left [] l k hl hk (Nat.zero_le _)
  | succ size ih =>
    intro left us l k hsize hl hk hus
    by_cases hm : headLevel lexicon us ≤ minimum
    · exact stays left us l k hl hk hm
    · cases us with
      | nil => exact absurd (Nat.zero_le _) hm
      | cons t us =>
        have above : ¬ lexicon.level t.kind ≤ minimum := hm
        simp only [List.length_cons, Nat.add_le_add_iff_right] at hsize
        refine .cons ?_ fun vs => climbAll_step shortens above left vs
        have node (rs : List Token) (er : Expr)
            (her : ExprAt lexicon ((lexicon.level t.kind).rank + 1) rs er) :
            ExprAt lexicon (lexicon.level t.kind).rank (l ++ t :: rs) (left.infixNode t er) :=
          .node (hl.of_le hus) rfl her
        have operand : Predicts (room + 2 ≤ 2 * (t :: us).length) stop
            (ExprAt lexicon ((lexicon.level t.kind).rank + 1)) (right (lexicon.level t.kind)) us :=
          ((hr _).predicts us).mono (fun hroom => by simp; omega) fun _ _ h => h
        refine operand.bind (fun rs er her => ?_) fun rs rest er hrest her hdone => ?_
        · refine ⟨[], left.infixNode t er, ?_⟩
          simpa using (node rs er her).of_le (Nat.lt_of_not_le above)
        · have more := ih (left.infixNode t er) rest (l ++ t :: rs) _
            (Nat.le_trans (shortens _ us er rest hdone) hsize) (node rs er her)
            (Nat.lt_of_not_le above) (hstop _ us er rest hdone)
          refine more.mono (fun hroom => ?_) fun vs e he => by simpa using he
          have := shortens _ us er rest hdone
          simp only [List.length_cons]
          omega

end

theorem expression_shortens (lexicon : Lexicon) (stop : Location) (depth : Nat)
    (minimum : Precedence) : Shortens (expression lexicon stop depth minimum) := by
  intro us e rest h
  rcases (expression_agree lexicon stop depth).2 us.length minimum us (Nat.le_refl _) with
    ⟨same, hrest⟩ | ⟨-, rest', hf⟩
  · exact hrest e rest (same ▸ h)
  · rw [hf] at h
    cases h

theorem expression_succ (lexicon : Lexicon) (stop : Location) (depth : Nat)
    (minimum : Precedence) : expression lexicon stop (depth + 1) minimum =
      (operand lexicon stop depth >>=
        climbAll lexicon (expression lexicon stop depth) minimum) := by
  rw [expression]
  rfl

theorem expression_headLevel {lexicon : Lexicon} {stop : Location} {depth : Nat}
    {minimum : Precedence} {us rest : List Token} {e : Expr}
    (h : expression lexicon stop depth minimum us = .done e rest) :
    headLevel lexicon rest ≤ minimum := by
  cases depth with
  | zero =>
    rw [expression] at h
    cases h
  | succ depth =>
    rw [expression_succ] at h
    obtain ⟨left, mid, -, hclimb⟩ := bind_done.1 h
    exact climb_done (expression_shortens lexicon stop depth) _ left mid e rest (Nat.le_refl _)
      hclimb

theorem expression_predictive (lexicon : Lexicon) (stop : Location) (depth : Nat) :
    Predictive depth stop (ExprAt lexicon Precedence.operand) (operand lexicon stop depth) ∧
    ∀ minimum, Predictive (depth - 1) stop (ExprAt lexicon (minimum.rank + 1))
      (expression lexicon stop depth minimum) := by
  induction depth with
  | zero =>
    refine ⟨?_, fun minimum => ?_⟩
    · rw [operand]
      exact .tooDeep (begins_exprAt (Nat.le_refl _))
    · rw [expression]
      exact .tooDeep (begins_minimum minimum)
  | succ depth ih =>
    refine ⟨⟨begins_exprAt (Nat.le_refl _), fun us => ?_⟩, fun minimum => ?_⟩
    · by_cases hs : ∃ t vs, us = t :: vs ∧ (t.kind = .minus ∨ t.kind = .bang)
      · obtain ⟨t, us, rfl, hk⟩ := hs
        have signed : Predictive depth stop
            (fun vs => ExprAt lexicon Precedence.operand (t :: vs))
            (operand lexicon stop depth >>= fun e => pure (.unary t e)) :=
          ih.1.bind fun ts e he => .pure (by simpa using ExprAt.unary hk he)
        exact (signed.behind (operand_sign hk) us).mono (fun hroom => by omega) fun _ _ h => h
      · have group := ih.2 .assignment
        refine ((primary_predicts group us).mono (fun hroom => by omega) fun _ _ h => h).congr ?_
        intro vs hv
        refine operand_primary fun t ht hk => hs ?_
        obtain ⟨ws, rfl⟩ := List.head?_eq_some_iff.1 (hv ▸ ht)
        exact ⟨t, ws, rfl, hk⟩
    · rw [expression_succ, Nat.add_sub_cancel]
      refine ih.1.bind fun l left hl => ⟨?_, fun us => ?_⟩
      · exact ⟨[], left, by simpa using hl.of_le (Precedence.rank_lt_operand minimum)⟩
      · have climbed := climbAll_predicts ih.2 (fun level _ _ _ h => expression_headLevel h)
          us.length left us l Precedence.operand (Nat.le_refl _) hl
          (Precedence.rank_lt_operand minimum) (Nat.le_of_lt (Precedence.rank_lt_operand _))
        exact climbed.mono (fun hroom => by omega) fun _ _ h => h

end Parser

end ScopedScript
