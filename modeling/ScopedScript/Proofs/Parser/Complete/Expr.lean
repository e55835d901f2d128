import ScopedScript.Proofs.Parser.Exact.Expr

/-!
# Derivable expressions are read

`Succeeds short p us Q`: on `us` the parser `p` ends with `Q`, or, if the room for nesting is
`short`, with the fault that says so. What matters for success is which tokens are operands and
which are operators between them, not how they group: `Pieces` keeps just this.
-/

namespace ScopedScript

namespace Parser

variable {α β : Type}

def Succeeds (short : Prop) (p : Parser α) (us : List Token) (Q : α → List Token → Prop) : Prop :=
  (∃ a rest, p us = .done a rest ∧ Q a rest) ∨
    short ∧ ∃ rest, p us = .failed (.fault (.tooDeep .source)) rest

namespace Succeeds

variable {short short' : Prop} {p : Parser α} {g : α → Parser β} {us rest : List Token}
  {Q Q' : α → List Token → Prop} {R : β → List Token → Prop} {a : α}

theorem of_done (h : p us = .done a rest) (hq : Q a rest) : Succeeds short p us Q :=
  .inl ⟨a, rest, h, hq⟩

theorem mono (h : Succeeds short p us Q) (hs : short → short')
    (hq : ∀ a rest, Q a rest → Q' a rest) : Succeeds short' p us Q' := by
  rcases h with ⟨a, rest, hp, ha⟩ | ⟨hshort, hp⟩
  · exact .inl ⟨a, rest, hp, hq a rest ha⟩
  · exact .inr ⟨hs hshort, hp⟩

theorem bind (h : Succeeds short p us Q)
    (hg : ∀ a rest, Q a rest → Succeeds short (g a) rest R) : Succeeds short (p >>= g) us R := by
  rcases h with ⟨a, rest, hp, ha⟩ | ⟨hshort, rest, hp⟩
  · have next := hg a rest ha
    rw [Succeeds, bind_of_done hp]
    exact next
  · exact .inr ⟨hshort, rest, by rw [bind_apply, hp]⟩

theorem congr {p' : Parser α} {us' : List Token} (h : Succeeds short p us Q)
    (hp : p' us' = p us) : Succeeds short p' us' Q := by
  rw [Succeeds, hp]
  exact h

end Succeeds

end Parser

/-! ## Chains of operands -/

theorem ExprAt.rank_le {lexicon : Lexicon} {k : Nat} {ts : List Token} {e : Expr}
    (h : ExprAt lexicon k ts e) : k ≤ Precedence.operand := by
  induction h with
  | literal _ => exact Nat.le_refl _
  | name _ => exact Nat.le_refl _
  | group _ _ _ _ => exact Nat.le_refl _
  | unary _ _ _ => exact Nat.le_refl _
  | node _ _ _ ih _ => exact ih
  | next _ ih => exact Nat.le_of_succ_le ih

theorem ExprAt.operand_cases {lexicon : Lexicon} {ts : List Token} {e : Expr}
    (h : ExprAt lexicon Precedence.operand ts e) :
    (∃ t v, ts = [t] ∧ t.literal? = some v) ∨ (∃ t, ts = [t] ∧ t.kind = .identifier) ∨
      (∃ l us r e', ts = l :: us ++ [r] ∧ l.kind = .leftParen ∧ r.kind = .rightParen ∧
        ExprAt lexicon Precedence.lowest us e') ∨
      ∃ t us e', ts = t :: us ∧ (t.kind = .minus ∨ t.kind = .bang) ∧
        ExprAt lexicon Precedence.operand us e' := by
  generalize hk : Precedence.operand = k at h
  cases h with
  | literal h => exact .inl ⟨_, _, rfl, h⟩
  | name h => exact .inr (.inl ⟨_, rfl, h⟩)
  | group hl h hr => exact .inr (.inr (.inl ⟨_, _, _, _, rfl, hl, hr, h⟩))
  | unary ht h => exact .inr (.inr (.inr ⟨_, _, _, rfl, ht, h⟩))
  | node _ hop _ => exact absurd (hop.trans hk.symm) (Nat.ne_of_lt (Precedence.rank_lt_operand _))
  | next h => exact absurd (hk ▸ h.rank_le) (Nat.not_succ_le_self _)

inductive Pieces (lexicon : Lexicon) : List Token → Prop
  | one {ts : List Token} {e : Expr} : ExprAt lexicon Precedence.operand ts e → Pieces lexicon ts
  | more {ts us : List Token} {op : Token} {e : Expr} :
    ExprAt lexicon Precedence.operand ts e → ¬ lexicon.level op.kind ≤ .assignment →
    Pieces lexicon us → Pieces lexicon (ts ++ op :: us)

theorem Pieces.append {lexicon : Lexicon} {ts us : List Token} {op : Token}
    (h : Pieces lexicon ts) (hop : ¬ lexicon.level op.kind ≤ .assignment)
    (h' : Pieces lexicon us) : Pieces lexicon (ts ++ op :: us) := by
  induction h with
  | one h => exact .more h hop h'
  | more h hop' _ ih =>
    rw [List.append_assoc, List.cons_append]
    exact .more h hop' ih

theorem ExprAt.pieces {lexicon : Lexicon} {k : Nat} {ts : List Token} {e : Expr}
    (h : ExprAt lexicon k ts e) (hk : Precedence.lowest ≤ k) : Pieces lexicon ts := by
  induction h with
  | literal h => exact .one (.literal h)
  | name h => exact .one (.name h)
  | group hl h hr _ => exact .one (.group hl h hr)
  | unary ht h _ => exact .one (.unary ht h)
  | @node k l r op left right _ hop _ ihl ihr =>
    have tighter : ¬ lexicon.level op.kind ≤ .assignment := by
      rw [← hop] at hk
      exact Nat.not_le_of_lt hk
    exact (ihl hk).append tighter (ihr (Nat.le_succ_of_le hk))
  | next _ ih => exact ih (Nat.le_succ_of_le hk)

inductive Tail (lexicon : Lexicon) : List Token → Prop
  | nil : Tail lexicon []
  | cons {op : Token} {us : List Token} : ¬ lexicon.level op.kind ≤ .assignment →
    Pieces lexicon us → Tail lexicon (op :: us)

theorem Pieces.cases_operand {lexicon : Lexicon} {ts : List Token} (h : Pieces lexicon ts) :
    ∃ os tail e, ts = os ++ tail ∧ ExprAt lexicon Precedence.operand os e ∧ Tail lexicon tail := by
  cases h with
  | one h => exact ⟨_, [], _, by simp, h, .nil⟩
  | more h hop h' => exact ⟨_, _, _, rfl, h, .cons hop h'⟩

theorem Tail.eq_nil {lexicon : Lexicon} {tail vs : List Token} (h : Tail lexicon tail)
    (hl : Parser.headLevel lexicon (tail ++ vs) ≤ .assignment) : tail = [] := by
  cases h with
  | nil => rfl
  | cons hop _ => exact absurd hl hop

theorem Token.not_sign_of_literal? {t : Token} {v : Value} (h : t.literal? = some v) :
    ¬ (t.kind = .minus ∨ t.kind = .bang) := by
  unfold literal? at h
  rintro (hk | hk) <;> rw [hk] at h <;> cases h

namespace Parser

variable {lexicon : Lexicon}

/-- What an expression leaves of the tokens `ts`: less than all, and nothing of a level above the
minimum. -/
def LeavesTail (lexicon : Lexicon) (minimum : Precedence) (ts vs : List Token) (_ : Expr)
    (rest : List Token) : Prop :=
  ∃ tail, Tail lexicon tail ∧ rest = tail ++ vs ∧ headLevel lexicon rest ≤ minimum ∧
    tail.length < ts.length

theorem climb_succeeds {short : Prop} {right : Precedence → Parser Expr} {minimum : Precedence}
    {vs : List Token} (hm : Precedence.assignment ≤ minimum)
    (hvs : headLevel lexicon vs ≤ .assignment) (size : Nat)
    (hr : ∀ us level, Pieces lexicon us → us.length < size → Precedence.assignment ≤ level →
      Succeeds short (right level) (us ++ vs) (LeavesTail lexicon level us vs)) (bound : Nat) :
    ∀ left tail, Tail lexicon tail → tail.length < size → (tail ++ vs).length ≤ bound →
      Succeeds short (climb lexicon right minimum bound left) (tail ++ vs) fun _ rest =>
        ∃ tail', Tail lexicon tail' ∧ rest = tail' ++ vs ∧ headLevel lexicon rest ≤ minimum ∧
          tail'.length < size := by
  induction bound with
  | zero =>
    intro left tail ht hsize hb
    have empty : tail ++ vs = [] := List.length_eq_zero_iff.1 (Nat.le_zero.1 hb)
    refine .of_done rfl ⟨tail, ht, rfl, ?_, hsize⟩
    rw [empty]
    exact Nat.zero_le _
  | succ bound ih =>
    intro left tail ht hsize hb
    by_cases hstop : headLevel lexicon (tail ++ vs) ≤ minimum
    · exact .of_done (climb_stop hstop _ left) ⟨tail, ht, rfl, hstop, hsize⟩
    · cases ht with
      | nil => exact absurd (Nat.le_trans hvs hm) hstop
      | @cons op us hop hus =>
        have level : ¬ lexicon.level op.kind ≤ minimum := hstop
        simp only [List.length_cons, List.length_append, List.cons_append] at hsize hb ⊢
        refine .congr ?_ (climb_step level bound left _)
        refine .bind (hr us _ hus (by omega) (Nat.le_of_not_le hop)) ?_
        rintro e rest ⟨tail', ht', rfl, -, hlen⟩
        exact ih _ tail' ht' (by omega) (by simp; omega)

theorem operand_succeeds {depth : Nat} {stop : Location}
    (hr : lexicon.level .rightParen ≤ .assignment)
    (hop : ∀ ts e vs, ExprAt lexicon Precedence.operand ts e →
      Succeeds (depth + 1 < 2 * ts.length) (operand lexicon stop depth) (ts ++ vs)
        fun _ rest => rest = vs)
    (hex : ∀ ts minimum vs, Pieces lexicon ts → Precedence.assignment ≤ minimum →
      headLevel lexicon vs ≤ .assignment →
      Succeeds (depth < 2 * ts.length) (expression lexicon stop depth minimum) (ts ++ vs)
        (LeavesTail lexicon minimum ts vs))
    (ts : List Token) (e : Expr) (vs : List Token) (h : ExprAt lexicon Precedence.operand ts e) :
    Succeeds (depth + 2 < 2 * ts.length) (operand lexicon stop (depth + 1)) (ts ++ vs)
      fun _ rest => rest = vs := by
  rcases h.operand_cases with ⟨t, v, rfl, hl⟩ | ⟨t, rfl, hk⟩ | ⟨l, us, r, e', rfl, hl, hk, h'⟩ |
    ⟨t, us, e', rfl, hk, h'⟩
  · have sign : ∀ u, ([t] ++ vs).head? = some u → ¬ (u.kind = .minus ∨ u.kind = .bang) := by
      rintro u ⟨⟩
      exact Token.not_sign_of_literal? hl
    exact .of_done ((operand_primary sign).trans (primary_literal hl vs)) rfl
  · have sign : ∀ u, ([t] ++ vs).head? = some u → ¬ (u.kind = .minus ∨ u.kind = .bang) := by
      rintro u ⟨⟩
      simp [hk]
    exact .of_done ((operand_primary sign).trans (primary_name hk vs)) rfl
  · have sign : ∀ u, (l :: us ++ [r] ++ vs).head? = some u →
        ¬ (u.kind = .minus ∨ u.kind = .bang) := by
      rintro u ⟨⟩
      simp [hl]
    have level : headLevel lexicon (r :: vs) ≤ .assignment := by
      rw [headLevel_cons, hk]
      exact hr
    have inner := hex us .assignment (r :: vs) (h'.pieces (Nat.le_refl _)) (Nat.le_refl _) level
    have tokens : l :: us ++ [r] ++ vs = l :: (us ++ r :: vs) := by simp
    refine .congr ?_ (operand_primary sign)
    rw [tokens]
    refine .congr ?_ (primary_group hl _)
    refine .bind (inner.mono (fun h => ?_) fun _ _ h => h) ?_
    · simp
      omega
    · rintro e rest ⟨tail, ht, rfl, hlevel, -⟩
      rw [ht.eq_nil hlevel, List.nil_append]
      exact .of_done (bind_require_done.2 ⟨r, vs, rfl, hk, rfl⟩) rfl
  · refine .congr ?_ (operand_sign hk _)
    refine .bind ((hop us e' vs h').mono (fun h => ?_) fun _ _ h => h) ?_
    · simp
      omega
    · rintro e rest rfl
      exact .of_done rfl rfl

theorem expression_succeeds_of {depth : Nat} {stop : Location}
    (hop : ∀ ts e vs, ExprAt lexicon Precedence.operand ts e →
      Succeeds (depth + 1 < 2 * ts.length) (operand lexicon stop depth) (ts ++ vs)
        fun _ rest => rest = vs)
    (hex : ∀ ts minimum vs, Pieces lexicon ts → Precedence.assignment ≤ minimum →
      headLevel lexicon vs ≤ .assignment →
      Succeeds (depth < 2 * ts.length) (expression lexicon stop depth minimum) (ts ++ vs)
        (LeavesTail lexicon minimum ts vs))
    (ts : List Token) (minimum : Precedence) (vs : List Token) (h : Pieces lexicon ts)
    (hm : Precedence.assignment ≤ minimum) (hvs : headLevel lexicon vs ≤ .assignment) :
    Succeeds (depth + 1 < 2 * ts.length) (expression lexicon stop (depth + 1) minimum) (ts ++ vs)
      (LeavesTail lexicon minimum ts vs) := by
  obtain ⟨os, tail, e, rfl, ho, ht⟩ := h.cases_operand
  obtain ⟨u, us, rfl⟩ := ho.exists_cons
  rw [expression, List.append_assoc]
  refine .bind ((hop _ e (tail ++ vs) ho).mono (fun h => ?_) fun _ _ h => h) ?_
  · simp at h ⊢
    omega
  · rintro left rest rfl
    refine climb_succeeds hm hvs _ (fun us' level hus hlen hlevel => ?_) _ left tail ht ?_ ?_
    · exact (hex us' level vs hus hlevel hvs).mono (fun h => by omega) fun _ _ h => h
    · grind
    · exact Nat.le_refl _

theorem expression_succeeds (hr : lexicon.level .rightParen ≤ .assignment) (stop : Location)
    (depth : Nat) :
    (∀ ts e vs, ExprAt lexicon Precedence.operand ts e →
      Succeeds (depth + 1 < 2 * ts.length) (operand lexicon stop depth) (ts ++ vs)
        fun _ rest => rest = vs) ∧
    ∀ ts minimum vs, Pieces lexicon ts → Precedence.assignment ≤ minimum →
      headLevel lexicon vs ≤ .assignment →
      Succeeds (depth < 2 * ts.length) (expression lexicon stop depth minimum) (ts ++ vs)
        (LeavesTail lexicon minimum ts vs) := by
  induction depth with
  | zero =>
    refine ⟨fun ts e vs h => .inr ⟨?_, _, rfl⟩, fun ts minimum vs h _ _ => .inr ⟨?_, _, rfl⟩⟩
    · obtain ⟨t, us, rfl⟩ := h.exists_cons
      simp
      omega
    · obtain ⟨os, tail, e, rfl, ho, -⟩ := h.cases_operand
      obtain ⟨t, us, rfl⟩ := ho.exists_cons
      simp
  | succ depth ih =>
    exact ⟨operand_succeeds hr ih.1 ih.2, expression_succeeds_of ih.1 ih.2⟩

theorem expression_accepts (hr : lexicon.level .rightParen ≤ .assignment) (stop : Location)
    (depth : Nat) {ts vs : List Token} (h : Pieces lexicon ts)
    (hvs : headLevel lexicon vs ≤ .assignment) :
    Succeeds (depth < 2 * ts.length) (expression lexicon stop depth .assignment) (ts ++ vs)
      fun _ rest => rest = vs := by
  refine ((expression_succeeds hr stop depth).2 ts .assignment vs h (Nat.le_refl _) hvs).mono id ?_
  rintro e rest ⟨tail, ht, rfl, hlevel, -⟩
  rw [ht.eq_nil hlevel, List.nil_append]

end Parser

end ScopedScript
