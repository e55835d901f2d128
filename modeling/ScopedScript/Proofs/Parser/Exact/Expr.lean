import ScopedScript.Proofs.Parser.Grammar
import ScopedScript.Proofs.Syntax.Relocation

namespace ScopedScript

namespace Parser

variable {α β : Type}

theorem bind_done {p : Parser α} {g : α → Parser β} {us rest : List Token} {b : β} :
    (p >>= g) us = .done b rest ↔ ∃ a mid, p us = .done a mid ∧ g a mid = .done b rest := by
  rw [bind_apply]
  constructor
  · intro h
    split at h
    · exact ⟨_, _, ‹_›, h⟩
    · cases h
  · rintro ⟨a, mid, ha, hb⟩
    rw [ha]
    exact hb

@[simp] theorem bind_poll_cons (g : Option Token → Parser β) (t : Token) (us : List Token) :
    (poll >>= g) (t :: us) = g (some t) us := rfl

@[simp] theorem bind_peek (g : Option Token → Parser β) (us : List Token) :
    (peek >>= g) us = g us.head? us := rfl

theorem require_done {stop : Location} {r : Requirement} {us rest : List Token} {t : Token} :
    require stop r us = .done t rest ↔ us = t :: rest ∧ t.kind = r.kind := by
  unfold require expect
  cases us with
  | nil => simp
  | cons u us =>
    by_cases h : u.kind = r.kind
    · simp only [h, if_true, Parsed.done.injEq, List.cons.injEq]
      constructor
      · rintro ⟨rfl, rfl⟩
        exact ⟨⟨rfl, rfl⟩, h⟩
      · rintro ⟨⟨rfl, rfl⟩, -⟩
        exact ⟨rfl, rfl⟩
    · simp only [h, if_false, List.cons.injEq, reduceCtorEq, false_iff]
      rintro ⟨⟨rfl, rfl⟩, hk⟩
      exact h hk

@[simp] theorem require_cons {stop : Location} {r : Requirement} {t : Token} {us : List Token}
    (h : t.kind = r.kind) : require stop r (t :: us) = .done t us :=
  require_done.2 ⟨rfl, h⟩

theorem bind_of_done {p : Parser α} {us mid : List Token} {a : α} (h : p us = .done a mid)
    (g : α → Parser β) : (p >>= g) us = g a mid := by
  rw [bind_apply, h]

theorem bind_require_done {stop : Location} {r : Requirement} {g : Token → Parser β}
    {us rest : List Token} {b : β} : (require stop r >>= g) us = .done b rest ↔
      ∃ t mid, us = t :: mid ∧ t.kind = r.kind ∧ g t mid = .done b rest := by
  rw [bind_done]
  constructor
  · rintro ⟨t, mid, h, hg⟩
    obtain ⟨rfl, hk⟩ := require_done.1 h
    exact ⟨t, mid, rfl, hk, hg⟩
  · rintro ⟨t, mid, rfl, hk, hg⟩
    exact ⟨t, mid, require_cons hk, hg⟩

def headLevel (lexicon : Lexicon) (us : List Token) : Precedence :=
  (us.head?.map fun t => lexicon.level t.kind).getD .none

/-- The tokens `ts` are read as `a`, also at other places, if what follows them allows it. -/
def Reads (p : Location → Parser α) (move : (Location → Location) → α → α) (ts : List Token)
    (a : α) (follows : List Token → Prop) : Prop :=
  ∀ f stop vs, follows vs → p stop (ts.map (Token.relocate f) ++ vs) = .done (move f a) vs

def ExpressionReads (lexicon : Lexicon) (minimum : Precedence) (p : Location → Parser Expr) :
    Prop :=
  ∀ stop us e rest, p stop us = .done e rest → ∃ ts, us = ts ++ rest ∧
    ExprAt lexicon (minimum.rank + 1) ts e ∧ headLevel lexicon rest ≤ minimum ∧
    Reads p Expr.relocate ts e fun vs => headLevel lexicon vs ≤ minimum

theorem primary_literal {stop : Location} {group : Parser Expr} {t : Token} {v : Value}
    (h : t.literal? = some v) (us : List Token) :
    primary stop group (t :: us) = .done (.literal v) us := by
  rw [primary, bind_poll_cons]
  unfold Token.literal? at h
  split at h
  case h_6 => cases h
  all_goals
    rename_i hk
    cases h
    simp [hk]

theorem primary_name {stop : Location} {group : Parser Expr} {t : Token}
    (h : t.kind = .identifier) (us : List Token) :
    primary stop group (t :: us) = .done (.name t.toName) us := by
  rw [primary, bind_poll_cons]
  simp [h]

theorem primary_group {stop : Location} {group : Parser Expr} {t : Token}
    (h : t.kind = .leftParen) (us : List Token) :
    primary stop group (t :: us) = (do
      let e ← group
      let _ ← require stop .groupEnd
      pure e : Parser Expr) us := by
  rw [primary, bind_poll_cons]
  simp [h]

theorem primary_cases {stop : Location} {group : Parser Expr} {us rest : List Token} {e : Expr}
    (h : primary stop group us = .done e rest) : ∃ t mid, us = t :: mid ∧
      ((∃ v, t.literal? = some v ∧ e = .literal v ∧ rest = mid) ∨
        (t.kind = .identifier ∧ e = .name t.toName ∧ rest = mid) ∨
        t.kind = .leftParen ∧ ∃ r, r.kind = .rightParen ∧ group mid = .done e (r :: rest)) := by
  cases us with
  | nil => cases h
  | cons t mid =>
    refine ⟨t, mid, rfl, ?_⟩
    cases hl : t.literal? with
    | some v =>
      rw [primary_literal hl] at h
      cases h
      exact .inl ⟨v, rfl, rfl, rfl⟩
    | none =>
      right
      by_cases hn : t.kind = .identifier
      · rw [primary_name hn] at h
        cases h
        exact .inl ⟨hn, rfl, rfl⟩
      · right
        by_cases hp : t.kind = .leftParen
        · rw [primary_group hp] at h
          obtain ⟨e', us', hg, h⟩ := bind_done.1 h
          obtain ⟨r, us'', rfl, hk, h⟩ := bind_require_done.1 h
          cases h
          exact ⟨hp, r, hk, hg⟩
        · rw [primary, bind_poll_cons] at h
          unfold Token.literal? at hl
          cases hk : t.kind <;> simp_all [failAt, fail]

theorem primary_reads {lexicon : Lexicon} {group : Location → Parser Expr}
    (hr : lexicon.level .rightParen ≤ .assignment)
    (hg : ExpressionReads lexicon .assignment group) (stop : Location) (us : List Token) (e : Expr)
    (rest : List Token) (h : primary stop (group stop) us = .done e rest) :
    ∃ ts, us = ts ++ rest ∧ ExprAt lexicon Precedence.operand ts e ∧
      Reads (fun stop => primary stop (group stop)) Expr.relocate ts e fun _ => True := by
  obtain ⟨t, mid, rfl, ⟨v, hl, rfl, rfl⟩ | ⟨hn, rfl, rfl⟩ | ⟨hp, r, hk, h⟩⟩ := primary_cases h
  · refine ⟨[t], rfl, .literal hl, fun f stop vs _ => ?_⟩
    have moved : (t.relocate f).literal? = some v := hl
    exact primary_literal moved vs
  · refine ⟨[t], rfl, .name hn, fun f stop vs _ => ?_⟩
    have moved : (t.relocate f).kind = .identifier := hn
    exact primary_name moved vs
  · obtain ⟨ts, rfl, he, -, read⟩ := hg _ _ _ _ h
    refine ⟨t :: ts ++ [r], by simp, .group hp he hk, fun f stop vs _ => ?_⟩
    have closed : headLevel lexicon (r.relocate f :: vs) ≤ .assignment := by
      simpa [headLevel, hk] using hr
    have inner := read f stop (r.relocate f :: vs) closed
    have moved : (t.relocate f).kind = .leftParen := hp
    have read : primary stop (group stop)
        (t.relocate f :: (ts.map (Token.relocate f) ++ r.relocate f :: vs)) =
          .done (e.relocate f) vs := by
      rw [primary_group moved, bind_of_done inner]
      exact bind_require_done.2 ⟨_, _, rfl, hk, rfl⟩
    simpa using read

@[simp] theorem headLevel_cons (lexicon : Lexicon) (t : Token) (us : List Token) :
    headLevel lexicon (t :: us) = lexicon.level t.kind := rfl

section

variable {lexicon : Lexicon} {right : Precedence → Parser Expr} {minimum : Precedence}

theorem climb_stop {us : List Token} (h : headLevel lexicon us ≤ minimum) (bound : Nat)
    (left : Expr) : climb lexicon right minimum bound left us = .done left us := by
  cases bound with
  | zero => rfl
  | succ bound =>
    rw [climb, bind_peek]
    cases us with
    | nil => rfl
    | cons t us =>
      have h : lexicon.level t.kind ≤ minimum := h
      simp [h]

theorem climb_step {t : Token} (h : ¬ lexicon.level t.kind ≤ minimum) (bound : Nat) (left : Expr)
    (us : List Token) : climb lexicon right minimum (bound + 1) left (t :: us) =
      (right (lexicon.level t.kind) >>= fun e =>
        climb lexicon right minimum bound (left.infixNode t e)) us := by
  rw [climb, bind_peek]
  simp [h]

end

theorem climb_reads {lexicon : Lexicon} {right : Location → Precedence → Parser Expr}
    {minimum : Precedence} (hr : ∀ level, ExpressionReads lexicon level fun s => right s level)
    (stop : Location) (e : Expr) (rest : List Token) (bound : Nat) :
    ∀ (left : Expr) (us l : List Token) (k : Nat), ExprAt lexicon k l left →
      minimum.rank < k → (headLevel lexicon us).rank ≤ k → us.length ≤ bound →
      climb lexicon (right stop) minimum bound left us = .done e rest →
      ∃ ts, us = ts ++ rest ∧ ExprAt lexicon (minimum.rank + 1) (l ++ ts) e ∧
        headLevel lexicon rest ≤ minimum ∧
        ∀ f stop vs bound, headLevel lexicon vs ≤ minimum → ts.length ≤ bound →
          climb lexicon (right stop) minimum bound (left.relocate f)
            (ts.map (Token.relocate f) ++ vs) = .done (e.relocate f) vs := by
  -- what is read so far is of a rank `k` above the minimum, and no operator of a higher rank
  -- follows: right operands take those
  induction bound with
  | zero =>
    intro left us l k hl hk _ hb h
    obtain rfl := List.length_eq_zero_iff.1 (Nat.le_zero.1 hb)
    cases h
    refine ⟨[], rfl, by simpa using hl.of_le hk, Nat.zero_le _, ?_⟩
    exact fun f stop vs bound hvs _ => climb_stop hvs bound _
  | succ bound ih =>
    intro left us l k hl hk hus hb h
    by_cases hstop : headLevel lexicon us ≤ minimum
    · rw [climb_stop hstop] at h
      cases h
      refine ⟨[], rfl, by simpa using hl.of_le hk, hstop, ?_⟩
      exact fun f stop vs bound hvs _ => climb_stop hvs bound _
    · cases us with
      | nil => exact absurd (Nat.zero_le _) hstop
      | cons t us =>
        have hlevel : ¬ lexicon.level t.kind ≤ minimum := hstop
        rw [climb_step hlevel] at h
        obtain ⟨er, mid, hright, hmore⟩ := bind_done.1 h
        obtain ⟨rs, rfl, her, hmid, read⟩ := hr _ _ _ _ _ hright
        -- the operand so far becomes the left one of a node, from which the climb goes on
        have node := ExprAt.node (hl.of_le hus) rfl her
        simp only [List.length_cons, List.length_append] at hb
        obtain ⟨ts, rfl, he, hrest, more⟩ :=
          ih _ mid _ _ node (Nat.lt_of_not_le hlevel) hmid (by omega) hmore
        refine ⟨t :: rs ++ ts, by simp, by simpa using he, hrest, ?_⟩
        intro f stop vs bound hvs hbound
        obtain ⟨bound, rfl⟩ : ∃ n, bound = n + 1 := ⟨bound - 1, by simp at hbound; omega⟩
        have hmid' :
            headLevel lexicon (ts.map (Token.relocate f) ++ vs) ≤ lexicon.level t.kind := by
          cases ts with
          | nil => exact Nat.le_trans hvs (Nat.le_of_not_le hlevel)
          | cons u ts => exact hmid
        have first : right stop (lexicon.level (t.relocate f).kind) (rs.map (Token.relocate f) ++
            (ts.map (Token.relocate f) ++ vs)) = _ := read f stop _ hmid'
        have moved : ¬ lexicon.level (t.relocate f).kind ≤ minimum := hlevel
        simp only [List.cons_append, List.map_cons, List.map_append, List.append_assoc]
        rw [climb_step moved, bind_of_done first, ← Expr.relocate_infixNode]
        refine more f stop vs bound hvs ?_
        simp at hbound
        omega

theorem operand_sign {lexicon : Lexicon} {stop : Location} {depth : Nat} {t : Token}
    (h : t.kind = .minus ∨ t.kind = .bang) (us : List Token) :
    operand lexicon stop (depth + 1) (t :: us) =
      (operand lexicon stop depth >>= fun e => pure (.unary t e)) us := by
  rw [operand, bind_peek]
  simp [h]

theorem operand_primary {lexicon : Lexicon} {stop : Location} {depth : Nat} {us : List Token}
    (h : ∀ t, us.head? = some t → ¬ (t.kind = .minus ∨ t.kind = .bang)) :
    operand lexicon stop (depth + 1) us =
      primary stop (expression lexicon stop depth .assignment) us := by
  rw [operand, bind_peek]
  cases us with
  | nil => rfl
  | cons t us =>
    have h := h t rfl
    simp [h]

def OperandReads (lexicon : Lexicon) (p : Location → Parser Expr) : Prop :=
  ∀ stop us e rest, p stop us = .done e rest → ∃ ts, us = ts ++ rest ∧
    ExprAt lexicon Precedence.operand ts e ∧ Reads p Expr.relocate ts e fun _ => True

theorem expression_reads_of {lexicon : Lexicon} {depth : Nat}
    (hop : OperandReads lexicon fun stop => operand lexicon stop depth)
    (hex : ∀ minimum,
      ExpressionReads lexicon minimum fun stop => expression lexicon stop depth minimum)
    (minimum : Precedence) :
    ExpressionReads lexicon minimum fun stop => expression lexicon stop (depth + 1) minimum := by
  intro stop us e rest h
  simp only [expression] at h
  obtain ⟨left, mid, hleft, hclimb⟩ := bind_done.1 h
  obtain ⟨l, rfl, hl, readl⟩ := hop _ _ _ _ hleft
  obtain ⟨ts, rfl, he, hrest, readt⟩ := climb_reads hex stop e rest mid.length left mid l
    Precedence.operand hl (Precedence.rank_lt_operand _)
    (Nat.le_of_lt (Precedence.rank_lt_operand _)) (Nat.le_refl _) hclimb
  refine ⟨l ++ ts, by simp, he, hrest, ?_⟩
  intro f stop vs hvs
  have first : operand lexicon stop depth
      (l.map (Token.relocate f) ++ (ts.map (Token.relocate f) ++ vs)) = _ := readl f stop _ trivial
  simp only [expression, List.map_append, List.append_assoc]
  exact bind_done.2 ⟨_, _, first, readt f stop vs _ hvs (by simp)⟩

theorem operand_reads_of {lexicon : Lexicon} {depth : Nat}
    (hr : lexicon.level .rightParen ≤ .assignment)
    (hop : OperandReads lexicon fun stop => operand lexicon stop depth)
    (hex : ExpressionReads lexicon .assignment fun stop =>
      expression lexicon stop depth .assignment) :
    OperandReads lexicon fun stop => operand lexicon stop (depth + 1) := by
  intro stop us e rest h
  dsimp only at h
  by_cases hp : ∃ t mid, us = t :: mid ∧ (t.kind = .minus ∨ t.kind = .bang)
  · obtain ⟨t, mid, rfl, hk⟩ := hp
    rw [operand_sign hk] at h
    obtain ⟨e', us', he', hpure⟩ := bind_done.1 h
    cases hpure
    obtain ⟨ts, rfl, he, read⟩ := hop _ _ _ _ he'
    refine ⟨t :: ts, rfl, .unary hk he, fun f stop vs hvs => ?_⟩
    have first : operand lexicon stop depth (ts.map (Token.relocate f) ++ vs) = _ :=
      read f stop vs hvs
    have moved : (t.relocate f).kind = .minus ∨ (t.relocate f).kind = .bang := hk
    simp only [List.map_cons, List.cons_append]
    rw [operand_sign moved, bind_of_done first]
    rfl
  · have hp : ∀ t, us.head? = some t → ¬ (t.kind = .minus ∨ t.kind = .bang) := by
      intro t ht hk
      cases us with
      | nil => cases ht
      | cons u us =>
        cases ht
        exact hp ⟨_, _, rfl, hk⟩
    rw [operand_primary hp] at h
    obtain ⟨ts, rfl, he, read⟩ := primary_reads hr hex _ _ _ _ h
    obtain ⟨t, us, rfl⟩ := he.exists_cons
    refine ⟨t :: us, rfl, he, fun f stop vs hvs => ?_⟩
    have moved : ∀ u, ((t :: us).map (Token.relocate f) ++ vs).head? = some u →
        ¬ (u.kind = .minus ∨ u.kind = .bang) := by
      rintro u ⟨⟩
      exact hp t rfl
    dsimp only
    rw [operand_primary moved]
    exact read f stop vs hvs

theorem expression_reads {lexicon : Lexicon} (hr : lexicon.level .rightParen ≤ .assignment)
    (depth : Nat) :
    (OperandReads lexicon fun stop => operand lexicon stop depth) ∧
      ∀ minimum, ExpressionReads lexicon minimum fun stop =>
        expression lexicon stop depth minimum := by
  induction depth with
  | zero => 
    exact ⟨fun _ _ _ _ h => by simp [operand, fail] at h,
      fun _ _ _ _ _ h => by simp [expression, fail] at h⟩
  | succ depth ih =>
    exact ⟨operand_reads_of hr ih.1 (ih.2 _), expression_reads_of ih.1 ih.2⟩

end Parser

end ScopedScript
