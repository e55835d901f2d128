import ScopedScript.Proofs.Parser.Exact.Expr

/-!
# The ladder of levels

A grammar with one layer for each level: a layer is a chain of the next tighter layer, with
operators of just its own level between the operands, joined from the left. Behind the tightest
level stands a primary with prefix operators in front of it. `layered` reads expressions layer by
layer, and precedence climbing, which has one loop for all levels, ends with the same result or the
same failure and leaves the same tokens, whatever the levels of the operators are:
`expression_agrees_layered`.
-/

namespace ScopedScript

def Precedence.above (minimum : Precedence) : List Precedence :=
  all.filter fun p => minimum.rank < p.rank

theorem Precedence.above_cases (m : Precedence) : m = .primary ∨
    ∃ next : Precedence, next.rank = m.rank + 1 ∧ m.above = next :: next.above := by
  cases m with
  | primary => exact .inl rfl
  | _ => exact .inr ⟨_, rfl, rfl⟩

namespace Parser

variable {α β : Type}

/-! ## Reading layer by layer -/

def joined (left : Expr) (link : Token × Expr) : Expr :=
  match link.1.kind with
  | .wordAnd | .wordOr => .logical left link.1 link.2
  | _ => .binary left link.1 link.2

def links (lexicon : Lexicon) (level : Precedence) (tighter : Parser Expr) :
    (bound : Nat) → Parser (List (Token × Expr))
  | 0 => pure []
  | bound + 1 => do
    match ← peek with
    | none => pure []
    | some operator =>
      if lexicon.level operator.kind = level then
        let _ ← poll
        let e ← tighter
        let more ← links lexicon level tighter bound
        pure ((operator, e) :: more)
      else pure []

def extend (lexicon : Lexicon) (level : Precedence) (tighter : Parser Expr) (first : Expr) :
    Parser Expr := fun ts =>
  (do
    let more ← links lexicon level tighter ts.length
    pure (more.foldl joined first) : Parser Expr) ts

def chain (lexicon : Lexicon) (level : Precedence) (tighter : Parser Expr) : Parser Expr := do
  let first ← tighter
  extend lexicon level tighter first

def isSign (t : Token) : Bool := t.kind == .minus || t.kind == .bang

def signs : Parser (List Token) := fun ts => .done (ts.takeWhile isSign) (ts.dropWhile isSign)

def signed (stop : Location) (group : Parser Expr) : Parser Expr := do
  let operators ← signs
  let e ← primary stop group
  pure (operators.foldr Expr.unary e)

def ladder (lexicon : Lexicon) (operand : Parser Expr) : List Precedence → Parser Expr
  | [] => operand
  | level :: tighter => chain lexicon level (ladder lexicon operand tighter)

/-- Reads an expression of the levels above `minimum` layer by layer. A group has fewer tokens than
the expression it stands in, so the other branch is never asked for: `layered_eq`. -/
def layered (lexicon : Lexicon) (stop : Location) (minimum : Precedence) : Parser Expr := fun ts =>
  let group : Parser Expr := fun us =>
    if us.length < ts.length then layered lexicon stop .assignment us
    else fail (.fault (.tooDeep .source)) us
  ladder lexicon (signed stop group) minimum.above ts
termination_by ts => ts.length

/-! ## Equal outcomes -/

/-- The same outcome, with at most `n` tokens left, or, if the room for nesting is `short`, the
fault that says so. -/
def Alike (short : Prop) (n : Nat) (x y : Parsed α) : Prop :=
  (x = y ∧ ∀ a rest, y = .done a rest → rest.length ≤ n) ∨
    short ∧ ∃ rest, x = .failed (.fault (.tooDeep .source)) rest

def AgreeWithin (short : Prop) (n : Nat) (p q : Parser α) : Prop :=
  ∀ us, us.length ≤ n → Alike short us.length (p us) (q us)

section

variable {short short' : Prop} {n k : Nat} {x y : Parsed α} {p q : Parser α} {f g : α → Parser β}
  {us : List Token}

theorem Alike.mono (h : Alike short k x y) (hs : short → short') (hk : k ≤ n) :
    Alike short' n x y := by
  rcases h with ⟨rfl, h⟩ | ⟨h, hx⟩
  · exact .inl ⟨rfl, fun a rest ha => Nat.le_trans (h a rest ha) hk⟩
  · exact .inr ⟨hs h, hx⟩

theorem Alike.done (a : α) (h : us.length ≤ n) : Alike short n (.done a us) (.done a us) := by
  refine .inl ⟨rfl, ?_⟩
  rintro a rest ⟨⟩
  exact h

theorem Alike.failed (e : Failure) : Alike short n (.failed e us : Parsed α) (.failed e us) :=
  .inl ⟨rfl, nofun⟩

theorem Alike.bind (h : Alike short n (p us) (q us))
    (hg : ∀ a rest, rest.length ≤ n → Alike short n (f a rest) (g a rest)) :
    Alike short n ((p >>= f) us) ((q >>= g) us) := by
  rw [bind_apply, bind_apply]
  rcases h with ⟨h, hrest⟩ | ⟨hshort, rest, h⟩
  · rw [h]
    cases hq : q us with
    | done a rest => exact hg a rest (hrest a rest hq)
    | failed e rest => exact .failed e
  · rw [h]
    exact .inr ⟨hshort, rest, rfl⟩

theorem AgreeWithin.mono (h : AgreeWithin short n p q) (hs : short → short') (hk : k ≤ n) :
    AgreeWithin short' k p q :=
  fun us hus => (h us (Nat.le_trans hus hk)).mono hs (Nat.le_refl _)

theorem Alike.cons {t : Token} (h : Alike short us.length x y) :
    Alike short (t :: us).length x y :=
  h.mono id (Nat.le_succ _)

theorem Alike.primary {stop : Location} {group group' : Parser Expr}
    (h : ∀ k, k < us.length → AgreeWithin short k group group') :
    Alike short us.length (Parser.primary stop group us) (Parser.primary stop group' us) := by
  cases us with
  | nil => exact .failed _
  | cons t us =>
    refine .cons ?_
    by_cases hp : t.kind = .leftParen
    · rw [primary_group hp, primary_group hp]
      refine .bind (h us.length (Nat.lt_succ_self _) us (Nat.le_refl _)) fun e rest hrest => ?_
      refine .bind (n := us.length) ?_ fun _ rest hrest => .done e hrest
      unfold require expect
      split
      · split
        · exact .done _ (Nat.le_of_succ_le hrest)
        · exact .failed _
      · exact .failed _
    · unfold Parser.primary
      rw [bind_poll_cons, bind_poll_cons]
      dsimp only
      generalize t.kind = kind at hp ⊢
      cases kind with
      | leftParen => exact absurd rfl hp
      | wordTrue | wordFalse | wordNull | number | text | identifier =>
        exact .done _ (Nat.le_refl _)
      | _ => exact .failed _

section

variable {lexicon : Lexicon} {level : Precedence} {tighter : Parser Expr}

theorem links_stop {us : List Token} (h : headLevel lexicon us ≠ level) (bound : Nat) :
    links lexicon level tighter bound us = .done [] us := by
  cases bound with
  | zero => rfl
  | succ bound =>
    rw [links, bind_peek]
    cases us with
    | nil => rfl
    | cons t us =>
      have h : lexicon.level t.kind ≠ level := h
      simp [h]

theorem links_step {t : Token} (h : lexicon.level t.kind = level) (bound : Nat)
    (us : List Token) : links lexicon level tighter (bound + 1) (t :: us) = (do
      let e ← tighter
      let more ← links lexicon level tighter bound
      pure ((t, e) :: more)) us := by
  rw [links, bind_peek]
  simp [h]

end

theorem Alike.links {lexicon : Lexicon} {level : Precedence} {p q : Parser Expr} (bound : Nat) :
    ∀ us, AgreeWithin short us.length p q →
      Alike short us.length (links lexicon level p bound us) (links lexicon level q bound us) := by
  induction bound with
  | zero => exact fun us _ => .done [] (Nat.le_refl _)
  | succ bound ih =>
    intro us h
    cases us with
    | nil => exact .done [] (Nat.le_refl _)
    | cons t us =>
      by_cases hlevel : lexicon.level t.kind = level
      · rw [links_step hlevel, links_step hlevel]
        refine .cons (.bind (h us (Nat.le_succ _)) fun e rest hrest => ?_)
        have more := ih rest (h.mono id (Nat.le_succ_of_le hrest))
        exact .bind (more.mono id hrest) fun es rest hrest => .done _ hrest
      · have stops : headLevel lexicon (t :: us) ≠ level := hlevel
        rw [links_stop stops, links_stop stops]
        exact .done [] (Nat.le_refl _)

theorem AgreeWithin.chain {lexicon : Lexicon} {level : Precedence} {p q : Parser Expr}
    (h : AgreeWithin short n p q) :
    AgreeWithin short n (chain lexicon level p) (chain lexicon level q) := by
  intro us hus
  refine .bind (h us hus) fun first rest hrest => ?_
  have more : Alike short rest.length (links lexicon level p rest.length rest)
      (links lexicon level q rest.length rest) :=
    .links _ rest (h.mono id (Nat.le_trans hrest hus))
  exact .bind (more.mono id hrest) fun es rest hrest => .done _ hrest

theorem AgreeWithin.ladder {lexicon : Lexicon} {p q : Parser Expr} (h : AgreeWithin short n p q)
    (levels : List Precedence) :
    AgreeWithin short n (ladder lexicon p levels) (ladder lexicon q levels) := by
  induction levels with
  | nil => exact h
  | cons level tighter ih => exact ih.chain

theorem signed_apply (stop : Location) (group : Parser Expr) (us : List Token) :
    signed stop group us = (do
      let e ← primary stop group
      pure ((us.takeWhile isSign).foldr Expr.unary e)) (us.dropWhile isSign) := rfl

theorem Alike.signed {stop : Location} {group group' : Parser Expr}
    (h : ∀ k, k < us.length → AgreeWithin short k group group') :
    Alike short us.length (signed stop group us) (signed stop group' us) := by
  have hrest : (us.dropWhile isSign).length ≤ us.length := (List.dropWhile_suffix _).length_le
  have inner : Alike short (us.dropWhile isSign).length
      (Parser.primary stop group (us.dropWhile isSign))
      (Parser.primary stop group' (us.dropWhile isSign)) :=
    .primary fun k hk => h k (Nat.lt_of_lt_of_le hk hrest)
  rw [signed_apply, signed_apply]
  exact .bind (inner.mono id hrest) fun e rest hrest => .done _ hrest

end

/-! ## The layers of the grammar -/

theorem layered_agree (lexicon : Lexicon) (stop : Location) (n : Nat) (minimum : Precedence) :
    AgreeWithin False n (layered lexicon stop minimum)
      (ladder lexicon (signed stop (layered lexicon stop .assignment)) minimum.above) := by
  induction n using Nat.strongRecOn generalizing minimum with
  | ind n ih =>
    intro us hus
    rw [layered]
    refine AgreeWithin.ladder (fun vs hvs => ?_) _ us (Nat.le_refl _)
    refine .signed fun k hk ws hws => ?_
    -- a group has fewer tokens than the expression it stands in, so the guard changes nothing
    have shorter : ws.length < us.length := by omega
    rw [if_pos shorter]
    have group := ih ws.length (by omega) .assignment ws (Nat.le_refl _)
    rcases group with ⟨h, hrest⟩ | ⟨⟨⟩, -⟩
    exact .inl ⟨rfl, h ▸ hrest⟩

theorem layered_eq (lexicon : Lexicon) (stop : Location) (minimum : Precedence) :
    layered lexicon stop minimum =
      ladder lexicon (signed stop (layered lexicon stop .assignment)) minimum.above := by
  funext us
  rcases layered_agree lexicon stop us.length minimum us (Nat.le_refl _) with ⟨h, -⟩ | ⟨⟨⟩, -⟩
  exact h

/-! ## Climbing through the layers -/

theorem joined_eq (left : Expr) (t : Token) (right : Expr) :
    joined left (t, right) = left.infixNode t right := by
  unfold joined Expr.infixNode
  split <;> simp_all

def Shortens (p : Parser Expr) : Prop :=
  ∀ us e rest, p us = .done e rest → rest.length ≤ us.length

section

variable {lexicon : Lexicon} {level : Precedence} {tighter : Parser Expr}

theorem links_bound (ht : Shortens tighter) (bound bound' : Nat) : ∀ us : List Token,
    us.length ≤ bound → us.length ≤ bound' →
      links lexicon level tighter bound us = links lexicon level tighter bound' us := by
  induction bound generalizing bound' with
  | zero =>
    intro us hb hb'
    obtain rfl := List.length_eq_zero_iff.1 (Nat.le_zero.1 hb)
    cases bound' <;> rfl
  | succ bound ih =>
    intro us hb hb'
    cases us with
    | nil => cases bound' <;> rfl
    | cons t us =>
      obtain ⟨bound', rfl⟩ : ∃ n, bound' = n + 1 := ⟨bound' - 1, by simp at hb'; omega⟩
      simp only [List.length_cons, Nat.add_le_add_iff_right] at hb hb'
      by_cases h : lexicon.level t.kind = level
      · rw [links_step h, links_step h, bind_apply, bind_apply]
        cases he : tighter us with
        | failed e rest => rfl
        | done e rest =>
          have := ht us e rest he
          dsimp only
          rw [bind_apply, bind_apply, ih bound' rest (by omega) (by omega)]
      · have h : headLevel lexicon (t :: us) ≠ level := h
        rw [links_stop h, links_stop h]

theorem extend_stop {us : List Token} (h : headLevel lexicon us ≠ level) (first : Expr) :
    extend lexicon level tighter first us = .done first us := by
  rw [extend, bind_of_done (links_stop h _)]
  rfl

theorem extend_step (ht : Shortens tighter) {t : Token} (h : lexicon.level t.kind = level)
    (first : Expr) (us : List Token) : extend lexicon level tighter first (t :: us) =
      (tighter >>= fun e => extend lexicon level tighter (first.infixNode t e)) us := by
  rw [extend, List.length_cons, bind_apply, links_step h, bind_apply, bind_apply]
  cases he : tighter us with
  | failed e rest => rfl
  | done e rest =>
    dsimp only
    rw [extend, bind_apply, bind_apply,
      links_bound ht us.length rest.length rest (ht us e rest he) (Nat.le_refl _)]
    cases links lexicon level tighter rest.length rest with
    | failed e rest => rfl
    | done more rest => simp [joined_eq]

end

section

variable {lexicon : Lexicon} {right : Precedence → Parser Expr} {m : Precedence}

theorem climb_done (hr : ∀ level, Shortens (right level)) (bound : Nat) :
    ∀ (left : Expr) (us : List Token) (e : Expr) (rest : List Token), us.length ≤ bound →
      climb lexicon right m bound left us = .done e rest → headLevel lexicon rest ≤ m := by
  induction bound with
  | zero =>
    intro left us e rest hb h
    obtain rfl := List.length_eq_zero_iff.1 (Nat.le_zero.1 hb)
    cases h
    exact Nat.zero_le _
  | succ bound ih =>
    intro left us e rest hb h
    by_cases hstop : headLevel lexicon us ≤ m
    · rw [climb_stop hstop] at h
      cases h
      exact hstop
    · cases us with
      | nil => exact absurd (Nat.zero_le _) hstop
      | cons t us =>
        rw [climb_step hstop] at h
        obtain ⟨er, mid, hright, hmore⟩ := bind_done.1 h
        have := hr _ us er mid hright
        simp only [List.length_cons] at hb
        exact ih _ mid e rest (by omega) hmore

theorem climb_extend {next : Precedence} (hnext : next.rank = m.rank + 1)
    (hr : ∀ level, Shortens (right level))
    (hstop : ∀ us e rest, right next us = .done e rest → headLevel lexicon rest ≤ next)
    (bound : Nat) : ∀ (left : Expr) (us : List Token), us.length ≤ bound →
      climb lexicon right m bound left us =
        (climb lexicon right next bound left >>= extend lexicon next (right next)) us := by
  have above : ¬ next.rank ≤ m.rank := by omega
  induction bound with
  | zero =>
    intro left us hb
    obtain rfl := List.length_eq_zero_iff.1 (Nat.le_zero.1 hb)
    rfl
  | succ bound ih =>
    intro left us hb
    by_cases hm : headLevel lexicon us ≤ m
    · have other : headLevel lexicon us ≠ next := fun h => above (h ▸ hm)
      have hn : headLevel lexicon us ≤ next := Nat.le_trans hm (Nat.le_of_not_le above)
      rw [climb_stop hm, bind_of_done (climb_stop hn _ _), extend_stop other]
    · cases us with
      | nil => exact absurd (Nat.zero_le _) hm
      | cons t us =>
        simp only [List.length_cons, Nat.add_le_add_iff_right] at hb
        rw [climb_step hm]
        by_cases hn : headLevel lexicon (t :: us) ≤ next
        · -- an operator of just this level ends the first climb and is taken by the chain
          have level : lexicon.level t.kind = next :=
            Precedence.rank_injective (Nat.le_antisymm hn (hnext ▸ Nat.lt_of_not_le hm))
          rw [bind_of_done (climb_stop hn _ _), extend_step (hr next) level, level, bind_apply,
            bind_apply]
          cases he : right next us with
          | failed e rest => rfl
          | done e rest =>
            have shorter := hr next us e rest he
            dsimp only
            rw [ih _ rest (by omega), bind_of_done (climb_stop (hstop us e rest he) _ _)]
        · -- an operator of a higher level is taken by the first climb
          rw [bind_apply, bind_apply, climb_step hn, bind_apply]
          cases he : right (lexicon.level t.kind) us with
          | failed e rest => rfl
          | done e rest =>
            have shorter := hr _ us e rest he
            dsimp only
            rw [ih _ rest (by omega), bind_apply]

end

def climbAll (lexicon : Lexicon) (right : Precedence → Parser Expr) (minimum : Precedence)
    (left : Expr) : Parser Expr := fun ts => climb lexicon right minimum ts.length left ts

theorem layered_shortens (lexicon : Lexicon) (stop : Location) (minimum : Precedence) :
    Shortens (layered lexicon stop minimum) := by
  intro us e rest h
  rcases layered_agree lexicon stop us.length minimum us (Nat.le_refl _) with
    ⟨eq, hrest⟩ | ⟨⟨⟩, -⟩
  exact hrest e rest (eq ▸ h)

theorem layered_climb (lexicon : Lexicon) (stop : Location) (k : Nat) : ∀ minimum : Precedence,
    minimum.rank + k = Precedence.primary.rank →
      layered lexicon stop minimum = (signed stop (layered lexicon stop .assignment) >>=
        climbAll lexicon (layered lexicon stop) minimum) := by
  -- from the tightest level down; `k` levels lie above the minimum
  induction k with
  | zero =>
    intro m hm
    obtain rfl := Precedence.rank_injective hm
    have last (us : List Token) : headLevel lexicon us ≤ .primary :=
      Nat.le_of_lt_succ (Precedence.rank_lt_operand _)
    rw [layered_eq]
    funext us
    rw [bind_apply]
    change signed stop _ us = _
    cases signed stop (layered lexicon stop .assignment) us with
    | failed e rest => rfl
    | done e rest => exact (climb_stop (last rest) _ e).symm
  | succ k ih =>
    intro m hm
    obtain rfl | ⟨next, hnext, above⟩ := m.above_cases
    · omega
    · have climbed := ih next (by omega)
      have stops (us : List Token) (e : Expr) (rest : List Token)
          (h : layered lexicon stop next us = .done e rest) : headLevel lexicon rest ≤ next := by
        rw [climbed] at h
        obtain ⟨left, mid, -, hclimb⟩ := bind_done.1 h
        exact climb_done (layered_shortens lexicon stop) _ left mid e rest (Nat.le_refl _) hclimb
      rw [layered_eq, above]
      change chain lexicon next (ladder lexicon _ next.above) = _
      rw [← layered_eq]
      funext us
      rw [chain, bind_apply, climbed, bind_apply, bind_apply, ← climbed]
      cases signed stop (layered lexicon stop .assignment) us with
      | failed e rest => rfl
      | done left rest =>
        dsimp only
        exact ((climb_extend hnext (layered_shortens lexicon stop) stops _ left rest
          (Nat.le_refl _)).trans (bind_apply ..)).symm

/-! ## Room for nesting -/

section

variable {stop : Location} {group : Parser Expr}

theorem signed_sign {t : Token} (h : t.kind = .minus ∨ t.kind = .bang) (us : List Token) :
    signed stop group (t :: us) =
      (signed stop group >>= fun e => pure (.unary t e)) us := by
  have sign : isSign t = true := by simpa [isSign] using h
  rw [signed_apply, List.takeWhile_cons_of_pos sign, List.dropWhile_cons_of_pos sign, bind_apply,
    bind_apply, signed_apply, bind_apply]
  cases primary stop group (us.dropWhile isSign) <;> rfl

theorem signed_primary {us : List Token}
    (h : ∀ t, us.head? = some t → ¬ (t.kind = .minus ∨ t.kind = .bang)) :
    signed stop group us = primary stop group us := by
  have taken : us.takeWhile isSign = [] ∧ us.dropWhile isSign = us := by
    cases us with
    | nil => exact ⟨rfl, rfl⟩
    | cons t us =>
      have sign : ¬ isSign t = true := by simpa [isSign] using h t rfl
      exact ⟨List.takeWhile_cons_of_neg sign, List.dropWhile_cons_of_neg sign⟩
  rw [signed_apply, taken.1, taken.2, bind_apply]
  cases primary stop group us <;> rfl

end

theorem Alike.climb {short : Prop} {lexicon : Lexicon} {right right' : Precedence → Parser Expr}
    {m : Precedence} (bound : Nat) : ∀ (left : Expr) (us : List Token),
      (∀ level k, k < us.length → AgreeWithin short k (right level) (right' level)) →
      Alike short us.length (climb lexicon right m bound left us)
        (climb lexicon right' m bound left us) := by
  induction bound with
  | zero => exact fun left us _ => .done left (Nat.le_refl _)
  | succ bound ih =>
    intro left us h
    by_cases hstop : headLevel lexicon us ≤ m
    · rw [climb_stop hstop, climb_stop hstop]
      exact .done left (Nat.le_refl _)
    · cases us with
      | nil => exact absurd (Nat.zero_le _) hstop
      | cons t us =>
        rw [climb_step hstop, climb_step hstop]
        have operand := h (lexicon.level t.kind) us.length (Nat.lt_succ_self _) us (Nat.le_refl _)
        refine .cons (.bind operand fun e rest hrest => ?_)
        refine (ih _ rest fun level k hk => h level k ?_).mono id hrest
        exact Nat.lt_succ_of_lt (Nat.lt_of_lt_of_le hk hrest)

theorem expression_agree (lexicon : Lexicon) (stop : Location) (depth : Nat) :
    (∀ n, AgreeWithin (depth < 2 * n + 1) n (operand lexicon stop depth)
      (signed stop (layered lexicon stop .assignment))) ∧
    ∀ n minimum, AgreeWithin (depth < 2 * n + 2) n (expression lexicon stop depth minimum)
      (layered lexicon stop minimum) := by
  -- each group and each operator of a chain takes a token, and at most two levels of depth
  induction depth with
  | zero =>
    exact ⟨fun n us _ => .inr ⟨Nat.succ_pos _, us, by rw [operand]; rfl⟩,
      fun n minimum us _ => .inr ⟨Nat.succ_pos _, us, by rw [expression]; rfl⟩⟩
  | succ depth ih =>
    refine ⟨fun n us hus => ?_, fun n minimum us hus => ?_⟩
    · by_cases hs : ∃ t vs, us = t :: vs ∧ (t.kind = .minus ∨ t.kind = .bang)
      · obtain ⟨t, vs, rfl, hk⟩ := hs
        simp only [List.length_cons] at hus
        rw [operand_sign hk, signed_sign hk]
        have inner : Alike (depth + 1 < 2 * n + 1) vs.length (operand lexicon stop depth vs)
            (signed stop (layered lexicon stop .assignment) vs) :=
          (ih.1 vs.length vs (Nat.le_refl _)).mono (by omega) (Nat.le_refl _)
        exact .cons (.bind inner fun e rest hrest => .done _ hrest)
      · have hs : ∀ t, us.head? = some t → ¬ (t.kind = .minus ∨ t.kind = .bang) := by
          intro t ht hk
          obtain ⟨vs, rfl⟩ := List.head?_eq_some_iff.1 ht
          exact hs ⟨t, vs, rfl, hk⟩
        rw [operand_primary hs, signed_primary hs]
        exact .primary fun k hk => (ih.2 k .assignment).mono (by omega) (Nat.le_refl _)
    · have step : expression lexicon stop (depth + 1) minimum = (operand lexicon stop depth >>=
          climbAll lexicon (expression lexicon stop depth) minimum) := by
        rw [expression]
        rfl
      rw [step, layered_climb lexicon stop (Precedence.primary.rank - minimum.rank) minimum
        (Nat.add_sub_cancel' (Nat.le_of_lt_succ (Precedence.rank_lt_operand _)))]
      refine .bind ((ih.1 n us hus).mono (by omega) (Nat.le_refl _)) fun left rest hrest => ?_
      refine (Alike.climb _ left rest fun level k hk => ?_).mono id hrest
      exact (ih.2 k level).mono (by omega) (Nat.le_refl _)

/-- Precedence climbing reads the ladder of levels. `layered` has a chain for each level above the
minimum, a primary behind prefix operators under them, and groups that start above assignments.
Climbing ends with the same tree or the same failure and the same tokens left, for every table of
levels, every minimum and all tokens, unless the tokens nest deeper than there is room for; there
always is if the depth is twice the number of tokens and two more. -/
theorem expression_agrees_layered (lexicon : Lexicon) (stop : Location) :
    (∀ minimum, layered lexicon stop minimum =
      ladder lexicon (signed stop (layered lexicon stop .assignment)) minimum.above) ∧
    ∀ depth minimum ts,
      expression lexicon stop depth minimum ts = layered lexicon stop minimum ts ∨
        depth < 2 * ts.length + 2 ∧
          ∃ rest, expression lexicon stop depth minimum ts =
            .failed (.fault (.tooDeep .source)) rest := by
  refine ⟨layered_eq lexicon stop, fun depth minimum ts => ?_⟩
  have agree := (expression_agree lexicon stop depth).2 ts.length minimum ts (Nat.le_refl _)
  rcases agree with ⟨same, -⟩ | deep
  · exact .inl same
  · exact .inr deep

end Parser

end ScopedScript
