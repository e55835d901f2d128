import ScopedScript.Proofs.Parser.Exact.Expr

namespace ScopedScript

namespace Parser

section

variable {α : Type} {ends : Parser Bool} {one : Parser α} {us mid rest : List Token} {a : α}

theorem manyUntilWithin_true (h : ends us = .done true rest) (bound : Nat) :
    manyUntilWithin ends one (bound + 1) us = .done [] rest := by
  rw [manyUntilWithin, bind_of_done h]
  rfl

theorem manyUntilWithin_false (h : ends us = .done false us) (ho : one us = .done a mid)
    (bound : Nat) : manyUntilWithin ends one (bound + 1) us =
      (manyUntilWithin ends one bound >>= fun as => pure (a :: as)) mid := by
  rw [manyUntilWithin, bind_of_done h]
  exact bind_of_done ho _

theorem manyUntilWithin_cases {bound : Nat} {as : List α}
    (h : manyUntilWithin ends one (bound + 1) us = .done as rest) :
    (ends us = .done true rest ∧ as = []) ∨ ∃ us' a mid as', ends us = .done false us' ∧
      one us' = .done a mid ∧ manyUntilWithin ends one bound mid = .done as' rest ∧
      as = a :: as' := by
  obtain ⟨b, us', hends, h⟩ := bind_done.1 h
  cases b with
  | true =>
    cases h
    exact .inl ⟨hends, rfl⟩
  | false =>
    obtain ⟨a, mid, hone, hrest⟩ := bind_done.1 h
    obtain ⟨as', mid', hmany, hpure⟩ := bind_done.1 hrest
    cases hpure
    exact .inr ⟨us', a, mid, as', hends, hone, hmany, rfl⟩

end

/-! ## Arguments -/

theorem argumentsEnd_closes {t : Token} (h : t.kind = .rightParen) (us : List Token) :
    argumentsEnd (t :: us) = .done true (t :: us) := by
  simp [argumentsEnd, bind_apply, isNext, h]

theorem argumentsEnd_goes {us : List Token}
    (h : ∃ t us', us = t :: us' ∧ t.kind ≠ .rightParen) :
    argumentsEnd us = .done false us := by
  obtain ⟨t, us, rfl, hk⟩ := h
  simp [argumentsEnd, bind_apply, isNext, atEnd, hk]

theorem argumentsEnd_cases {us mid : List Token} {b : Bool} (h : argumentsEnd us = .done b mid) :
    mid = us ∧ (b = false → ∃ t us', us = t :: us' ∧ t.kind ≠ .rightParen) := by
  cases us with
  | nil =>
    cases h
    exact ⟨rfl, by simp⟩
  | cons t us =>
    by_cases hk : t.kind = .rightParen
    · rw [argumentsEnd_closes hk] at h
      cases h
      exact ⟨rfl, by simp⟩
    · rw [argumentsEnd_goes ⟨t, us, rfl, hk⟩] at h
      cases h
      exact ⟨rfl, fun _ => ⟨t, us, rfl, hk⟩⟩

theorem manyArguments_reads {lexicon : Lexicon} {expr : Location → Parser Expr}
    (hr : lexicon.level .rightParen ≤ .assignment)
    (he : ExpressionReads lexicon .assignment expr) (stop : Location) (rest : List Token)
    (bound : Nat) : ∀ (us : List Token) (es : List Expr), us.length < bound →
      manyUntilWithin argumentsEnd (expr stop) bound us = .done es rest →
      ∃ ts, us = ts ++ rest ∧ ExprsAt lexicon ts es ∧
        ∀ f stop r vs bound, r.kind = .rightParen → ts.length < bound →
          manyUntilWithin argumentsEnd (expr stop) bound
            (ts.map (Token.relocate f) ++ r :: vs) =
          .done (es.map (Expr.relocate f)) (r :: vs) := by
  induction bound with
  | zero => exact fun us es hb _ => absurd hb (Nat.not_lt_zero _)
  | succ bound ih =>
    intro us es hb h
    rcases manyUntilWithin_cases h with ⟨hend, rfl⟩ | ⟨us', e, mid, es', hend, hone, hmany, rfl⟩
    · obtain ⟨rfl, -⟩ := argumentsEnd_cases hend
      refine ⟨[], rfl, .nil, fun f stop r vs bound hk hb => ?_⟩
      obtain ⟨bound, rfl⟩ : ∃ n, bound = n + 1 := ⟨bound - 1, by omega⟩
      exact manyUntilWithin_true (argumentsEnd_closes hk vs) bound
    · obtain ⟨rfl, hgoes⟩ := argumentsEnd_cases hend
      obtain ⟨t, us, hus, hk⟩ := hgoes rfl
      obtain ⟨ts, rfl, het, hmid, read⟩ := he _ _ _ _ hone
      obtain ⟨u, ts, rfl⟩ := het.exists_cons
      cases hus
      obtain ⟨ts', rfl, hes, more⟩ := ih mid es' (by simp at hb; omega) hmany
      refine ⟨t :: ts ++ ts', by simp, .cons het hes, ?_⟩
      intro f stop r vs bound hr' hb'
      obtain ⟨bound, rfl⟩ : ∃ n, bound = n + 1 := ⟨bound - 1, by omega⟩
      have follows : headLevel lexicon (ts'.map (Token.relocate f) ++ r :: vs) ≤ .assignment := by
        cases ts' with
        | nil => simpa [hr'] using hr
        | cons u' ts' => exact hmid
      have first := read f stop _ follows
      have goes : argumentsEnd ((t :: ts).map (Token.relocate f) ++
          (ts'.map (Token.relocate f) ++ r :: vs)) = .done false _ :=
        argumentsEnd_goes ⟨_, _, rfl, hk⟩
      have rest := more f stop r vs bound hr' (by simp at hb'; omega)
      simp only [List.map_append, List.append_assoc]
      rw [manyUntilWithin_false goes first, bind_of_done rest]
      rfl

theorem arguments_reads {lexicon : Lexicon} {expr : Location → Parser Expr}
    (hr : lexicon.level .rightParen ≤ .assignment)
    (he : ExpressionReads lexicon .assignment expr) {stop : Location} {us rest : List Token}
    {es : List Expr} (h : arguments stop (expr stop) us = .done es rest) :
    ∃ ts r, us = ts ++ r :: rest ∧ ExprsAt lexicon ts es ∧ r.kind = .rightParen ∧
      Reads (fun stop => arguments stop (expr stop)) (fun f es => es.map (Expr.relocate f))
        (ts ++ [r]) es fun _ => True := by
  obtain ⟨es', us₁, hargs, h₁⟩ := bind_done.1 h
  obtain ⟨r, us₂, rfl, hk, h₂⟩ := bind_require_done.1 h₁
  cases h₂
  obtain ⟨ts, rfl, hes, read⟩ :=
    manyArguments_reads hr he stop _ _ us es (Nat.lt_succ_self _) hargs
  refine ⟨ts, r, rfl, hes, hk, fun f stop vs _ => ?_⟩
  have first : manyUntil argumentsEnd (expr stop) (ts.map (Token.relocate f) ++
      r.relocate f :: vs) = _ := read f stop (r.relocate f) vs _ hk (by grind)
  simp only [List.map_append, List.append_assoc]
  exact bind_done.2 ⟨_, _, first, bind_require_done.2 ⟨_, _, rfl, hk, rfl⟩⟩

/-! ## What follows a statement -/

def SameHead (us vs : List Token) : Prop := us.head?.map Token.kind = vs.head?.map Token.kind

theorem SameHead.headLevel_eq {us vs : List Token} (h : SameHead us vs) (lexicon : Lexicon) :
    headLevel lexicon vs = headLevel lexicon us := by
  cases us <;> cases vs <;> simp_all [SameHead]

theorem SameHead.forall_ne {us vs : List Token} (h : SameHead us vs) {kind : TokenKind}
    (hus : ∀ t, us.head? = some t → t.kind ≠ kind) : ∀ t, vs.head? = some t → t.kind ≠ kind := by
  cases us <;> cases vs <;> simp_all [SameHead]

/-- The tokens `ts` are read as `a` in front of `rest`, and where other tokens follow that are no
operator. Of these a semicolon may be taken along. -/
structure Ends {α : Type} (lexicon : Lexicon) (p : Location → Parser α)
    (move : (Location → Location) → α → α) (ts : List Token) (a : α) (rest : List Token) :
    Prop where
  same : Reads p move ts a fun vs => SameHead rest vs
  other (f : Location → Location) (stop : Location) (vs : List Token) :
    headLevel lexicon vs ≤ .assignment → ∃ vs',
      p stop (ts.map (Token.relocate f) ++ vs) = .done (move f a) vs' ∧
        (vs' = vs ∨ ∃ t, t.kind = .semicolon ∧ vs = t :: vs')

theorem Reads.ends {α : Type} {lexicon : Lexicon} {p : Location → Parser α}
    {move : (Location → Location) → α → α} {ts : List Token} {a : α}
    (h : Reads p move ts a fun _ => True) (rest : List Token) : Ends lexicon p move ts a rest :=
  ⟨fun f stop vs _ => h f stop vs trivial, fun f stop vs _ => ⟨vs, h f stop vs trivial, .inl rfl⟩⟩

theorem skip_cases {kind : TokenKind} {us rest : List Token} (h : skip kind us = .done () rest) :
    (∃ t, t.kind = kind ∧ us = t :: rest) ∨
      us = rest ∧ ∀ t, us.head? = some t → t.kind ≠ kind := by
  cases us with
  | nil =>
    cases h
    exact .inr ⟨rfl, by simp⟩
  | cons t us =>
    unfold skip at h
    by_cases hk : t.kind = kind
    · simp only [hk, if_true] at h
      cases h
      exact .inl ⟨t, hk, rfl⟩
    · simp only [hk, if_false] at h
      cases h
      exact .inr ⟨rfl, by simpa using hk⟩

theorem skip_takes {kind : TokenKind} {t : Token} (h : t.kind = kind) (us : List Token) :
    skip kind (t :: us) = .done () us := by
  simp [skip, h]

theorem skip_leaves {kind : TokenKind} {us : List Token}
    (h : ∀ t, us.head? = some t → t.kind ≠ kind) : skip kind us = .done () us := by
  cases us with
  | nil => rfl
  | cons t us =>
    have h := h t rfl
    simp [skip, h]

theorem ended_done {α : Type} {p : Parser α} {us rest : List Token} {a : α} :
    ended p us = .done a rest ↔
      ∃ mid, p us = .done a mid ∧ skip .semicolon mid = .done () rest := by
  constructor
  · intro h
    obtain ⟨a', mid, hp, h⟩ := bind_done.1 h
    obtain ⟨_, rest', hs, h⟩ := bind_done.1 h
    cases h
    exact ⟨mid, hp, hs⟩
  · rintro ⟨mid, hp, hs⟩
    exact bind_done.2 ⟨_, _, hp, bind_done.2 ⟨_, _, hs, rfl⟩⟩

theorem ended_ends {α : Type} {L : Lexicon} {p : Location → Parser α}
    {move : (Location → Location) → α → α} {follows : List Token → Prop}
    {ts mid rest : List Token} {a : α} (hread : Reads p move ts a follows)
    (hsemi : L.level .semicolon ≤ .assignment)
    (hsame : ∀ vs, SameHead mid vs → follows vs)
    (hother : ∀ vs, headLevel L vs ≤ .assignment → follows vs)
    (hskip : skip .semicolon mid = .done () rest) :
    ∃ ss, mid = ss ++ rest ∧ (ss = [] ∨ ∃ t, t.kind = .semicolon ∧ ss = [t]) ∧
      Ends L (fun stop => ended (p stop)) move (ts ++ ss) a rest := by
  have reads (f : Location → Location) (stop : Location) {us vs : List Token}
      (hus : follows us) (hs : skip .semicolon us = .done () vs) :
      ended (p stop) (ts.map (Token.relocate f) ++ us) = .done (move f a) vs :=
    ended_done.2 ⟨us, hread f stop us hus, hs⟩
  rcases skip_cases hskip with ⟨t, hk, rfl⟩ | ⟨rfl, hne⟩
  · refine ⟨[t], rfl, .inr ⟨t, hk, rfl⟩, Reads.ends (fun f stop vs _ => ?_) rest⟩
    have moved : (t.relocate f).kind = .semicolon := hk
    simp only [List.map_append, List.append_assoc]
    exact reads f stop (hother _ (by simpa [hk] using hsemi)) (skip_takes moved vs)
  · refine ⟨[], rfl, .inl rfl, fun f stop vs hvs => ?_, fun f stop vs hvs => ?_⟩
    · rw [List.append_nil]
      exact reads f stop (hsame vs hvs) (skip_leaves (hvs.forall_ne hne))
    · rw [List.append_nil]
      by_cases hsemi : ∃ t vs', vs = t :: vs' ∧ t.kind = .semicolon
      · obtain ⟨t, vs', rfl, hk⟩ := hsemi
        exact ⟨vs', reads f stop (hother _ hvs) (skip_takes hk vs'), .inr ⟨t, hk, rfl⟩⟩
      · have none : ∀ t, vs.head? = some t → t.kind ≠ .semicolon := by
          intro t ht hk
          cases vs with
          | nil => cases ht
          | cons v vs =>
            cases ht
            exact hsemi ⟨_, _, rfl, hk⟩
        exact ⟨vs, reads f stop (hother _ hvs) (skip_leaves none), .inl rfl⟩

theorem ended_expression {expr : Location → Parser Expr}
    (he : ExpressionReads .standard .assignment expr) {stop : Location} {us rest : List Token}
    {e : Expr} (h : ended (expr stop) us = .done e rest) : ∃ ts ss, us = ts ++ ss ++ rest ∧
      ExprAt .standard Precedence.lowest ts e ∧
      (ss = [] ∨ ∃ t, t.kind = .semicolon ∧ ss = [t]) ∧
      Ends .standard (fun stop => ended (expr stop)) Expr.relocate (ts ++ ss) e rest := by
  obtain ⟨mid, hexpr, hskip⟩ := ended_done.1 h
  obtain ⟨ts, rfl, het, hlevel, read⟩ := he _ _ _ _ hexpr
  have same (vs : List Token) (hvs : SameHead mid vs) :
      headLevel Lexicon.standard vs ≤ .assignment := by
    rw [hvs.headLevel_eq]
    exact hlevel
  obtain ⟨ss, rfl, hss, ends⟩ := ended_ends read (by decide) same (fun _ h => h) hskip
  exact ⟨ts, ss, by simp, het, hss, ends⟩

theorem Ends.behind {α β : Type} {lexicon : Lexicon} {q : Location → Parser α}
    {p : Location → Parser β} {move : (Location → Location) → α → α}
    {move' : (Location → Location) → β → β} {ts rest : List Token} {a : α} {b : β}
    (h : Ends lexicon q move ts a rest) (front : List Token)
    (hp : ∀ f stop vs vs', q stop (ts.map (Token.relocate f) ++ vs) = .done (move f a) vs' →
      p stop (front.map (Token.relocate f) ++ (ts.map (Token.relocate f) ++ vs)) =
        .done (move' f b) vs') :
    Ends lexicon p move' (front ++ ts) b rest := by
  constructor
  · intro f stop vs hvs
    rw [List.map_append, List.append_assoc]
    exact hp f stop vs vs (h.same f stop vs hvs)
  · intro f stop vs hvs
    obtain ⟨vs', hq, hvs'⟩ := h.other f stop vs hvs
    rw [List.map_append, List.append_assoc]
    exact ⟨vs', hp f stop vs vs' hq, hvs'⟩

/-! ## The forms of statements -/

def BlockReads (body : Location → Location → Parser Block) : Prop :=
  ∀ stop opener us b rest, body stop opener us = .done b rest → ∃ ts closer,
    us = ts ++ closer :: rest ∧ DerivesAll .standard ts b ∧ closer.kind = .rightBrace ∧
      ∀ f stop opener vs, body stop opener (ts.map (Token.relocate f) ++ closer.relocate f :: vs) =
        .done (Block.relocate f b) vs

theorem parameters_append {ts vs : List Token} (hts : ∀ t ∈ ts, t.kind = .identifier)
    (hvs : ∀ t, vs.head? = some t → t.kind ≠ .identifier) :
    parameters (ts ++ vs) = .done (ts.map Token.lexeme) vs := by
  have names : ∀ t ∈ ts, (t.kind == TokenKind.identifier) = true := by simpa using hts
  unfold parameters
  dsimp only
  rw [List.takeWhile_append_of_pos names, List.dropWhile_append_of_pos names]
  cases vs with
  | nil => simp
  | cons v vs =>
    have hv := hvs v rfl
    simp [hv]

theorem parameters_done {us rest : List Token} {names : List String}
    (h : parameters us = .done names rest) : ∃ ts, us = ts ++ rest ∧
      (∀ t ∈ ts, t.kind = .identifier) ∧ names = ts.map Token.lexeme := by
  cases h
  refine ⟨us.takeWhile fun t => t.kind == .identifier, ?_, fun t ht => ?_, rfl⟩
  · exact List.takeWhile_append_dropWhile.symm
  · have names := List.all_eq_true.1 (List.all_takeWhile (l := us)) t ht
    simpa using names

section

variable {stop : Location} {expr : Parser Expr} {body : Location → Parser Block} {name t : Token}

theorem declaration_paren (hn : name.kind = .identifier) (ht : t.kind = .leftParen)
    (us : List Token) : declaration stop expr body (name :: t :: us) = (do
      let names ← parameters
      let _ ← require stop .parametersEnd
      let opener ← require stop .methodBody
      let statements ← body opener.location
      pure (.method name.toName names statements) : Parser Statement) us := by
  rw [declaration, bind_of_done (require_cons (r := .variableName) hn), bind_poll_cons]
  simp [ht]

theorem declaration_equal (hn : name.kind = .identifier) (ht : t.kind = .equal)
    (us : List Token) : declaration stop expr body (name :: t :: us) =
      (ended expr >>= fun e => pure (.declare name.toName (some e))) us := by
  rw [declaration, bind_of_done (require_cons (r := .variableName) hn), bind_poll_cons]
  simp [ht]

theorem declaration_semicolon (hn : name.kind = .identifier) (ht : t.kind = .semicolon)
    (us : List Token) : declaration stop expr body (name :: t :: us) =
      .done (.declare name.toName none) us := by
  rw [declaration, bind_of_done (require_cons (r := .variableName) hn), bind_poll_cons]
  simp [ht]

theorem declaration_cases {us rest : List Token} {s : Statement}
    (h : declaration stop expr body us = .done s rest) : ∃ name t mid, us = name :: t :: mid ∧
      name.kind = .identifier ∧
      (t.kind = .leftParen ∨ t.kind = .equal ∨ t.kind = .semicolon) := by
  obtain ⟨name, mid, rfl, hn, h⟩ := bind_require_done.1 h
  cases mid with
  | nil => cases h
  | cons t mid =>
    refine ⟨name, t, mid, rfl, hn, ?_⟩
    rw [bind_poll_cons] at h
    cases hk : t.kind <;> simp [hk, failAt, fail] at h ⊢

theorem nameStatement_equal {name : Name} (ht : t.kind = .equal) (us : List Token) :
    nameStatement stop expr name (t :: us) =
      (ended expr >>= fun e => pure (.assign name e)) us := by
  rw [nameStatement, bind_poll_cons]
  simp [ht]

theorem nameStatement_paren {name : Name} (ht : t.kind = .leftParen) (us : List Token) :
    nameStatement stop expr name (t :: us) =
      (ended (arguments stop expr) >>= fun es => pure (.call name es)) us := by
  rw [nameStatement, bind_poll_cons]
  simp [ht]

theorem nameStatement_cases {us rest : List Token} {name : Name} {s : Statement}
    (h : nameStatement stop expr name us = .done s rest) : ∃ t mid, us = t :: mid ∧
      (t.kind = .equal ∨ t.kind = .leftParen) := by
  cases us with
  | nil => cases h
  | cons t mid =>
    refine ⟨t, mid, rfl, ?_⟩
    rw [nameStatement, bind_poll_cons] at h
    cases hk : t.kind <;> simp [hk, failAt, fail] at h ⊢

end

section

variable {expr : Location → Parser Expr} {body : Location → Location → Parser Block}

theorem declaration_reads (he : ExpressionReads .standard .assignment expr)
    (hb : BlockReads body) {stop : Location} {us rest : List Token} {s : Statement}
    (h : declaration stop (expr stop) (body stop) us = .done s rest) : ∃ ts, us = ts ++ rest ∧
      (∀ var, var.kind = .wordVar → DerivesAll .standard (var :: ts) [s]) ∧
      Ends .standard (fun stop => declaration stop (expr stop) (body stop)) Statement.relocate
        ts s rest := by
  obtain ⟨name, t, mid, rfl, hn, ht | ht | ht⟩ := declaration_cases h
  · rw [declaration_paren hn ht] at h
    obtain ⟨names, us₁, hps, h₁⟩ := bind_done.1 h
    obtain ⟨ps, rfl, hids, rfl⟩ := parameters_done hps
    obtain ⟨r, us₂, rfl, hr, h₂⟩ := bind_require_done.1 h₁
    obtain ⟨opener, us₃, rfl, ho, h₃⟩ := bind_require_done.1 h₂
    obtain ⟨b, us₄, hbody, h₄⟩ := bind_done.1 h₃
    cases h₄
    obtain ⟨ts, closer, rfl, hd, hc, read⟩ := hb _ _ _ _ _ hbody
    refine ⟨name :: t :: ps ++ r :: opener :: ts ++ [closer], by simp,
      fun var hv => .one (.method hv hn ht hids hr ho hd hc), Reads.ends ?_ _⟩
    intro f stop vs _
    have moved : (name.relocate f).kind = .identifier := hn
    have moved' : (t.relocate f).kind = .leftParen := ht
    have names : ∀ p ∈ ps.map (Token.relocate f), p.kind = .identifier := by simpa using hids
    have other : (r.relocate f).kind ≠ .identifier := by
      rw [Token.relocate_kind, hr]
      decide
    simp only [List.map_append, List.map_cons, List.map_nil, List.cons_append, List.append_assoc,
      List.nil_append]
    rw [declaration_paren moved moved']
    refine bind_done.2 ⟨_, _, parameters_append names (by simpa using other), ?_⟩
    refine bind_require_done.2 ⟨_, _, rfl, hr, bind_require_done.2 ⟨_, _, rfl, ho, ?_⟩⟩
    refine bind_done.2 ⟨_, _, read f stop _ vs, ?_⟩
    simp only [List.map_map, Statement.relocate]
    rfl
  · rw [declaration_equal hn ht] at h
    obtain ⟨e, us₁, hended, h₁⟩ := bind_done.1 h
    cases h₁
    obtain ⟨ts, ss, rfl, het, hss, ends⟩ := ended_expression he hended
    refine ⟨[name, t] ++ (ts ++ ss), by simp,
      fun var hv => .ended (.initialized hv hn ht het) hss, ends.behind _ ?_⟩
    intro f stop vs vs' hq
    have moved : (name.relocate f).kind = .identifier := hn
    have moved' : (t.relocate f).kind = .equal := ht
    refine (declaration_equal moved moved' _).trans ?_
    exact bind_done.2 ⟨_, _, hq, rfl⟩
  · rw [declaration_semicolon hn ht] at h
    cases h
    refine ⟨[name, t], rfl, fun var hv => .cons (.declare hv hn ht) .nil, Reads.ends ?_ _⟩
    intro f stop vs _
    have moved : (name.relocate f).kind = .identifier := hn
    have moved' : (t.relocate f).kind = .semicolon := ht
    exact declaration_semicolon moved moved' vs

theorem nameStatement_reads (he : ExpressionReads .standard .assignment expr) {n : Token}
    (hn : n.kind = .identifier) {stop : Location} {us rest : List Token} {s : Statement}
    (h : nameStatement stop (expr stop) n.toName us = .done s rest) : ∃ ts, us = ts ++ rest ∧
      DerivesAll .standard (n :: ts) [s] ∧ ∀ (p : Location → Parser (Option Statement)),
        (∀ f stop us rest s, nameStatement stop (expr stop) (n.relocate f).toName us =
          .done s rest → p stop (n.relocate f :: us) = .done (some s) rest) →
        Ends .standard p (fun f => Option.map (Statement.relocate f)) (n :: ts) (some s) rest := by
  obtain ⟨t, mid, rfl, ht | ht⟩ := nameStatement_cases h
  · rw [nameStatement_equal ht] at h
    obtain ⟨e, us₁, hended, h₁⟩ := bind_done.1 h
    cases h₁
    obtain ⟨ts, ss, rfl, het, hss, ends⟩ := ended_expression he hended
    refine ⟨t :: (ts ++ ss), by simp, .ended (.assign hn ht het) hss, fun p hp => ?_⟩
    refine ends.behind [n, t] fun f stop vs vs' hq => ?_
    have moved : (t.relocate f).kind = .equal := ht
    refine hp f stop _ _ _ ((nameStatement_equal moved _).trans ?_)
    exact bind_done.2 ⟨_, _, hq, rfl⟩
  · rw [nameStatement_paren ht] at h
    obtain ⟨es, us₁, hended, h₁⟩ := bind_done.1 h
    cases h₁
    obtain ⟨us₂, hargs, hskip⟩ := ended_done.1 hended
    obtain ⟨ts, r, rfl, hes, hr, read⟩ := arguments_reads (by decide) he hargs
    obtain ⟨ss, rfl, hss, ends⟩ :=
      ended_ends (L := .standard) read (by decide) (fun _ _ => trivial) (fun _ _ => trivial) hskip
    refine ⟨t :: (ts ++ [r] ++ ss), by simp, ?_, fun p hp => ?_⟩
    · simpa using DerivesAll.ended (.call hn ht hes hr) hss
    · refine ends.behind [n, t] fun f stop vs vs' hq => ?_
      have moved : (t.relocate f).kind = .leftParen := ht
      refine hp f stop _ _ _ ((nameStatement_paren moved _).trans ?_)
      exact bind_done.2 ⟨_, _, hq, rfl⟩

end

/-! ## Sequences of statements -/

structure EndTest {ι : Type} (ends : ι → Parser Bool) : Prop where
  goes {i : ι} {us mid : List Token} :
    ends i us = .done false mid → mid = us ∧ ∃ t us', us = t :: us'
  head {i j : ι} {t u : Token} {us vs : List Token} : ends i (t :: us) = .done false (t :: us) →
    u.kind = t.kind → ends j (u :: vs) = .done false (u :: vs)
  semicolon {i : ι} {t : Token} {us : List Token} : t.kind = .semicolon →
    ends i (t :: us) = .done false (t :: us)

structure StatementReads (one : Location → Parser (Option Statement)) : Prop where
  reads {stop : Location} {us : List Token} {s : Option Statement} {rest : List Token} :
    one stop us = .done s rest → ∃ t ts, us = t :: ts ++ rest ∧
      DerivesAll .standard (t :: ts) s.toList ∧
      Ends .standard one (fun f => Option.map (Statement.relocate f)) (t :: ts) s rest
  semicolon {stop stop' : Location} {us : List Token} {s : Option Statement} {rest : List Token}
    {t : Token} {vs : List Token} : one stop us = .done s rest → t.kind = .semicolon →
    one stop' (t :: vs) = .done none vs

def ReadsAs (ends : Parser Bool) (one : Parser (Option Statement)) (us : List Token) (b : Block)
    (rest : List Token) : Prop :=
  ∀ bound, us.length < bound → ∃ ss, manyUntilWithin ends one bound us = .done ss rest ∧
    ss.filterMap id = b

section

variable {ends : Parser Bool} {one : Parser (Option Statement)} {us mid rest : List Token}
  {s : Option Statement} {b : Block}

theorem ReadsAs.cons (h : ReadsAs ends one mid b rest) (hends : ends us = .done false us)
    (hone : one us = .done s mid) (hlen : mid.length < us.length) :
    ReadsAs ends one us (s.toList ++ b) rest := by
  intro bound hb
  obtain ⟨bound, rfl⟩ : ∃ n, bound = n + 1 := ⟨bound - 1, by omega⟩
  obtain ⟨ss, hss, rfl⟩ := h bound (by omega)
  refine ⟨s :: ss, ?_, by cases s <;> simp⟩
  rw [manyUntilWithin_false hends hone, bind_of_done hss]
  rfl

theorem ReadsAs.tail {t : Token} (h : ReadsAs ends one (t :: mid) b rest)
    (hends : ends (t :: mid) = .done false (t :: mid)) (hone : one (t :: mid) = .done none mid) :
    ReadsAs ends one mid b rest := by
  intro bound hb
  obtain ⟨ss, hss, rfl⟩ := h (bound + 1) (Nat.succ_lt_succ hb)
  rw [manyUntilWithin_false hends hone] at hss
  obtain ⟨ss', mid', hmany, hpure⟩ := bind_done.1 hss
  cases hpure
  exact ⟨ss', hmany, rfl⟩

end

theorem statements_reads {ι : Type} {ends : ι → Parser Bool}
    {one : Location → Parser (Option Statement)} (hends : EndTest ends)
    (hone : StatementReads one) (i : ι) (stop : Location) (rest : List Token) (bound : Nat) :
    ∀ (us : List Token) (ss : List (Option Statement)), us.length < bound →
      manyUntilWithin (ends i) (one stop) bound us = .done ss rest →
      ∃ ts mid, us = ts ++ mid ∧ ends i mid = .done true rest ∧
        DerivesAll .standard ts (ss.filterMap id) ∧
        ∀ f j stop vs b rest, headLevel .standard vs ≤ .assignment →
          ReadsAs (ends j) (one stop) vs b rest →
          ReadsAs (ends j) (one stop) (ts.map (Token.relocate f) ++ vs)
            (Block.relocate f (ss.filterMap id) ++ b) rest := by
  induction bound with
  | zero => exact fun us ss hb _ => absurd hb (Nat.not_lt_zero _)
  | succ bound ih =>
    intro us ss hb h
    rcases manyUntilWithin_cases h with ⟨hend, rfl⟩ | ⟨us', s, mid, ss', hend, hs, hmany, rfl⟩
    · exact ⟨[], us, rfl, hend, .nil, fun f j stop vs b rest _ h => h⟩
    · obtain ⟨rfl, -⟩ := hends.goes hend
      obtain ⟨t, ts, rfl, hd, here⟩ := hone.reads hs
      obtain ⟨ts', mid', rfl, hend', hd', more⟩ := ih mid ss' (by simp at hb; omega) hmany
      refine ⟨t :: ts ++ ts', mid', by simp, hend', ?_, ?_⟩
      · have := hd.append hd'
        cases s <;> simpa using this
      · intro f j stop vs b rest hvs hread
        have later := more f j stop vs b rest hvs hread
        have goes : ends j ((t :: ts).map (Token.relocate f) ++
            (ts'.map (Token.relocate f) ++ vs)) = .done false _ := hends.head hend rfl
        have block : Block.relocate f ((s :: ss').filterMap id) =
            (s.map (Statement.relocate f)).toList ++ Block.relocate f (ss'.filterMap id) := by
          cases s <;> rfl
        rw [block, List.map_append, List.append_assoc, List.append_assoc]
        -- how far the statement reads depends on the token behind it, which is another one only
        -- where no statement follows
        cases ts' with
        | cons u ts' =>
          have same : SameHead (u :: ts' ++ mid') ((u :: ts').map (Token.relocate f) ++ vs) := rfl
          exact later.cons goes (here.same f stop _ same) (by grind)
        | nil =>
          obtain ⟨vs', hone', rfl | ⟨u, hu, rfl⟩⟩ := here.other f stop vs hvs
          · exact later.cons goes hone' (by grind)
          · have skipped := later.tail (hends.semicolon hu) (hone.semicolon hs hu)
            exact skipped.cons goes hone' (by grind)

theorem closed_closes {stop opener : Location} {t : Token} (h : t.kind = .rightBrace)
    (us : List Token) : closed stop opener (t :: us) = .done true us := by
  simp [closed, bind_apply, isNext, poll, h]

theorem closed_goes {stop opener : Location} {t : Token} (h : t.kind ≠ .rightBrace)
    (us : List Token) : closed stop opener (t :: us) = .done false (t :: us) := by
  simp [closed, bind_apply, isNext, atEnd, h]

theorem closed_cases {stop opener : Location} {us mid : List Token} {b : Bool}
    (h : closed stop opener us = .done b mid) : ∃ t us', us = t :: us' ∧
      ((t.kind = .rightBrace ∧ b = true ∧ mid = us') ∨
        t.kind ≠ .rightBrace ∧ b = false ∧ mid = us) := by
  cases us with
  | nil => cases h
  | cons t us =>
    refine ⟨t, us, rfl, ?_⟩
    by_cases hk : t.kind = .rightBrace
    · rw [closed_closes hk] at h
      cases h
      exact .inl ⟨hk, rfl, rfl⟩
    · rw [closed_goes hk] at h
      cases h
      exact .inr ⟨hk, rfl, rfl⟩

theorem endTest_closed : EndTest fun i : Location × Location => closed i.1 i.2 where
  goes h := by
    obtain ⟨t, us', rfl, ⟨-, hb, -⟩ | ⟨-, -, rfl⟩⟩ := closed_cases h
    · cases hb
    · exact ⟨rfl, t, us', rfl⟩
  head h hk := by
    obtain ⟨t, us', hus, ⟨-, hb, -⟩ | ⟨hne, -, -⟩⟩ := closed_cases h
    · cases hb
    · cases hus
      exact closed_goes (hk ▸ hne) _
  semicolon hk := closed_goes (by rw [hk]; decide) _

theorem endTest_atEnd : EndTest fun _ : Unit => atEnd where
  goes {_ us mid} h := by
    cases us with
    | nil => cases h
    | cons t us =>
      cases h
      exact ⟨rfl, t, us, rfl⟩
  head _ _ := rfl
  semicolon _ := rfl

theorem block_reads {one : Location → Parser (Option Statement)} (hone : StatementReads one) :
    BlockReads fun stop opener => block stop (one stop) opener := by
  intro stop opener us b rest h
  obtain ⟨ss, mid, hmany, h⟩ := bind_done.1 h
  cases h
  obtain ⟨ts, mid, rfl, hend, hd, read⟩ := statements_reads endTest_closed hone (stop, opener) stop
    rest _ us ss (Nat.lt_succ_self _) hmany
  obtain ⟨closer, us', rfl, ⟨hc, -, rfl⟩ | ⟨-, hb, -⟩⟩ := closed_cases hend
  · refine ⟨ts, closer, rfl, hd, hc, fun f stop opener vs => ?_⟩
    have hc' : (closer.relocate f).kind = .rightBrace := hc
    have last : ReadsAs (closed stop opener) (one stop) (closer.relocate f :: vs) [] vs := by
      intro bound hb
      obtain ⟨bound, rfl⟩ : ∃ n, bound = n + 1 := ⟨bound - 1, by omega⟩
      exact ⟨[], manyUntilWithin_true (closed_closes hc' vs) bound, rfl⟩
    have level : headLevel Lexicon.standard (closer.relocate f :: vs) ≤ .assignment := by
      rw [headLevel_cons, hc']
      decide
    obtain ⟨ss', hss', hb⟩ := read f (stop, opener) stop _ [] vs level last _ (Nat.lt_succ_self _)
    rw [List.append_nil] at hb
    exact bind_done.2 ⟨ss', vs, hss', by rw [← hb]; rfl⟩
  · cases hb

theorem guarded_reads {expr : Location → Parser Expr}
    {body : Location → Location → Parser Block} (he : ExpressionReads .standard .assignment expr)
    (hb : BlockReads body) {opening : Requirement} (ho : opening.kind = .leftBrace)
    {stop : Location} {us rest : List Token} {e : Expr} {b : Block}
    (h : guarded stop opening (expr stop) (body stop) us = .done (e, b) rest) :
    ∃ cs opener ts closer, us = cs ++ opener :: ts ++ closer :: rest ∧
      ExprAt .standard Precedence.lowest cs e ∧ opener.kind = .leftBrace ∧
      DerivesAll .standard ts b ∧ closer.kind = .rightBrace ∧
      Reads (fun stop => guarded stop opening (expr stop) (body stop))
        (fun f c => (c.1.relocate f, Block.relocate f c.2)) (cs ++ opener :: ts ++ [closer]) (e, b)
        fun _ => True := by
  obtain ⟨e', us₁, hexpr, h₁⟩ := bind_done.1 h
  obtain ⟨opener, us₂, rfl, hk, h₂⟩ := bind_require_done.1 h₁
  obtain ⟨b', us₃, hbody, h₃⟩ := bind_done.1 h₂
  cases h₃
  obtain ⟨cs, rfl, hcs, -, read⟩ := he _ _ _ _ hexpr
  obtain ⟨ts, closer, rfl, hd, hc, read'⟩ := hb _ _ _ _ _ hbody
  refine ⟨cs, opener, ts, closer, by simp, hcs, hk.trans ho, hd, hc, fun f stop vs _ => ?_⟩
  have level (vs : List Token) :
      headLevel Lexicon.standard (opener.relocate f :: vs) ≤ .assignment := by
    rw [headLevel_cons, Token.relocate_kind, hk, ho]
    decide
  simp only [List.map_append, List.map_cons, List.map_nil, List.cons_append, List.append_assoc,
    List.nil_append]
  refine bind_done.2 ⟨_, _, read f stop _ (level _), ?_⟩
  refine bind_require_done.2 ⟨_, _, rfl, hk, ?_⟩
  exact bind_done.2 ⟨_, _, read' f stop _ vs, rfl⟩

section

variable {lexicon : Lexicon} {stop : Location} {depth : Nat} {t : Token}

theorem statement_semicolon (h : t.kind = .semicolon) (us : List Token) :
    statement lexicon stop (depth + 1) (t :: us) = .done none us := by
  rw [statement, bind_poll_cons]
  simp [h]

theorem statement_var (h : t.kind = .wordVar) (us : List Token) :
    statement lexicon stop (depth + 1) (t :: us) =
      (declaration stop (expression lexicon stop depth .assignment)
        (block stop (statement lexicon stop depth)) >>= fun s => pure (some s)) us := by
  rw [statement, bind_poll_cons]
  simp [h]

theorem statement_name (h : t.kind = .identifier) (us : List Token) :
    statement lexicon stop (depth + 1) (t :: us) =
      (nameStatement stop (expression lexicon stop depth .assignment) t.toName >>=
        fun s => pure (some s)) us := by
  rw [statement, bind_poll_cons]
  simp [h]

theorem statement_if (h : t.kind = .wordIf) (us : List Token) :
    statement lexicon stop (depth + 1) (t :: us) =
      (guarded stop .branchBody (expression lexicon stop depth .assignment)
        (block stop (statement lexicon stop depth)) >>=
          fun c => pure (some (.branch t.location c.1 c.2))) us := by
  rw [statement, bind_poll_cons]
  simp [h]

theorem statement_while (h : t.kind = .wordWhile) (us : List Token) :
    statement lexicon stop (depth + 1) (t :: us) =
      (guarded stop .loopBody (expression lexicon stop depth .assignment)
        (block stop (statement lexicon stop depth)) >>=
          fun c => pure (some (.loop t.location c.1 c.2))) us := by
  rw [statement, bind_poll_cons]
  simp [h]

theorem statement_cases {us rest : List Token} {s : Option Statement}
    (h : statement lexicon stop (depth + 1) us = .done s rest) : ∃ t mid, us = t :: mid ∧
      (t.kind = .semicolon ∨ t.kind = .wordVar ∨ t.kind = .identifier ∨ t.kind = .wordIf ∨
        t.kind = .wordWhile) := by
  cases us with
  | nil => cases h
  | cons t mid =>
    refine ⟨t, mid, rfl, ?_⟩
    rw [statement, bind_poll_cons] at h
    cases hk : t.kind <;> simp [hk, failAt, fail] at h ⊢

end

theorem statement_reads (depth : Nat) :
    StatementReads fun stop => statement .standard stop depth := by
  have he (depth : Nat) :
      ExpressionReads .standard .assignment fun stop =>
        expression .standard stop depth .assignment :=
    (expression_reads (by decide) depth).2 .assignment
  induction depth with
  | zero => exact ⟨fun h => by simp [statement, fail] at h, fun h => by simp [statement, fail] at h⟩
  | succ depth ih =>
    refine ⟨fun {stop us s rest} h => ?_, fun _ h => statement_semicolon h _⟩
    obtain ⟨t, us, rfl, hk | hk | hk | hk | hk⟩ := statement_cases h
    · rw [statement_semicolon hk] at h
      cases h
      refine ⟨t, [], rfl, .one (.empty hk), Reads.ends (fun f stop vs _ => ?_) _⟩
      exact statement_semicolon (t := t.relocate f) hk vs
    · rw [statement_var hk] at h
      obtain ⟨s', us₁, hs, h₁⟩ := bind_done.1 h
      cases h₁
      obtain ⟨ts, rfl, hd, ends⟩ := declaration_reads (he _) (block_reads ih) hs
      refine ⟨t, ts, rfl, hd t hk, ends.behind [t] fun f stop vs vs' hq => ?_⟩
      refine (statement_var (t := t.relocate f) hk _).trans ?_
      exact bind_done.2 ⟨_, _, hq, rfl⟩
    · rw [statement_name hk] at h
      obtain ⟨s', us₁, hs, h₁⟩ := bind_done.1 h
      cases h₁
      obtain ⟨ts, rfl, hd, ends⟩ := nameStatement_reads (he _) hk hs
      refine ⟨t, ts, rfl, hd, ends _ fun f stop us rest s hq => ?_⟩
      refine (statement_name (t := t.relocate f) hk _).trans ?_
      exact bind_done.2 ⟨_, _, hq, rfl⟩
    · rw [statement_if hk] at h
      obtain ⟨⟨e, b⟩, us₁, hs, h₁⟩ := bind_done.1 h
      cases h₁
      obtain ⟨cs, opener, ts, closer, rfl, hcs, ho, hd, hc, read⟩ :=
        guarded_reads (he _) (block_reads ih) rfl hs
      refine ⟨t, cs ++ opener :: ts ++ [closer], by simp,
        .one (.branch hk hcs ho hd hc), Reads.ends (fun f stop vs _ => ?_) _⟩
      refine (statement_if (t := t.relocate f) hk _).trans ?_
      exact bind_done.2 ⟨_, _, read f stop vs trivial, rfl⟩
    · rw [statement_while hk] at h
      obtain ⟨⟨e, b⟩, us₁, hs, h₁⟩ := bind_done.1 h
      cases h₁
      obtain ⟨cs, opener, ts, closer, rfl, hcs, ho, hd, hc, read⟩ :=
        guarded_reads (he _) (block_reads ih) rfl hs
      refine ⟨t, cs ++ opener :: ts ++ [closer], by simp,
        .one (.loop hk hcs ho hd hc), Reads.ends (fun f stop vs _ => ?_) _⟩
      refine (statement_while (t := t.relocate f) hk _).trans ?_
      exact bind_done.2 ⟨_, _, read f stop vs trivial, rfl⟩

/-! ## Programs -/

theorem readsAs_nil (one : Parser (Option Statement)) : ReadsAs atEnd one [] [] [] := by
  intro bound hb
  obtain ⟨bound, rfl⟩ : ∃ n, bound = n + 1 := ⟨bound - 1, by simp at hb; omega⟩
  exact ⟨[], rfl, rfl⟩

theorem ReadsAs.parseWithin {depth : Nat} {stop : Location} {us : List Token} {b : Block}
    (h : ReadsAs atEnd (statement .standard stop depth) us b []) :
    Lexicon.standard.parseWithin depth us stop = .ok b := by
  obtain ⟨ss, hss, rfl⟩ := h _ (Nat.lt_succ_self _)
  have read : program (statement .standard stop depth) us = .done (ss.filterMap id) [] :=
    bind_done.2 ⟨ss, [], hss, rfl⟩
  rw [Lexicon.parseWithin, read]

theorem parseWithin_reads {depth : Nat} {stop : Location} {ts : List Token} {b : Block}
    (h : Lexicon.standard.parseWithin depth ts stop = .ok b) : DerivesAll .standard ts b ∧
      ∀ f stop vs c, headLevel .standard vs ≤ .assignment →
        ReadsAs atEnd (statement .standard stop depth) vs c [] →
        ReadsAs atEnd (statement .standard stop depth) (ts.map (Token.relocate f) ++ vs)
          (Block.relocate f b ++ c) [] := by
  unfold Lexicon.parseWithin at h
  split at h
  · rename_i rest hp
    cases h
    obtain ⟨ss, mid, hmany, hpure⟩ := bind_done.1 hp
    cases hpure
    obtain ⟨ts, mid, rfl, hend, hd, read⟩ := statements_reads endTest_atEnd (statement_reads depth)
      () stop rest _ _ ss (Nat.lt_succ_self _) hmany
    cases mid with
    | cons t mid => cases hend
    | nil =>
      rw [List.append_nil]
      exact ⟨hd, fun f stop vs c hvs hread => read f () stop vs c [] hvs hread⟩
  · cases h

theorem parseWithin_headLevel {depth : Nat} {stop : Location} {ts : List Token} {b : Block}
    (h : Lexicon.standard.parseWithin depth ts stop = .ok b) :
    headLevel .standard ts ≤ .assignment := by
  cases ts with
  | nil => exact Nat.zero_le _
  | cons t ts =>
    unfold Lexicon.parseWithin at h
    split at h
    · rename_i rest hp
      obtain ⟨ss, mid, hmany, -⟩ := bind_done.1 hp
      rcases manyUntilWithin_cases hmany with ⟨hend, -⟩ | ⟨us, s, mid', ss', hend, hs, -, -⟩
      · cases hend
      · cases hend
        cases depth with
        | zero => cases hs
        | succ depth =>
          obtain ⟨u, us, hus, hk | hk | hk | hk | hk⟩ := statement_cases hs <;>
          · cases hus
            rw [headLevel_cons, hk]
            decide
    · cases h

theorem parseWithin_append {depth : Nat} {stop stop' : Location} {ts us : List Token} {b c : Block}
    (h : Lexicon.standard.parseWithin depth ts stop = .ok b)
    (h' : Lexicon.standard.parseWithin depth us stop' = .ok c) (f : Location → Location)
    (last : Location) :
    Lexicon.standard.parseWithin depth (ts ++ us.map (Token.relocate f)) last =
      .ok (b ++ Block.relocate f c) := by
  have moved : ReadsAs atEnd (statement .standard last depth) (us.map (Token.relocate f))
      (Block.relocate f c) [] := by
    simpa using (parseWithin_reads h').2 f last [] [] (Nat.zero_le _) (readsAs_nil _)
  have level : headLevel .standard (us.map (Token.relocate f)) ≤ .assignment := by
    have := parseWithin_headLevel h'
    cases us <;> simpa using this
  have joined := (parseWithin_reads h).2 id last _ _ level moved
  have same : Token.relocate id = id := funext Token.relocate_id
  rw [same, List.map_id, Block.relocate_id] at joined
  exact joined.parseWithin

end Parser

end ScopedScript
