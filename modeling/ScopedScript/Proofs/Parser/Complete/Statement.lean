import ScopedScript.Proofs.Parser.Complete.Expr
import ScopedScript.Proofs.Parser.Exact.Statement

namespace ScopedScript

def TokenKind.starters : List TokenKind :=
  [.leftParen, .minus, .bang, .wordTrue, .wordFalse, .wordNull, .number, .text, .identifier]

theorem Token.kind_of_literal? {t : Token} {v : Value} (h : t.literal? = some v) :
    t.kind ∈ [.wordTrue, .wordFalse, .wordNull, .number, .text] := by
  unfold literal? at h
  split at h <;> simp_all

theorem ExprAt.starts {lexicon : Lexicon} {k : Nat} {ts : List Token} {e : Expr}
    (h : ExprAt lexicon k ts e) : ∃ t us, ts = t :: us ∧ t.kind ∈ TokenKind.starters := by
  induction h with
  | literal h =>
    refine ⟨_, _, rfl, ?_⟩
    have := Token.kind_of_literal? h
    simp only [List.mem_cons, List.not_mem_nil, or_false] at this
    rcases this with hk | hk | hk | hk | hk <;> rw [hk] <;> decide
  | name h => exact ⟨_, _, rfl, by rw [h]; decide⟩
  | group hl _ _ _ => exact ⟨_, _, rfl, by rw [hl]; decide⟩
  | unary ht _ _ => exact ⟨_, _, rfl, by rcases ht with hk | hk <;> rw [hk] <;> decide⟩
  | node _ _ _ ih _ =>
    obtain ⟨t, us, rfl, ht⟩ := ih
    exact ⟨_, _, rfl, ht⟩
  | next _ ih => exact ih

theorem TokenKind.eq_minus_of_starters {k : TokenKind} (h : k ∈ starters)
    (hl : ¬ Lexicon.standard.level k ≤ .assignment) : k = .minus := by
  revert h hl
  cases k <;> decide

namespace Pieces

theorem starts {lexicon : Lexicon} {ts : List Token} (h : Pieces lexicon ts) :
    ∃ t us, ts = t :: us ∧ t.kind ∈ TokenKind.starters := by
  obtain ⟨os, tail, e, rfl, ho, -⟩ := h.cases_operand
  obtain ⟨t, us, rfl, ht⟩ := ho.starts
  exact ⟨t, us ++ tail, rfl, ht⟩

theorem of_minus {lexicon : Lexicon} {t : Token} {us : List Token}
    (h : Pieces lexicon (t :: us)) (ht : t.kind = .minus) : Pieces lexicon us := by
  have behind {os : List Token} {e : Expr} (ho : ExprAt lexicon Precedence.operand os e)
      {us' : List Token} (hos : ∃ vs, os ++ vs = t :: us') :
      ∃ os' e', os = t :: os' ∧ ExprAt lexicon Precedence.operand os' e' := by
    obtain ⟨vs, hos⟩ := hos
    rcases ho.operand_cases with ⟨u, v, rfl, hl⟩ | ⟨u, rfl, hk⟩ | ⟨l, ws, r, e', rfl, hl, -, -⟩ |
      ⟨u, ws, e', rfl, -, h'⟩
    · cases hos
      exact absurd (.inl ht) (Token.not_sign_of_literal? hl)
    · cases hos
      rw [hk] at ht
      cases ht
    · cases hos
      rw [hl] at ht
      cases ht
    · cases hos
      exact ⟨ws, e', rfl, h'⟩
  generalize hts : t :: us = ts at h
  cases h with
  | one ho =>
    obtain ⟨os', e', hos, h'⟩ := behind ho ⟨[], by rw [List.append_nil, hts]⟩
    rw [hos] at hts
    cases hts
    exact .one h'
  | more ho hop hus =>
    obtain ⟨os', e', rfl, h'⟩ := behind ho ⟨_, hts.symm⟩
    cases hts
    exact .more h' hop hus

end Pieces

inductive Runs : List Token → Prop
  | nil : Runs []
  | cons {ts us : List Token} : Pieces .standard ts →
    Parser.headLevel .standard us ≤ .assignment → Runs us → Runs (ts ++ us)

theorem Runs.merge {ts us : List Token} (h : Pieces .standard ts) (h' : Runs us) :
    Runs (ts ++ us) := by
  by_cases hl : Parser.headLevel .standard us ≤ .assignment
  · exact .cons h hl h'
  · cases h' with
    | nil => exact absurd (Nat.zero_le _) hl
    | cons hq hlevel hrest =>
      obtain ⟨t, us, rfl, ht⟩ := hq.starts
      have hl : ¬ Lexicon.standard.level t.kind ≤ .assignment := hl
      -- the argument starts with a minus, which is an operator behind the one before
      have minus := TokenKind.eq_minus_of_starters ht hl
      rw [List.cons_append, ← List.cons_append, ← List.append_assoc]
      exact .cons (h.append hl (hq.of_minus minus)) hlevel hrest

theorem ExprsAt.runs {ts : List Token} {es : List Expr} (h : ExprsAt .standard ts es) :
    Runs ts := by
  induction h with
  | nil => exact .nil
  | cons h _ ih => exact ih.merge (h.pieces (Nat.le_refl _))

def TokenKind.openers : List TokenKind := [.semicolon, .wordVar, .identifier, .wordIf, .wordWhile]

theorem TokenKind.level_openers {k : TokenKind} (h : k ∈ openers) :
    Lexicon.standard.level k ≤ .assignment := by
  revert h
  cases k <;> decide

theorem Derives.starts {lexicon : Lexicon} {ts : List Token} {s : Option Statement}
    (h : Derives lexicon ts s) : ∃ t us, ts = t :: us ∧ t.kind ∈ TokenKind.openers ∧
      (t.kind = .semicolon → us = []) := by
  cases h with
  | method hv _ _ _ _ _ _ _ => exact ⟨_, _, rfl, by rw [hv]; decide, by simp [hv]⟩
  | initialized hv _ _ _ => exact ⟨_, _, rfl, by rw [hv]; decide, by simp [hv]⟩
  | declare hv _ _ => exact ⟨_, _, rfl, by rw [hv]; decide, by simp [hv]⟩
  | assign hn _ _ => exact ⟨_, _, rfl, by rw [hn]; decide, by simp [hn]⟩
  | call hn _ _ _ => exact ⟨_, _, rfl, by rw [hn]; decide, by simp [hn]⟩
  | branch hw _ _ _ _ => exact ⟨_, _, rfl, by rw [hw]; decide, by simp [hw]⟩
  | loop hw _ _ _ _ => exact ⟨_, _, rfl, by rw [hw]; decide, by simp [hw]⟩
  | empty hs => exact ⟨_, _, rfl, by rw [hs]; decide, fun _ => rfl⟩

theorem DerivesAll.cases_cons {lexicon : Lexicon} {t : Token} {us : List Token} {b : Block}
    (h : DerivesAll lexicon (t :: us) b) : t.kind ∈ TokenKind.openers ∧
      (t.kind = .semicolon → ∃ b', DerivesAll lexicon us b') := by
  generalize hts : t :: us = ts at h
  cases h with
  | nil => cases hts
  | cons h h' =>
    obtain ⟨u, vs, rfl, hk, hs⟩ := h.starts
    cases hts
    refine ⟨hk, fun hsemi => ?_⟩
    obtain rfl := hs hsemi
    exact ⟨_, h'⟩

namespace Parser

section

variable {α : Type} {short : Prop} {ends : Parser Bool} {one : Parser α} {us : List Token}

theorem manyUntilWithin_succeeds {M : α → List Token → Prop} {P : List Token → Prop} {bound : Nat}
    (hends : ends us = .done false us) (hone : Succeeds short one us M)
    (hmore : ∀ a mid, M a mid →
      Succeeds short (manyUntilWithin ends one bound) mid fun _ rest => P rest) :
    Succeeds short (manyUntilWithin ends one (bound + 1)) us fun _ rest => P rest := by
  rw [manyUntilWithin]
  refine .bind (.of_done hends rfl :
    Succeeds short ends us fun b rest => (b, rest) = (false, us)) ?_
  rintro b rest ⟨⟩
  refine .bind hone fun a mid ha => .bind (hmore a mid ha) fun as rest h => ?_
  exact .of_done rfl h

end

theorem manyArguments_accepts {expr : Parser Expr} {depth : Nat} {r : Token} {vs : List Token}
    (hr : r.kind = .rightParen)
    (he : ∀ {ts vs : List Token}, Pieces .standard ts → headLevel .standard vs ≤ .assignment →
      Succeeds (depth < 2 * ts.length) expr (ts ++ vs) fun _ rest => rest = vs)
    {ts : List Token} (h : Runs ts) (bound : Nat) (hb : ts.length < bound) :
    Succeeds (depth < 2 * ts.length) (manyUntilWithin argumentsEnd expr bound) (ts ++ r :: vs)
      fun _ rest => rest = r :: vs := by
  induction h generalizing bound with
  | nil =>
    obtain ⟨bound, rfl⟩ : ∃ n, bound = n + 1 := ⟨bound - 1, by omega⟩
    exact .of_done (manyUntilWithin_true (argumentsEnd_closes hr vs) bound) rfl
  | @cons ts us hp hl _ ih =>
    obtain ⟨bound, rfl⟩ : ∃ n, bound = n + 1 := ⟨bound - 1, by omega⟩
    obtain ⟨t, ts', rfl, ht⟩ := hp.starts
    have level : headLevel .standard (us ++ r :: vs) ≤ .assignment := by
      cases us with
      | nil =>
        rw [List.nil_append, headLevel_cons, hr]
        decide
      | cons u us => exact hl
    have goes : t.kind ≠ .rightParen := by
      intro hk
      rw [hk] at ht
      revert ht
      decide
    simp only [List.length_append] at hb ⊢
    rw [List.append_assoc]
    refine manyUntilWithin_succeeds (argumentsEnd_goes ⟨_, _, rfl, goes⟩)
      ((he hp level).mono (fun h => by omega) fun _ _ h => h) ?_
    rintro e mid rfl
    exact (ih bound (by simp at hb; omega)).mono (fun h => by omega) fun _ _ h => h

theorem statements_accept {ends : Parser Bool} {one : Parser (Option Statement)} {depth : Nat}
    (hone : ∀ {ts vs : List Token} {s : Option Statement}, Derives .standard ts s →
      headLevel .standard vs ≤ .assignment → Succeeds (depth < 2 * ts.length) one (ts ++ vs)
        fun _ rest => rest = vs ∨ ∃ t, t.kind = .semicolon ∧ vs = t :: rest)
    (hgoes : ∀ t us, t.kind ∈ TokenKind.openers → ends (t :: us) = .done false (t :: us))
    {last rest : List Token} (hends : ends last = .done true rest)
    (hlevel : headLevel .standard last ≤ .assignment)
    (hlast : ∀ t, last.head? = some t → t.kind ≠ .semicolon) (bound : Nat) :
    ∀ ts b, DerivesAll .standard ts b → ts.length < bound →
      Succeeds (depth < 2 * ts.length) (manyUntilWithin ends one bound) (ts ++ last)
        fun _ mid => mid = rest := by
  induction bound with
  | zero => exact fun ts b _ hb => absurd hb (Nat.not_lt_zero _)
  | succ bound ih =>
    intro ts b h hb
    cases h with
    | nil => exact .of_done (manyUntilWithin_true hends bound) rfl
    | @cons ts us s b hs hd =>
      obtain ⟨t, ts', rfl, ht, -⟩ := hs.starts
      have level : headLevel .standard (us ++ last) ≤ .assignment := by
        cases us with
        | nil => exact hlevel
        | cons u us => exact TokenKind.level_openers hd.cases_cons.1
      simp only [List.length_append, List.length_cons] at hb
      rw [List.append_assoc]
      refine manyUntilWithin_succeeds (hgoes _ _ ht)
        ((hone hs level).mono (fun h => by simp at h ⊢; omega) fun _ _ h => h) ?_
      rintro s mid (rfl | ⟨u, hu, hmid⟩)
      · exact (ih us b hd (by omega)).mono (fun h => by simp; omega) fun _ _ h => h
      -- a semicolon taken along was an empty statement of its own in the derivation
      · cases us with
        | nil => exact absurd hu (hlast u (by simpa using congrArg List.head? hmid))
        | cons u' us =>
          cases hmid
          obtain ⟨b', hd'⟩ := hd.cases_cons.2 hu
          simp only [List.length_cons] at hb
          exact (ih us b' hd' (by omega)).mono (fun h => by simp; omega) fun _ _ h => h

def LeavesAll {α : Type} (vs : List Token) (_ : α) (rest : List Token) : Prop :=
  rest = vs ∨ ∃ t, t.kind = .semicolon ∧ vs = t :: rest

section

variable {stop : Location} {depth : Nat} {vs : List Token}

theorem ended_accepts {α : Type} {short : Prop} {p : Parser α} {us : List Token}
    (h : Succeeds short p us fun _ rest => rest = vs) :
    Succeeds short (ended p) us (LeavesAll vs) := by
  refine .bind h ?_
  rintro a rest rfl
  by_cases hs : ∃ t us, rest = t :: us ∧ t.kind = .semicolon
  · obtain ⟨t, us, rfl, hk⟩ := hs
    exact .bind (.of_done (skip_takes hk us) rfl : Succeeds short _ _ fun _ rest => rest = us)
      fun _ rest h => .of_done rfl (.inr ⟨t, hk, by rw [h]⟩)
  · have none : ∀ t, rest.head? = some t → t.kind ≠ .semicolon := by
      intro t ht hk
      cases rest with
      | nil => cases ht
      | cons u us =>
        cases ht
        exact hs ⟨_, _, rfl, hk⟩
    exact .bind (.of_done (skip_leaves none) rfl : Succeeds short _ _ fun _ mid => mid = rest)
      fun _ mid h => .of_done rfl (.inl h)

theorem require_accepts {short : Prop} {r : Requirement} {t : Token} (h : t.kind = r.kind) :
    Succeeds short (require stop r) (t :: vs) fun u rest => u = t ∧ rest = vs :=
  .of_done (require_cons h) ⟨rfl, rfl⟩

theorem expression_standard_accepts {ts : List Token} (h : Pieces .standard ts)
    (hvs : headLevel .standard vs ≤ .assignment) :
    Succeeds (depth < 2 * ts.length) (expression .standard stop depth .assignment) (ts ++ vs)
      fun _ rest => rest = vs :=
  expression_accepts (by decide) stop depth h hvs

theorem arguments_accepts {ts : List Token} {es : List Expr} {r : Token}
    (h : ExprsAt .standard ts es) (hr : r.kind = .rightParen) :
    Succeeds (depth < 2 * ts.length) (arguments stop (expression .standard stop depth .assignment))
      (ts ++ r :: vs) fun _ rest => rest = vs := by
  refine .bind (manyArguments_accepts hr expression_standard_accepts h.runs _ (by grind)) ?_
  rintro es rest rfl
  refine .bind (require_accepts (r := .argumentsEnd) hr) ?_
  rintro u rest ⟨-, rfl⟩
  exact .of_done rfl rfl

def StatementAccepts (depth : Nat) : Prop :=
  ∀ {ts vs : List Token} {s : Option Statement} (stop : Location), Derives .standard ts s →
    headLevel .standard vs ≤ .assignment →
    Succeeds (depth < 2 * ts.length) (statement .standard stop depth) (ts ++ vs) (LeavesAll vs)

theorem block_accepts (hone : StatementAccepts depth) {ts : List Token} {b : Block}
    {closer : Token} (h : DerivesAll .standard ts b) (hc : closer.kind = .rightBrace)
    (opener : Location) :
    Succeeds (depth < 2 * ts.length) (block stop (statement .standard stop depth) opener)
      (ts ++ closer :: vs) fun _ rest => rest = vs := by
  have goes (t : Token) (us : List Token) (ht : t.kind ∈ TokenKind.openers) :
      closed stop opener (t :: us) = .done false (t :: us) := by
    refine closed_goes (fun hk => ?_) us
    rw [hk] at ht
    revert ht
    decide
  have level : headLevel .standard (closer :: vs) ≤ .assignment := by
    rw [headLevel_cons, hc]
    decide
  have last : ∀ t, (closer :: vs).head? = some t → t.kind ≠ .semicolon := by
    rintro t ⟨⟩
    rw [hc]
    decide
  refine .bind (statements_accept (hone stop) goes (closed_closes hc vs) level last _ ts b h
    (by grind)) ?_
  rintro ss rest rfl
  exact .of_done rfl rfl

theorem guarded_accepts (hone : StatementAccepts depth) (opening : Requirement)
    (ho : opening.kind = .leftBrace) {cs ts : List Token} {e : Expr} {b : Block}
    {opener closer : Token} (hcs : ExprAt .standard Precedence.lowest cs e)
    (hk : opener.kind = .leftBrace) (h : DerivesAll .standard ts b)
    (hc : closer.kind = .rightBrace) :
    Succeeds (depth < 2 * (cs.length + ts.length))
      (guarded stop opening (expression .standard stop depth .assignment)
        (block stop (statement .standard stop depth)))
      (cs ++ opener :: (ts ++ closer :: vs)) fun _ rest => rest = vs := by
  have level : headLevel .standard (opener :: (ts ++ closer :: vs)) ≤ .assignment := by
    rw [headLevel_cons, hk]
    decide
  refine .bind ((expression_standard_accepts (hcs.pieces (Nat.le_refl _)) level).mono
    (fun h => by omega) fun _ _ h => h) ?_
  rintro e rest rfl
  refine .bind (require_accepts (hk.trans ho.symm)) ?_
  rintro u rest ⟨rfl, rfl⟩
  refine .bind ((block_accepts hone h hc u.location).mono (fun h => by omega) fun _ _ h => h) ?_
  rintro ss rest rfl
  exact .of_done rfl rfl

theorem method_accepts (hone : StatementAccepts depth) {name l r opener closer : Token}
    {ps ts : List Token} {b : Block} (hn : name.kind = .identifier) (hl : l.kind = .leftParen)
    (hps : ∀ p ∈ ps, p.kind = .identifier) (hr : r.kind = .rightParen)
    (ho : opener.kind = .leftBrace) (h : DerivesAll .standard ts b)
    (hc : closer.kind = .rightBrace) :
    Succeeds (depth < 2 * ts.length)
      (declaration stop (expression .standard stop depth .assignment)
        (block stop (statement .standard stop depth)))
      (name :: l :: (ps ++ r :: opener :: (ts ++ closer :: vs))) fun _ rest => rest = vs := by
  have other : r.kind ≠ .identifier := by
    rw [hr]
    decide
  refine .congr ?_ (declaration_paren hn hl _)
  refine .bind (.of_done (parameters_append hps (by simpa using other)) rfl :
    Succeeds _ _ _ fun _ rest => rest = r :: opener :: (ts ++ closer :: vs)) ?_
  rintro names rest rfl
  refine .bind (require_accepts (r := .parametersEnd) hr) ?_
  rintro u rest ⟨-, rfl⟩
  refine .bind (require_accepts (r := .methodBody) ho) ?_
  rintro u rest ⟨rfl, rfl⟩
  refine .bind (block_accepts hone h hc u.location) ?_
  rintro ss rest rfl
  exact .of_done rfl rfl

theorem assigned_accepts {ts : List Token} {e : Expr} (h : ExprAt .standard Precedence.lowest ts e)
    (hvs : headLevel .standard vs ≤ .assignment) :
    Succeeds (depth < 2 * ts.length) (ended (expression .standard stop depth .assignment))
      (ts ++ vs) (LeavesAll vs) :=
  ended_accepts (expression_standard_accepts (h.pieces (Nat.le_refl _)) hvs)

end

theorem statement_accepts (depth : Nat) : StatementAccepts depth := by
  induction depth with
  | zero =>
    intro ts vs s stop h _
    obtain ⟨t, us, rfl, -, -⟩ := h.starts
    exact .inr ⟨by simp, _, rfl⟩
  | succ depth ih =>
    intro ts vs s stop h hvs
    cases h with
    | @method var name l r opener closer ps ts body hv hn hl hps hr ho hd hc =>
      have tokens : var :: name :: l :: ps ++ r :: opener :: ts ++ [closer] ++ vs =
          var :: name :: l :: (ps ++ r :: opener :: (ts ++ closer :: vs)) := by simp
      rw [tokens]
      refine .congr ?_ (statement_var hv _)
      refine .bind ((method_accepts ih hn hl hps hr ho hd hc).mono
        (fun h => ?_) fun _ _ h => h) fun s rest h => .of_done rfl (.inl h)
      simp
      omega
    | initialized hv hn he h =>
      refine .congr ?_ (statement_var hv _)
      refine .bind ?_ fun s rest h => .of_done rfl h
      refine .congr ?_ (declaration_equal hn he _)
      refine .bind ((assigned_accepts h hvs).mono (fun h => ?_) fun _ _ h => h)
        fun e rest h => .of_done rfl h
      simp
      omega
    | declare hv hn hs =>
      refine .congr ?_ (statement_var hv _)
      refine .bind ?_ fun s rest h => .of_done rfl h
      exact .of_done (declaration_semicolon hn hs _) (.inl rfl)
    | assign hn he h =>
      refine .congr ?_ (statement_name hn _)
      refine .bind ?_ fun s rest h => .of_done rfl h
      refine .congr ?_ (nameStatement_equal he _)
      refine .bind ((assigned_accepts h hvs).mono (fun h => ?_) fun _ _ h => h)
        fun e rest h => .of_done rfl h
      simp
      omega
    | @call name l r ts es hn hl h hr =>
      have tokens : name :: l :: ts ++ [r] ++ vs = name :: l :: (ts ++ r :: vs) := by simp
      rw [tokens]
      refine .congr ?_ (statement_name hn _)
      refine .bind ?_ fun s rest h => .of_done rfl h
      refine .congr ?_ (nameStatement_paren hl _)
      refine .bind (ended_accepts ?_) fun s rest h => .of_done rfl h
      refine (arguments_accepts h hr).mono (fun h => ?_) fun _ _ h => h
      simp
      omega
    | @branch word opener closer cs ts e b hw h ho hd hc =>
      have tokens : word :: cs ++ opener :: ts ++ [closer] ++ vs =
          word :: (cs ++ opener :: (ts ++ closer :: vs)) := by simp
      rw [tokens]
      refine .congr ?_ (statement_if hw _)
      refine .bind ((guarded_accepts ih .branchBody rfl h ho hd hc).mono
        (fun h => ?_) fun _ _ h => h) fun c rest h => .of_done rfl (.inl h)
      simp
      omega
    | @loop word opener closer cs ts e b hw h ho hd hc =>
      have tokens : word :: cs ++ opener :: ts ++ [closer] ++ vs =
          word :: (cs ++ opener :: (ts ++ closer :: vs)) := by simp
      rw [tokens]
      refine .congr ?_ (statement_while hw _)
      refine .bind ((guarded_accepts ih .loopBody rfl h ho hd hc).mono
        (fun h => ?_) fun _ _ h => h) fun c rest h => .of_done rfl (.inl h)
      simp
      omega
    | empty hs => exact .of_done (statement_semicolon hs vs) (.inl rfl)

theorem program_accepts (depth : Nat) (stop : Location) {ts : List Token} {b : Block}
    (h : DerivesAll .standard ts b) :
    Succeeds (depth < 2 * ts.length) (program (statement .standard stop depth)) ts
      fun _ _ => True := by
  have goes (t : Token) (us : List Token) (_ : t.kind ∈ TokenKind.openers) :
      atEnd (t :: us) = .done false (t :: us) := rfl
  have ends : atEnd [] = .done true [] := rfl
  have read := statements_accept (statement_accepts depth stop) goes ends (Nat.zero_le _)
    (by simp) _ ts b h (Nat.lt_succ_self _)
  rw [List.append_nil] at read
  exact .bind read fun _ _ _ => .of_done rfl trivial

end Parser

/-- Tokens are read as a program if and only if they derive from the grammar, and then what is read
is the tree of a derivation. The one other reason to fail is that they nest deeper than there is
room for; there always is if the depth is twice the number of tokens. -/
theorem Lexicon.parse_iff_derives (tokens : List Token) (stop : Location) :
    (∀ depth b, standard.parseWithin depth tokens stop = .ok b → DerivesAll standard tokens b) ∧
    (∀ depth, 2 * tokens.length ≤ depth →
      ((∃ b, standard.parseWithin depth tokens stop = .ok b) ↔
        ∃ b, DerivesAll standard tokens b)) ∧
    ((∃ b, DerivesAll standard tokens b) → (∃ b, standard.parseTokens tokens stop = .ok b) ∨
      Parser.depthLimit < 2 * tokens.length ∧
        standard.parseTokens tokens stop = .error (.fault (.tooDeep .source))) := by
  have sound (depth : Nat) (b : Block) (h : standard.parseWithin depth tokens stop = .ok b) :
      DerivesAll standard tokens b := (Parser.parseWithin_reads h).1
  have complete (depth : Nat) (b : Block) (h : DerivesAll standard tokens b) :
      (∃ b, standard.parseWithin depth tokens stop = .ok b) ∨ depth < 2 * tokens.length ∧
        standard.parseWithin depth tokens stop = .error (.fault (.tooDeep .source)) := by
    rcases Parser.program_accepts depth stop h with ⟨b', rest, hp, -⟩ | ⟨hshort, rest, hp⟩
    · exact .inl ⟨b', by rw [parseWithin, hp]⟩
    · exact .inr ⟨hshort, by rw [parseWithin, hp]⟩
  refine ⟨sound, fun depth hd => ⟨?_, ?_⟩, ?_⟩
  · rintro ⟨b, h⟩
    exact ⟨b, sound depth b h⟩
  · rintro ⟨b, h⟩
    rcases complete depth b h with ok | ⟨hshort, -⟩
    · exact ok
    · exact absurd hd (Nat.not_le_of_lt hshort)
  · rintro ⟨b, h⟩
    exact complete _ b h

end ScopedScript
