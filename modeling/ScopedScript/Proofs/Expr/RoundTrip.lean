import ScopedScript.Proofs.Parser.Complete.Expr
import ScopedScript.Proofs.Token.Cut

/-!
# Printed expressions are read back

The text of an expression that was read from a source is cut into the tokens `Expr.written`, and
these are read as the same expression with other places: `parse_render`.
-/

namespace ScopedScript

-- outcomes of parsers on given tokens can be compared
deriving instance DecidableEq for Parsed

def Value.isFinite : Value → Bool
  | number x => x.isFinite
  | _ => true

def Value.token : Value → Token
  | null => ⟨.wordNull, null.render, .null, {}⟩
  | bool true => ⟨.wordTrue, (bool true).render, .null, {}⟩
  | bool false => ⟨.wordFalse, (bool false).render, .null, {}⟩
  | number x => ⟨.number, (number x).render, .number x, {}⟩
  | text s => ⟨.text, (text s).render, .text s, {}⟩

@[simp] theorem Value.token_lexeme (v : Value) : v.token.lexeme = v.render := by
  unfold token
  split <;> rfl

theorem Value.token_literal? (v : Value) : v.token.literal? = some v := by
  unfold token
  split <;> rfl

theorem Token.kind_eq_of_unplaced {t u : Token} (h : t.unplaced = u.unplaced) :
    t.kind = u.kind := by
  have kinds := congrArg Token.kind h
  exact kinds

def Token.leftParen : Token := ⟨.leftParen, "(", .null, {}⟩

def Token.rightParen : Token := ⟨.rightParen, ")", .null, {}⟩

namespace Expr

def unplaced (e : Expr) : Expr := e.relocate fun _ => {}

def literals : Expr → List Value
  | literal v => [v]
  | name _ => []
  | unary _ e => e.literals
  | binary l _ r | logical l _ r => l.literals ++ r.literals

def grouped (needed : Bool) (ts : List Token) : List Token :=
  if needed then .leftParen :: ts ++ [.rightParen] else ts

def written : Expr → List Token
  | literal v => [v.token]
  | name n => [n.token]
  | unary op e => op :: grouped e.isInfix e.written
  | binary l op r | logical l op r =>
    grouped l.isInfix l.written ++ op :: grouped r.isInfix r.written

/-- The expressions that reading a source can give. Nodes of infix operators are those that the
operator asks for. -/
inductive Printable : Expr → Prop
  | literal {v : Value} : Lexicon.standard.Makes v.token → Printable (literal v)
  | name {n : Name} : Lexicon.standard.Makes n.token → Printable (name n)
  | unary {op : Token} {e : Expr} : op.kind = .minus ∨ op.kind = .bang →
    Lexicon.standard.Makes op → Printable e → Printable (unary op e)
  | infixNode {l r : Expr} {op : Token} : ¬ Lexicon.standard.level op.kind ≤ .assignment →
    Lexicon.standard.Makes op → Printable l → Printable r → Printable (l.infixNode op r)

theorem grouped_ne_nil (e : Expr) : grouped e.isInfix e.written ≠ [] := by
  cases e <;> simp [grouped, isInfix, written]

section

variable (l r : Expr) (op : Token)

theorem infixNode_eq : l.infixNode op r = .logical l op r ∨ l.infixNode op r = .binary l op r := by
  unfold Expr.infixNode
  split
  · exact .inl rfl
  · exact .inr rfl

@[simp] theorem isInfix_infixNode : (l.infixNode op r).isInfix = true := by
  rcases infixNode_eq l r op with h | h <;> rw [h] <;> rfl

@[simp] theorem literals_infixNode : (l.infixNode op r).literals = l.literals ++ r.literals := by
  rcases infixNode_eq l r op with h | h <;> rw [h] <;> rfl

@[simp] theorem written_infixNode : (l.infixNode op r).written =
    grouped l.isInfix l.written ++ op :: grouped r.isInfix r.written := by
  rcases infixNode_eq l r op with h | h <;> rw [h] <;> rfl

@[simp] theorem render_infixNode : (l.infixNode op r).render =
    parenthesized l.isInfix l.render ++ " " ++ op.lexeme ++ " " ++
      parenthesized r.isInfix r.render := by
  rcases infixNode_eq l r op with h | h <;> rw [h] <;> rfl

end

/-! ## Scanning -/

open Lexicon

theorem cuts_leftParen (ds : List Char) : standard.Cuts ['('] [.leftParen] ds :=
  (Spelling.Alone.cutsBefore (s := ⟨.leftParen, '(', []⟩) (by decide +kernel) ds {}).cuts

theorem cuts_rightParen (ds : List Char) : standard.Cuts [')'] [.rightParen] ds :=
  (Spelling.Alone.cutsBefore (s := ⟨.rightParen, ')', []⟩) (by decide +kernel) ds {}).cuts

theorem cuts_parenthesized {text : String} {ts : List Token} (needed : Bool)
    (h : ∀ ds, Delimited ds → standard.Cuts text.toList ts ds) {ds : List Char}
    (hds : Delimited ds) :
    standard.Cuts (parenthesized needed text).toList (grouped needed ts) ds := by
  cases needed with
  | false => exact h ds hds
  | true =>
    have chars : (parenthesized true text).toList = ['('] ++ (text.toList ++ [')']) := by
      simp [parenthesized]
    have inner := (h (')' :: ds) (delimited_paren ds)).append (cuts_rightParen ds)
    rw [chars]
    exact (cuts_leftParen _).append inner

theorem cutsBefore_sign {op : Token} (hk : op.kind = .minus ∨ op.kind = .bang)
    (h : standard.Makes op) (ds : List Char) : standard.CutsBefore op ds := by
  have alone : ∀ s ∈ standard.spellings, s.kind = .minus ∨ s.kind = .bang → s.Alone standard := by
    decide +kernel
  obtain ⟨kind, lexeme, value, place⟩ := op
  rcases h.standard_cases with ⟨s, hs, -⟩ | ⟨n, hn, -⟩ | ⟨hi, -⟩ |
    ⟨-, rfl, s, hs, rfl, rfl⟩
  · rcases hk with hk | hk <;> cases hk.symm.trans hs
  · rcases hk with hk | hk <;> cases hk.symm.trans hn
  · rcases hk with hk | hk <;> cases hk.symm.trans hi
  · exact (alone s hs hk).cutsBefore ds place

theorem Printable.cuts {e : Expr} (h : e.Printable) :
    ∀ ds, Delimited ds → standard.Cuts e.render.toList e.written ds := by
  induction h with
  | @literal v h =>
    intro ds hds
    simpa [render, written] using (h.cutsBefore delimits_standard hds).cuts
  | @name n h =>
    intro ds hds
    exact (h.cutsBefore delimits_standard hds).cuts
  | @unary op e hk h _ ih =>
    intro ds hds
    -- a sign is cut out in front of its operand, whatever that starts with
    have operand := cuts_parenthesized e.isInfix ih hds
    have sign := (cutsBefore_sign hk h ((parenthesized e.isInfix e.render).toList ++ ds)).cuts
    rw [render, String.toList_append]
    exact sign.append operand
  | @infixNode l r op _ h _ _ ihl ihr =>
    intro ds hds
    -- other operators need the blanks around them
    have right := (cuts_blank _).append (cuts_parenthesized r.isInfix ihr hds)
    have operator := (h.cutsBefore delimits_standard (delimited_blank _)).cuts.append right
    have left := cuts_parenthesized l.isInfix ihl (delimited_blank
      (op.lexeme.toList ++ ([' '] ++ (parenthesized r.isInfix r.render).toList) ++ ds))
    have chars : (l.infixNode op r).render.toList = (parenthesized l.isInfix l.render).toList ++
        ([' '] ++ (op.lexeme.toList ++
          ([' '] ++ (parenthesized r.isInfix r.render).toList))) := by
      simp
    rw [chars, written_infixNode]
    exact left.append ((cuts_blank _).append operator)

theorem Printable.tokenize_render {e : Expr} (h : e.Printable) : ∃ tokens stop,
    standard.tokenize e.render = .ok (tokens, stop) ∧
      tokens.map Token.unplaced = e.written.map Token.unplaced :=
  (h.cuts [] delimited_nil).tokenize

/-! ## Reading -/

section

open ScopedScript.Parser

variable {stop : Location} {ts us vs : List Token} {e : Expr}

def ReadAs (e : Expr) (vs : List Token) (e' : Expr) (rest : List Token) : Prop :=
  rest = vs ∧ e'.unplaced = e.unplaced

def OperandRead (stop : Location) (ts : List Token) (e : Expr) : Prop :=
  ∀ us vs depth, us.map Token.unplaced = ts.map Token.unplaced →
    Succeeds (depth + 1 < 2 * us.length) (operand standard stop depth) (us ++ vs) (ReadAs e vs)

def WholeRead (stop : Location) (e : Expr) : Prop :=
  ∀ us vs depth, us.map Token.unplaced = e.written.map Token.unplaced →
    headLevel standard vs ≤ .assignment →
    Succeeds (depth < 2 * us.length) (expression standard stop depth .assignment) (us ++ vs)
      (ReadAs e vs)

theorem operand_token {t : Token} {depth : Nat} (ht : ¬ (t.kind = .minus ∨ t.kind = .bang)) :
    operand standard stop (depth + 1) (t :: vs) =
      primary stop (expression standard stop depth .assignment) (t :: vs) :=
  operand_primary fun u hu => by
    cases hu
    exact ht

theorem literal_read (v : Value) : OperandRead stop [v.token] (.literal v) := by
  intro us vs depth hus
  obtain ⟨t, rfl, ht⟩ := List.map_eq_singleton_iff.1 hus
  have value : t.literal? = some v := (congrArg Token.literal? ht).trans v.token_literal?
  have sign := Token.not_sign_of_literal? value
  cases depth with
  | zero => exact .inr ⟨by simp, _, by rw [operand]; rfl⟩
  | succ depth => exact .of_done ((operand_token sign).trans (primary_literal value vs)) ⟨rfl, rfl⟩

theorem name_read (n : Name) : OperandRead stop [n.token] (.name n) := by
  intro us vs depth hus
  obtain ⟨t, rfl, ht⟩ := List.map_eq_singleton_iff.1 hus
  have kind : t.kind = .identifier := congrArg Token.kind ht
  have text : t.lexeme = n.text := congrArg Token.lexeme ht
  cases depth with
  | zero => exact .inr ⟨by simp, _, by rw [operand]; rfl⟩
  | succ depth =>
    refine .of_done ((operand_token (by simp [kind])).trans (primary_name kind vs)) ⟨rfl, ?_⟩
    simp [unplaced, relocate, Name.relocate, Token.toName, text]

theorem unary_read {op : Token} (hk : op.kind = .minus ∨ op.kind = .bang)
    (h : OperandRead stop ts e) : OperandRead stop (op :: ts) (.unary op e) := by
  intro us vs depth hus
  obtain ⟨t, us, rfl, ht, hts⟩ := List.map_eq_cons_iff.1 hus
  have kind : t.kind = op.kind := Token.kind_eq_of_unplaced ht
  cases depth with
  | zero => exact .inr ⟨by simp; omega, _, by rw [operand]; rfl⟩
  | succ depth =>
    refine .congr ?_ (operand_sign (kind ▸ hk) _)
    refine .bind ((h us vs depth hts).mono (fun h => ?_) fun _ _ h => h) ?_
    · simp
      omega
    · rintro e' rest ⟨rfl, same⟩
      exact .of_done rfl ⟨rfl, congrArg₂ Expr.unary ht same⟩

theorem group_read (h : WholeRead stop e) :
    OperandRead stop (.leftParen :: e.written ++ [.rightParen]) e := by
  intro us vs depth hus
  rw [List.map_append, List.map_cons] at hus
  obtain ⟨ls, os, rfl, hls, hos⟩ := List.map_eq_append_iff.1 hus
  obtain ⟨p, ts, rfl, hp, hts⟩ := List.map_eq_cons_iff.1 hls
  obtain ⟨q, rfl, hq⟩ := List.map_eq_singleton_iff.1 hos
  have opens : p.kind = .leftParen := Token.kind_eq_of_unplaced (u := .leftParen) hp
  have closes : q.kind = .rightParen := Token.kind_eq_of_unplaced (u := .rightParen) hq
  have level : headLevel standard (q :: vs) ≤ .assignment := by
    rw [headLevel_cons, closes]
    decide
  cases depth with
  | zero => exact .inr ⟨by simp; omega, _, by rw [operand]; rfl⟩
  | succ depth =>
    have tokens : p :: ts ++ [q] ++ vs = p :: (ts ++ q :: vs) := by simp
    rw [tokens]
    refine .congr ?_ (operand_token (by simp [opens]))
    refine .congr ?_ (primary_group opens _)
    refine .bind ((h ts (q :: vs) depth hts level).mono (fun h => ?_) fun _ _ h => h) ?_
    · simp
      omega
    · rintro e' rest ⟨rfl, same⟩
      exact .of_done (bind_require_done.2 ⟨q, vs, rfl, closes, rfl⟩) ⟨rfl, same⟩

theorem expression_of_operand {m : Precedence} (h : OperandRead stop ts e) (nonempty : ts ≠ [])
    (hus : us.map Token.unplaced = ts.map Token.unplaced) (hvs : headLevel standard vs ≤ m)
    (depth : Nat) :
    Succeeds (depth < 2 * us.length) (expression standard stop depth m) (us ++ vs)
      (ReadAs e vs) := by
  cases depth with
  | zero =>
    have length : us.length = ts.length := by simpa using congrArg List.length hus
    have := List.length_pos_iff.2 nonempty
    exact .inr ⟨by omega, us ++ vs, by rw [expression]; rfl⟩
  | succ depth =>
    rw [expression]
    refine .bind (h us vs depth hus) ?_
    rintro left rest ⟨rfl, same⟩
    exact .of_done (climb_stop hvs _ left) ⟨rfl, same⟩

theorem infixNode_read {l r : Expr} {op : Token} (hop : ¬ standard.level op.kind ≤ .assignment)
    (hl : OperandRead stop (grouped l.isInfix l.written) l)
    (hr : OperandRead stop (grouped r.isInfix r.written) r) :
    WholeRead stop (l.infixNode op r) := by
  intro us vs depth hus hvs
  rw [written_infixNode, List.map_append, List.map_cons] at hus
  obtain ⟨ls, os, rfl, hls, hos⟩ := List.map_eq_append_iff.1 hus
  obtain ⟨t, rs, rfl, ht, hrs⟩ := List.map_eq_cons_iff.1 hos
  have kind : t.kind = op.kind := Token.kind_eq_of_unplaced ht
  have tighter : ¬ standard.level t.kind ≤ .assignment := kind ▸ hop
  have behind : headLevel standard vs ≤ standard.level t.kind :=
    Nat.le_trans hvs (Nat.le_of_not_le tighter)
  cases depth with
  | zero => exact .inr ⟨by simp, _, by rw [expression]; rfl⟩
  | succ depth =>
    rw [expression, List.append_assoc]
    refine .bind ((hl ls _ depth hls).mono (fun h => ?_) fun _ _ h => h) ?_
    · simp
      omega
    rintro l' rest ⟨rfl, samel⟩
    -- the right operand is in parentheses or no infix node, so no operator behind it is part of it
    have right := expression_of_operand hr (grouped_ne_nil r) hrs behind depth
    refine .congr ?_ (climb_step tighter _ l' _)
    refine .bind (right.mono (fun h => ?_) fun _ _ h => h) ?_
    · simp
      omega
    rintro r' rest ⟨rfl, samer⟩
    refine .of_done (climb_stop hvs _ _) ⟨rfl, ?_⟩
    rw [unplaced, relocate_infixNode, unplaced, relocate_infixNode]
    exact congr (congrArg₂ infixNode samel ht) samer

theorem OperandRead.whole (atom : e.isInfix = false) (h : OperandRead stop e.written e) :
    OperandRead stop (grouped e.isInfix e.written) e ∧ WholeRead stop e := by
  have plain : grouped e.isInfix e.written = e.written := by rw [atom]; rfl
  refine ⟨plain.symm ▸ h, fun us vs depth hus hvs => ?_⟩
  exact expression_of_operand h (plain ▸ grouped_ne_nil e) hus hvs depth

theorem Printable.reads {e : Expr} (h : e.Printable) (stop : Location) :
    OperandRead stop (grouped e.isInfix e.written) e ∧ WholeRead stop e := by
  induction h with
  | @literal v _ => exact (literal_read v).whole rfl
  | @name n _ => exact (name_read n).whole rfl
  | unary hk _ _ ih => exact (unary_read hk ih.1).whole rfl
  | @infixNode l r op hop _ _ _ ihl ihr =>
    have whole := infixNode_read hop ihl.1 ihr.1
    refine ⟨?_, whole⟩
    rw [isInfix_infixNode]
    exact group_read whole

end

/-! ## Expressions of a source -/

theorem makes_number {n : Nat} (h : Number.natBits n < Number.infinityBits) :
    standard.Makes (Value.number (Number.ofNat n)).token := by
  obtain ⟨m, text, same⟩ := Value.numberText_ofNat h
  obtain ⟨c, cs, digits⟩ := List.exists_cons_of_ne_nil (Nat.toDigits_ne_nil (n := m) (b := 10))
  have digit : ∀ a ∈ c :: cs, Text.isDecimal a := by
    rw [← digits]
    exact fun a ha => Text.isDecimal_of_isDigit (Text.isDigit_of_mem_natDigits ha)
  have decimal := digit c List.mem_cons_self
  have spacing : ¬ isSpacing c = true := by
    simp only [isSpacing, Bool.or_eq_true, beq_iff_eq]
    rintro (((rfl | rfl) | rfl) | rfl) <;> exact absurd decimal (by decide)
  have quote : c ≠ '"' := by
    rintro rfl
    exact absurd decimal (by decide)
  have all : cs.takeWhile Text.isDecimal = cs :=
    List.takeWhile_eq_self_iff.2 fun a ha => digit a (List.mem_cons_of_mem _ ha)
  have literal : Number.natDigits m = c :: cs := digits
  refine ⟨⟨.number, c :: cs, {}⟩, c, cs, cs.length, ?_, by rw [List.take_length], ?_⟩
  · simp only [token?, Value.token, Value.render, Value.toText, text, ← literal, same]
  · rw [munch, if_neg spacing, if_neg quote, if_pos decimal, all]

theorem makes_null : standard.Makes Value.null.token :=
  ⟨⟨.word, _, {}⟩, 'n', ['u', 'l', 'l'], 3, by decide +kernel, rfl, by decide +kernel⟩

theorem makes_bool (b : Bool) : standard.Makes (Value.bool b).token := by
  cases b with
  | true =>
    exact ⟨⟨.word, _, {}⟩, 't', ['r', 'u', 'e'], 3, by decide +kernel, rfl, by decide +kernel⟩
  | false =>
    exact ⟨⟨.word, _, {}⟩, 'f', ['a', 'l', 's', 'e'], 4, by decide +kernel, rfl,
      by decide +kernel⟩

theorem makes_literal {t : Token} {v : Value} (h : standard.Makes t) (hv : t.literal? = some v)
    (finite : v.isFinite) : standard.Makes v.token := by
  rcases h.standard_cases with ⟨s, hk, hlexeme, hvalue, -⟩ | ⟨n, hk, hvalue⟩ | ⟨hk, -⟩ | ⟨hk, -⟩
  · have value : v = .text s := by simpa [Token.literal?, hk, hvalue] using hv.symm
    have same : t.unplaced = v.token := by
      obtain ⟨kind, lexeme, val, place⟩ := t
      dsimp only at hk hlexeme hvalue
      rw [hk, hlexeme, hvalue, value]
      rfl
    exact same ▸ h.relocate _
  · have value : v = .number (Number.ofNat n) := by
      simpa [Token.literal?, hk, hvalue] using hv.symm
    subst value
    exact makes_number (Number.natBits_lt_of_isFinite finite)
  · simp [Token.literal?, hk] at hv
  · unfold Token.literal? at hv
    split at hv
    case h_1 | h_2 =>
      cases hv
      exact makes_bool _
    case h_3 =>
      cases hv
      exact makes_null
    case h_6 => cases hv
    all_goals
      rename_i scanned
      rw [scanned] at hk
      cases hk

theorem toName_token {t : Token} (h : standard.Makes t) (hk : t.kind = .identifier) :
    t.toName.token = t := by
  obtain ⟨kind, lexeme, value, place⟩ := t
  dsimp only at hk
  subst hk
  rcases h.standard_cases with ⟨s, hs, -⟩ | ⟨n, hn, -⟩ | ⟨-, hvalue⟩ | ⟨hs, -⟩
  · cases hs
  · cases hn
  · dsimp only at hvalue
    rw [hvalue]
    rfl
  · cases hs

theorem printable_of_exprAt {k : Nat} {ts : List Token} {e : Expr} (h : ExprAt standard k ts e)
    (hk : Precedence.lowest ≤ k) (hts : ∀ t ∈ ts, standard.Makes t)
    (finite : ∀ v ∈ e.literals, v.isFinite) : e.Printable := by
  induction h with
  | @literal t v h =>
    exact .literal (makes_literal (hts t List.mem_cons_self) h (finite v List.mem_cons_self))
  | @name t h =>
    have made := hts t List.mem_cons_self
    exact .name ((toName_token made h).symm ▸ made)
  | @group l r ts e _ _ _ ih =>
    exact ih (Nat.le_refl _) (fun t ht => hts t (by simp [ht])) finite
  | @unary t ts e hk' _ ih =>
    exact .unary hk' (hts t List.mem_cons_self)
      (ih hk (fun u hu => hts u (List.mem_cons_of_mem _ hu)) finite)
  | @node k l r op left right _ hop _ ihl ihr =>
    have tighter : ¬ standard.level op.kind ≤ .assignment := by
      rw [← hop] at hk
      exact Nat.not_le_of_lt hk
    rw [literals_infixNode] at finite
    exact .infixNode tighter (hts op (by simp))
      (ihl hk (fun t ht => hts t (by simp [ht])) fun v hv =>
        finite v (List.mem_append_left _ hv))
      (ihr (Nat.le_succ_of_le hk) (fun t ht => hts t (by simp [ht])) fun v hv =>
        finite v (List.mem_append_right _ hv))
  | next _ ih => exact ih (Nat.le_succ_of_le hk) hts finite

/-- Printing an expression and reading the text gives the expression back. An expression that was
read from a source, with finite numbers, has a text without an unclosed quotation mark, and this is
read to its end as the same expression but for the places of its tokens. The one other reason to
fail is that the text nests deeper than there is room for; there always is if the depth is twice
the number of its tokens. -/
theorem parse_render {source : String} {tokens rest : List Token} {stop : Location} {depth : Nat}
    {e : Expr} (scanned : standard.tokenize source = .ok (tokens, stop))
    (read : Parser.expression standard stop depth .assignment tokens = .done e rest)
    (finite : ∀ v ∈ e.literals, v.isFinite) :
    ∃ printed stop', standard.tokenize e.render = .ok (printed, stop') ∧ ∀ depth',
      (∃ e', Parser.expression standard stop' depth' .assignment printed = .done e' [] ∧
        e'.unplaced = e.unplaced) ∨
      depth' < 2 * printed.length ∧
        ∃ rest', Parser.expression standard stop' depth' .assignment printed =
          .failed (.fault (.tooDeep .source)) rest' := by
  have made := makes_of_tokenize scanned
  have closing : standard.level .rightParen ≤ .assignment := by decide
  obtain ⟨ts, rfl, derived, -⟩ :=
    (Parser.expression_reads closing depth).2 .assignment stop tokens e rest read
  have printable : e.Printable :=
    printable_of_exprAt derived (Nat.le_refl _) (fun t ht => made t (by simp [ht])) finite
  obtain ⟨printed, stop', scanned', same⟩ := printable.tokenize_render
  refine ⟨printed, stop', scanned', fun depth' => ?_⟩
  have reads := (printable.reads stop').2 printed [] depth' same (Nat.zero_le _)
  rw [List.append_nil] at reads
  rcases reads with ⟨e', rest', done, rfl, same⟩ | deep
  · exact .inl ⟨e', done, same⟩
  · exact .inr deep

theorem parse_render_groups :
    let source := "-(1 - 007)*\"a b\" and y"
    let scan := standard.scan source
    let e := Expr.logical
      (.binary
        (.unary ⟨.minus, "-", .null, ⟨1, 1, 0⟩⟩
          (.binary (.literal (.number (Number.ofNat 1))) ⟨.minus, "-", .null, ⟨1, 5, 4⟩⟩
            (.literal (.number (Number.ofNat 7)))))
        ⟨.star, "*", .null, ⟨1, 11, 10⟩⟩ (.literal (.text "a b")))
      ⟨.wordAnd, "and", .null, ⟨1, 18, 17⟩⟩ (.name ⟨"y", ⟨1, 22, 21⟩⟩)
    standard.tokenize source = .ok (standard.tokens scan, scan.stop) ∧
    Parser.expression standard scan.stop 40 .assignment (standard.tokens scan) = .done e [] ∧
    (∀ v ∈ e.literals, v.isFinite) ∧ e.render = "(-(1 - 7) * \"a b\") and y" ∧
    ∃ printed stop', standard.tokenize e.render = .ok (printed, stop') ∧ ∀ depth',
      (∃ e', Parser.expression standard stop' depth' .assignment printed = .done e' [] ∧
        e'.unplaced = e.unplaced) ∨
      depth' < 2 * printed.length ∧
        ∃ rest', Parser.expression standard stop' depth' .assignment printed =
          .failed (.fault (.tooDeep .source)) rest' := by
  intro source scan e
  have scanned : standard.tokenize source = .ok (standard.tokens scan, scan.stop) := by
    decide +kernel
  have read : Parser.expression standard scan.stop 40 .assignment (standard.tokens scan) =
      .done e [] := by
    decide +kernel
  have finite : ∀ v ∈ e.literals, v.isFinite := by decide +kernel
  exact ⟨scanned, read, finite, by decide +kernel, parse_render scanned read finite⟩

end Expr

end ScopedScript
