import ScopedScript.Proofs.Parser.Exact.Statement
import ScopedScript.Proofs.Parser.Predictive.Expr

namespace ScopedScript

namespace Parser

def ArgumentsPhrase (lexicon : Lexicon) (ts : List Token) (es : List Expr) : Prop :=
  ∃ us r, ts = us ++ [r] ∧ ExprsAt lexicon us es ∧ r.kind = .rightParen

def EndedPhrase {α : Type} (phrase : List Token → α → Prop) (ts : List Token) (a : α) : Prop :=
  ∃ us ss, ts = us ++ ss ∧ phrase us a ∧ (ss = [] ∨ ∃ t, t.kind = .semicolon ∧ ss = [t])

def StatementPhrase (lexicon : Lexicon) (ts : List Token) (s : Option Statement) : Prop :=
  ts ≠ [] ∧ DerivesAll lexicon ts s.toList

def BlockPhrase (lexicon : Lexicon) (ts : List Token) (b : Block) : Prop :=
  ∃ us closer, ts = us ++ [closer] ∧ DerivesAll lexicon us b ∧ closer.kind = .rightBrace

def GuardedPhrase (lexicon : Lexicon) (ts : List Token) (c : Expr × Block) : Prop :=
  ∃ cs opener us, ts = cs ++ opener :: us ∧ ExprAt lexicon Precedence.lowest cs c.1 ∧
    opener.kind = .leftBrace ∧ BlockPhrase lexicon us c.2

section

variable {lexicon : Lexicon} {room : Nat} {stop : Location}

theorem Repeated.exprsAt {ts : List Token} {es : List Expr}
    (h : Repeated (ExprAt lexicon Precedence.lowest) (fun us => us = []) ts es) :
    ExprsAt lexicon ts es := by
  induction h with
  | nil h =>
    rw [h]
    exact .nil
  | cons he _ ih => exact .cons he ih

theorem Repeated.derivesAll {last : List Token → Prop} {ts : List Token}
    {ss : List (Option Statement)} (h : Repeated (StatementPhrase lexicon) last ts ss) :
    ∃ us closing, ts = us ++ closing ∧ DerivesAll lexicon us (ss.filterMap id) ∧ last closing := by
  induction h with
  | nil h => exact ⟨[], _, rfl, .nil, h⟩
  | @cons ts us s ss hs _ ih =>
    obtain ⟨us, closing, rfl, hd, hc⟩ := ih
    refine ⟨ts ++ us, closing, (List.append_assoc ..).symm, ?_, hc⟩
    have := hs.2.append hd
    cases s <;> simpa using this

theorem argumentsEnd_predictive :
    Predictive room stop (EndsWith fun ts => ts = []) argumentsEnd := by
  refine ⟨⟨[], true, rfl⟩, fun us => ?_⟩
  cases us with
  | nil =>
    refine .stays (a := true) rfl fun vs hv => ?_
    obtain rfl := List.head?_eq_none_iff.1 hv
    rfl
  | cons t us =>
    by_cases hk : t.kind = .rightParen
    · refine .stays (a := true) rfl fun vs hv => ?_
      obtain ⟨vs, rfl⟩ := List.head?_eq_some_iff.1 hv
      exact argumentsEnd_closes hk vs
    · refine .stays (a := false) rfl fun vs hv => ?_
      obtain ⟨vs, rfl⟩ := List.head?_eq_some_iff.1 hv
      exact argumentsEnd_goes ⟨t, vs, rfl, hk⟩

theorem closed_predictive (opener : Location) : Predictive room stop
    (EndsWith fun ts => ∃ c : Token, ts = [c] ∧ c.kind = .rightBrace) (closed stop opener) := by
  refine ⟨⟨[], false, rfl⟩, fun us => ?_⟩
  cases us with
  | nil =>
    exact .refuses_end (.unclosedBlock opener) ⟨[], false, rfl⟩ rfl ⟨[], rfl⟩
  | cons t us =>
    by_cases hk : t.kind = .rightBrace
    · exact .takes [t] (a := true) rfl ⟨t, rfl, hk⟩ fun vs _ => closed_closes hk vs
    · refine .stays (a := false) rfl fun vs hv => ?_
      obtain ⟨vs, rfl⟩ := List.head?_eq_some_iff.1 hv
      exact closed_goes hk vs

theorem atEnd_predictive : Predictive room stop (EndsWith fun ts => ts = []) atEnd := by
  refine ⟨⟨[], true, rfl⟩, fun us => .stays (a := us.isEmpty) ?_ fun vs hv => ?_⟩
  · cases us <;> rfl
  · cases us <;> cases vs <;> first | rfl | cases hv

theorem arguments_predictive {expr : Parser Expr}
    (he : Predictive room stop (ExprAt lexicon Precedence.lowest) expr) :
    Predictive room stop (ArgumentsPhrase lexicon) (arguments stop expr) := by
  refine (argumentsEnd_predictive.manyUntil ⟨[], rfl⟩ he fun _ _ h => h.ne_nil).bind
    fun ts es hes => ?_
  refine .require_bind fun r hr => .pure ?_
  exact ⟨ts, r, rfl, hes.exprsAt, hr⟩

theorem block_predictive {one : Parser (Option Statement)}
    (ho : Predictive room stop (StatementPhrase lexicon) one) (opener : Location) :
    Predictive room stop (BlockPhrase lexicon) (block stop one opener) := by
  have closes : ∃ ts, ∃ c : Token, ts = [c] ∧ c.kind = .rightBrace :=
    ⟨_, ⟨.rightBrace, "", .null, stop⟩, rfl, rfl⟩
  refine ((closed_predictive opener).manyUntil closes ho fun _ _ h => h.1).bind fun ts ss hss => ?_
  obtain ⟨us, -, rfl, hd, c, rfl, hc⟩ := hss.derivesAll
  exact .pure ⟨us, c, by simp, hd, hc⟩

theorem ended_predictive {α : Type} {phrase : List Token → α → Prop} {p : Parser α}
    (h : Predictive room stop phrase p) :
    Predictive room stop (EndedPhrase phrase) (ended p) :=
  h.bind fun ts a ha => (Predictive.skip room stop .semicolon).bind fun ss _ hss =>
    .pure ⟨ts, ss, by simp, ha, hss⟩

theorem parameters_predictive : Predictive room stop
    (fun ts names => (∀ t ∈ ts, t.kind = .identifier) ∧ names = ts.map Token.lexeme)
    parameters := by
  refine ⟨⟨[], [], by simp⟩, fun us => ?_⟩
  obtain ⟨ts, hus, hids, hnames⟩ := parameters_done (rfl : parameters us = .done _ _)
  refine .takes ts hus ⟨hids, hnames⟩ fun vs hv => ?_
  rw [hnames]
  refine parameters_append hids fun t ht hk => ?_
  have behind := List.head?_dropWhile_not (fun t : Token => t.kind == .identifier) us
  simp [← hv, ht, hk] at behind

theorem guarded_predictive {opening : Requirement} {expr : Parser Expr}
    {body : Location → Parser Block} (ho : opening.kind = .leftBrace)
    (he : Predictive room stop (ExprAt lexicon Precedence.lowest) expr)
    (hb : ∀ opener, Predictive room stop (BlockPhrase lexicon) (body opener)) :
    Predictive room stop (GuardedPhrase lexicon) (guarded stop opening expr body) := by
  refine he.bind fun cs e hcs => .require_bind fun opener hk => ?_
  refine (hb opener.location).bind fun us b hus => .pure ?_
  exact ⟨cs, opener, us, by simp, hcs, hk.trans ho, hus⟩

section

variable {expr : Parser Expr} {body : Location → Parser Block} {name t : Token}

theorem declaration_alone (hn : name.kind = .identifier) : declaration stop expr body [name] =
    .failed (.ofCause .unfinishedDeclaration stop) [] := by
  rw [declaration, bind_of_done (require_cons (r := .variableName) hn)]
  rfl

theorem declaration_refuses (hn : name.kind = .identifier) (hp : t.kind ≠ .leftParen)
    (he : t.kind ≠ .equal) (hs : t.kind ≠ .semicolon) (us : List Token) :
    declaration stop expr body (name :: t :: us) =
      .failed (.ofCause .unfinishedDeclaration t.location) us := by
  rw [declaration, bind_of_done (require_cons (r := .variableName) hn), bind_poll_cons]
  cases hk : t.kind <;> simp_all [failAt, fail]

theorem nameStatement_refuses {name : Name} (he : t.kind ≠ .equal) (hp : t.kind ≠ .leftParen)
    (us : List Token) : nameStatement stop expr name (t :: us) =
      .failed (.ofCause (.danglingName name.text) t.location) us := by
  rw [nameStatement, bind_poll_cons]
  cases hk : t.kind <;> simp_all [failAt, fail]

theorem declaration_predictive {var : Token} (hv : var.kind = .wordVar)
    (he : Predictive room stop (ExprAt lexicon Precedence.lowest) expr)
    (hb : ∀ opener, Predictive room stop (BlockPhrase lexicon) (body opener)) :
    Predictive room stop (fun ts s => DerivesAll lexicon (var :: ts) [s])
      (declaration stop expr body) := by
  obtain ⟨g, hg⟩ : ∃ g, declaration stop expr body = require stop .variableName >>= g := ⟨_, rfl⟩
  have here {name : Token} (hn : name.kind = .identifier) (us : List Token) :
      g name us = declaration stop expr body (name :: us) := by
    rw [hg, bind_of_done (require_cons (r := .variableName) hn)]
  rw [hg]
  refine .require_bind fun name hn => ?_
  have begins : Begins (fun ts s => DerivesAll lexicon (var :: name :: ts) [s]) [] :=
    ⟨[⟨.semicolon, "", .null, stop⟩], _, .one (.declare hv hn rfl)⟩
  refine ⟨begins, fun us => ?_⟩
  cases us with
  | nil =>
    have alone := (here hn []).trans (declaration_alone hn)
    exact .refuses_end .unfinishedDeclaration begins rfl ⟨[], alone⟩
  | cons t us =>
    have goesOn (vs : List Token) := here hn (t :: vs)
    have deeper (h : room + 2 ≤ 2 * (t :: us).length) : room ≤ 2 * (t :: us).length := by omega
    by_cases hp : t.kind = .leftParen
    · have method := fun vs => (goesOn vs).trans (declaration_paren hn hp vs)
      refine (Predictive.behind ?_ method us).mono deeper fun _ _ h => h
      refine parameters_predictive.bind fun ps names hps => ?_
      refine .require_bind fun r hr => .require_bind fun opener ho => ?_
      refine (hb opener.location).bind fun us b hus => .pure ?_
      obtain ⟨ts, closer, rfl, hd, hc⟩ := hus
      obtain ⟨hids, rfl⟩ := hps
      simpa using DerivesAll.one (.method hv hn hp hids hr ho hd hc)
    by_cases heq : t.kind = .equal
    · have initialized := fun vs => (goesOn vs).trans (declaration_equal hn heq vs)
      refine (Predictive.behind ?_ initialized us).mono deeper fun _ _ h => h
      refine (ended_predictive he).bind fun ts e hts => .pure ?_
      obtain ⟨us, ss, rfl, hus, hss⟩ := hts
      simpa using DerivesAll.ended (.initialized hv hn heq hus) hss
    by_cases hs : t.kind = .semicolon
    · refine .takes [t] rfl (.one (.declare hv hn hs)) fun vs _ => ?_
      exact (goesOn vs).trans (declaration_semicolon hn hs vs)
    refine .refuses_head .unfinishedDeclaration begins rfl fun vs => ⟨vs, ?_⟩
    exact (goesOn vs).trans (declaration_refuses hn hp heq hs vs)

theorem nameStatement_predictive (hn : name.kind = .identifier)
    (he : Predictive room stop (ExprAt lexicon Precedence.lowest) expr) :
    Predictive room stop (fun ts s => DerivesAll lexicon (name :: ts) [s])
      (nameStatement stop expr name.toName) := by
  have begins : Begins (fun ts s => DerivesAll lexicon (name :: ts) [s]) [] :=
    ⟨[⟨.leftParen, "", .null, stop⟩, ⟨.rightParen, "", .null, stop⟩], _,
      .one (.call hn rfl .nil rfl)⟩
  refine ⟨begins, fun us => ?_⟩
  cases us with
  | nil => exact .refuses_end (.danglingName name.toName.text) begins rfl ⟨[], rfl⟩
  | cons t us =>
    have deeper (h : room + 2 ≤ 2 * (t :: us).length) : room ≤ 2 * (t :: us).length := by omega
    by_cases heq : t.kind = .equal
    · refine (Predictive.behind ?_ (nameStatement_equal heq) us).mono deeper fun _ _ h => h
      refine (ended_predictive he).bind fun ts e hts => .pure ?_
      obtain ⟨us, ss, rfl, hus, hss⟩ := hts
      simpa using DerivesAll.ended (.assign hn heq hus) hss
    by_cases hp : t.kind = .leftParen
    · refine (Predictive.behind ?_ (nameStatement_paren hp) us).mono deeper fun _ _ h => h
      refine (ended_predictive (arguments_predictive he)).bind fun ts es hts => .pure ?_
      obtain ⟨_, ss, rfl, ⟨us, r, rfl, hes, hr⟩, hss⟩ := hts
      simpa using DerivesAll.ended (.call hn hp hes hr) hss
    refine .refuses_head (.danglingName name.toName.text) begins rfl fun vs => ⟨vs, ?_⟩
    exact nameStatement_refuses heq hp vs

end

end

theorem statement_refuses {lexicon : Lexicon} {stop : Location} {depth : Nat} {t : Token}
    (h : t.kind ∉ [.semicolon, .wordVar, .identifier, .wordIf, .wordWhile]) (us : List Token) :
    statement lexicon stop (depth + 1) (t :: us) =
      .failed (.ofCause (.unexpectedToken t.lexeme) t.location) us := by
  rw [statement, bind_poll_cons]
  cases hk : t.kind <;> simp_all [failAt, fail]

theorem begins_statement (lexicon : Lexicon) : Begins (StatementPhrase lexicon) [] :=
  ⟨[⟨.semicolon, "", .null, {}⟩], none, List.cons_ne_nil _ _, .one (.empty rfl)⟩

theorem statement_predictive (lexicon : Lexicon) (stop : Location) (depth : Nat) :
    Predictive depth stop (StatementPhrase lexicon) (statement lexicon stop depth) := by
  induction depth with
  | zero =>
    rw [statement]
    exact .tooDeep (begins_statement lexicon)
  | succ depth ih =>
    have expr : Predictive (depth - 1) stop (ExprAt lexicon Precedence.lowest)
        (expression lexicon stop depth .assignment) :=
      (expression_predictive lexicon stop depth).2 .assignment
    have body := block_predictive (ih.mono (Nat.sub_le depth 1) fun _ _ h => h)
    refine ⟨begins_statement lexicon, fun us => ?_⟩
    cases us with
    | nil =>
      refine .refuses_end .expressionMissing (begins_statement lexicon) rfl ⟨[], ?_⟩
      rw [statement]
      rfl
    | cons t us =>
      have room (h : depth - 1 + 2 ≤ 2 * (t :: us).length) : depth + 1 ≤ 2 * (t :: us).length := by
        omega
      by_cases hs : t.kind = .semicolon
      · refine .takes [t] rfl ⟨List.cons_ne_nil _ _, .one (.empty hs)⟩ fun vs _ => ?_
        exact statement_semicolon hs vs
      by_cases hv : t.kind = .wordVar
      · refine (Predictive.behind ?_ (statement_var hv) us).mono room fun _ _ h => h
        refine (declaration_predictive hv expr body).bind fun ts s hts => .pure ?_
        exact ⟨List.cons_ne_nil _ _, by simpa using hts⟩
      by_cases hn : t.kind = .identifier
      · refine (Predictive.behind ?_ (statement_name hn) us).mono room fun _ _ h => h
        refine (nameStatement_predictive hn expr).bind fun ts s hts => .pure ?_
        exact ⟨List.cons_ne_nil _ _, by simpa using hts⟩
      by_cases hi : t.kind = .wordIf
      · refine (Predictive.behind ?_ (statement_if hi) us).mono room fun _ _ h => h
        refine (guarded_predictive rfl expr body).bind fun ts c hts => .pure ?_
        obtain ⟨cs, opener, _, rfl, hcs, ho, us, closer, rfl, hd, hc⟩ := hts
        refine ⟨List.cons_ne_nil _ _, ?_⟩
        simpa using DerivesAll.one (.branch hi hcs ho hd hc)
      by_cases hw : t.kind = .wordWhile
      · refine (Predictive.behind ?_ (statement_while hw) us).mono room fun _ _ h => h
        refine (guarded_predictive rfl expr body).bind fun ts c hts => .pure ?_
        obtain ⟨cs, opener, _, rfl, hcs, ho, us, closer, rfl, hd, hc⟩ := hts
        refine ⟨List.cons_ne_nil _ _, ?_⟩
        simpa using DerivesAll.one (.loop hw hcs ho hd hc)
      refine .refuses_head (.unexpectedToken t.lexeme) (begins_statement lexicon) rfl
        fun vs => ⟨vs, statement_refuses ?_ vs⟩
      simp [hs, hv, hn, hi, hw]

theorem program_predictive (lexicon : Lexicon) (stop : Location) (depth : Nat) :
    Predictive depth stop (DerivesAll lexicon) (program (statement lexicon stop depth)) := by
  refine (atEnd_predictive.manyUntil ⟨[], rfl⟩ (statement_predictive lexicon stop depth)
    fun _ _ h => h.1).bind fun ts ss hss => ?_
  obtain ⟨us, _, rfl, hd, rfl⟩ := hss.derivesAll
  exact .pure (by simpa using hd)

theorem parseWithin_derives {lexicon : Lexicon} {depth : Nat} {tokens : List Token}
    {stop : Location} {b : Block} (h : lexicon.parseWithin depth tokens stop = .ok b) :
    ∃ used, used <+: tokens ∧ DerivesAll lexicon used b := by
  unfold Lexicon.parseWithin at h
  split at h
  · rename_i rest hp
    cases h
    obtain ⟨used, rfl, derived⟩ := ((program_predictive lexicon stop depth).predicts tokens).done hp
    exact ⟨used, List.prefix_append used rest, derived⟩
  · cases h

end Parser

end ScopedScript
