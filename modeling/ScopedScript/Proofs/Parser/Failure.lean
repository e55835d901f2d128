import ScopedScript.Parser.Statement
import ScopedScript.Proofs.Run.Failure

namespace ScopedScript

inductive Failure.OfReading (At : Location → Prop) : Failure → Prop
  | error {cause : Cause} {l : Location} :
    cause.kind = .grammar → At l → OfReading At (.ofCause cause l)
  | tooDeep : OfReading At (.fault (.tooDeep .source))

namespace Failure.OfReading

variable {At Near : Location → Prop} {f : Failure}

theorem mono (h : f.OfReading At) (hn : ∀ l, At l → Near l) : f.OfReading Near := by
  cases h with
  | error hk hl => exact .error hk (hn _ hl)
  | tooDeep => exact .tooDeep

theorem among (h : f.OfReading At) : f.Among [.grammar] := by
  cases h with
  | error hk => simp [hk]
  | tooDeep => trivial

theorem arises (h : f.OfReading At) (settings : Settings) : f.Arises settings := by
  cases h with
  | error => trivial
  | tooDeep => exact .depth .source

end Failure.OfReading

namespace Parser

variable {α β : Type} {At : Location → Prop} {stop : Location}

/-- Where the tokens are at some places a parser fails only there, and with a result that has a
property it leaves tokens at these places. -/
def Yields (At : Location → Prop) (post : α → Prop) (p : Parser α) : Prop :=
  ∀ ts, (∀ t ∈ ts, At t.location) →
    match p ts with
    | .done a rest => post a ∧ ∀ t ∈ rest, At t.location
    | .failed f _ => f.OfReading At

abbrev Grammatical (At : Location → Prop) (p : Parser α) : Prop := Yields At (fun _ => True) p

theorem Yields.bind {post : α → Prop} {post' : β → Prop} {p : Parser α} {f : α → Parser β}
    (hp : Yields At post p) (hf : ∀ a, post a → Yields At post' (f a)) :
    Yields At post' (p >>= f) := by
  intro ts hts
  have first := hp ts hts
  rw [bind_apply]
  generalize p ts = parsed at first ⊢
  cases parsed with
  | done a rest => exact hf a first.1 rest first.2
  | failed f rest => exact first

theorem Grammatical.bind {post : β → Prop} {p : Parser α} {f : α → Parser β}
    (hp : Grammatical At p) (hf : ∀ a, Yields At post (f a)) : Yields At post (p >>= f) :=
  Yields.bind hp fun a _ => hf a

theorem grammatical_pure (a : α) : Grammatical At (pure a) := fun _ hts => ⟨trivial, hts⟩

theorem grammatical_failAt {cause : Cause} {location : Location} (hl : At location)
    (h : cause.kind = .grammar) : Grammatical At (failAt cause location : Parser α) :=
  fun _ _ => .error h hl

theorem grammatical_tooDeep :
    Grammatical At (fail (.fault (.tooDeep .source)) : Parser α) := fun _ _ => .tooDeep

theorem yields_peek : Yields At (fun o => ∀ t ∈ o, At t.location) peek :=
  fun _ hts => ⟨fun t ht => hts t (List.mem_of_mem_head? ht), hts⟩

theorem yields_poll : Yields At (fun o => ∀ t ∈ o, At t.location) poll :=
  fun _ hts => ⟨fun t ht => hts t (List.mem_of_mem_head? ht),
    fun t ht => hts t (List.mem_of_mem_tail ht)⟩

theorem grammatical_atEnd : Grammatical At atEnd := fun _ hts => ⟨trivial, hts⟩

theorem grammatical_isNext (kinds : List TokenKind) : Grammatical At (isNext kinds) :=
  fun _ hts => ⟨trivial, hts⟩

theorem grammatical_parameters : Grammatical At parameters :=
  fun _ hts => ⟨trivial, fun t ht => hts t ((List.dropWhile_sublist _).subset ht)⟩

theorem grammatical_skip (kind : TokenKind) : Grammatical At (skip kind) := by
  intro ts hts
  cases ts with
  | nil => exact ⟨trivial, hts⟩
  | cons t rest =>
    by_cases hk : t.kind = kind
    · simp only [skip, hk, if_true]
      exact ⟨trivial, fun u hu => hts u (List.mem_cons_of_mem _ hu)⟩
    · simp only [skip, hk, if_false]
      exact ⟨trivial, hts⟩

theorem yields_require (hs : At stop) (r : Requirement) :
    Yields At (fun t => At t.location) (require stop r) := by
  intro ts hts
  cases ts with
  | nil => exact .error rfl hs
  | cons t rest =>
    by_cases hk : t.kind = r.kind
    · simp only [require, expect, hk, if_true]
      exact ⟨hts t List.mem_cons_self, fun u hu => hts u (List.mem_cons_of_mem _ hu)⟩
    · simp only [require, expect, hk, if_false]
      exact .error rfl (hts t List.mem_cons_self)

theorem grammatical_require (hs : At stop) (r : Requirement) {post : β → Prop}
    {f : Token → Parser β} (hf : ∀ t, Yields At post (f t)) :
    Yields At post (require stop r >>= f) :=
  (yields_require hs r).bind fun t _ => hf t

theorem grammatical_manyUntilWithin {ends : Parser Bool} {one : Parser α}
    (he : Grammatical At ends) (ho : Grammatical At one) (bound : Nat) :
    Grammatical At (manyUntilWithin ends one bound) := by
  induction bound with
  | zero => exact grammatical_pure _
  | succ bound ih =>
    rw [manyUntilWithin]
    refine he.bind fun ended => ?_
    cases ended
    · exact ho.bind fun _ => ih.bind fun _ => grammatical_pure _
    · exact grammatical_pure _

theorem grammatical_manyUntil {ends : Parser Bool} {one : Parser α} (he : Grammatical At ends)
    (ho : Grammatical At one) : Grammatical At (manyUntil ends one) :=
  fun ts => grammatical_manyUntilWithin he ho _ ts

theorem grammatical_primary (hs : At stop) {group : Parser Expr} (hg : Grammatical At group) :
    Grammatical At (primary stop group) := by
  unfold primary
  refine yields_poll.bind fun t ht => ?_
  split
  · exact grammatical_failAt hs rfl
  · rename_i t
    split
    case h_1 =>
      exact hg.bind fun _ => grammatical_require hs _ fun _ => grammatical_pure _
    case h_8 => exact grammatical_failAt (ht t rfl) rfl
    all_goals exact grammatical_pure _

theorem grammatical_climb (lexicon : Lexicon) {right : Precedence → Parser Expr}
    (hr : ∀ p, Grammatical At (right p)) (minimum : Precedence) (bound : Nat) (left : Expr) :
    Grammatical At (climb lexicon right minimum bound left) := by
  induction bound generalizing left with
  | zero => exact grammatical_pure _
  | succ bound ih =>
    rw [climb]
    refine yields_peek.bind fun t _ => ?_
    split
    · exact grammatical_pure _
    · dsimp only
      split
      · exact grammatical_pure _
      · exact yields_poll.bind fun _ _ => (hr _).bind fun _ => ih _

theorem grammatical_expression (lexicon : Lexicon) (hs : At stop) (depth : Nat) :
    (∀ minimum, Grammatical At (expression lexicon stop depth minimum)) ∧
      Grammatical At (operand lexicon stop depth) := by
  induction depth with
  | zero =>
    refine ⟨fun minimum => ?_, ?_⟩
    · rw [expression]
      exact grammatical_tooDeep
    · rw [operand]
      exact grammatical_tooDeep
  | succ depth ih =>
    have group := grammatical_primary hs (ih.1 .assignment)
    refine ⟨fun minimum => ?_, ?_⟩
    · rw [expression]
      exact ih.2.bind fun left ts => grammatical_climb lexicon ih.1 minimum _ left ts
    · rw [operand]
      refine yields_peek.bind fun t _ => ?_
      split
      · split
        · exact yields_poll.bind fun _ _ => ih.2.bind fun _ => grammatical_pure _
        · exact group
      · exact group

theorem grammatical_closed (hs : At stop) (opener : Location) :
    Grammatical At (closed stop opener) := by
  refine (grammatical_isNext _).bind fun brace => ?_
  cases brace
  · refine grammatical_atEnd.bind fun ended => ?_
    cases ended
    · exact grammatical_pure _
    · exact grammatical_failAt hs rfl
  · exact yields_poll.bind fun _ _ => grammatical_pure _

theorem grammatical_block (hs : At stop) {one : Parser (Option Statement)}
    (ho : Grammatical At one) (opener : Location) : Grammatical At (block stop one opener) :=
  (grammatical_manyUntil (grammatical_closed hs opener) ho).bind fun _ => grammatical_pure _

theorem grammatical_argumentsEnd : Grammatical At argumentsEnd := by
  refine (grammatical_isNext _).bind fun paren => ?_
  cases paren
  · exact grammatical_atEnd
  · exact grammatical_pure _

theorem grammatical_ended {p : Parser α} (h : Grammatical At p) : Grammatical At (ended p) :=
  h.bind fun _ => (grammatical_skip _).bind fun _ => grammatical_pure _

theorem grammatical_arguments (hs : At stop) {expr : Parser Expr} (he : Grammatical At expr) :
    Grammatical At (arguments stop expr) :=
  (grammatical_manyUntil grammatical_argumentsEnd he).bind fun _ =>
    grammatical_require hs _ fun _ => grammatical_pure _

theorem grammatical_guarded (hs : At stop) (opening : Requirement) {expr : Parser Expr}
    {body : Location → Parser Block} (he : Grammatical At expr)
    (hb : ∀ l, Grammatical At (body l)) : Grammatical At (guarded stop opening expr body) :=
  he.bind fun _ => grammatical_require hs _ fun opener =>
    (hb opener.location).bind fun _ => grammatical_pure _

theorem grammatical_declaration (hs : At stop) {expr : Parser Expr}
    {body : Location → Parser Block} (he : Grammatical At expr)
    (hb : ∀ l, Grammatical At (body l)) : Grammatical At (declaration stop expr body) := by
  unfold declaration
  refine grammatical_require hs _ fun name => ?_
  refine yields_poll.bind fun t ht => ?_
  split
  · exact grammatical_failAt hs rfl
  · rename_i t
    split
    · exact grammatical_parameters.bind fun _ => grammatical_require hs _ fun _ =>
        grammatical_require hs _ fun opener =>
        (hb opener.location).bind fun _ => grammatical_pure _
    · exact (grammatical_ended he).bind fun _ => grammatical_pure _
    · exact grammatical_pure _
    · exact grammatical_failAt (ht t rfl) rfl

theorem grammatical_nameStatement (hs : At stop) {expr : Parser Expr} (he : Grammatical At expr)
    (name : Name) : Grammatical At (nameStatement stop expr name) := by
  unfold nameStatement
  refine yields_poll.bind fun t ht => ?_
  split
  · exact grammatical_failAt hs rfl
  · rename_i t
    split
    · exact (grammatical_ended he).bind fun _ => grammatical_pure _
    · exact (grammatical_ended (grammatical_arguments hs he)).bind fun _ => grammatical_pure _
    · exact grammatical_failAt (ht t rfl) rfl

theorem grammatical_statement (lexicon : Lexicon) (hs : At stop) (depth : Nat) :
    Grammatical At (statement lexicon stop depth) := by
  induction depth with
  | zero => exact grammatical_tooDeep
  | succ depth ih =>
    have expr := (grammatical_expression lexicon hs depth).1 .assignment
    have body := grammatical_block hs ih
    rw [statement]
    refine yields_poll.bind fun t ht => ?_
    split
    · exact grammatical_failAt hs rfl
    · rename_i t
      split
      · exact grammatical_pure _
      · exact (grammatical_declaration hs expr body).bind fun _ => grammatical_pure _
      · exact (grammatical_nameStatement hs expr _).bind fun _ => grammatical_pure _
      · exact (grammatical_guarded hs .branchBody expr body).bind fun _ => grammatical_pure _
      · exact (grammatical_guarded hs .loopBody expr body).bind fun _ => grammatical_pure _
      · exact grammatical_failAt (ht t rfl) rfl

def orAtEnd (p q : Parser α) : Parser α := fun ts => if ts.isEmpty then q ts else p ts

theorem manyUntilWithin_orAtEnd {ends : Parser Bool} {one : Parser α} (q : Parser α)
    (h : ∀ rest, ends [] ≠ .done false rest)
    (hr : ∀ ts rest, ends ts = .done false rest → rest = ts) (bound : Nat) :
    manyUntilWithin ends (one.orAtEnd q) bound = manyUntilWithin ends one bound := by
  induction bound with
  | zero => rfl
  | succ bound ih =>
    funext ts
    rw [manyUntilWithin, manyUntilWithin, ih, bind_apply, bind_apply]
    rcases he : ends ts with ⟨b, rest⟩ | ⟨f, rest⟩
    · cases b with
      | true => rfl
      | false =>
        have left : ts ≠ [] := fun e => h rest (e ▸ he)
        have same : orAtEnd one q ts = one ts := if_neg (by simpa using left)
        simp only [hr ts rest he, Bool.false_eq_true, if_false, bind_apply, same]
    · rfl

theorem program_orAtEnd (one q : Parser (Option Statement)) :
    program (one.orAtEnd q) = program one := by
  have same (bound : Nat) : manyUntilWithin atEnd (one.orAtEnd q) bound =
      manyUntilWithin atEnd one bound := by
    refine manyUntilWithin_orAtEnd q (fun rest h => by cases h) (fun ts rest h => ?_) bound
    injection h with _ hrest
    exact hrest.symm
  funext ts
  simp only [program, manyUntil, bind_apply, same]

theorem block_orAtEnd (stop : Location) (one q : Parser (Option Statement)) (opener : Location) :
    block stop (one.orAtEnd q) opener = block stop one opener := by
  have same (bound : Nat) : manyUntilWithin (closed stop opener) (one.orAtEnd q) bound =
      manyUntilWithin (closed stop opener) one bound := by
    refine manyUntilWithin_orAtEnd q (fun rest h => by cases h) (fun ts rest h => ?_) bound
    cases ts with
    | nil => cases h
    | cons t us =>
      by_cases brace : t.kind = .rightBrace <;>
        simp [closed, bind_apply, isNext, atEnd, poll, brace] at h
      exact h.symm
  funext ts
  simp only [block, manyUntil, bind_apply, same]

end Parser

theorem parseTokens_ofReading {lexicon : Lexicon} {tokens : List Token} {stop : Location}
    {f : Failure} (h : lexicon.parseTokens tokens stop = .error f) :
    f.OfReading fun l => (∃ t ∈ tokens, t.location = l) ∨ l = stop := by
  let At (l : Location) : Prop := (∃ t ∈ tokens, t.location = l) ∨ l = stop
  have program : Parser.Grammatical At
      (Parser.program (Parser.statement lexicon stop Parser.depthLimit)) :=
    Parser.Grammatical.bind (Parser.grammatical_manyUntil Parser.grammatical_atEnd
      (Parser.grammatical_statement lexicon (.inr rfl) _)) fun _ => Parser.grammatical_pure _
  have read := program tokens fun t ht => .inl ⟨t, ht, rfl⟩
  unfold Lexicon.parseTokens Lexicon.parseWithin at h
  split at h
  · cases h
  · rename_i g rest hg
    cases h
    rw [hg] at read
    exact read

theorem parse_ofReading {lexicon : Lexicon} {source : String} {f : Failure}
    (h : lexicon.parse source = .error f) :
    let scan := lexicon.scan source
    f.OfReading fun l => (∃ t ∈ lexicon.tokens scan, t.location = l) ∨ scan.unclosed = some l ∨
      scan.unclosed = none ∧ l = scan.stop := by
  unfold Lexicon.parse Lexicon.tokenize at h
  dsimp only at h ⊢
  cases he : (lexicon.scan source).error? with
  | some e =>
    rw [he] at h
    cases h
    obtain ⟨opening, ho, rfl⟩ := Option.map_eq_some_iff.1 he
    exact .error rfl (.inr (.inl ho))
  | none =>
    rw [he] at h
    have closed : (lexicon.scan source).unclosed = none := Option.map_eq_none_iff.1 he
    refine (parseTokens_ofReading h).mono ?_
    rintro l (token | rfl)
    · exact .inl token
    · exact .inr (.inr ⟨closed, rfl⟩)

theorem parse_failsWith (lexicon : Lexicon) (source : String) :
    FailsWith [.grammar] (lexicon.parse source) := fun _ h => (parse_ofReading h).among

end ScopedScript
