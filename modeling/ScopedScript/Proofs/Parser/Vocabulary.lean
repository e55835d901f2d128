import ScopedScript.Proofs.Expr.RoundTrip
import ScopedScript.Proofs.Run.Upheld

namespace ScopedScript

theorem ExprAt.exists_literal {lexicon : Lexicon} {k : Nat} {ts : List Token} {e : Expr}
    (h : ExprAt lexicon k ts e) : ∀ v ∈ e.literals, ∃ t ∈ ts, t.literal? = some v := by
  induction h with
  | @literal t v h =>
    intro u hu
    rw [List.mem_singleton.1 hu]
    exact ⟨t, List.mem_cons_self, h⟩
  | name _ => exact fun v hv => absurd hv List.not_mem_nil
  | group _ _ _ ih | unary _ _ ih =>
    intro v hv
    obtain ⟨t, ht, h⟩ := ih v hv
    exact ⟨t, by simp [ht], h⟩
  | node _ _ _ ihl ihr =>
    intro v hv
    rw [Expr.literals_infixNode] at hv
    rcases List.mem_append.1 hv with hv | hv
    · obtain ⟨t, ht, h⟩ := ihl v hv
      exact ⟨t, by simp [ht], h⟩
    · obtain ⟨t, ht, h⟩ := ihr v hv
      exact ⟨t, by simp [ht], h⟩
  | next _ ih => exact ih

structure Vocabulary.Covers (v : Vocabulary) (lexicon : Lexicon) (P : Token → Prop) : Prop where
  declares {t : Token} : P t → t.kind = .identifier → v.declares t.lexeme
  assigns {t : Token} : P t → t.kind = .identifier → v.assigns t.lexeme
  evaluates {ts : List Token} {e : Expr} :
    ExprAt lexicon Precedence.lowest ts e → (∀ t ∈ ts, P t) → v.evaluates e

section

variable {v : Vocabulary} {lexicon : Lexicon} {P : Token → Prop}

theorem Block.within_append {b c : Block} (hb : Block.Within v b) (hc : Block.Within v c) :
    Block.Within v (b ++ c) := by
  induction b with
  | nil => exact hc
  | cons s b ih => exact ⟨hb.1, ih hb.2⟩

theorem ExprsAt.evaluates (C : v.Covers lexicon P) {ts : List Token} {es : List Expr}
    (h : ExprsAt lexicon ts es) (ht : ∀ t ∈ ts, P t) : ∀ e ∈ es, v.evaluates e := by
  induction h with
  | nil => simp
  | cons h _ ih =>
    intro e he
    rcases List.mem_cons.1 he with rfl | he
    · exact C.evaluates h fun t hu => ht t (by simp [hu])
    · exact ih (fun t hu => ht t (by simp [hu])) e he

mutual

theorem Derives.within (C : v.Covers lexicon P) {ts : List Token} {s : Option Statement}
    (h : Derives lexicon ts s) (ht : ∀ t ∈ ts, P t) : Block.Within v s.toList := by
  match h with
  | .method _ hn _ _ _ _ body _ =>
    exact ⟨⟨C.declares (ht _ (by simp)) hn, body.within C fun t hu => ht t (by simp [hu])⟩,
      trivial⟩
  | .initialized _ hn _ he =>
    exact ⟨⟨C.declares (ht _ (by simp)) hn, C.evaluates he fun t hu => ht t (by simp [hu])⟩,
      trivial⟩
  | .declare _ hn _ => exact ⟨C.declares (ht _ (by simp)) hn, trivial⟩
  | .assign hn _ he =>
    exact ⟨⟨C.assigns (ht _ (by simp)) hn, C.evaluates he fun t hu => ht t (by simp [hu])⟩,
      trivial⟩
  | .call _ _ hes _ => exact ⟨hes.evaluates C fun t hu => ht t (by simp [hu]), trivial⟩
  | .branch _ he _ body _ =>
    exact ⟨⟨C.evaluates he fun t hu => ht t (by simp [hu]),
      body.within C fun t hu => ht t (by simp [hu])⟩, trivial⟩
  | .loop _ he _ body _ =>
    exact ⟨⟨C.evaluates he fun t hu => ht t (by simp [hu]),
      body.within C fun t hu => ht t (by simp [hu])⟩, trivial⟩
  | .empty _ => exact trivial

theorem DerivesAll.within (C : v.Covers lexicon P) {ts : List Token} {b : Block}
    (h : DerivesAll lexicon ts b) (ht : ∀ t ∈ ts, P t) : Block.Within v b := by
  match h with
  | .nil => exact trivial
  | .cons first rest =>
    exact Block.within_append (first.within C fun t hu => ht t (by simp [hu]))
      (rest.within C fun t hu => ht t (by simp [hu]))

end

end

end ScopedScript
