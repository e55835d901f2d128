import Mathlib.Data.List.TakeWhile
import ScopedScript.Proofs.Token.Place
import ScopedScript.Proofs.Token.Tables

/-!
# The tokens of a source as its parts

Scanning loses nothing. The tokens of a source stand one behind the other, each is what the source
has in its place, and what stands between them are blanks and characters that nothing starts with.
`ReadAs` has a rule for each sort of token: words and numbers go as far as they can, and a fixed
text is the first one of the lexicon that matches. Main statement: `tokenize_segments`.
-/

namespace ScopedScript

structure IsRun (p : Char → Bool) (cs behind : List Char) : Prop where
  all : ∀ c ∈ cs, p c = true
  ends : ∀ c, behind.head? = some c → p c = false

def Token.Spans (t : Token) (k : Nat) : Prop :=
  t.location.cursor ≤ k ∧ (k : Int) < t.location.cursor + t.lexeme.length

theorem isRun_takeWhile (p : Char → Bool) (cs : List Char) :
    IsRun p (cs.takeWhile p) (cs.drop (cs.takeWhile p).length) := by
  have behind := calc cs.drop (cs.takeWhile p).length
    _ = (cs.takeWhile p ++ cs.dropWhile p).drop (cs.takeWhile p).length := by
      rw [List.takeWhile_append_dropWhile]
    _ = cs.dropWhile p := List.drop_left
  refine ⟨fun c hc => List.mem_takeWhile_imp hc, fun c hc => ?_⟩
  rw [behind] at hc
  simpa [hc] using List.head?_dropWhile_not p cs

theorem IsRun.cons {p : Char → Bool} {c : Char} {cs behind : List Char} (hc : p c = true)
    (h : IsRun p cs behind) : IsRun p (c :: cs) behind :=
  ⟨List.forall_mem_cons.2 ⟨hc, h.all⟩, h.ends⟩

namespace Lexicon

def Ordered (l : Lexicon) : Prop :=
  l.spellings.Pairwise fun s r => ¬ (s.chars <+: r.chars ∧ s.chars ≠ r.chars)

instance (l : Lexicon) : Decidable l.Ordered :=
  inferInstanceAs (Decidable (List.Pairwise _ _))

theorem ordered_standard : Ordered standard := by decide +kernel

theorem Ordered.longest {l : Lexicon} (hl : l.Ordered) {cs : List Char} {s r : Spelling}
    (h : l.spellings.find? (·.matchesAt cs) = some s) (hr : r ∈ l.spellings)
    (hm : r.matchesAt cs) : r.chars.length ≤ s.chars.length := by
  obtain ⟨hs, as, bs, split, before⟩ := List.find?_eq_some_iff_append.1 h
  have starts : s.chars <+: cs := List.isPrefixOf_iff_prefix.1 hs
  have starts' : r.chars <+: cs := List.isPrefixOf_iff_prefix.1 hm
  refine Nat.le_of_not_lt fun longer => ?_
  have proper : s.chars <+: r.chars := List.prefix_of_prefix_length_le starts starts'
    (Nat.le_of_lt longer)
  rw [Ordered, split, List.pairwise_append] at hl
  rw [split] at hr
  rcases List.mem_append.1 hr with hr | hr
  · simpa [hm] using before r hr
  · rcases List.mem_cons.1 hr with rfl | hr
    · exact Nat.lt_irrefl _ longer
    · refine (List.pairwise_cons.1 hl.2.1).1 r hr ⟨proper, fun same => ?_⟩
      rw [same] at longer
      exact Nat.lt_irrefl _ longer

structure Stray (l : Lexicon) (c : Char) (behind : List Char) : Prop where
  opens : OpensNothing c
  unmatched : ∀ s ∈ l.spellings, s.matchesAt (c :: behind) = false

inductive ReadAs (l : Lexicon) (t : Token) (behind : List Char) : Prop
  | keyword : IsRun Text.isLetter t.lexeme.toList behind →
    l.keywords.lookup t.lexeme = some t.kind → t.kind.isScanned = false → t.value = .null →
    ReadAs l t behind
  | name : IsRun Text.isLetter t.lexeme.toList behind → l.keywords.lookup t.lexeme = none →
    t.kind = .identifier → t.value = .text t.lexeme → ReadAs l t behind
  | number : IsRun Text.isDecimal t.lexeme.toList behind → t.kind = .number → ReadAs l t behind
  | text {s : String} : t.kind = .text → t.lexeme = "\"" ++ s ++ "\"" → t.value = .text s →
    '"' ∉ s.toList → ReadAs l t behind
  | fixed {s : Spelling} : OpensNothing s.first →
    l.spellings.find? (·.matchesAt (t.lexeme.toList ++ behind)) = some s → t.kind = s.kind →
    t.lexeme = s.text → t.kind.isScanned = false →
    (l.Ordered → ∀ r ∈ l.spellings, r.matchesAt (t.lexeme.toList ++ behind) →
      r.text.length ≤ t.lexeme.length) → ReadAs l t behind

theorem readAs_of_munch {l : Lexicon} (hl : l.Proper) {c : Char} {cs : List Char} {shape : Shape}
    {n : Nat} {p : Location} {t : Token} (hm : l.munch c cs = some (shape, n))
    (ht : l.token? ⟨shape, c :: cs.take n, p⟩ = some t) : l.ReadAs t (cs.drop n) := by
  have run {q : Char → Bool} (hc : q c = true) : IsRun q
      (c :: cs.take (cs.takeWhile q).length) (cs.drop (cs.takeWhile q).length) := by
    rw [← List.prefix_iff_eq_take.1 (List.takeWhile_prefix q)]
    exact (isRun_takeWhile q cs).cons hc
  cases munched hm with
  | blank _ => cases ht
  | stray _ _ => cases ht
  | text =>
    obtain ⟨s, unquoted, rfl⟩ := text_of_munch hm ht
    exact .text rfl rfl rfl unquoted
  | number hc =>
    cases ht
    exact .number (by rw [String.toList_ofList]; exact run hc) rfl
  | word hc =>
    simp only [token?] at ht
    split at ht
    · rename_i kind hk
      cases ht
      exact .keyword (by rw [String.toList_ofList]; exact run hc) hk (hl.of_keyword? hk).1 rfl
    · rename_i hk
      cases ht
      exact .name (by rw [String.toList_ofList]; exact run hc) hk rfl rfl
  | @fixed s opens found =>
    cases ht
    have hs := List.mem_of_find?_eq_some found
    have chars := (chars_of_find? found).1
    have whole : (String.ofList (c :: cs.take s.rest.length)).toList ++ cs.drop s.rest.length =
        c :: cs := by
      rw [String.toList_ofList, List.cons_append, List.take_append_drop]
    have first : s.first = c := (List.cons.inj chars).1
    refine .fixed (s := s) (first ▸ opens) ?_ rfl ?_ (hl.fixed s hs) fun ordered r hr hm => ?_
    · rw [whole]
      exact found
    · rw [Spelling.text, chars]
    · rw [whole] at hm
      have longest := ordered.longest found hr hm
      rwa [Spelling.text, String.length_ofList, String.length_ofList, ← chars]

theorem skipped_of_munch {l : Lexicon} {c : Char} {cs : List Char} {shape : Shape} {n : Nat}
    {p : Location} (hm : l.munch c cs = some (shape, n))
    (ht : l.token? ⟨shape, c :: cs.take n, p⟩ = none) :
    n = 0 ∧ (isSpacing c ∨ l.Stray c cs) := by
  cases munched hm with
  | blank hc => exact ⟨rfl, .inl hc⟩
  | stray opens none =>
    refine ⟨rfl, .inr ⟨opens, fun s hs => ?_⟩⟩
    simpa using List.find?_eq_none.1 none s hs
  | word _ =>
    simp only [token?] at ht
    split at ht <;> cases ht
  | text | number | fixed => cases ht

inductive Tiles (l : Lexicon) : Nat → List Char → List Token → Prop
  | nil (k : Nat) : Tiles l k [] []
  | skip {k : Nat} {c : Char} {cs : List Char} {ts : List Token} :
    isSpacing c ∨ l.Stray c cs → Tiles l (k + 1) cs ts → Tiles l k (c :: cs) ts
  | token {k : Nat} {t : Token} {behind : List Char} {ts : List Token} :
    t.location.cursor = k → t.lexeme.toList ≠ [] → l.ReadAs t behind →
    Tiles l (k + t.lexeme.length) behind ts →
    Tiles l k (t.lexeme.toList ++ behind) (t :: ts)

namespace Tiles

variable {l : Lexicon} {k : Nat} {cs : List Char} {ts : List Token}

theorem located (h : l.Tiles k cs ts) : ∀ t ∈ ts, t.lexeme ≠ "" ∧ ∃ before behind,
    cs = before ++ t.lexeme.toList ++ behind ∧ t.location.cursor = (k + before.length : Nat) ∧
    l.ReadAs t behind := by
  induction h with
  | nil => exact fun t ht => absurd ht List.not_mem_nil
  | @skip k c cs ts _ _ ih =>
    intro t ht
    obtain ⟨nonempty, before, behind, rfl, hcursor, read⟩ := ih t ht
    refine ⟨nonempty, c :: before, behind, rfl, ?_, read⟩
    rw [hcursor, List.length_cons, Nat.add_right_comm, Nat.add_assoc]
  | @token k u behind us hcursor nonempty read _ ih =>
    intro t ht
    rcases List.mem_cons.1 ht with rfl | ht
    · have lexeme : t.lexeme ≠ "" := by simpa using nonempty
      exact ⟨lexeme, [], behind, by simp, by simpa using hcursor, read⟩
    · obtain ⟨nonempty', before, behind', rfl, hcursor', read'⟩ := ih t ht
      refine ⟨nonempty', u.lexeme.toList ++ before, behind', by simp, ?_, read'⟩
      rw [hcursor', List.length_append, String.length_toList, Nat.add_assoc]

theorem ordered (h : l.Tiles k cs ts) :
    ts.Pairwise fun t u : Token => t.location.cursor + t.lexeme.length ≤ u.location.cursor := by
  induction h with
  | nil => exact .nil
  | skip _ _ ih => exact ih
  | token hcursor _ _ rest ih =>
    refine .cons (fun u hu => ?_) ih
    obtain ⟨-, before, -, -, hcursor', -⟩ := rest.located u hu
    rw [hcursor, hcursor']
    omega

theorem between (h : l.Tiles k cs ts) : ∀ before c behind, cs = before ++ c :: behind →
    (∀ t ∈ ts, ¬ t.Spans (k + before.length)) → isSpacing c ∨ l.Stray c behind := by
  induction h with
  | nil =>
    intro before c behind hcs
    exact absurd (congrArg List.length hcs) (by simp)
  | @skip k d cs ts hd _ ih =>
    intro before c behind hcs apart
    cases before with
    | nil =>
      cases hcs
      exact hd
    | cons b before =>
      cases hcs
      refine ih before c behind rfl fun t ht spans => apart t ht ?_
      rwa [List.length_cons, Nat.add_comm before.length, ← Nat.add_assoc]
  | @token k u us ts hcursor _ _ _ ih =>
    intro before c behind hcs apart
    have past : u.lexeme.length ≤ before.length := by
      refine Nat.le_of_not_lt fun inside => apart u List.mem_cons_self ?_
      unfold Token.Spans
      omega
    obtain ⟨more, rfl⟩ : u.lexeme.toList <+: before :=
      List.prefix_of_prefix_length_le (List.prefix_append _ us) (hcs ▸ List.prefix_append _ _)
        (by rwa [String.length_toList])
    rw [List.append_assoc, List.append_cancel_left_eq] at hcs
    refine ih more c behind hcs fun t ht spans => apart t (List.mem_cons_of_mem u ht) ?_
    rwa [List.length_append, String.length_toList, ← Nat.add_assoc]

end Tiles

theorem tiles_scanFrom {l : Lexicon} (hl : l.Proper) {p : Location} {cs : List Char}
    (h : (l.scanFrom p cs).unclosed = none) : ∀ k : Nat, p.cursor = k →
      l.Tiles k cs (l.tokens (l.scanFrom p cs)) := by
  fun_induction scanFrom l p cs with
  | case1 => exact fun k _ => .nil k
  | case2 => cases h
  | case3 p c cs shape n hm chars scan ih =>
    intro k hp
    have behind : (endOf p shape chars).cursor = ((k + chars.length : Nat) : Int) := by
      rw [cursor_endOf, hp]
      rfl
    have rest := ih h _ behind
    have whole : chars ++ cs.drop n = c :: cs := by simp [chars]
    cases made : l.token? ⟨shape, chars, p⟩ with
    | none =>
      obtain ⟨rfl, skipped⟩ := skipped_of_munch hm made
      rw [tokens, List.filterMap_cons_none made]
      exact .skip skipped rest
    | some t =>
      obtain ⟨lexeme, place⟩ := token?_eq_some made
      have lexeme_eq : t.lexeme.toList = chars := by rw [lexeme, String.toList_ofList]
      have nonempty : t.lexeme.toList ≠ [] := by
        rw [lexeme_eq]
        exact List.cons_ne_nil _ _
      have next : l.Tiles (k + t.lexeme.length) (cs.drop n) (l.tokens scan) := by
        rwa [← String.length_toList, lexeme_eq]
      rw [tokens, List.filterMap_cons_some made, ← whole, ← lexeme_eq]
      exact .token (place ▸ hp) nonempty (readAs_of_munch hl hm made) next

structure Segments (l : Lexicon) (source : List Char) (ts : List Token) : Prop where
  nonempty : ∀ t ∈ ts, t.lexeme ≠ ""
  ordered : ts.Pairwise fun t u : Token => t.location.cursor + t.lexeme.length ≤ u.location.cursor
  tokens : ∀ t ∈ ts, ∃ before behind, source = before ++ t.lexeme.toList ++ behind ∧
    t.location.cursor = before.length ∧ l.ReadAs t behind
  between : ∀ before c behind, source = before ++ c :: behind →
    (∀ t ∈ ts, ¬ t.Spans before.length) → isSpacing c ∨ l.Stray c behind

/-- The tokens of a source are its parts, for every lexicon that is made from tables, and the texts
of the standard lexicon are in order. -/
theorem tokenize_segments {tables : LexiconTables} {l : Lexicon} (built : ofTables tables = .ok l)
    {source : String} {ts : List Token} {stop : Location}
    (h : l.tokenize source = .ok (ts, stop)) :
    l.Segments source.toList ts ∧ standard.Ordered := by
  refine ⟨?_, ordered_standard⟩
  unfold tokenize at h
  dsimp only at h
  split at h
  · cases h
  · rename_i closed
    cases h
    have tiles := tiles_scanFrom (proper_of_ofTables built) (Option.map_eq_none_iff.1 closed) 0 rfl
    refine ⟨fun t ht => (tiles.located t ht).1, tiles.ordered, fun t ht => ?_, ?_⟩
    · obtain ⟨-, before, behind, hcs, hcursor, read⟩ := tiles.located t ht
      exact ⟨before, behind, hcs, by rw [hcursor, Nat.zero_add], read⟩
    · intro before c behind hcs apart
      refine tiles.between before c behind hcs fun t ht => ?_
      rw [Nat.zero_add]
      exact apart t ht

theorem tokenize_segments_shared_start :
    let tables : LexiconTables := {
      lexemes := [(.text "less", .text "<"), (.text "less-equal", .text "<="),
        (.text "if", .text "if")]
      keywords := [.text "if"] }
    let l : Lexicon := ⟨[⟨.less, '<', []⟩, ⟨.lessEqual, '<', ['=']⟩, ⟨.wordIf, 'i', ['f']⟩],
      [("if", .wordIf)], []⟩
    let source := "if ab12<=\n\"c d\" § \"\""
    ofTables tables = .ok l ∧
    (l.tokens (l.scan source)).map (fun t => (t.kind, t.lexeme)) =
      [(.wordIf, "if"), (.identifier, "ab"), (.number, "12"), (.less, "<"), (.text, "\"c d\""),
        (.text, "\"\"")] ∧
    l.Segments source.toList (l.tokens (l.scan source)) := by
  intro tables l source
  have built : ofTables tables = .ok l := rfl
  have listed : (l.tokens (l.scan source)).map (fun t => (t.kind, t.lexeme)) =
      [(.wordIf, "if"), (.identifier, "ab"), (.number, "12"), (.less, "<"), (.text, "\"c d\""),
        (.text, "\"\"")] := by decide +kernel
  have read : l.tokenize source = .ok (l.tokens (l.scan source), (l.scan source).stop) := by
    decide +kernel
  exact ⟨built, listed, (tokenize_segments built read).1⟩

end Lexicon

end ScopedScript
