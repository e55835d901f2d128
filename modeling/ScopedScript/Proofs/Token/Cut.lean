import ScopedScript.Proofs.Number.Whole
import ScopedScript.Proofs.Token.Joined
import ScopedScript.Proofs.Token.Tables

/-!
# Tokens in other surroundings

`Lexicon.Makes` holds of a token that scanning makes of some piece, at any place. In front of a
character that goes on with no token, and at the end, it is cut out of other characters as well:
`Makes.cutsBefore_separator`; in the standard lexicon a blank, a closing parenthesis and a semicolon
are such characters. A fixed text of one character that starts no other one is cut out wherever
it stands: `Spelling.Alone.cutsBefore`.
-/

namespace ScopedScript

def Token.unplaced (t : Token) : Token := t.relocate fun _ => {}

def Delimited (ds : List Char) : Prop := ∀ d, ds.head? = some d → d = ' ' ∨ d = ')' ∨ d = ';'

theorem delimited_nil : Delimited [] := nofun

theorem delimited_blank (ds : List Char) : Delimited (' ' :: ds) := by
  rintro d ⟨⟩
  exact .inl rfl

theorem delimited_paren (ds : List Char) : Delimited (')' :: ds) := by
  rintro d ⟨⟩
  exact .inr (.inl rfl)

theorem delimited_semicolon (ds : List Char) : Delimited (';' :: ds) := by
  rintro d ⟨⟩
  exact .inr (.inr rfl)

theorem Delimited.forall {P : Char → Prop} {ds : List Char} (hds : Delimited ds)
    (h : P ' ' ∧ P ')' ∧ P ';') : ∀ d, ds.head? = some d → P d := by
  intro d hd
  obtain rfl | rfl | rfl := hds d hd
  · exact h.1
  · exact h.2.1
  · exact h.2.2

namespace Lexicon

variable {l : Lexicon}

def Delimits (l : Lexicon) : Prop :=
  ∀ s ∈ l.spellings, ' ' ∉ s.rest ∧ ')' ∉ s.rest ∧ ';' ∉ s.rest

theorem delimits_standard : Delimits standard := by
  unfold Delimits
  decide +kernel

structure Separator (l : Lexicon) (d : Char) : Prop where
  fixed : ∀ s ∈ l.spellings, d ∉ s.rest
  decimal : Text.isDecimal d = false
  letter : Text.isLetter d = false

theorem Delimits.separator (hl : l.Delimits) {ds : List Char} (hds : Delimited ds) :
    ∀ d, ds.head? = some d → l.Separator d :=
  hds.forall ⟨⟨fun s hs => (hl s hs).1, by decide, by decide⟩,
    ⟨fun s hs => (hl s hs).2.1, by decide, by decide⟩,
    ⟨fun s hs => (hl s hs).2.2, by decide, by decide⟩⟩

theorem find?_separated {c : Char} {cs ds : List Char}
    (hds : ∀ d, ds.head? = some d → l.Separator d) {n : Nat}
    (hn : ∀ s, l.spellings.find? (·.matchesAt (c :: cs)) = some s → s.rest.length = n) :
    l.spellings.find? (·.matchesAt (c :: (cs.take n ++ ds))) =
      l.spellings.find? (·.matchesAt (c :: cs)) := by
  have cut : l.spellings.find? (·.matchesAt (c :: (cs.take n ++ ds))) =
      l.spellings.find? (·.matchesAt (c :: cs.take n)) := by
    refine List.find?_congr fun s hs => ?_
    have rest := isPrefixOf_append_of_head (p := s.rest) fun d hd => (hds d hd).fixed s hs
    simp only [Spelling.matchesAt, Spelling.chars, List.isPrefixOf, rest]
  have weaker (s : Spelling) (h : s.matchesAt (c :: cs.take n)) : s.matchesAt (c :: cs) := by
    simp only [Spelling.matchesAt, List.isPrefixOf_iff_prefix] at h ⊢
    exact h.trans ((List.prefix_cons_inj c).2 (List.take_prefix n cs))
  rw [cut]
  cases h : l.spellings.find? (·.matchesAt (c :: cs)) with
  | none =>
    rw [List.find?_eq_none] at h ⊢
    exact fun s hs hm => h s hs (weaker s hm)
  | some s =>
    obtain ⟨hm, as, bs, split, before⟩ := List.find?_eq_some_iff_append.1 h
    refine List.find?_eq_some_iff_append.2 ⟨?_, as, bs, split, fun a ha => ?_⟩
    · obtain ⟨first, rest⟩ : s.first = c ∧ s.rest <+: cs := by
        simpa [Spelling.matchesAt, Spelling.chars] using hm
      simp [Spelling.matchesAt, Spelling.chars, first, ← hn s h,
        ← List.prefix_iff_eq_take.1 rest]
    · have := before a ha
      simp only [Bool.not_eq_true'] at this ⊢
      exact Bool.eq_false_iff.2 fun hm => absurd (weaker a hm) (by simp [this])

theorem munch_separated {c : Char} {cs ds : List Char} {shape : Shape} {n : Nat}
    (h : l.munch c cs = some (shape, n)) (hds : ∀ d, ds.head? = some d → l.Separator d) :
    l.munch c (cs.take n ++ ds) = some (shape, n) := by
  have run {q : Char → Bool} (hq : ∀ d, ds.head? = some d → q d = false) :
      (cs.take (cs.takeWhile q).length ++ ds).takeWhile q = cs.takeWhile q := by
    rw [takeWhile_append_of_head hq,
      ← List.prefix_iff_eq_take.1 (List.takeWhile_prefix q), List.takeWhile_takeWhile]
    simp
  unfold munch at h ⊢
  split at h
  · rename_i hc
    rw [if_pos hc, h]
  rename_i hc
  rw [if_neg hc]
  split at h
  · rename_i hc
    rw [if_pos hc]
    obtain ⟨k, hk, e⟩ := Option.map_eq_some_iff.1 h
    cases e
    have closed : (cs.take (k + 1) ++ ds).idxOf? '"' = some k := by
      rw [List.idxOf?] at hk ⊢
      rw [List.findIdx?_append, List.findIdx?_take, hk]
      simp
    rw [closed]
    rfl
  rename_i hc
  rw [if_neg hc]
  split at h
  · rename_i hc
    cases h
    rw [if_pos hc, run fun d hd => (hds d hd).decimal]
  rename_i hc
  rw [if_neg hc]
  split at h
  · rename_i hc
    cases h
    rw [if_pos hc, run fun d hd => (hds d hd).letter]
  rename_i hc
  rw [if_neg hc]
  rw [find?_separated hds]
  · exact h
  · intro s hs
    rw [hs] at h
    cases h
    rfl

/-! ## Tokens that scanning makes -/

/-- Scanning some characters makes the token, at any place. -/
def Makes (l : Lexicon) (t : Token) : Prop :=
  ∃ piece c cs n, l.token? piece = some t ∧ piece.chars = c :: cs.take n ∧
    l.munch c cs = some (piece.shape, n)

theorem makes_of_mem_tokens {p : Location} {cs : List Char} {t : Token}
    (h : t ∈ l.tokens (l.scanFrom p cs)) : l.Makes t := by
  obtain ⟨piece, hmem, ht⟩ := List.mem_filterMap.1 h
  fun_induction scanFrom l p cs with
  | case1 => cases hmem
  | case2 => cases hmem
  | case3 p c cs shape extra hm chars scan ih =>
    rcases List.mem_cons.1 hmem with rfl | hmem
    · exact ⟨_, c, cs, extra, ht, rfl, hm⟩
    · exact ih (List.mem_filterMap.2 ⟨piece, hmem, ht⟩) hmem

theorem makes_of_tokenize {source : String} {ts : List Token} {stop : Location}
    (h : l.tokenize source = .ok (ts, stop)) : ∀ t ∈ ts, l.Makes t := by
  obtain ⟨-, rfl, -⟩ := tokenize_eq_ok_iff.1 h
  exact fun t => makes_of_mem_tokens

theorem Makes.relocate {t : Token} (h : l.Makes t) (f : Location → Location) :
    l.Makes (t.relocate f) := by
  obtain ⟨piece, c, cs, n, ht, hchars, hm⟩ := h
  exact ⟨piece.relocate f, c, cs, n, by rw [token?_relocate, ht]; rfl, hchars, hm⟩

theorem lexeme_of_token? {piece : Piece} {t : Token} (h : l.token? piece = some t) :
    t.lexeme = String.ofList piece.chars := by
  unfold token? at h
  dsimp only at h
  split at h
  case h_5 => split at h <;> cases h <;> rfl
  all_goals cases h <;> rfl

def CutsBefore (l : Lexicon) (t : Token) (ds : List Char) : Prop :=
  ∃ c cs shape, t.lexeme.toList = c :: cs ∧ l.munch c (cs ++ ds) = some (shape, cs.length) ∧
    ∀ p, l.token? ⟨shape, c :: cs, p⟩ = some (t.relocate fun _ => p)

theorem Makes.cutsBefore_separator {t : Token} (h : l.Makes t) {ds : List Char}
    (hds : ∀ d, ds.head? = some d → l.Separator d) : l.CutsBefore t ds := by
  obtain ⟨⟨shape, chars, place⟩, c, cs, n, ht, rfl, hm⟩ := h
  have length : (cs.take n).length = n := List.length_take_of_le (munch_le hm)
  refine ⟨c, cs.take n, shape, by rw [lexeme_of_token? ht, String.toList_ofList],
    by rw [length]; exact munch_separated hm hds, fun p => ?_⟩
  have moved := l.token?_relocate (fun _ => p) ⟨shape, c :: cs.take n, place⟩
  rw [ht] at moved
  exact moved

theorem Makes.cutsBefore (hl : l.Delimits) {t : Token} (h : l.Makes t) {ds : List Char}
    (hds : Delimited ds) : l.CutsBefore t ds :=
  h.cutsBefore_separator (hl.separator hds)

def Cuts (l : Lexicon) (cs : List Char) (ts : List Token) (ds : List Char) : Prop :=
  ∀ p, ∃ p', (l.tokens (l.scanFrom p (cs ++ ds))).map Token.unplaced =
      ts.map Token.unplaced ++ (l.tokens (l.scanFrom p' ds)).map Token.unplaced ∧
    (l.scanFrom p (cs ++ ds)).unclosed.isSome = (l.scanFrom p' ds).unclosed.isSome

theorem Cuts.append {cs ds es : List Char} {ts us : List Token} (h : l.Cuts cs ts (ds ++ es))
    (h' : l.Cuts ds us es) : l.Cuts (cs ++ ds) (ts ++ us) es := by
  intro p
  obtain ⟨p', first, closed⟩ := h p
  obtain ⟨p'', second, closed'⟩ := h' p'
  rw [List.append_assoc]
  exact ⟨p'', by rw [first, second, List.map_append, List.append_assoc], closed.trans closed'⟩

theorem Cuts.nil (ds : List Char) : l.Cuts [] [] ds := fun p => ⟨p, rfl, rfl⟩

theorem Cuts.tokenize {source : String} {ts : List Token} (h : l.Cuts source.toList ts []) :
    ∃ tokens stop, l.tokenize source = .ok (tokens, stop) ∧
      tokens.map Token.unplaced = ts.map Token.unplaced := by
  obtain ⟨p, cut, closed⟩ := h {}
  have behind : l.scanFrom p [] = ⟨[], p, none, []⟩ := by rw [scanFrom]
  rw [List.append_nil, behind] at cut closed
  have closed : (l.scan source).error? = none := by
    simpa [Scan.error?, scan] using closed
  refine ⟨l.tokens (l.scan source), _, tokenize_eq_ok_iff.2 ⟨closed, rfl, rfl⟩, ?_⟩
  simpa [Lexicon.tokens, scan] using cut

theorem cuts_spacing {c : Char} (h : isSpacing c) (ds : List Char) : l.Cuts [c] [] ds := by
  intro p
  refine ⟨endOf p .blank [c], ?_⟩
  have blank : l.munch c ds = some (.blank, 0) := by rw [munch, if_pos h]
  rw [List.singleton_append, scanFrom, blank]
  exact ⟨rfl, rfl⟩

theorem cuts_blank (ds : List Char) : l.Cuts [' '] [] ds := cuts_spacing rfl ds

theorem CutsBefore.cuts {t : Token} {ds : List Char} (h : l.CutsBefore t ds) :
    l.Cuts t.lexeme.toList [t] ds := by
  obtain ⟨c, cs, shape, chars, hm, ht⟩ := h
  intro p
  refine ⟨endOf p shape (c :: cs), ?_⟩
  rw [chars, List.cons_append, scanFrom, hm]
  dsimp only
  rw [List.take_left, List.drop_left]
  refine ⟨?_, rfl⟩
  simp only [tokens, List.filterMap_cons, ht, List.map_cons]
  rfl

end Lexicon

/-! ## Fixed texts of one character -/

def Spelling.Alone (l : Lexicon) (s : Spelling) : Prop :=
  (l.spellings.find? (·.first == s.first) = some s ∧
    ∀ r ∈ l.spellings, r.first = s.first → r.rest = []) ∧
  isSpacing s.first = false ∧ s.first ≠ '"' ∧ Text.isDecimal s.first = false ∧
    Text.isLetter s.first = false

instance (l : Lexicon) (s : Spelling) : Decidable (s.Alone l) := by
  unfold Spelling.Alone
  infer_instance

theorem Spelling.Alone.cutsBefore {l : Lexicon} {s : Spelling} (h : s.Alone l) (ds : List Char)
    (place : Location) : l.CutsBefore ⟨s.kind, s.text, .null, place⟩ ds := by
  obtain ⟨⟨first, single⟩, spacing, quote, decimal, letter⟩ := h
  have rest : s.rest = [] := single s (List.mem_of_find?_eq_some first) rfl
  have found : l.spellings.find? (·.matchesAt (s.first :: ds)) = some s := by
    rw [← first]
    refine List.find?_congr fun r hr => ?_
    by_cases same : r.first = s.first
    · simp [Spelling.matchesAt, Spelling.chars, same, single r hr same]
    · have other : (r.first == s.first) = false := beq_false_of_ne same
      simp [Spelling.matchesAt, Spelling.chars, List.isPrefixOf, other]
  refine ⟨s.first, [], .fixed s.kind, ?_, ?_, fun p => ?_⟩
  · simp [Spelling.text, Spelling.chars, rest]
  · simp [Lexicon.munch, spacing, quote, decimal, letter, found, rest]
  · simp [Lexicon.token?, Spelling.text, Spelling.chars, rest, Token.relocate]

/-! ## The standard lexicon -/

namespace Lexicon

theorem Makes.standard_cases {t : Token} (h : standard.Makes t) :
    (∃ s, t.kind = .text ∧ t.lexeme = "\"" ++ s ++ "\"" ∧ t.value = .text s ∧
        '"' ∉ s.toList) ∨
      (∃ n, t.kind = .number ∧ t.value = .number (Number.ofNat n)) ∨
      (t.kind = .identifier ∧ t.value = .text t.lexeme) ∨
      (t.kind.isScanned = false ∧ t.value = .null ∧
        ∃ s ∈ standard.spellings, s.kind = t.kind ∧ s.text = t.lexeme) := by
  obtain ⟨⟨shape, chars, place⟩, c, cs, n, ht, rfl, hm⟩ := h
  cases shape with
  | blank => cases ht
  | stray => cases ht
  | number =>
    cases ht
    exact .inr (.inl ⟨_, rfl, rfl⟩)
  | word =>
    simp only [token?] at ht
    split at ht
    · cases ht
      obtain ⟨fixed, s, hs, hk, htext⟩ := proper_standard.of_keyword? ‹_›
      exact .inr (.inr (.inr ⟨fixed, rfl, s, hs, hk, htext⟩))
    · cases ht
      exact .inr (.inr (.inl ⟨rfl, rfl⟩))
  | fixed kind =>
    cases ht
    obtain ⟨s, hs, hk, hchars⟩ := munch_fixed hm
    have fixed := hk ▸ proper_standard.fixed s hs
    exact .inr (.inr (.inr ⟨fixed, rfl, s, hs, hk, by rw [Spelling.text, hchars]⟩))
  | text =>
    obtain ⟨s, unquoted, rfl⟩ := text_of_munch hm ht
    exact .inl ⟨s, rfl, rfl, rfl, unquoted⟩

end Lexicon

end ScopedScript
