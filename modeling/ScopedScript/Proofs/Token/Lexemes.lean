import ScopedScript.Proofs.Token.Cut

namespace ScopedScript.Lexicon

variable {l : Lexicon}

def lexemes (ts : List Token) : String := " ".intercalate (ts.map Token.lexeme)

theorem separator_blank (h : ∀ s ∈ l.spellings, ' ' ∉ s.chars) : l.Separator ' ' :=
  ⟨fun s hs hin => h s hs (List.mem_cons_of_mem s.first hin), by decide, by decide⟩

theorem toList_lexemes_cons (t u : Token) (ts : List Token) :
    (lexemes (t :: u :: ts)).toList =
      t.lexeme.toList ++ ([' '] ++ (lexemes (u :: ts)).toList) := by
  simp [lexemes, String.intercalate_cons_cons]

theorem cuts_lexemes (blank : l.Separator ' ') {ts : List Token} (h : ∀ t ∈ ts, l.Makes t) :
    l.Cuts (lexemes ts).toList ts [] := by
  induction ts with
  | nil => exact .nil []
  | cons t ts ih =>
    have rest := ih fun u hu => h u (List.mem_cons_of_mem t hu)
    have first := h t List.mem_cons_self
    cases ts with
    | nil =>
      have last : l.CutsBefore t [] := first.cutsBefore_separator nofun
      simpa [lexemes] using last.cuts
    | cons u ts =>
      rw [toList_lexemes_cons]
      refine (CutsBefore.cuts ?_).append ((cuts_blank _).append rest)
      refine first.cutsBefore_separator ?_
      rintro d ⟨⟩
      exact blank

/-- The texts of the tokens of a source, with a blank between each two, are a source of tokens of
the same kinds, texts and values, if no fixed text of the lexicon has a blank. -/
theorem tokenize_lexemes (unspaced : ∀ s ∈ l.spellings, ' ' ∉ s.chars) {source : String}
    {ts : List Token} {stop : Location} (h : l.tokenize source = .ok (ts, stop)) :
    ∃ us stop', l.tokenize (lexemes ts) = .ok (us, stop') ∧
      us.map (fun t => (t.kind, t.lexeme, t.value)) =
        ts.map (fun t => (t.kind, t.lexeme, t.value)) := by
  obtain ⟨us, stop', read, same⟩ :=
    (cuts_lexemes (separator_blank unspaced) (makes_of_tokenize h)).tokenize
  refine ⟨us, stop', read, ?_⟩
  have placeless := congrArg (List.map fun t : Token => (t.kind, t.lexeme, t.value)) same
  rwa [List.map_map, List.map_map] at placeless

theorem tokenize_lexemes_shared_start :
    let l : Lexicon := ⟨[⟨.less, '<', []⟩, ⟨.lessEqual, '<', ['=']⟩, ⟨.equal, '=', []⟩,
      ⟨.wordIf, 'i', ['f']⟩], [("if", .wordIf)], []⟩
    let source := "if ab12<=\n\"c  d\"§x"
    let joined := "if ab 12 < = \"c  d\" x"
    (∀ s ∈ l.spellings, ' ' ∉ s.chars) ∧
    lexemes (l.tokens (l.scan source)) = joined ∧
    ∃ us stop', l.tokenize joined = .ok (us, stop') ∧
      us.map (fun t => (t.kind, t.lexeme, t.value)) =
        (l.tokens (l.scan source)).map (fun t => (t.kind, t.lexeme, t.value)) := by
  intro l source joined
  have unspaced : ∀ s ∈ l.spellings, ' ' ∉ s.chars := by decide
  have read : l.tokenize source = .ok (l.tokens (l.scan source), (l.scan source).stop) := by
    decide +kernel
  have written : lexemes (l.tokens (l.scan source)) = joined := by decide +kernel
  have again := tokenize_lexemes unspaced read
  rw [written] at again
  exact ⟨unspaced, written, again⟩

end ScopedScript.Lexicon
