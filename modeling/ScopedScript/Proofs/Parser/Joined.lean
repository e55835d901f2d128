import ScopedScript.Proofs.Parser.Exact.Statement
import ScopedScript.Proofs.Token.Joined

namespace ScopedScript.Lexicon

theorem parse_eq_ok_iff {l : Lexicon} {source : String} {b : Block} :
    l.parse source = .ok b ↔
      ∃ ts stop, l.tokenize source = .ok (ts, stop) ∧ l.parseTokens ts stop = .ok b := by
  unfold parse
  rcases l.tokenize source with e | ⟨ts, stop⟩
  · simp
  · simp

theorem exists_of_isOk {l : Lexicon} {source : String} (h : (l.parse source).isOk) :
    ∃ b, l.parse source = .ok b := by
  cases read : l.parse source with
  | ok b => exact ⟨b, rfl⟩
  | error f =>
    rw [read] at h
    cases h

theorem parse_joined {first second : String} {b c : Block} (hb : standard.parse first = .ok b)
    (hc : standard.parse second = .ok c) :
    standard.parse (first ++ "\n" ++ second) =
      .ok (b ++ Block.relocate (.below first.toList) c) := by
  obtain ⟨ts, stop, scanned, read⟩ := parse_eq_ok_iff.1 hb
  obtain ⟨us, stop', scanned', read'⟩ := parse_eq_ok_iff.1 hc
  exact parse_eq_ok_iff.2 ⟨_, _, tokenize_joined inline_standard scanned scanned',
    Parser.parseWithin_append read read' _ _⟩

theorem parse_relocated {source : String} {b : Block} (h : standard.parse source = .ok b)
    (f : Location → Location)
    (same : ∀ t ∈ standard.tokens (standard.scan source), f t.location = t.location) :
    Block.relocate f b = b := by
  obtain ⟨ts, stop, scanned, read⟩ := parse_eq_ok_iff.1 h
  obtain ⟨-, rfl, -⟩ := tokenize_eq_ok_iff.1 scanned
  have nothing : standard.parseWithin Parser.depthLimit [] {} = .ok [] := rfl
  have moved := Parser.parseWithin_append nothing read f stop
  have tokens_eq : (standard.tokens (standard.scan source)).map (Token.relocate f) =
      standard.tokens (standard.scan source) :=
    (List.map_congr_left fun t ht => congrArg (fun x => { t with location := x }) (same t ht)).trans
      (List.map_id' _)
  rw [List.nil_append, tokens_eq, List.nil_append] at moved
  exact Except.ok.inj (moved.symm.trans read)

/-- Two programs, a line feed between them, are read as one: its tokens are those of the first
source and then those of the second, and so are its statements. What stems from the second one
stands in the same column, but as many lines further down as the first has line feeds and one more,
and as many characters further on as the first is long and one more. -/
theorem parse_lines {first second : String} {b c : Block} (hb : standard.parse first = .ok b)
    (hc : standard.parse second = .ok c) :
    let source := first ++ "\n" ++ second
    let moved (l : Location) : Location :=
      ⟨l.line + (first.toList.count '\n' + 1), l.column, l.cursor + (first.length + 1)⟩
    standard.parse source = .ok (b ++ Block.relocate moved c) ∧
      ∃ ts us stop stop', standard.tokenize first = .ok (ts, stop) ∧
        standard.tokenize second = .ok (us, stop') ∧
        standard.tokenize source = .ok (ts ++ us.map (Token.relocate moved), moved stop') := by
  intro source moved
  have below : moved = .below first.toList := by
    funext l
    simp only [moved, Location.below, Location.move, String.length_toList]
  obtain ⟨ts, stop, scanned, -⟩ := parse_eq_ok_iff.1 hb
  obtain ⟨us, stop', scanned', -⟩ := parse_eq_ok_iff.1 hc
  rw [below]
  exact ⟨parse_joined hb hc, ts, us, stop, stop', scanned, scanned',
    tokenize_joined inline_standard scanned scanned'⟩

theorem parse_lines_open_ends :
    let first := "var a = \"x\ny\""
    let second := "; if -a < b\n\x7b f(a -b) \x7d"
    let moved (l : Location) : Location := ⟨l.line + 2, l.column, l.cursor + 14⟩
    ∃ b c, standard.parse first = .ok b ∧ standard.parse second = .ok c ∧
      standard.parse (first ++ "\n" ++ second) = .ok (b ++ Block.relocate moved c) := by
  intro first second moved
  have read : (standard.parse first).isOk := by decide +kernel
  have read' : (standard.parse second).isOk := by decide +kernel
  obtain ⟨b, hb⟩ := exists_of_isOk read
  obtain ⟨c, hc⟩ := exists_of_isOk read'
  have lines : first.toList.count '\n' = 1 := by decide +kernel
  have chars : first.length = 13 := by decide +kernel
  obtain ⟨joined, -⟩ := parse_lines hb hc
  rw [lines, chars] at joined
  exact ⟨b, c, hb, hc, joined⟩

end ScopedScript.Lexicon
