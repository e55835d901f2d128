import Mathlib.Data.List.Chain
import ScopedScript.Proofs.Token.Munch
import ScopedScript.Proofs.Token.Tables

namespace ScopedScript

def Scan.offsets (s : Scan) : List Nat :=
  (s.pieces.map Piece.location ++ s.unclosed.toList ++ [s.stop]).map fun p => p.cursor.toNat

namespace Lexicon

/-- A pass over the source from an offset to another one. An unclosed text goes on to the end. -/
inductive Pass (l : Lexicon) (source : List Char) (k : Nat) : Nat → Prop
  | piece {c : Char} {cs : List Char} {shape : Shape} {n : Nat} : source.drop k = c :: cs →
    l.munch c cs = some (shape, n) → Pass l source k (k + (n + 1))
  | unclosed {c : Char} {cs : List Char} : source.drop k = c :: cs → l.munch c cs = none →
    Pass l source k source.length

theorem length_of_drop {α : Type} {as bs : List α} {k : Nat} {b : α}
    (h : as.drop k = b :: bs) : k + (bs.length + 1) = as.length := by
  have length := congrArg List.length h
  rw [List.length_drop, List.length_cons] at length
  omega

theorem Pass.forward {l : Lexicon} {source : List Char} {j k : Nat} (h : l.Pass source j k) :
    j < k ∧ k ≤ source.length := by
  cases h with
  | piece left munched =>
    have within := munch_le munched
    have whole := length_of_drop left
    omega
  | unclosed left _ =>
    have whole := length_of_drop left
    omega

theorem length_le_of_passes {l : Lexicon} {source : List Char} {offsets : List Nat} {k : Nat}
    (h : (k :: offsets).IsChain (l.Pass source)) (hk : k ≤ source.length) :
    k + offsets.length ≤ source.length := by
  induction offsets generalizing k with
  | nil => simpa using hk
  | cons j offsets ih =>
    rw [List.isChain_cons_cons] at h
    have forward := h.1.forward
    have rest := ih h.2 forward.2
    rw [List.length_cons]
    omega

theorem offsets_scanFrom {l : Lexicon} {source : List Char} {p : Location} {cs : List Char} :
    ∀ k : Nat, p.cursor = k → k ≤ source.length → source.drop k = cs →
      ∃ later, (l.scanFrom p cs).offsets = k :: later ∧
        (k :: later).IsChain (l.Pass source) ∧ (k :: later).getLast? = some source.length := by
  fun_induction scanFrom l p cs with
  | case1 p =>
    intro k hp hk left
    have whole : k = source.length := Nat.le_antisymm hk (List.drop_eq_nil_iff.1 left)
    exact ⟨[], by simp [Scan.offsets, hp], .singleton k, by simp [whole]⟩
  | case2 p c cs hm =>
    intro k hp _ left
    have whole := length_of_drop left
    have stop : (p.after (c :: cs)).cursor.toNat = source.length := by
      rw [Location.cursor_after, hp, List.length_cons]
      omega
    refine ⟨[source.length], ?_, .cons_cons (.unclosed left hm) (.singleton _), rfl⟩
    rw [← stop]
    simp [Scan.offsets, hp]
  | case3 p c cs shape n hm chars scan ih =>
    intro k hp _ left
    have within := munch_le hm
    have whole := length_of_drop left
    have behind : (endOf p shape chars).cursor = (k + (n + 1) : Nat) := by
      rw [cursor_endOf, hp, List.length_cons, List.length_take_of_le within]
      rfl
    have rest : source.drop (k + (n + 1)) = cs.drop n := by
      rw [← List.drop_drop, left, List.drop_succ_cons]
    obtain ⟨later, offsets, chain, last⟩ := ih (k + (n + 1)) behind (by omega) rest
    refine ⟨(k + (n + 1)) :: later, ?_, .cons_cons (.piece left hm) chain, ?_⟩
    · rw [← offsets]
      simp [Scan.offsets, hp, scan]
    · rwa [List.getLast?_cons_cons]

theorem length_tokens_lt (l : Lexicon) (s : Scan) : (l.tokens s).length < s.offsets.length := by
  have made : (l.tokens s).length ≤ s.pieces.length := List.length_filterMap_le _ _
  simp only [Scan.offsets, List.length_map, List.length_append, List.length_singleton]
  omega

theorem tokenize_outcome (l : Lexicon) (source : String) :
    (∃ ts stop, l.tokenize source = .ok (ts, stop)) ∨
      ∃ e, l.tokenize source = .error e ∧ e.kind = .grammar := by
  unfold tokenize
  dsimp only
  cases error : (l.scan source).error? with
  | none => exact .inl ⟨_, _, rfl⟩
  | some e =>
    obtain ⟨opening, -, rfl⟩ := Option.map_eq_some_iff.1 error
    exact .inr ⟨_, rfl, rfl⟩

/-- For every lexicon that is made from tables, a source has tokens or an error of grammar. Each
pass goes forward and none behind the end of the source, from its start to its end, so that there
are no more tokens than characters. -/
theorem tokenize_ends {tables : LexiconTables} {l : Lexicon} (built : ofTables tables = .ok l) :
    l.MadeFrom tables ∧ ∀ source : String,
      ((∃ ts stop, l.tokenize source = .ok (ts, stop)) ∨
        ∃ e, l.tokenize source = .error e ∧ e.kind = .grammar) ∧
      (∀ j k, l.Pass source.toList j k → j < k ∧ k ≤ source.length) ∧
      (l.scan source).offsets.head? = some 0 ∧
      (l.scan source).offsets.getLast? = some source.length ∧
      (l.scan source).offsets.IsChain (l.Pass source.toList) ∧
      (l.tokens (l.scan source)).length ≤ source.length := by
  refine ⟨madeFrom_of_ofTables built, fun source => ⟨l.tokenize_outcome source,
    fun j k pass => source.length_toList ▸ pass.forward, ?_⟩⟩
  obtain ⟨later, offsets, chain, last⟩ :=
    @offsets_scanFrom l source.toList {} source.toList 0 rfl (Nat.zero_le _) rfl
  have made := l.length_tokens_lt (l.scan source)
  have bound := length_le_of_passes chain (Nat.zero_le _)
  rw [String.length_toList] at bound last
  rw [scan, offsets, List.length_cons] at made
  rw [scan, offsets]
  exact ⟨rfl, last, chain, by omega⟩

theorem tokenize_ends_unclosed :
    let tables : LexiconTables := { lexemes := [(.text "less-equal", .text "<=")] }
    let l : Lexicon := ⟨[⟨.lessEqual, '<', ['=']⟩], [], []⟩
    let source := "ab<= §\"c"
    ofTables tables = .ok l ∧ l.MadeFrom tables ∧
      (l.scan source).offsets = [0, 2, 4, 5, 6, 8] ∧
      [0, 2, 4, 5, 6, 8].IsChain (l.Pass source.toList) ∧
      ∃ e, l.tokenize source = .error e ∧ e.kind = .grammar := by
  intro tables l source
  have built : ofTables tables = .ok l := rfl
  have offsets : (l.scan source).offsets = [0, 2, 4, 5, 6, 8] := by decide +kernel
  have unclosed : ¬ ∃ ts stop, l.tokenize source = .ok (ts, stop) := by
    have failed : (l.tokenize source).isOk = false := by decide +kernel
    rintro ⟨ts, stop, read⟩
    rw [read] at failed
    cases failed
  obtain ⟨made, passes⟩ := tokenize_ends built
  obtain ⟨outcome, -, -, -, chain, -⟩ := passes source
  rw [offsets] at chain
  exact ⟨built, made, offsets, chain, outcome.resolve_left unclosed⟩

end Lexicon

end ScopedScript
