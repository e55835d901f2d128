import Mathlib.Data.List.Find
import ScopedScript.Token.Scanner

namespace ScopedScript

structure OpensNothing (c : Char) : Prop where
  spacing : isSpacing c = false
  quote : c ≠ '"'
  decimal : Text.isDecimal c = false
  letter : Text.isLetter c = false

namespace Lexicon

inductive Munched (l : Lexicon) (c : Char) (cs : List Char) : Shape → Nat → Prop
  | blank : isSpacing c → Munched l c cs .blank 0
  | text (inner behind : List Char) : c = '"' → cs = inner ++ '"' :: behind → '"' ∉ inner →
    Munched l c cs .text (inner.length + 1)
  | number : Text.isDecimal c → Munched l c cs .number (cs.takeWhile Text.isDecimal).length
  | word : Text.isLetter c → Munched l c cs .word (cs.takeWhile Text.isLetter).length
  | fixed {s : Spelling} : OpensNothing c → l.spellings.find? (·.matchesAt (c :: cs)) = some s →
    Munched l c cs (.fixed s.kind) s.rest.length
  | stray : OpensNothing c → l.spellings.find? (·.matchesAt (c :: cs)) = none →
    Munched l c cs .stray 0

variable {l : Lexicon} {c : Char} {cs : List Char} {shape : Shape} {n : Nat}

theorem munched (h : l.munch c cs = some (shape, n)) : l.Munched c cs shape n := by
  unfold munch at h
  by_cases spacing : isSpacing c = true
  · rw [if_pos spacing] at h
    cases h
    exact .blank spacing
  rw [if_neg spacing] at h
  by_cases quote : c = '"'
  · rw [if_pos quote] at h
    obtain ⟨k, hk, e⟩ := Option.map_eq_some_iff.1 h
    cases e
    obtain ⟨bound, closing, before⟩ := List.idxOf?_eq_some_iff.1 hk
    have split : cs = cs.take k ++ '"' :: cs.drop (k + 1) := by
      rw [← closing, List.getElem_cons_drop, List.take_append_drop]
    have unquoted : '"' ∉ cs.take k := by
      intro hin
      obtain ⟨i, hi, e⟩ := List.mem_take_iff_getElem.1 hin
      exact before i (Nat.lt_of_lt_of_le hi (Nat.min_le_left _ _)) e
    have text := Munched.text (l := l) _ _ quote split unquoted
    rwa [List.length_take_of_le (Nat.le_of_lt bound)] at text
  rw [if_neg quote] at h
  by_cases decimal : Text.isDecimal c = true
  · rw [if_pos decimal] at h
    cases h
    exact .number decimal
  rw [if_neg decimal] at h
  by_cases letter : Text.isLetter c = true
  · rw [if_pos letter] at h
    cases h
    exact .word letter
  rw [if_neg letter] at h
  have opens : OpensNothing c := ⟨by simpa using spacing, quote, by simpa using decimal,
    by simpa using letter⟩
  split at h
  · cases h
    exact .fixed opens ‹_›
  · cases h
    exact .stray opens ‹_›

theorem munch_none (h : l.munch c cs = none) : c = '"' ∧ '"' ∉ cs := by
  unfold munch at h
  split at h
  · cases h
  split at h
  · rename_i quote
    have no : ∀ d ∈ cs, d ≠ '"' := by
      simpa [List.idxOf?, List.findIdx?_eq_none_iff] using h
    exact ⟨quote, fun hin => no '"' hin rfl⟩
  split at h
  · cases h
  split at h
  · cases h
  split at h <;> cases h

theorem chars_of_find? {s : Spelling} (h : l.spellings.find? (·.matchesAt (c :: cs)) = some s) :
    s.chars = c :: cs.take s.rest.length ∧ s.rest.length ≤ cs.length := by
  have found : s.matchesAt (c :: cs) := by simpa using List.find?_some h
  have start := List.isPrefixOf_iff_prefix.1 found
  refine ⟨?_, by simpa [Spelling.chars] using start.length_le⟩
  rw [List.prefix_iff_eq_take.1 start]
  simp [Spelling.chars]

theorem munch_le (h : l.munch c cs = some (shape, n)) : n ≤ cs.length := by
  cases munched h with
  | blank | stray => exact Nat.zero_le _
  | text inner behind _ hcs _ => simp [hcs]
  | number _ | word _ => exact (List.takeWhile_prefix _).length_le
  | fixed _ found => exact (chars_of_find? found).2

theorem munch_fixed {kind : TokenKind} (h : l.munch c cs = some (.fixed kind, n)) :
    ∃ s ∈ l.spellings, s.kind = kind ∧ s.chars = c :: cs.take n := by
  cases munched h with
  | fixed _ found => exact ⟨_, List.mem_of_find?_eq_some found, rfl, (chars_of_find? found).1⟩

theorem cursor_endOf (p : Location) (shape : Shape) (cs : List Char) :
    (endOf p shape cs).cursor = p.cursor + cs.length := by
  cases shape with
  | fixed kind => rfl
  | _ => exact p.cursor_after cs

theorem munch_text (h : l.munch c cs = some (.text, n)) :
    c = '"' ∧ ∃ inner, cs.take n = inner ++ ['"'] ∧ '"' ∉ inner := by
  cases munched h with
  | text inner behind quote hcs unquoted =>
    refine ⟨quote, inner, ?_, unquoted⟩
    rw [hcs, List.take_length_add_append]
    rfl

theorem text_of_munch {p : Location} {t : Token} (hm : l.munch c cs = some (.text, n))
    (ht : l.token? ⟨.text, c :: cs.take n, p⟩ = some t) :
    ∃ s : String, '"' ∉ s.toList ∧ t = ⟨.text, "\"" ++ s ++ "\"", .text s, p⟩ := by
  obtain ⟨rfl, inner, taken, unquoted⟩ := munch_text hm
  have inside : ('"' :: cs.take n).tail.dropLast = inner := by
    rw [taken, List.tail_cons, List.dropLast_concat]
  have lexeme : String.ofList ('"' :: cs.take n) = "\"" ++ String.ofList inner ++ "\"" := by
    rw [taken]
    apply String.toList_inj.1
    simp
  refine ⟨String.ofList inner, by simpa using unquoted, ?_⟩
  cases ht
  rw [inside, lexeme]

theorem munch_quoted {inner : List Char} (h : '"' ∉ inner) (behind : List Char) :
    l.munch '"' (inner ++ '"' :: behind) = some (.text, inner.length + 1) := by
  have closing : (inner ++ '"' :: behind).idxOf? '"' = some inner.length := by
    refine List.idxOf?_eq_some_iff.2 ⟨by simp, by simp, fun i hi => ?_⟩
    rw [List.getElem_append_left hi]
    exact fun e => h (e ▸ List.getElem_mem hi)
  rw [munch, if_neg (by decide), if_pos rfl, closing]
  rfl

theorem token?_quoted (s : String) (p : Location) :
    l.token? ⟨.text, '"' :: (s.toList ++ ['"']), p⟩ =
      some ⟨.text, "\"" ++ s ++ "\"", .text s, p⟩ := by
  have inner : ('"' :: (s.toList ++ ['"'])).tail.dropLast = s.toList := by simp
  have lexeme : String.ofList ('"' :: (s.toList ++ ['"'])) = "\"" ++ s ++ "\"" := by
    apply String.toList_inj.1
    simp
  rw [token?, inner, String.ofList_toList, lexeme]

theorem tokenize_quoted {s : String} (h : '"' ∉ s.toList) :
    l.tokenize ("\"" ++ s ++ "\"") = .ok ([⟨.text, "\"" ++ s ++ "\"", .text s, {}⟩],
      ({} : Location).after ("\"" ++ s ++ "\"").toList) := by
  have chars : ("\"" ++ s ++ "\"").toList = '"' :: (s.toList ++ ['"']) := by simp
  have cut : l.scan ("\"" ++ s ++ "\"") = ⟨[⟨.text, '"' :: (s.toList ++ ['"']), {}⟩],
      ({} : Location).after ('"' :: (s.toList ++ ['"'])), none, []⟩ := by
    have all : (s.toList ++ ['"']).take (s.toList.length + 1) = s.toList ++ ['"'] :=
      List.take_of_length_le (by simp)
    have none : (s.toList ++ ['"']).drop (s.toList.length + 1) = [] :=
      List.drop_of_length_le (by simp)
    rw [scan, chars, scanFrom, munch_quoted h]
    dsimp only
    rw [all, none, scanFrom]
    rfl
  rw [tokenize, cut, chars]
  simp only [Scan.error?, Option.map_none, tokens, List.filterMap_cons, List.filterMap_nil,
    token?_quoted]

end Lexicon

end ScopedScript
