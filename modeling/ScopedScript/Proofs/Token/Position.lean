import Mathlib.Data.List.DropRight
import ScopedScript.Proofs.Token.Place

namespace ScopedScript

namespace Location

theorem column_after_concat (l : Location) (cs : List Char) (c : Char) :
    (l.after (cs ++ [c])).column = if c = '\n' then 1 else (l.after cs).column + 1 := by
  rw [after_append, after_cons, after_nil, next]
  split <;> rfl

theorem column_after (cs : List Char) :
    (({} : Location).after cs).column = 1 + (cs.rtakeWhile (· != '\n')).length := by
  induction cs using List.reverseRecOn with
  | nil => rfl
  | append_singleton cs c ih =>
    rw [column_after_concat, List.rtakeWhile_concat]
    by_cases h : c = '\n'
    · simp [h]
    · simp [h, ih]
      omega

/-- The place is that of its cursor: one more than the line feeds among the characters in front of
it, and one more than the characters behind the last of those. -/
structure TrueIn (source : List Char) (l : Location) : Prop where
  cursor : ∃ k : Nat, k ≤ source.length ∧ l.cursor = k
  line : l.line = 1 + (source.take l.cursor.toNat).count '\n'
  column : l.column = 1 + ((source.take l.cursor.toNat).rtakeWhile (· != '\n')).length

theorem trueIn_after (before behind : List Char) :
    (({} : Location).after before).TrueIn (before ++ behind) := by
  have cursor : (({} : Location).after before).cursor = before.length := by
    rw [cursor_after]
    exact Int.zero_add _
  have front : (before ++ behind).take (({} : Location).after before).cursor.toNat = before := by
    rw [cursor, Int.toNat_natCast, List.take_left]
  refine ⟨⟨before.length, by simp, cursor⟩, ?_, ?_⟩
  · rw [front, line_after]
  · rw [front, column_after]

end Location

namespace Lexicon

/-- Tokens stand at their true places in the source, and so do the end of what was read and a
quotation mark that no other follows. -/
theorem positions_true {l : Lexicon} (hl : l.Inline) (source : String) :
    (∀ t ∈ l.tokens (l.scan source), t.location.TrueIn source.toList) ∧
    (l.scan source).stop.TrueIn source.toList ∧
    ∀ e, l.tokenize source = .error e →
      ∃ place, e.location = some place ∧ place.TrueIn source.toList := by
  refine ⟨fun t ht => ?_, ?_, fun e he => ?_⟩
  · obtain ⟨before, behind, hcs, hp⟩ := token_located hl ht
    rw [hcs, hp, List.append_assoc]
    exact Location.trueIn_after before _
  · have all := Location.trueIn_after source.toList []
    rwa [List.append_nil, ← stop_scanFrom hl] at all
  · unfold tokenize at he
    dsimp only at he
    split at he
    · rename_i e' herror
      cases he
      obtain ⟨place, ho, rfl⟩ := Option.map_eq_some_iff.1 herror
      obtain ⟨before, behind, hcs, -, hp⟩ := opening_located hl ho
      refine ⟨place, rfl, ?_⟩
      rw [hcs, hp]
      exact Location.trueIn_after before _
    · cases he

theorem positions_true_open_text :
    let l : Lexicon := ⟨[⟨.equal, '<', ['-']⟩], [], []⟩
    let source := "a\n\"b\nc\" <- §\n\"d"
    l.Inline ∧
    (l.tokens (l.scan source)).map Token.location = [⟨1, 1, 0⟩, ⟨2, 1, 2⟩, ⟨3, 4, 8⟩] ∧
    l.tokenize source = .error ⟨.unterminatedText, some ⟨4, 1, 13⟩⟩ ∧
    (∀ t ∈ l.tokens (l.scan source), t.location.TrueIn source.toList) ∧
    (l.scan source).stop.TrueIn source.toList ∧
    (⟨4, 1, 13⟩ : Location).TrueIn source.toList := by
  intro l source
  have inline : l.Inline := by
    unfold Inline
    decide
  have places : (l.tokens (l.scan source)).map Token.location =
      [⟨1, 1, 0⟩, ⟨2, 1, 2⟩, ⟨3, 4, 8⟩] := by decide +kernel
  have failed : l.tokenize source = .error ⟨.unterminatedText, some ⟨4, 1, 13⟩⟩ := by
    decide +kernel
  obtain ⟨tokens, stop, opening⟩ := positions_true inline source
  obtain ⟨place, rfl, true_in⟩ : ∃ place, (⟨4, 1, 13⟩ : Location) = place ∧
      place.TrueIn source.toList := by
    obtain ⟨place, hp, ht⟩ := opening _ failed
    exact ⟨place, Option.some.inj hp, ht⟩
  exact ⟨inline, places, failed, tokens, stop, true_in⟩

end Lexicon

end ScopedScript
