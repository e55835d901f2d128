import ScopedScript.Proofs.Parser.Predictive.Statement

namespace ScopedScript

namespace Parser

variable {α : Type} {room : Nat} {stop : Location} {p : Parser α} {before ahead : List Token}

def Refuses (p : Parser α) (before ahead : List Token) (e : ScriptError) : Prop :=
  ∀ vs, vs.head? = ahead.head? → ∃ left, p (before ++ vs) = .failed (.error e) left

/-- What a parser makes of tokens is settled by some of them in front and the next one. A result
takes the ones in front, at least one. An error is reported at the place of the next one, or of the
end, and where all places differ that tells which tokens settle it. Nothing else stops the parser
but nesting, in lists of at least `room / 2` tokens. -/
structure Local (room : Nat) (stop : Location) (p : Parser α) : Prop where
  done {us rest : List Token} {a : α} : p us = .done a rest →
    ∃ used, used ≠ [] ∧ us = used ++ rest ∧
      ∀ vs, vs.head? = rest.head? → p (used ++ vs) = .done a vs
  failed {us rest : List Token} {e : ScriptError} : p us = .failed (.error e) rest →
    ∃ before ahead, us = before ++ ahead ∧ e.location = some (headPlace stop ahead) ∧
      Refuses p before ahead e
  located {before ahead rest : List Token} {e : ScriptError} :
    ((before ++ ahead).map Token.location ++ [stop]).Nodup →
    p (before ++ ahead) = .failed (.error e) rest →
    e.location = some (headPlace stop ahead) → Refuses p before ahead e
  fault {us rest : List Token} {f : Fault} : p us = .failed (.fault f) rest →
    f = .tooDeep .source ∧ room ≤ 2 * us.length

theorem getElem?_places (stop : Location) (before ahead : List Token) :
    ((before ++ ahead).map Token.location ++ [stop])[before.length]? =
      some (headPlace stop ahead) := by
  cases ahead <;> simp [headPlace]

theorem split_at_place {before' ahead' : List Token} (same : before ++ ahead = before' ++ ahead')
    (distinct : ((before ++ ahead).map Token.location ++ [stop]).Nodup)
    (place : headPlace stop ahead = headPlace stop ahead') : before = before' ∧ ahead = ahead' := by
  have left := getElem?_places stop before ahead
  have right := getElem?_places stop before' ahead'
  rw [← same, ← place, ← left] at right
  have bound := (List.getElem?_eq_some_iff.1 left).1
  exact List.append_inj same ((List.getElem?_inj bound distinct).1 right.symm)

theorem Predictive.isLocal {phrase : List Token → α → Prop}
    (h : Predictive room stop phrase p) (nonempty : ∀ ts a, phrase ts a → ts ≠ []) :
    Local room stop p := by
  have refused {us rest : List Token} {e : ScriptError} (hp : p us = .failed (.error e) rest) :
      ∃ before ahead, us = before ++ ahead ∧ e.location = some (headPlace stop ahead) ∧
        Refuses p before ahead e := by
    rcases (h.predicts us).failed hp with ⟨deep, -⟩ | ⟨before, ahead, cause, hus, he, hvs⟩
    · cases deep
    · cases he
      exact ⟨before, ahead, hus, rfl, hvs⟩
  refine ⟨fun hp => ?_, refused, fun distinct hp here => ?_, fun hp => ?_⟩
  · obtain ⟨used, hus, ha, hvs⟩ := (h.predicts _).taken hp
    exact ⟨used, nonempty used _ ha, hus, hvs⟩
  · -- the tokens that settle the error stand in front of the same place as those given
    obtain ⟨before', ahead', same, there, hvs⟩ := refused hp
    obtain ⟨rfl, rfl⟩ := split_at_place same distinct (Option.some.inj (here.symm.trans there))
    exact hvs
  · rcases (h.predicts _).failed hp with ⟨deep, short⟩ | ⟨_, _, _, -, he, -⟩
    · cases deep
      exact ⟨rfl, short⟩
    · cases he

theorem BlockPhrase.ne_nil {lexicon : Lexicon} {ts : List Token} {b : Block}
    (h : BlockPhrase lexicon ts b) : ts ≠ [] := by
  obtain ⟨us, closer, rfl, -⟩ := h
  simp

/-- Whatever the table of levels, reading an expression of any level, a statement or a block takes
at least one token, and what stands behind the first one that it leaves, or behind the one that it
reports an error at, makes no difference. -/
theorem reading_local (lexicon : Lexicon) (stop : Location) (depth : Nat) :
    (∀ minimum, Local (depth - 1) stop (expression lexicon stop depth minimum)) ∧
    Local depth stop (statement lexicon stop depth) ∧
    ∀ opener, Local depth stop (block stop (statement lexicon stop depth) opener) := by
  have statements := statement_predictive lexicon stop depth
  refine ⟨fun minimum => ?_, ?_, fun opener => ?_⟩
  · exact ((expression_predictive lexicon stop depth).2 minimum).isLocal fun _ _ h => h.ne_nil
  · exact statements.isLocal fun _ _ h => h.1
  · exact (block_predictive statements opener).isLocal fun _ _ h => h.ne_nil

theorem reading_local_open_group :
    let scan := Lexicon.standard.scan "f(a -b) c = (d \x7d e"
    let tokens := Lexicon.standard.tokens scan
    let read := statement Lexicon.standard scan.stop 40
    (∃ s, ∀ vs, vs.head? = tokens[6]? → read (tokens.take 6 ++ vs) = .done s vs) ∧
    ∀ vs, vs.head? = tokens[10]? → ∃ left, read ((tokens.drop 6).take 4 ++ vs) =
      .failed (.error ⟨.missing .groupEnd, some ⟨1, 16, 15⟩⟩) left := by
  intro scan tokens read
  obtain ⟨-, reads, -⟩ := reading_local Lexicon.standard scan.stop 40
  constructor
  · have taken : (match read tokens with
        | .done _ rest => rest == tokens.drop 6
        | .failed .. => false) = true := by decide +kernel
    split at taken
    · rename_i s rest hs
      obtain ⟨used, -, parts, settled⟩ := reads.done hs
      rw [eq_of_beq taken] at parts settled
      have front : tokens.take 6 = used :=
        List.append_cancel_right ((List.take_append_drop 6 tokens).trans parts)
      exact ⟨s, fun vs hv => front ▸ settled vs (hv.trans List.head?_drop.symm)⟩
    · cases taken
  · have refused : (match read (tokens.drop 6) with
        | .done .. => none
        | .failed f _ => some f) =
          some (.error ⟨.missing .groupEnd, some ⟨1, 16, 15⟩⟩) := by decide +kernel
    split at refused
    · cases refused
    · rename_i f left hf
      rw [Option.some.inj refused, ← List.take_append_drop 4 (tokens.drop 6)] at hf
      have distinct : (((tokens.drop 6).take 4 ++ (tokens.drop 6).drop 4).map Token.location ++
          [scan.stop]).Nodup := by decide +kernel
      have place : some (⟨1, 16, 15⟩ : Location) =
          some (headPlace scan.stop ((tokens.drop 6).drop 4)) := by decide +kernel
      have ahead : ((tokens.drop 6).drop 4).head? = tokens[10]? := by
        rw [List.drop_drop, List.head?_drop]
      exact fun vs hv => reads.located distinct hf place vs (hv.trans ahead.symm)

end Parser

end ScopedScript
