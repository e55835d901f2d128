import ScopedScript.Proofs.Parser.Failure
import ScopedScript.Proofs.Token.Joined

namespace ScopedScript

namespace Lexicon

variable {l : Lexicon}

theorem piece_located (hl : l.Inline) {p : Location} {cs : List Char} {q : Piece}
    (h : q ∈ (l.scanFrom p cs).pieces) :
    ∃ before behind, cs = before ++ q.chars ++ behind ∧ q.location = p.after before := by
  fun_induction scanFrom l p cs with
  | case1 => cases h
  | case2 => cases h
  | case3 p c cs shape extra hm chars scan ih =>
    rcases List.mem_cons.1 h with rfl | h
    · exact ⟨[], cs.drop extra, by simp [chars], rfl⟩
    · obtain ⟨before, behind, hcs, hq⟩ := ih h
      refine ⟨chars ++ before, behind, ?_, ?_⟩
      · rw [List.append_assoc, List.append_assoc, ← List.append_assoc before, ← hcs]
        simp [chars]
      · rw [hq, endOf_eq_after hl hm, ← Location.after_append]

theorem stop_scanFrom (hl : l.Inline) (p : Location) (cs : List Char) :
    (l.scanFrom p cs).stop = p.after cs := by
  fun_induction scanFrom l p cs with
  | case1 => rfl
  | case2 => rfl
  | case3 p c cs shape extra hm chars scan ih =>
    rw [ih, endOf_eq_after hl hm, ← Location.after_append]
    simp

theorem opening_located (hl : l.Inline) {p opening : Location} {cs : List Char}
    (h : (l.scanFrom p cs).unclosed = some opening) :
    ∃ before behind, cs = before ++ '"' :: behind ∧ '"' ∉ behind ∧
      opening = p.after before := by
  fun_induction scanFrom l p cs with
  | case1 => cases h
  | case2 p c cs hm =>
    obtain ⟨rfl, none⟩ := munch_none hm
    exact ⟨[], cs, rfl, none, (Option.some.inj h).symm⟩
  | case3 p c cs shape extra hm chars scan ih =>
    obtain ⟨before, behind, hcs, none, ho⟩ := ih h
    refine ⟨chars ++ before, behind, ?_, none, ?_⟩
    · rw [List.append_assoc, ← hcs]
      simp [chars]
    · rw [ho, endOf_eq_after hl hm, ← Location.after_append]

theorem token?_eq_some {q : Piece} {t : Token} (h : l.token? q = some t) :
    t.lexeme = String.ofList q.chars ∧ t.location = q.location := by
  obtain ⟨shape, chars, location⟩ := q
  cases shape with
  | blank | stray => cases h
  | word =>
    simp only [token?] at h
    split at h <;> cases h <;> exact ⟨rfl, rfl⟩
  | text | number | fixed =>
    cases h
    exact ⟨rfl, rfl⟩

theorem token_located (hl : l.Inline) {source : String} {t : Token}
    (h : t ∈ l.tokens (l.scan source)) :
    ∃ before behind, source.toList = before ++ t.lexeme.toList ++ behind ∧
      t.location = ({} : Location).after before := by
  obtain ⟨q, hq, made⟩ := List.mem_filterMap.1 h
  obtain ⟨before, behind, hcs, hp⟩ := piece_located hl hq
  obtain ⟨lexeme, place⟩ := token?_eq_some made
  exact ⟨before, behind, by rw [lexeme, String.toList_ofList, hcs], place.trans hp⟩

/-- Where a source can be reported: at a token, at a quotation mark that no other follows, or at its
end. -/
inductive PlaceIn (l : Lexicon) (source : String) : Location → Prop
  | token {t : Token} : t ∈ l.tokens (l.scan source) → PlaceIn l source t.location
  | opening {place : Location} : (l.scan source).unclosed = some place → PlaceIn l source place
  | stop : PlaceIn l source (({} : Location).after source.toList)

theorem placeIn_iff {source : String} {place : Location} :
    l.PlaceIn source place ↔ (∃ t ∈ l.tokens (l.scan source), t.location = place) ∨
      (l.scan source).unclosed = some place ∨ place = ({} : Location).after source.toList := by
  constructor
  · rintro (ht | ho | _)
    · exact .inl ⟨_, ht, rfl⟩
    · exact .inr (.inl ho)
    · exact .inr (.inr rfl)
  · rintro (⟨t, ht, rfl⟩ | ho | rfl)
    · exact .token ht
    · exact .opening ho
    · exact .stop

instance (source : String) : DecidablePred (l.PlaceIn source) := fun _ =>
  decidable_of_iff _ placeIn_iff.symm

theorem PlaceIn.exists_before (hl : l.Inline) {source : String} {place : Location}
    (h : l.PlaceIn source place) :
    ∃ before behind, source.toList = before ++ behind ∧ place = ({} : Location).after before := by
  cases h with
  | token ht =>
    obtain ⟨before, behind, hcs, hp⟩ := token_located hl ht
    exact ⟨before, _, by rw [hcs, List.append_assoc], hp⟩
  | opening ho =>
    obtain ⟨before, behind, hcs, -, hp⟩ := opening_located hl ho
    exact ⟨before, _, hcs, hp⟩
  | stop => exact ⟨source.toList, [], by simp, rfl⟩

theorem parse_ofReading_placeIn (hl : l.Inline) {source : String} {f : Failure}
    (h : l.parse source = .error f) : f.OfReading (l.PlaceIn source) := by
  refine (parse_ofReading h).mono ?_
  rintro place (⟨t, ht, rfl⟩ | ho | ⟨-, rfl⟩)
  · exact .token ht
  · exact .opening ho
  · rw [scan, stop_scanFrom hl]
    exact .stop

end Lexicon

end ScopedScript
