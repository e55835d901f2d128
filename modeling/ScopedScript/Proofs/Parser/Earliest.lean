import ScopedScript.Proofs.Parser.Complete.Statement
import ScopedScript.Proofs.Parser.Predictive.Statement

namespace ScopedScript

namespace Lexicon

def Accepts (l : Lexicon) (tokens : List Token) : Prop :=
  ∃ depth stop b, l.parseWithin depth tokens stop = .ok b

def Viable (l : Lexicon) (tokens : List Token) : Prop := ∃ more, l.Accepts (tokens ++ more)

/-- The `i`-th token is the first one that no program goes on with. -/
structure Blocks (l : Lexicon) (tokens : List Token) (i : Nat) : Prop where
  before : l.Viable (tokens.take i)
  through : ¬ l.Viable (tokens.take (i + 1))

theorem accepts_iff_derives {tokens : List Token} :
    standard.Accepts tokens ↔ ∃ b, DerivesAll standard tokens b := by
  constructor
  · rintro ⟨depth, stop, b, h⟩
    exact ⟨b, (Parser.parseWithin_reads h).1⟩
  · rintro ⟨b, h⟩
    rcases Parser.program_accepts (2 * tokens.length) {} h with ⟨b', rest, hp, -⟩ | ⟨hshort, -⟩
    · exact ⟨2 * tokens.length, {}, b', by rw [parseWithin, hp]⟩
    · exact absurd hshort (Nat.lt_irrefl _)

theorem viable_iff_begins {tokens : List Token} :
    standard.Viable tokens ↔ Parser.Begins (DerivesAll standard) tokens :=
  exists_congr fun _ => accepts_iff_derives

theorem not_accepts_of_error {depth : Nat} {stop : Location} {tokens : List Token} {e : ScriptError}
    (h : standard.parseWithin depth tokens stop = .error (.error e)) :
    ¬ standard.Accepts tokens := by
  intro accepted
  obtain ⟨b, hb⟩ := accepts_iff_derives.1 accepted
  unfold parseWithin at h
  rcases Parser.program_accepts depth stop hb with ⟨b', rest, hp, -⟩ | ⟨-, rest, hp⟩
  · rw [hp] at h
    cases h
  · rw [hp] at h
    cases h

theorem parseWithin_failed {l : Lexicon} {depth : Nat} {tokens rest : List Token}
    {stop : Location} {f : Failure}
    (h : Parser.program (Parser.statement l stop depth) tokens = .failed f rest) :
    l.parseWithin depth tokens stop = .error f := by
  rw [parseWithin, h]

inductive PointsAt (l : Lexicon) (tokens : List Token) (stop : Location) (e : ScriptError) : Prop
  | token {i : Nat} {t : Token} : tokens[i]? = some t → e.location = some t.location →
    l.Blocks tokens i → PointsAt l tokens stop e
  | stop : e.location = some stop → l.Viable tokens → PointsAt l tokens stop e

theorem pointsAt_of_refusal {depth : Nat} {stop : Location} {before ahead : List Token}
    {cause : Cause} (hb : Parser.Begins (DerivesAll standard) before)
    (hf : ∀ vs, vs.head? = ahead.head? → standard.parseWithin depth (before ++ vs) stop =
      .error (.ofCause cause (Parser.headPlace stop ahead))) :
    PointsAt standard (before ++ ahead) stop ⟨cause, some (Parser.headPlace stop ahead)⟩ := by
  have viable : standard.Viable before := viable_iff_begins.2 hb
  cases ahead with
  | nil => exact .stop rfl (by simpa using viable)
  | cons t us =>
    refine .token (i := before.length) (t := t) (by simp) rfl ⟨by simpa using viable, ?_⟩
    rintro ⟨more, accepted⟩
    have taken : (before ++ t :: us).take (before.length + 1) = before ++ [t] := by
      rw [List.take_length_add_append, List.take_succ_cons, List.take_zero]
    rw [taken, List.append_assoc] at accepted
    exact not_accepts_of_error (hf (t :: more) rfl) accepted

theorem PointsAt.unique {l : Lexicon} {tokens : List Token} {stop : Location} {e : ScriptError}
    (h : PointsAt l tokens stop e) (places : (tokens.map Token.location ++ [stop]).Nodup) :
    (∀ i t, tokens[i]? = some t → e.location = some t.location → l.Blocks tokens i) ∧
      (e.location = some stop → l.Viable tokens) := by
  rw [List.nodup_append] at places
  obtain ⟨distinct, -, apart⟩ := places
  have inner {i : Nat} {t : Token} (ht : tokens[i]? = some t) : t.location ≠ stop :=
    apart _ (List.mem_map_of_mem (List.mem_of_getElem? ht)) stop List.mem_cons_self
  cases h with
  | @token i t ht he blocked =>
    refine ⟨fun j u hu he' => ?_, fun he' => ?_⟩
    · have same : (tokens.map Token.location)[i]? = (tokens.map Token.location)[j]? := by
        rw [List.getElem?_map, List.getElem?_map, ht, hu]
        exact he.symm.trans he'
      have bound : i < (tokens.map Token.location).length := by
        simpa using (List.getElem?_eq_some_iff.1 ht).1
      obtain rfl : i = j := (List.getElem?_inj bound distinct).1 same
      exact blocked
    · exact absurd (Option.some.inj (he.symm.trans he')) (inner ht)
  | stop he viable =>
    refine ⟨fun j u hu he' => ?_, fun _ => viable⟩
    exact absurd (Option.some.inj (he'.symm.trans he)) (inner hu)

/-- Reading that fails does so with an error of grammar, or because the tokens nest deeper than
there is room for; there always is if the depth is more than twice the number of tokens. An error
points to the first token that no program goes on with, or to the end of tokens that a program goes
on from. -/
theorem error_at_earliest_token {depth : Nat} {tokens : List Token} {stop : Location} {f : Failure}
    (h : standard.parseWithin depth tokens stop = .error f) :
    (f = .fault (.tooDeep .source) ∧ depth ≤ 2 * tokens.length) ∨
    ∃ e, f = .error e ∧ e.kind = .grammar ∧ ¬ standard.Accepts tokens ∧
      PointsAt standard tokens stop e ∧
      ((tokens.map Token.location ++ [stop]).Nodup →
        (∀ i t, tokens[i]? = some t → e.location = some t.location →
          standard.Blocks tokens i) ∧
        (e.location = some stop → standard.Viable tokens)) := by
  cases (Parser.program_predictive standard stop depth).predicts tokens with
  | takes used hus ha hvs =>
    have read := hvs _ rfl
    rw [← hus] at read
    rw [parseWithin, read] at h
    cases h
  | @refuses before ahead cause hus hb hk hvs =>
    have refusal (vs : List Token) (hv : vs.head? = ahead.head?) :
        standard.parseWithin depth (before ++ vs) stop =
          .error (.ofCause cause (Parser.headPlace stop ahead)) := by
      obtain ⟨rest, hf⟩ := hvs vs hv
      exact parseWithin_failed hf
    have here := refusal ahead rfl
    rw [← hus, h] at here
    obtain rfl := Except.error.inj here
    have points := hus ▸ pointsAt_of_refusal hb refusal
    exact .inr ⟨_, rfl, hk, not_accepts_of_error h, points, points.unique⟩
  | tooDeep rest hshort hf =>
    rw [parseWithin_failed hf] at h
    cases h
    exact .inl ⟨rfl, hshort⟩

theorem error_at_earliest_token_open_group :
    let scan := standard.scan "while a { b = (1 }"
    let tokens := standard.tokens scan
    standard.parseWithin 40 tokens scan.stop =
      .error (.error ⟨.missing .groupEnd, some ⟨1, 18, 17⟩⟩) ∧
    tokens[7]?.map Token.location = some ⟨1, 18, 17⟩ ∧ standard.Blocks tokens 7 := by
  intro scan tokens
  have failed : standard.parseWithin 40 tokens scan.stop =
      .error (.error ⟨.missing .groupEnd, some ⟨1, 18, 17⟩⟩) := by
    have read : (match standard.parseWithin 40 tokens scan.stop with
        | .error f => some f
        | .ok _ => none) =
          some (.error ⟨.missing .groupEnd, some ⟨1, 18, 17⟩⟩) := by decide +kernel
    split at read
    · rename_i f hf
      rw [hf, Option.some.inj read]
    · cases read
  have place : tokens[7]?.map Token.location = some ⟨1, 18, 17⟩ := by decide +kernel
  have places : (tokens.map Token.location ++ [scan.stop]).Nodup := by decide +kernel
  refine ⟨failed, place, ?_⟩
  obtain ⟨t, ht, hl⟩ := Option.map_eq_some_iff.1 place
  rcases error_at_earliest_token failed with ⟨deep, -⟩ | ⟨e, he, -, -, -, unique⟩
  · cases deep
  · cases he
    exact (unique places).1 7 t ht (congrArg some hl.symm)

end Lexicon

end ScopedScript
