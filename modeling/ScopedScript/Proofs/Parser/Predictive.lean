import ScopedScript.Proofs.Parser.Exact.Expr

/-!
# One token of lookahead

A predictive parser never takes a token that it cannot go on from. What it does is settled by the
tokens that it has taken and the one behind them: it takes a phrase, or it refuses the next token,
and then what it has taken begins a phrase. The phrases behind tokens that were taken are those of a
sequence without its first part, so that `Predictive.bind` needs no more than that every part is
predictive in its turn.
-/

namespace ScopedScript

namespace Parser

variable {α β : Type}

def Begins (phrase : List Token → α → Prop) (ts : List Token) : Prop :=
  ∃ more a, phrase (ts ++ more) a

def headPlace (stop : Location) (us : List Token) : Location :=
  (us.head?.map Token.location).getD stop

/-- What a predictive parser does with a list of tokens. It does the same with every list that
starts with what it took and goes on with the same next token. -/
inductive Predicts (short : Prop) (stop : Location) (phrase : List Token → α → Prop)
    (p : Parser α) (us : List Token) : Prop
  | takes (used : List Token) {rest : List Token} {a : α} : us = used ++ rest → phrase used a →
    (∀ vs, vs.head? = rest.head? → p (used ++ vs) = .done a vs) →
    Predicts short stop phrase p us
  | refuses (before : List Token) {ahead : List Token} {cause : Cause} : us = before ++ ahead →
    Begins phrase before → cause.kind = .grammar →
    (∀ vs, vs.head? = ahead.head? →
      ∃ rest, p (before ++ vs) = .failed (.ofCause cause (headPlace stop ahead)) rest) →
    Predicts short stop phrase p us
  | tooDeep (rest : List Token) : short → p us = .failed (.fault (.tooDeep .source)) rest →
    Predicts short stop phrase p us

theorem head?_append_congr {us vs : List Token} (h : us.head? = vs.head?) (ts : List Token) :
    (ts ++ us).head? = (ts ++ vs).head? := by
  rw [List.head?_append, List.head?_append, h]

theorem Begins.of_append {phrase : List Token → α → Prop} {ts us : List Token}
    (h : Begins phrase (ts ++ us)) : Begins phrase ts := by
  obtain ⟨more, a, ha⟩ := h
  exact ⟨us ++ more, a, by simpa using ha⟩

namespace Predicts

variable {short short' : Prop} {stop : Location} {first phrase phrase' : List Token → α → Prop}
  {p q : Parser α} {us : List Token}

theorem mono (h : Predicts short stop phrase p us) (hs : short → short')
    (hp : ∀ ts a, phrase ts a → phrase' ts a) : Predicts short' stop phrase' p us := by
  cases h with
  | takes used hus ha hvs => exact .takes used hus (hp _ _ ha) hvs
  | refuses before hus hb hk hvs =>
    obtain ⟨more, a, ha⟩ := hb
    exact .refuses before hus ⟨more, a, hp _ _ ha⟩ hk hvs
  | tooDeep rest hshort hus => exact .tooDeep rest (hs hshort) hus

theorem taken (h : Predicts short stop phrase p us) {a : α} {rest : List Token}
    (hp : p us = .done a rest) : ∃ used, us = used ++ rest ∧ phrase used a ∧
      ∀ vs, vs.head? = rest.head? → p (used ++ vs) = .done a vs := by
  cases h with
  | takes used hus ha hvs =>
    rw [hus, hvs _ rfl] at hp
    cases hp
    exact ⟨used, hus, ha, hvs⟩
  | refuses before hus _ _ hvs =>
    obtain ⟨rest', hf⟩ := hvs _ rfl
    rw [hus, hf] at hp
    cases hp
  | tooDeep rest _ hf =>
    rw [hf] at hp
    cases hp

theorem done (h : Predicts short stop phrase p us) {a : α} {rest : List Token}
    (hp : p us = .done a rest) : ∃ used, us = used ++ rest ∧ phrase used a := by
  obtain ⟨used, hus, ha, -⟩ := h.taken hp
  exact ⟨used, hus, ha⟩

theorem failed (h : Predicts short stop phrase p us) {f : Failure} {rest : List Token}
    (hp : p us = .failed f rest) :
    (f = .fault (.tooDeep .source) ∧ short) ∨
    ∃ before ahead cause, us = before ++ ahead ∧ f = .ofCause cause (headPlace stop ahead) ∧
      ∀ vs, vs.head? = ahead.head? → ∃ left, p (before ++ vs) = .failed f left := by
  cases h with
  | takes used hus ha hvs =>
    rw [hus, hvs _ rfl] at hp
    cases hp
  | @refuses before ahead cause hus _ _ hvs =>
    obtain ⟨left, hf⟩ := hvs _ rfl
    rw [hus, hf] at hp
    cases hp
    exact .inr ⟨before, ahead, cause, hus, rfl, hvs⟩
  | tooDeep left hshort hf =>
    rw [hf] at hp
    cases hp
    exact .inl ⟨rfl, hshort⟩

theorem stays {a : α} (ha : phrase [] a) (h : ∀ vs, vs.head? = us.head? → p vs = .done a vs) :
    Predicts short stop phrase p us :=
  .takes [] (List.nil_append us).symm ha h

theorem refuses_end (cause : Cause) (hb : Begins phrase []) (hk : cause.kind = .grammar)
    (h : ∃ rest, p [] = .failed (.ofCause cause stop) rest) : Predicts short stop phrase p [] := by
  refine .refuses [] rfl hb hk fun vs hv => ?_
  obtain rfl := List.head?_eq_none_iff.1 hv
  exact h

theorem refuses_head {t : Token} (cause : Cause) (hb : Begins phrase [])
    (hk : cause.kind = .grammar)
    (h : ∀ vs, ∃ rest, p (t :: vs) = .failed (.ofCause cause t.location) rest) :
    Predicts short stop phrase p (t :: us) := by
  refine .refuses [] rfl hb hk fun vs hv => ?_
  obtain ⟨vs, rfl⟩ := List.head?_eq_some_iff.1 hv
  exact h vs

theorem cons {t : Token} (h : Predicts short stop (fun vs => phrase (t :: vs)) q us)
    (hp : ∀ vs, p (t :: vs) = q vs) : Predicts short stop phrase p (t :: us) := by
  cases h with
  | takes used hus ha hvs =>
    refine .takes (t :: used) (by rw [hus]; rfl) ha fun vs hv => ?_
    exact (hp _).trans (hvs vs hv)
  | refuses before hus hb hk hvs =>
    refine .refuses (t :: before) (by rw [hus]; rfl) hb hk fun vs hv => ?_
    obtain ⟨rest, hf⟩ := hvs vs hv
    exact ⟨rest, (hp _).trans hf⟩
  | tooDeep rest hshort hf => exact .tooDeep rest hshort ((hp us).trans hf)

theorem congr (h : Predicts short stop phrase q us) (hp : ∀ vs, vs.head? = us.head? → p vs = q vs) :
    Predicts short stop phrase p us := by
  cases h with
  | takes used hus ha hvs =>
    refine .takes used hus ha fun vs hv => ?_
    rw [hp _ (hus ▸ head?_append_congr hv used)]
    exact hvs vs hv
  | refuses before hus hb hk hvs =>
    refine .refuses before hus hb hk fun vs hv => ?_
    rw [hp _ (hus ▸ head?_append_congr hv before)]
    exact hvs vs hv
  | tooDeep rest hshort hf => exact .tooDeep rest hshort ((hp us rfl).trans hf)

theorem bind {target : List Token → β → Prop} {g : α → Parser β}
    (h : Predicts short stop first p us) (hb : ∀ ts a, first ts a → Begins target ts)
    (hg : ∀ used rest a, us = used ++ rest → first used a → p us = .done a rest →
      Predicts short stop (fun vs => target (used ++ vs)) (g a) rest) :
    Predicts short stop target (p >>= g) us := by
  cases h with
  | @takes used rest a hus ha hvs =>
    have here (vs : List Token) (hv : vs.head? = rest.head?) : (p >>= g) (used ++ vs) = g a vs :=
      bind_of_done (hvs vs hv) g
    have next := hg used rest a hus ha (by rw [hus, hvs rest rfl])
    cases next with
    | takes used' hrest hb hvs' =>
      refine .takes (used ++ used') (by rw [hus, hrest, List.append_assoc]) hb ?_
      intro vs hv
      rw [List.append_assoc, here _ (hrest ▸ head?_append_congr hv used')]
      exact hvs' vs hv
    | refuses before hrest hb hk hvs' =>
      obtain ⟨more, b, hb⟩ := hb
      refine .refuses (used ++ before) (by rw [hus, hrest, List.append_assoc])
        ⟨more, b, by simpa using hb⟩ hk fun vs hv => ?_
      rw [List.append_assoc, here _ (hrest ▸ head?_append_congr hv before)]
      exact hvs' vs hv
    | tooDeep left hshort hf => exact .tooDeep left hshort (by rw [hus, here rest rfl]; exact hf)
  | refuses before hus hbefore hk hvs =>
    obtain ⟨more, a, ha⟩ := hbefore
    refine .refuses before hus (hb _ a ha).of_append hk fun vs hv => ?_
    obtain ⟨rest, hf⟩ := hvs vs hv
    exact ⟨rest, by rw [bind_apply, hf]⟩
  | tooDeep rest hshort hf => exact .tooDeep rest hshort (by rw [bind_apply, hf])

end Predicts

/-- A parser of phrases, of which there are some, whose nesting has room on lists of fewer than
`room / 2` tokens. -/
structure Predictive (room : Nat) (stop : Location) (phrase : List Token → α → Prop)
    (p : Parser α) : Prop where
  inhabited : Begins phrase []
  predicts (us : List Token) : Predicts (room ≤ 2 * us.length) stop phrase p us

namespace Predictive

variable {room room' : Nat} {stop : Location} {phrase phrase' : List Token → α → Prop}
  {p : Parser α}

theorem mono (h : Predictive room stop phrase p) (hr : room' ≤ room)
    (hp : ∀ ts a, phrase ts a → phrase' ts a) : Predictive room' stop phrase' p := by
  obtain ⟨more, a, ha⟩ := h.inhabited
  exact ⟨⟨more, a, hp _ _ ha⟩, fun us => (h.predicts us).mono (Nat.le_trans hr) hp⟩

theorem bind {first : List Token → α → Prop} {target : List Token → β → Prop}
    {g : α → Parser β} (h : Predictive room stop first p)
    (hg : ∀ ts a, first ts a → Predictive room stop (fun vs => target (ts ++ vs)) (g a)) :
    Predictive room stop target (p >>= g) := by
  have begins (ts : List Token) (a : α) (ha : first ts a) : Begins target ts :=
    (hg ts a ha).inhabited
  obtain ⟨ts, a, ha⟩ := h.inhabited
  refine ⟨(begins ([] ++ ts) a ha).of_append, fun us => ?_⟩
  refine (h.predicts us).bind begins fun used rest b hus hb _ => ?_
  refine ((hg used b hb).predicts rest).mono (fun hroom => ?_) fun _ _ h => h
  rw [hus, List.length_append]
  omega

theorem pure {a : α} (ha : phrase [] a) : Predictive room stop phrase (pure a) :=
  ⟨⟨[], a, ha⟩, fun _ => .stays ha fun _ _ => rfl⟩

theorem tooDeep (hb : Begins phrase []) :
    Predictive 0 stop phrase (fail (.fault (.tooDeep .source))) :=
  ⟨hb, fun us => .tooDeep us (Nat.zero_le _) rfl⟩

theorem behind {t : Token} {q : Parser α} (h : Predictive room stop (fun vs => phrase (t :: vs)) q)
    (hp : ∀ vs, p (t :: vs) = q vs) (us : List Token) :
    Predicts (room + 2 ≤ 2 * (t :: us).length) stop phrase p (t :: us) := by
  refine .cons ((h.predicts us).mono (fun hroom => ?_) fun _ _ h => h) hp
  rw [List.length_cons]
  omega

theorem shortens (h : Predictive room stop phrase p) {us rest : List Token} {a : α}
    (hp : p us = .done a rest) : rest.length ≤ us.length := by
  obtain ⟨used, rfl, -⟩ := (h.predicts us).done hp
  simp

theorem require (room : Nat) (stop : Location) (r : Requirement) :
    Predictive room stop (fun ts t => ts = [t] ∧ t.kind = r.kind) (require stop r) := by
  have inhabited : Begins (fun ts t => ts = [t] ∧ t.kind = r.kind) [] :=
    ⟨[⟨r.kind, "", .null, stop⟩], _, rfl, rfl⟩
  refine ⟨inhabited, fun us => ?_⟩
  cases us with
  | nil => exact .refuses_end (.missing r) inhabited rfl ⟨[], rfl⟩
  | cons t us =>
    by_cases hk : t.kind = r.kind
    · exact .takes [t] rfl ⟨rfl, hk⟩ fun vs _ => require_cons hk
    · refine .refuses_head (.missing r) inhabited rfl fun vs => ⟨t :: vs, ?_⟩
      simp [Parser.require, expect, hk]

theorem require_bind {r : Requirement} {target : List Token → β → Prop} {g : Token → Parser β}
    (hg : ∀ t, t.kind = r.kind → Predictive room stop (fun vs => target (t :: vs)) (g t)) :
    Predictive room stop target (Parser.require stop r >>= g) := by
  refine (Predictive.require room stop r).bind ?_
  rintro ts t ⟨rfl, hk⟩
  exact hg t hk

theorem skip (room : Nat) (stop : Location) (kind : TokenKind) :
    Predictive room stop (fun ts _ => ts = [] ∨ ∃ t, t.kind = kind ∧ ts = [t]) (skip kind) := by
  refine ⟨⟨[], (), .inl rfl⟩, fun us => ?_⟩
  cases us with
  | nil =>
    refine .stays (a := ()) (.inl rfl) fun vs hv => ?_
    obtain rfl := List.head?_eq_none_iff.1 hv
    rfl
  | cons t us =>
    by_cases hk : t.kind = kind
    · refine .takes [t] (a := ()) rfl (.inr ⟨t, hk, rfl⟩) fun vs _ => ?_
      simp [Parser.skip, hk]
    · refine .stays (a := ()) (.inl rfl) fun vs hv => ?_
      obtain ⟨vs, rfl⟩ := List.head?_eq_some_iff.1 hv
      simp [Parser.skip, hk]

end Predictive

/-! ## Repetition -/

inductive Repeated (single : List Token → α → Prop) (last : List Token → Prop) :
    List Token → List α → Prop
  | nil {ts : List Token} : last ts → Repeated single last ts []
  | cons {ts us : List Token} {a : α} {as : List α} : single ts a → Repeated single last us as →
    Repeated single last (ts ++ us) (a :: as)

def EndsWith (last : List Token → Prop) (ts : List Token) (ended : Bool) : Prop :=
  if ended then last ts else ts = []

theorem manyUntilWithin_bound {ends : Parser Bool} {one : Parser α}
    (h : ∀ us us' a rest, ends us = .done false us' → one us' = .done a rest →
      rest.length < us.length) (bound bound' : Nat) : ∀ us : List Token,
    us.length < bound → us.length < bound' →
      manyUntilWithin ends one bound us = manyUntilWithin ends one bound' us := by
  induction bound generalizing bound' with
  | zero => exact fun us hb _ => absurd hb (Nat.not_lt_zero _)
  | succ bound ih =>
    intro us hb hb'
    obtain ⟨bound', rfl⟩ : ∃ n, bound' = n + 1 := ⟨bound' - 1, by omega⟩
    rw [manyUntilWithin, manyUntilWithin, bind_apply, bind_apply]
    cases hends : ends us with
    | failed f rest => rfl
    | done ended us' =>
      cases ended with
      | true => rfl
      | false =>
        dsimp only
        rw [if_neg Bool.false_ne_true, if_neg Bool.false_ne_true, bind_apply, bind_apply]
        cases hone : one us' with
        | failed f rest => rfl
        | done a rest =>
          have shorter := h us us' a rest hends hone
          dsimp only
          rw [bind_apply, bind_apply, ih bound' rest (by omega) (by omega)]

theorem manyUntil_eq {ends : Parser Bool} {one : Parser α}
    (h : ∀ us us' a rest, ends us = .done false us' → one us' = .done a rest →
      rest.length < us.length) (us : List Token) : manyUntil ends one us = (do
        if ← ends then pure []
        else
          let a ← one
          let as ← manyUntil ends one
          pure (a :: as) : Parser (List α)) us := by
  rw [manyUntil, manyUntilWithin, bind_apply, bind_apply]
  cases hends : ends us with
  | failed f rest => rfl
  | done ended us' =>
    cases ended with
    | true => rfl
    | false =>
      dsimp only
      rw [if_neg Bool.false_ne_true, if_neg Bool.false_ne_true, bind_apply, bind_apply]
      cases hone : one us' with
      | failed f rest => rfl
      | done a rest =>
        have shorter := h us us' a rest hends hone
        dsimp only
        rw [bind_apply, bind_apply, manyUntil,
          manyUntilWithin_bound h us.length (rest.length + 1) rest shorter (Nat.lt_succ_self _)]

theorem Predictive.manyUntil {room : Nat} {stop : Location} {last : List Token → Prop}
    {single : List Token → α → Prop} {ends : Parser Bool} {one : Parser α}
    (he : Predictive room stop (EndsWith last) ends) (hl : ∃ ts, last ts)
    (ho : Predictive room stop single one) (hne : ∀ ts a, single ts a → ts ≠ []) :
    Predictive room stop (Repeated single last) (manyUntil ends one) := by
  have shorter (us us' : List Token) (a : α) (rest : List Token)
      (hends : ends us = .done false us') (hone : one us' = .done a rest) :
      rest.length < us.length := by
    obtain ⟨used, rfl, rfl⟩ := (he.predicts us).done hends
    obtain ⟨taken, rfl, ha⟩ := (ho.predicts us').done hone
    have := List.length_pos_iff.2 (hne taken a ha)
    simp only [List.nil_append, List.length_append]
    omega
  obtain ⟨closing, hc⟩ := hl
  have inhabited : Begins (Repeated single last) [] := ⟨closing, [], .nil hc⟩
  refine ⟨inhabited, fun us => ?_⟩
  induction hn : us.length using Nat.strongRecOn generalizing us with
  | ind n ih =>
    subst hn
    refine .congr ?_ fun vs _ => manyUntil_eq shorter vs
    refine (he.predicts us).bind (fun ts ended h => ?_) fun used rest ended hus h hends => ?_
    · cases ended with
      | true => exact ⟨[], [], by simpa using Repeated.nil h⟩
      | false =>
        obtain rfl : ts = [] := h
        exact inhabited
    · cases ended with
      | true => exact .stays (by simpa using Repeated.nil h) fun _ _ => rfl
      | false =>
        obtain rfl : used = [] := h
        obtain rfl : us = rest := hus
        refine (ho.predicts us).bind (fun ts a ha => ?_) fun used mid a hus' ha hone => ?_
        · have alone : Repeated single last (ts ++ closing) [a] := .cons ha (.nil hc)
          exact ⟨closing, [a], alone⟩
        · have more := ih mid.length (shorter us us a mid hends hone) mid rfl
          refine (more.mono (fun hroom => ?_) fun _ _ h => h).bind (fun ts as has => ?_)
            fun used' rest' as _ has _ => ?_
          · rw [hus', List.length_append]
            omega
          · exact ⟨[], a :: as, by simpa using Repeated.cons ha has⟩
          · exact .stays (by simpa using Repeated.cons ha has) fun _ _ => rfl

end Parser

end ScopedScript
