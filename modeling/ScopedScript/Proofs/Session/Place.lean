import ScopedScript.Proofs.Session.Joined
import ScopedScript.Proofs.Token.Place

/-!
# Where errors are reported

The bodies of methods stay in the store with the places of the source that declared them, so that
an error in one is reported at a place of that source, whatever source is handled. What is not moved
by a function on places is known from runs that are the same with all places moved
(`replay_relocate`). Main statement: `error_place`.
-/

namespace ScopedScript

namespace Session

variable {f : Location → Location} {s : Session} {settings : Settings}

/-! ## Runs that a function on places does not change -/

theorem relocate_of_no_methods (h : ∀ a ∈ s.store.scopes, a.methods = []) : s.relocate f = s := by
  obtain ⟨⟨scopes, made, writes⟩, root, current⟩ := s
  have same : scopes.map (Scope.relocate f) = scopes := by
    refine (Array.map_congr_left fun a ha => ?_).trans (Array.map_id' _)
    obtain ⟨parent, ordinal, vars, methods⟩ := a
    obtain rfl : methods = [] := h _ ha
    rfl
  simp [Session.relocate, Store.relocate, same]

theorem start_no_methods : ∀ scope ∈ start.store.scopes, scope.methods = [] := by
  simp [start, Store.push, Store.add]

theorem run_moved (hs : s.relocate f = s) (program : Block) (notes : Array String) :
    Block.run settings (Block.relocate f program) ⟨s, notes⟩ =
      (Block.run settings program ⟨s, notes⟩).relocate f #[] := by
  rw [← Block.run_relocate settings program, Machine.relocate, hs, Array.empty_append]

theorem handle_fixed (hs : s.relocate f = s) (source : String)
    (hp : ∀ program, Lexicon.standard.parse source = .ok program →
      Block.relocate f program = program) :
    (s.handle settings source).2.1.relocate f = (s.handle settings source).2.1 := by
  have reset (t : Session) (ht : t.relocate f = t) : t.reset.relocate f = t.reset :=
    congrArg Session.reset ht
  refine reset _ ?_
  rcases s.run_cases settings .standard source with ⟨g, notes, hl, hr⟩ | ⟨b, notes, hl, hr⟩
  · rw [hr]
    exact hs
  · have read : Lexicon.standard.parse source = .ok b := by rw [← load_fst settings, hl]
    have moved := @run_moved f s settings hs b notes
    rw [hp b read] at moved
    rw [hr]
    exact (congrArg (fun o : Outcome Unit => o.machine.toSession) moved).symm

theorem replay_relocate {earlier : List (Settings × String)}
    (h : ∀ x ∈ earlier, (Lexicon.standard.parse x.2).isOk →
      ∀ t ∈ Lexicon.standard.tokens (Lexicon.standard.scan x.2), f t.location = t.location) :
    (replay earlier).relocate f = replay earlier := by
  refine replay_induction (P := fun s => s.relocate f = s) earlier
    (relocate_of_no_methods start_no_methods) fun s hs x hx => handle_fixed hs _ fun program hp => ?_
  exact Lexicon.parse_relocated hp f (h x hx (by rw [hp]; rfl))

/-! ## Places of failures -/

theorem FailsOutside.fixed {program : Block} {place : Location}
    (h : s.FailsOutside settings program place) (hs : s.relocate f = s) : f place = place := by
  have here := h id
  have there := h f
  rw [Block.relocate_id] at here
  rw [failurePlace, run_moved hs] at there
  simp only [failurePlace, Outcome.relocate] at here there
  rcases hr : (Block.run settings program ⟨s, #[]⟩).result with (e | x) | ⟨⟩
  all_goals rw [hr] at here there
  · simp [Except.mapError, Failure.relocate, ScriptError.relocate] at here there
    simpa [here] using there
  · cases here
  · cases here

theorem run_fails_at {source : String} {program : Block} {e : ScriptError} {place : Location}
    (hp : Lexicon.standard.parse source = .ok program)
    (he : (s.run settings .standard source).result = .error (.error e))
    (hl : e.location = some place) :
    s.FailsInside settings program place ∨ s.FailsOutside settings program place := by
  obtain ⟨o, ho⟩ := Block.run_marked settings program s
  obtain ⟨notes, run⟩ := run_of_parse hp s settings
  have here := ho id notes
  rw [Block.relocate_id] at here
  rw [run, here] at he
  rcases hr : o.result with (e₀ | x) | ⟨⟩
  all_goals rw [Outcome.relocate, hr] at he; cases he
  obtain ⟨marked, hm, rfl⟩ := Option.map_eq_some_iff.1 hl
  obtain ⟨l, ⟨inside, moves⟩ | ⟨outside, stays⟩⟩ := failsInside_or_failsOutside ho hr hm
  · rw [moves]
    exact .inl inside
  · rw [stays]
    exact .inr outside

theorem answer_reported {source report : String} {result : Except Failure Nat} {a : Answer}
    {place : Location} (ha : s.answer source result = .ok a)
    (hr : a.error = some (report, some place)) :
    ∃ e, result = .error (.error e) ∧ e.location = some place ∧ report = e.report source := by
  unfold answer at ha
  split at ha
  all_goals cases ha
  · cases hr
  · rename_i e
    simp only [Option.some.injEq, Prod.mk.injEq] at hr
    exact ⟨e, rfl, hr.2, hr.1.symm⟩
  · simp at hr

theorem placeIn_or_failsOutside {source report : String} {a : Answer} {place : Location}
    (ha : (s.handle settings source).1 = .ok a) (hr : a.error = some (report, some place)) :
    Lexicon.standard.PlaceIn source place ∨
      ∃ program, Lexicon.standard.parse source = .ok program ∧
        s.FailsOutside settings program place := by
  obtain ⟨e, he, hl, -⟩ := answer_reported ha hr
  cases hp : Lexicon.standard.parse source with
  | error f =>
    obtain ⟨notes, run⟩ := run_of_parse_error hp s settings
    rw [run] at he
    cases he
    cases Lexicon.parse_ofReading_placeIn Lexicon.inline_standard hp with
    | error _ inside =>
      cases hl
      exact .inl inside
  | ok program =>
    rcases run_fails_at hp he hl with inside | outside
    · obtain ⟨t, ht, rfl⟩ := inside.exists_token hp
      exact .inl (.token ht)
    · exact .inr ⟨program, rfl, outside⟩

theorem exists_moving (place : Location) :
    ∃ f : Location → Location, f place ≠ place ∧ ∀ l, l ≠ place → f l = l := by
  refine ⟨fun l => if l = place then l.shift 1 else l, fun h => ?_, fun l hl => if_neg hl⟩
  have cursor := congrArg Location.cursor ((if_pos rfl).symm.trans h)
  simp only [Location.shift] at cursor
  omega

theorem placeIn_of_no_methods {source report : String} {a : Answer} {place : Location}
    (hm : ∀ scope ∈ s.store.scopes, scope.methods = [])
    (ha : (s.handle settings source).1 = .ok a) (hr : a.error = some (report, some place)) :
    Lexicon.standard.PlaceIn source place := by
  rcases placeIn_or_failsOutside ha hr with inside | ⟨program, -, outside⟩
  · exact inside
  · obtain ⟨f, moves, -⟩ := exists_moving place
    exact absurd (outside.fixed (relocate_of_no_methods hm)) moves

theorem exists_ok_of_bind {α : Type} {r : Except Fault Answer} {f : Answer → Option α} {x : α}
    (h : r.toOption.bind f = some x) : ∃ a, r = .ok a ∧ f a = some x := by
  cases r with
  | error => cases h
  | ok a => exact ⟨a, rfl, h⟩

theorem exists_reported {r : Except Fault Answer} {place : Option Location}
    (h : r.toOption.bind (fun a => a.error.map Prod.snd) = some place) :
    ∃ a report, r = .ok a ∧ a.error = some (report, place) := by
  obtain ⟨a, ha, h⟩ := exists_ok_of_bind h
  obtain ⟨⟨report, _⟩, hr, rfl⟩ := Option.map_eq_some_iff.1 h
  exact ⟨a, report, ha, hr⟩

/-- An error is reported at a place of the source that is handled, or else at that of a token of an
earlier source: then it is in the body of a method, which keeps the places of the source that
declared it, and stays where it is wherever the program that calls the method stands. Without
methods from earlier sources, every place is one of the source. -/
theorem error_place (earlier : List (Settings × String)) (settings : Settings) (source : String)
    {a : Answer} {report : String} {place : Location}
    (ha : ((replay earlier).handle settings source).1 = .ok a)
    (hr : a.error = some (report, some place)) :
    (Lexicon.standard.PlaceIn source place ∨
      ∃ program, Lexicon.standard.parse source = .ok program ∧
        (replay earlier).FailsOutside settings program place ∧
        ∃ x ∈ earlier, (Lexicon.standard.parse x.2).isOk ∧
          ∃ t ∈ Lexicon.standard.tokens (Lexicon.standard.scan x.2), t.location = place) ∧
      ((∀ scope ∈ (replay earlier).store.scopes, scope.methods = []) →
        Lexicon.standard.PlaceIn source place) := by
  refine ⟨?_, fun none => placeIn_of_no_methods none ha hr⟩
  rcases placeIn_or_failsOutside ha hr with inside | ⟨program, hp, outside⟩
  · exact .inl inside
  · refine .inr ⟨program, hp, outside, ?_⟩
    -- were there no such token, moving this place alone would not change the session
    apply Classical.byContradiction
    intro none
    obtain ⟨f, moves, fixes⟩ := exists_moving place
    refine moves (outside.fixed (replay_relocate fun x hx parsed t ht => fixes _ fun e => ?_))
    exact none ⟨x, hx, parsed, t, ht, e⟩

theorem error_place_unknown_variable :
    let earlier : List (Settings × String) := [({}, "var f() \x7b x = 1; \x7d")]
    let place : Location := ⟨1, 11, 10⟩
    ∃ a report, ((replay earlier).handle {} "f();").1 = .ok a ∧
      a.error = some (report, some place) ∧ ¬ Lexicon.standard.PlaceIn "f();" place ∧
      ∃ program, Lexicon.standard.parse "f();" = .ok program ∧
        (replay earlier).FailsOutside {} program place ∧
        ∃ x ∈ earlier, (Lexicon.standard.parse x.2).isOk ∧
          ∃ t ∈ Lexicon.standard.tokens (Lexicon.standard.scan x.2), t.location = place := by
  intro earlier place
  have reported : ((replay earlier).handle {} "f();").1.toOption.bind
      (fun a => a.error.map Prod.snd) = some (some place) := by decide +kernel
  have elsewhere : ¬ Lexicon.standard.PlaceIn "f();" place := by decide +kernel
  obtain ⟨a, report, ha, hr⟩ := exists_reported reported
  refine ⟨a, report, ha, hr, elsewhere, ?_⟩
  exact (error_place earlier {} "f();" ha hr).1.resolve_left elsewhere

/-- An error in the body of a method is not reported at a place of the source that calls it. -/
theorem stored_body_misplaced :
    let s := replay [({}, "var f() \x7b x = 1; \x7d")]
    (((s.handle {} "f();").1.toOption.bind Answer.error).map Prod.snd) = some (some ⟨1, 11, 10⟩) ∧
      ¬ Lexicon.standard.PlaceIn "f();" ⟨1, 11, 10⟩ := by
  decide +kernel

end Session

end ScopedScript
