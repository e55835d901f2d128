import ScopedScript.Proofs.Parser.Joined
import ScopedScript.Proofs.Run.Relocation
import ScopedScript.Proofs.Session.History
import ScopedScript.Proofs.Store.Every

/-!
# Sources run one by one and joined

Handling two sources one after the other does what handling them as one source does, a line feed
between them. A place of the second source is further down in the joined one. Which places these are
is seen from a run in which the second program has marked places and the methods declared before it
have none. Main statement: `handle_joined`.
-/

namespace ScopedScript

/-! ## Places of the program and places of the store -/

namespace Location

def mark (inside : Bool) (l : Location) : Location :=
  -- the mark is the last bit of the cursor
  ⟨l.line, l.column, 2 * l.cursor + if inside then 1 else 0⟩

def unmark (f : Location → Location) (l : Location) : Location :=
  let plain : Location := ⟨l.line, l.column, l.cursor / 2⟩
  if l.cursor % 2 = 0 then plain else f plain

theorem unmark_inside (f : Location → Location) : unmark f ∘ mark true = f := by
  funext l
  have odd : (2 * l.cursor + 1) % 2 = 1 := by omega
  have half : (2 * l.cursor + 1) / 2 = l.cursor := by omega
  simp [mark, unmark, odd, half]

theorem unmark_outside (f : Location → Location) : unmark f ∘ mark false = id := by
  funext l
  simp [mark, unmark]

end Location

open Location (mark unmark)

/-- An outcome with marked places stands for the runs of a program in a session, wherever the
program is moved. -/
def Outcome.StandsFor (o : Outcome Unit) (settings : Settings) (program : Block) (s : Session) :
    Prop :=
  ∀ f notes,
    Block.run settings (Block.relocate f program) ⟨s, notes⟩ = o.relocate (unmark f) notes

theorem Block.run_marked (settings : Settings) (program : Block) (s : Session) :
    ∃ o : Outcome Unit, o.StandsFor settings program s := by
  refine ⟨Block.run settings (Block.relocate (mark true) program)
    ⟨s.relocate (mark false), #[]⟩, fun f notes => ?_⟩
  rw [← Block.run_relocate settings (Block.relocate (mark true) program), Block.relocate_relocate,
    Location.unmark_inside, Machine.relocate, Session.relocate_relocate, Location.unmark_outside,
    Session.relocate_id, Array.append_empty]

theorem Block.run_notes {settings : Settings} {program : Block} {s t : Session}
    {notes notes' : Array String} {result : Except Failure Unit}
    (h : Block.run settings program ⟨s, notes⟩ = ⟨result, t, notes'⟩) (others : Array String) :
    ∃ notes', Block.run settings program ⟨s, others⟩ = ⟨result, t, notes'⟩ := by
  obtain ⟨o, ho⟩ := Block.run_marked settings program s
  have first := ho id notes
  have second := ho id others
  rw [Block.relocate_id] at first second
  refine ⟨others ++ o.machine.trace, ?_⟩
  rw [h] at first
  rw [second]
  simp only [Outcome.relocate, Machine.relocate, Outcome.mk.injEq, Machine.mk.injEq] at first ⊢
  exact ⟨first.1.symm, first.2.1.symm, trivial⟩

theorem Block.run_append {settings : Settings} {b : Block} (c : Block) {m m' : Machine}
    (h : Block.run settings b m = ⟨.ok (), m'⟩) :
    Block.run settings (b ++ c) m = Block.run settings c m' := by
  unfold Block.run at h ⊢
  induction b generalizing m with
  | nil =>
    cases h
    rfl
  | cons s ss ih =>
    rw [List.cons_append, Statement.runAll]
    rw [Statement.runAll] at h
    rcases hs : Statement.run settings _ s m with ⟨failure | ⟨⟩, n⟩
    · rw [hs] at h
      cases h
    · rw [hs] at h
      exact ih h

namespace Session

/-! ## Where a program fails -/

def failurePlace (s : Session) (settings : Settings) (program : Block) : Option Location :=
  match (Block.run settings program ⟨s, #[]⟩).result with
  | .error (.error e) => e.location
  | _ => none

/-- A program fails at a place of its own: wherever it is moved, the place moves with it. -/
def FailsInside (s : Session) (settings : Settings) (program : Block) (place : Location) : Prop :=
  ∀ f, s.failurePlace settings (Block.relocate f program) = some (f place)

def FailsOutside (s : Session) (settings : Settings) (program : Block) (place : Location) : Prop :=
  ∀ f, s.failurePlace settings (Block.relocate f program) = some place

theorem FailsInside.exists_token {s : Session} {settings : Settings} {source : String}
    {program : Block} {place : Location} (h : s.FailsInside settings program place)
    (hp : Lexicon.standard.parse source = .ok program) :
    ∃ t ∈ Lexicon.standard.tokens (Lexicon.standard.scan source), t.location = place := by
  apply Classical.byContradiction
  intro none
  -- were there no such token, moving this place alone would not change the program
  let f (l : Location) : Location := if l = place then l.shift 1 else l
  have still : Block.relocate f program = program := by
    refine Lexicon.parse_relocated hp f fun t ht => if_neg fun e => none ⟨t, ht, e⟩
  have moved := h f
  rw [still, ← Block.relocate_id program, h id] at moved
  have further : f place = place.shift 1 := if_pos rfl
  have cursor : place.cursor = place.cursor + 1 :=
    congrArg Location.cursor ((Option.some.inj moved).trans further)
  omega

section

variable {s : Session} {settings : Settings} {program : Block} {o : Outcome Unit}
  {e : ScriptError} {place : Location}

theorem failurePlace_marked (ho : o.StandsFor settings program s)
    (he : o.result = .error (.error e)) (hp : e.location = some place) (f : Location → Location) :
    s.failurePlace settings (Block.relocate f program) = some (unmark f place) := by
  rw [failurePlace, ho, Outcome.relocate, he]
  simp [Except.mapError, Failure.relocate, ScriptError.relocate, hp]

theorem failsInside_or_failsOutside (ho : o.StandsFor settings program s)
    (he : o.result = .error (.error e)) (hp : e.location = some place) :
    ∃ l, (s.FailsInside settings program l ∧ ∀ f, unmark f place = f l) ∨
      (s.FailsOutside settings program l ∧ ∀ f, unmark f place = l) := by
  refine ⟨⟨place.line, place.column, place.cursor / 2⟩, ?_⟩
  have fails := failurePlace_marked ho he hp
  by_cases even : place.cursor % 2 = 0
  · have stays (f : Location → Location) : unmark f place = ⟨_, _, _⟩ := if_pos even
    exact .inr ⟨fun f => (fails f).trans (congrArg some (stays f)), stays⟩
  · have moves (f : Location → Location) : unmark f place = f ⟨_, _, _⟩ := if_neg even
    exact .inl ⟨fun f => (fails f).trans (congrArg some (moves f)), moves⟩

end

/-! ## Handling sources -/

def replay (sources : List (Settings × String)) : Session :=
  sources.foldl (fun s x => (s.handle x.1 x.2).2.1) start

theorem replay_induction {P : Session → Prop} (sources : List (Settings × String)) (h : P start)
    (step : ∀ s, P s → ∀ x ∈ sources, P (s.handle x.1 x.2).2.1) : P (replay sources) :=
  List.foldlRecOn sources _ h step

theorem replay_upheld {v : Vocabulary} {I : Store Value → Prop} (U : Upheld v I)
    (within : ∀ {source program}, Lexicon.standard.parse source = .ok program →
      Block.Within v program)
    (h : I start.store) (sources : List (Settings × String)) : I (replay sources).store :=
  replay_induction (P := fun s => I s.store) sources h fun _ h x _ =>
    run_upheld U x.1 (fun _ => within) h

theorem start_every {P : Scope Value → Prop} (h : P ⟨none, 0, [], []⟩) : start.store.Every P := by
  intro i a ha
  obtain ⟨hi, rfl⟩ := Array.getElem?_eq_some_iff.1 ha
  obtain rfl : i = 0 := Nat.lt_one_iff.1 hi
  exact h

theorem replay_current (sources : List (Settings × String)) :
    (replay sources).current = (replay sources).root :=
  replay_induction (P := fun s => s.current = s.root) sources rfl fun _ _ _ _ => rfl

def unplaced (s : Session) : Session := s.relocate fun _ => {}

theorem bindings_relocate (f : Location → Location) (s : Session) :
    (s.relocate f).bindings = s.bindings :=
  s.store.snapshot_relocate f s.root

theorem answer_status {s t : Session} (hb : s.bindings = t.bindings) (first second : String)
    (r : Except Failure Unit) (m n : Nat) (f g : Location → Location) :
    (s.answer first ((r.mapError (Failure.relocate f)).map fun _ => m)).map
        (fun a => (a.bindings, a.error.isSome)) =
      (t.answer second ((r.mapError (Failure.relocate g)).map fun _ => n)).map
        (fun a => (a.bindings, a.error.isSome)) := by
  rcases r with (e | x) | ⟨⟩
  · simp [Except.map, Except.mapError, Failure.relocate, answer, hb]
  · cases x <;> simp [Except.map, Except.mapError, Failure.relocate, answer, hb]
  · simp [Except.map, answer, hb]

theorem run_of_parse {source : String} {program : Block}
    (h : Lexicon.standard.parse source = .ok program) (s : Session) (settings : Settings) :
    ∃ notes, let o := Block.run settings program ⟨s, notes⟩
      s.run settings .standard source =
        ⟨o.result.map fun _ => program.length, o.machine.toSession, o.machine.trace⟩ := by
  rcases s.run_cases settings .standard source with ⟨f, notes, hl, -⟩ | ⟨program', notes, hl, hr⟩
  · have failed := load_fst settings .standard source
    rw [hl, h] at failed
    cases failed
  · have read := load_fst settings .standard source
    rw [hl, h] at read
    cases read
    exact ⟨notes, hr⟩

theorem run_joined {s : Session} {settings : Settings} {first second : String} {n : Nat}
    {program : Block} (hfirst : (s.run settings .standard first).result = .ok n)
    (hsecond : Lexicon.standard.parse second = .ok program) :
    let t := (s.run settings .standard first).session
    let moved := Block.relocate (.below first.toList) program
    ∃ count notes, let o := Block.run settings moved ⟨t, notes⟩
      s.run settings .standard (first ++ "\n" ++ second) =
        ⟨o.result.map fun _ => count, o.machine.toSession, o.machine.trace⟩ := by
  rcases s.run_cases settings .standard first with ⟨f, notes, hl, hr⟩ | ⟨b, notes, hl, hr⟩
  · rw [hr] at hfirst
    cases hfirst
  · have read : Lexicon.standard.parse first = .ok b := by rw [← load_fst settings, hl]
    obtain ⟨notes', joined⟩ := run_of_parse (Lexicon.parse_joined read hsecond) s settings
    rw [hr] at hfirst ⊢
    rcases ho : Block.run settings b ⟨s, notes⟩ with ⟨failure | ⟨⟩, m⟩
    · rw [ho] at hfirst
      cases hfirst
    · obtain ⟨between, ended⟩ := Block.run_notes ho notes'
      rw [Block.run_append _ ended] at joined
      exact ⟨_, between, joined⟩

theorem reset_of_current {s : Session} (h : s.current = s.root) : s.reset = s := by
  obtain ⟨store, root, current⟩ := s
  cases h
  rfl

/-- From whatever session sources have led to, handling a source that ends well and then one that is
a program leaves the same bindings and scopes as handling both as one source, a line feed between
them, and ends alike. An error is the same as well; the place of a token of the second source is
further down in the joined one, and the place of a method declared before is the same. -/
theorem handle_joined (settings : Settings) (earlier : List (Settings × String))
    (first second : String) {n : Nat} {program : Block}
    (hfirst : ((replay earlier).run settings .standard first).result = .ok n)
    (hsecond : Lexicon.standard.parse second = .ok program) :
    let s := replay earlier
    let source := first ++ "\n" ++ second
    let t := (s.handle settings first).2.1
    let apart := t.handle settings second
    let joined := s.handle settings source
    let status (a : Answer) : List (String × Value) × Bool := (a.bindings, a.error.isSome)
    joined.2.1.bindings = apart.2.1.bindings ∧ joined.2.1.unplaced = apart.2.1.unplaced ∧
      joined.1.map status = apart.1.map status ∧
      (∀ x, (t.run settings .standard second).result = .error (.fault x) →
        (s.run settings .standard source).result = .error (.fault x)) ∧
      ∀ e, (t.run settings .standard second).result = .error (.error e) → ∃ e' l,
        (s.run settings .standard source).result = .error (.error e') ∧
          e'.kind = e.kind ∧ e'.message = e.message ∧ e.location = some l ∧
          ((t.FailsInside settings program l ∧
              (∃ u ∈ Lexicon.standard.tokens (Lexicon.standard.scan second), u.location = l) ∧
              e'.location = some ⟨l.line + (first.toList.count '\n' + 1), l.column,
                l.cursor + (first.length + 1)⟩) ∨
            t.FailsOutside settings program l ∧ e'.location = some l) := by
  intro s source t apart joined status
  obtain ⟨hc, hr, -, -⟩ := s.run_frame settings .standard first
  have ended : t = (s.run settings .standard first).session :=
    reset_of_current (hc.trans ((replay_current earlier).trans hr.symm))
  obtain ⟨o, ho⟩ := Block.run_marked settings program t
  obtain ⟨notes, one⟩ := run_of_parse hsecond t settings
  obtain ⟨count, notes', both⟩ := run_joined hfirst hsecond
  have here := ho id notes
  rw [Block.relocate_id] at here
  rw [here] at one
  rw [← ended, ho] at both
  -- from here on both ways are the one outcome `o` with its places unmarked by `id` and by `f`
  let f := Location.below first.toList
  have apart_session : apart.2.1 = o.machine.reset.relocate (unmark id) :=
    congrArg (fun r : SourceRun => r.session.reset) one
  have joined_session : joined.2.1 = o.machine.reset.relocate (unmark f) :=
    congrArg (fun r : SourceRun => r.session.reset) both
  have bindings_eq : joined.2.1.bindings = apart.2.1.bindings := by
    rw [joined_session, apart_session, bindings_relocate, bindings_relocate]
  refine ⟨bindings_eq, ?_, ?_, fun x hx => ?_, fun e he => ?_⟩
  · rw [joined_session, apart_session, unplaced, unplaced, relocate_relocate, relocate_relocate]
    rfl
  · have apart_answer : apart.1 = apart.2.1.answer second _ :=
      congrArg (fun r : SourceRun => apart.2.1.answer second r.result) one
    have joined_answer : joined.1 = joined.2.1.answer source _ :=
      congrArg (fun r : SourceRun => joined.2.1.answer source r.result) both
    rw [apart_answer, joined_answer]
    exact answer_status bindings_eq source second o.result _ _ (unmark f) (unmark id)
  · rw [one] at hx
    rw [both]
    rcases hr : o.result with (e | y) | ⟨⟩
    all_goals rw [Outcome.relocate, hr] at hx ⊢; cases hx
    rfl
  · have placed : e.location.isSome := ((t.run_frame settings .standard second).2.2.2 _ he).2
    rw [one] at he
    rw [both]
    rcases hr : o.result with (e₀ | y) | ⟨⟩
    all_goals rw [Outcome.relocate, hr] at he; cases he
    obtain ⟨place, hp, -⟩ := Option.map_eq_some_iff.1 (Option.eq_some_of_isSome placed)
    obtain ⟨l, ⟨inside, moves⟩ | ⟨outside, stays⟩⟩ := failsInside_or_failsOutside ho hr hp
    · refine ⟨e₀.relocate (unmark f), l, ?_, rfl, rfl, ?_, .inl ⟨inside, ?_, ?_⟩⟩
      · rw [Outcome.relocate, hr]
        rfl
      · simp [ScriptError.relocate, hp, moves]
      · exact inside.exists_token hsecond
      · simp [ScriptError.relocate, hp, moves, f, Location.below, Location.move,
          String.length_toList]
    · refine ⟨e₀.relocate (unmark f), l, ?_, rfl, rfl, ?_, .inr ⟨outside, ?_⟩⟩
      · rw [Outcome.relocate, hr]
        rfl
      · simp [ScriptError.relocate, hp, stays]
      · simp [ScriptError.relocate, hp, stays]

theorem handle_joined_unbound_name :
    let s := replay [({}, "var x = true")]
    let first := "var a = \"a\"\nvar f() \x7b x = y \x7d"
    let second := "var b = a\nx = z"
    let t := (s.handle {} first).2.1
    (s.run {} .standard first).result.isOk ∧ (Lexicon.standard.parse second).isOk ∧
      (s.handle {} (first ++ "\n" ++ second)).2.1.bindings = (t.handle {} second).2.1.bindings ∧
      ∃ e', (s.run {} .standard (first ++ "\n" ++ second)).result = .error (.error e') ∧
        e'.message = "No such variable exists: z" ∧ e'.location = some ⟨4, 5, 44⟩ := by
  intro s first second t
  have hfirst : (s.run {} .standard first).result = .ok 2 := by decide +kernel
  have parsed : (Lexicon.standard.parse second).isOk := by decide +kernel
  have failed : (t.run {} .standard second).result =
      .error (.ofCause (.unknownName "z") ⟨2, 5, 14⟩) := by decide +kernel
  have joined : (s.run {} .standard (first ++ "\n" ++ second)).result =
      .error (.ofCause (.unknownName "z") ⟨4, 5, 44⟩) := by decide +kernel
  obtain ⟨program, hsecond⟩ : ∃ program, Lexicon.standard.parse second = .ok program := by
    cases h : Lexicon.standard.parse second with
    | ok program => exact ⟨program, rfl⟩
    | error f =>
      rw [h] at parsed
      cases parsed
  obtain ⟨bindings, -, -, -, error⟩ :=
    handle_joined {} [({}, "var x = true")] first second hfirst hsecond
  obtain ⟨e', l, both, -, message, -, -⟩ := error _ failed
  refine ⟨by rw [hfirst]; rfl, parsed, bindings, e', both, message, ?_⟩
  rw [joined] at both
  cases both
  rfl

end Session

end ScopedScript
