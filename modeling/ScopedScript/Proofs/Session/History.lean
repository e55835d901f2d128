import ScopedScript.Proofs.Parser.Failure
import ScopedScript.Proofs.Run.Steady
import ScopedScript.Proofs.Run.Upheld
import ScopedScript.Session

namespace ScopedScript

namespace Session

inductive Step
  | enter
  | leave (location : Option Location)
  | run (settings : Settings) (lexicon : Lexicon) (source : String)

/-- A step of a history, beside the scopes that were entered and not left. A scope that cannot be
left is not left. -/
def track : Session × List ScopeId → Step → Session × List ScopeId
  | (s, stack), .enter => (s.enter, s.enter.current :: stack)
  | (s, stack), .leave location =>
    match s.leave location with
    | .ok t => (t, stack.tail)
    | .error _ => (s, stack)
  | (s, stack), .run settings lexicon source => ((s.run settings lexicon source).session, stack)

theorem load_fst (settings : Settings) (lexicon : Lexicon) (source : String) :
    (load settings lexicon source).1 = lexicon.parse source := by
  unfold load Lexicon.parse Lexicon.tokenize
  dsimp only
  cases (lexicon.scan source).error? <;> rfl

theorem run_cases (s : Session) (settings : Settings) (lexicon : Lexicon) (source : String) :
    (∃ f notes, load settings lexicon source = (.error f, notes) ∧
        s.run settings lexicon source = ⟨.error f, s, notes⟩) ∨
      ∃ program notes, load settings lexicon source = (.ok program, notes) ∧
        let o := Block.run settings program ⟨s, notes⟩
        s.run settings lexicon source =
          ⟨o.result.map fun _ => program.length, o.machine.toSession, o.machine.trace⟩ := by
  rw [run]
  rcases load settings lexicon source with ⟨f | program, notes⟩
  · exact .inl ⟨f, notes, rfl, rfl⟩
  · refine .inr ⟨program, notes, rfl, ?_⟩
    dsimp only
    rcases Block.run settings program ⟨s, notes⟩ with ⟨f | ⟨⟩, m⟩
    · rfl
    · rfl

theorem bindings_of_answer {s : Session} {source : String} {result : Except Failure Nat}
    {a : Answer} (h : s.answer source result = .ok a) : a.bindings = s.bindings := by
  unfold answer at h
  split at h <;> cases h <;> rfl

theorem run_of_parse_error {lexicon : Lexicon} {source : String} {f : Failure}
    (h : lexicon.parse source = .error f) (s : Session) (settings : Settings) :
    ∃ notes, s.run settings lexicon source = ⟨.error f, s, notes⟩ := by
  have read := load_fst settings lexicon source
  rcases s.run_cases settings lexicon source with ⟨g, notes, hl, hr⟩ | ⟨program, notes, hl, -⟩
  · rw [hl, h] at read
    cases read
    exact ⟨notes, hr⟩
  · rw [hl, h] at read
    cases read

theorem run_frame (s : Session) (settings : Settings) (lexicon : Lexicon) (source : String) :
    (s.run settings lexicon source).session.current = s.current ∧
      (s.run settings lexicon source).session.root = s.root ∧
      s.store.Frame (some s.current) (s.run settings lexicon source).session.store ∧
      FailsWith (.grammar :: ErrorKind.ofRun) (s.run settings lexicon source).result := by
  rcases s.run_cases settings lexicon source with ⟨f, notes, hl, hr⟩ | ⟨program, notes, -, hr⟩
  · rw [hr]
    refine ⟨rfl, rfl, .refl _ _, (failsWith_error f).2 ?_⟩
    have failed : lexicon.parse source = .error f := by rw [← load_fst settings, hl]
    exact (parse_failsWith lexicon source f failed).mono (by simp)
  · have steady := runAll_steady settings Method.callDepth program ⟨s, notes⟩
    rw [hr]
    refine ⟨steady.current, steady.root, steady.frame, ?_⟩
    exact FailsWith.map (fun f hf => (steady.failure f hf).mono (by simp)) _

section

variable {v : Vocabulary} {I : Store Value → Prop}

theorem run_upheld (U : Upheld v I) {s : Session} (settings : Settings) {lexicon : Lexicon}
    {source : String}
    (within : ∀ program, lexicon.parse source = .ok program → Block.Within v program)
    (h : I s.store) : I (s.run settings lexicon source).session.store := by
  rcases s.run_cases settings lexicon source with ⟨f, notes, -, hr⟩ | ⟨program, notes, hl, hr⟩
  · rw [hr]
    exact h
  · rw [hr]
    have read : lexicon.parse source = .ok program := by rw [← load_fst settings, hl]
    exact U.runAll Method.callDepth program ⟨s, notes⟩ (within program read) h

theorem leave_store {s t : Session} {location : Option Location}
    (h : s.leave location = .ok t) : t.store = s.store := by
  unfold leave at h
  split at h <;> cases h
  rfl

theorem history_upheld (U : Upheld v I) (within : ∀ (lexicon : Lexicon) source program,
      lexicon.parse source = .ok program → Block.Within v program)
    (steps : List Step) (p : Session × List ScopeId) (h : I p.1.store) :
    I (steps.foldl track p).1.store := by
  induction steps generalizing p with
  | nil => exact h
  | cons x steps ih =>
    refine ih _ ?_
    obtain ⟨s, stack⟩ := p
    cases x with
    | enter => exact U.push _ h
    | run settings lexicon source => exact run_upheld U settings (within lexicon source) h
    | leave location =>
      rw [track]
      split
      · rename_i t ht
        rwa [leave_store ht]
      · exact h

end

structure Tracking (root : ScopeId) (s : Session) (stack : List ScopeId) : Prop where
  root_eq : s.root = root
  size : root < s.store.scopes.size
  outermost : s.store.scopes[root]?.bind Scope.parent = none
  chain : s.store.chain s.current = stack ++ [root]

namespace Tracking

variable {root : ScopeId} {s : Session} {stack : List ScopeId}

theorem current_lt (h : Tracking root s stack) : s.current < s.store.scopes.size := by
  apply Nat.lt_of_not_le
  intro hle
  have chain := h.chain
  rw [Store.chain_eq_nil hle] at chain
  simp at chain

theorem enter (h : Tracking root s stack) :
    Tracking root s.enter (s.enter.current :: stack) := by
  have frame : s.store.Frame none s.enter.store := Store.frame_add _ _
  obtain ⟨a, ha⟩ : ∃ a, s.store.scopes[root]? = some a := ⟨_, Array.getElem?_eq_getElem h.size⟩
  refine ⟨h.root_eq, Nat.lt_of_lt_of_le h.size frame.size_le, ?_, ?_⟩
  · rw [frame.parent ha]
    simpa [ha] using h.outermost
  · have lt : s.current < s.enter.current := h.current_lt
    have entered : s.enter.store.scopes[s.enter.current]? =
        some ⟨some s.current, s.store.made.scopes, [], []⟩ :=
      (Store.getElem?_add _ _ _).trans (if_pos rfl)
    rw [Store.chain_eq_cons entered fun p hp => Option.some.inj hp ▸ lt, Option.map_some,
      Option.getD_some, frame.chain_eq h.current_lt, h.chain, List.cons_append]

theorem run (h : Tracking root s stack) (settings : Settings) (lexicon : Lexicon)
    (source : String) : Tracking root (s.run settings lexicon source).session stack := by
  obtain ⟨hc, hr, frame, -⟩ := s.run_frame settings lexicon source
  refine ⟨hr.trans h.root_eq, Nat.lt_of_lt_of_le h.size frame.size_le, ?_, ?_⟩
  · have ha := Array.getElem?_eq_getElem h.size
    rw [frame.parent ha]
    simpa [ha] using h.outermost
  · rw [hc, frame.chain_eq h.current_lt, h.chain]

theorem leave_nil (h : Tracking root s []) (location : Option Location) :
    s.leave location = .error ⟨.outermostScope, location⟩ := by
  have head := Store.chain_head? h.current_lt
  rw [h.chain] at head
  have current : s.current = root := (Option.some.inj head).symm
  unfold Session.leave
  rw [current, h.outermost]

theorem leave_cons {inner : ScopeId} (h : Tracking root s (inner :: stack))
    (location : Option Location) :
    ∃ outer, s.leave location = .ok { s with current := outer } ∧
      (stack ++ [root]).head? = some outer ∧ Tracking root { s with current := outer } stack := by
  have chain := h.chain
  rw [List.cons_append, Store.chain, Array.getElem?_eq_getElem h.current_lt] at chain
  have more : stack ++ [root] ≠ [] := by simp
  dsimp only at chain
  split at chain
  · rename_i outer hp
    split at chain
    · have rest : s.store.chain outer = stack ++ [root] := (List.cons.inj chain).2
      refine ⟨outer, ?_, ?_, h.root_eq, h.size, h.outermost, rest⟩
      · simp [Session.leave, Array.getElem?_eq_getElem h.current_lt, hp]
      · rw [← rest, Store.chain_head?]
        apply Nat.lt_of_not_le
        intro hle
        rw [Store.chain_eq_nil hle] at rest
        exact more rest.symm
    · exact absurd (List.cons.inj chain).2.symm more
  · exact absurd (List.cons.inj chain).2.symm more

end Tracking

theorem Tracking.track {root : ScopeId} {s : Session} {stack : List ScopeId}
    (h : Tracking root s stack) (x : Step) :
    Tracking root (Session.track (s, stack) x).1 (Session.track (s, stack) x).2 := by
  cases x with
  | enter => exact h.enter
  | run settings lexicon source => exact h.run settings lexicon source
  | leave location =>
    cases stack with
    | nil => simpa [Session.track, h.leave_nil] using h
    | cons inner stack =>
      obtain ⟨outer, left, -, next⟩ := h.leave_cons location
      simpa [Session.track, left] using next

theorem Tracking.history {root : ScopeId} {s : Session} {stack : List ScopeId}
    (h : Tracking root s stack) (steps : List Step) :
    Tracking root (steps.foldl Session.track (s, stack)).1
      (steps.foldl Session.track (s, stack)).2 := by
  induction steps generalizing s stack with
  | nil => exact h
  | cons x steps ih => exact ih (h.track x)

/-- Scopes are left in the order opposite to that in which they were entered, whatever runs in
between and however it ends: no run leaves a scope behind, and none leaves one too many. -/
theorem scope_stack_discipline (s : Session) (hc : s.current = s.root) (a : Scope Value)
    (ha : s.store.scopes[s.root]? = some a) (hp : a.parent = none) (steps : List Step) :
    let t := (steps.foldl Session.track (s, [])).1
    let stack := (steps.foldl Session.track (s, [])).2
    t.root = s.root ∧ t.store.chain t.current = stack ++ [s.root] ∧
      (∀ location, (∃ e, t.leave location = .error e) ↔ stack = []) ∧
      (∀ location e, t.leave location = .error e →
        e = ⟨.outermostScope, location⟩ ∧ e.kind = .nesting ∧
          Session.track (t, stack) (.leave location) = (t, stack)) ∧
      (∀ location u, t.leave location = .ok u → ∃ inner rest outer, stack = inner :: rest ∧
        (rest ++ [s.root]).head? = some outer ∧ u = { t with current := outer }) ∧
      ∀ settings lexicon source, (t.run settings lexicon source).session.current = t.current ∧
        ∀ e, (t.run settings lexicon source).result = .error (.error e) → e.kind ≠ .nesting := by
  -- the chain of scopes from the current one outwards is the stack, at first and after every step
  have start : Tracking s.root s [] := by
    refine ⟨rfl, (Array.getElem?_eq_some_iff.1 ha).1, by simp [ha, hp], ?_⟩
    rw [hc, Store.chain, ha]
    simp [hp]
  have tracked := start.history steps
  generalize steps.foldl Session.track (s, []) = p at tracked
  obtain ⟨t, stack⟩ := p
  refine ⟨tracked.root_eq, tracked.chain, fun location => ?_, fun location e he => ?_,
    fun location u hu => ?_, fun settings lexicon source => ?_⟩
  · cases stack with
    | nil => simp [tracked.leave_nil]
    | cons inner rest =>
      obtain ⟨outer, left, -⟩ := tracked.leave_cons location
      simp [left]
  · cases stack with
    | nil =>
      rw [tracked.leave_nil] at he
      cases he
      exact ⟨rfl, rfl, by simp [Session.track, tracked.leave_nil]⟩
    | cons inner rest =>
      obtain ⟨outer, left, -⟩ := tracked.leave_cons location
      rw [left] at he
      cases he
  · cases stack with
    | nil =>
      rw [tracked.leave_nil] at hu
      cases hu
    | cons inner rest =>
      obtain ⟨outer, left, head, -⟩ := tracked.leave_cons location
      rw [left] at hu
      exact ⟨inner, rest, outer, rfl, head, (Except.ok.inj hu).symm⟩
  · obtain ⟨hc, -, -, fails⟩ := t.run_frame settings lexicon source
    refine ⟨hc, fun e he => ?_⟩
    have among := (fails _ he).1
    intro hk
    rw [hk] at among
    exact absurd among (by decide)

theorem scope_stack_discipline_failing_loop :
    let steps := [Step.enter, .enter,
      .run {} .standard "while true \x7b var a = 1; var f() \x7b \x7d f(); var a = 2; \x7d",
      .leave none]
    let t := (steps.foldl Session.track (Session.start, [])).1
    Session.start.current = Session.start.root ∧
      Session.start.store.scopes[Session.start.root]?.bind Scope.parent = none ∧
      t.root = 0 ∧ t.store.chain t.current = [1, 0] ∧ ¬ ∃ e, t.leave none = .error e := by
  intro steps t
  have stack : (steps.foldl Session.track (Session.start, [])).2 = [1] := by decide +kernel
  obtain ⟨root, chain, error, -⟩ := scope_stack_discipline Session.start rfl _ rfl rfl steps
  refine ⟨rfl, rfl, root, by rw [chain, stack]; rfl, ?_⟩
  rw [error none, stack]
  simp

end Session

end ScopedScript
