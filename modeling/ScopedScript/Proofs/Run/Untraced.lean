import ScopedScript.Session

namespace ScopedScript

open Statement

def Settings.untraced (settings : Settings) : Settings := { settings with tracing := false }

def Machine.hushed (m : Machine) : Machine := { m with trace := #[] }

def Outcome.hushed {α : Type} (o : Outcome α) : Outcome α := ⟨o.result, o.machine.hushed⟩

def Hushes {α : Type} (quiet run : Machine → Outcome α) : Prop := ∀ m, quiet m.hushed = (run m).hushed

variable {settings : Settings}

theorem Machine.note_hushed (m : Machine) (line : String) :
    m.hushed.note settings.untraced line = (m.note settings line).hushed := by
  have quiet : m.hushed.note settings.untraced line = m.hushed := rfl
  rw [quiet, note]
  split <;> rfl

theorem Statement.noteStart_hushed (s : Statement) (m : Machine) :
    noteStart settings.untraced s m.hushed = (noteStart settings s m).hushed :=
  m.note_hushed _

theorem Outcome.leave_hushed {α : Type} (o : Outcome α) (location : Location) :
    o.hushed.leave location = (o.leave location).hushed := by
  have same : o.hushed.machine.toSession = o.machine.toSession := rfl
  unfold leave
  rw [same]
  cases o.machine.toSession.leave location <;> rfl

section

variable {quiet body : Machine → Outcome Unit}

theorem Hushes.within (h : Hushes quiet body) (template : ScopeId) :
    Hushes (fun m => m.within template quiet) (fun m => m.within template body) := by
  intro m
  have inner := h (m.inside template)
  calc m.hushed.within template quiet
      = ⟨(quiet (m.inside template).hushed).result,
          { (quiet (m.inside template).hushed).machine with current := m.current }⟩ := rfl
    _ = (m.within template body).hushed := by rw [inner]; rfl

theorem iterate_hushes (h : Hushes quiet body) (again : Store Value → Except Failure Bool)
    (exceeded : Failure) (left : Nat) :
    Hushes (iterate quiet again exceeded left) (iterate body again exceeded left) := by
  induction left with
  | zero => exact fun m => rfl
  | succ left ih =>
    intro m
    rw [iterate, iterate, h m]
    rcases body m with ⟨failure | ⟨⟩, n⟩
    · rfl
    · have same : n.hushed.store = n.store := rfl
      simp only [Outcome.hushed, same]
      rcases again n.store with failure | b
      · rfl
      · cases b with
        | false => rfl
        | true => exact ih n

theorem runLoop_hushes (location : Location) (condition : Expr) (h : Hushes quiet body) :
    Hushes (runLoop settings.untraced location condition quiet)
      (runLoop settings location condition body) := by
  intro m
  have cap : settings.untraced.cap = settings.cap := rfl
  unfold runLoop
  rw [m.note_hushed, cap]
  generalize m.note settings ("while " ++ condition.render) = n
  cases settings.cap with
  | error f => rfl
  | ok cap =>
    have rounds := iterate_hushes (h.within n.enter.current)
      (fun store => testCondition (store.view n.current) condition .loopCondition location)
      (.ofCause (.iterationLimit cap) location) cap.toNat n.enter
    have entered : n.hushed.enter = n.enter.hushed := rfl
    have current : n.hushed.current = n.current := rfl
    dsimp only
    rw [entered, current, show n.enter.hushed.current = n.enter.current from rfl, rounds,
      Outcome.leave_hushed]
    rcases (iterate _ _ _ _ _).leave location with ⟨failure | left, k⟩
    · rfl
    · exact congrArg (Outcome.mk (.ok ())) (k.note_hushed _)

end

namespace Statement

theorem runDeclare_hushes (name : Name) (value : Value) (origin : Origin) :
    Hushes (runDeclare name value origin) (runDeclare name value origin) := by
  intro m
  have same : m.hushed.toSession = m.toSession := rfl
  unfold runDeclare
  rw [same]
  cases m.store.conflict? m.current name.text <;> rfl

theorem runAssign_hushes (name : Name) (e : Expr) :
    Hushes (runAssign name e) (runAssign name e) := by
  intro m
  have same : m.hushed.toSession = m.toSession := rfl
  unfold runAssign
  rw [same]
  cases m.store.variableOwner? m.current name.text with
  | none => rfl
  | some owner => cases e.value (m.store.view m.current) <;> rfl

theorem runMethod_hushes (name : Name) (parameters : List String) (body : Block) :
    Hushes (runMethod name parameters body) (runMethod name parameters body) := by
  intro m
  have added : addMethod m.hushed.current name parameters body m.hushed.enter =
      (addMethod m.current name parameters body m.enter).hushed := by
    have same : m.hushed.enter.toSession = m.enter.toSession := rfl
    unfold addMethod
    rw [same, show m.hushed.current = m.current from rfl]
    cases m.enter.store.conflict? m.current name.text <;> rfl
  rw [runMethod, added, Outcome.leave_hushed, runMethod]

variable {calm invoke : Method → Machine → Outcome Unit}

theorem runCall_hushes (hi : ∀ method, Hushes (calm method) (invoke method)) (name : Name)
    (arguments : List Expr) : Hushes (runCall calm name arguments) (runCall invoke name arguments) := by
  intro m
  have same : m.hushed.toSession = m.toSession := rfl
  unfold runCall
  rw [same]
  cases m.store.methodNamed? m.current name.text with
  | none => rfl
  | some callee =>
    dsimp only
    rcases checkAll (m.store.view m.current) arguments with failure | ⟨⟩
    · rfl
    · exact hi callee m

mutual

theorem run_hushes (hi : ∀ method, Hushes (calm method) (invoke method)) :
    ∀ s : Statement, Hushes (run settings.untraced calm s) (run settings invoke s)
  | .declare name none, m => by
    rw [run, run, noteStart_hushed]
    exact runDeclare_hushes name _ _ _
  | .declare name (some e), m => by
    rw [run, run, noteStart_hushed]
    generalize noteStart settings _ m = n
    have same : n.hushed.toSession = n.toSession := rfl
    rw [same]
    rcases e.value (n.store.view n.current) with failure | value
    · rfl
    · exact runDeclare_hushes name _ _ n
  | .method name parameters body, m => by
    rw [run, run, noteStart_hushed]
    exact runMethod_hushes name parameters body _
  | .assign name e, m => by
    rw [run, run, noteStart_hushed]
    exact runAssign_hushes name e _
  | .call name arguments, m => by
    rw [run, run, noteStart_hushed]
    exact runCall_hushes hi name arguments _
  | .branch location condition body, m => by
    rw [run, run, noteStart_hushed]
    generalize noteStart settings _ m = n
    have same : n.hushed.toSession = n.toSession := rfl
    rw [same]
    rcases testCondition (n.store.view n.current) condition _ location with failure | _ | _
    · rfl
    · rfl
    · exact runAll_hushes hi body n
  | .loop location condition body, m => by
    rw [run, run, noteStart_hushed]
    generalize noteStart settings _ m = n
    have same : n.hushed.toSession = n.toSession := rfl
    rw [same]
    rcases testCondition (n.store.view n.current) condition _ location with failure | _ | _
    · rfl
    · rfl
    · exact runLoop_hushes location condition (runAll_hushes hi body) n

theorem runAll_hushes (hi : ∀ method, Hushes (calm method) (invoke method)) :
    ∀ b : Block, Hushes (runAll settings.untraced calm b) (runAll settings invoke b)
  | [], m => by
    rw [runAll, runAll]
    rfl
  | s :: ss, m => by
    rw [runAll, runAll, run_hushes hi s m]
    rcases run settings invoke s m with ⟨failure | ⟨⟩, n⟩
    · rfl
    · exact runAll_hushes hi ss n

end

end Statement

theorem Method.invoke_hushes (depth : Nat) (method : Method) :
    Hushes (invoke settings.untraced depth method) (invoke settings depth method) := by
  induction depth generalizing method with
  | zero => exact fun m => rfl
  | succ depth ih =>
    have body : Hushes (runAll settings.untraced (invoke settings.untraced depth) method.body)
        (runAll settings (invoke settings depth) method.body) := runAll_hushes ih method.body
    exact body.within method.template

theorem Block.run_hushes (program : Block) :
    Hushes (Block.run settings.untraced program) (Block.run settings program) :=
  runAll_hushes (Method.invoke_hushes Method.callDepth) program

namespace Session

theorem load_untraced (lexicon : Lexicon) (source : String) :
    load settings.untraced lexicon source = ((load settings lexicon source).1, #[]) := by
  unfold load
  dsimp only
  cases (lexicon.scan source).error? <;> rfl

theorem run_untraced (settings : Settings) (s : Session) (lexicon : Lexicon) (source : String) :
    s.run settings.untraced lexicon source =
      { s.run settings lexicon source with trace := #[] } := by
  unfold run
  rw [load_untraced]
  rcases load settings lexicon source with ⟨failure | program, notes⟩
  · rfl
  · have quiet : Block.run settings.untraced program ⟨s, #[]⟩ =
        (Block.run settings program ⟨s, notes⟩).hushed := program.run_hushes ⟨s, notes⟩
    dsimp only
    rw [quiet]
    rcases Block.run settings program ⟨s, notes⟩ with ⟨failure | ⟨⟩, m⟩ <;> rfl

/-- The text that asks for a trace decides about the notes of a run and about nothing else: the run
ends in the same way, with the same answer and in the same session, whatever the text is. Where
there is none, or an empty one, nothing is noted. -/
theorem trace_unobserved (debug debug' loopCap : Option String) (s : Session) (lexicon : Lexicon)
    (source : String) :
    let run (debug : Option String) := s.run (.ofTexts debug loopCap) lexicon source
    let handled (debug : Option String) := s.handle (.ofTexts debug loopCap) source
    (run debug).result = (run debug').result ∧ (run debug).session = (run debug').session ∧
      (run none).trace = #[] ∧ (run (some "")).trace = #[] ∧
      (handled debug).1 = (handled debug').1 ∧ (handled debug).2.1 = (handled debug').2.1 ∧
      (handled none).2.2 = #[] ∧ (handled (some "")).2.2 = #[] := by
  have untraced (l : Lexicon) (debug : Option String) :
      s.run (.ofTexts none loopCap) l source =
        { s.run (.ofTexts debug loopCap) l source with trace := #[] } :=
    run_untraced (.ofTexts debug loopCap) s l source
  have same (l : Lexicon) : (s.run (.ofTexts debug loopCap) l source).result =
        (s.run (.ofTexts debug' loopCap) l source).result ∧
      (s.run (.ofTexts debug loopCap) l source).session =
        (s.run (.ofTexts debug' loopCap) l source).session := by
    have equal := SourceRun.mk.inj ((untraced l debug).symm.trans (untraced l debug'))
    exact ⟨equal.1, equal.2.1⟩
  have silent (l : Lexicon) : (s.run (.ofTexts none loopCap) l source).trace = #[] :=
    congrArg SourceRun.trace (untraced l none)
  obtain ⟨result, session⟩ := same .standard
  refine ⟨(same lexicon).1, (same lexicon).2, silent lexicon, silent lexicon, ?_, ?_,
    silent .standard, silent .standard⟩
  · simp only [handle, result, session]
  · simp only [handle, session]

end Session

end ScopedScript
