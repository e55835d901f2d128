import Mathlib.Data.List.Basic
import ScopedScript.Proofs.Run.Steady
import ScopedScript.Session

namespace ScopedScript

open Statement

def ExceedsCap {α : Type} (r : Except Failure α) : Prop :=
  ∃ e, r = .error (.error e) ∧ e.kind = .iteration

/-- The second run ends as the first one does, unless a loop of the first one exceeds its cap. -/
def Persists {α : Type} (run run' : Machine → Outcome α) : Prop :=
  ∀ m, ExceedsCap (run m).result ∨ run' m = run m

structure Settings.Raises (settings raised : Settings) (low high : Int) : Prop where
  tracing : raised.tracing = settings.tracing
  lower : settings.cap = .ok low
  higher : raised.cap = .ok high
  le : low ≤ high

theorem exceedsCap_iterationLimit {α : Type} (cap : Int) (location : Location) :
    ExceedsCap (.error (.ofCause (.iterationLimit cap) location) : Except Failure α) :=
  ⟨_, rfl, rfl⟩

theorem Outcome.eq_of_exceedsCap {α : Type} {o : Outcome α} (h : ExceedsCap o.result) :
    ∃ e m, o = ⟨.error (.error e), m⟩ ∧ e.kind = .iteration := by
  obtain ⟨r, m⟩ := o
  obtain ⟨e, rfl, hk⟩ := h
  exact ⟨e, m, rfl, hk⟩

def Outcome.withMore (o : Outcome Nat) (extra : Nat) : Outcome Nat :=
  ⟨o.result.map (· + extra), o.machine⟩

theorem Outcome.leave_withMore (o : Outcome Nat) (extra : Nat) (location : Location) :
    (o.withMore extra).leave location = (o.leave location).withMore extra := by
  unfold withMore leave
  dsimp only
  cases o.machine.toSession.leave location <;> rfl

section

variable {body body' : Machine → Outcome Unit}

theorem Persists.within (h : Persists body body') (template : ScopeId) :
    Persists (fun m => m.within template body) (fun m => m.within template body') := by
  intro m
  rcases h (m.inside template) with exceeds | same
  · exact .inl exceeds
  · right
    dsimp only
    rw [Machine.within, same]
    rfl

theorem iterate_persists (h : Persists body body') (again : Store Value → Except Failure Bool)
    {exceeded : Failure} (he : ExceedsCap (.error exceeded : Except Failure Nat))
    (exceeded' : Failure) (extra left : Nat) (m : Machine) :
    ExceedsCap (iterate body again exceeded left m).result ∨
      iterate body' again exceeded' (left + extra) m =
        (iterate body again exceeded left m).withMore extra := by
  induction left generalizing m with
  | zero => exact .inl he
  | succ left ih =>
    rw [Nat.add_right_comm, iterate, iterate]
    rcases h m with exceeds | same
    · obtain ⟨e, n, failed, hk⟩ := Outcome.eq_of_exceedsCap exceeds
      rw [failed]
      exact .inl ⟨e, rfl, hk⟩
    · rw [same]
      rcases body m with ⟨failure | ⟨⟩, n⟩
      · exact .inr rfl
      · dsimp only
        rcases again n.store with failure | b
        · exact .inr rfl
        · cases b with
          | false => exact .inr rfl
          | true => exact ih n

theorem Settings.Raises.note_eq {settings raised : Settings} {low high : Int}
    (hr : settings.Raises raised low high) (m : Machine) (line : String) :
    m.note raised line = m.note settings line := by
  rw [Machine.note, Machine.note, hr.tracing]

theorem runLoop_persists {settings raised : Settings} {low high : Int}
    (hr : settings.Raises raised low high) (location : Location) (condition : Expr)
    (h : Persists body body') (hs : ∀ m, Steady (some m.current) m (body m)) :
    Persists (runLoop settings location condition body)
      (runLoop raised location condition body') := by
  intro m
  obtain ⟨extra, hcap⟩ := Nat.exists_eq_add_of_le (Int.toNat_le_toNat hr.le)
  simp only [runLoop, hr.note_eq, hr.lower, hr.higher, hcap]
  generalize m.note settings ("while " ++ condition.render) = n
  have ends := iterate_persists (h.within n.enter.current)
    (fun store => testCondition (store.view n.current) condition .loopCondition location)
    (exceedsCap_iterationLimit low location) (.ofCause (.iterationLimit high) location) extra
    low.toNat n.enter
  have steady := rounds_steady low location condition hs n
  rw [rounds] at steady
  -- the scope of the rounds can be left however they end, so leaving it hides no failure
  have left := Outcome.leave_eq n location steady.current steady.frame
  rcases ends with ⟨e, failed, hk⟩ | same
  · left
    refine ⟨e, ?_, hk⟩
    rw [left, failed]
  · right
    rw [same, Outcome.leave_withMore]
    rcases (iterate _ _ _ _ _).leave location with ⟨failure | rest, k⟩
    · rfl
    · simp only [Outcome.withMore, Except.map, Nat.add_sub_add_right]

end

namespace Statement

section

variable {settings raised : Settings} {low high : Int}
  {invoke invoke' : Method → Machine → Outcome Unit}

theorem noteStart_raised (hr : settings.Raises raised low high) (s : Statement) (m : Machine) :
    noteStart raised s m = noteStart settings s m :=
  hr.note_eq m _

theorem runCall_persists (hi : ∀ method, Persists (invoke method) (invoke' method)) (name : Name)
    (arguments : List Expr) :
    Persists (runCall invoke name arguments) (runCall invoke' name arguments) := by
  intro m
  unfold runCall
  cases m.store.methodNamed? m.current name.text with
  | none => exact .inr rfl
  | some callee =>
    dsimp only
    rcases checkAll (m.store.view m.current) arguments with failure | ⟨⟩
    · exact .inr rfl
    · exact hi callee m

mutual

theorem run_persists (hr : settings.Raises raised low high)
    (hi : ∀ method, Persists (invoke method) (invoke' method))
    (hs : InvokeKept (fun m o => Steady (some m.current) m o) invoke) :
    ∀ s : Statement, Persists (run settings invoke s) (run raised invoke' s)
  | .declare name none, m => by
    rw [run, run, noteStart_raised hr]
    exact .inr rfl
  | .declare name (some e), m => by
    rw [run, run, noteStart_raised hr]
    exact .inr rfl
  | .method name parameters body, m => by
    rw [run, run, noteStart_raised hr]
    exact .inr rfl
  | .assign name e, m => by
    rw [run, run, noteStart_raised hr]
    exact .inr rfl
  | .call name arguments, m => by
    rw [run, run, noteStart_raised hr]
    exact runCall_persists hi name arguments _
  | .branch location condition body, m => by
    rw [run, run, noteStart_raised hr]
    generalize noteStart settings _ m = n
    rcases testCondition (n.store.view n.current) condition _ location with failure | _ | _
    · exact .inr rfl
    · exact .inr rfl
    · exact runAll_persists hr hi hs body n
  | .loop location condition body, m => by
    rw [run, run, noteStart_raised hr]
    generalize noteStart settings _ m = n
    rcases testCondition (n.store.view n.current) condition _ location with failure | _ | _
    · exact .inr rfl
    · exact .inr rfl
    · exact runLoop_persists hr location condition (runAll_persists hr hi hs body)
        ((kept_steady settings).runAll_of hs body) n

theorem runAll_persists (hr : settings.Raises raised low high)
    (hi : ∀ method, Persists (invoke method) (invoke' method))
    (hs : InvokeKept (fun m o => Steady (some m.current) m o) invoke) :
    ∀ b : Block, Persists (runAll settings invoke b) (runAll raised invoke' b)
  | [], m => by
    rw [runAll, runAll]
    exact .inr rfl
  | s :: ss, m => by
    rw [runAll, runAll]
    rcases run_persists hr hi hs s m with exceeds | same
    · obtain ⟨e, n, failed, hk⟩ := Outcome.eq_of_exceedsCap exceeds
      rw [failed]
      exact .inl ⟨e, rfl, hk⟩
    · rw [same]
      rcases run settings invoke s m with ⟨failure | ⟨⟩, n⟩
      · exact .inr rfl
      · exact runAll_persists hr hi hs ss n

end

end

end Statement

variable {settings raised : Settings} {low high : Int}

theorem Method.invoke_persists (hr : settings.Raises raised low high) (depth : Nat)
    (method : Method) : Persists (invoke settings depth method) (invoke raised depth method) := by
  induction depth generalizing method with
  | zero => exact fun m => .inr rfl
  | succ depth ih =>
    have body := runAll_persists hr ih ((kept_steady settings).invokeKept depth) method.body
    exact body.within method.template

theorem Block.run_persists (hr : settings.Raises raised low high) (program : Block) :
    Persists (Block.run settings program) (Block.run raised program) :=
  runAll_persists hr (Method.invoke_persists hr Method.callDepth)
    ((kept_steady settings).invokeKept Method.callDepth) program

namespace Session

theorem load_raised (hr : settings.Raises raised low high) (lexicon : Lexicon) (source : String) :
    load raised lexicon source = load settings lexicon source := by
  simp only [load, hr.tracing]

theorem run_persists (hr : settings.Raises raised low high) (s : Session) (lexicon : Lexicon)
    (source : String) : ExceedsCap (s.run settings lexicon source).result ∨
      s.run raised lexicon source = s.run settings lexicon source := by
  unfold run
  rw [load_raised hr]
  rcases load settings lexicon source with ⟨failure | program, notes⟩
  · exact .inr rfl
  · dsimp only
    rcases program.run_persists hr ⟨s, notes⟩ with exceeds | same
    · obtain ⟨e, m, failed, hk⟩ := Outcome.eq_of_exceedsCap exceeds
      rw [failed]
      exact .inl ⟨e, rfl, hk⟩
    · exact .inr (by rw [same])

/-- A run in which no loop exceeds the cap is the same under a higher one: it ends well or with the
same error at the same place, and it leaves the same scopes. So a loop that exceeds the higher cap
exceeds the lower one. -/
theorem raised_cap (settings raised : Settings) (low high : Int)
    (tracing : raised.tracing = settings.tracing) (lower : settings.cap = .ok low)
    (higher : raised.cap = .ok high) (le : low ≤ high) :
    (∀ (program : Block) (m : Machine),
      let o := program.run settings m
      (¬ ExceedsCap o.result → program.run raised m = o) ∧
        (ExceedsCap (program.run raised m).result → ExceedsCap o.result)) ∧
    ∀ (s : Session) (lexicon : Lexicon) (source : String),
      let o := s.run settings lexicon source
      (¬ ExceedsCap o.result → s.run raised lexicon source = o) ∧
        (ExceedsCap (s.run raised lexicon source).result → ExceedsCap o.result) := by
  have raises : settings.Raises raised low high := ⟨tracing, lower, higher, le⟩
  refine ⟨fun program m => ?_, fun s lexicon source => ?_⟩
  · have ends := program.run_persists raises m
    exact ⟨ends.resolve_left, fun h => ends.elim id fun same => same ▸ h⟩
  · have ends := s.run_persists raises lexicon source
    exact ⟨ends.resolve_left, fun h => ends.elim id fun same => same ▸ h⟩

theorem raised_cap_nested_loops :
    let source := "var n = 2; var f() \x7b var i = n; while i > 0 \x7b i = i - 1; \x7d \x7d " ++
      "while n > 0 \x7b f(); n = n - 1; \x7d n = gone;"
    let o := start.run ⟨false, some "2"⟩ .standard source
    Settings.cap ⟨false, some "2"⟩ = .ok 2 ∧ Settings.cap ⟨false, some "5"⟩ = .ok 5 ∧
      o.result = .error (.error ⟨.unknownName "gone", some ⟨1, 98, 97⟩⟩) ∧
      start.run ⟨false, some "5"⟩ .standard source = o := by
  intro source o
  have result : o.result = .error (.error ⟨.unknownName "gone", some ⟨1, 98, 97⟩⟩) := by
    decide +kernel
  have within : ¬ ExceedsCap o.result := by
    rw [result]
    rintro ⟨e, h, hk⟩
    cases h
    cases hk
  refine ⟨rfl, rfl, result, ?_⟩
  exact ((raised_cap ⟨false, some "2"⟩ ⟨false, some "5"⟩ 2 5 rfl rfl rfl (by decide)).2 start
    .standard source).1 within

end Session

end ScopedScript
