import ScopedScript.Proofs.Run.Failure

/-!
# Induction over runs

`Kept settings Q` says that the constructs of the language keep a relation `Q` between machines and
the outcomes of runs in them; `Kept.run` concludes that every run is in the relation. `iterate_rel`
does the same for the rounds of a loop. Everything that holds of all runs is proved through the two.
-/

namespace ScopedScript

open Statement

structure Kept (settings : Settings) (Q : Machine → Outcome Unit → Prop) : Prop where
  done (m : Machine) : Q m ⟨.ok (), m⟩
  failed (m : Machine) (f : Failure) :
    f.Among ErrorKind.ofRun → f.Arises settings → Q m ⟨.error f, m⟩
  trace (m : Machine) (notes : Array String) (o : Outcome Unit) :
    Q { m with trace := notes } o → Q m o
  seq (m m' : Machine) (o : Outcome Unit) : Q m ⟨.ok (), m'⟩ → Q m' o → Q m o
  declare (m : Machine) (name : Name) (value : Value) (origin : Origin) :
    Q m (runDeclare name value origin m)
  assign (m : Machine) (name : Name) (e : Expr) : Q m (runAssign name e m)
  method (m : Machine) (name : Name) (parameters : List String) (body : Block) :
    Q m (runMethod name parameters body m)
  call (m : Machine) (name : String) (callee : Method) (body : Machine → Outcome Unit) :
    m.store.methodNamed? m.current name = some callee → (∀ m, Q m (body m)) →
      Q m (m.within callee.template body)
  loop (m : Machine) (location : Location) (condition : Expr)
    (body : Machine → Outcome Unit) : (∀ m, Q m (body m)) →
      Q m (runLoop settings location condition body m)

theorem Machine.note_eq (m : Machine) (settings : Settings) (line : String) :
    ∃ notes, m.note settings line = { m with trace := notes } := by
  unfold Machine.note
  split
  · exact ⟨_, rfl⟩
  · exact ⟨m.trace, rfl⟩

@[simp] theorem Machine.note_toSession (m : Machine) (settings : Settings) (line : String) :
    (m.note settings line).toSession = m.toSession := by
  obtain ⟨notes, h⟩ := m.note_eq settings line
  rw [h]

@[simp] theorem Statement.noteStart_toSession (settings : Settings) (s : Statement) (m : Machine) :
    (noteStart settings s m).toSession = m.toSession :=
  m.note_toSession settings _

def Statement.rounds (cap : Int) (location : Location) (condition : Expr)
    (body : Machine → Outcome Unit) (m : Machine) : Outcome Nat :=
  iterate (fun n => n.within m.enter.current body)
    (fun store => testCondition (store.view m.current) condition .loopCondition location)
    (.ofCause (.iterationLimit cap) location) cap.toNat m.enter

theorem runLoop_cases (settings : Settings) (location : Location) (condition : Expr)
    (body : Machine → Outcome Unit) (m : Machine) :
    let n := m.note settings ("while " ++ condition.render)
    (∃ f, settings.cap = .error f ∧
        runLoop settings location condition body m = ⟨.error (.fault f), n⟩) ∨
      ∃ cap notes, settings.cap = .ok cap ∧
        let o := (rounds cap location condition body n).leave location
        runLoop settings location condition body m =
          ⟨o.result.map fun _ => (), { o.machine with trace := notes }⟩ := by
  intro n
  unfold runLoop
  cases hc : settings.cap with
  | error f => exact .inl ⟨f, rfl, rfl⟩
  | ok cap =>
    refine .inr ⟨cap, ?_⟩
    generalize ho : (rounds cap location condition body n).leave location = o
    rw [rounds] at ho
    dsimp only
    rw [ho]
    obtain ⟨f | left, k⟩ := o
    · exact ⟨k.trace, rfl, rfl⟩
    · obtain ⟨notes', hk⟩ := k.note_eq settings
        ("while finished after " ++ Number.intText (cap.toNat - left : Nat) ++ " iterations")
      exact ⟨notes', rfl, congrArg (Outcome.mk (.ok ())) hk⟩

def InvokeKept (Q : Machine → Outcome Unit → Prop) (invoke : Method → Machine → Outcome Unit) :
    Prop :=
  ∀ m name callee, m.store.methodNamed? m.current name = some callee → Q m (invoke callee m)

namespace Kept

variable {settings : Settings} {Q : Machine → Outcome Unit → Prop}
  {invoke : Method → Machine → Outcome Unit}

theorem start (K : Kept settings Q) {m : Machine} {s : Statement} {o : Outcome Unit}
    (h : Q (noteStart settings s m) o) : Q m o := by
  obtain ⟨notes, hn⟩ := m.note_eq settings _
  rw [noteStart, hn] at h
  exact K.trace m notes o h

theorem call_run (K : Kept settings Q) (hi : InvokeKept Q invoke) (name : Name)
    (arguments : List Expr) (m : Machine) : Q m (runCall invoke name arguments m) := by
  unfold runCall
  split
  · exact K.failed m _ (by simp [Cause.kind, ErrorKind.ofRun]) (by simp)
  · rename_i callee hc
    split
    · rename_i f hf
      exact K.failed m f ((checkAll_failsWith _ _ f hf).mono (by decide))
        (checkAll_failsUnder settings _ _ f hf)
    · exact hi m name.text callee hc

mutual

theorem run_of (K : Kept settings Q) (hi : InvokeKept Q invoke) :
    ∀ (s : Statement) (m : Machine), Q m (Statement.run settings invoke s m)
  | .declare name none, m => by
    rw [Statement.run]
    exact K.start (K.declare _ name _ _)
  | .declare name (some e), m => by
    rw [Statement.run]
    apply K.start
    split
    · rename_i f hf
      exact K.failed _ f ((e.value_failsWith _ f hf).mono (by decide))
        (e.value_failsUnder settings _ f hf)
    · exact K.declare _ name _ _
  | .method name parameters body, m => by
    rw [Statement.run]
    exact K.start (K.method _ name parameters body)
  | .assign name e, m => by
    rw [Statement.run]
    exact K.start (K.assign _ name e)
  | .call name arguments, m => by
    rw [Statement.run]
    exact K.start (K.call_run hi name arguments _)
  | .branch location condition body, m => by
    rw [Statement.run]
    apply K.start
    split
    · rename_i f hf
      exact K.failed _ f (testCondition_failsWith _ _ _ _ rfl f hf)
        (testCondition_failsUnder settings _ _ _ _ f hf)
    · exact K.done _
    · exact K.runAll_of hi body _
  | .loop location condition body, m => by
    rw [Statement.run]
    apply K.start
    split
    · rename_i f hf
      exact K.failed _ f (testCondition_failsWith _ _ _ _ rfl f hf)
        (testCondition_failsUnder settings _ _ _ _ f hf)
    · exact K.done _
    · exact K.loop _ location condition _ fun m => K.runAll_of hi body m

theorem runAll_of (K : Kept settings Q) (hi : InvokeKept Q invoke) :
    ∀ (b : Block) (m : Machine), Q m (Statement.runAll settings invoke b m)
  | [], m => by
    rw [Statement.runAll]
    exact K.done m
  | s :: ss, m => by
    rw [Statement.runAll]
    have first := K.run_of hi s m
    split
    · rename_i f m' h
      rwa [h] at first
    · rename_i m' h
      rw [h] at first
      exact K.seq m m' _ first (K.runAll_of hi ss m')

end

theorem invokeKept (K : Kept settings Q) (depth : Nat) :
    InvokeKept Q (Method.invoke settings depth) := by
  induction depth with
  | zero => exact fun m _ _ _ => K.failed m _ (by simp) (by simp)
  | succ depth ih =>
    intro m name callee h
    exact K.call m name callee _ h fun m => K.runAll_of ih callee.body m

theorem run (K : Kept settings Q) (depth : Nat) (s : Statement) (m : Machine) :
    Q m (Statement.run settings (Method.invoke settings depth) s m) :=
  K.run_of (K.invokeKept depth) s m

theorem runAll (K : Kept settings Q) (depth : Nat) (b : Block) (m : Machine) :
    Q m (Statement.runAll settings (Method.invoke settings depth) b m) :=
  K.runAll_of (K.invokeKept depth) b m

end Kept

theorem iterate_rel {R : Machine → Machine → Prop} (refl : ∀ m, R m m)
    (trans : ∀ {m m' m''}, R m m' → R m' m'' → R m m'') {round : Machine → Outcome Unit}
    (again : Store Value → Except Failure Bool) (exceeded : Failure)
    (h : ∀ m, R m (round m).machine) (left : Nat) (m : Machine) :
    R m (iterate round again exceeded left m).machine := by
  induction left generalizing m with
  | zero => exact refl m
  | succ left ih =>
    rw [iterate]
    have first := h m
    split
    · rename_i f m' hm
      rwa [hm] at first
    · rename_i m' hm
      rw [hm] at first
      split
      · exact first
      · exact first
      · exact trans first (ih m')

theorem iterate_fails {P : Failure → Prop} {round : Machine → Outcome Unit}
    {again : Store Value → Except Failure Bool} {exceeded : Failure}
    (hr : ∀ m f, (round m).result = .error f → P f) (ha : ∀ s f, again s = .error f → P f)
    (he : P exceeded) (left : Nat) (m : Machine) (f : Failure)
    (h : (iterate round again exceeded left m).result = .error f) : P f := by
  induction left generalizing m with
  | zero =>
    cases h
    exact he
  | succ left ih =>
    rw [iterate] at h
    split at h
    · rename_i m' hm
      cases h
      exact hr m f (by rw [hm])
    · split at h
      · rename_i hf
        cases h
        exact ha _ f hf
      · cases h
      · exact ih _ h

end ScopedScript
